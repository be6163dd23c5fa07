import SmsGateway.Ota.Uploads

/-! The sessions over any order of calls, and what one upload stages. -/

namespace SmsGateway.Ota

/-- The diagnostics, the sessions that were not freed, and all calls so far. -/
structure State where
  diag : Diagnostics
  sessions : List Session
  calls : List Call
  deriving DecidableEq, Repr

/-- `gateway_ota_service_init`. -/
def gatewayOtaServiceInit : State := ⟨⟨false, 0, 0, 0, 0, espOk, .empty⟩, [], []⟩

/-- A call of the service; the index is the session it is given. -/
inductive Operation where
  | begin (request : Request) (a : BeginAnswers)
  | write (index : Nat) (data : List UInt8) (a : WriteAnswers)
  | finish (index : Nat) (a : FinishAnswers)
  | abort (index : Nat)
  deriving DecidableEq, Repr

def State.upload (s : State) (session : Session) : Upload := ⟨session, s.diag, s.calls⟩

def State.step (sha256 : List UInt8 → List UInt8) (s : State) : Operation → State
  | .begin request a =>
      let (_, session, diag, calls) := gatewayOtaBegin s.diag s.calls request a
      ⟨diag, s.sessions ++ session.toList, calls⟩
  | .write index data a =>
      match s.sessions[index]? with
      | none => s
      | some session =>
          let (_, u) := gatewayOtaWrite (s.upload session) data a
          ⟨u.diag, s.sessions.set index u.session, u.calls⟩
  | .finish index a =>
      match s.sessions[index]? with
      | none => s
      | some session =>
          let (_, _, diag, calls) := gatewayOtaFinish sha256 (s.upload session) a
          ⟨diag, s.sessions.eraseIdx index, calls⟩
  | .abort index =>
      match s.sessions[index]? with
      | none => s
      | some session =>
          let (diag, calls) := gatewayOtaAbort (s.upload session)
          ⟨diag, s.sessions.eraseIdx index, calls⟩

def State.run (sha256 : List UInt8 → List UInt8) (s : State) (operations : List Operation) : State :=
  operations.foldl (State.step sha256) s

/-- The uploads that ended, by their counters. -/
def Diagnostics.ended (diag : Diagnostics) : UInt32 :=
  diag.uploadSuccesses + diag.uploadRejections + diag.uploadFailures

/-- The flag and the counters tell whether a session is live. -/
structure Accounted (s : State) : Prop where
  live : s.diag.updateInProgress = true ↔ s.sessions.length = 1
  single : s.sessions.length ≤ 1
  balance : s.diag.uploadAttempts = s.diag.ended + if s.sessions.length = 1 then 1 else 0

/-- One upload more has ended, and the session with it. -/
def Ends (diag after : Diagnostics) : Prop :=
  after.updateInProgress = false ∧ after.uploadAttempts = diag.uploadAttempts ∧
    after.ended = diag.ended + 1

theorem record_ends (diag : Diagnostics) (err : EspErr) :
    (diag.record err).uploadAttempts = diag.uploadAttempts ∧
      (diag.record err).ended = diag.ended + 1 := by
  unfold Diagnostics.record
  dsimp only
  split
  · refine ⟨rfl, ?_⟩
    simp only [Diagnostics.ended]
    ac_rfl
  · refine ⟨rfl, ?_⟩
    simp only [Diagnostics.ended]
    ac_rfl

theorem sessionRelease_diag (u : Upload) (abortOta : Bool) :
    (sessionRelease u abortOta).1 = { u.diag with updateInProgress := false } := by
  unfold sessionRelease
  dsimp only
  split <;> split <;> rfl

theorem gatewayOtaAbort_ends (u : Upload) : Ends u.diag (gatewayOtaAbort u).1 := by
  simp only [gatewayOtaAbort, sessionRelease_diag]
  exact ⟨rfl, record_ends u.diag _⟩

theorem finishImage_diag (sha256 : List UInt8 → List UInt8) (u : Upload) (a : FinishAnswers) :
    (finishImage sha256 u a).2.2.diag = u.diag := by
  unfold finishImage
  dsimp only [Upload.call]
  repeat' split
  all_goals rfl

theorem gatewayOtaFinish_ends (sha256 : List UInt8 → List UInt8) (u : Upload) (a : FinishAnswers) :
    Ends u.diag (gatewayOtaFinish sha256 u a).2.2.1 := by
  have same := finishImage_diag sha256 u a
  unfold gatewayOtaFinish
  generalize finishImage sha256 u a = ended at same
  obtain ⟨err, result, after⟩ := ended
  dsimp only at same ⊢
  rw [sessionRelease_diag, same]
  split
  · refine ⟨rfl, rfl, ?_⟩
    simp only [Diagnostics.ended]
    ac_rfl
  · exact ⟨rfl, record_ends u.diag err⟩

/-- What a begin can do: nothing, an upload that has already ended, or a session. -/
theorem gatewayOtaBegin_cases (diag : Diagnostics) (calls : List Call) (request : Request)
    (a : BeginAnswers) {result : EspErr × Option Session × Diagnostics × List Call}
    (begun : gatewayOtaBegin diag calls request a = result) :
    (result.2.1 = none ∧ result.2.2.1 = diag) ∨
    (diag.updateInProgress = false ∧ result.2.1 = none ∧
      Ends { diag with uploadAttempts := diag.uploadAttempts + 1 } result.2.2.1) ∨
    (diag.updateInProgress = false ∧ ∃ partition hash,
      hexDecode32 request.sha256Hex = some hash ∧ otaPrefixRequired ≤ request.imageSize ∧
      result = (espOk, some { freshSession request partition hash with hashActive := true },
        { diag with updateInProgress := true, uploadAttempts := diag.uploadAttempts + 1 },
        calls ++ [.hashSetup])) := by
  subst begun
  unfold gatewayOtaBegin
  split
  · exact .inl ⟨rfl, rfl⟩
  · rename_i hash decoded
    split
    · exact .inl ⟨rfl, rfl⟩
    · split
      · exact .inl ⟨rfl, rfl⟩
      · rename_i partition found
        split
        · exact .inl ⟨rfl, rfl⟩
        · rename_i size
          split
          · exact .inl ⟨rfl, rfl⟩
          · rename_i idle
            have free : diag.updateInProgress = false := by simpa using idle
            dsimp only
            split
            · refine .inr (.inl ⟨free, rfl, rfl, rfl, ?_⟩)
              simp only [Diagnostics.ended]
              ac_rfl
            · split
              · refine .inr (.inl ⟨free, rfl, ?_⟩)
                rw [sessionRelease_diag]
                refine ⟨rfl, rfl, ?_⟩
                simp only [Diagnostics.ended]
                ac_rfl
              · exact .inr (.inr ⟨free, partition, hash, decoded, by omega, rfl⟩)

/-- The session that is live when there is one at this index. -/
theorem Accounted.only {s : State} (accounted : Accounted s) {index : Nat} {session : Session}
    (found : s.sessions[index]? = some session) : index = 0 ∧ s.sessions = [session] := by
  have below := (List.getElem?_eq_some_iff.mp found).1
  have single := accounted.single
  match sessions : s.sessions, index with
  | [], _ => simp [sessions] at below
  | [only], 0 =>
      rw [sessions] at found
      cases found
      exact ⟨rfl, rfl⟩
  | [only], index + 1 => simp [sessions] at below
  | _ :: _ :: _, _ => simp [sessions] at single

/-- The end of the live session. -/
theorem Accounted.end_of {s : State} (accounted : Accounted s) {index : Nat} {session : Session}
    (found : s.sessions[index]? = some session) {diag : Diagnostics} (ends : Ends s.diag diag)
    (calls : List Call) : Accounted ⟨diag, s.sessions.eraseIdx index, calls⟩ := by
  obtain ⟨rfl, only⟩ := accounted.only found
  obtain ⟨free, attempts, ended⟩ := ends
  have balance := accounted.balance
  rw [only] at balance
  rw [only]
  refine ⟨by simp [free], by simp, ?_⟩
  rw [attempts, balance, ended]
  simp

theorem State.step_accounted (sha256 : List UInt8 → List UInt8) {s : State}
    (accounted : Accounted s) (operation : Operation) :
    Accounted (s.step sha256 operation) := by
  cases operation with
  | begin request a =>
      dsimp only [State.step]
      have none (free : s.diag.updateInProgress = false) : s.sessions = [] := by
        have notOne : s.sessions.length ≠ 1 := fun one => by
          rw [accounted.live.mpr one] at free
          cases free
        have single := accounted.single
        exact List.length_eq_zero_iff.mp (by omega)
      have balance := accounted.balance
      obtain ⟨session, diag⟩ | ⟨free, session, free', attempts, ended⟩ |
        ⟨free, partition, hash, -, -, same⟩ := gatewayOtaBegin_cases s.diag s.calls request a rfl
      · rw [session, diag, Option.toList_none, List.append_nil]
        exact ⟨accounted.live, accounted.single, accounted.balance⟩
      · rw [session, Option.toList_none, List.append_nil]
        rw [none free] at balance ⊢
        refine ⟨by simp [free'], by simp, ?_⟩
        rw [attempts, ended]
        simp only [balance, Diagnostics.ended]
        simp
      · rw [same, none free]
        rw [none free] at balance
        refine ⟨by simp, by simp, ?_⟩
        simp only [balance, Diagnostics.ended]
        simp
  | write index data a =>
      dsimp only [State.step]
      split
      · exact accounted
      · rename_i session found
        obtain ⟨version, noted⟩ := (gatewayOtaWrite_counts (s.upload session) data a).noted
        rw [noted]
        exact ⟨by simpa [State.upload] using accounted.live, by simpa using accounted.single,
          by simpa [State.upload, Diagnostics.ended] using accounted.balance⟩
  | finish index a =>
      dsimp only [State.step]
      split
      · exact accounted
      · rename_i session found
        exact accounted.end_of found (gatewayOtaFinish_ends sha256 (s.upload session) a) _
  | abort index =>
      dsimp only [State.step]
      split
      · exact accounted
      · rename_i session found
        exact accounted.end_of found (gatewayOtaAbort_ends (s.upload session)) _

theorem State.run_accounted (sha256 : List UInt8 → List UInt8) {s : State}
    (accounted : Accounted s) (operations : List Operation) :
    Accounted (s.run sha256 operations) := by
  induction operations generalizing s with
  | nil => exact accounted
  | cons operation operations ih => exact ih (s.step_accounted sha256 accounted operation)

/-! One upload from its begin on. -/

/-- The descriptor of an image was checked against the running one. -/
def PolicyAccepts (request : Request) (image : List UInt8) (running : AppDesc) : Prop :=
  let candidate := candidateOf (image.take otaPrefixRequired)
  otaVersionPolicyDecide otaExpectedProject (.ofBytes running.version) running.secureVersion
    (.ofBytes candidate.projectName) (.ofBytes candidate.version) candidate.secureVersion
    request.allowReinstall request.allowDowngrade = .accept

theorem checkCandidate_ok {session : Session} {running : Option AppDesc}
    (ok : checkCandidate session running = espOk) :
    ∃ desc, running = some desc ∧
      otaVersionPolicyDecide otaExpectedProject (.ofBytes desc.version) desc.secureVersion
        (.ofBytes (candidateOf session.prefixBytes).projectName)
        (.ofBytes (candidateOf session.prefixBytes).version)
        (candidateOf session.prefixBytes).secureVersion session.allowReinstall
        session.allowDowngrade = .accept := by
  unfold checkCandidate at ok
  dsimp only at ok
  split at ok
  · cases ok
  · cases running with
    | none => cases ok
    | some desc =>
        refine ⟨desc, rfl, ?_⟩
        dsimp only at ok
        generalize otaVersionPolicyDecide _ _ _ _ _ _ _ _ = decision at ok ⊢
        cases decision <;> first | rfl | cases ok

/-- An upload that has just begun. -/
structure Begun (request : Request) (session : Session) (diag : Diagnostics) (calls : List Call) :
    Prop where
  fresh : Accepted session diag [] ⟨session, diag, calls⟩
  size : session.expectedSize = request.imageSize
  enough : otaPrefixRequired ≤ request.imageSize
  announced : hexDecode32 request.sha256Hex = some session.expectedHash
  reinstall : session.allowReinstall = request.allowReinstall
  downgrade : session.allowDowngrade = request.allowDowngrade

theorem gatewayOtaBegin_begun {diag diag' : Diagnostics} {request : Request} {b : BeginAnswers}
    {session : Session} {calls : List Call}
    (begun : gatewayOtaBegin diag [] request b = (espOk, some session, diag', calls)) :
    Begun request session diag' calls := by
  obtain ⟨none, -⟩ | ⟨-, none, -⟩ | ⟨-, partition, hash, announced, enough, same⟩ :=
    gatewayOtaBegin_cases diag [] request b begun
  · cases none
  · cases none
  · cases same
    refine ⟨⟨rfl, rfl, rfl, rfl, ?_⟩, rfl, enough, announced, rfl, rfl⟩
    simp

theorem Begun.hash_length {request : Request} {session : Session} {diag : Diagnostics}
    {calls : List Call} (begun : Begun request session diag calls) :
    session.expectedHash.length = 32 := by
  have announced := begun.announced
  unfold hexDecode32 at announced
  split at announced
  · cases announced
  · rename_i length
    have text : request.sha256Hex.bytes.length = 64 := not_not.mp length
    rw [hexPairs_length announced, text]

/-- The image of these chunks is booted only with the announced digest, a descriptor that
the policy accepts, and after the end and the read-back of the flash. -/
theorem Begun.boots {sha256 : List UInt8 → List UInt8} {request : Request} {session : Session}
    {diag : Diagnostics} {calls : List Call} (begun : Begun request session diag calls)
    {chunks : List (List UInt8 × WriteAnswers)} (nonempty : ∀ chunk ∈ chunks, chunk.1 ≠ [])
    (size : (imageOf chunks).length = request.imageSize) {f : FinishAnswers}
    (booted : .otaSetBootPartition ∈
      (gatewayOtaFinish sha256 (writeAll ⟨session, diag, calls⟩ chunks).2 f).2.2.2) :
    sha256 (imageOf chunks) = session.expectedHash ∧
      (∃ chunk ∈ chunks, ∃ running, chunk.2.running = some running ∧
        PolicyAccepts request (imageOf chunks) running) ∧
      f.otaEnd = espOk ∧ f.description.1 = espOk ∧
      sameText f.description.2.projectName
        (candidateOf ((imageOf chunks).take otaPrefixRequired)).projectName = true ∧
      sameText f.description.2.version
        (candidateOf ((imageOf chunks).take otaPrefixRequired)).version = true := by
  have counted := writeAll_counts ⟨session, diag, calls⟩ chunks
  have unbooted : .otaSetBootPartition ∉ (writeAll ⟨session, diag, calls⟩ chunks).2.calls :=
    fun member => begun.fresh.unbooted (counted.booted member)
  obtain ⟨received, ⟨digest, equal⟩, ended, described, -, project, version⟩ :=
    gatewayOtaFinish_boots unbooted booted
  have fits : ([] : List UInt8).length + (imageOf chunks).length ≤ session.expectedSize := by
    rw [size, begun.size, List.length_nil, Nat.zero_add]
  obtain ⟨accepted, checked⟩ := writeAll_accepted begun.fresh nonempty fits (by
    rw [received, counted.size, size, List.length_nil, Nat.zero_add]
    exact begun.size)
  obtain ⟨chunk, member, fine⟩ := checked (by decide) (by
    rw [size, List.length_nil, Nat.zero_add]
    exact begun.enough)
  rw [List.nil_append] at accepted fine
  rw [accepted.session_eq] at digest equal project version
  have enough : otaPrefixRequired ≤ (imageOf chunks).length := size ▸ begun.enough
  simp only [staged, enough, ↓reduceIte] at digest equal project version
  have policy : checkCandidate { session with
      prefixBytes := (imageOf chunks).take otaPrefixRequired } chunk.2.running = espOk := by
    simp only [startError] at fine
    split at fine
    · exact fine
    · rename_i ok
      exact not_not.mp ok
  obtain ⟨running, described', accepts⟩ := checkCandidate_ok policy
  rw [begun.reinstall, begun.downgrade] at accepts
  refine ⟨?_, ⟨chunk, member, running, described', accepts⟩, ended, described, project, version⟩
  exact (constantEqual_iff (digest.trans begun.hash_length.symm)).mp equal

theorem gatewayOtaServiceInit_accounted : Accounted gatewayOtaServiceInit :=
  ⟨by simp [gatewayOtaServiceInit], by simp [gatewayOtaServiceInit], rfl⟩

/-- The chunks of an image are hashed and flashed as the image, it is booted only when all
checks have passed, its split does not matter, and the flag and the counters follow the
sessions. -/
theorem ota_staging (sha256 : List UInt8 → List UInt8) :
    (∀ diag request b session diag' calls,
      gatewayOtaBegin diag [] request b = (espOk, some session, diag', calls) →
      ∀ chunks : List (List UInt8 × WriteAnswers), (∀ chunk ∈ chunks, chunk.1 ≠ []) →
        (imageOf chunks).length = request.imageSize →
        ((∀ err ∈ (writeAll ⟨session, diag', calls⟩ chunks).1, err = espOk) →
          flashed (writeAll ⟨session, diag', calls⟩ chunks).2.calls = imageOf chunks ∧
          hashedBytes (writeAll ⟨session, diag', calls⟩ chunks).2.calls = imageOf chunks) ∧
        ∀ f, .otaSetBootPartition ∈
            (gatewayOtaFinish sha256 (writeAll ⟨session, diag', calls⟩ chunks).2 f).2.2.2 →
          hexDecode32 request.sha256Hex = some (sha256 (imageOf chunks)) ∧
          (∃ chunk ∈ chunks, ∃ running, chunk.2.running = some running ∧
            PolicyAccepts request (imageOf chunks) running) ∧
          f.otaEnd = espOk ∧ f.description.1 = espOk ∧
          sameText f.description.2.projectName
            (candidateOf ((imageOf chunks).take otaPrefixRequired)).projectName = true ∧
          sameText f.description.2.version
            (candidateOf ((imageOf chunks).take otaPrefixRequired)).version = true) ∧
    (∀ diag request b session diag' calls,
      gatewayOtaBegin diag [] request b = (espOk, some session, diag', calls) →
      ∀ a f, Steady a → ∀ chunks chunks' : List (List UInt8), (∀ data ∈ chunks, data ≠ []) →
        (∀ data ∈ chunks', data ≠ []) → chunks.flatten = chunks'.flatten →
        chunks.flatten.length = request.imageSize →
        uploadImage sha256 ⟨session, diag', calls⟩ chunks a f =
          uploadImage sha256 ⟨session, diag', calls⟩ chunks' a f) ∧
    ∀ operations, Accounted (gatewayOtaServiceInit.run sha256 operations) := by
  refine ⟨?_, ?_, State.run_accounted sha256 gatewayOtaServiceInit_accounted⟩
  · intro diag request b session diag' calls started chunks nonempty size
    have begun := gatewayOtaBegin_begun started
    refine ⟨fun ok => ?_, fun f booted => ?_⟩
    · have fits : ([] : List UInt8).length + (imageOf chunks).length ≤ session.expectedSize := by
        rw [size, begun.size, List.length_nil, Nat.zero_add]
      have accepted := writeAll_ok begun.fresh nonempty fits ok
      rw [List.nil_append] at accepted
      have enough : otaPrefixRequired ≤ (imageOf chunks).length := size ▸ begun.enough
      refine ⟨?_, accepted.hash⟩
      rw [accepted.flash, stagedFlash, if_pos enough]
    · obtain ⟨digest, rest⟩ := begun.boots nonempty size booted
      rw [digest]
      exact ⟨begun.announced, rest⟩
  · intro diag request b session diag' calls started a f steady chunks chunks' nonempty nonempty'
      same size
    have begun := gatewayOtaBegin_begun started
    exact uploadImage_split sha256 steady f begun.fresh nonempty nonempty' same
      (size.trans begun.size.symm) (begun.size ▸ begun.enough)

/-! An update from 1.0.0 to 1.1.0 in two chunks. -/

def paddedText (text : String) : List UInt8 :=
  (CStr.text text).bytes ++ List.replicate (32 - (CStr.text text).length) 0

def sampleImage : List UInt8 :=
  List.replicate 32 0 ++ [0x32, 0x54, 0xCD, 0xAB] ++ List.replicate 12 0 ++ paddedText "1.1.0" ++
    paddedText "esp32_sms_gateway" ++ List.replicate 176 0

def sampleRequest : Request :=
  ⟨288, .text "0000000000000000000000000000000000000000000000000000000000000000", false, false⟩

def sampleWrite : WriteAnswers :=
  ⟨true, some ⟨espAppDescMagicWord, 0, paddedText "1.0.0", paddedText "esp32_sms_gateway"⟩, espOk,
    espOk, espOk⟩

def sampleFinish : FinishAnswers :=
  ⟨true, espOk, (espOk, candidateOf sampleImage), espOk⟩

def sampleUpload : Upload :=
  match gatewayOtaBegin gatewayOtaServiceInit.diag [] sampleRequest
      ⟨false, some ⟨0x200000, .text "ota_1"⟩, true, true⟩ with
  | (_, session, diag, calls) =>
      ⟨session.getD (freshSession sampleRequest ⟨0, .empty⟩ []), diag, calls⟩

theorem ota_staging_update :
    (uploadImage (fun _ => List.replicate 32 0) sampleUpload
        [sampleImage.take 100, sampleImage.drop 100] sampleWrite sampleFinish).booted = true ∧
      uploadImage (fun _ => List.replicate 32 0) sampleUpload
          [sampleImage.take 100, sampleImage.drop 100] sampleWrite sampleFinish =
        uploadImage (fun _ => List.replicate 32 0) sampleUpload [sampleImage] sampleWrite
          sampleFinish := by
  refine ⟨by decide +kernel, ?_⟩
  exact (ota_staging fun _ => List.replicate 32 0).2.1 gatewayOtaServiceInit.diag sampleRequest
    ⟨false, some ⟨0x200000, .text "ota_1"⟩, true, true⟩ sampleUpload.session sampleUpload.diag
    sampleUpload.calls (by decide +kernel) sampleWrite sampleFinish ⟨rfl, rfl, rfl⟩ _ _
    (by decide +kernel) (by decide +kernel) (by decide +kernel) (by decide +kernel)

end SmsGateway.Ota
