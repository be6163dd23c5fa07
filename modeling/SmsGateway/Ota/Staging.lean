import SmsGateway.Ota.Session

/-! What is staged by the chunks of an image, and when it is booted. -/

namespace SmsGateway.Ota

/-- The bytes given to `esp_ota_write`, in order. -/
def flashed (calls : List Call) : List UInt8 :=
  calls.flatMap fun
    | .otaWrite bytes => bytes
    | _ => []

/-- The bytes given to `psa_hash_update`, in order. -/
def hashedBytes (calls : List Call) : List UInt8 :=
  calls.flatMap fun
    | .hashUpdate bytes => bytes
    | _ => []

theorem flashed_append (calls more : List Call) :
    flashed (calls ++ more) = flashed calls ++ flashed more := List.flatMap_append

theorem hashedBytes_append (calls more : List Call) :
    hashedBytes (calls ++ more) = hashedBytes calls ++ hashedBytes more := List.flatMap_append

/-- The session after these bytes were accepted. -/
def staged (session : Session) (bytes : List UInt8) : Session :=
  { session with
    hashed := bytes
    received := bytes.length
    prefixBytes := bytes.take otaPrefixRequired
    otaStarted := decide (otaPrefixRequired ≤ bytes.length)
    candidate :=
      if otaPrefixRequired ≤ bytes.length then candidateOf (bytes.take otaPrefixRequired)
      else session.candidate }

/-- The diagnostics after these bytes were accepted. -/
def stagedDiag (diag : Diagnostics) (bytes : List UInt8) : Diagnostics :=
  if otaPrefixRequired ≤ bytes.length then
    { diag with
      lastCandidateVersion := .ofBytes (candidateOf (bytes.take otaPrefixRequired)).version }
  else diag

/-- What is in the flash then: nothing before the first bytes are complete. -/
def stagedFlash (bytes : List UInt8) : List UInt8 :=
  if otaPrefixRequired ≤ bytes.length then bytes else []

/-- The error of the image itself: its descriptor is refused, or the flash is. -/
def startError (session : Session) (a : WriteAnswers) (bytes : List UInt8) : EspErr :=
  let err := checkCandidate { session with prefixBytes := bytes.take otaPrefixRequired } a.running
  if err ≠ espOk then err else a.otaBegin

section

variable {session : Session} {diag : Diagnostics}

/-- An upload of which these bytes were accepted. -/
structure Accepted (session : Session) (diag : Diagnostics) (bytes : List UInt8) (u : Upload) :
    Prop where
  session_eq : u.session = staged session bytes
  diag_eq : u.diag = stagedDiag diag bytes
  flash : flashed u.calls = stagedFlash bytes
  hash : hashedBytes u.calls = bytes
  unbooted : .otaSetBootPartition ∉ u.calls

/-- The result of a write of data that fits. -/
def writeError (session : Session) (a : WriteAnswers) (bytes data : List UInt8) : EspErr :=
  if !a.hashUpdate then espFail
  else if otaPrefixRequired ≤ bytes.length then a.otaWrite
  else if bytes.length + data.length < otaPrefixRequired then espOk
  else if startError session a (bytes ++ data) ≠ espOk then startError session a (bytes ++ data)
  else if a.otaWritePrefix ≠ espOk then a.otaWritePrefix
  else if otaPrefixRequired < bytes.length + data.length then a.otaWrite
  else espOk

/-- A write that failed behind these bytes. -/
structure Refused (session : Session) (diag : Diagnostics) (a : WriteAnswers) (bytes : List UInt8)
    (err : EspErr) (u : Upload) : Prop where
  lastError : u.session.lastError = err
  received : u.session.received = bytes.length
  diag_eq : a.otaWrite = espOk → u.diag = stagedDiag diag bytes
  unbooted : .otaSetBootPartition ∉ u.calls

section

variable {bytes data : List UInt8} {calls : List Call} {a : WriteAnswers}

/-- The upload at the start of a write. -/
def acceptedUpload (session : Session) (diag : Diagnostics) (bytes : List UInt8)
    (calls : List Call) : Upload :=
  ⟨staged session bytes, stagedDiag diag bytes, calls⟩

theorem Accepted.eq_upload {u : Upload} (accepted : Accepted session diag bytes u) :
    u = acceptedUpload session diag bytes u.calls := by
  cases u
  simp only [acceptedUpload, ← accepted.session_eq, ← accepted.diag_eq]

variable (nonempty : data ≠ []) (fits : bytes.length + data.length ≤ session.expectedSize)
  (hashes : a.hashUpdate = true)
include nonempty fits

theorem write_unhashed (refused : a.hashUpdate = false) :
    gatewayOtaWrite (acceptedUpload session diag bytes calls) data a =
      ((acceptedUpload session diag bytes calls).call (.hashUpdate data)).fail espFail := by
  have room : ¬ (bytes.length > session.expectedSize ∨
      data.length > session.expectedSize - bytes.length) := by omega
  simp only [gatewayOtaWrite, acceptedUpload, staged, nonempty, room, ↓reduceIte, Upload.call,
    refused, Bool.not_false]

include hashes

/-- Behind the first bytes, the data goes to the flash. -/
theorem write_started (started : otaPrefixRequired ≤ bytes.length) :
    gatewayOtaWrite (acceptedUpload session diag bytes calls) data a =
      let u : Upload := ⟨{ staged session bytes with hashed := bytes ++ data },
        stagedDiag diag bytes, calls ++ [.hashUpdate data, .otaWrite data]⟩
      if a.otaWrite ≠ espOk then u.fail a.otaWrite
      else (espOk, { u with
        session := { u.session with received := bytes.length + data.length } }) := by
  have room : ¬ (bytes.length > session.expectedSize ∨
      data.length > session.expectedSize - bytes.length) := by omega
  have some : 0 < data.length := List.length_pos_iff.mpr nonempty
  simp only [gatewayOtaWrite, acceptedUpload, staged, nonempty, room, ↓reduceIte, Upload.call,
    hashes, Bool.not_true, Bool.false_eq_true, bufferPrefix, started, decide_true, some, and_self,
    ne_eq, not_true_eq_false, List.drop_zero, List.append_assoc, List.cons_append, List.nil_append]

/-- Before the first bytes are complete, the data is only kept. -/
theorem write_kept (short : bytes.length + data.length < otaPrefixRequired) :
    gatewayOtaWrite (acceptedUpload session diag bytes calls) data a =
      (espOk, ⟨{ staged session bytes with
          hashed := bytes ++ data
          received := bytes.length + data.length
          prefixBytes := bytes ++ data }, stagedDiag diag bytes, calls ++ [.hashUpdate data]⟩) := by
  have room : ¬ (bytes.length > session.expectedSize ∨
      data.length > session.expectedSize - bytes.length) := by omega
  have unstarted : ¬ otaPrefixRequired ≤ bytes.length := by omega
  have whole : bytes.take otaPrefixRequired = bytes := List.take_of_length_le (by omega)
  have copies : data.length < otaPrefixRequired - bytes.length := by omega
  have incomplete : ¬ (bytes ++ data).length = otaPrefixRequired := by
    rw [List.length_append]
    omega
  simp only [gatewayOtaWrite, acceptedUpload, staged, nonempty, room, ↓reduceIte, Upload.call,
    hashes, Bool.not_true, Bool.false_eq_true, bufferPrefix, unstarted, decide_false, whole, copies,
    List.take_length, incomplete, false_and, ne_eq, not_true_eq_false]

/-- The data that completes the first bytes: they are checked and written, and the rest
of the data behind them. -/
theorem write_completes (short : bytes.length < otaPrefixRequired)
    (enough : otaPrefixRequired ≤ bytes.length + data.length) :
    gatewayOtaWrite (acceptedUpload session diag bytes calls) data a =
      let first := (bytes ++ data).take otaPrefixRequired
      let rest := data.drop (otaPrefixRequired - bytes.length)
      let kept : Session := { staged session bytes with hashed := bytes ++ data, prefixBytes := first }
      let begun := calls ++ [.hashUpdate data]
      let opened := begun ++ [.otaBegin session.expectedSize]
      let replayed := opened ++ [.otaWrite first]
      let written := if rest = [] then replayed else replayed ++ [.otaWrite rest]
      let err := checkCandidate { session with prefixBytes := first } a.running
      let named : Session := { kept with otaStarted := true, candidate := candidateOf first }
      let noted : Diagnostics := { diag with
        lastCandidateVersion := .ofBytes (candidateOf first).version }
      if err ≠ espOk then (⟨kept, diag, begun⟩ : Upload).fail err
      else if a.otaBegin ≠ espOk then (⟨kept, diag, opened⟩ : Upload).fail a.otaBegin
      else if a.otaWritePrefix ≠ espOk then
        (⟨{ kept with otaStarted := true }, diag, replayed⟩ : Upload).fail a.otaWritePrefix
      else if rest ≠ [] ∧ a.otaWrite ≠ espOk then
        (⟨named, noted, written⟩ : Upload).fail a.otaWrite
      else
        (espOk, ⟨{ named with received := bytes.length + data.length }, noted, written⟩) := by
  have room : ¬ (bytes.length > session.expectedSize ∨
      data.length > session.expectedSize - bytes.length) := by omega
  have unstarted : ¬ otaPrefixRequired ≤ bytes.length := by omega
  have whole : bytes.take otaPrefixRequired = bytes := List.take_of_length_le (by omega)
  have copies : ¬ data.length < otaPrefixRequired - bytes.length := by omega
  have first : bytes ++ data.take (otaPrefixRequired - bytes.length) =
      (bytes ++ data).take otaPrefixRequired := by
    rw [List.take_append, whole]
  have complete : ((bytes ++ data).take otaPrefixRequired).length = otaPrefixRequired := by
    rw [List.length_take, List.length_append]
    omega
  have remains : otaPrefixRequired - bytes.length < data.length ↔
      data.drop (otaPrefixRequired - bytes.length) ≠ [] := by
    rw [ne_eq, List.drop_eq_nil_iff]
    omega
  have unnamed : stagedDiag diag bytes = diag := by rw [stagedDiag, if_neg unstarted]
  have check : checkCandidate { staged session bytes with
      hashed := bytes ++ data, prefixBytes := (bytes ++ data).take otaPrefixRequired } a.running =
      checkCandidate { session with prefixBytes := (bytes ++ data).take otaPrefixRequired }
        a.running := rfl
  have written : gatewayOtaWrite (acceptedUpload session diag bytes calls) data a =
      let started := validatePrefixAndStart ⟨{ staged session bytes with
        hashed := bytes ++ data, prefixBytes := (bytes ++ data).take otaPrefixRequired }, diag,
        calls ++ [.hashUpdate data]⟩ a
      if started.1 ≠ espOk then started.2.fail started.1
      else
        let sent := if started.2.session.otaStarted ∧
            data.drop (otaPrefixRequired - bytes.length) ≠ [] then
            (a.otaWrite,
              started.2.call (.otaWrite (data.drop (otaPrefixRequired - bytes.length))))
          else (espOk, started.2)
        if sent.1 ≠ espOk then sent.2.fail sent.1
        else (espOk, { sent.2 with
          session := { sent.2.session with
            received := sent.2.session.received + data.length } }) := by
    simp only [gatewayOtaWrite, acceptedUpload, staged, nonempty, room, ↓reduceIte, Upload.call,
      hashes, Bool.not_true, Bool.false_eq_true, bufferPrefix, unstarted, decide_false, whole,
      copies, first, complete, remains, unnamed]
  rw [written]
  unfold validatePrefixAndStart
  dsimp only [Upload.call]
  rw [check]
  generalize checkCandidate { session with prefixBytes := (bytes ++ data).take otaPrefixRequired }
    a.running = err
  by_cases refused : err ≠ espOk
  · simp only [refused, ↓reduceIte, ne_eq, not_false_eq_true]
  · by_cases closed : a.otaBegin ≠ espOk
    · simp only [refused, closed, ↓reduceIte, ne_eq, not_false_eq_true]
      rfl
    · by_cases unwritten : a.otaWritePrefix ≠ espOk
      · simp only [refused, closed, unwritten, ↓reduceIte, ne_eq, not_false_eq_true]
        rfl
      · by_cases last : data.drop (otaPrefixRequired - bytes.length) = []
        · simp only [refused, closed, unwritten, last, ↓reduceIte, ne_eq, not_true_eq_false,
            and_false, false_and]
          rfl
        · by_cases failed : a.otaWrite ≠ espOk
          · simp only [refused, closed, unwritten, last, failed, ↓reduceIte, ne_eq,
              not_true_eq_false, not_false_eq_true, and_self]
            rfl
          · simp only [refused, closed, unwritten, last, failed, ↓reduceIte, ne_eq,
              not_true_eq_false, not_false_eq_true, and_self, and_false]
            rfl

end

/-- What one write does: its result, and the upload behind it. -/
structure Writes (session : Session) (diag : Diagnostics) (bytes data : List UInt8)
    (a : WriteAnswers) (result : EspErr × Upload) : Prop where
  result_eq : result.1 = writeError session a bytes data
  accepted : result.1 = espOk → Accepted session diag (bytes ++ data) result.2
  refused : result.1 ≠ espOk → Refused session diag a bytes result.1 result.2

section

variable {bytes data : List UInt8} {calls : List Call} {a : WriteAnswers}
  (nonempty : data ≠ []) (fits : bytes.length + data.length ≤ session.expectedSize)
  (flash : flashed calls = stagedFlash bytes) (hash : hashedBytes calls = bytes)
  (unbooted : Call.otaSetBootPartition ∉ calls)
include nonempty fits unbooted

theorem writes_unhashed (refused : a.hashUpdate = false) :
    Writes session diag bytes data a
      (gatewayOtaWrite (acceptedUpload session diag bytes calls) data a) := by
  rw [write_unhashed nonempty fits refused]
  refine ⟨by simp [writeError, refused, Upload.fail], nofun, fun _ => ⟨rfl, rfl, fun _ => rfl, ?_⟩⟩
  simp [Upload.fail, Upload.call, acceptedUpload, unbooted]

include flash hash

theorem writes_started (hashes : a.hashUpdate = true)
    (started : otaPrefixRequired ≤ bytes.length) :
    Writes session diag bytes data a
      (gatewayOtaWrite (acceptedUpload session diag bytes calls) data a) := by
  have length : (bytes ++ data).length = bytes.length + data.length := List.length_append
  have later : otaPrefixRequired ≤ bytes.length + data.length := by omega
  have err : writeError session a bytes data = a.otaWrite := by simp [writeError, hashes, started]
  rw [write_started nonempty fits hashes started]
  by_cases failed : a.otaWrite ≠ espOk
  · simp only [failed, ↓reduceIte, ne_eq, not_false_eq_true]
    refine ⟨err.symm, fun ok => absurd ok failed, fun _ => ⟨rfl, rfl, fun _ => rfl, ?_⟩⟩
    simp [Upload.fail, unbooted]
  · have ok := not_not.mp failed
    simp only [failed, ↓reduceIte]
    refine ⟨(err.trans ok).symm, fun _ => ⟨?_, ?_, ?_, ?_, ?_⟩, fun bad => absurd rfl bad⟩
    · simp only [staged, length, started, later, List.take_append_of_le_length started, ↓reduceIte]
    · simp only [stagedDiag, length, started, later, List.take_append_of_le_length started,
        ↓reduceIte]
    · simp only [stagedFlash, started, ↓reduceIte] at flash
      simp only [flashed_append, flash, stagedFlash, length, later, ↓reduceIte]
      simp [flashed]
    · simp only [hashedBytes_append, hash]
      simp [hashedBytes]
    · simp [unbooted]

theorem writes_kept (hashes : a.hashUpdate = true)
    (short : bytes.length + data.length < otaPrefixRequired) :
    Writes session diag bytes data a
      (gatewayOtaWrite (acceptedUpload session diag bytes calls) data a) := by
  have length : (bytes ++ data).length = bytes.length + data.length := List.length_append
  have unstarted : ¬ otaPrefixRequired ≤ bytes.length := by omega
  have still : ¬ otaPrefixRequired ≤ bytes.length + data.length := by omega
  rw [write_kept nonempty fits hashes short]
  refine ⟨by simp [writeError, hashes, unstarted, short], fun _ => ⟨?_, ?_, ?_, ?_, ?_⟩,
    fun bad => absurd rfl bad⟩
  · simp only [staged, length, unstarted, still, ↓reduceIte,
      List.take_of_length_le (show (bytes ++ data).length ≤ otaPrefixRequired by omega)]
  · simp only [stagedDiag, length, unstarted, still, ↓reduceIte]
  · simp only [stagedFlash, unstarted, ↓reduceIte] at flash
    simp only [flashed_append, flash, stagedFlash, length, still, ↓reduceIte]
    simp [flashed]
  · simp only [hashedBytes_append, hash]
    simp [hashedBytes]
  · simp [unbooted]

theorem writes_completes (hashes : a.hashUpdate = true)
    (short : bytes.length < otaPrefixRequired)
    (enough : otaPrefixRequired ≤ bytes.length + data.length) :
    Writes session diag bytes data a
      (gatewayOtaWrite (acceptedUpload session diag bytes calls) data a) := by
  have length : (bytes ++ data).length = bytes.length + data.length := List.length_append
  have unstarted : ¬ otaPrefixRequired ≤ bytes.length := by omega
  have untold : ¬ bytes.length + data.length < otaPrefixRequired := by omega
  have unnamed : stagedDiag diag bytes = diag := by rw [stagedDiag, if_neg unstarted]
  have empty : flashed calls = [] := by rw [flash, stagedFlash, if_neg unstarted]
  have remains : otaPrefixRequired < bytes.length + data.length ↔
      data.drop (otaPrefixRequired - bytes.length) ≠ [] := by
    rw [ne_eq, List.drop_eq_nil_iff]
    omega
  have together : (bytes ++ data).take otaPrefixRequired ++
      data.drop (otaPrefixRequired - bytes.length) = bytes ++ data := by
    rw [List.take_append, List.take_of_length_le (Nat.le_of_lt short), List.append_assoc,
      List.take_append_drop]
  rw [write_completes nonempty fits hashes short enough]
  dsimp only
  have error : writeError session a bytes data =
      if startError session a (bytes ++ data) ≠ espOk then startError session a (bytes ++ data)
      else if a.otaWritePrefix ≠ espOk then a.otaWritePrefix
      else if otaPrefixRequired < bytes.length + data.length then a.otaWrite else espOk := by
    simp [writeError, hashes, unstarted, untold]
  simp only [startError] at error
  obtain ⟨err, check⟩ : ∃ err, checkCandidate
      { session with prefixBytes := (bytes ++ data).take otaPrefixRequired } a.running = err :=
    ⟨_, rfl⟩
  simp only [check] at error ⊢
  by_cases refused : err ≠ espOk
  · simp only [refused, ↓reduceIte, ne_eq, not_false_eq_true] at error ⊢
    refine ⟨error.symm, fun ok => absurd ok refused, fun _ => ⟨rfl, rfl, fun _ => unnamed.symm, ?_⟩⟩
    simp [Upload.fail, unbooted]
  · by_cases closed : a.otaBegin ≠ espOk
    · simp only [refused, closed, ↓reduceIte, ne_eq, not_false_eq_true] at error ⊢
      refine ⟨error.symm, fun ok => absurd ok closed, fun _ => ⟨rfl, rfl, fun _ => unnamed.symm, ?_⟩⟩
      simp [Upload.fail, unbooted]
    · by_cases unwritten : a.otaWritePrefix ≠ espOk
      · simp only [refused, closed, unwritten, ↓reduceIte, ne_eq, not_false_eq_true] at error ⊢
        refine ⟨error.symm, fun ok => absurd ok unwritten,
          fun _ => ⟨rfl, rfl, fun _ => unnamed.symm, ?_⟩⟩
        simp [Upload.fail, unbooted]
      · by_cases failed : data.drop (otaPrefixRequired - bytes.length) ≠ [] ∧ a.otaWrite ≠ espOk
        · simp only [refused, closed, unwritten, failed, remains, ↓reduceIte, ne_eq,
            not_false_eq_true, and_self] at error ⊢
          refine ⟨error.symm, fun ok => absurd ok failed.2, fun _ => ⟨rfl, rfl,
            fun ok => absurd ok failed.2, ?_⟩⟩
          simp [Upload.fail, unbooted]
        · have ok : writeError session a bytes data = espOk := by
            rw [error]
            simp only [refused, closed, unwritten, ↓reduceIte, remains]
            split
            · rename_i more
              exact not_not.mp fun bad => failed ⟨more, bad⟩
            · rfl
          simp only [refused, closed, unwritten, failed, ↓reduceIte]
          refine ⟨ok.symm, fun _ => ⟨?_, ?_, ?_, ?_, ?_⟩, fun bad => absurd rfl bad⟩
          · simp only [staged, length, enough, ↓reduceIte, decide_true]
          · simp only [stagedDiag, length, enough, ↓reduceIte]
          · rw [stagedFlash, length, if_pos enough]
            by_cases last : data.drop (otaPrefixRequired - bytes.length) = []
            · rw [last, List.append_nil] at together
              simp only [last, ↓reduceIte, flashed_append, empty]
              simpa [flashed] using together
            · simp only [last, ↓reduceIte, flashed_append, empty]
              simpa [flashed] using together
          · split <;> simp only [hashedBytes_append, hash] <;> simp [hashedBytes]
          · split <;> simp [unbooted]

end

/-- What a write of data that fits does. -/
theorem gatewayOtaWrite_spec {bytes data : List UInt8} {u : Upload}
    (before : Accepted session diag bytes u) (nonempty : data ≠ [])
    (fits : bytes.length + data.length ≤ session.expectedSize) (a : WriteAnswers) :
    Writes session diag bytes data a (gatewayOtaWrite u data a) := by
  have same := before.eq_upload
  obtain ⟨-, -, flash, hash, unbooted⟩ := before
  rw [same]
  cases hashes : a.hashUpdate with
  | false => exact writes_unhashed nonempty fits unbooted hashes
  | true =>
      by_cases started : otaPrefixRequired ≤ bytes.length
      · exact writes_started nonempty fits flash hash unbooted hashes started
      · by_cases short : bytes.length + data.length < otaPrefixRequired
        · exact writes_kept nonempty fits flash hash unbooted hashes short
        · exact writes_completes nonempty fits flash hash unbooted hashes (by omega) (by omega)

end

/-! What every write keeps, whatever the upload is. -/

/-- Only the version of the candidate is new. -/
def Noted (diag after : Diagnostics) : Prop :=
  ∃ version, after = { diag with lastCandidateVersion := version }

structure SameTarget (u after : Upload) : Prop where
  received : after.session.received = u.session.received
  size : after.session.expectedSize = u.session.expectedSize
  noted : Noted u.diag after.diag
  booted : .otaSetBootPartition ∈ after.calls → .otaSetBootPartition ∈ u.calls

theorem SameTarget.refl (u : Upload) : SameTarget u u := ⟨rfl, rfl, ⟨_, rfl⟩, id⟩

theorem validatePrefixAndStart_same (u : Upload) (a : WriteAnswers) :
    SameTarget u (validatePrefixAndStart u a).2 := by
  unfold validatePrefixAndStart
  dsimp only
  split
  · exact .refl u
  · split
    · exact ⟨rfl, rfl, ⟨_, rfl⟩, by simp [Upload.call]⟩
    · split <;> exact ⟨rfl, rfl, ⟨_, rfl⟩, by simp [Upload.call]⟩

theorem bufferPrefix_same (u : Upload) (data : List UInt8) (a : WriteAnswers) :
    SameTarget u (bufferPrefix u data a).2.2 := by
  unfold bufferPrefix
  split
  · exact .refl u
  · dsimp only
    generalize (if data.length < otaPrefixRequired - u.session.prefixBytes.length then data.length
      else otaPrefixRequired - u.session.prefixBytes.length) = copy
    split
    · have same := validatePrefixAndStart_same { u with session := { u.session with
        prefixBytes := u.session.prefixBytes ++ data.take copy } } a
      exact ⟨same.received, same.size, same.noted, same.booted⟩
    · exact ⟨rfl, rfl, ⟨_, rfl⟩, id⟩

/-- A write counts at most its data. -/
structure Counts (u : Upload) (data : List UInt8) (after : Upload) : Prop where
  received : after.session.received ≤ u.session.received + data.length
  size : after.session.expectedSize = u.session.expectedSize
  noted : Noted u.diag after.diag
  booted : .otaSetBootPartition ∈ after.calls → .otaSetBootPartition ∈ u.calls

theorem gatewayOtaWrite_counts (u : Upload) (data : List UInt8) (a : WriteAnswers) :
    Counts u data (gatewayOtaWrite u data a).2 := by
  unfold gatewayOtaWrite
  split
  · exact ⟨Nat.le_add_right _ _, rfl, ⟨_, rfl⟩, id⟩
  · split
    · exact ⟨Nat.le_add_right _ _, rfl, ⟨_, rfl⟩, id⟩
    · dsimp only
      split
      · exact ⟨Nat.le_add_right _ _, rfl, ⟨_, rfl⟩, by simp [Upload.fail, Upload.call]⟩
      · have same := bufferPrefix_same { u.call (.hashUpdate data) with session := {
          (u.call (.hashUpdate data)).session with
            hashed := (u.call (.hashUpdate data)).session.hashed ++ data } } data a
        generalize bufferPrefix _ data a = buffered at same ⊢
        obtain ⟨err, consumed, between⟩ := buffered
        obtain ⟨received, size, noted, booted⟩ := same
        simp only [Upload.call, List.mem_append, List.mem_singleton, reduceCtorEq, or_false]
          at received size noted booted
        dsimp only
        split
        · exact ⟨by simp only [Upload.fail, received]; omega, size, noted, booted⟩
        · generalize flash : (if between.session.otaStarted = true ∧ consumed < data.length then
            _ else _ : EspErr × Upload) = last
          have kept : last.2.session = between.session ∧ last.2.diag = between.diag ∧
              (.otaSetBootPartition ∈ last.2.calls → .otaSetBootPartition ∈ between.calls) := by
            rw [← flash]
            split
            · exact ⟨rfl, rfl, by simp [Upload.call]⟩
            · exact ⟨rfl, rfl, id⟩
          obtain ⟨session, diag, calls⟩ := kept
          split
          · refine ⟨?_, ?_, ?_, fun member => booted (calls member)⟩
            · simp only [Upload.fail, session, received]
              omega
            · simp only [Upload.fail, session, size]
            · simp only [Upload.fail, diag, noted]
          · refine ⟨?_, ?_, ?_, fun member => booted (calls member)⟩
            · simp only [session, received, Nat.le_refl]
            · simp only [session, size]
            · simp only [diag, noted]

end SmsGateway.Ota
