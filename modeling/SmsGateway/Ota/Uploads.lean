import SmsGateway.Ota.Staging

/-! Uploads: the chunks of an image up to its end. -/

namespace SmsGateway.Ota

/-- All chunks are written, whatever the results are. -/
def writeAll (u : Upload) : List (List UInt8 × WriteAnswers) → List EspErr × Upload
  | [] => ([], u)
  | (data, a) :: rest =>
      let (err, u) := gatewayOtaWrite u data a
      let (errs, u) := writeAll u rest
      (err :: errs, u)

/-- The bytes of the chunks. -/
def imageOf (chunks : List (List UInt8 × WriteAnswers)) : List UInt8 :=
  (chunks.map Prod.fst).flatten

/-- How an upload ends. -/
structure Outcome where
  err : EspErr
  result : Option OtaResult
  diag : Diagnostics
  booted : Bool
  deriving DecidableEq, Repr

/-- The chunks up to the first error. -/
def writeChunks (u : Upload) (a : WriteAnswers) : List (List UInt8) → EspErr × Upload
  | [] => (espOk, u)
  | data :: rest =>
      let (err, u) := gatewayOtaWrite u data a
      if err ≠ espOk then (err, u) else writeChunks u a rest

/-- `firmware_post_handler` behind `gateway_ota_begin`: the upload is aborted at the first
error, and finished otherwise. -/
def uploadImage (sha256 : List UInt8 → List UInt8) (u : Upload) (chunks : List (List UInt8))
    (a : WriteAnswers) (f : FinishAnswers) : Outcome :=
  let (err, u) := writeChunks u a chunks
  if err ≠ espOk then
    let (diag, calls) := gatewayOtaAbort u
    ⟨err, none, diag, calls.contains .otaSetBootPartition⟩
  else
    let (err, result, diag, calls) := gatewayOtaFinish sha256 u f
    ⟨err, result, diag, calls.contains .otaSetBootPartition⟩

section

variable {session : Session} {diag : Diagnostics}

theorem writeAll_counts (u : Upload) (chunks : List (List UInt8 × WriteAnswers)) :
    Counts u (imageOf chunks) (writeAll u chunks).2 := by
  induction chunks generalizing u with
  | nil => exact ⟨Nat.le_add_right _ _, rfl, ⟨_, rfl⟩, id⟩
  | cons chunk rest ih =>
      obtain ⟨data, a⟩ := chunk
      obtain ⟨received, size, ⟨version, noted⟩, booted⟩ := gatewayOtaWrite_counts u data a
      obtain ⟨received', size', ⟨version', noted'⟩, booted'⟩ := ih (gatewayOtaWrite u data a).2
      have length : (imageOf ((data, a) :: rest)).length =
          data.length + (imageOf rest).length := by
        simp [imageOf]
      refine ⟨?_, size'.trans size, ⟨version', ?_⟩, fun member => booted (booted' member)⟩
      · rw [length]
        simp only [writeAll]
        omega
      · simp only [writeAll]
        rw [noted', noted]

/-- The first bytes decide. -/
theorem startError_append {first : List UInt8} (enough : otaPrefixRequired ≤ first.length)
    (a : WriteAnswers) (rest : List UInt8) :
    startError session a (first ++ rest) = startError session a first := by
  simp only [startError, List.take_append_of_le_length enough]

/-- A write that completes the first bytes was only accepted with their descriptor. -/
theorem writeError_ok {a : WriteAnswers} {bytes data : List UInt8}
    (short : bytes.length < otaPrefixRequired)
    (enough : otaPrefixRequired ≤ bytes.length + data.length)
    (ok : writeError session a bytes data = espOk) :
    startError session a (bytes ++ data) = espOk := by
  unfold writeError at ok
  split at ok
  · cases ok
  · rw [if_neg (by omega), if_neg (by omega)] at ok
    split at ok
    · exact ok
    · rename_i fine
      exact not_not.mp fine

/-- When everything was received, every write was accepted, the descriptor by one of
them. -/
theorem writeAll_accepted {bytes : List UInt8} {u : Upload}
    {chunks : List (List UInt8 × WriteAnswers)} (before : Accepted session diag bytes u)
    (nonempty : ∀ chunk ∈ chunks, chunk.1 ≠ [])
    (fits : bytes.length + (imageOf chunks).length ≤ session.expectedSize)
    (whole : (writeAll u chunks).2.session.received = bytes.length + (imageOf chunks).length) :
    Accepted session diag (bytes ++ imageOf chunks) (writeAll u chunks).2 ∧
      (bytes.length < otaPrefixRequired →
        otaPrefixRequired ≤ bytes.length + (imageOf chunks).length →
        ∃ chunk ∈ chunks, startError session chunk.2 (bytes ++ imageOf chunks) = espOk) := by
  induction chunks generalizing bytes u with
  | nil =>
      refine ⟨?_, fun short enough => ?_⟩
      · rw [imageOf, List.map_nil, List.flatten_nil, List.append_nil]
        exact before
      · simp only [imageOf, List.map_nil, List.flatten_nil, List.length_nil, Nat.add_zero] at enough
        omega
  | cons chunk rest ih =>
      obtain ⟨data, a⟩ := chunk
      have image : imageOf ((data, a) :: rest) = data ++ imageOf rest := rfl
      have some : data ≠ [] := nonempty (data, a) List.mem_cons_self
      have positive := List.length_pos_iff.mpr some
      rw [image, List.length_append] at fits whole
      simp only [image, writeAll, List.length_append, ← List.append_assoc] at whole ⊢
      have written := gatewayOtaWrite_spec before some (by omega) a
      have received := (writeAll_counts (gatewayOtaWrite u data a).2 rest).received
      by_cases ok : (gatewayOtaWrite u data a).1 = espOk
      · have accepted := written.accepted ok
        obtain ⟨all, checked⟩ := ih accepted
          (fun chunk member => nonempty chunk (List.mem_cons_of_mem _ member))
          (by rw [List.length_append]; omega) (by rw [List.length_append]; omega)
        refine ⟨all, fun short enough => ?_⟩
        by_cases later : (bytes ++ data).length < otaPrefixRequired
        · obtain ⟨chunk, member, fine⟩ := checked later (by rw [List.length_append]; omega)
          exact ⟨chunk, List.mem_cons_of_mem _ member, fine⟩
        · refine ⟨(data, a), List.mem_cons_self, ?_⟩
          rw [startError_append (Nat.not_lt.mp later)]
          rw [List.length_append] at later
          exact writeError_ok short (by omega) (written.result_eq.symm.trans ok)
      · -- What was refused is missing at the end.
        have lost := (written.refused ok).received
        omega

theorem writeAll_ok {bytes : List UInt8} {u : Upload}
    {chunks : List (List UInt8 × WriteAnswers)} (before : Accepted session diag bytes u)
    (nonempty : ∀ chunk ∈ chunks, chunk.1 ≠ [])
    (fits : bytes.length + (imageOf chunks).length ≤ session.expectedSize)
    (ok : ∀ err ∈ (writeAll u chunks).1, err = espOk) :
    Accepted session diag (bytes ++ imageOf chunks) (writeAll u chunks).2 := by
  induction chunks generalizing bytes u with
  | nil =>
      rw [imageOf, List.map_nil, List.flatten_nil, List.append_nil]
      exact before
  | cons chunk rest ih =>
      obtain ⟨data, a⟩ := chunk
      have image : imageOf ((data, a) :: rest) = data ++ imageOf rest := rfl
      have some : data ≠ [] := nonempty (data, a) List.mem_cons_self
      rw [image, List.length_append] at fits
      simp only [writeAll, List.forall_mem_cons] at ok ⊢
      have accepted := (gatewayOtaWrite_spec before some (by omega) a).accepted ok.1
      rw [image, ← List.append_assoc]
      exact ih accepted (fun chunk member => nonempty chunk (List.mem_cons_of_mem _ member))
        (by rw [List.length_append]; omega) ok.2

end

theorem constantEqual_iff {a b : List UInt8} (same : a.length = b.length) :
    constantEqual a b = true ↔ a = b := by
  have fold (diff : UInt8) : (a.zip b).foldl
      (fun diff (pair : UInt8 × UInt8) => diff ||| (pair.1 ^^^ pair.2)) diff = 0 ↔
        diff = 0 ∧ a = b := by
    induction a generalizing b diff with
    | nil =>
        cases b with
        | nil => simp
        | cons y ys => cases same
    | cons x xs ih =>
        cases b with
        | nil => cases same
        | cons y ys =>
            rw [List.zip_cons_cons, List.foldl_cons, ih (Nat.succ.inj same), UInt8.or_eq_zero_iff,
              UInt8.xor_eq_zero_iff, List.cons.injEq, and_assoc]
  rw [constantEqual, beq_iff_eq, fold]
  exact ⟨And.right, fun equal => ⟨rfl, equal⟩⟩

theorem sessionRelease_booted (u : Upload) (abortOta : Bool) :
    .otaSetBootPartition ∈ (sessionRelease u abortOta).2 ↔ .otaSetBootPartition ∈ u.calls := by
  unfold sessionRelease
  dsimp only
  split <;> split <;> simp [Upload.call]

/-- What has to hold before the image is booted. -/
structure Bootable (sha256 : List UInt8 → List UInt8) (session : Session) (a : FinishAnswers) :
    Prop where
  received : session.received = session.expectedSize
  digest : (sha256 session.hashed).length = 32 ∧
    constantEqual (sha256 session.hashed) session.expectedHash = true
  ended : a.otaEnd = espOk
  described : a.description.1 = espOk
  readBack : a.description.2.magicWord = espAppDescMagicWord ∧
    sameText a.description.2.projectName session.candidate.projectName = true ∧
    sameText a.description.2.version session.candidate.version = true

theorem finishImage_boots {sha256 : List UInt8 → List UInt8} {u : Upload} {a : FinishAnswers}
    (unbooted : .otaSetBootPartition ∉ u.calls)
    (booted : .otaSetBootPartition ∈ (finishImage sha256 u a).2.2.calls) :
    Bootable sha256 u.session a := by
  unfold finishImage at booted
  split at booted
  · exact absurd booted unbooted
  · rename_i complete
    dsimp only [Upload.call] at booted
    split at booted
    · simp [unbooted] at booted
    · rename_i hashed
      split at booted
      · simp [unbooted] at booted
      · rename_i equal
        split at booted
        · simp [unbooted] at booted
        · rename_i ended
          split at booted
          · simp [unbooted] at booted
          · rename_i described
            split at booted
            · simp [unbooted] at booted
            · rename_i same
              simp only [not_or, not_not, Bool.not_eq_false, Bool.not_eq_eq_eq_not,
                Bool.not_true, ne_eq] at complete hashed equal ended described same
              exact ⟨complete.1, ⟨hashed.2, equal⟩, ended, described, same⟩

theorem gatewayOtaFinish_boots {sha256 : List UInt8 → List UInt8} {u : Upload} {a : FinishAnswers}
    (unbooted : .otaSetBootPartition ∉ u.calls)
    (booted : .otaSetBootPartition ∈ (gatewayOtaFinish sha256 u a).2.2.2) :
    Bootable sha256 u.session a := by
  apply finishImage_boots unbooted
  unfold gatewayOtaFinish at booted
  dsimp only at booted
  rw [sessionRelease_booted] at booted
  split at booted <;> exact booted

/-! The outcome does not depend on the split. -/

/-- The flash and the hash take everything they are given. -/
structure Steady (a : WriteAnswers) : Prop where
  hashUpdate : a.hashUpdate = true
  otaWritePrefix : a.otaWritePrefix = espOk
  otaWrite : a.otaWrite = espOk

section

variable {session : Session} {diag : Diagnostics} {a : WriteAnswers}

theorem writeError_steady (steady : Steady a) (bytes data : List UInt8) :
    writeError session a bytes data =
      if bytes.length < otaPrefixRequired ∧ otaPrefixRequired ≤ bytes.length + data.length then
        startError session a (bytes ++ data)
      else espOk := by
  unfold writeError
  simp only [steady.hashUpdate, steady.otaWritePrefix, steady.otaWrite, Bool.not_true,
    Bool.false_eq_true, ↓reduceIte, ne_eq, not_true_eq_false, ite_self, ite_not]
  by_cases started : otaPrefixRequired ≤ bytes.length
  · rw [if_pos started, if_neg (by omega)]
  · by_cases short : bytes.length + data.length < otaPrefixRequired
    · rw [if_neg started, if_pos short, if_neg (by omega)]
    · rw [if_neg started, if_neg short,
        if_pos (show bytes.length < otaPrefixRequired ∧
          otaPrefixRequired ≤ bytes.length + data.length by omega)]
      split
      · rename_i fine
        exact fine.symm
      · rfl

/-- An image whose descriptor is accepted is staged whole. -/
theorem writeChunks_accepted (steady : Steady a) {bytes : List UInt8} {u : Upload}
    {chunks : List (List UInt8)} (before : Accepted session diag bytes u)
    (nonempty : ∀ data ∈ chunks, data ≠ [])
    (fits : bytes.length + chunks.flatten.length ≤ session.expectedSize)
    (fine : bytes.length < otaPrefixRequired →
      startError session a (bytes ++ chunks.flatten) = espOk) :
    (writeChunks u a chunks).1 = espOk ∧
      Accepted session diag (bytes ++ chunks.flatten) (writeChunks u a chunks).2 := by
  induction chunks generalizing bytes u with
  | nil =>
      rw [List.flatten_nil, List.append_nil]
      exact ⟨rfl, before⟩
  | cons data rest ih =>
      have some := nonempty data List.mem_cons_self
      rw [List.flatten_cons, List.length_append] at fits
      rw [List.flatten_cons, ← List.append_assoc] at fine ⊢
      have written := gatewayOtaWrite_spec before some (by omega) a
      have ok : (gatewayOtaWrite u data a).1 = espOk := by
        rw [written.result_eq, writeError_steady steady]
        split
        · rename_i completes
          rw [← startError_append (by rw [List.length_append]; omega) a rest.flatten]
          exact fine completes.1
        · rfl
      simp only [writeChunks, ok, ne_eq, not_true_eq_false, ↓reduceIte]
      refine ih (written.accepted ok) (fun data member => nonempty data
        (List.mem_cons_of_mem _ member)) (by rw [List.length_append]; omega) fun short => fine ?_
      rw [List.length_append] at short
      omega

/-- An image whose descriptor is refused ends at the chunk that completes it. -/
theorem writeChunks_refused (steady : Steady a) {bytes : List UInt8} {u : Upload}
    {chunks : List (List UInt8)} (before : Accepted session diag bytes u)
    (nonempty : ∀ data ∈ chunks, data ≠ [])
    (fits : bytes.length + chunks.flatten.length ≤ session.expectedSize)
    (short : bytes.length < otaPrefixRequired)
    (enough : otaPrefixRequired ≤ bytes.length + chunks.flatten.length)
    (bad : startError session a (bytes ++ chunks.flatten) ≠ espOk) :
    (writeChunks u a chunks).1 = startError session a (bytes ++ chunks.flatten) ∧
      (writeChunks u a chunks).2.session.lastError =
        startError session a (bytes ++ chunks.flatten) ∧
      (writeChunks u a chunks).2.diag = diag ∧
      .otaSetBootPartition ∉ (writeChunks u a chunks).2.calls := by
  induction chunks generalizing bytes u with
  | nil =>
      rw [List.flatten_nil, List.length_nil] at enough
      omega
  | cons data rest ih =>
      have some := nonempty data List.mem_cons_self
      rw [List.flatten_cons, List.length_append] at fits enough
      rw [List.flatten_cons, ← List.append_assoc] at bad ⊢
      have written := gatewayOtaWrite_spec before some (by omega) a
      have error := written.result_eq
      rw [writeError_steady steady] at error
      by_cases completes : otaPrefixRequired ≤ bytes.length + data.length
      · rw [if_pos ⟨short, completes⟩,
          ← startError_append (by rw [List.length_append]; omega) a rest.flatten] at error
        have failed : (gatewayOtaWrite u data a).1 ≠ espOk := error ▸ bad
        have refused := written.refused failed
        simp only [writeChunks, failed, ne_eq, not_false_eq_true, ↓reduceIte]
        refine ⟨error, refused.lastError.trans error, ?_, refused.unbooted⟩
        rw [refused.diag_eq steady.otaWrite, stagedDiag, if_neg (by omega)]
      · rw [if_neg (by omega)] at error
        simp only [writeChunks, error, ne_eq, not_true_eq_false, ↓reduceIte]
        refine ih (written.accepted error) (fun data member => nonempty data
          (List.mem_cons_of_mem _ member)) ?_ ?_ ?_ bad
        · rw [List.length_append]
          omega
        · rw [List.length_append]
          omega
        · rw [List.length_append]
          omega

end

theorem finishImage_calls (sha256 : List UInt8 → List UInt8) (session : Session)
    (diag : Diagnostics) (calls : List Call) (f : FinishAnswers) :
    finishImage sha256 ⟨session, diag, calls⟩ f =
      ((finishImage sha256 ⟨session, diag, []⟩ f).1, (finishImage sha256 ⟨session, diag, []⟩ f).2.1,
        { (finishImage sha256 ⟨session, diag, []⟩ f).2.2 with
          calls := calls ++ (finishImage sha256 ⟨session, diag, []⟩ f).2.2.calls }) := by
  unfold finishImage
  dsimp only [Upload.call]
  split
  · simp
  · split
    · simp
    · split
      · simp
      · split
        · simp
        · split
          · simp
          · split
            · simp
            · split <;> simp

theorem sessionRelease_calls (session : Session) (diag : Diagnostics) (calls more : List Call)
    (abortOta : Bool) :
    sessionRelease ⟨session, diag, calls ++ more⟩ abortOta =
      ((sessionRelease ⟨session, diag, more⟩ abortOta).1,
        calls ++ (sessionRelease ⟨session, diag, more⟩ abortOta).2) := by
  unfold sessionRelease
  dsimp only [Upload.call]
  split <;> split <;> simp

/-- The end of an upload depends on its session and the diagnostics. -/
theorem gatewayOtaFinish_calls (sha256 : List UInt8 → List UInt8) (session : Session)
    (diag : Diagnostics) (calls : List Call) (f : FinishAnswers) :
    gatewayOtaFinish sha256 ⟨session, diag, calls⟩ f =
      ((gatewayOtaFinish sha256 ⟨session, diag, []⟩ f).1,
        (gatewayOtaFinish sha256 ⟨session, diag, []⟩ f).2.1,
        (gatewayOtaFinish sha256 ⟨session, diag, []⟩ f).2.2.1,
        calls ++ (gatewayOtaFinish sha256 ⟨session, diag, []⟩ f).2.2.2) := by
  unfold gatewayOtaFinish
  rw [finishImage_calls sha256 session diag calls f]
  generalize finishImage sha256 ⟨session, diag, []⟩ f = ended
  obtain ⟨err, result, u⟩ := ended
  dsimp only
  split <;> rw [sessionRelease_calls]

/-- Two splits of one image end alike. -/
theorem uploadImage_split (sha256 : List UInt8 → List UInt8) {session : Session}
    {diag : Diagnostics} {a : WriteAnswers} (steady : Steady a) (f : FinishAnswers) {u : Upload}
    (begun : Accepted session diag [] u) {chunks chunks' : List (List UInt8)}
    (nonempty : ∀ data ∈ chunks, data ≠ []) (nonempty' : ∀ data ∈ chunks', data ≠ [])
    (same : chunks.flatten = chunks'.flatten)
    (size : chunks.flatten.length = session.expectedSize)
    (enough : otaPrefixRequired ≤ session.expectedSize) :
    uploadImage sha256 u chunks a f = uploadImage sha256 u chunks' a f := by
  have positive : ([] : List UInt8).length < otaPrefixRequired := by decide
  -- Either split ends as the image and the answers say.
  have ends {split : List (List UInt8)} (nonempty : ∀ data ∈ split, data ≠ [])
      (whole : split.flatten = chunks.flatten) :
      uploadImage sha256 u split a f =
        if startError session a chunks.flatten ≠ espOk then
          ⟨startError session a chunks.flatten, none,
            { diag.record (startError session a chunks.flatten) with updateInProgress := false },
            false⟩
        else
          let ended := gatewayOtaFinish sha256
            ⟨staged session chunks.flatten, stagedDiag diag chunks.flatten, []⟩ f
          ⟨ended.1, ended.2.1, ended.2.2.1, ended.2.2.2.contains .otaSetBootPartition⟩ := by
    have fits : ([] : List UInt8).length + split.flatten.length ≤ session.expectedSize := by
      rw [whole, size, List.length_nil, Nat.zero_add]
    by_cases fine : startError session a chunks.flatten = espOk
    · obtain ⟨ok, accepted⟩ := writeChunks_accepted steady begun nonempty fits
        (fun _ => by rw [List.nil_append, whole]; exact fine)
      rw [List.nil_append, whole] at accepted
      have unbooted : (writeChunks u a split).2.calls.contains .otaSetBootPartition = false := by
        simpa using accepted.unbooted
      simp only [uploadImage, ok, fine, ne_eq, not_true_eq_false, ↓reduceIte]
      rw [accepted.eq_upload, acceptedUpload, gatewayOtaFinish_calls]
      simp only [List.contains_append, unbooted, Bool.false_or]
    · obtain ⟨err, last, diagnostics, unbooted⟩ := writeChunks_refused steady begun nonempty fits
        positive (by rw [whole, size, List.length_nil, Nat.zero_add]; exact enough)
        (by rw [List.nil_append, whole]; exact fine)
      rw [List.nil_append, whole] at err last
      have still : (gatewayOtaAbort (writeChunks u a split).2).2.contains
          .otaSetBootPartition = false := by
        simpa [gatewayOtaAbort, sessionRelease_booted] using unbooted
      simp only [uploadImage, err, fine, ne_eq, not_false_eq_true, ↓reduceIte, still]
      simp only [gatewayOtaAbort, last, fine, ne_eq, not_false_eq_true, ↓reduceIte, diagnostics]
      unfold sessionRelease
      dsimp only
      split <;> split <;> rfl
  rw [ends nonempty rfl, ends nonempty' same.symm]

end SmsGateway.Ota
