import SmsGateway.Lib.Outcomes
import SmsGateway.Lib.Slots
import SmsGateway.Ledger.Idempotency

/-! What each ledger call can leave, with refused flash calls or without. -/

namespace SmsGateway.Ledger

open Lib

theorem foldl_or_eq_zero {ι : Type} (f : ι → UInt8) (items : List ι) (start : UInt8) :
    items.foldl (fun acc i => acc ||| f i) start = 0 ↔ start = 0 ∧ ∀ i ∈ items, f i = 0 := by
  induction items generalizing start with
  | nil => simp
  | cons item rest ih =>
      simp only [List.foldl_cons, ih, UInt8.or_eq_zero_iff, List.forall_mem_cons, and_assoc]

@[simp] theorem equal32_iff (a b : Digest) : equal32 a b = true ↔ a = b := by
  simp only [equal32, beq_iff_eq, foldl_or_eq_zero, true_and, UInt8.xor_eq_zero_iff]
  constructor
  · intro same
    apply Vector.ext
    intro i bound
    exact same ⟨i, bound⟩ (List.mem_finRange _)
  · rintro rfl i -
    rfl

theorem equal32_eq (a b : Digest) : equal32 a b = decide (a = b) := by
  rw [Bool.eq_iff_iff, equal32_iff, decide_eq_true_iff]

/-! The records of a flash. -/

/-- A record that `read_slot` does not refuse. -/
def IdemRecord.Current (record : IdemRecord) : Prop :=
  record.magic = idemMagic ∧ record.version = idemVersion

instance (record : IdemRecord) : Decidable record.Current :=
  inferInstanceAs (Decidable (_ ∧ _))

/-- The record that a slot holds. -/
def records (c : Contents) (slot : Slot) : Option IdemRecord :=
  match c slot with
  | none => none
  | some blob =>
      if blob.length = idemRecordSize ∧ blob.record.Current then some blob.record else none

/-- No blob is larger than the buffer it is read into. -/
def Readable (c : Contents) : Prop := ∀ slot blob, c slot = some blob → blob.length ≤ idemRecordSize

def put (c : Contents) (slot : Slot) (record : IdemRecord) : Contents :=
  Function.update c slot (some ⟨idemRecordSize, record⟩)

def wipe (c : Contents) (slot : Slot) : Contents := Function.update c slot none

theorem records_current {c : Contents} {slot : Slot} {record : IdemRecord}
    (held : records c slot = some record) : record.Current := by
  simp only [records] at held
  split at held
  · cases held
  · split at held
    · rename_i valid
      cases held
      exact valid.2
    · cases held

theorem records_put (c : Contents) (slot : Slot) {record : IdemRecord} (current : record.Current) :
    records (put c slot record) = Function.update (records c) slot (some record) := by
  funext other
  by_cases same : other = slot
  · subst same
    simp [records, put, current]
  · simp [records, put, same]

/-- A record with another message id, in its own slot. -/
theorem records_rename {c : Contents} {slot : Slot} {record : IdemRecord}
    (held : records c slot = some record) (messageId : UInt32) :
    records (put c slot { record with messageId := messageId }) =
      Function.update (records c) slot (some { record with messageId := messageId }) := by
  have current := records_current held
  apply records_put
  exact current

theorem records_wipe (c : Contents) (slot : Slot) :
    records (wipe c slot) = Function.update (records c) slot none := by
  funext other
  by_cases same : other = slot
  · subst same
    simp [records, wipe]
  · simp [records, wipe, same]

theorem Readable.put {c : Contents} (readable : Readable c) (slot : Slot) (record : IdemRecord) :
    Readable (put c slot record) := by
  intro other blob stored
  simp only [Ledger.put, Function.update_apply] at stored
  split at stored
  · cases stored
    exact Nat.le_refl _
  · exact readable other blob stored

theorem Readable.wipe {c : Contents} (readable : Readable c) (slot : Slot) :
    Readable (wipe c slot) := by
  intro other blob stored
  simp only [Ledger.wipe, Function.update_apply] at stored
  split at stored
  · cases stored
  · exact readable other blob stored

theorem mem_allSlots (slot : Slot) : slot ∈ allSlots := List.mem_finRange slot

/-! Reading. -/

variable {faulty : Prop} {s : Flash}

/-- `read_slot` when the flash answers. -/
def readBlob : Option Blob → Except EspErr IdemRecord
  | none => .error .nvsNotFound
  | some blob =>
      if blob.length > idemRecordSize then .error .invalidSize
      else if blob.length ≠ idemRecordSize ∨ blob.record.magic ≠ idemMagic ∨
          blob.record.version ≠ idemVersion then .error .invalidVersion
      else .ok blob.record

theorem readSlot_ends (slot : Slot) : Ends faulty (readSlot slot) s fun result t =>
    t = s ∧ ((faulty ∧ ∃ code, result = .error (.nvs code)) ∨
      result = readBlob (s.current slot)) := by
  apply Ends.bind
  apply Ends.attempt
  · intro fault code
    exact .pure ⟨rfl, .inl ⟨fault, code, rfl⟩⟩
  · cases stored : s.current slot with
    | none => exact .pure ⟨rfl, .inr rfl⟩
    | some blob =>
        by_cases large : blob.length > idemRecordSize
        · simp only [readBlob, large, ↓reduceIte]
          exact .pure ⟨rfl, .inr rfl⟩
        · simp only [readBlob, large, ↓reduceIte]
          split
          · exact .pure ⟨rfl, .inr rfl⟩
          · exact .pure ⟨rfl, .inr rfl⟩

/-- A slot is read as it stands, unless the read is refused. -/
theorem loadSlot_ends (slot : Slot) : Ends faulty (loadSlot slot) s fun result t =>
    t = s ∧ (∀ found, result = .ok found → found = records s.current slot) ∧
      ∀ e, result = .error e → faulty ∨ ¬ Readable s.current := by
  apply Ends.bind
  refine (readSlot_ends slot).mono ?_
  rintro result _ ⟨rfl, ⟨fault, code, rfl⟩ | rfl⟩
  · exact .pure ⟨rfl, nofun, fun _ _ => .inl fault⟩
  · rename_i t
    cases stored : t.current slot with
    | none =>
        refine .pure ⟨rfl, ?_, nofun⟩
        rintro _ ⟨⟩
        simp [records, stored]
    | some blob =>
        by_cases large : blob.length > idemRecordSize
        · simp only [readBlob, large, ↓reduceIte]
          refine .pure ⟨rfl, nofun, ?_⟩
          intro _ _
          right
          intro readable
          have := readable slot blob stored
          omega
        · by_cases foreign : blob.length ≠ idemRecordSize ∨ blob.record.magic ≠ idemMagic ∨
              blob.record.version ≠ idemVersion
          · simp only [readBlob, large, foreign, ↓reduceIte]
            refine .pure ⟨rfl, ?_, nofun⟩
            rintro _ ⟨⟩
            simp only [records, stored]
            rw [if_neg]
            unfold IdemRecord.Current
            tauto
          · simp only [readBlob, large, foreign, ↓reduceIte]
            refine .pure ⟨rfl, ?_, nofun⟩
            rintro _ ⟨⟩
            simp only [records, stored]
            rw [if_pos]
            unfold IdemRecord.Current
            tauto

/-- A write is refused, or stored and not committed, or committed. -/
theorem writeSlot_ends (slot : Slot) (record : IdemRecord) {post : Except EspErr Unit → Flash → Prop}
    (refused : faulty → ∀ e, post (.error e) s)
    (unsettled : faulty → ∀ e, post (.error e) (s.write (put s.current slot record)))
    (stored : post (.ok ()) (s.write (put s.current slot record)).commit) :
    Ends faulty (writeSlot slot record) s post := by
  apply Ends.bind
  apply Ends.attempt
  · intro fault code
    exact .pure (refused fault _)
  · apply Ends.attempt
    · intro fault code
      exact unsettled fault _
    · exact stored

theorem eraseSlot_ends (slot : Slot) {post : Except EspErr Unit → Flash → Prop}
    (refused : ∀ e, post (.error e) s)
    (unsettled : faulty → ∀ e, post (.error e) (s.write (wipe s.current slot)))
    (erased : post (.ok ()) (s.write (wipe s.current slot)).commit) :
    Ends faulty (eraseSlot slot) s post := by
  apply Ends.bind
  apply Ends.attempt
  · intro fault code
    exact .pure (refused _)
  · cases held : s.current slot with
    | none => exact .pure (refused _)
    | some blob =>
        apply Ends.attempt
        · intro fault code
          exact unsettled fault _
        · exact erased

theorem withKeyHash_ends {α : Type} (sha256 : List UInt8 → Digest) (key : CStr)
    {work : Digest → LedgerM (Except EspErr α)} {post : Except EspErr α → Flash → Prop}
    (refused : faulty → ∀ e, post (.error e) s)
    (works : Ends faulty (work (sha256 key.bytes)) s post) :
    Ends faulty (withKeyHash sha256 key work) s post := by
  apply Ends.bind
  apply Ends.attempt
  · intro fault code
    exact .pure (refused fault _)
  · apply Ends.bind
    apply Ends.attempt
    · intro fault code
      exact .pure (refused fault _)
    · exact works

/-! The scan of a claim. -/

def ClaimScan.visit (scan : ClaimScan) (slot : Slot) : Option IdemRecord → ClaimScan
  | none => scan.visitEmpty slot
  | some record => scan.visitRecord slot record

/-- The scan over all slots. -/
def scanOf (c : Contents) : ClaimScan :=
  allSlots.foldl (fun scan slot => scan.visit slot (records c slot)) .start

/-- The key has a record. -/
def HoldsKey (keyHash : Digest) (c : Contents) : Prop :=
  ∃ slot record, records c slot = some record ∧ record.keyHash = keyHash

theorem claimLoop_ends (keyHash : Digest) (slots : List Slot) (scan : ClaimScan) :
    Ends faulty (claimLoop keyHash slots scan) s fun result t => t = s ∧
      (∀ record, result = .ok (.inl record) →
        ∃ slot, records s.current slot = some record ∧ record.keyHash = keyHash) ∧
      (∀ last, result = .ok (.inr last) →
        last = slots.foldl (fun scan slot => scan.visit slot (records s.current slot)) scan ∧
          ∀ slot ∈ slots, ∀ record, records s.current slot = some record →
            record.keyHash ≠ keyHash) ∧
      ∀ e, result = .error e → faulty ∨ ¬ Readable s.current := by
  induction slots generalizing scan with
  | nil =>
      refine .pure ⟨rfl, nofun, ?_, nofun⟩
      rintro _ ⟨⟩
      exact ⟨rfl, nofun⟩
  | cons slot rest ih =>
      apply Ends.bind
      refine (loadSlot_ends slot).mono ?_
      rintro result _ ⟨rfl, read, refused⟩
      rename_i t
      cases result with
      | error e => exact .pure ⟨rfl, nofun, nofun, fun _ _ => refused e rfl⟩
      | ok found =>
          have here := read found rfl
          cases found with
          | none =>
              refine (ih (scan.visitEmpty slot)).mono ?_
              rintro value _ ⟨rfl, hit, missed, failed⟩
              refine ⟨rfl, hit, ?_, failed⟩
              intro last returned
              obtain ⟨whole, absent⟩ := missed last returned
              refine ⟨?_, ?_⟩
              · rw [whole, List.foldl_cons, ← here]
                rfl
              · refine List.forall_mem_cons.mpr ⟨?_, absent⟩
                rw [← here]
                nofun
          | some record =>
              by_cases same : record.keyHash = keyHash
              · simp only [(equal32_iff _ _).mpr same, ↓reduceIte]
                refine .pure ⟨rfl, ?_, nofun, nofun⟩
                rintro _ ⟨⟩
                exact ⟨slot, here.symm, same⟩
              · simp only [equal32_eq, same, decide_false]
                refine (ih (scan.visitRecord slot record)).mono ?_
                rintro value _ ⟨rfl, hit, missed, failed⟩
                refine ⟨rfl, hit, ?_, failed⟩
                intro last returned
                obtain ⟨whole, absent⟩ := missed last returned
                refine ⟨?_, ?_⟩
                · rw [whole, List.foldl_cons, ← here]
                  rfl
                · refine List.forall_mem_cons.mpr ⟨?_, absent⟩
                  rw [← here]
                  rintro _ ⟨⟩
                  exact same

/-- What a claim answers and leaves. -/
inductive Claimed (faulty : Prop) (keyHash requestHash : Digest) (s : Flash) :
    Except EspErr (IdempotencyResult × UInt32) → Flash → Prop where
  | refused (e : EspErr) (fault : faulty ∨ ¬ Readable s.current) :
      Claimed faulty keyHash requestHash s (.error e) s
  | found {slot : Slot} {record : IdemRecord} (held : records s.current slot = some record)
      (same : record.keyHash = keyHash) :
      Claimed faulty keyHash requestHash s
        (.ok (if record.requestHash = requestHash then .replay else .conflict, record.messageId)) s
  | full (absent : ¬ HoldsKey keyHash s.current) (occupied : (scanOf s.current).chosen = none) :
      Claimed faulty keyHash requestHash s (.error .noMem) s
  | unsettled {slot : Slot} (e : EspErr) (fault : faulty) (absent : ¬ HoldsKey keyHash s.current)
      (chosen : (scanOf s.current).chosen = some slot) :
      Claimed faulty keyHash requestHash s (.error e)
        (s.write (put s.current slot (reservation (scanOf s.current) keyHash requestHash)))
  | reserved {slot : Slot} (absent : ¬ HoldsKey keyHash s.current)
      (chosen : (scanOf s.current).chosen = some slot) :
      Claimed faulty keyHash requestHash s (.ok (.miss, 0))
        (s.write (put s.current slot (reservation (scanOf s.current) keyHash requestHash))).commit

theorem claim_ends (sha256 : List UInt8 → Digest) (key : CStr) (requestHash : Digest) :
    Ends faulty (gatewayIdempotencyClaim sha256 key requestHash) s
      (Claimed faulty (sha256 key.bytes) requestHash s) := by
  apply withKeyHash_ends
  · exact fun fault e => .refused e (.inl fault)
  · apply Ends.bind
    refine (claimLoop_ends _ _ _).mono ?_
    rintro result _ ⟨rfl, hit, missed, failed⟩
    rename_i t
    match result with
    | .error e => exact .pure (.refused e (failed e rfl))
    | .ok (.inl record) =>
        obtain ⟨slot, held, same⟩ := hit record rfl
        simp only [equal32_eq, decide_eq_true_eq]
        exact .pure (.found held same)
    | .ok (.inr last) =>
        obtain ⟨whole, none_⟩ := missed last rfl
        have scan : last = scanOf t.current := whole
        have absent : ¬ HoldsKey (sha256 key.bytes) t.current := by
          rintro ⟨slot, record, held, same⟩
          exact none_ slot (mem_allSlots slot) record held same
        subst scan
        simp only
        cases chosen : (scanOf t.current).chosen with
        | none => exact .pure (.full absent chosen)
        | some slot =>
            apply Ends.bind
            apply writeSlot_ends
            · exact fun fault e => .pure (.refused e (.inl fault))
            · exact fun fault e => .pure (.unsettled e fault absent chosen)
            · exact .pure (.reserved absent chosen)

/-! What the scan found. -/

/-- The slots named by the scan are as the scan takes them to be. -/
structure ClaimScan.Sound (c : Contents) (scan : ClaimScan) : Prop where
  empty : ∀ slot, scan.emptySlot = some slot → records c slot = none
  oldest : ∀ slot, scan.oldestFinalizedSlot = some slot →
    ∃ record, records c slot = some record ∧ record.messageId ≠ 0

theorem ClaimScan.Sound.visit {c : Contents} {scan : ClaimScan} (sound : scan.Sound c)
    (slot : Slot) : (scan.visit slot (records c slot)).Sound c := by
  cases held : records c slot with
  | none =>
      simp only [ClaimScan.visit, ClaimScan.visitEmpty]
      split
      · refine ⟨?_, sound.oldest⟩
        rintro _ ⟨⟩
        exact held
      · exact sound
  | some record =>
      simp only [ClaimScan.visit, ClaimScan.visitRecord]
      split
      · rename_i older
        refine ⟨sound.empty, ?_⟩
        rintro _ ⟨⟩
        exact ⟨record, held, older.1⟩
      · exact ⟨sound.empty, sound.oldest⟩

theorem scanOf_sound (c : Contents) : (scanOf c).Sound c := by
  have general (slots : List Slot) (scan : ClaimScan) (sound : scan.Sound c) :
      (slots.foldl (fun scan slot => scan.visit slot (records c slot)) scan).Sound c := by
    induction slots generalizing scan with
    | nil => exact sound
    | cons slot rest ih => exact ih _ (sound.visit slot)
  exact general allSlots .start ⟨nofun, nofun⟩

/-- The slot chosen for a reservation holds nothing or a finalized record. -/
theorem chosen_finalized {c : Contents} {slot : Slot} {record : IdemRecord}
    (chosen : (scanOf c).chosen = some slot) (held : records c slot = some record) :
    record.messageId ≠ 0 := by
  have sound := scanOf_sound c
  simp only [ClaimScan.chosen] at chosen
  split at chosen
  · rename_i empty
    cases chosen
    rw [sound.empty _ empty] at held
    cases held
  · obtain ⟨stored, here, finalized⟩ := sound.oldest _ chosen
    rw [held] at here
    cases here
    exact finalized

theorem reservation_current (scan : ClaimScan) (keyHash requestHash : Digest) :
    (reservation scan keyHash requestHash).Current := ⟨rfl, rfl⟩

/-! Finalizing, releasing and clearing. -/

theorem atRecord_ends {keyHash : Digest} {work : Slot → IdemRecord → LedgerM (Except EspErr Unit)}
    {post : Except EspErr Unit → Flash → Prop} (unchanged : ∀ e, post (.error e) s)
    (works : ∀ slot record, records s.current slot = some record → record.keyHash = keyHash →
      Ends faulty (work slot record) s post) :
    Ends faulty (atRecord keyHash work) s post := by
  apply Ends.bind
  have reads (slot : Slot) := (@loadSlot_ends faulty s slot).mono
    fun _ _ facts => (⟨facts.1, facts.2.1⟩ : _ ∧ _)
  refine (Ends.firstSlot reads _ _ _).mono ?_
  rintro result _ ⟨rfl, found⟩
  match result with
  | .error e => exact .pure (unchanged e)
  | .ok (_, none) => exact .pure (unchanged _)
  | .ok (slot, some record) =>
      obtain ⟨held, hit⟩ := found slot (some record) rfl
      exact works slot record held.symm ((equal32_iff _ _).mp hit)

/-- What a finalization leaves. -/
inductive Finalized (keyHash requestHash : Digest) (messageId : UInt32) (s : Flash) :
    Except EspErr Unit → Flash → Prop where
  | unchanged (e : EspErr) : Finalized keyHash requestHash messageId s (.error e) s
  | unsettled {slot : Slot} {record : IdemRecord} (e : EspErr) (named : messageId ≠ 0)
      (held : records s.current slot = some record) (same : record.keyHash = keyHash)
      (agrees : record.requestHash = requestHash) :
      Finalized keyHash requestHash messageId s (.error e)
        (s.write (put s.current slot { record with messageId := messageId }))
  | stored {slot : Slot} {record : IdemRecord} (named : messageId ≠ 0)
      (held : records s.current slot = some record) (same : record.keyHash = keyHash)
      (agrees : record.requestHash = requestHash) :
      Finalized keyHash requestHash messageId s (.ok ())
        (s.write (put s.current slot { record with messageId := messageId })).commit

theorem finalize_ends (sha256 : List UInt8 → Digest) (key : CStr) (requestHash : Digest)
    (messageId : UInt32) :
    Ends faulty (gatewayIdempotencyFinalize sha256 key requestHash messageId) s
      (Finalized (sha256 key.bytes) requestHash messageId s) := by
  unfold gatewayIdempotencyFinalize
  split
  · exact .pure (.unchanged _)
  · rename_i named
    apply withKeyHash_ends
    · exact fun _ e => .unchanged e
    · apply atRecord_ends Finalized.unchanged
      intro slot record held same
      by_cases agrees : record.requestHash = requestHash
      · have equal := (equal32_iff _ _).mpr agrees
        simp only [equal, Bool.not_true]
        apply writeSlot_ends
        · exact fun _ e => .unchanged e
        · exact fun _ e => .unsettled e named held same agrees
        · exact .stored named held same agrees
      · simp only [equal32_eq, agrees, decide_false, Bool.not_false, ↓reduceIte]
        exact .pure (.unchanged _)

/-- What a release leaves. -/
inductive Released (keyHash : Digest) (s : Flash) : Except EspErr Unit → Flash → Prop where
  | unchanged (e : EspErr) : Released keyHash s (.error e) s
  | unsettled {slot : Slot} {record : IdemRecord} (e : EspErr)
      (held : records s.current slot = some record) (same : record.keyHash = keyHash)
      (pending : record.messageId = 0) :
      Released keyHash s (.error e) (s.write (wipe s.current slot))
  | erased {slot : Slot} {record : IdemRecord} (held : records s.current slot = some record)
      (same : record.keyHash = keyHash) (pending : record.messageId = 0) :
      Released keyHash s (.ok ()) (s.write (wipe s.current slot)).commit

theorem release_ends (sha256 : List UInt8 → Digest) (key : CStr) (requestHash : Digest) :
    Ends faulty (gatewayIdempotencyReleasePending sha256 key requestHash) s
      (Released (sha256 key.bytes) s) := by
  apply withKeyHash_ends
  · exact fun _ e => .unchanged e
  · apply atRecord_ends Released.unchanged
    intro slot record held same
    split
    · exact .pure (.unchanged _)
    · rename_i releasable
      have pending : record.messageId = 0 := by
        simp only [Bool.or_eq_true, bne_iff_ne, ne_eq, not_or, Decidable.not_not] at releasable
        exact releasable.2
      apply eraseSlot_ends
      · exact Released.unchanged
      · exact fun _ e => .unsettled e held same pending
      · exact .erased held same pending

/-- Every record of `c` is in `d`. -/
def Below (c d : Contents) : Prop :=
  ∀ slot record, records c slot = some record → records d slot = some record

theorem Below.refl (c : Contents) : Below c c := fun _ _ held => held

theorem Below.trans {c d e : Contents} (first : Below c d) (second : Below d e) : Below c e :=
  fun slot record held => second slot record (first slot record held)

theorem wipe_below (c : Contents) (slot : Slot) : Below (wipe c slot) c := by
  intro other record held
  rw [records_wipe, Function.update_apply] at held
  split at held
  · cases held
  · exact held

/-- What clearing leaves: the finalized records, and between the two contents only
contents with some of the reservations gone. -/
structure Cleared (s t : Flash) : Prop where
  below : Below t.current s.current
  kept : ∀ slot record, records s.current slot = some record → record.messageId ≠ 0 →
    records t.current slot = some record
  between : ∀ c ∈ t.earlier, c ∈ s.earlier ∨ (Below t.current c ∧ Below c s.current)
  readable : Readable s.current → Readable t.current

theorem Cleared.refl (s : Flash) : Cleared s s :=
  ⟨.refl _, fun _ _ held _ => held, fun _ member => .inl member, id⟩

theorem Cleared.erase {t : Flash} {slot : Slot} {record : IdemRecord}
    (held : records s.current slot = some record) (pending : record.messageId = 0)
    (rest : Cleared (s.write (wipe s.current slot)) t) : Cleared s t := by
  refine ⟨rest.below.trans (wipe_below _ _), ?_, ?_, fun readable => rest.readable
    (readable.wipe slot)⟩
  · intro other finalized stored named
    apply rest.kept other finalized _ named
    rw [Staged.write_current, records_wipe, Function.update_apply, if_neg, stored]
    rintro rfl
    rw [held] at stored
    cases stored
    exact named pending
  · intro c member
    rcases rest.between c member with earlier | ⟨above, below⟩
    · rcases List.mem_cons.mp earlier with rfl | earlier
      · exact .inr ⟨rest.below.trans (wipe_below _ _), .refl _⟩
      · exact .inl earlier
    · exact .inr ⟨above, below.trans (wipe_below _ _)⟩

theorem Cleared.commit {t : Flash} (cleared : Cleared s t) : Cleared s t.commit :=
  ⟨cleared.below, cleared.kept, nofun, cleared.readable⟩

theorem clearLoop_ends (slots : List Slot) (count : UInt32) :
    Ends faulty (clearLoop slots count) s fun _ t => Cleared s t := by
  induction slots generalizing s count with
  | nil => exact .pure (.refl s)
  | cons slot rest ih =>
      apply Ends.bind
      refine (loadSlot_ends slot).mono ?_
      rintro result _ ⟨rfl, read, -⟩
      rename_i t
      match result with
      | .error e => exact .pure (.refl t)
      | .ok none => exact ih count
      | .ok (some record) =>
          have held := (read _ rfl).symm
          simp only
          split
          · rename_i pending
            apply Ends.bind
            apply Ends.attempt
            · exact fun _ _ => .pure (.refl t)
            · cases stored : t.current slot with
              | none => exact .pure (.refl t)
              | some blob =>
                  refine (ih (count + 1)).mono ?_
                  intro _ _ later
                  exact .erase held pending later
          · exact ih count

theorem clear_ends : Ends faulty gatewayIdempotencyClearPending s fun _ t => Cleared s t := by
  apply Ends.bind
  apply Ends.attempt
  · exact fun _ _ => .pure (.refl s)
  · apply Ends.bind
    refine (clearLoop_ends allSlots 0).mono ?_
    rintro ⟨result, count⟩ t cleared
    match result with
    | .error e => exact .pure cleared
    | .ok () =>
        simp only
        split
        · apply Ends.bind
          apply Ends.attempt
          · exact fun _ _ => .pure cleared
          · exact .pure cleared.commit
        · exact .pure cleared

end SmsGateway.Ledger
