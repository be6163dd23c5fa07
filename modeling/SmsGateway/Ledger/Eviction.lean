import SmsGateway.Ledger.Origins

/-! The order in which the ledger gives up its records, while the flash answers. -/

namespace SmsGateway.Ledger

open Lib

/-! What the scan of a claim adds up. -/

def scanFrom (c : Contents) (slots : List Slot) (scan : ClaimScan) : ClaimScan :=
  slots.foldl (fun scan slot => scan.visit slot (records c slot)) scan

/-- The search for the oldest finalized record is a search for the least sequence
number. -/
theorem visit_oldest (scan : ClaimScan) (slot : Slot) (held : Option IdemRecord) :
    ((scan.visit slot held).oldestFinalizedSlot, (scan.visit slot held).oldestSequence) =
      visitLeast (fun record => record.messageId != 0) IdemRecord.sequence
        (scan.oldestFinalizedSlot, scan.oldestSequence) slot held := by
  cases held with
  | none =>
      simp only [ClaimScan.visit, ClaimScan.visitEmpty, visitLeast]
      split <;> rfl
  | some record =>
      simp only [ClaimScan.visit, ClaimScan.visitRecord, visitLeast, bne_iff_ne]
      split <;> rfl

theorem scanFrom_oldest (c : Contents) (slots : List Slot) (scan : ClaimScan) :
    ((scanFrom c slots scan).oldestFinalizedSlot, (scanFrom c slots scan).oldestSequence) =
      slots.foldl (fun best slot => visitLeast (fun record => record.messageId != 0)
        IdemRecord.sequence best slot (records c slot))
        (scan.oldestFinalizedSlot, scan.oldestSequence) := by
  induction slots generalizing scan with
  | nil => rfl
  | cons slot rest ih =>
      rw [List.foldl_cons, ← visit_oldest]
      exact ih _

/-- What the scan knows of the oldest finalized record. -/
theorem scanOf_oldest (c : Contents) :
    LeastSeen UInt32.toNat (fun record => record.messageId != 0) IdemRecord.sequence (records c)
      0xFFFFFFFF allSlots ((scanOf c).oldestFinalizedSlot, (scanOf c).oldestSequence) := by
  have fold := scanFrom_oldest c allSlots .start
  have least := leastSeen_foldl UInt32.toNat (fun a b => UInt32.lt_iff_toNat_lt)
    (fun record : IdemRecord => record.messageId != 0) IdemRecord.sequence (records c)
    0xFFFFFFFF allSlots
  rw [show scanOf c = scanFrom c allSlots .start from rfl, fold]
  exact least

theorem visit_emptySlot_none {scan : ClaimScan} {slot : Slot} {held : Option IdemRecord} :
    (scan.visit slot held).emptySlot = none ↔ scan.emptySlot = none ∧ held ≠ none := by
  cases held with
  | none =>
      simp only [ClaimScan.visit, ClaimScan.visitEmpty]
      split
      · simp
      · rename_i some_
        simpa using some_
  | some record =>
      simp only [ClaimScan.visit, ClaimScan.visitRecord]
      split <;> simp

/-- The scan finds an empty slot if there is one. -/
theorem scanOf_emptySlot_none (c : Contents) :
    (scanOf c).emptySlot = none ↔ ∀ slot, records c slot ≠ none := by
  have general (slots : List Slot) (scan : ClaimScan) :
      (scanFrom c slots scan).emptySlot = none ↔
        scan.emptySlot = none ∧ ∀ slot ∈ slots, records c slot ≠ none := by
    induction slots generalizing scan with
    | nil => simp [scanFrom]
    | cons slot rest ih =>
        have next := ih (scan.visit slot (records c slot))
        rw [visit_emptySlot_none, and_assoc] at next
        rw [List.forall_mem_cons]
        exact next
  have whole := general allSlots .start
  simp only [mem_allSlots, forall_const] at whole
  exact whole.trans (and_iff_right rfl)

theorem visit_maxSequence (scan : ClaimScan) (slot : Slot) (held : Option IdemRecord) :
    (scan.visit slot held).maxSequence.toNat =
      max scan.maxSequence.toNat (held.elim 0 fun record => record.sequence.toNat) := by
  cases held with
  | none =>
      simp only [ClaimScan.visit, ClaimScan.visitEmpty, Option.elim_none, Nat.max_zero]
      split <;> rfl
  | some record =>
      have highest : (if record.sequence > scan.maxSequence then record.sequence
          else scan.maxSequence).toNat = max scan.maxSequence.toNat record.sequence.toNat := by
        split
        · rename_i above
          have : scan.maxSequence.toNat < record.sequence.toNat := UInt32.lt_iff_toNat_lt.mp above
          omega
        · rename_i above
          have : ¬ scan.maxSequence.toNat < record.sequence.toNat :=
            fun below => above (UInt32.lt_iff_toNat_lt.mpr below)
          omega
      simp only [ClaimScan.visit, ClaimScan.visitRecord, Option.elim_some]
      split <;> exact highest

/-- The scan ends with the highest sequence number: no record is above it, and it is no
higher than a bound on the records. -/
theorem scanOf_maxSequence (c : Contents) :
    (∀ slot record, records c slot = some record →
      record.sequence.toNat ≤ (scanOf c).maxSequence.toNat) ∧
    ∀ bound, (∀ slot record, records c slot = some record → record.sequence.toNat ≤ bound) →
      (scanOf c).maxSequence.toNat ≤ bound := by
  have general (slots : List Slot) (scan : ClaimScan) :
      scan.maxSequence.toNat ≤ (scanFrom c slots scan).maxSequence.toNat ∧
      (∀ slot ∈ slots, ∀ record, records c slot = some record →
        record.sequence.toNat ≤ (scanFrom c slots scan).maxSequence.toNat) ∧
      ∀ bound, scan.maxSequence.toNat ≤ bound →
        (∀ slot record, records c slot = some record → record.sequence.toNat ≤ bound) →
          (scanFrom c slots scan).maxSequence.toNat ≤ bound := by
    induction slots generalizing scan with
    | nil => exact ⟨Nat.le_refl _, nofun, fun _ below _ => below⟩
    | cons slot rest ih =>
        obtain ⟨grows, above, below⟩ := ih (scan.visit slot (records c slot))
        rw [visit_maxSequence] at grows below
        refine ⟨?_, ?_, ?_⟩
        · exact (Nat.le_max_left _ _).trans grows
        · refine List.forall_mem_cons.mpr ⟨?_, above⟩
          intro record held
          have mine : record.sequence.toNat ≤ max scan.maxSequence.toNat
              ((records c slot).elim 0 fun record => record.sequence.toNat) := by
            rw [held]
            exact Nat.le_max_right _ _
          exact mine.trans grows
        · intro bound small all
          apply below bound _ all
          apply Nat.max_le.mpr ⟨small, _⟩
          cases held : records c slot with
          | none => exact Nat.zero_le _
          | some record => exact all slot record held
  obtain ⟨-, above, below⟩ := general allSlots .start
  exact ⟨fun slot => above slot (mem_allSlots slot), fun bound => below bound (Nat.zero_le _)⟩

/-! Sequences of calls. -/

/-- A ledger call and what it was answered. -/
inductive Op where
  | claim (key : CStr) (requestHash : Digest) (reply : Except EspErr (IdempotencyResult × UInt32))
  | finalize (key : CStr) (requestHash : Digest) (messageId : UInt32) (reply : Except EspErr Unit)
  | releasePending (key : CStr) (requestHash : Digest) (reply : Except EspErr Unit)
  | clearPending (reply : Except EspErr Unit × UInt32)

section

variable (sha256 : List UInt8 → Digest)

/-- One call, none of whose flash calls is refused. -/
def OpStep (s : Flash) : Op → Flash → Prop
  | .claim key requestHash reply, t =>
      Yields False (gatewayIdempotencyClaim sha256 key requestHash) s reply t
  | .finalize key requestHash messageId reply, t =>
      Yields False (gatewayIdempotencyFinalize sha256 key requestHash messageId) s reply t
  | .releasePending key requestHash reply, t =>
      Yields False (gatewayIdempotencyReleasePending sha256 key requestHash) s reply t
  | .clearPending reply, t => Yields False gatewayIdempotencyClearPending s reply t

/-- Whether the call reserves this key. -/
def Op.reserves (keyHash : Digest) : Op → Bool
  | .claim key _ reply => sha256 key.bytes == keyHash && missed reply
  | _ => false

/-- When the key was last reserved. -/
def claimTime (trace : List Op) (keyHash : Digest) : Option Nat :=
  trace.zipIdx.foldl (fun last entry =>
    if entry.1.reserves sha256 keyHash then some entry.2 else last) none

end

def Op.isClaim : Op → Bool
  | .claim .. => true
  | _ => false

variable {sha256 : List UInt8 → Digest}

theorem claimTime_snoc (trace : List Op) (op : Op) (keyHash : Digest) :
    claimTime sha256 (trace ++ [op]) keyHash =
      if op.reserves sha256 keyHash then some trace.length else claimTime sha256 trace keyHash := by
  simp [claimTime, List.zipIdx_append]

theorem claimTime_lt {trace : List Op} {keyHash : Digest} {n : Nat}
    (claimed : claimTime sha256 trace keyHash = some n) : n < trace.length := by
  induction trace using List.reverseRecOn with
  | nil => cases claimed
  | append_singleton trace op ih =>
      rw [claimTime_snoc] at claimed
      rw [List.length_append, List.length_singleton]
      split at claimed
      · cases claimed
        omega
      · have := ih claimed
        omega

/-- What a sequence of calls keeps: one record a key, sequence numbers in the order of
the claims and no higher than their number. -/
structure Ordered (sha256 : List UInt8 → Digest) (trace : List Op) (c : Contents) : Prop where
  readable : Readable c
  distinct : Distinct c
  claimed : ∀ slot record, records c slot = some record →
    ∃ n, claimTime sha256 trace record.keyHash = some n
  ordered : ∀ slot other record held n m, records c slot = some record →
    records c other = some held → claimTime sha256 trace record.keyHash = some n →
    claimTime sha256 trace held.keyHash = some m →
      (record.sequence.toNat < held.sequence.toNat ↔ n < m)
  bounded : ∀ slot record, records c slot = some record →
    record.sequence.toNat ≤ trace.countP Op.isClaim

theorem claimTime_injective {trace : List Op} {keyHash other : Digest} {n : Nat}
    (claimed : claimTime sha256 trace keyHash = some n)
    (otherClaimed : claimTime sha256 trace other = some n) : keyHash = other := by
  induction trace using List.reverseRecOn with
  | nil => cases claimed
  | append_singleton trace op ih =>
      rw [claimTime_snoc] at claimed otherClaimed
      split at claimed
      · rename_i reserves
        cases claimed
        split at otherClaimed
        · rename_i otherReserves
          cases op with
          | claim key requestHash reply =>
              simp only [Op.reserves, Bool.and_eq_true, beq_iff_eq] at reserves otherReserves
              exact reserves.1.symm.trans otherReserves.1
          | _ => cases reserves
        · have := claimTime_lt otherClaimed
          omega
      · split at otherClaimed
        · cases otherClaimed
          have := claimTime_lt claimed
          omega
        · exact ih claimed otherClaimed

variable {trace : List Op} {c d : Contents} {op : Op}

/-- Every record of `c` stands in its slot of `d` under the same key and number. -/
def Stems (c d : Contents) : Prop :=
  ∀ slot record, records c slot = some record →
    ∃ held, records d slot = some held ∧ held.keyHash = record.keyHash ∧
      held.sequence = record.sequence

theorem Below.stems (below : Below c d) : Stems c d :=
  fun slot record held => ⟨record, below slot record held, rfl, rfl⟩

theorem stems_rename {slot : Slot} {record : IdemRecord} (held : records c slot = some record)
    (messageId : UInt32) : Stems (put c slot { record with messageId := messageId }) c := by
  intro other stored here
  rw [records_rename held, Function.update_apply] at here
  split at here
  · rename_i same
    cases here
    subst same
    exact ⟨record, held, rfl, rfl⟩
  · exact ⟨stored, here, rfl, rfl⟩

/-- A call that reserves nothing and leaves records of before. -/
theorem Ordered.carry (before : Ordered sha256 trace d)
    (silent : ∀ keyHash, op.reserves sha256 keyHash = false) (readable : Readable c)
    (stems : Stems c d) : Ordered sha256 (trace ++ [op]) c := by
  have times (keyHash : Digest) :
      claimTime sha256 (trace ++ [op]) keyHash = claimTime sha256 trace keyHash := by
    rw [claimTime_snoc, silent]
    rfl
  refine ⟨readable, ?_, ?_, ?_, ?_⟩
  · intro slot other record held stored otherStored same
    obtain ⟨first, firstHeld, firstKey, -⟩ := stems slot record stored
    obtain ⟨second, secondHeld, secondKey, -⟩ := stems other held otherStored
    exact before.distinct slot other first second firstHeld secondHeld
      (firstKey.trans (same.trans secondKey.symm))
  · intro slot record stored
    obtain ⟨held, there, key, -⟩ := stems slot record stored
    rw [times, ← key]
    exact before.claimed slot held there
  · intro slot other record held n m stored otherStored time otherTime
    obtain ⟨first, firstHeld, firstKey, firstNumber⟩ := stems slot record stored
    obtain ⟨second, secondHeld, secondKey, secondNumber⟩ := stems other held otherStored
    rw [times, ← firstKey] at time
    rw [times, ← secondKey] at otherTime
    rw [← firstNumber, ← secondNumber]
    exact before.ordered slot other first second n m firstHeld secondHeld time otherTime
  · intro slot record stored
    obtain ⟨held, there, -, number⟩ := stems slot record stored
    rw [← number, List.countP_append]
    exact (before.bounded slot held there).trans (Nat.le_add_right _ _)

/-- The number of a reservation is above those of all records, as long as the numbers
do not run out. -/
theorem reservation_sequence (keyHash requestHash : Digest)
    (few : (scanOf c).maxSequence.toNat + 1 < 2 ^ 32) :
    (reservation (scanOf c) keyHash requestHash).sequence.toNat =
      (scanOf c).maxSequence.toNat + 1 := by
  have below : (scanOf c).maxSequence ≠ 0xFFFFFFFF := by
    intro top
    rw [top] at few
    exact absurd few (by decide)
  have one : (1 : UInt32).toNat = 1 := rfl
  simp only [reservation, if_neg below]
  rw [UInt32.toNat_add, one, Nat.mod_eq_of_lt few]

/-- A call that reserves a key. -/
theorem Ordered.reserve {slot : Slot} {key : CStr} {requestHash : Digest}
    {reply : Except EspErr (IdempotencyResult × UInt32)} (before : Ordered sha256 trace c)
    (absent : ¬ HoldsKey (sha256 key.bytes) c) (miss : missed reply = true)
    (few : (trace ++ [Op.claim key requestHash reply]).countP Op.isClaim < 2 ^ 32 - 1) :
    Ordered sha256 (trace ++ [.claim key requestHash reply])
      (put c slot (reservation (scanOf c) (sha256 key.bytes) requestHash)) := by
  have counted : (trace ++ [Op.claim key requestHash reply]).countP Op.isClaim =
      trace.countP Op.isClaim + 1 := by
    simp [List.countP_append, List.countP_singleton, Op.isClaim]
  obtain ⟨above, least⟩ := scanOf_maxSequence c
  have small := least _ before.bounded
  have number := @reservation_sequence c (sha256 key.bytes) requestHash (by omega)
  have current : (reservation (scanOf c) (sha256 key.bytes) requestHash).Current :=
    reservation_current _ _ _
  have isKey : (reservation (scanOf c) (sha256 key.bytes) requestHash).keyHash =
    sha256 key.bytes := rfl
  generalize reservation (scanOf c) (sha256 key.bytes) requestHash = fresh at number current isKey ⊢
  have place (other : Slot) (record : IdemRecord)
      (held : records (put c slot fresh) other = some record) :
      (other = slot ∧ record = fresh) ∨ (records c other = some record ∧
        record.keyHash ≠ sha256 key.bytes) := by
    rw [records_put _ _ current, Function.update_apply] at held
    split at held
    · rename_i same
      cases held
      exact .inl ⟨same, rfl⟩
    · exact .inr ⟨held, fun same => absent ⟨other, record, held, same⟩⟩
  have time (keyHash : Digest) : claimTime sha256 (trace ++ [.claim key requestHash reply]) keyHash =
      if sha256 key.bytes = keyHash then some trace.length
      else claimTime sha256 trace keyHash := by
    rw [claimTime_snoc]
    simp [Op.reserves, miss]
  have old {keyHash : Digest} {n : Nat} (different : keyHash ≠ sha256 key.bytes)
      (claimed : claimTime sha256 (trace ++ [.claim key requestHash reply]) keyHash = some n) :
      claimTime sha256 trace keyHash = some n := by
    rwa [time, if_neg (fun same => different same.symm)] at claimed
  have new {n : Nat}
      (claimed : claimTime sha256 (trace ++ [.claim key requestHash reply]) fresh.keyHash = some n) :
      n = trace.length := by
    rw [time, isKey, if_pos rfl] at claimed
    cases claimed
    rfl
  refine ⟨before.readable.put slot fresh, ?_, ?_, ?_, ?_⟩
  · unfold Distinct
    rw [records_put _ _ current]
    apply before.distinct.store
    intro other held stored same
    exact absurd ⟨other, held, stored, same.trans isKey⟩ absent
  · intro other record held
    rw [time]
    split
    · exact ⟨_, rfl⟩
    · rename_i different
      rcases place other record held with ⟨-, rfl⟩ | ⟨there, -⟩
      · exact absurd isKey.symm different
      · exact before.claimed other record there
  · intro first second record held n m stored otherStored firstTime secondTime
    rcases place first record stored with ⟨-, rfl⟩ | ⟨firstHeld, firstKey⟩
    · have latest := new firstTime
      rcases place second held otherStored with ⟨-, rfl⟩ | ⟨secondHeld, secondKey⟩
      · have := new secondTime
        omega
      · have earlier := claimTime_lt (old secondKey secondTime)
        have lower := above second held secondHeld
        omega
    · rcases place second held otherStored with ⟨-, rfl⟩ | ⟨secondHeld, secondKey⟩
      · have latest := new secondTime
        have earlier := claimTime_lt (old firstKey firstTime)
        have lower := above first record firstHeld
        omega
      · exact before.ordered first second record held n m firstHeld secondHeld
          (old firstKey firstTime) (old secondKey secondTime)
  · intro other record held
    rw [counted]
    rcases place other record held with ⟨-, rfl⟩ | ⟨there, -⟩
    · omega
    · have := before.bounded other record there
      omega

variable {s t : Flash}

/-- One call. -/
theorem OpStep.ordered (step : OpStep sha256 s op t) (before : Ordered sha256 trace s.current)
    (few : (trace ++ [op]).countP Op.isClaim < 2 ^ 32 - 1) :
    Ordered sha256 (trace ++ [op]) t.current := by
  cases op with
  | claim key requestHash reply =>
      have claimed := (claim_ends sha256 key requestHash).yields step
      have silent {reply : Except EspErr (IdempotencyResult × UInt32)} (hit : missed reply = false)
          (keyHash : Digest) : (Op.claim key requestHash reply).reserves sha256 keyHash = false := by
        simp [Op.reserves, hit]
      cases claimed with
      | refused e fault => exact before.carry (silent rfl) before.readable (Below.refl _).stems
      | found held same =>
          refine before.carry (silent ?_) before.readable (Below.refl _).stems
          split <;> rfl
      | full absent occupied => exact before.carry (silent rfl) before.readable (Below.refl _).stems
      | unsettled e fault absent chosen => exact fault.elim
      | reserved absent chosen => exact before.reserve absent rfl few
  | finalize key requestHash messageId reply =>
      have finalized := (finalize_ends sha256 key requestHash messageId).yields step
      cases finalized with
      | unchanged e => exact before.carry (fun _ => rfl) before.readable (Below.refl _).stems
      | unsettled e named held same agrees =>
          exact before.carry (fun _ => rfl) (before.readable.put _ _) (stems_rename held _)
      | stored named held same agrees =>
          exact before.carry (fun _ => rfl) (before.readable.put _ _) (stems_rename held _)
  | releasePending key requestHash reply =>
      have released := (release_ends sha256 key requestHash).yields step
      cases released with
      | unchanged e => exact before.carry (fun _ => rfl) before.readable (Below.refl _).stems
      | unsettled e held same pending =>
          exact before.carry (fun _ => rfl) (before.readable.wipe _) (wipe_below _ _).stems
      | erased held same pending =>
          exact before.carry (fun _ => rfl) (before.readable.wipe _) (wipe_below _ _).stems
  | clearPending reply =>
      have cleared := clear_ends.yields step
      exact before.carry (fun _ => rfl) (cleared.readable before.readable) cleared.below.stems

theorem countP_le_of_snoc (trace : List Op) (op : Op) :
    trace.countP Op.isClaim ≤ (trace ++ [op]).countP Op.isClaim := by
  rw [List.countP_append]
  exact Nat.le_add_right _ _

/-- Any sequence of calls from a ledger without records. -/
theorem ordered_of_runs {contents : Contents} (blank : ∀ slot, records contents slot = none)
    (readable : Readable contents) (runs : Runs (OpStep sha256) ⟨contents, []⟩ trace s)
    (few : trace.countP Op.isClaim < 2 ^ 32 - 1) : Ordered sha256 trace s.current := by
  revert few
  refine runs.invariant (fun trace s => trace.countP Op.isClaim < 2 ^ 32 - 1 →
    Ordered sha256 trace s.current) ?_ ?_
  · intro _
    have nothing {slot : Slot} {record : IdemRecord} (held : records contents slot = some record) :
        False := by
      rw [blank] at held
      cases held
    exact ⟨readable, fun _ _ _ _ held _ _ => (nothing held).elim,
      fun _ _ held => (nothing held).elim, fun _ _ _ _ _ _ held _ _ _ => (nothing held).elim,
      fun _ _ held => (nothing held).elim⟩
  · intro trace s op t _ before step few
    exact step.ordered (before (Nat.lt_of_le_of_lt (countP_le_of_snoc trace op) few)) few

/-- What may become of a reservation. -/
def PendingFate (sha256 : List UInt8 → Digest) (record : IdemRecord) (left : Option IdemRecord) :
    Op → Prop
  | .claim .. => left = some record
  | .finalize key _ messageId _ => left = some record ∨ (sha256 key.bytes = record.keyHash ∧
      messageId ≠ 0 ∧ left = some { record with messageId := messageId })
  | .releasePending key _ _ => left = some record ∨ (sha256 key.bytes = record.keyHash ∧ left = none)
  | .clearPending _ => left = some record ∨ left = none

theorem OpStep.pendingFate {slot : Slot} {record : IdemRecord} (step : OpStep sha256 s op t)
    (held : records s.current slot = some record) (pending : record.messageId = 0) :
    PendingFate sha256 record (records t.current slot) op := by
  cases op with
  | claim key requestHash reply =>
      have claimed := (claim_ends sha256 key requestHash).yields step
      have elsewhere {place : Slot} (chosen : (scanOf s.current).chosen = some place) :
          records (put s.current place
            (reservation (scanOf s.current) (sha256 key.bytes) requestHash)) slot = some record := by
        rw [records_put _ _ (reservation_current _ _ _), Function.update_of_ne, held]
        rintro rfl
        exact chosen_finalized chosen held pending
      cases claimed with
      | refused e fault => exact held
      | found there same => exact held
      | full absent occupied => exact held
      | unsettled e fault absent chosen => exact elsewhere chosen
      | reserved absent chosen => exact elsewhere chosen
  | finalize key requestHash messageId reply =>
      have finalized := (finalize_ends sha256 key requestHash messageId).yields step
      have renamed {place : Slot} {found : IdemRecord} (named : messageId ≠ 0)
          (there : records s.current place = some found) (same : found.keyHash = sha256 key.bytes) :
          PendingFate sha256 record (records (put s.current place
            { found with messageId := messageId }) slot) (.finalize key requestHash messageId reply) := by
        rw [records_rename there, Function.update_apply]
        split
        · rename_i here
          subst here
          rw [held] at there
          cases there
          exact .inr ⟨same.symm, named, rfl⟩
        · exact .inl held
      cases finalized with
      | unchanged e => exact .inl held
      | unsettled e named there same agrees => exact renamed named there same
      | stored named there same agrees => exact renamed named there same
  | releasePending key requestHash reply =>
      have released := (release_ends sha256 key requestHash).yields step
      have wiped {place : Slot} {found : IdemRecord}
          (there : records s.current place = some found) (same : found.keyHash = sha256 key.bytes) :
          PendingFate sha256 record (records (wipe s.current place) slot)
            (.releasePending key requestHash reply) := by
        rw [records_wipe, Function.update_apply]
        split
        · rename_i here
          subst here
          rw [held] at there
          cases there
          exact .inr ⟨same.symm, rfl⟩
        · exact .inl held
      cases released with
      | unchanged e => exact .inl held
      | unsettled e there same pending => exact wiped there same
      | erased there same pending => exact wiped there same
  | clearPending reply =>
      have cleared := clear_ends.yields step
      cases left : records t.current slot with
      | none => exact .inr rfl
      | some found =>
          have was := cleared.below slot found left
          rw [held] at was
          cases was
          exact .inl rfl

/-- The record that makes room for a reservation: the finalized one reserved longest
ago. -/
def Victim (sha256 : List UInt8 → Digest) (trace : List Op) (c : Contents) (slot : Slot) : Prop :=
  ∃ victim, records c slot = some victim ∧ victim.messageId ≠ 0 ∧
    ∀ other held n m, records c other = some held → held.messageId ≠ 0 →
      claimTime sha256 trace victim.keyHash = some n →
        claimTime sha256 trace held.keyHash = some m → n ≤ m

/-- The slot chosen in a full ledger. -/
theorem chosen_victim {slot : Slot} (before : Ordered sha256 trace c)
    (few : trace.countP Op.isClaim < 2 ^ 32 - 1) (full : ∀ slot, records c slot ≠ none)
    (chosen : (scanOf c).chosen = some slot) : Victim sha256 trace c slot := by
  have oldest := scanOf_oldest c
  have none_ := (scanOf_emptySlot_none c).mpr full
  have found : (scanOf c).oldestFinalizedSlot = some slot := by
    simpa [ClaimScan.chosen, none_] using chosen
  obtain ⟨-, victim, held, finalized, number, -⟩ := oldest.found slot found
  refine ⟨victim, held, by simpa using finalized, ?_⟩
  intro other record n m there named time otherTime
  have top : (0xFFFFFFFF : UInt32).toNat = 2 ^ 32 - 1 := rfl
  have below : record.sequence < 0xFFFFFFFF := by
    rw [UInt32.lt_iff_toNat_lt, top]
    have := before.bounded other record there
    omega
  have least := oldest.least other (mem_allSlots other) record there (by simpa using named) below
  rw [← number] at least
  by_contra later
  have := (before.ordered other slot record victim m n there held otherTime time).mpr (by omega)
  omega

/-- In a full ledger a slot is chosen exactly when there is a finalized record. -/
theorem chosen_none_iff (before : Ordered sha256 trace c)
    (few : trace.countP Op.isClaim < 2 ^ 32 - 1) (full : ∀ slot, records c slot ≠ none) :
    (scanOf c).chosen = none ↔
      ∀ slot record, records c slot = some record → record.messageId = 0 := by
  have oldest := scanOf_oldest c
  have none_ := (scanOf_emptySlot_none c).mpr full
  have same : (scanOf c).chosen = (scanOf c).oldestFinalizedSlot := by
    simp [ClaimScan.chosen, none_]
  rw [same]
  constructor
  · intro nothing slot record held
    by_contra named
    have top : (0xFFFFFFFF : UInt32).toNat = 2 ^ 32 - 1 := rfl
    refine leastSeen_none UInt32.toNat (fun a b => UInt32.lt_iff_toNat_lt) oldest nothing slot
      (mem_allSlots slot) record held (by simpa using named) ?_
    rw [UInt32.lt_iff_toNat_lt, top]
    have := before.bounded slot record held
    omega
  · intro pending
    cases found : (scanOf c).oldestFinalizedSlot with
    | none => rfl
    | some slot =>
        obtain ⟨-, record, held, finalized, -⟩ := oldest.found slot found
        exact absurd (pending slot record held) (by simpa using finalized)

/-- The eviction order, over every sequence of calls whose flash calls all succeed. -/
theorem ledger_eviction_order (sha256 : List UInt8 → Digest) (contents : Contents)
    (blank : ∀ slot, records contents slot = none) (readable : Readable contents)
    (trace : List Op) (s : Flash) (runs : Runs (OpStep sha256) ⟨contents, []⟩ trace s)
    (few : trace.countP Op.isClaim < 2 ^ 32 - 1) :
    Distinct s.current ∧
    (∀ slot other record held, records s.current slot = some record →
      records s.current other = some held → (record.sequence = held.sequence → slot = other) ∧
        ∃ n m, claimTime sha256 trace record.keyHash = some n ∧
          claimTime sha256 trace held.keyHash = some m ∧
          (record.sequence < held.sequence ↔ n < m)) ∧
    ∀ op t, OpStep sha256 s op t → (trace ++ [op]).countP Op.isClaim < 2 ^ 32 - 1 →
      (∀ slot record, records s.current slot = some record → record.messageId = 0 →
        PendingFate sha256 record (records t.current slot) op) ∧
      ∀ key requestHash reply, op = .claim key requestHash reply →
        ¬ HoldsKey (sha256 key.bytes) s.current → (∀ slot, records s.current slot ≠ none) →
          ((∀ slot record, records s.current slot = some record → record.messageId = 0) →
            reply = .error .noMem ∧ t = s) ∧
          ((∃ slot record, records s.current slot = some record ∧ record.messageId ≠ 0) →
            reply = .ok (.miss, 0) ∧ ∃ slot, Victim sha256 trace s.current slot ∧
              records t.current = Function.update (records s.current) slot
                (some (reservation (scanOf s.current) (sha256 key.bytes) requestHash))) := by
  have ordered := ordered_of_runs blank readable runs few
  refine ⟨ordered.distinct, ?_, ?_⟩
  · intro slot other record held stored otherStored
    obtain ⟨n, time⟩ := ordered.claimed slot record stored
    obtain ⟨m, otherTime⟩ := ordered.claimed other held otherStored
    have forward := ordered.ordered slot other record held n m stored otherStored time otherTime
    have backward := ordered.ordered other slot held record m n otherStored stored otherTime time
    refine ⟨?_, n, m, time, otherTime, ?_⟩
    · intro same
      rw [same] at forward backward
      obtain rfl : n = m := by omega
      exact ordered.distinct slot other record held stored otherStored
        (claimTime_injective time otherTime)
    · rw [UInt32.lt_iff_toNat_lt]
      exact forward
  · intro op t step fewer
    refine ⟨fun slot record held pending => step.pendingFate held pending, ?_⟩
    rintro key requestHash reply rfl absent full
    have claimed := (claim_ends sha256 key requestHash).yields step
    have chosenIff := chosen_none_iff ordered few full
    cases claimed with
    | refused e fault =>
        rcases fault with fault | unreadable
        · exact fault.elim
        · exact absurd ordered.readable unreadable
    | found held same => exact absurd ⟨_, _, held, same⟩ absent
    | unsettled e fault absent chosen => exact fault.elim
    | full absent occupied =>
        refine ⟨fun _ => ⟨rfl, rfl⟩, ?_⟩
        rintro ⟨slot, record, held, named⟩
        exact absurd (chosenIff.mp occupied slot record held) named
    | @reserved slot absent chosen =>
        refine ⟨?_, ?_⟩
        · intro pending
          rw [chosenIff.mpr pending] at chosen
          cases chosen
        · intro _
          refine ⟨rfl, slot, chosen_victim ordered few full chosen, ?_⟩
          exact records_put _ _ (reservation_current _ _ _)

/-! A full ledger. -/

/-- The SHA-256 of `message-00`, `message-01` and so on. -/
def keyHashes : List Nat := [
  0xda6567b006c44ac235f7033468fd718d4032310219806b17a013ac01408272cf,
  0x1a29c7a29071f4e39d8a6984f23c283feb54c0bcc5595857f59e7054caf26e41,
  0xf5b6383edc32cc83bb0473a1614ec4f9658da0368d5fece2b474d724899b4286,
  0x686cc402fd43c88d719990687c641d134a65be8fed993d01d95bf52f13506d4a,
  0x393ffdeb8af6e9230d393006773a649ee5f355517ae3e7f88af034d195c7aeea,
  0x642a23b90a100ea84f48e3359452379c973b6fa609d2be920b7c7c45d312a66d,
  0xf1ec3b59b3acc94dabe81ac878d562373b47813df68a7b97bff6780627ec46f6,
  0xc6b2091149e8758fd27b343d7497a4aa2bb07a4f36505014fab1681f3ee0e667,
  0xab735f23be4ebb70547c34181a3978d0800a6ab0f0ae04cb9113526fe86918b6,
  0xb22e03368b676960b02cea84dd11bd18b2af3da3365d0035e5674777a9daa1bc,
  0x275f4b2d63f3cf2984e4ef16be96af001d7a8a4c418133edcb94dae3cf3121bf,
  0x343d8e60a14896ff34e2f69ba61b626c3e680c47c11986887c42729c450fa063,
  0x2df6b014c8d2aeebca51919f5b909d688e59c55cecb0ed217033e1cb9820d118,
  0x5ca17f2e698c581646f3e269a4d2c043c7c04915380b0667b6a8a40b8abb993f,
  0x95b33931947bfa203058127fd02f90b2af2d71db91285c571f6b96d9fb48d4da,
  0x38d9eeeb2f25aec81754ff833a602015558b4ff336d0d0720d0cfe5837f6e430,
  0xf5aceddaebf65efa9c863c4b61748dbe932655d25f0c948367584a5de469f76a,
  0xa1b55a7c4caff15073abf43419bb674f3d84eee1d622fbf41e94e890f82a8aad,
  0xbb86d394c3df9f417e5e6b6d07afa58843109c108662089b8a9dad45fa45319f,
  0x1b7dd5b985aadd46aad529789c1cc95b18a54565a65390b00671222b9f217564,
  0x22bfd6a5c789c052db276d40920a72d3f999812329ca2016a35a42fdd6f6d0f0,
  0x14a3d18e371b73654a8477089eb970e080f3566f985a218378d45f7ac48a6b6e,
  0x8a1a246c55d11ca45d5d9d3d01d8af03c78319c68b19a1ced1eb37f9091dfe2a,
  0xa959c3f1ac3de447ae010b5fa305defcf98f6551e4435acf244f62640c79ae8d,
  0x1df5ff2070b41c3fb4df7677ceea0e153dd22818782a8e3b7a1478a5172b2a4d,
  0xa491cb57639581f27e5d96306082905101be7f046282a1d5e8aab6a50badf585,
  0xcfe0d5bf528da4a03568504b893ab7b2ee54e7f0804c03b0ba5f03df1514984f,
  0xba2f3d93f6fc4ea5f69ed8f081de5e61740c4a83cf0a0e731f6e27ded34667a8,
  0x42945f2506ba3411c4d4b24056629332d065e78ea387e055cc258b348311f180,
  0x3c29cd473c1ea3b4d96c5db9d65fa8d30a33f7db037698d70ef4eceeb772e7df,
  0x215e2b15ebef3d699a86871b30135a18bb462d2855598f7340178ac111d7fb33,
  0x33033106942e7b9044c884491b2d7857c5cac0d4ec6067559de471f7fafd247b,
  0x7ba9ce856c867ad807c413d0d52623a3a26771a5e52d48ee2918670fb1286ede]

def digestOf (hash : Nat) : Digest := Vector.ofFn fun i => UInt8.ofNat (hash >>> (8 * (31 - i.val)))

def keyOf (number : Nat) : CStr :=
  .ofBytes ((CStr.text "message-").bytes ++
    [UInt8.ofNat (0x30 + number / 10), UInt8.ofNat (0x30 + number % 10)])

/-- SHA-256 on these keys. -/
def keySha256 (input : List UInt8) : Digest :=
  let number := (input.getD 8 0x30).toNat * 10 + (input.getD 9 0x30).toNat - 0x30 * 11
  digestOf (keyHashes.getD number 0)

/-- The flash after this many keys were claimed. -/
def claimed : Nat → Flash
  | 0 => ⟨fun _ => none, []⟩
  | number + 1 => (gatewayIdempotencyClaim keySha256 (keyOf number) retryFingerprint
      (.faultless, claimed number)).2.2

def claims (number : Nat) : List Op :=
  (List.range number).map fun key => .claim (keyOf key) retryFingerprint (.ok (.miss, 0))

/-- All slots are claimed, and the message of `message-05` is stored, then that of
`message-03`. -/
def fiveStored : Flash :=
  (gatewayIdempotencyFinalize keySha256 (keyOf 5) retryFingerprint 41 (.faultless, claimed 32)).2.2

def threeStored : Flash :=
  (gatewayIdempotencyFinalize keySha256 (keyOf 3) retryFingerprint 42 (.faultless, fiveStored)).2.2

/-- What the calls return and leave, evaluated. -/
theorem full_ledger :
    (∀ number < 32, (gatewayIdempotencyClaim keySha256 (keyOf number) retryFingerprint
      (.faultless, claimed number)).1 = .ok (.miss, 0)) ∧
    (gatewayIdempotencyFinalize keySha256 (keyOf 5) retryFingerprint 41
      (.faultless, claimed 32)).1 = .ok () ∧
    (gatewayIdempotencyFinalize keySha256 (keyOf 3) retryFingerprint 42
      (.faultless, fiveStored)).1 = .ok () ∧
    (∀ slot, (records threeStored.current slot).any fun record =>
      record.keyHash ≠ keySha256 (keyOf 32).bytes) ∧
    (records threeStored.current ⟨3, by decide⟩).any (fun record => record.messageId ≠ 0) ∧
    (gatewayIdempotencyClaim keySha256 (keyOf 32) retryFingerprint
      (.faultless, threeStored)).1 = .ok (.miss, 0) := by
  decide +kernel

theorem runs_claimed {number : Nat} (all : number ≤ 32) :
    Runs (OpStep keySha256) ⟨fun _ => none, []⟩ (claims number) (claimed number) := by
  induction number with
  | zero => exact .start
  | succ number ih =>
      rw [claims, List.range_succ, List.map_append]
      exact .step (ih (by omega)) ⟨.faultless, .inr rfl, full_ledger.1 number all, rfl⟩

/-- The calls up to the full ledger. -/
def fillings : List Op :=
  claims 32 ++ [.finalize (keyOf 5) retryFingerprint 41 (.ok ())] ++
    [.finalize (keyOf 3) retryFingerprint 42 (.ok ())]

theorem runs_fillings : Runs (OpStep keySha256) ⟨fun _ => none, []⟩ fillings threeStored := by
  obtain ⟨-, five, three, -⟩ := full_ledger
  have first : OpStep keySha256 (claimed 32) (.finalize (keyOf 5) retryFingerprint 41 (.ok ()))
      fiveStored := ⟨.faultless, .inr rfl, five, rfl⟩
  have second : OpStep keySha256 fiveStored (.finalize (keyOf 3) retryFingerprint 42 (.ok ()))
      threeStored := ⟨.faultless, .inr rfl, three, rfl⟩
  exact .step (.step (runs_claimed le_rfl) first) second

/-- One more key takes the slot of the stored message whose key was claimed first. -/
theorem ledger_eviction_order_full : ∃ slot, Victim keySha256 fillings threeStored.current slot ∧
    records (gatewayIdempotencyClaim keySha256 (keyOf 32) retryFingerprint
        (.faultless, threeStored)).2.2.current =
      Function.update (records threeStored.current) slot
        (some (reservation (scanOf threeStored.current) (keySha256 (keyOf 32).bytes)
          retryFingerprint)) := by
  obtain ⟨-, -, -, others, stored, missed⟩ := full_ledger
  obtain ⟨-, -, steps⟩ := ledger_eviction_order keySha256 (fun _ => none) (fun _ => rfl) nofun
    fillings threeStored runs_fillings (by decide)
  have claim : OpStep keySha256 threeStored (.claim (keyOf 32) retryFingerprint (.ok (.miss, 0)))
      (gatewayIdempotencyClaim keySha256 (keyOf 32) retryFingerprint
        (.faultless, threeStored)).2.2 := ⟨.faultless, .inr rfl, missed, rfl⟩
  have absent : ¬HoldsKey (keySha256 (keyOf 32).bytes) threeStored.current := by
    rintro ⟨slot, record, held, same⟩
    have other := others slot
    rw [held] at other
    exact of_decide_eq_true other same
  have full (slot : Slot) : records threeStored.current slot ≠ none := by
    intro empty
    have other := others slot
    rw [empty] at other
    cases other
  obtain ⟨record, held, named⟩ := (Option.any_eq_true _ _).mp stored
  obtain ⟨-, evicts⟩ := (steps _ _ claim (by decide)).2 _ _ _ rfl absent full
  exact (evicts ⟨_, record, held, of_decide_eq_true named⟩).2

end SmsGateway.Ledger
