import SmsGateway.Store.Numbering

/-! Failed saves of new records. -/

namespace SmsGateway

open Lib

namespace Store

/-- Journals reached from an empty flash by any store calls. -/
inductive Reachable : Store → Prop where
  | empty : Reachable Store.empty
  | save {s : Store} (before : Reachable s) (message : SmsMessage) (plan : Plan NvsCall) :
      Reachable (smsStoreSave message (plan, s)).2.2
  | delete {s : Store} (before : Reachable s) (id : UInt32) (plan : Plan NvsCall) :
      Reachable (smsStoreDelete id (plan, s)).2.2
  | watermark {s : Store} (before : Reachable s) (protection : Bool) (value : UInt32) :
      Reachable (smsStoreSetReplayWatermark protection value s)

theorem SaveEnd.sound {s t : Store} {message : SmsMessage}
    {result : Except EspErr Unit × SmsMessage} (before : s.Sound)
    (ending : s.SaveEnd message result t) : t.Sound := by
  cases ending with
  | invalid rejected => exact before
  | new storable unnamed ending =>
      cases ending with
      | refused same policy counter returned => exact before.congr same
      | lost full oldest erased policy counter returned => exact (before.wipe _).congr erased
      | written room stored policy counter returned =>
          have kept : (message.withId s.freshId).storable = true := storable
          exact (before.put _ kept s.freshId_ne_zero).congr stored
  | existing storable named ending =>
      cases ending with
      | refused e => exact before
      | written place returned => exact before.put _ storable named

theorem DeleteEnd.sound {s t : Store} {id : UInt32} {result : Except EspErr Unit}
    (before : s.Sound) (ending : s.DeleteEnd id result t) : t.Sound := by
  cases ending with
  | refused e => exact before
  | erased found returned => exact before.wipe _

/-- No store call, refused or not, leaves a record that the next scan rejects. -/
theorem Reachable.sound {s : Store} (reachable : s.Reachable) : s.Sound := by
  induction reachable with
  | empty => exact sound_empty
  | save before message plan ih => exact (smsStoreSave_end plan ih message).sound ih
  | delete before id plan ih => exact (smsStoreDelete_end plan ih id).sound ih
  | watermark before protection value ih => exact ih.congr rfl

/-- `sms_store_get` and `sms_store_list` show the same records. -/
def SameRecords (s t : Store) : Prop :=
  (∀ id, (smsStoreGet id (Plan.faultless, t)).1 = (smsStoreGet id (Plan.faultless, s)).1) ∧
    ∀ afterId maxRecords, (smsStoreList afterId maxRecords (Plan.faultless, t)).1 =
      (smsStoreList afterId maxRecords (Plan.faultless, s)).1

/-- The save of a new record reports an error only after it left the record
without an id and the journal as it was. -/
def FailsAtomically (s : Store) (message : SmsMessage) (plan : Plan NvsCall) : Prop :=
  ∀ e back, (smsStoreSave message (plan, s)).1 = (.error e, back) →
    back.id = 0 ∧ SameRecords s (smsStoreSave message (plan, s)).2.2

/-- The saves of a new record that stay atomic: malformed records, a failed
read of the slot search, a full journal with nothing to prune or whose erase
fails, a failed `nvs_get_u32` or `nvs_set_blob` with a free slot, no failed call,
and the pruning of a record that equals the new one. -/
inductive KeepsOnFailure (s : Store) (message : SmsMessage) (plan : Plan NvsCall) : Prop where
  | malformed (rejected : message.storable = false)
  | unread (fault : ∃ n < s.searchReads, plan .getBlob n ≠ none)
  | unnumbered (free : s.freeSlot ≠ none) (fault : plan .getU32 0 ≠ none)
  | unwritten (free : s.freeSlot ≠ none) (counted : plan .setU32 0 = none)
      (fault : plan .setBlob 0 ≠ none)
  | unscanned (full : s.freeSlot = none)
      (fault : ∃ n < smsStoreMaxRecords, plan .getBlob (n + smsStoreMaxRecords) ≠ none)
  | noRoom (full : s.freeSlot = none) (nothing : s.oldestPrunable = none)
  | unpruned (full : s.freeSlot = none) (fault : plan .eraseKey 0 ≠ none)
  | completed (numbered : plan .getU32 0 = none) (counted : plan .setU32 0 = none)
      (written : plan .setBlob 0 = none) (committed : plan .commit 0 = none)
      (again : s.freeSlot = none → plan .commit 1 = none)
  | rewritten {slot : Slot} (full : s.freeSlot = none) (oldest : s.oldestPrunable = some slot)
      (same : s.view slot = some (message.withId s.freshId)) (committed : plan .commit 0 = none)
      (numbered : plan .getU32 0 = none) (counted : plan .setU32 0 = none)
      (written : plan .setBlob 0 = none)

section

variable {s t : Store} (sound : s.Sound)
include sound

theorem sameRecords_of_view (after : t.Sound) (same : t.view = s.view) : SameRecords s t := by
  refine ⟨fun id => ?_, fun afterId maxRecords => ?_⟩
  · by_cases named : id = 0
    · subst named
      rfl
    · rw [(smsStoreGet_reads sound id named).faultless,
        (smsStoreGet_reads after id named).faultless]
      simp only [slotOf, same]
  · by_cases positive : maxRecords = 0
    · subst positive
      rfl
    · rw [(smsStoreList_reads sound afterId maxRecords positive).faultless,
        (smsStoreList_reads after afterId maxRecords positive).faultless, same]

theorem SameRecords.records_perm (same : SameRecords s t) (after : t.Sound) :
    t.records.Perm s.records := by
  obtain ⟨listed, run, perm⟩ := smsStoreList_all sound
  obtain ⟨listed', run', perm'⟩ := smsStoreList_all after
  have equal := same.2 0 smsStoreMaxRecords
  rw [run, run'] at equal
  cases equal
  exact perm'.symm.trans perm

theorem not_sameRecords_wipe {slot : Slot} {message : SmsMessage}
    (stored : s.view slot = some message) (blobs : t.blob = (s.wipe slot).blob) :
    ¬ SameRecords s t := by
  intro same
  have perm := same.records_perm sound ((sound.wipe slot).congr blobs)
  have length := (perm.trans (records_of_occupied stored)).length_eq
  rw [records, view_congr blobs, ← records] at length
  simp at length

theorem not_sameRecords_put {slot : Slot} {message : SmsMessage} (storable : message.storable = true)
    (named : message.id ≠ 0) (different : s.view slot ≠ some message)
    (blobs : t.blob = (s.put slot message).blob) : ¬ SameRecords s t := by
  intro same
  have perm := same.records_perm sound ((sound.put slot storable named).congr blobs)
  rw [records, view_congr blobs, ← records] at perm
  have added := (records_put slot storable named).symm.trans perm
  cases stored : s.view slot with
  | none =>
      have length := added.length_eq
      rw [records_wipe_free stored] at length
      simp at length
  | some previous =>
      have moved := added.trans (records_of_occupied stored)
      have member := moved.subset List.mem_cons_self
      rw [List.perm_iff_count] at moved
      apply different
      rw [stored]
      by_contra apart
      have counts := moved message
      have fresh : (previous == message) = false := by
        rw [beq_eq_false_iff_ne]
        intro equal
        exact apart (by rw [equal])
      simp [List.count_cons, fresh] at counts

end

/-- The save once a slot is claimed: the result, the caller's record and the
blobs of the journal. -/
theorem saveNew_claimed {s u : Store} {plan rest : Plan NvsCall} {slot : Slot}
    (claim : claimSlot (plan, s) = (.ok slot, (rest, u))) (message : SmsMessage) :
    ((saveNew message (plan, s)).1, (saveNew message (plan, s)).2.2.blob) =
      match rest .getU32 0, rest .setU32 0, rest .setBlob 0, rest .commit 0 with
      | some code, _, _, _ => ((.error (.nvs code), message), u.blob)
      | none, some code, _, _ => ((.error (.nvs code), message.withId u.freshId), u.blob)
      | none, none, some code, _ => ((.error (.nvs code), message.withId 0), u.blob)
      | none, none, none, some code =>
          ((.error (.nvs code), message.withId 0), (u.put slot (message.withId u.freshId)).blob)
      | none, none, none, none =>
          ((.ok (), message.withId u.freshId), (u.put slot (message.withId u.freshId)).blob) := by
  simp only [saveNew, bind, StateT.bind, claim, allocateId_run]
  cases read : rest .getU32 0 with
  | some code => rfl
  | none =>
      cases count : rest .setU32 0 with
      | some code => rfl
      | none =>
          simp only [bind, StateT.bind, writeSlot_run, ne_eq, reduceCtorEq, not_false_eq_true,
            Plan.skip_other]
          cases write : rest .setBlob 0 with
          | some code => rfl
          | none => cases last : rest .commit 0 <;> rfl

theorem saveNew_unclaimed {s u : Store} {plan rest : Plan NvsCall} {e : EspErr}
    (claim : claimSlot (plan, s) = (.error e, (rest, u))) (message : SmsMessage) :
    ((saveNew message (plan, s)).1, (saveNew message (plan, s)).2.2.blob) =
      ((.error e, message), u.blob) := by
  simp only [saveNew, bind, StateT.bind, claim]
  by_cases full : e = .noMem
  · subst full
    rfl
  · simp [full, pure_apply]

section

variable {s : Store} {message back : SmsMessage} {plan : Plan NvsCall} {blobs : Slot → Option Blob}
  (storable : message.storable = true) (unnamed : message.id = 0)
include storable unnamed

theorem failsAtomically_of_ok
    (run : ((saveNew message (plan, s)).1, (saveNew message (plan, s)).2.2.blob) =
      ((.ok (), back), blobs)) : s.FailsAtomically message plan := by
  obtain ⟨value, -⟩ := Prod.mk.inj run
  intro e returned failed
  simp only [smsStoreSave, storable, unnamed, ↓reduceIte, value, Prod.mk.injEq] at failed
  cases failed.1

theorem failsAtomically_iff_error {e : EspErr}
    (run : ((saveNew message (plan, s)).1, (saveNew message (plan, s)).2.2.blob) =
      ((.error e, back), blobs)) :
    s.FailsAtomically message plan ↔
      back.id = 0 ∧ SameRecords s (saveNew message (plan, s)).2.2 := by
  obtain ⟨value, -⟩ := Prod.mk.inj run
  simp only [FailsAtomically, smsStoreSave, storable, unnamed, ↓reduceIte, value]
  constructor
  · intro atomic
    exact atomic e back rfl
  · rintro kept _ _ failed
    cases failed
    exact kept

end

section

variable {s : Store} (sound : s.Sound) {message : SmsMessage} {plan : Plan NvsCall}
  (storable : message.storable = true) (unnamed : message.id = 0)
include sound storable unnamed

/-- A failure that left the blobs alone is atomic when the id is zero again. -/
theorem failsAtomically_of_blob {e : EspErr} {back : SmsMessage} {blobs : Slot → Option Blob}
    (run : ((saveNew message (plan, s)).1, (saveNew message (plan, s)).2.2.blob) =
      ((.error e, back), blobs)) (same : blobs = s.blob) (zero : back.id = 0) :
    s.FailsAtomically message plan := by
  rw [failsAtomically_iff_error storable unnamed run]
  have same : (saveNew message (plan, s)).2.2.blob = s.blob := (Prod.mk.inj run).2.trans same
  exact ⟨zero, sameRecords_of_view sound (sound.congr same) (view_congr same)⟩

theorem atomic_iff_free {slot : Slot} (clear : ∀ n < s.searchReads, plan .getBlob n = none)
    (found : s.freeSlot = some slot)
    (claim : claimSlot (plan, s) = (.ok slot, plan.skip .getBlob s.searchReads, s)) :
    s.FailsAtomically message plan ↔ s.KeepsOnFailure message plan := by
  have run := saveNew_claimed claim message
  simp only [ne_eq, reduceCtorEq, not_false_eq_true, Plan.skip_other] at run
  have free : s.freeSlot ≠ none := by simp [found]
  cases read : plan .getU32 0 with
  | some code =>
      simp only [read] at run
      exact iff_of_true (failsAtomically_of_blob sound storable unnamed run rfl unnamed)
        (.unnumbered free (by simp [read]))
  | none =>
      cases count : plan .setU32 0 with
      | some code =>
          simp only [read, count] at run
          rw [failsAtomically_iff_error storable unnamed run]
          refine iff_of_false (fun kept => s.freshId_ne_zero kept.1) ?_
          intro keeps
          cases keeps <;> grind
      | none =>
          cases write : plan .setBlob 0 with
          | some code =>
              simp only [read, count, write] at run
              exact iff_of_true (failsAtomically_of_blob sound storable unnamed run rfl rfl)
                (.unwritten free count (by simp [write]))
          | none =>
              cases last : plan .commit 0 with
              | some code =>
                  simp only [read, count, write, last] at run
                  rw [failsAtomically_iff_error storable unnamed run]
                  refine iff_of_false ?_ ?_
                  · rintro ⟨-, same⟩
                    have kept : (message.withId s.freshId).storable = true := storable
                    exact not_sameRecords_put sound kept s.freshId_ne_zero
                      (by simp [freeSlot_some found]) (Prod.mk.inj run).2 same
                  · intro keeps
                    cases keeps <;> grind
              | none =>
                  simp only [read, count, write, last] at run
                  exact iff_of_true (failsAtomically_of_ok storable unnamed run)
                    (.completed read count write last (absurd · free))

theorem atomic_iff_pruned {slot : Slot} {rest : Plan NvsCall}
    (clear : ∀ n < s.searchReads, plan .getBlob n = none)
    (scanned : ∀ n < smsStoreMaxRecords, plan .getBlob (n + smsStoreMaxRecords) = none)
    (full : s.freeSlot = none) (oldest : s.oldestPrunable = some slot)
    (erased : plan .eraseKey 0 = none) (committed : plan .commit 0 = none)
    (others : rest .getU32 = plan .getU32 ∧ rest .setU32 = plan .setU32 ∧
      rest .setBlob = plan .setBlob ∧ rest .commit 0 = plan .commit 1)
    (claim : claimSlot (plan, s) = (.ok slot, rest, (s.wipe slot).countPruned)) :
    s.FailsAtomically message plan ↔ s.KeepsOnFailure message plan := by
  have run := saveNew_claimed claim message
  obtain ⟨getU32, setU32, setBlob, commit⟩ := others
  simp only [getU32, setU32, setBlob, commit] at run
  obtain ⟨previous, stored, -⟩ := leastSlot_some oldest
  -- Up to the write of the new record, the pruned one is missing.
  have gone {e : EspErr} {back : SmsMessage}
      (ended : ((saveNew message (plan, s)).1, (saveNew message (plan, s)).2.2.blob) =
        ((.error e, back), (s.wipe slot).blob)) : ¬ s.FailsAtomically message plan := by
    rw [failsAtomically_iff_error storable unnamed ended]
    rintro ⟨-, same⟩
    exact not_sameRecords_wipe sound stored (Prod.mk.inj ended).2 same
  cases read : plan .getU32 0 with
  | some code =>
      simp only [read] at run
      refine iff_of_false (gone run) ?_
      intro keeps
      cases keeps <;> grind
  | none =>
      cases count : plan .setU32 0 with
      | some code =>
          simp only [read, count] at run
          refine iff_of_false (gone run) ?_
          intro keeps
          cases keeps <;> grind
      | none =>
          cases write : plan .setBlob 0 with
          | some code =>
              simp only [read, count, write] at run
              refine iff_of_false (gone run) ?_
              intro keeps
              cases keeps <;> grind
          | none =>
              cases last : plan .commit 1 with
              | none =>
                  simp only [read, count, write, last] at run
                  exact iff_of_true (failsAtomically_of_ok storable unnamed run)
                    (.completed read count write committed (fun _ => last))
              | some code =>
                  simp only [read, count, write, last] at run
                  have target : ((s.wipe slot).countPruned.put slot
                      (message.withId s.freshId)).blob =
                      (s.put slot (message.withId s.freshId)).blob := by
                    simp [Store.put, countPruned, Store.wipe]
                  have run := run.trans (congrArg (Prod.mk _) target)
                  have kept : (message.withId s.freshId).storable = true := storable
                  rw [failsAtomically_iff_error storable unnamed run]
                  by_cases same : s.view slot = some (message.withId s.freshId)
                  · refine iff_of_true ⟨rfl, ?_⟩
                      (.rewritten full oldest same committed read count write)
                    have blobs := (Prod.mk.inj run).2
                    have after : (saveNew message (plan, s)).2.2.view = s.view := by
                      rw [view_congr blobs, view_put s slot kept s.freshId_ne_zero, ← same,
                        Function.update_eq_self]
                    exact sameRecords_of_view sound
                      ((sound.put slot kept s.freshId_ne_zero).congr blobs) after
                  · refine iff_of_false ?_ ?_
                    · rintro ⟨-, shown⟩
                      exact not_sameRecords_put sound kept s.freshId_ne_zero same
                        (Prod.mk.inj run).2 shown
                    · intro keeps
                      cases keeps <;> grind

end

/-- A failed save of a new record keeps the record's zero id and the visible
records exactly in the cases of `KeepsOnFailure`. -/
theorem failed_save_atomic_iff {s : Store} (reachable : s.Reachable) (message : SmsMessage)
    (unnamed : message.id = 0) (plan : Plan NvsCall) :
    s.FailsAtomically message plan ↔ s.KeepsOnFailure message plan := by
  have sound := reachable.sound
  by_cases storable : message.storable = true
  swap
  · have rejected : message.storable = false := by simpa using storable
    refine iff_of_true ?_ (.malformed rejected)
    intro e back failed
    simp only [smsStoreSave, storable, Bool.false_eq_true, ↓reduceIte] at failed ⊢
    cases failed
    exact ⟨unnamed, sameRecords_of_view sound sound rfl⟩
  have kept {e : EspErr} {rest : Plan NvsCall} (claim : claimSlot (plan, s) = (.error e, rest, s)) :
      s.FailsAtomically message plan :=
    failsAtomically_of_blob sound storable unnamed (saveNew_unclaimed claim message) rfl unnamed
  have path := claimSlot_path plan sound
  generalize claim : claimSlot (plan, s) = claimed at path
  cases path with
  | unread fault => exact iff_of_true (kept claim) (.unread fault)
  | unscanned clear full fault =>
      exact iff_of_true (kept claim) (.unscanned full fault)
  | noRoom full nothing =>
      exact iff_of_true (kept claim) (.noRoom full nothing)
  | unpruned full oldest fault =>
      exact iff_of_true (kept claim)
        (.unpruned full (by simp [fault]))
  | lost clear scanned full oldest erased fault =>
      obtain ⟨previous, stored, -⟩ := leastSlot_some oldest
      have run := saveNew_unclaimed claim message
      rw [failsAtomically_iff_error storable unnamed run]
      refine iff_of_false ?_ ?_
      · rintro ⟨-, same⟩
        exact not_sameRecords_wipe sound stored (Prod.mk.inj run).2 same
      · intro keeps
        cases keeps <;> grind
  | free clear found => exact atomic_iff_free sound storable unnamed clear found claim
  | pruned clear scanned full oldest erased committed others =>
      exact atomic_iff_pruned sound storable unnamed clear scanned full oldest erased committed
        others claim

/-- The plan that refuses the first call of one kind. -/
def refuseFirst (call : NvsCall) : Plan NvsCall :=
  fun kind n => if kind = call ∧ n = 0 then some 1 else none

/-- The journal of a gateway that has stored one record. -/
def oneRecord : Store := (smsStoreSave .zero (Plan.faultless, .empty)).2.2

/-- The flash refuses the second record: the first is still there, and the caller's has no id. -/
theorem failed_save_atomic_iff_refused :
    oneRecord.Reachable ∧
      (smsStoreSave .zero (refuseFirst .setBlob, oneRecord)).1 = (.error (.nvs 1), .zero) ∧
      oneRecord.FailsAtomically .zero (refuseFirst .setBlob) := by
  have reachable : oneRecord.Reachable := .save .empty .zero Plan.faultless
  have free : oneRecord.freeSlot ≠ none := by decide +kernel
  have keeps : oneRecord.KeepsOnFailure .zero (refuseFirst .setBlob) :=
    .unwritten free (by decide) (by decide)
  refine ⟨reachable, by decide +kernel, ?_⟩
  exact (failed_save_atomic_iff reachable .zero rfl (refuseFirst .setBlob)).mpr keeps

/-- The first save of a new gateway is not atomic when the id counter cannot be
written (the caller's record keeps the id) or the write of the record cannot be
committed (the record is visible although the save failed). -/
theorem failed_save_not_atomic :
    Store.empty.Reachable ∧ SmsMessage.zero.id = 0 ∧
      ¬ Store.empty.FailsAtomically .zero (refuseFirst .setU32) ∧
      ¬ Store.empty.FailsAtomically .zero (refuseFirst .commit) := by
  refine ⟨.empty, rfl, ?_, ?_⟩
  · intro atomic
    have kept := atomic (.nvs 1) (SmsMessage.zero.withId 1) rfl
    have named : (SmsMessage.zero.withId 1).id ≠ 0 := by decide
    exact named kept.1
  · intro atomic
    have kept := atomic (.nvs 1) .zero rfl
    have shown : (smsStoreGet 1 (Plan.faultless,
        (smsStoreSave .zero (refuseFirst .commit, Store.empty)).2.2)).1.toOption.isSome = true := by
      decide +kernel
    rw [kept.2.1 1] at shown
    have missing : (smsStoreGet 1 (Plan.faultless, Store.empty)).1.toOption.isSome = false := by
      decide +kernel
    rw [missing] at shown
    cases shown

end Store

end SmsGateway
