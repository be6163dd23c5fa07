import SmsGateway.Store.Queries

/-! What each writing store call can do to the journal, whatever the flash refuses. -/

namespace SmsGateway

open Lib

section

variable (plan : Plan NvsCall) (s : Store)

theorem nvsCommit_run : nvsCommit (plan, s) =
    (match plan .commit 0 with
      | some code => .error (.nvs code)
      | none => .ok (),
     (plan.skip .commit 1, s)) := by
  cases fault : plan .commit 0 <;> simp [nvsCommit, attempt, fault]

theorem writeSlot_run (slot : Slot) (message : SmsMessage) : writeSlot slot message (plan, s) =
    match plan .setBlob 0, plan .commit 0 with
    | some code, _ => (.error (.nvs code), (plan.skip .setBlob 1, s))
    | none, some code =>
        (.error (.nvs code), ((plan.skip .setBlob 1).skip .commit 1, s.put slot message))
    | none, none => (.ok (), ((plan.skip .setBlob 1).skip .commit 1, s.put slot message)) := by
  cases fault : plan .setBlob 0 with
  | some code =>
      simp [writeSlot, nvsSetBlob, bind, StateT.bind, attempt_refused _ _ _ _ _ fault, pure_apply]
  | none =>
      cases last : plan .commit 0 <;>
        simp [writeSlot, nvsSetBlob, bind, StateT.bind, attempt_accepted _ _ _ _ _ fault,
          nvsCommit_run, last, Store.put, Store.blobOf]

theorem eraseSlot_run (slot : Slot) (occupied : s.blob slot ≠ none) : eraseSlot slot (plan, s) =
    match plan .eraseKey 0, plan .commit 0 with
    | some code, _ => (.error (.nvs code), (plan.skip .eraseKey 1, s))
    | none, some code =>
        (.error (.nvs code), ((plan.skip .eraseKey 1).skip .commit 1, s.wipe slot))
    | none, none => (.ok (), ((plan.skip .eraseKey 1).skip .commit 1, s.wipe slot)) := by
  obtain ⟨blob, stored⟩ := Option.ne_none_iff_exists'.mp occupied
  cases fault : plan .eraseKey 0 with
  | some code =>
      simp [eraseSlot, nvsEraseKey, bind, StateT.bind, attempt_refused _ _ _ _ _ fault, pure_apply]
  | none =>
      cases last : plan .commit 0 <;>
        simp [eraseSlot, nvsEraseKey, bind, StateT.bind, attempt_accepted _ _ _ _ _ fault,
          nvsCommit_run, last, stored, Store.wipe]

theorem nvsSetU32_run (value : UInt32) : nvsSetU32 value (plan, s) =
    match plan .setU32 0 with
    | some code => (.error (.nvs code), (plan.skip .setU32 1, s))
    | none => (.ok (), (plan.skip .setU32 1, { s with nextId := some value })) := by
  cases fault : plan .setU32 0 <;> simp [nvsSetU32, attempt, fault]

theorem allocateId_run : allocateId (plan, s) =
    match plan .getU32 0, plan .setU32 0 with
    | some code, _ => ((.error (.nvs code), none), (plan.skip .getU32 1, s))
    | none, some code =>
        ((.error (.nvs code), some s.freshId), ((plan.skip .getU32 1).skip .setU32 1, s))
    | none, none =>
        ((.ok (), some s.freshId), ((plan.skip .getU32 1).skip .setU32 1, s.countId)) := by
  cases fault : plan .getU32 0 with
  | some code =>
      simp [allocateId, nvsGetU32, bind, StateT.bind, attempt_refused _ _ _ _ _ fault, pure_apply]
  | none =>
      cases second : plan .setU32 0 <;> cases stored : s.nextId <;>
        simp [allocateId, nvsGetU32, nvsSetU32_run, bind, StateT.bind,
          attempt_accepted _ _ _ _ _ fault, stored, second, Store.freshId, Store.countId, pure_apply]

end

/-- The slots `find_empty_slot` reads. -/
def Store.searchReads (s : Store) : Nat :=
  readsUsed (fun slot => (s.view slot).isNone) allSlots

section

variable (plan : Plan NvsCall) {s : Store} (sound : s.Sound)
include sound

theorem findEmptySlot_clear (clear : ∀ n < s.searchReads, plan .getBlob n = none) :
    findEmptySlot (plan, s) =
      (Store.orError .noMem s.freeSlot, (plan.skip .getBlob s.searchReads, s)) := by
  have scan := firstSlot_clear EspErr.nvs NvsCall.getBlob Store.record s.view plan s Option.isNone
    .noMem allSlots sound clear
  simp only [findEmptySlot, bind, StateT.bind, loadSlot_eq, scan, Store.freeSlot]
  cases allSlots.find? fun slot => (s.view slot).isNone <;> rfl

theorem findEmptySlot_fault (fault : ∃ n < s.searchReads, plan .getBlob n ≠ none) :
    ∃ code rest, findEmptySlot (plan, s) = (.error (.nvs code), (rest, s)) := by
  obtain ⟨code, reads, scan⟩ := firstSlot_fault EspErr.nvs NvsCall.getBlob Store.record s.view plan
    s Option.isNone .noMem allSlots sound fault
  refine ⟨code, plan.skip .getBlob reads, ?_⟩
  simp only [findEmptySlot, bind, StateT.bind, loadSlot_eq, scan]
  rfl

theorem findPrunableSlot_clear (clear : ∀ n < smsStoreMaxRecords, plan .getBlob n = none) :
    findPrunableSlot (plan, s) =
      (Store.orError .noMem s.oldestPrunable,
        (plan.skip .getBlob smsStoreMaxRecords, s)) := by
  have length : allSlots.length = smsStoreMaxRecords := List.length_finRange
  have scan := foldSlots_clear EspErr.nvs NvsCall.getBlob Store.record s.view plan s
    (visitLeast (recordPrunable s) SmsMessage.id) allSlots (none, uint32Max) sound
    (by rw [length]; exact clear)
  rw [length] at scan
  simp only [findPrunableSlot, findLeast, bind, StateT.bind, loadSlot_eq, scan,
    Store.oldestPrunable, Store.leastSlot]
  generalize allSlots.foldl _ _ = best
  obtain ⟨_ | slot, id⟩ := best <;> rfl

theorem findPrunableSlot_fault (fault : ∃ n < smsStoreMaxRecords, plan .getBlob n ≠ none) :
    ∃ code rest, findPrunableSlot (plan, s) = (.error (.nvs code), (rest, s)) := by
  have length : allSlots.length = smsStoreMaxRecords := List.length_finRange
  obtain ⟨code, reads, scan⟩ := foldSlots_fault EspErr.nvs NvsCall.getBlob Store.record s.view plan
    s (visitLeast (recordPrunable s) SmsMessage.id) allSlots (none, uint32Max) sound
    (by rw [length]; exact fault)
  refine ⟨code, plan.skip .getBlob reads, ?_⟩
  simp only [findPrunableSlot, findLeast, bind, StateT.bind, loadSlot_eq, scan]
  rfl

end

/-- The paths through `claim_slot`: which call the flash refused, if any, and
the slot, the rest of the plan and the journal it leaves. -/
inductive Store.ClaimPath (s : Store) (plan : Plan NvsCall) :
    Except EspErr Slot × Plan NvsCall × Store → Prop where
  | unread {code : Nat} {rest : Plan NvsCall}
      (fault : ∃ n < s.searchReads, plan .getBlob n ≠ none) :
      ClaimPath s plan (.error (.nvs code), rest, s)
  | free {slot : Slot} (clear : ∀ n < s.searchReads, plan .getBlob n = none)
      (found : s.freeSlot = some slot) :
      ClaimPath s plan (.ok slot, plan.skip .getBlob s.searchReads, s)
  | unscanned {code : Nat} {rest : Plan NvsCall}
      (clear : ∀ n < s.searchReads, plan .getBlob n = none) (full : s.freeSlot = none)
      (fault : ∃ n < smsStoreMaxRecords, plan .getBlob (n + smsStoreMaxRecords) ≠ none) :
      ClaimPath s plan (.error (.nvs code), rest, s)
  | noRoom {rest : Plan NvsCall} (full : s.freeSlot = none) (nothing : s.oldestPrunable = none) :
      ClaimPath s plan (.error .noMem, rest, s)
  | unpruned {slot : Slot} {code : Nat} {rest : Plan NvsCall} (full : s.freeSlot = none)
      (oldest : s.oldestPrunable = some slot) (fault : plan .eraseKey 0 = some code) :
      ClaimPath s plan (.error (.nvs code), rest, s)
  | lost {slot : Slot} {code : Nat} {rest : Plan NvsCall}
      (clear : ∀ n < s.searchReads, plan .getBlob n = none)
      (scanned : ∀ n < smsStoreMaxRecords, plan .getBlob (n + smsStoreMaxRecords) = none)
      (full : s.freeSlot = none) (oldest : s.oldestPrunable = some slot)
      (erased : plan .eraseKey 0 = none) (fault : plan .commit 0 = some code) :
      ClaimPath s plan (.error (.nvs code), rest, s.wipe slot)
  | pruned {slot : Slot} {rest : Plan NvsCall}
      (clear : ∀ n < s.searchReads, plan .getBlob n = none)
      (scanned : ∀ n < smsStoreMaxRecords, plan .getBlob (n + smsStoreMaxRecords) = none)
      (full : s.freeSlot = none) (oldest : s.oldestPrunable = some slot)
      (erased : plan .eraseKey 0 = none) (committed : plan .commit 0 = none)
      (others : rest .getU32 = plan .getU32 ∧ rest .setU32 = plan .setU32 ∧
        rest .setBlob = plan .setBlob ∧ rest .commit 0 = plan .commit 1) :
      ClaimPath s plan (.ok slot, rest, (s.wipe slot).countPruned)

theorem claimSlot_path (plan : Plan NvsCall) {s : Store} (sound : s.Sound) :
    s.ClaimPath plan (claimSlot (plan, s)) := by
  by_cases fault : ∃ n < s.searchReads, plan .getBlob n ≠ none
  · obtain ⟨code, rest, run⟩ := findEmptySlot_fault plan sound fault
    simp only [claimSlot, bind, StateT.bind, run]
    exact .unread fault
  have clear : ∀ n < s.searchReads, plan .getBlob n = none := by
    push Not at fault
    exact fault
  have run := findEmptySlot_clear plan sound clear
  cases free : s.freeSlot with
  | some slot =>
      simp only [free, Store.orError] at run
      simp only [claimSlot, bind, StateT.bind, run]
      exact .free clear free
  | none =>
      have all : s.searchReads = smsStoreMaxRecords := by
        rw [Store.searchReads, readsUsed_of_absent _ _ free]
        exact List.length_finRange
      simp only [free, Store.orError, all] at run
      -- The second scan reads every slot once more.
      have later (n : Nat) : (plan.skip .getBlob smsStoreMaxRecords) .getBlob n =
          plan .getBlob (n + smsStoreMaxRecords) := Plan.skip_same ..
      by_cases missed : ∃ n < smsStoreMaxRecords, plan .getBlob (n + smsStoreMaxRecords) ≠ none
      · obtain ⟨code, rest, second⟩ := findPrunableSlot_fault (plan.skip .getBlob smsStoreMaxRecords)
          sound (by simpa only [later] using missed)
        simp only [claimSlot, bind, StateT.bind, run, second]
        exact .unscanned clear free missed
      have scanned : ∀ n < smsStoreMaxRecords, plan .getBlob (n + smsStoreMaxRecords) = none := by
        push Not at missed
        exact missed
      have second := findPrunableSlot_clear (plan.skip .getBlob smsStoreMaxRecords) sound
        (by simpa only [later] using scanned)
      cases oldest : s.oldestPrunable with
      | none =>
          simp only [oldest, Store.orError] at second
          simp only [claimSlot, bind, StateT.bind, run, second]
          exact .noRoom free oldest
      | some slot =>
          obtain ⟨message, stored, -⟩ := Store.leastSlot_some oldest
          simp only [oldest, Store.orError] at second
          simp only [claimSlot, bind, StateT.bind, run, second]
          rw [eraseSlot_run _ _ _ (sound.occupied stored)]
          simp only [ne_eq, reduceCtorEq, not_false_eq_true, Plan.skip_other]
          cases erase : plan .eraseKey 0 with
          | some code => exact .unpruned free oldest erase
          | none =>
              cases last : plan .commit 0 with
              | some code => exact .lost clear scanned free oldest erase last
              | none =>
                  refine .pruned clear scanned free oldest erase last ?_
                  simp

/-- Where a new record goes, and what was pruned to make room for it. -/
inductive Store.Claimed (s : Store) : Slot → Store → Prop where
  | free {slot : Slot} (found : s.freeSlot = some slot) : Claimed s slot s
  | pruned {slot : Slot} (full : s.freeSlot = none) (oldest : s.oldestPrunable = some slot) :
      Claimed s slot (s.wipe slot).countPruned

/-- How `claim_slot` can end: with a slot, refused without effect, refused after
the oldest prunable record was erased, or without room. -/
inductive Store.ClaimEnd (s : Store) : Except EspErr Slot → Store → Prop where
  | claimed {slot : Slot} {t : Store} (room : s.Claimed slot t) : ClaimEnd s (.ok slot) t
  | refused (code : Nat) : ClaimEnd s (.error (.nvs code)) s
  | lost {slot : Slot} (code : Nat) (full : s.freeSlot = none)
      (oldest : s.oldestPrunable = some slot) : ClaimEnd s (.error (.nvs code)) (s.wipe slot)
  | noRoom (full : s.freeSlot = none) (nothing : s.oldestPrunable = none) :
      ClaimEnd s (.error .noMem) s

theorem claimSlot_end (plan : Plan NvsCall) {s : Store} (sound : s.Sound) :
    s.ClaimEnd (claimSlot (plan, s)).1 (claimSlot (plan, s)).2.2 := by
  have path := claimSlot_path plan sound
  generalize claimSlot (plan, s) = claim at path
  cases path with
  | unread fault => exact .refused _
  | free clear found => exact .claimed (.free found)
  | unscanned clear full fault => exact .refused _
  | noRoom full nothing => exact .noRoom full nothing
  | unpruned full oldest fault => exact .refused _
  | lost clear scanned full oldest erased fault => exact .lost _ full oldest
  | pruned clear scanned full oldest erased committed others => exact .claimed (.pruned full oldest)

/-- How a save of a new record can end. A refused write leaves the journal as it
was or short of the pruned record; the id counter may have moved. -/
inductive Store.NewEnd (s : Store) (message : SmsMessage) :
    Except EspErr Unit × SmsMessage → Store → Prop where
  | refused {e : EspErr} {back : SmsMessage} {t : Store} (same : t.blob = s.blob)
      (policy : t.SamePolicy s)
      (counter : t.nextId = s.nextId ∨ t.nextId = some (nextOf s.freshId))
      (returned : ∃ id, back = message.withId id) : NewEnd s message (.error e, back) t
  | lost {e : EspErr} {back : SmsMessage} {slot : Slot} {t : Store} (full : s.freeSlot = none)
      (oldest : s.oldestPrunable = some slot) (erased : t.blob = (s.wipe slot).blob)
      (policy : t.SamePolicy s)
      (counter : t.nextId = s.nextId ∨ t.nextId = some (nextOf s.freshId))
      (returned : ∃ id, back = message.withId id) : NewEnd s message (.error e, back) t
  | written {result : Except EspErr Unit} {back : SmsMessage} {slot : Slot} {t : Store}
      (room : s.freeSlot = some slot ∨ s.freeSlot = none ∧ s.oldestPrunable = some slot)
      (stored : t.blob = (s.put slot (message.withId s.freshId)).blob)
      (policy : t.SamePolicy s)
      (counter : t.nextId = some (nextOf s.freshId))
      (returned : (result, back) = (.ok (), (message.withId s.freshId)) ∨
        ∃ code, (result, back) = (.error (.nvs code), message.withId 0)) :
      NewEnd s message (result, back) t

theorem saveNew_end (plan : Plan NvsCall) {s : Store} (sound : s.Sound) (message : SmsMessage) :
    s.NewEnd message (saveNew message (plan, s)).1 (saveNew message (plan, s)).2.2 := by
  have ending := claimSlot_end plan sound
  simp only [saveNew, bind, StateT.bind]
  generalize claimSlot (plan, s) = claim at ending
  obtain ⟨result, rest, claimed⟩ := claim
  cases ending with
  | refused code => exact .refused rfl (.refl _) (.inl rfl) ⟨message.id, rfl⟩
  | lost code full oldest => exact .lost full oldest rfl (.refl _) (.inl rfl) ⟨message.id, rfl⟩
  | noRoom full nothing =>
      exact .refused rfl (.refl _) (.inl rfl) ⟨message.id, rfl⟩
  | claimed room =>
      rename_i slot
      simp only [bind, StateT.bind, allocateId_run]
      have fresh : claimed.freshId = s.freshId := by cases room <;> rfl
      have counter : claimed.nextId = s.nextId := by cases room <;> rfl
      have policy : claimed.SamePolicy s := by cases room <;> exact ⟨rfl, rfl⟩
      -- Until the record is written, the journal is the one the claim left.
      have kept (result : EspErr) (back : SmsMessage) (t : Store) (same : t.blob = claimed.blob)
          (samePolicy : t.SamePolicy s)
          (moved : t.nextId = s.nextId ∨ t.nextId = some (nextOf s.freshId))
          (returned : ∃ id, back = message.withId id) :
          s.NewEnd message (.error result, back) t := by
        cases room with
        | free found => exact .refused same samePolicy moved returned
        | pruned full oldest => exact .lost full oldest same samePolicy moved returned
      cases read : rest .getU32 0 with
      | some code => exact kept _ _ _ rfl policy (.inl counter) ⟨message.id, rfl⟩
      | none =>
          cases count : rest .setU32 0 with
          | some code => exact kept _ _ _ rfl policy (.inl counter) ⟨_, rfl⟩
          | none =>
              simp only [Option.getD_some, bind, StateT.bind, writeSlot_run]
              have space : s.freeSlot = some slot ∨
                  s.freeSlot = none ∧ s.oldestPrunable = some slot := by
                cases room with
                | free found => exact .inl found
                | pruned full oldest => exact .inr ⟨full, oldest⟩
              have target : (claimed.countId.put slot (message.withId claimed.freshId)).blob =
                  (s.put slot (message.withId s.freshId)).blob := by
                rw [fresh]
                cases room with
                | free found => rfl
                | pruned full oldest =>
                    simp [Store.put, Store.countId, Store.wipe]
              have moved : claimed.countId.nextId = some (nextOf s.freshId) := by
                simp [Store.countId, fresh]
              generalize (rest.skip .getU32 1).skip .setU32 1 = later
              cases write : later .setBlob 0 with
              | some code => exact kept _ _ _ rfl policy (.inr moved) ⟨0, rfl⟩
              | none =>
                  cases last : later .commit 0 with
                  | some code => exact .written space target policy moved (.inr ⟨code, rfl⟩)
                  | none => exact .written space target policy moved (.inl (by simp [fresh]))

/-- How a save of a record with an id can end. -/
inductive Store.ExistingEnd (s : Store) (message : SmsMessage) :
    Except EspErr Unit × SmsMessage → Store → Prop where
  | refused (e : EspErr) : ExistingEnd s message (.error e, message) s
  | written {result : Except EspErr Unit} {slot : Slot}
      (place : s.slotOf message.id = some slot ∨
        s.slotOf message.id = none ∧ s.freeSlot = some slot)
      (returned : result = .ok () ∨ ∃ code, result = .error (.nvs code)) :
      ExistingEnd s message (result, message) (s.put slot message)

theorem saveExisting_end (plan : Plan NvsCall) {s : Store} (sound : s.Sound)
    (message : SmsMessage) :
    s.ExistingEnd message (saveExisting message (plan, s)).1
      (saveExisting message (plan, s)).2.2 := by
  have write (rest : Plan NvsCall) (slot : Slot)
      (place : s.slotOf message.id = some slot ∨
        s.slotOf message.id = none ∧ s.freeSlot = some slot) :
      s.ExistingEnd message
        ((writeSlot slot message (rest, s)).1, message) (writeSlot slot message (rest, s)).2.2 := by
    rw [writeSlot_run]
    cases set : rest .setBlob 0 with
    | some code => exact .refused _
    | none =>
        cases last : rest .commit 0 with
        | some code => exact .written place (.inr ⟨code, rfl⟩)
        | none => exact .written place (.inl rfl)
  obtain ⟨rest, run | ⟨code, run⟩⟩ := (findIdSlot_reads sound message.id).run plan
  · cases found : s.slotOf message.id with
    | some slot =>
        simp only [found, Store.orError] at run
        simp only [saveExisting, bind, StateT.bind, run, pure_apply]
        exact write _ slot (.inl found)
    | none =>
        simp only [found, Store.orError] at run
        obtain ⟨rest', second | ⟨code, second⟩⟩ := (findEmptySlot_reads sound).run rest
        · cases free : s.freeSlot with
          | some slot =>
              simp only [free, Store.orError] at second
              simp only [saveExisting, bind, StateT.bind, run, second, pure_apply]
              exact write _ slot (.inr ⟨found, free⟩)
          | none =>
              simp only [free, Store.orError] at second
              simp only [saveExisting, bind, StateT.bind, run, second, pure_apply]
              exact .refused _
        · simp only [saveExisting, bind, StateT.bind, run, second, pure_apply]
          exact .refused _
  · simp only [saveExisting, bind, StateT.bind, run, pure_apply]
    exact .refused _

/-- How a save can end. -/
inductive Store.SaveEnd (s : Store) (message : SmsMessage) :
    Except EspErr Unit × SmsMessage → Store → Prop where
  | invalid (rejected : message.storable = false) : SaveEnd s message (.error .invalidArg, message) s
  | new {result : Except EspErr Unit × SmsMessage} {t : Store} (storable : message.storable = true)
      (unnamed : message.id = 0) (ending : s.NewEnd message result t) : SaveEnd s message result t
  | existing {result : Except EspErr Unit × SmsMessage} {t : Store}
      (storable : message.storable = true) (named : message.id ≠ 0)
      (ending : s.ExistingEnd message result t) : SaveEnd s message result t

theorem smsStoreSave_end (plan : Plan NvsCall) {s : Store} (sound : s.Sound)
    (message : SmsMessage) :
    s.SaveEnd message (smsStoreSave message (plan, s)).1 (smsStoreSave message (plan, s)).2.2 := by
  by_cases storable : message.storable = true
  · by_cases unnamed : message.id = 0
    · simp only [smsStoreSave, storable, unnamed, ↓reduceIte]
      exact .new storable unnamed (saveNew_end plan sound message)
    · simp only [smsStoreSave, storable, unnamed, ↓reduceIte]
      exact .existing storable unnamed (saveExisting_end plan sound message)
  · simp only [smsStoreSave, storable, Bool.false_eq_true, ↓reduceIte]
    exact .invalid (by simpa using storable)

/-- How a delete can end. -/
inductive Store.DeleteEnd (s : Store) (id : UInt32) : Except EspErr Unit → Store → Prop where
  | refused (e : EspErr) : DeleteEnd s id (.error e) s
  | erased {result : Except EspErr Unit} {slot : Slot} (found : s.slotOf id = some slot)
      (returned : result = .ok () ∨ ∃ code, result = .error (.nvs code)) :
      DeleteEnd s id result (s.wipe slot)

theorem smsStoreDelete_end (plan : Plan NvsCall) {s : Store} (sound : s.Sound) (id : UInt32) :
    s.DeleteEnd id (smsStoreDelete id (plan, s)).1 (smsStoreDelete id (plan, s)).2.2 := by
  by_cases named : id = 0
  · simp only [smsStoreDelete, named, ↓reduceIte]
    exact .refused _
  · simp only [smsStoreDelete, named, ↓reduceIte, bind, StateT.bind]
    obtain ⟨rest, run | ⟨code, run⟩⟩ := (findIdSlot_reads sound id).run plan
    · cases found : s.slotOf id with
      | none =>
          simp only [found, Store.orError] at run
          simp only [run]
          exact .refused _
      | some slot =>
          obtain ⟨message, stored, -⟩ := Store.slotOf_some found
          simp only [found, Store.orError] at run
          simp only [run]
          rw [eraseSlot_run _ _ _ (sound.occupied stored)]
          cases erase : rest .eraseKey 0 with
          | some code => exact .refused _
          | none =>
              cases last : rest .commit 0 with
              | some code => exact .erased found (.inr ⟨code, rfl⟩)
              | none => exact .erased found (.inl rfl)
    · simp only [run]
      exact .refused _

/-! The same calls on a flash that refuses nothing. -/

section

variable {s : Store} (sound : s.Sound)
include sound

theorem saveNew_faultless (message : SmsMessage) :
    saveNew message (Plan.faultless, s) =
      match s.freeSlot, s.oldestPrunable with
      | some slot, _ => ((.ok (), message.withId s.freshId),
          (Plan.faultless, s.countId.put slot (message.withId s.freshId)))
      | none, some slot => ((.ok (), message.withId s.freshId),
          (Plan.faultless, ((s.wipe slot).countPruned.countId).put slot
            (message.withId s.freshId)))
      | none, none => ((.error .noMem, message),
          (Plan.faultless, { s with capacityFailures := s.capacityFailures + 1 })) := by
  have run := (findEmptySlot_reads sound).faultless
  cases free : s.freeSlot with
  | some slot =>
      simp only [free, Store.orError] at run
      simp [saveNew, claimSlot, bind, StateT.bind, run, pure_apply, allocateId_run,
        writeSlot_run]
  | none =>
      simp only [free, Store.orError] at run
      have second := (findPrunableSlot_reads sound).faultless
      cases oldest : s.oldestPrunable with
      | none =>
          simp only [oldest, Store.orError] at second
          simp [saveNew, claimSlot, bind, StateT.bind, run, second, pure_apply, modify_apply]
      | some slot =>
          obtain ⟨record, stored, -⟩ := Store.leastSlot_some oldest
          simp only [oldest, Store.orError] at second
          have erase := eraseSlot_run Plan.faultless s slot (sound.occupied stored)
          simp only [Plan.faultless_apply, Plan.skip_faultless] at erase
          simp [saveNew, claimSlot, bind, StateT.bind, run, second, erase, pure_apply,
            modify_apply, allocateId_run,
            writeSlot_run, Store.countPruned, Store.freshId, Store.wipe]

theorem saveExisting_faultless (message : SmsMessage) :
    saveExisting message (Plan.faultless, s) =
      match s.slotOf message.id, s.freeSlot with
      | some slot, _ => ((.ok (), message), (Plan.faultless, s.put slot message))
      | none, some slot => ((.ok (), message), (Plan.faultless, s.put slot message))
      | none, none => ((.error .noMem, message), (Plan.faultless, s)) := by
  have run := (findIdSlot_reads sound message.id).faultless
  cases found : s.slotOf message.id with
  | some slot =>
      simp only [found, Store.orError] at run
      simp [saveExisting, bind, StateT.bind, run, pure_apply, writeSlot_run]
  | none =>
      simp only [found, Store.orError] at run
      have second := (findEmptySlot_reads sound).faultless
      cases free : s.freeSlot with
      | some slot =>
          simp only [free, Store.orError] at second
          simp [saveExisting, bind, StateT.bind, run, second, pure_apply, writeSlot_run]
      | none =>
          simp only [free, Store.orError] at second
          simp [saveExisting, bind, StateT.bind, run, second, pure_apply]

theorem smsStoreDelete_faultless (id : UInt32) (named : id ≠ 0) :
    smsStoreDelete id (Plan.faultless, s) =
      match s.slotOf id with
      | some slot => (.ok (), (Plan.faultless, s.wipe slot))
      | none => (.error .notFound, (Plan.faultless, s)) := by
  have run := (findIdSlot_reads sound id).faultless
  cases found : s.slotOf id with
  | none =>
      simp only [found, Store.orError] at run
      simp [smsStoreDelete, named, bind, StateT.bind, run, pure_apply]
  | some slot =>
      obtain ⟨message, stored, -⟩ := Store.slotOf_some found
      simp only [found, Store.orError] at run
      have erase := eraseSlot_run Plan.faultless s slot (sound.occupied stored)
      simp only [Plan.faultless_apply, Plan.skip_faultless] at erase
      simp [smsStoreDelete, named, bind, StateT.bind, run, erase]

end

end SmsGateway
