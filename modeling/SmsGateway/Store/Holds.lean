import SmsGateway.Store.Numbering

/-! The journal as a set of records: what each store call adds and removes. -/

namespace SmsGateway

open Lib

namespace Store

/-- The journal holds this record. -/
def Holds (s : Store) (message : SmsMessage) : Prop := ∃ slot, s.view slot = some message

variable {s t : Store} {n : Nat}

theorem holds_congr (same : t.blob = s.blob) (m : SmsMessage) : t.Holds m ↔ s.Holds m := by
  simp only [Holds, view_congr same]

theorem Numbered.id_inj (numbered : s.Numbered n) {m m' : SmsMessage} (held : s.Holds m)
    (held' : s.Holds m') (same : m.id = m'.id) : m = m' := by
  obtain ⟨slot, stored⟩ := held
  obtain ⟨slot', stored'⟩ := held'
  have slots := numbered.distinct slot slot' m m' stored stored' same
  rw [slots, stored'] at stored
  exact (Option.some.inj stored).symm

theorem Numbered.holds_named (numbered : s.Numbered n) {m : SmsMessage} (held : s.Holds m) :
    m.id ≠ 0 := by
  obtain ⟨slot, stored⟩ := held
  exact numbered.ne_zero stored

theorem Numbered.holds_known (numbered : s.Numbered n) {m : SmsMessage} (held : s.Holds m) :
    m.id.toNat ≤ n := by
  obtain ⟨slot, stored⟩ := held
  exact (numbered.allocated slot m stored).2

theorem Numbered.holds_ne_fresh (numbered : s.Numbered n) {m : SmsMessage} (held : s.Holds m) :
    m.id ≠ s.freshId := by
  obtain ⟨slot, stored⟩ := held
  exact numbered.fresh slot stored

/-- The records of an updated slot. -/
theorem holds_update (slot : Slot) (view : t.view = Function.update s.view slot none)
    (m : SmsMessage) : t.Holds m ↔ s.Holds m ∧ ∃ other, other ≠ slot ∧ s.view other = some m := by
  simp only [Holds, view, Function.update_apply]
  constructor
  · rintro ⟨other, stored⟩
    split at stored
    · cases stored
    · rename_i different
      exact ⟨⟨other, stored⟩, other, different, stored⟩
  · rintro ⟨-, other, different, stored⟩
    exact ⟨other, by simp [different, stored]⟩

/-- Erasing an occupied slot removes its record. -/
theorem Numbered.holds_wipe (numbered : s.Numbered n) {slot : Slot} {old : SmsMessage}
    (stored : s.view slot = some old) (m : SmsMessage) :
    (s.wipe slot).Holds m ↔ s.Holds m ∧ m ≠ old := by
  rw [holds_update slot (view_wipe s slot)]
  constructor
  · rintro ⟨held, other, different, here⟩
    refine ⟨held, ?_⟩
    rintro rfl
    exact different (numbered.distinct other slot m m here stored rfl)
  · rintro ⟨⟨other, here⟩, different⟩
    refine ⟨⟨other, here⟩, other, ?_, here⟩
    rintro rfl
    rw [stored] at here
    exact different (Option.some.inj here).symm

theorem holds_wipe_free {slot : Slot} (free : s.view slot = none) (m : SmsMessage) :
    (s.wipe slot).Holds m ↔ s.Holds m := by
  rw [holds_update slot (view_wipe s slot)]
  constructor
  · exact fun held => held.1
  · rintro ⟨other, here⟩
    refine ⟨⟨other, here⟩, other, ?_, here⟩
    rintro rfl
    rw [free] at here
    cases here

/-- A written slot holds its record, next to those of the other slots. -/
theorem holds_put {slot : Slot} {message : SmsMessage} (storable : message.storable = true)
    (named : message.id ≠ 0) (m : SmsMessage) :
    (s.put slot message).Holds m ↔ m = message ∨ (s.wipe slot).Holds m := by
  simp only [Holds, view_put s slot storable named, view_wipe, Function.update_apply]
  constructor
  · rintro ⟨other, stored⟩
    split at stored
    · exact .inl (Option.some.inj stored).symm
    · rename_i different
      exact .inr ⟨other, by simp [different, stored]⟩
  · rintro (rfl | ⟨other, stored⟩)
    · exact ⟨slot, by simp⟩
    · split at stored
      · cases stored
      · rename_i different
        exact ⟨other, by simp [different, stored]⟩

/-- The first passing record keeps its place when a passing record replaces it. -/
theorem Numbered.recordWhere_put (numbered : s.Numbered n) {pass : SmsMessage → Bool}
    {slot : Slot} {old message : SmsMessage} (storable : message.storable = true)
    (named : message.id ≠ 0) (found : s.slotOf message.id = some slot)
    (first : s.recordWhere pass = some old) (same : old.id = message.id)
    (passes : pass message = true) : (s.put slot message).recordWhere pass = some message := by
  simp only [recordWhere, Option.bind_eq_some_iff] at first
  obtain ⟨place, hit, stored⟩ := first
  have here := numbered.slotOf_eq stored
  rw [same, found] at here
  cases here
  have search (slots : List Slot)
      (hit : slots.find? (fun other => (s.view other).any pass) = some slot) :
      slots.find? (fun other => ((s.put slot message).view other).any pass) = some slot := by
    induction slots with
    | nil => cases hit
    | cons other rest ih =>
        rw [List.find?_cons] at hit ⊢
        rw [view_put s slot storable named, Function.update_apply]
        by_cases here : other = slot
        · simp [here, passes]
        · simp only [here, ↓reduceIte]
          split at hit
          · exact absurd (Option.some.inj hit) here
          · rw [view_put s slot storable named] at ih
            exact ih hit
  rw [recordWhere, search allSlots hit]
  simp [view_put s slot storable named]

/-- What a save did: nothing, it only pruned a record, it added the record under
the fresh id, or it replaced the record with its id. -/
inductive SaveEffect (s t : Store) (message : SmsMessage) :
    Except EspErr Unit × SmsMessage → Prop where
  | kept {e : EspErr} {back : SmsMessage} (same : ∀ m, t.Holds m ↔ s.Holds m)
      (returned : ∃ id, back = message.withId id) : SaveEffect s t message (.error e, back)
  | lost {e : EspErr} {back old : SmsMessage} (unnamed : message.id = 0)
      (full : s.freeSlot = none) (prunable : recordPrunable s old = true)
      (rest : ∀ m, t.Holds m ↔ s.Holds m ∧ m ≠ old)
      (returned : ∃ id, back = message.withId id) : SaveEffect s t message (.error e, back)
  | added {result : Except EspErr Unit} {back : SmsMessage} {old : Option SmsMessage}
      (unnamed : message.id = 0) (storable : message.storable = true)
      (prunable : ∀ m, old = some m → s.freeSlot = none ∧ recordPrunable s m = true)
      (rest : ∀ m, t.Holds m ↔ m = message.withId s.freshId ∨ s.Holds m ∧ old ≠ some m)
      (returned : (result, back) = (.ok (), message.withId s.freshId) ∨
        ∃ code, (result, back) = (.error (.nvs code), message.withId 0)) :
      SaveEffect s t message (result, back)
  | replaced {result : Except EspErr Unit} (named : message.id ≠ 0)
      (storable : message.storable = true)
      (rest : ∀ m, t.Holds m ↔ m = message ∨ s.Holds m ∧ m.id ≠ message.id)
      (first : ∀ pass m, s.recordWhere pass = some m → m.id = message.id →
        pass message = true → t.recordWhere pass = some message)
      (returned : result = .ok () ∨ ∃ code, result = .error (.nvs code)) :
      SaveEffect s t message (result, message)

theorem NewEnd.effect {message : SmsMessage} {result : Except EspErr Unit × SmsMessage}
    (numbered : s.Numbered n) (unnamed : message.id = 0) (storable : message.storable = true)
    (ending : s.NewEnd message result t) : SaveEffect s t message result := by
  cases ending with
  | refused same policy counter returned => exact .kept (holds_congr same) returned
  | lost full oldest erased policy counter returned =>
      obtain ⟨old, stored, prunable, -⟩ := leastSlot_some oldest
      refine .lost unnamed full prunable ?_ returned
      intro m
      rw [holds_congr erased, numbered.holds_wipe stored]
  | written room written policy counter returned =>
      rename_i slot
      have put (m : SmsMessage) : t.Holds m ↔
          m = message.withId s.freshId ∨ (s.wipe slot).Holds m := by
        have named : (message.withId s.freshId).storable = true := storable
        rw [holds_congr written, holds_put named s.freshId_ne_zero]
      rcases room with free | ⟨full, oldest⟩
      · have absent : ∀ m : SmsMessage, (none : Option SmsMessage) = some m →
            s.freeSlot = none ∧ recordPrunable s m = true := by
          intro m equal
          cases equal
        refine .added unnamed storable absent ?_ returned
        intro m
        rw [put, holds_wipe_free (freeSlot_some free)]
        simp
      · obtain ⟨old, stored, prunable, -⟩ := leastSlot_some oldest
        have pruned : ∀ m, some old = some m → s.freeSlot = none ∧ recordPrunable s m = true := by
          rintro m ⟨⟩
          exact ⟨full, prunable⟩
        refine .added unnamed storable pruned ?_ returned
        intro m
        rw [put, numbered.holds_wipe stored]
        simp [eq_comm]

theorem ExistingEnd.effect {message : SmsMessage} {result : Except EspErr Unit × SmsMessage}
    (numbered : s.Numbered n) (named : message.id ≠ 0) (storable : message.storable = true)
    (ending : s.ExistingEnd message result t) : SaveEffect s t message result := by
  cases ending with
  | refused e => exact .kept (fun m => .rfl) ⟨message.id, rfl⟩
  | written place returned =>
      rename_i slot
      have first : ∀ pass m, s.recordWhere pass = some m → m.id = message.id →
          pass message = true → (s.put slot message).recordWhere pass = some message := by
        intro pass m first same passes
        rcases place with found | ⟨absent, -⟩
        · exact numbered.recordWhere_put storable named found first same passes
        · obtain ⟨other, stored, -⟩ := recordWhere_some first
          exact absurd same (slotOf_none absent other stored)
      refine .replaced named storable ?_ first returned
      intro m
      rw [holds_put storable named]
      rcases place with found | ⟨absent, free⟩
      · obtain ⟨old, stored, same⟩ := slotOf_some found
        rw [numbered.holds_wipe stored, ← same]
        constructor
        · rintro (rfl | ⟨held, different⟩)
          · exact .inl rfl
          · refine .inr ⟨held, ?_⟩
            intro equal
            exact different (numbered.id_inj held ⟨slot, stored⟩ equal)
        · rintro (rfl | ⟨held, different⟩)
          · exact .inl rfl
          · refine .inr ⟨held, ?_⟩
            rintro rfl
            exact different rfl
      · rw [holds_wipe_free (freeSlot_some free)]
        constructor
        · rintro (rfl | ⟨other, stored⟩)
          · exact .inl rfl
          · exact .inr ⟨⟨other, stored⟩, slotOf_none absent other stored⟩
        · rintro (rfl | ⟨held, -⟩)
          · exact .inl rfl
          · exact .inr held

theorem smsStoreSave_effect (plan : Plan NvsCall) (numbered : s.Numbered n)
    (message : SmsMessage) :
    SaveEffect s (smsStoreSave message (plan, s)).2.2 message
      (smsStoreSave message (plan, s)).1 := by
  have ending := smsStoreSave_end plan numbered.sound message
  generalize (smsStoreSave message (plan, s)).1 = result at ending ⊢
  generalize (smsStoreSave message (plan, s)).2.2 = after at ending ⊢
  cases ending with
  | invalid rejected => exact .kept (fun m => .rfl) ⟨message.id, rfl⟩
  | new storable unnamed ending => exact ending.effect numbered unnamed storable
  | existing storable named ending => exact ending.effect numbered named storable

/-- A save keeps every other record, unless a new record finds no free slot and the
other is prunable. -/
theorem SaveEffect.keeps {message m : SmsMessage} {reply : Except EspErr Unit × SmsMessage}
    (effect : SaveEffect s t message reply) (held : s.Holds m) (other : m.id ≠ message.id)
    (spared : recordPrunable s m = false ∨ ¬ (message.id = 0 ∧ s.freeSlot = none)) :
    t.Holds m := by
  have different (old : SmsMessage) (unnamed : message.id = 0) (full : s.freeSlot = none)
      (prunable : recordPrunable s old = true) : m ≠ old := by
    rintro rfl
    rcases spared with safe | room
    · rw [safe] at prunable
      cases prunable
    · exact room ⟨unnamed, full⟩
  cases effect with
  | kept same returned => exact (same m).mpr held
  | lost unnamed full prunable rest returned =>
      exact (rest m).mpr ⟨held, different _ unnamed full prunable⟩
  | added unnamed storable prunable rest returned =>
      refine (rest m).mpr (.inr ⟨held, ?_⟩)
      intro gone
      obtain ⟨full, old⟩ := prunable m gone
      exact different m unnamed full old rfl
  | replaced named storable rest first returned => exact (rest m).mpr (.inr ⟨held, other⟩)

/-- What is stored after a save was stored before or is the saved record. -/
theorem SaveEffect.source {message m : SmsMessage} {reply : Except EspErr Unit × SmsMessage}
    (effect : SaveEffect s t message reply) (held : t.Holds m) :
    s.Holds m ∨ message.id = 0 ∧ m = message.withId s.freshId ∨
      message.id ≠ 0 ∧ m = message := by
  cases effect with
  | kept same returned => exact .inl ((same m).mp held)
  | lost unnamed full prunable rest returned => exact .inl ((rest m).mp held).1
  | added unnamed storable prunable rest returned =>
      rcases (rest m).mp held with new | ⟨old, -⟩
      · exact .inr (.inl ⟨unnamed, new⟩)
      · exact .inl old
  | replaced named storable rest first returned =>
      rcases (rest m).mp held with new | ⟨old, -⟩
      · exact .inr (.inr ⟨named, new⟩)
      · exact .inl old

/-- A save that succeeds stores the record it returns. -/
theorem SaveEffect.stored {message back : SmsMessage}
    (effect : SaveEffect s t message (.ok (), back)) :
    t.Holds back ∧ (message.id = 0 ∧ back = message.withId s.freshId ∨
      message.id ≠ 0 ∧ back = message) := by
  cases effect with
  | added unnamed storable prunable rest returned =>
      rcases returned with equal | ⟨code, equal⟩
      · cases equal
        exact ⟨(rest _).mpr (.inl rfl), .inl ⟨unnamed, rfl⟩⟩
      · cases equal
  | replaced named storable rest first returned =>
      exact ⟨(rest _).mpr (.inl rfl), .inr ⟨named, rfl⟩⟩

/-- The same of a journal with repeated ids. -/
theorem SaveEnd.stored {message back : SmsMessage}
    (ending : s.SaveEnd message (.ok (), back) t) :
    t.Holds back ∧ (message.id = 0 ∧ back = message.withId s.freshId ∨
      message.id ≠ 0 ∧ back = message) := by
  cases ending with
  | new storable unnamed ending =>
      cases ending with
      | written room stored policy counter returned =>
          rcases returned with equal | ⟨code, equal⟩
          · cases equal
            have named : (message.withId s.freshId).storable = true := storable
            rw [holds_congr stored, holds_put named s.freshId_ne_zero]
            exact ⟨.inl rfl, .inl ⟨unnamed, rfl⟩⟩
          · cases equal
  | existing storable named ending =>
      cases ending with
      | written place returned =>
          rw [holds_put storable named]
          exact ⟨.inl rfl, .inr ⟨named, rfl⟩⟩

/-- A save never reports a missing record. -/
theorem smsStoreSave_ne_notFound (plan : Plan NvsCall) (sound : s.Sound) (message : SmsMessage) :
    (smsStoreSave message (plan, s)).1.1 ≠ .error .notFound := by
  intro missing
  by_cases storable : message.storable = true
  · by_cases unnamed : message.id = 0
    · simp only [smsStoreSave, storable, unnamed, ↓reduceIte, saveNew, bind, StateT.bind]
        at missing
      have ending := claimSlot_end plan sound
      generalize claimSlot (plan, s) = claim at ending missing
      obtain ⟨result, rest, claimed⟩ := claim
      cases ending with
      | refused code => cases missing
      | lost code full oldest => cases missing
      | noRoom full nothing => cases missing
      | claimed room =>
          simp only [bind, StateT.bind, allocateId_run] at missing
          cases get : rest .getU32 0 with
          | some code => simp [get, pure_apply] at missing
          | none =>
              cases set : rest .setU32 0 with
              | some code => simp [get, set, pure_apply] at missing
              | none =>
                  simp only [get, set, bind, StateT.bind, writeSlot_run] at missing
                  cases first : rest .setBlob 0 <;> cases second : rest .commit 0 <;>
                    simp [first, second, pure_apply] at missing
    · have write (rest : Plan NvsCall) (slot : Slot) :
          (writeSlot slot message (rest, s)).1 ≠ .error .notFound := by
        rw [writeSlot_run]
        split <;> simp
      simp only [smsStoreSave, storable, unnamed, ↓reduceIte, saveExisting, bind, StateT.bind]
        at missing
      obtain ⟨rest, run | ⟨code, run⟩⟩ := (findIdSlot_reads sound message.id).run plan
      · cases found : s.slotOf message.id with
        | some slot =>
            simp only [run, found, orError, pure_apply] at missing
            exact write _ _ missing
        | none =>
            simp only [run, found, orError] at missing
            obtain ⟨later, run | ⟨code, run⟩⟩ := (findEmptySlot_reads sound).run rest
            · cases free : s.freeSlot with
              | some slot =>
                  simp only [run, free, orError, pure] at missing
                  exact write _ _ missing
              | none =>
                  simp only [run, free, orError] at missing
                  cases missing
            · simp only [run] at missing
              cases missing
      · simp only [run, pure_apply] at missing
        cases missing
  · simp [smsStoreSave, storable, pure_apply] at missing

/-- What a delete did: nothing, or it removed the record with the id. -/
inductive DeleteEffect (s t : Store) (id : UInt32) : Except EspErr Unit → Prop where
  | kept {e : EspErr} (same : ∀ m, t.Holds m ↔ s.Holds m) : DeleteEffect s t id (.error e)
  | erased {result : Except EspErr Unit} (rest : ∀ m, t.Holds m ↔ s.Holds m ∧ m.id ≠ id) :
      DeleteEffect s t id result

theorem DeleteEffect.source {id : UInt32} {result : Except EspErr Unit} {m : SmsMessage}
    (effect : DeleteEffect s t id result) (held : t.Holds m) : s.Holds m := by
  cases effect with
  | kept same => exact (same m).mp held
  | erased rest => exact ((rest m).mp held).1

theorem smsStoreDelete_effect (plan : Plan NvsCall) (numbered : s.Numbered n) (id : UInt32) :
    DeleteEffect s (smsStoreDelete id (plan, s)).2.2 id (smsStoreDelete id (plan, s)).1 := by
  have ending := smsStoreDelete_end plan numbered.sound id
  generalize (smsStoreDelete id (plan, s)).1 = result at ending ⊢
  generalize (smsStoreDelete id (plan, s)).2.2 = after at ending ⊢
  cases ending with
  | refused e => exact .kept (fun m => .rfl)
  | erased found returned =>
      obtain ⟨old, stored, same⟩ := slotOf_some found
      refine .erased fun m => ?_
      rw [numbered.holds_wipe stored, ← same]
      constructor
      · rintro ⟨held, different⟩
        refine ⟨held, ?_⟩
        intro equal
        exact different (numbered.id_inj held ⟨_, stored⟩ equal)
      · rintro ⟨held, different⟩
        refine ⟨held, ?_⟩
        rintro rfl
        exact different rfl

/-- A search by a test finds a passing record, or there is none. -/
theorem recordWhere_holds (pass : SmsMessage → Bool) :
    (∃ m, s.recordWhere pass = some m ∧ s.Holds m ∧ pass m = true) ∨
      s.recordWhere pass = none ∧ ∀ m, s.Holds m → pass m = false := by
  cases found : s.recordWhere pass with
  | some m =>
      obtain ⟨slot, stored, passes⟩ := recordWhere_some found
      exact .inl ⟨m, rfl, ⟨slot, stored⟩, passes⟩
  | none =>
      refine .inr ⟨rfl, ?_⟩
      rintro m ⟨slot, stored⟩
      exact recordWhere_none found slot stored

/-- The record with the smallest id above `afterId`, if there is one. -/
inductive LeastAbove (afterId : UInt32) (records : SmsMessage → Prop) : List SmsMessage → Prop where
  | none (absent : ∀ m, records m → m.id ≤ afterId) : LeastAbove afterId records []
  | some {m : SmsMessage} (member : records m) (above : afterId < m.id)
      (least : ∀ r, records r → afterId < r.id → m.id ≤ r.id) : LeastAbove afterId records [m]

theorem visitList_least {afterId : UInt32} {records : SmsMessage → Prop} {found : List SmsMessage}
    (least : LeastAbove afterId records found) (slot : Slot) (stored : Option SmsMessage) :
    LeastAbove afterId (fun m => records m ∨ stored = .some m)
      (visitList afterId 1 found slot stored) := by
  cases stored with
  | none => simpa [visitList] using least
  | some record =>
      simp only [visitList]
      by_cases passed : record.id ≤ afterId
      · rw [if_pos passed]
        cases least with
        | none absent =>
            refine .none ?_
            rintro m (old | new)
            · exact absent m old
            · cases new
              exact passed
        | some member above smallest =>
            refine .some (.inl member) above ?_
            rintro r (old | new) larger
            · exact smallest r old larger
            · cases new
              exact absurd larger (UInt32.not_lt.mpr passed)
      · rw [if_neg passed]
        have above := UInt32.not_le.mp passed
        cases least with
        | none absent =>
            refine .some (.inr rfl) above ?_
            rintro r (old | new) larger
            · exact absurd larger (UInt32.not_lt.mpr (absent r old))
            · cases new
              exact UInt32.le_refl _
        | @some m member aboveOld smallest =>
            simp only [List.length_singleton, Nat.lt_irrefl, ↓reduceIte, highestIndex,
              List.foldl_nil, List.getElem?_cons_zero, List.set_cons_zero]
            by_cases smaller : record.id < m.id
            · rw [if_pos smaller]
              refine .some (.inr rfl) above ?_
              rintro r (old | new) larger
              · exact UInt32.le_of_lt (UInt32.lt_of_lt_of_le smaller (smallest r old larger))
              · cases new
                exact UInt32.le_refl _
            · rw [if_neg smaller]
              refine .some (.inl member) aboveOld ?_
              rintro r (old | new) larger
              · exact smallest r old larger
              · cases new
                exact UInt32.not_lt.mp smaller

/-- A list call for one record. -/
theorem smsStoreList_one (sound : s.Sound) {plan : Plan NvsCall} {afterId : UInt32}
    {found : List SmsMessage} (listed : (smsStoreList afterId 1 (plan, s)).1 = .ok found) :
    LeastAbove afterId s.Holds found := by
  have scan (slots : List Slot) (records : SmsMessage → Prop) (start : List SmsMessage)
      (least : LeastAbove afterId records start) :
      LeastAbove afterId (fun m => records m ∨ ∃ slot ∈ slots, s.view slot = .some m)
        (slots.foldl (fun found slot => visitList afterId 1 found slot (s.view slot)) start) := by
    induction slots generalizing records start with
    | nil => simpa using least
    | cons slot rest ih =>
        have next := ih _ _ (visitList_least least slot (s.view slot))
        simpa [or_assoc] using next
  rcases (smsStoreList_reads sound afterId 1 (by decide)).outcome plan with equal | ⟨code, equal⟩
  · rw [listed] at equal
    cases equal
    have least := scan allSlots (fun _ => False) [] (.none (fun _ no => no.elim))
    simp only [false_or, mem_allSlots, true_and] at least
    generalize allSlots.foldl (fun found slot => visitList afterId 1 found slot (s.view slot)) [] =
      found at least ⊢
    cases least with
    | none absent => exact .none absent
    | some member above smallest => exact .some member above smallest
  · cases listed.symm.trans equal

end Store

end SmsGateway
