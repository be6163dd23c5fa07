import SmsGateway.Store.Effects

/-! Reachable journals and the numbering of their records.

The id counter of the journal has 32 bits and starts again at 1 after its last
value, so everything here is about journals that allocated fewer than 2^32 - 1
ids. -/

namespace SmsGateway

open Lib

/-- The number of allocations after which an id may be given out twice. -/
def idLimit : Nat := 2 ^ 32 - 1

/-- A journal after `n` allocations: its records carry distinct ids among the
allocated ones, and the counter stands at the next. -/
structure Store.Numbered (s : Store) (n : Nat) : Prop where
  sound : s.Sound
  counter : s.nextId = if n = 0 then none else some (UInt32.ofNat (n + 1))
  allocated : ∀ slot message, s.view slot = some message →
    1 ≤ message.id.toNat ∧ message.id.toNat ≤ n
  distinct : DistinctKeys SmsMessage.id s.view
  inRange : n < idLimit

namespace Store

/-- 1 when the call between two journals allocated an id. -/
def allocations (s t : Store) : Nat := if t.nextId = s.nextId then 0 else 1

theorem allocations_of_eq {s t : Store} (same : t.nextId = s.nextId) : allocations s t = 0 := by
  simp [allocations, same]

/-- Journals reached from an empty flash by store calls, with the number of ids
allocated on the way. A record saved under an id carries an allocated one. -/
inductive Reached : Store → Nat → Prop where
  | empty : Reached Store.empty 0
  | save {s : Store} {n : Nat} (before : Reached s n) (message : SmsMessage)
      (known : message.id.toNat ≤ n) (plan : Plan NvsCall) :
      Reached (smsStoreSave message (plan, s)).2.2
        (n + allocations s (smsStoreSave message (plan, s)).2.2)
  | delete {s : Store} {n : Nat} (before : Reached s n) (id : UInt32) (plan : Plan NvsCall) :
      Reached (smsStoreDelete id (plan, s)).2.2 n
  | watermark {s : Store} {n : Nat} (before : Reached s n) (protection : Bool) (value : UInt32) :
      Reached (smsStoreSetReplayWatermark protection value s) n

theorem numbered_empty : Store.empty.Numbered 0 := by
  refine ⟨sound_empty, rfl, ?_, ?_, by decide⟩
  · intro slot message stored
    cases stored
  · intro first second record other stored
    cases stored

theorem nextOf_ne (value : UInt32) : nextOf value ≠ value := by
  simp only [nextOf]
  split <;> grind

/-- An allocation always moves the counter. -/
theorem counter_moves (s : Store) : (some (nextOf s.freshId) : Option UInt32) ≠ s.nextId := by
  cases counter : s.nextId with
  | none => simp
  | some value =>
      simp only [freshId, counter, ne_eq, Option.some.injEq]
      split
      · rename_i zero
        rw [zero]
        decide
      · exact nextOf_ne value

section

variable {s : Store} {n : Nat} (numbered : s.Numbered n)
include numbered

theorem Numbered.freshId_toNat : s.freshId.toNat = n + 1 := by
  have range := numbered.inRange
  simp only [idLimit] at range
  simp only [freshId, numbered.counter]
  split
  · rename_i first
    split at first
    · rename_i zero
      simp [zero]
    · cases first
  · rename_i value first
    split at first
    · cases first
    · cases first
      have small : (UInt32.ofNat (n + 1)).toNat = n + 1 := by
        simp only [UInt32.toNat_ofNat']
        omega
      split
      · rename_i zero
        rw [zero] at small
        simp at small
      · exact small

/-- The counter after one more allocation. -/
theorem Numbered.nextOf_freshId (room : n + 1 < idLimit) :
    nextOf s.freshId = UInt32.ofNat (n + 2) := by
  have value := numbered.freshId_toNat
  simp only [idLimit] at room
  have bump : (s.freshId + 1).toNat = n + 2 := by
    rw [UInt32.toNat_add, value]
    simp only [UInt32.reduceToNat]
    omega
  have moved : s.freshId + 1 ≠ 0 := by
    intro zero
    rw [zero] at bump
    simp at bump
  rw [nextOf, if_neg moved]
  apply UInt32.toNat_inj.mp
  rw [bump, UInt32.toNat_ofNat']
  omega

/-- No stored record carries the id of the next one. -/
theorem Numbered.fresh (slot : Slot) {message : SmsMessage}
    (stored : s.view slot = some message) : message.id ≠ s.freshId := by
  intro same
  have bound := (numbered.allocated slot message stored).2
  rw [same, numbered.freshId_toNat] at bound
  omega

theorem Numbered.slotOf_eq {slot : Slot} {message : SmsMessage}
    (stored : s.view slot = some message) : s.slotOf message.id = some slot := by
  cases found : s.slotOf message.id with
  | none => exact absurd rfl (slotOf_none found slot stored)
  | some other =>
      obtain ⟨record, held, same⟩ := slotOf_some found
      rw [numbered.distinct other slot record message held stored same]

theorem Numbered.ne_zero {slot : Slot} {message : SmsMessage}
    (stored : s.view slot = some message) : message.id ≠ 0 := by
  intro zero
  have bound := (numbered.allocated slot message stored).1
  rw [zero] at bound
  simp at bound

/-- The invariant only looks at the blobs and the counter. -/
theorem Numbered.congr {t : Store} (blobs : t.blob = s.blob) (counter : t.nextId = s.nextId) :
    t.Numbered n := by
  refine ⟨numbered.sound.congr blobs, counter.trans numbered.counter, ?_, ?_, numbered.inRange⟩
  · rw [view_congr blobs]
    exact numbered.allocated
  · rw [view_congr blobs]
    exact numbered.distinct

theorem Numbered.wipe (slot : Slot) : (s.wipe slot).Numbered n := by
  refine ⟨numbered.sound.wipe slot, numbered.counter, ?_, ?_, numbered.inRange⟩
  · intro other message stored
    rw [view_wipe, Function.update_apply] at stored
    split at stored
    · cases stored
    · exact numbered.allocated other message stored
  · rw [view_wipe]
    exact numbered.distinct.remove slot

/-- A record under an allocated id replaces the one with that id, or takes a
slot while no record has it. -/
theorem Numbered.put {slot : Slot} {message : SmsMessage} (storable : message.storable = true)
    (named : message.id ≠ 0) (known : message.id.toNat ≤ n)
    (alone : ∀ other record, s.view other = some record → record.id = message.id →
      other = slot) : (s.put slot message).Numbered n := by
  have view := view_put s slot storable named
  refine ⟨numbered.sound.put slot storable named, numbered.counter, ?_, ?_, numbered.inRange⟩
  · intro other record stored
    rw [view, Function.update_apply] at stored
    split at stored
    · cases stored
      refine ⟨?_, known⟩
      have nonzero : message.id.toNat ≠ 0 := by
        intro zero
        exact named (UInt32.toNat_inj.mp (by simpa using zero))
      omega
    · exact numbered.allocated other record stored
  · rw [view]
    exact numbered.distinct.store alone

/-- A counted id belongs to no record yet. -/
theorem Numbered.countId (room : n + 1 < idLimit) : s.countId.Numbered (n + 1) := by
  refine ⟨numbered.sound.congr rfl, ?_, ?_, numbered.distinct, room⟩
  · simp only [Store.countId, numbered.nextOf_freshId room]
    rfl
  · intro slot message stored
    have bounds := numbered.allocated slot message stored
    omega

end

theorem NewEnd.numbered {s t : Store} {n : Nat} {message : SmsMessage}
    {result : Except EspErr Unit × SmsMessage} (before : s.Numbered n)
    (storable : message.storable = true) (ending : s.NewEnd message result t)
    (room : n + allocations s t < idLimit) : t.Numbered (n + allocations s t) := by
  -- A save that stores no new record keeps the invariant of the journal it leaves.
  have counted (u : Store) (numbered : u.Numbered n) (blobs : t.blob = u.blob)
      (from_ : u.nextId = s.nextId)
      (counter : t.nextId = s.nextId ∨ t.nextId = some (nextOf s.freshId)) :
      t.Numbered (n + allocations s t) := by
    rcases counter with same | moved
    · rw [allocations_of_eq same]
      exact numbered.congr blobs (same.trans from_.symm)
    · have one : allocations s t = 1 := by
        simp [allocations, moved, counter_moves s]
      rw [one] at room ⊢
      refine (numbered.countId room).congr blobs ?_
      rw [moved, Store.countId, freshId, freshId, from_]
  cases ending with
  | refused same policy counter returned => exact counted s before same rfl counter
  | lost full oldest erased policy counter returned =>
      exact counted (s.wipe _) (before.wipe _) erased rfl counter
  | written space stored policy counter returned =>
      rename_i slot
      have one : allocations s t = 1 := by
        simp [allocations, counter, counter_moves s]
      rw [one] at room ⊢
      have added : (s.countId.put slot (message.withId s.freshId)).Numbered (n + 1) := by
        refine (before.countId room).put storable s.freshId_ne_zero ?_ ?_
        · rw [SmsMessage.withId_id, before.freshId_toNat]
        · intro other record held same
          exact absurd same (before.fresh other held)
      exact added.congr stored counter

theorem ExistingEnd.numbered {s t : Store} {n : Nat} {message : SmsMessage}
    {result : Except EspErr Unit × SmsMessage} (before : s.Numbered n)
    (storable : message.storable = true) (named : message.id ≠ 0) (known : message.id.toNat ≤ n)
    (ending : s.ExistingEnd message result t) : t.Numbered n := by
  cases ending with
  | refused e => exact before
  | written place returned =>
      rename_i slot
      apply before.put storable named known
      intro other record held same
      rcases place with found | ⟨absent, -⟩
      · have found' := before.slotOf_eq held
        rw [same, found] at found'
        exact (Option.some.inj found').symm
      · exact absurd same (slotOf_none absent other held)

theorem ExistingEnd.nextId {s t : Store} {message : SmsMessage}
    {result : Except EspErr Unit × SmsMessage} (ending : s.ExistingEnd message result t) :
    t.nextId = s.nextId := by
  cases ending <;> rfl

theorem SaveEnd.numbered {s t : Store} {n : Nat} {message : SmsMessage}
    {result : Except EspErr Unit × SmsMessage} (before : s.Numbered n)
    (known : message.id.toNat ≤ n) (ending : s.SaveEnd message result t)
    (room : n + allocations s t < idLimit) : t.Numbered (n + allocations s t) := by
  cases ending with
  | invalid rejected =>
      rw [allocations_of_eq rfl]
      exact before
  | new storable unnamed ending => exact ending.numbered before storable room
  | existing storable named ending =>
      rw [allocations_of_eq ending.nextId]
      exact ending.numbered before storable named known

theorem DeleteEnd.numbered {s t : Store} {n : Nat} {id : UInt32} {result : Except EspErr Unit}
    (before : s.Numbered n) (ending : s.DeleteEnd id result t) : t.Numbered n := by
  cases ending with
  | refused e => exact before
  | erased found returned => exact before.wipe _

/-- Every journal reached with fewer than 2^32 - 1 allocations is numbered. -/
theorem Reached.numbered {s : Store} {n : Nat} (reached : s.Reached n) (room : n < idLimit) :
    s.Numbered n := by
  induction reached with
  | empty => exact numbered_empty
  | save before message known plan ih =>
      have start := ih (by omega)
      exact (smsStoreSave_end plan start.sound message).numbered start known room
  | delete before id plan ih =>
      have start := ih room
      exact (smsStoreDelete_end plan start.sound id).numbered start
  | watermark before protection value ih => exact (ih room).congr rfl rfl

/-! Beyond the limit: the counter starts again. -/

/-- The journal with its id counter at this value. -/
def withNext (s : Store) (value : UInt32) : Store := { s with nextId := some value }

/-- A save whose record the flash refuses only moves the id counter. -/
theorem Reached.skip {s : Store} {n : Nat} {slot : Slot} (reached : s.Reached n) (sound : s.Sound)
    (free : s.freeSlot = some slot) : s.countId.Reached (n + 1) := by
  let plan : Plan NvsCall := fun call _ => if call = .setBlob then some 0 else none
  have search := findEmptySlot_clear plan sound (fun n _ => rfl)
  have saved : (smsStoreSave .zero (plan, s)).2.2 = s.countId := by
    have storable : SmsMessage.zero.storable = true := by decide
    have unnamed : SmsMessage.zero.id = 0 := rfl
    simp only [smsStoreSave, storable, unnamed, ↓reduceIte, saveNew, claimSlot, bind, StateT.bind,
      search, free, orError, pure_apply, allocateId_run]
    simp [plan, bind, StateT.bind, writeSlot_run, pure_apply]
  have moved : allocations s s.countId = 1 := by
    simp [allocations, countId, counter_moves s]
  have step := reached.save .zero (Nat.zero_le _) plan
  rw [saved, moved] at step
  exact step

theorem nextOf_ofNat {n : Nat} (below : n + 1 < 2 ^ 32) :
    nextOf (UInt32.ofNat n) = UInt32.ofNat (n + 1) := by
  have sum : UInt32.ofNat n + 1 = UInt32.ofNat (n + 1) := by
    apply UInt32.toNat_inj.mp
    rw [UInt32.toNat_add, UInt32.toNat_ofNat', UInt32.toNat_ofNat']
    simp only [UInt32.reduceToNat]
    omega
  have moved : UInt32.ofNat (n + 1) ≠ 0 := by
    intro zero
    have bound := congrArg UInt32.toNat zero
    simp only [UInt32.toNat_ofNat', UInt32.reduceToNat] at bound
    omega
  rw [nextOf, sum, if_neg moved]

theorem view_withNext (s : Store) (value : UInt32) : (s.withNext value).view = s.view :=
  view_congr rfl

theorem freshId_withNext (s : Store) {value : UInt32} (positive : value ≠ 0) :
    (s.withNext value).freshId = value := by
  simp only [freshId, withNext, positive, ↓reduceIte]

/-- Such saves bring the counter to every later value. -/
theorem Reached.advance {s : Store} {n : Nat} {slot : Slot} {value : UInt32} (sound : s.Sound)
    (free : s.freeSlot = some slot) (positive : value ≠ 0)
    (reached : (s.withNext value).Reached n) (count : Nat)
    (below : value.toNat + count < 2 ^ 32) :
    (s.withNext (UInt32.ofNat (value.toNat + count))).Reached (n + count) := by
  induction count with
  | zero => simpa using reached
  | succ count ih =>
      have step := (ih (by omega)).skip (sound.congr rfl) free
      have nonzero : value.toNat ≠ 0 := by
        intro zero
        exact positive (UInt32.toNat_inj.mp (by simpa using zero))
      have current : UInt32.ofNat (value.toNat + count) ≠ 0 := by
        intro zero
        have size := congrArg UInt32.toNat zero
        simp only [UInt32.toNat_ofNat', UInt32.reduceToNat] at size
        omega
      simp only [countId, freshId_withNext s current,
        nextOf_ofNat (show value.toNat + count + 1 < 2 ^ 32 by omega)] at step
      exact step

end Store

end SmsGateway
