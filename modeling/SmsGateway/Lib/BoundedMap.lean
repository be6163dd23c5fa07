import Mathlib.Data.Set.Card
import Mathlib.Order.Bounds.Basic
import SmsGateway.Lib.Slots

/-! Finite maps of bounded size, and the slot arrays that represent them. -/

namespace SmsGateway.Lib

variable {K V ι : Type}

def keysOf (m : K → Option V) : Set K := {k | m k ≠ none}

/-- The keys whose value may be dropped to make room. -/
def droppableKeys (droppable : V → Prop) (m : K → Option V) : Set K :=
  {k | ∃ value, m k = some value ∧ droppable value}

/-- Insertion under a new key: a map with room grows, a full one first drops its
least droppable key. -/
inductive Inserted [Preorder K] [DecidableEq K] (capacity : Nat) (droppable : V → Prop)
    (m : K → Option V) (key : K) (value : V) : (K → Option V) → Prop where
  | grown (room : (keysOf m).ncard < capacity) :
      Inserted capacity droppable m key value (Function.update m key (some value))
  | dropped {least : K} (full : (keysOf m).ncard = capacity)
      (oldest : IsLeast (droppableKeys droppable m) least) :
      Inserted capacity droppable m key value
        (Function.update (Function.update m least none) key (some value))

/-- A full map in which nothing may be dropped. -/
def Stuck (capacity : Nat) (droppable : V → Prop) (m : K → Option V) : Prop :=
  (keysOf m).ncard = capacity ∧ droppableKeys droppable m = ∅

/-- The slots hold the values of the map, each under its own key. -/
structure Represents (key : V → K) (content : ι → Option V) (m : K → Option V) : Prop where
  distinct : DistinctKeys key content
  lookup : ∀ k value, m k = some value ↔ ∃ slot, content slot = some value ∧ key value = k

namespace Represents

variable {key : V → K} {content : ι → Option V} {m : K → Option V}

theorem empty (key : V → K) : Represents key (fun _ : ι => none) (fun _ => none) := by
  refine ⟨?_, ?_⟩
  · intro first second record other stored
    cases stored
  · simp

variable (represents : Represents key content m)
include represents

theorem value_of_slot {slot : ι} {value : V} (stored : content slot = some value) :
    m (key value) = some value :=
  (represents.lookup _ _).mpr ⟨slot, stored, rfl⟩

theorem absent {k : K} (missing : ∀ slot value, content slot = some value → key value ≠ k) :
    m k = none := by
  cases found : m k with
  | none => rfl
  | some value =>
      obtain ⟨slot, stored, same⟩ := (represents.lookup k value).mp found
      exact absurd same (missing slot value stored)

/-- A map is as large as the number of slots in use. -/
theorem ncard_keysOf : (keysOf m).ncard = {slot | content slot ≠ none}.ncard := by
  symm
  refine Set.ncard_congr (fun slot present =>
    key ((content slot).get (Option.isSome_iff_ne_none.mpr present))) ?_ ?_ ?_
  · intro slot present
    obtain ⟨value, stored⟩ := Option.ne_none_iff_exists'.mp present
    simp [keysOf, stored, represents.value_of_slot stored]
  · intro first second present otherPresent same
    obtain ⟨value, stored⟩ := Option.ne_none_iff_exists'.mp present
    obtain ⟨other, held⟩ := Option.ne_none_iff_exists'.mp otherPresent
    simp only [stored, held, Option.get_some] at same
    exact represents.distinct first second value other stored held same
  · intro k present
    obtain ⟨value, found⟩ := Option.ne_none_iff_exists'.mp present
    obtain ⟨slot, stored, same⟩ := (represents.lookup k value).mp found
    refine ⟨slot, by simp [stored], ?_⟩
    simp [stored, same]

theorem ncard_lt [Finite ι] {slot : ι} (free : content slot = none) :
    (keysOf m).ncard < Nat.card ι := by
  rw [represents.ncard_keysOf]
  apply Set.ncard_lt_card
  intro all
  have used : slot ∈ {slot | content slot ≠ none} := all ▸ Set.mem_univ slot
  exact used free

theorem ncard_full (full : ∀ slot, ∃ value, content slot = some value) :
    (keysOf m).ncard = Nat.card ι := by
  rw [represents.ncard_keysOf, ← Set.ncard_univ]
  congr 1
  ext slot
  obtain ⟨value, stored⟩ := full slot
  simp [stored]

variable [DecidableEq K] [DecidableEq ι]

theorem remove {slot : ι} {value : V} (stored : content slot = some value) :
    Represents key (Function.update content slot none) (Function.update m (key value) none) := by
  refine ⟨represents.distinct.remove slot, ?_⟩
  · intro k other
    rw [Function.update_apply]
    split
    · rename_i same
      simp only [reduceCtorEq, false_iff, not_exists, not_and]
      intro second held otherSame
      rw [Function.update_apply] at held
      split at held
      · cases held
      · rename_i apart
        exact apart (represents.distinct second slot other value held stored
          (otherSame.trans same))
    · rename_i apart
      rw [represents.lookup]
      constructor
      · rintro ⟨second, held, rfl⟩
        refine ⟨second, ?_, rfl⟩
        rw [Function.update_of_ne, held]
        rintro rfl
        rw [stored] at held
        cases held
        exact apart rfl
      · rintro ⟨second, held, rfl⟩
        rw [Function.update_apply] at held
        split at held
        · cases held
        · exact ⟨second, held, rfl⟩

/-- A value goes into a slot of its own key, or into a free slot when no slot
has its key. -/
theorem store {slot : ι} {value : V}
    (alone : ∀ other record, content other = some record → key record = key value → other = slot)
    (place : ∀ record, content slot = some record → key record = key value) :
    Represents key (Function.update content slot (some value))
      (Function.update m (key value) (some value)) := by
  refine ⟨represents.distinct.store alone, ?_⟩
  · intro k other
    rw [Function.update_apply]
    split
    · rename_i same
      constructor
      · rintro ⟨⟩
        exact ⟨slot, by simp, same.symm⟩
      · rintro ⟨second, held, otherSame⟩
        rw [Function.update_apply] at held
        split at held
        · exact held
        · rename_i apart
          exact absurd (alone second other held (otherSame.trans same)) apart
    · rename_i apart
      rw [represents.lookup]
      constructor
      · rintro ⟨second, held, rfl⟩
        refine ⟨second, ?_, rfl⟩
        rw [Function.update_of_ne, held]
        rintro rfl
        exact apart (place other held)
      · rintro ⟨second, held, rfl⟩
        rw [Function.update_apply] at held
        split at held
        · cases held
          exact absurd rfl apart
        · exact ⟨second, held, rfl⟩

end Represents

end SmsGateway.Lib
