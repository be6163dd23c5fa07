import Mathlib.Init

/-! Arrays of a fixed size, where an access behind the end is a fault.

The arrays are those of a program that writes a growing value to the front of a
zeroed array. -/

namespace SmsGateway.Lib

/-- An access that the array does not have. -/
structure OutOfBounds where
  index : Nat
  size : Nat
  deriving DecidableEq, Repr

abbrev Access := Except OutOfBounds

variable {α : Type}

def load (array : List α) (index : Nat) : Access α :=
  match array[index]? with
  | some value => .ok value
  | none => .error ⟨index, array.length⟩

def store (array : List α) (index : Nat) (value : α) : Access (List α) :=
  if index < array.length then .ok (array.set index value) else .error ⟨index, array.length⟩

/-- `memcpy(array + index, values, length)`. -/
def storeAll (array : List α) (index : Nat) : List α → Access (List α)
  | [] => .ok array
  | value :: rest =>
      match store array index value with
      | .error fault => .error fault
      | .ok array => storeAll array (index + 1) rest

/-- Values written into the middle of an array. -/
theorem storeAll_inside {array : List α} {index : Nat} {values : List α}
    (inside : index + values.length ≤ array.length) :
    storeAll array index values =
      .ok (array.take index ++ values ++ array.drop (index + values.length)) := by
  induction values generalizing array index with
  | nil => simp [storeAll]
  | cons value rest ih =>
      rw [List.length_cons] at inside
      have here : index < array.length := by omega
      have later := @ih (array.set index value) (index + 1) (by
        rw [List.length_set]
        omega)
      have front : (array.set index value).take (index + 1) = array.take index ++ [value] := by
        rw [List.take_succ_eq_append_getElem (by rwa [List.length_set]), List.take_set_of_le (by omega),
          List.getElem_set_self]
      rw [storeAll, store, if_pos here]
      dsimp only
      rw [later, front, List.drop_set_of_lt (by omega), List.length_cons]
      simp [Nat.add_assoc, Nat.add_comm 1]

theorem load_ok {array : List α} {index : Nat} (inside : index < array.length) (default : α) :
    load array index = .ok (array.getD index default) := by
  simp only [load, List.getElem?_eq_getElem inside, List.getD_eq_getElem?_getD, Option.getD_some]

theorem load_drop {array : List α} {base index : Nat} (inside : base + index < array.length)
    (default : α) : load array (base + index) = .ok ((array.drop base).getD index default) := by
  rw [load_ok inside default, List.getD_eq_getElem?_getD, List.getD_eq_getElem?_getD,
    List.getElem?_drop]

/-! What a loop over a part of an array still has before it. -/

/-- The values from `start` on, up to `stop`. -/
def window (array : List α) (start stop : Nat) : List α := (array.take stop).drop start

theorem window_length {array : List α} {start stop : Nat} (inside : stop ≤ array.length) :
    (window array start stop).length = stop - start := by
  rw [window, List.length_drop, List.length_take]
  omega

theorem load_window {array : List α} {start size index : Nat} (inside : start + size ≤ array.length)
    (below : index < size) (default : α) :
    load array (start + index) = .ok ((window array start (start + size)).getD index default) := by
  have same : (window array start (start + size))[index]? = array[start + index]? := by
    rw [window, List.getElem?_drop, List.getElem?_take_of_lt (by omega)]
  calc load array (start + index)
      = .ok (array.getD (start + index) default) := load_ok (by omega) default
    _ = .ok ((window array start (start + size)).getD index default) := by
        rw [List.getD_eq_getElem?_getD, List.getD_eq_getElem?_getD, same]

theorem window_eq_take (array : List α) (start size : Nat) :
    window array start (start + size) = (array.drop start).take size := by
  rw [window, List.take_drop]

theorem window_nil {array : List α} {start stop : Nat} (ended : stop ≤ start) :
    window array start stop = [] := by
  apply List.drop_of_length_le
  rw [List.length_take]
  omega

theorem window_cons {array : List α} {start stop : Nat} (inside : stop ≤ array.length)
    (more : start < stop) :
    ∃ value, load array start = .ok value ∧
      window array start stop = value :: window array (start + 1) stop := by
  have here : start < array.length := by omega
  refine ⟨array[start], ?_, ?_⟩
  · rw [load, List.getElem?_eq_getElem here]
  · have size : start < (array.take stop).length := by
      rw [List.length_take]
      omega
    rw [window, List.drop_eq_getElem_cons size, List.getElem_take]
    rfl

theorem window_drop (array : List α) (start stop count : Nat) :
    (window array start stop).drop count = window array (start + count) stop := by
  rw [window, window, List.drop_drop]

theorem window_take {array : List α} {start stop count : Nat} (few : start + count ≤ stop) :
    (window array start stop).take count = window array start (start + count) := by
  rw [window, window, List.take_drop, List.take_take, Nat.min_eq_left few]

section

variable [Zero α]

/-- The array of this size that starts with the values and is zero behind them. -/
def padded (size : Nat) (values : List α) : List α :=
  values ++ List.replicate (size - values.length) 0

theorem padded_length {size : Nat} {values : List α} (fits : values.length ≤ size) :
    (padded size values).length = size := by
  rw [padded, List.length_append, List.length_replicate]
  omega

/-- Behind the values the array ends in a zero. -/
theorem padded_zero {size : Nat} {values : List α} (fits : values.length < size) :
    (padded size values)[values.length]? = some 0 := by
  rw [padded, List.getElem?_append_right (Nat.le_refl _), Nat.sub_self,
    List.getElem?_replicate_of_lt (by omega)]

/-- One more value behind the others. -/
theorem store_padded {size : Nat} {values : List α} (value : α) (fits : values.length < size) :
    store (padded size values) values.length value = .ok (padded size (values ++ [value])) := by
  have more : size - values.length = size - (values ++ [value]).length + 1 := by
    rw [List.length_append, List.length_singleton]
    omega
  rw [store, if_pos (by rw [padded_length (Nat.le_of_lt fits)]; exact fits), padded,
    List.set_append_right _ _ (Nat.le_refl _), Nat.sub_self, more, List.replicate_succ,
    List.set_cons_zero, padded, List.append_assoc, List.singleton_append]

theorem storeAll_padded {size : Nat} {values : List α} (more : List α)
    (fits : values.length + more.length ≤ size) :
    storeAll (padded size values) values.length more = .ok (padded size (values ++ more)) := by
  induction more generalizing values with
  | nil => simp [storeAll]
  | cons value more ih =>
      rw [List.length_cons] at fits
      have rest := @ih (values ++ [value]) (by
        rw [List.length_append, List.length_singleton]
        omega)
      rw [List.length_append, List.length_singleton, List.append_assoc,
        List.singleton_append] at rest
      simp only [storeAll, store_padded value (show values.length < size by omega)]
      exact rest

/-- A zero behind the values changes nothing. -/
theorem store_zero {size : Nat} {values : List α} (fits : values.length < size) :
    store (padded size values) values.length 0 = .ok (padded size values) := by
  have more : size - values.length = size - values.length - 1 + 1 := by omega
  rw [store, if_pos (by rw [padded_length (Nat.le_of_lt fits)]; exact fits), padded,
    List.set_append_right _ _ (Nat.le_refl _), Nat.sub_self, more, List.replicate_succ,
    List.set_cons_zero]

end

end SmsGateway.Lib
