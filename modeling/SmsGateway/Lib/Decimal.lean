import Mathlib.Data.Nat.Digits.Lemmas
import Mathlib.Data.UInt
import Mathlib.Tactic.IntervalCases
import Mathlib.Tactic.Ring
import SmsGateway.Lib.Numerals

/-! The decimal text of a number. -/

namespace SmsGateway.Lib

/-- The digits of a number, most significant first; zero has one. -/
def decimalDigits (n : Nat) : List Nat := if n = 0 then [0] else (Nat.digits 10 n).reverse

/-- The digits in ASCII. -/
def decimalText (n : Nat) : List UInt8 := (decimalDigits n).map fun digit => UInt8.ofNat (0x30 + digit)

theorem positional_decimalDigits (n : Nat) : positional 10 (decimalDigits n) = n := by
  rw [decimalDigits]
  split
  · rename_i zero
    rw [zero]
    rfl
  · rw [positional, List.reverse_reverse]
    exact Nat.ofDigits_digits 10 n

theorem decimalDigits_lt {n digit : Nat} (member : digit ∈ decimalDigits n) : digit < 10 := by
  rw [decimalDigits] at member
  split at member
  · rw [List.mem_singleton.mp member]
    decide
  · exact Nat.digits_lt_base (by decide) (List.mem_reverse.mp member)

theorem decimalDigits_ne_nil (n : Nat) : decimalDigits n ≠ [] := by
  rw [decimalDigits]
  split
  · exact List.cons_ne_nil _ _
  · rename_i some
    rw [ne_eq, List.reverse_eq_nil_iff, Nat.digits_eq_nil_iff_eq_zero]
    exact some

theorem decimalDigits_length {n k : Nat} (positive : 0 < k) (small : n < 10 ^ k) :
    (decimalDigits n).length ≤ k := by
  rw [decimalDigits]
  split
  · exact positive
  · rw [List.length_reverse, Nat.digits_length_le_iff (by decide)]
    exact small

theorem decimalText_ne_nil (n : Nat) : decimalText n ≠ [] :=
  fun empty => decimalDigits_ne_nil n (List.map_eq_nil_iff.mp empty)

theorem decimalText_length {n k : Nat} (positive : 0 < k) (small : n < 10 ^ k) :
    (decimalText n).length ≤ k := by
  rw [decimalText, List.length_map]
  exact decimalDigits_length positive small

/-- Every byte of the text is a digit. -/
theorem decimalText_digit {n : Nat} {ch : UInt8} (member : ch ∈ decimalText n) :
    0x30 ≤ ch ∧ ch ≤ 0x39 := by
  obtain ⟨digit, among, rfl⟩ := List.mem_map.mp member
  have small := decimalDigits_lt among
  interval_cases digit <;> decide

theorem decimalText_values (n : Nat) :
    (decimalText n).map (fun ch => ch.toNat - 0x30) = decimalDigits n := by
  rw [decimalText, List.map_map]
  calc
    _ = (decimalDigits n).map id := by
      apply List.map_congr_left
      intro digit among
      have small := decimalDigits_lt among
      interval_cases digit <;> rfl
    _ = decimalDigits n := List.map_id _

/-- The value, read digit by digit. -/
theorem foldl_digits (digits : List Nat) (value : Nat) :
    digits.foldl (fun n digit => n * 10 + digit) value =
      value * 10 ^ digits.length + positional 10 digits := by
  induction digits generalizing value with
  | nil => simp [positional]
  | cons digit rest ih =>
      rw [List.foldl_cons, ih, positional_cons, List.length_cons]
      ring

theorem foldl_decimalText (n : Nat) :
    (decimalText n).foldl (fun value ch => value * 10 + (ch.toNat - 48)) 0 = n := by
  calc
    _ = (decimalDigits n).foldl (fun value digit => value * 10 + digit) 0 := by
      rw [← decimalText_values, List.foldl_map]
    _ = n := by rw [foldl_digits, Nat.zero_mul, Nat.zero_add, positional_decimalDigits]

end SmsGateway.Lib
