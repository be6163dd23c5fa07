import Mathlib.Data.Nat.Digits.Defs

/-! The order of numerals, most significant digit first: shorter ones are smaller,
equally long ones compare digit by digit. -/

namespace SmsGateway.Lib

def positional (base : Nat) (digits : List Nat) : Nat := Nat.ofDigits base digits.reverse

variable {base : Nat} {as bs : List Nat}

theorem positional_cons (digit : Nat) (digits : List Nat) :
    positional base (digit :: digits) = positional base digits + base ^ digits.length * digit :=
  Nat.ofDigits_reverse_cons digits digit

theorem positional_lt (large : 1 < base) (digits : ∀ digit ∈ as, digit < base) :
    positional base as < base ^ as.length := by
  have bound := @Nat.ofDigits_lt_base_pow_length base as.reverse large
    (fun digit member => digits digit (List.mem_reverse.mp member))
  rwa [List.length_reverse] at bound

theorem compare_positional (large : 1 < base) (digitsA : ∀ digit ∈ as, digit < base)
    (digitsB : ∀ digit ∈ bs, digit < base) (same : as.length = bs.length) :
    compare (positional base as) (positional base bs) = List.compareLex compare as bs := by
  induction as generalizing bs with
  | nil =>
      cases bs with
      | nil => rfl
      | cons b bs => cases same
  | cons a as ih =>
      cases bs with
      | nil => cases same
      | cons b bs =>
          have restA := fun digit member => digitsA digit (List.mem_cons_of_mem _ member)
          have restB := fun digit member => digitsB digit (List.mem_cons_of_mem _ member)
          have lengths : as.length = bs.length := Nat.succ.inj same
          have boundA := positional_lt large restA
          have boundB := positional_lt large restB
          rw [positional_cons, positional_cons, List.compareLex_cons_cons, lengths]
          rw [lengths] at boundA
          rcases Nat.lt_trichotomy a b with less | rfl | greater
          · have step : base ^ bs.length * (a + 1) ≤ base ^ bs.length * b :=
              Nat.mul_le_mul_left _ less
            rw [Nat.compare_eq_lt.mpr less, Ordering.lt_then, Nat.compare_eq_lt]
            rw [Nat.mul_succ] at step
            omega
          · rw [← ih restA restB lengths, Nat.compare_eq_eq.mpr rfl, Ordering.eq_then]
            simp only [Nat.compare_eq_ite_lt]
            simp
          · have step : base ^ bs.length * (b + 1) ≤ base ^ bs.length * a :=
              Nat.mul_le_mul_left _ greater
            rw [Nat.compare_eq_gt.mpr greater, Ordering.gt_then, Nat.compare_eq_gt]
            rw [Nat.mul_succ] at step
            omega

theorem positional_lt_of_shorter (large : 1 < base) (digits : ∀ digit ∈ as, digit < base)
    (leading : bs.head? ≠ some 0) (shorter : as.length < bs.length) :
    positional base as < positional base bs := by
  cases bs with
  | nil => cases shorter
  | cons b bs =>
      have positive : 1 ≤ b := by
        simp only [List.head?_cons, ne_eq, Option.some.injEq] at leading
        omega
      calc positional base as < base ^ as.length := positional_lt large digits
        _ ≤ base ^ bs.length :=
            Nat.pow_le_pow_right (by omega) (Nat.le_of_lt_succ shorter)
        _ ≤ base ^ bs.length * b := Nat.le_mul_of_pos_right _ positive
        _ ≤ positional base (b :: bs) := by
            rw [positional_cons]
            exact Nat.le_add_left _ _

end SmsGateway.Lib
