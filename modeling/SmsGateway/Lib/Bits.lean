import Mathlib.Data.Nat.Bitwise

/-! Bits of a byte buffer, least significant bit of the first byte first. -/

namespace SmsGateway.Lib

def bitAt (bytes : List UInt8) (k : Nat) : Bool := (bytes.getD (k / 8) 0).toNat.testBit (k % 8)

/-- `bytes[i] |= value`. -/
def orAt (bytes : List UInt8) (i : Nat) (value : UInt8) : List UInt8 :=
  bytes.modify i (· ||| value)

@[simp] theorem orAt_length (bytes : List UInt8) (i : Nat) (value : UInt8) :
    (orAt bytes i value).length = bytes.length := by
  simp [orAt]

theorem bitAt_orAt (bytes : List UInt8) {i : Nat} (inside : i < bytes.length) (value : UInt8)
    (k : Nat) :
    bitAt (orAt bytes i value) k =
      (bitAt bytes k || (decide (k / 8 = i) && value.toNat.testBit (k % 8))) := by
  simp only [bitAt, orAt, List.getD_eq_getElem?_getD, List.getElem?_modify]
  by_cases here : i = k / 8
  · subst here
    simp [List.getElem?_eq_getElem inside, Nat.testBit_or]
  · have there : ¬ k / 8 = i := fun same => here same.symm
    simp [here, there]

theorem testBit_byte_of_ge (byte : UInt8) {j : Nat} (large : 8 ≤ j) :
    byte.toNat.testBit j = false := by
  apply Nat.testBit_lt_two_pow
  calc byte.toNat < 2 ^ 8 := byte.toNat_lt
    _ ≤ 2 ^ j := Nat.pow_le_pow_right (by decide) large

theorem byte_eq_of_testBit {a b : UInt8}
    (same : ∀ j < 8, a.toNat.testBit j = b.toNat.testBit j) : a = b := by
  apply UInt8.toNat_inj.mp
  apply Nat.eq_of_testBit_eq
  intro j
  by_cases small : j < 8
  · exact same j small
  · rw [testBit_byte_of_ge a (by omega), testBit_byte_of_ge b (by omega)]

/-- Buffers that agree on the bits of their first bytes agree on these bytes. -/
theorem take_eq_of_bitAt {a b : List UInt8} {n : Nat} (inside : n ≤ a.length)
    (otherInside : n ≤ b.length) (same : ∀ k < 8 * n, bitAt a k = bitAt b k) :
    a.take n = b.take n := by
  apply List.ext_getElem
  · simp only [List.length_take]
    omega
  · intro i ha hb
    simp only [List.length_take] at ha hb
    rw [List.getElem_take, List.getElem_take]
    apply byte_eq_of_testBit
    intro j small
    have bit := same (8 * i + j) (by omega)
    simp only [bitAt, show (8 * i + j) / 8 = i by omega, show (8 * i + j) % 8 = j by omega,
      List.getD_eq_getElem?_getD, List.getElem?_eq_getElem (show i < a.length by omega),
      List.getElem?_eq_getElem (show i < b.length by omega), Option.getD_some] at bit
    exact bit

theorem bitAt_append_zeros {a : List UInt8} (count : Nat) {k : Nat} (outside : 8 * a.length ≤ k) :
    bitAt (a ++ List.replicate count 0) k = false := by
  simp only [bitAt, List.getD_eq_getElem?_getD,
    List.getElem?_append_right (show a.length ≤ k / 8 by omega), List.getElem?_replicate]
  split <;> simp

end SmsGateway.Lib
