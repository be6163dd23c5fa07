import SmsGateway.Codec.Octets

/-! UTF-8 code points (`sms_utf8_next` and `sms_utf8_append`). -/

namespace SmsGateway

/-- `p[i]` of a NUL-terminated string: the terminator follows the last byte. -/
def byteAt (p : List UInt8) (i : Nat) : UInt8 := p.getD i 0

/-- The low six bits of a continuation octet. -/
def tailBits (octet : UInt8) : Nat := (octet &&& 0x3F).toNat

def isTail (octet : UInt8) : Bool := octet &&& 0xC0 == 0x80

/-- The code point at the cursor and the bytes after it. -/
def smsUtf8Next (p : List UInt8) : Option (Nat × List UInt8) :=
  if p.isEmpty then none
  else if byteAt p 0 < 0x80 then some ((byteAt p 0).toNat, p.drop 1)
  else if byteAt p 0 &&& 0xE0 = 0xC0 then
    if !isTail (byteAt p 1) then none
    else
      let cp := (byteAt p 0 &&& 0x1F).toNat <<< 6 ||| tailBits (byteAt p 1)
      if cp < 0x80 then none else some (cp, p.drop 2)
  else if byteAt p 0 &&& 0xF0 = 0xE0 then
    if !isTail (byteAt p 1) || !isTail (byteAt p 2) then none
    else
      let cp := (byteAt p 0 &&& 0x0F).toNat <<< 12 ||| tailBits (byteAt p 1) <<< 6 |||
        tailBits (byteAt p 2)
      if cp < 0x800 ∨ (0xD800 ≤ cp ∧ cp ≤ 0xDFFF) then none else some (cp, p.drop 3)
  else if byteAt p 0 &&& 0xF8 = 0xF0 then
    if !isTail (byteAt p 1) || !isTail (byteAt p 2) || !isTail (byteAt p 3) then none
    else
      let cp := (byteAt p 0 &&& 0x07).toNat <<< 18 ||| tailBits (byteAt p 1) <<< 12 |||
        tailBits (byteAt p 2) <<< 6 ||| tailBits (byteAt p 3)
      if cp < 0x10000 ∨ cp > 0x10FFFF then none else some (cp, p.drop 4)
  else none

/-- The octets `sms_utf8_append` writes for a code point. -/
def utf8Octets (codepoint : Nat) : Option (List UInt8) :=
  if codepoint ≤ 0x7F then some [UInt8.ofNat codepoint]
  else if codepoint ≤ 0x7FF then
    some [UInt8.ofNat (0xC0 ||| codepoint >>> 6), UInt8.ofNat (0x80 ||| codepoint &&& 0x3F)]
  else if codepoint ≤ 0xFFFF ∧ ¬ (codepoint ≥ 0xD800 ∧ codepoint ≤ 0xDFFF) then
    some [UInt8.ofNat (0xE0 ||| codepoint >>> 12), UInt8.ofNat (0x80 ||| codepoint >>> 6 &&& 0x3F),
      UInt8.ofNat (0x80 ||| codepoint &&& 0x3F)]
  else if codepoint ≤ 0x10FFFF then
    some [UInt8.ofNat (0xF0 ||| codepoint >>> 18), UInt8.ofNat (0x80 ||| codepoint >>> 12 &&& 0x3F),
      UInt8.ofNat (0x80 ||| codepoint >>> 6 &&& 0x3F), UInt8.ofNat (0x80 ||| codepoint &&& 0x3F)]
  else none

/-- The buffer after one more code point; `none` leaves it as it was. -/
def smsUtf8Append (codepoint : Nat) (capacity : Nat) (buffer : List UInt8) :
    Option (List UInt8) :=
  if buffer.length ≥ capacity then none
  else match utf8Octets codepoint with
    | none => none
    | some out => if out.length + buffer.length ≥ capacity then none else some (buffer ++ out)

/-- The code points UTF-8 may carry. -/
def IsScalar (cp : Nat) : Prop := cp ≤ 0x10FFFF ∧ ¬ (0xD800 ≤ cp ∧ cp ≤ 0xDFFF)

theorem tailBits_lt (octet : UInt8) : tailBits octet < 64 := by
  simp only [tailBits, UInt8.toNat_and, UInt8.reduceToNat]
  exact Nat.and_lt_two_pow octet.toNat (show 63 < 2 ^ 6 by decide)

theorem tail_octet (octet : UInt8) :
    isTail octet = true → UInt8.ofNat (0x80 ||| tailBits octet) = octet := by
  revert octet
  apply forall_octet
  decide +kernel

theorem lead2_octet (octet : UInt8) :
    octet &&& 0xE0 = 0xC0 → UInt8.ofNat (0xC0 ||| (octet &&& 0x1F).toNat) = octet := by
  revert octet
  apply forall_octet
  decide +kernel

theorem lead3_octet (octet : UInt8) :
    octet &&& 0xF0 = 0xE0 → UInt8.ofNat (0xE0 ||| (octet &&& 0x0F).toNat) = octet := by
  revert octet
  apply forall_octet
  decide +kernel

theorem lead4_octet (octet : UInt8) :
    octet &&& 0xF8 = 0xF0 → UInt8.ofNat (0xF0 ||| (octet &&& 0x07).toNat) = octet := by
  revert octet
  apply forall_octet
  decide +kernel

/-- A shifted value and the bits below it do not overlap. -/
theorem or_eq_add {low : Nat} (high width : Nat) (small : low < 2 ^ width) :
    high <<< width ||| low = high * 2 ^ width + low := by
  rw [← Nat.shiftLeft_add_eq_or_of_lt small, Nat.shiftLeft_eq]

theorem bits2 (a : Nat) {b : Nat} (hb : b < 64) : a <<< 6 ||| b = a * 64 + b :=
  or_eq_add a 6 hb

theorem bits3 (a : Nat) {b c : Nat} (hb : b < 64) (hc : c < 64) :
    a <<< 12 ||| b <<< 6 ||| c = (a * 64 + b) * 64 + c := by
  have joined : a <<< 12 ||| b <<< 6 = (a * 64 + b) <<< 6 := by
    rw [show a <<< 12 = (a <<< 6) <<< 6 from Nat.shiftLeft_add a 6 6, ← Nat.shiftLeft_or_distrib,
      bits2 a hb]
  rw [joined, bits2 _ hc]

theorem bits4 (a : Nat) {b c d : Nat} (hb : b < 64) (hc : c < 64) (hd : d < 64) :
    a <<< 18 ||| b <<< 12 ||| c <<< 6 ||| d = ((a * 64 + b) * 64 + c) * 64 + d := by
  have joined : a <<< 18 ||| b <<< 12 ||| c <<< 6 = ((a * 64 + b) * 64 + c) <<< 6 := by
    rw [show a <<< 18 = (a <<< 12) <<< 6 from Nat.shiftLeft_add a 12 6,
      show b <<< 12 = (b <<< 6) <<< 6 from Nat.shiftLeft_add b 6 6, ← Nat.shiftLeft_or_distrib,
      ← Nat.shiftLeft_or_distrib, bits3 a hb hc]
  rw [joined, bits2 _ hd]

theorem low6 (n : Nat) : n &&& 0x3F = n % 64 := Nat.and_two_pow_sub_one_eq_mod n 6

theorem utf8Octets_two {a b : Nat} (ha : a < 32) (hb : b < 64) (long : ¬ a * 64 + b < 0x80) :
    utf8Octets (a * 64 + b) = some [UInt8.ofNat (0xC0 ||| a), UInt8.ofNat (0x80 ||| b)] := by
  have high : (a * 64 + b) / 2 ^ 6 = a := by omega
  have low : (a * 64 + b) % 64 = b := by omega
  simp only [utf8Octets, low6, Nat.shiftRight_eq_div_pow, high, low,
    show ¬ a * 64 + b ≤ 0x7F by omega, show a * 64 + b ≤ 0x7FF by omega, ↓reduceIte]

theorem utf8Octets_three {a b c : Nat} (ha : a < 16) (hb : b < 64) (hc : c < 64)
    (long : ¬ ((a * 64 + b) * 64 + c < 0x800 ∨
      (0xD800 ≤ (a * 64 + b) * 64 + c ∧ (a * 64 + b) * 64 + c ≤ 0xDFFF))) :
    utf8Octets ((a * 64 + b) * 64 + c) =
      some [UInt8.ofNat (0xE0 ||| a), UInt8.ofNat (0x80 ||| b), UInt8.ofNat (0x80 ||| c)] := by
  have first : ((a * 64 + b) * 64 + c) / 2 ^ 12 = a := by omega
  have second : ((a * 64 + b) * 64 + c) / 2 ^ 6 % 64 = b := by omega
  have third : ((a * 64 + b) * 64 + c) % 64 = c := by omega
  generalize (a * 64 + b) * 64 + c = cp at *
  simp only [utf8Octets, low6, Nat.shiftRight_eq_div_pow, first, second, third,
    show ¬ cp ≤ 0x7F by omega, show ¬ cp ≤ 0x7FF by omega,
    show cp ≤ 0xFFFF ∧ ¬ (cp ≥ 0xD800 ∧ cp ≤ 0xDFFF) by omega, not_false_eq_true, and_self,
    ↓reduceIte]

theorem utf8Octets_four {a b c d : Nat} (hb : b < 64) (hc : c < 64) (hd : d < 64)
    (long : ¬ (((a * 64 + b) * 64 + c) * 64 + d < 0x10000 ∨
      ((a * 64 + b) * 64 + c) * 64 + d > 0x10FFFF)) :
    utf8Octets (((a * 64 + b) * 64 + c) * 64 + d) =
      some [UInt8.ofNat (0xF0 ||| a), UInt8.ofNat (0x80 ||| b), UInt8.ofNat (0x80 ||| c),
        UInt8.ofNat (0x80 ||| d)] := by
  have first : (((a * 64 + b) * 64 + c) * 64 + d) / 2 ^ 18 = a := by omega
  have second : (((a * 64 + b) * 64 + c) * 64 + d) / 2 ^ 12 % 64 = b := by omega
  have third : (((a * 64 + b) * 64 + c) * 64 + d) / 2 ^ 6 % 64 = c := by omega
  have fourth : (((a * 64 + b) * 64 + c) * 64 + d) % 64 = d := by omega
  generalize ((a * 64 + b) * 64 + c) * 64 + d = cp at *
  simp only [utf8Octets, low6, Nat.shiftRight_eq_div_pow, first, second, third, fourth,
    show ¬ cp ≤ 0x7F by omega, show ¬ cp ≤ 0x7FF by omega,
    show ¬ (cp ≤ 0xFFFF ∧ ¬ (cp ≥ 0xD800 ∧ cp ≤ 0xDFFF)) by omega, show cp ≤ 0x10FFFF by omega,
    ↓reduceIte]

/-- A tail octet is in the string, not its terminator. -/
theorem drop_of_tail {p : List UInt8} {i : Nat} (tail : isTail (byteAt p i) = true) :
    p.drop i = byteAt p i :: p.drop (i + 1) := by
  have inside : i < p.length := by
    by_contra outside
    rw [byteAt, List.getD_eq_getElem?_getD, List.getElem?_eq_none (by omega)] at tail
    exact absurd tail (by decide)
  rw [byteAt, List.getD_eq_getElem?_getD, List.getElem?_eq_getElem inside]
  exact List.drop_eq_getElem_cons inside

theorem drop_of_nonempty {p : List UInt8} (nonempty : ¬ p.isEmpty = true) :
    p = byteAt p 0 :: p.drop 1 := by
  cases p with
  | nil => simp at nonempty
  | cons b p => rfl

/-- What the cursor moved over is what `sms_utf8_append` writes for the code
point. -/
theorem smsUtf8Next_octets {p rest : List UInt8} {cp : Nat}
    (next : smsUtf8Next p = some (cp, rest)) :
    ∃ octets, utf8Octets cp = some octets ∧ p = octets ++ rest ∧ IsScalar cp := by
  unfold smsUtf8Next at next
  split at next
  · cases next
  rename_i nonempty
  have head := drop_of_nonempty nonempty
  have masked (mask : UInt8) (width : Nat) (small : mask.toNat < 2 ^ width) :
      (byteAt p 0 &&& mask).toNat < 2 ^ width := by
    rw [UInt8.toNat_and]
    exact Nat.and_lt_two_pow _ small
  have low1 := tailBits_lt (byteAt p 1)
  have low2 := tailBits_lt (byteAt p 2)
  have low3 := tailBits_lt (byteAt p 3)
  split at next
  · rename_i ascii
    cases next
    have small : (byteAt p 0).toNat ≤ 0x7F := by
      have := UInt8.lt_iff_toNat_lt.mp ascii
      simp only [UInt8.reduceToNat] at this
      omega
    refine ⟨[byteAt p 0], ?_, head, by omega, by omega⟩
    simp [utf8Octets, small]
  split at next
  · rename_i lead
    have bound := masked 0x1F 5 (by decide)
    split at next
    · cases next
    rename_i tail
    simp only [Bool.not_eq_eq_eq_not, Bool.not_true, Bool.not_eq_false] at tail
    simp only [bits2 _ low1] at next
    split at next
    · cases next
    rename_i long
    cases next
    refine ⟨[byteAt p 0, byteAt p 1], ?_, ?_, by omega, by omega⟩
    · rw [utf8Octets_two (by omega) low1 long, lead2_octet _ lead, tail_octet _ tail]
    · exact head.trans (congrArg _ (drop_of_tail tail))
  split at next
  · rename_i lead
    have bound := masked 0x0F 4 (by decide)
    split at next
    · cases next
    rename_i tails
    simp only [Bool.or_eq_true, Bool.not_eq_eq_eq_not, Bool.not_true, not_or,
      Bool.not_eq_false] at tails
    obtain ⟨tail1, tail2⟩ := tails
    simp only [bits3 _ low1 low2] at next
    split at next
    · cases next
    rename_i long
    cases next
    refine ⟨[byteAt p 0, byteAt p 1, byteAt p 2], ?_, ?_, by omega, by omega⟩
    · rw [utf8Octets_three (by omega) low1 low2 long, lead3_octet _ lead, tail_octet _ tail1,
        tail_octet _ tail2]
    · rw [List.cons_append, List.cons_append, List.cons_append, List.nil_append,
        ← drop_of_tail tail2, ← drop_of_tail tail1]
      exact head
  split at next
  · rename_i lead
    split at next
    · cases next
    rename_i tails
    simp only [Bool.or_eq_true, Bool.not_eq_eq_eq_not, Bool.not_true, not_or,
      Bool.not_eq_false] at tails
    obtain ⟨⟨tail1, tail2⟩, tail3⟩ := tails
    simp only [bits4 _ low1 low2 low3] at next
    split at next
    · cases next
    rename_i long
    cases next
    refine ⟨[byteAt p 0, byteAt p 1, byteAt p 2, byteAt p 3], ?_, ?_, by omega, by omega⟩
    · rw [utf8Octets_four low1 low2 low3 long, lead4_octet _ lead, tail_octet _ tail1,
        tail_octet _ tail2, tail_octet _ tail3]
    · rw [List.cons_append, List.cons_append, List.cons_append, List.cons_append, List.nil_append,
        ← drop_of_tail tail3, ← drop_of_tail tail2, ← drop_of_tail tail1]
      exact head
  · cases next

theorem utf8Octets_length {cp : Nat} {octets : List UInt8} (written : utf8Octets cp = some octets) :
    1 ≤ octets.length ∧ octets.length ≤ 4 := by
  unfold utf8Octets at written
  repeat' split at written
  all_goals
    cases written
    try simp

end SmsGateway
