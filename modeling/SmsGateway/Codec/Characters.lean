import Mathlib.Data.List.Basic
import SmsGateway.Codec.Gsm7

/-! The texts that `sms_utf8_next` reads are the UTF-8 texts of Unicode characters. -/

namespace SmsGateway

/-- The UTF-8 text of these characters. -/
def utf8Text (chars : List Char) : List UInt8 := chars.flatMap String.utf8EncodeChar

theorem tail_bits : ∀ b < 64, isTail (UInt8.ofNat (b + 0x80)) = true ∧
    tailBits (UInt8.ofNat (b + 0x80)) = b := by
  decide +kernel

theorem lead2_bits : ∀ a < 32, ¬ UInt8.ofNat (a + 0xC0) < 0x80 ∧
    UInt8.ofNat (a + 0xC0) &&& 0xE0 = 0xC0 ∧ (UInt8.ofNat (a + 0xC0) &&& 0x1F).toNat = a := by
  decide +kernel

theorem lead3_bits : ∀ a < 16, ¬ UInt8.ofNat (a + 0xE0) < 0x80 ∧
    UInt8.ofNat (a + 0xE0) &&& 0xE0 ≠ 0xC0 ∧ UInt8.ofNat (a + 0xE0) &&& 0xF0 = 0xE0 ∧
    (UInt8.ofNat (a + 0xE0) &&& 0x0F).toNat = a := by
  decide +kernel

theorem lead4_bits : ∀ a < 8, ¬ UInt8.ofNat (a + 0xF0) < 0x80 ∧
    UInt8.ofNat (a + 0xF0) &&& 0xE0 ≠ 0xC0 ∧ UInt8.ofNat (a + 0xF0) &&& 0xF0 ≠ 0xE0 ∧
    UInt8.ofNat (a + 0xF0) &&& 0xF8 = 0xF0 ∧ (UInt8.ofNat (a + 0xF0) &&& 0x07).toNat = a := by
  decide +kernel

theorem char_isScalar (c : Char) : IsScalar c.toNat := by
  have valid := c.valid
  simp only [UInt32.isValidChar, Nat.isValidChar] at valid
  simp only [IsScalar, Char.toNat]
  omega

theorem toNat_ofNat {cp : Nat} (scalar : IsScalar cp) : (Char.ofNat cp).toNat = cp := by
  have valid : cp.isValidChar := by
    simp only [IsScalar] at scalar
    simp only [Nat.isValidChar]
    omega
  rw [Char.ofNat, dif_pos valid]
  rfl

/-- The cursor moves over one character. -/
theorem smsUtf8Next_char (c : Char) (rest : List UInt8) :
    smsUtf8Next (String.utf8EncodeChar c ++ rest) = some (c.toNat, rest) := by
  obtain ⟨bound, gap⟩ := char_isScalar c
  have value : c.val.toNat = c.toNat := rfl
  simp only [String.utf8EncodeChar, value]
  generalize c.toNat = v at bound gap
  split
  · rename_i small
    have first : UInt8.ofNat v < 0x80 := by
      rw [UInt8.lt_iff_toNat_lt, UInt8.toNat_ofNat']
      have : (0x80 : UInt8).toNat = 128 := rfl
      omega
    have same : (UInt8.ofNat v).toNat = v := by
      rw [UInt8.toNat_ofNat']
      omega
    simp only [List.cons_append, List.nil_append, smsUtf8Next, byteAt, List.isEmpty_cons,
      Bool.false_eq_true, ↓reduceIte, List.getD_cons_zero, first, same, List.drop_succ_cons,
      List.drop_zero]
  · split
    · rename_i large small
      obtain ⟨high, lead, top⟩ := lead2_bits (v / 64 % 0x20) (by omega)
      obtain ⟨tail, low⟩ := tail_bits (v % 0x40) (by omega)
      have joined : v / 64 % 0x20 * 64 + v % 0x40 = v := by omega
      simp only [List.cons_append, List.nil_append, smsUtf8Next, byteAt, List.isEmpty_cons,
        Bool.false_eq_true, ↓reduceIte, List.getD_cons_zero, List.getD_cons_succ, high, lead, top,
        tail, low, Bool.not_true, bits2 _ (show v % 0x40 < 64 by omega), joined,
        show ¬ v < 0x80 by omega, List.drop_succ_cons, List.drop_zero]
    · split
      · rename_i large larger small
        obtain ⟨high, other, lead, top⟩ := lead3_bits (v / 4096 % 0x10) (by omega)
        obtain ⟨tail1, low1⟩ := tail_bits (v / 64 % 0x40) (by omega)
        obtain ⟨tail2, low2⟩ := tail_bits (v % 0x40) (by omega)
        have joined : (v / 4096 % 0x10 * 64 + v / 64 % 0x40) * 64 + v % 0x40 = v := by omega
        simp only [List.cons_append, List.nil_append, smsUtf8Next, byteAt, List.isEmpty_cons,
          Bool.false_eq_true, ↓reduceIte, List.getD_cons_zero, List.getD_cons_succ, high, other,
          lead, top, tail1, low1, tail2, low2, Bool.not_true, Bool.or_self,
          bits3 _ (show v / 64 % 0x40 < 64 by omega) (show v % 0x40 < 64 by omega), joined,
          show ¬ (v < 0x800 ∨ (0xD800 ≤ v ∧ v ≤ 0xDFFF)) by omega, List.drop_succ_cons,
          List.drop_zero]
      · rename_i large larger largest
        obtain ⟨high, other, another, lead, top⟩ := lead4_bits (v / 262144 % 0x08) (by omega)
        obtain ⟨tail1, low1⟩ := tail_bits (v / 4096 % 0x40) (by omega)
        obtain ⟨tail2, low2⟩ := tail_bits (v / 64 % 0x40) (by omega)
        obtain ⟨tail3, low3⟩ := tail_bits (v % 0x40) (by omega)
        have joined : ((v / 262144 % 0x08 * 64 + v / 4096 % 0x40) * 64 + v / 64 % 0x40) * 64 +
            v % 0x40 = v := by omega
        simp only [List.cons_append, List.nil_append, smsUtf8Next, byteAt, List.isEmpty_cons,
          Bool.false_eq_true, ↓reduceIte, List.getD_cons_zero, List.getD_cons_succ, high, other,
          another, lead, top, tail1, low1, tail2, low2, tail3, low3, Bool.not_true, Bool.or_self,
          bits4 _ (show v / 4096 % 0x40 < 64 by omega) (show v / 64 % 0x40 < 64 by omega)
            (show v % 0x40 < 64 by omega), joined,
          show ¬ (v < 0x10000 ∨ v > 0x10FFFF) by omega, List.drop_succ_cons, List.drop_zero]

theorem utf8Text_reads (chars : List Char) : Utf8Text (utf8Text chars) (chars.map Char.toNat) := by
  induction chars with
  | nil => exact .nil
  | cons c chars ih =>
      rw [utf8Text, List.flatMap_cons]
      exact .cons (smsUtf8Next_char c _) ih

theorem octetsOf_char (c : Char) : octetsOf c.toNat = String.utf8EncodeChar c := by
  obtain ⟨octets, written, split, -⟩ := smsUtf8Next_octets (smsUtf8Next_char c [])
  rw [octetsOf, written, Option.getD_some]
  simpa using split.symm

/-- The octets of code points that UTF-8 may carry are their text. -/
theorem utf8Text_scalars {cps : List Nat} (scalars : ∀ cp ∈ cps, IsScalar cp) :
    cps.flatMap octetsOf = utf8Text (cps.map Char.ofNat) ∧
      (cps.map Char.ofNat).map Char.toNat = cps := by
  constructor
  · rw [utf8Text, List.flatMap_map]
    apply List.flatMap_congr
    intro cp member
    rw [← octetsOf_char, toNat_ofNat (scalars cp member)]
  · rw [List.map_map]
    conv_rhs => rw [← List.map_id cps]
    apply List.map_congr_left
    intro cp member
    exact toNat_ofNat (scalars cp member)

/-- The well-formed texts are the texts of characters. -/
theorem utf8Text_iff {text : List UInt8} {cps : List Nat} :
    Utf8Text text cps ↔ ∃ chars : List Char, text = utf8Text chars ∧ cps = chars.map Char.toNat := by
  constructor
  · intro reads
    obtain ⟨joined, scalars⟩ := reads.octets
    obtain ⟨octets, same⟩ := utf8Text_scalars fun cp member => (scalars cp member).1
    exact ⟨cps.map Char.ofNat, joined.trans octets, same.symm⟩
  · rintro ⟨chars, rfl, rfl⟩
    exact utf8Text_reads chars

/-- The loop over the code points of a well-formed text. -/
theorem walkUtf8_text {σ : Type} (step : σ → Nat → Option σ) {text : List UInt8} {cps : List Nat}
    (reads : Utf8Text text cps) {fuel : Nat} (enough : text.length ≤ fuel) (start : σ) :
    walkUtf8 step fuel text start = cps.foldlM step start := by
  induction reads generalizing fuel start with
  | nil => cases fuel <;> rfl
  | @cons text rest cp cps next later ih =>
      obtain ⟨octets, written, rfl, -⟩ := smsUtf8Next_octets next
      have some := (utf8Octets_length written).1
      rw [List.length_append] at enough
      cases fuel with
      | zero => omega
      | succ fuel =>
          have nonempty : (octets ++ rest).isEmpty = false := by
            cases octets with
            | nil => simp at some
            | cons _ _ => rfl
          simp only [walkUtf8, nonempty, Bool.false_eq_true, if_false, next, List.foldlM_cons]
          cases stepped : step start cp with
          | none => rfl
          | some after => exact ih (by omega) after

theorem forEachCodepoint_text {σ : Type} (step : σ → Nat → Option σ) (chars : List Char) (start : σ) :
    forEachCodepoint step (utf8Text chars) start = (chars.map Char.toNat).foldlM step start :=
  walkUtf8_text step (utf8Text_reads chars) (Nat.le_refl _) start

end SmsGateway
