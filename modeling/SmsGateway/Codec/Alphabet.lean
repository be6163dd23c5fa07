import SmsGateway.Codec.TooLong
import SmsGateway.Codec.Unicode

/-! The septets of the default alphabet and its texts stand for each other. -/

namespace SmsGateway

open Lib

/-! ## From texts to septets -/

theorem smsGsm7SeptetCount_iff (text : List UInt8) (n : Nat) :
    smsGsm7SeptetCount text = some n ↔ ∃ chars : List Char, text = utf8Text chars ∧
      (∀ c ∈ chars, InGsm7 c) ∧ n = (chars.flatMap charSeptets).length := by
  constructor
  · intro counted
    obtain ⟨cps, reads, -⟩ := walkUtf8_some counted
    obtain ⟨chars, rfl, -⟩ := utf8Text_iff.mp reads
    rw [smsGsm7SeptetCount, forEachCodepoint_text, septetCount_fold] at counted
    split at counted
    · rename_i inside
      refine ⟨chars, rfl, inside, ?_⟩
      simpa using (Option.some.inj counted).symm
    · cases counted
  · rintro ⟨chars, rfl, inside, rfl⟩
    rw [smsGsm7SeptetCount, forEachCodepoint_text, septetCount_fold, if_pos inside, Nat.zero_add]

theorem smsGsm7Encode_chars {chars : List Char} (inside : ∀ c ∈ chars, InGsm7 c) {capacity : Nat}
    (room : (chars.flatMap charSeptets).length ≤ capacity) :
    smsGsm7Encode (utf8Text chars) capacity = some (chars.flatMap charSeptets) := by
  rw [smsGsm7Encode, forEachCodepoint_text, gsm7Encode_fold capacity inside []]
  · rfl
  · simpa using room

/-- What is encoded was counted and is decoded. -/
theorem smsGsm7Encode_back {text written : List UInt8} {capacity : Nat}
    (encoded : smsGsm7Encode text capacity = some written) :
    smsGsm7SeptetCount text = some written.length ∧
      ∀ utf8Capacity, text.length < utf8Capacity → smsGsm7Decode written utf8Capacity = (true, text) := by
  obtain ⟨cps, reads, rfl, found⟩ := smsGsm7Encode_some encoded
  obtain ⟨joined, scalars⟩ := reads.octets
  obtain ⟨chars, same, rfl⟩ := utf8Text_iff.mp reads
  constructor
  · refine (smsGsm7SeptetCount_iff text _).mpr ⟨chars, same, ?_, by rw [flatMap_septetsOf]⟩
    intro c member
    by_contra outside
    have here := found c.toNat (List.mem_map_of_mem member)
    rw [(gsm7Find_char c).2 outside] at here
    cases here
  · intro utf8Capacity room
    rw [smsGsm7Decode, if_neg (by omega), gsm7DecodeLoop_codepoints found
      (fun cp member => (scalars cp member).2) (by rw [← joined]; simpa using room), ← joined]
    rfl

/-! ## From septets to texts -/

/-- A code point that the alphabet writes as this unit. -/
structure WrittenAs (cp : Nat) (unit : List UInt8) : Prop where
  found : gsm7Find cp = some unit
  scalar : IsScalar cp
  positive : cp ≠ 0

/-- Every septet but the escape is the first one of its code point. -/
theorem gsm7Basic_found : ∀ i < 128, i ≠ 0x1B →
    gsm7Find (gsm7Basic.getD i 0) = some [UInt8.ofNat i] ∧ gsm7Basic.getD i 0 ≠ 0 := by
  decide +kernel

theorem gsm7Extension_found :
    ∀ entry ∈ gsm7Extension, gsm7Find entry.1 = some [0x1B, entry.2] ∧ entry.1 ≠ 0 := by
  decide +kernel

theorem scalar_of_small {cp : Nat} (small : cp < 0xD800) : IsScalar cp := by
  simp only [IsScalar]
  omega

theorem basic_written {septet : UInt8} (small : septet.toNat < 128) (plain : septet ≠ 0x1B) :
    WrittenAs (gsm7Basic.getD (septet &&& 0x7F).toNat 0) [septet] := by
  have index : (septet &&& 0x7F).toNat = septet.toNat := by
    rw [UInt8.toNat_and]
    exact (Nat.and_two_pow_sub_one_eq_mod _ 7).trans (Nat.mod_eq_of_lt small)
  have other : septet.toNat ≠ 0x1B := fun same => plain (UInt8.toNat_inj.mp same)
  obtain ⟨found, positive⟩ := gsm7Basic_found septet.toNat small other
  rw [UInt8.ofNat_toNat] at found
  rw [index]
  exact ⟨found, scalar_of_small (gsm7Basic_small _), positive⟩

theorem extension_written {second : UInt8} {cp : Nat}
    (decoded : gsm7ExtensionDecode second = some cp) : WrittenAs cp [0x1B, second] := by
  have scalar := scalar_of_small (gsm7ExtensionDecode_small decoded)
  obtain ⟨entry, hit, rfl⟩ := Option.map_eq_some_iff.mp decoded
  obtain ⟨found, positive⟩ := gsm7Extension_found entry (List.mem_of_find?_eq_some hit)
  have same : entry.2 = second := by simpa using List.find?_some hit
  rw [same] at found
  exact ⟨found, scalar, positive⟩

/-- What is appended is the octets of the code point. -/
theorem smsUtf8Append_some {cp capacity : Nat} {out after : List UInt8}
    (appended : smsUtf8Append cp capacity out = some after) : after = out ++ octetsOf cp := by
  rw [smsUtf8Append] at appended
  split at appended
  · cases appended
  split at appended
  · cases appended
  · rename_i octets written
    split at appended
    · cases appended
    · cases appended
      rw [octetsOf, written, Option.getD_some]

/-- The septets are those of code points whose text was added to `out`. -/
def Spells (septets out final : List UInt8) : Prop :=
  ∃ cps : List Nat, septets = cps.flatMap septetsOf ∧ final = out ++ cps.flatMap octetsOf ∧
    ∀ cp ∈ cps, WrittenAs cp (septetsOf cp)

theorem Spells.cons {cp capacity : Nat} {unit rest out more final : List UInt8}
    (written : WrittenAs cp unit) (appended : smsUtf8Append cp capacity out = some more)
    (later : Spells rest more final) : Spells (unit ++ rest) out final := by
  obtain ⟨cps, rfl, rfl, all⟩ := later
  have same : septetsOf cp = unit := by rw [septetsOf, written.found, Option.getD_some]
  refine ⟨cp :: cps, by rw [List.flatMap_cons, same], ?_, ?_⟩
  · rw [smsUtf8Append_some appended, List.flatMap_cons, List.append_assoc]
  · rw [List.forall_mem_cons, same]
    exact ⟨written, all⟩

/-- The septets that are accepted are those of code points, whose text they give. -/
theorem gsm7DecodeLoop_true {capacity : Nat} {septets out final : List UInt8}
    (small : ∀ septet ∈ septets, septet.toNat < 128)
    (decoded : gsm7DecodeLoop capacity septets out = (true, final)) :
    Spells septets out final := by
  fun_induction gsm7DecodeLoop capacity septets out with
  | case1 out =>
      cases decoded
      exact ⟨[], rfl, by simp, by simp⟩
  | case2 => cases decoded
  | case3 => cases decoded
  | case4 => cases decoded
  | case5 out second rest cp extension more appended ih =>
      have later := ih (fun septet member => small septet (by simp [member])) decoded
      exact Spells.cons (extension_written extension) appended later
  | case6 => cases decoded
  | case7 septet rest out plain more appended ih =>
      have later := ih (fun septet member => small septet (List.mem_cons_of_mem _ member)) decoded
      exact Spells.cons (basic_written (small septet List.mem_cons_self) plain) appended later

theorem smsGsm7Decode_back {septets out : List UInt8} {utf8Capacity : Nat}
    (small : ∀ septet ∈ septets, septet.toNat < 128)
    (decoded : smsGsm7Decode septets utf8Capacity = (true, out)) :
    0 ∉ out ∧ ∀ capacity, septets.length ≤ capacity → smsGsm7Encode out capacity = some septets := by
  rw [smsGsm7Decode] at decoded
  split at decoded
  · cases decoded
  obtain ⟨cps, rfl, rfl, written⟩ := gsm7DecodeLoop_true small decoded
  rw [List.nil_append]
  obtain ⟨text, same⟩ := utf8Text_scalars fun cp member => (written cp member).scalar
  constructor
  · rw [text, zero_mem_utf8Text, List.mem_map]
    rintro ⟨cp, member, zero⟩
    have value := toNat_ofNat (written cp member).scalar
    rw [zero] at value
    exact (written cp member).positive value.symm
  · intro capacity room
    have reads : Utf8Text (cps.flatMap octetsOf) cps := utf8Text_iff.mpr ⟨_, text, same.symm⟩
    rw [smsGsm7Encode, forEachCodepoint, walkUtf8_text _ reads (Nat.le_refl _)]
    have folded := @gsm7EncodeStep_found capacity cps [] (fun cp member => (written cp member).found)
      (by simpa using room)
    simpa using folded

/-- The count, the encoder and the decoder of the default alphabet agree in both
directions. -/
theorem gsm7_bijection (text : CStr) {septets : List UInt8}
    (small : ∀ septet ∈ septets, septet.toNat < 128) :
    ((smsGsm7SeptetCount text.bytes).isSome ↔
      ∃ enough, ∀ capacity, enough ≤ capacity → (smsGsm7Encode text.bytes capacity).isSome) ∧
    (∀ capacity written, smsGsm7Encode text.bytes capacity = some written →
      smsGsm7SeptetCount text.bytes = some written.length ∧
      ∀ utf8Capacity, text.length < utf8Capacity →
        smsGsm7Decode written utf8Capacity = (true, text.bytes)) ∧
    (∀ n, smsGsm7SeptetCount text.bytes = some n → ∀ capacity, n ≤ capacity →
      (smsGsm7Encode text.bytes capacity).isSome) ∧
    (∀ utf8Capacity out, smsGsm7Decode septets utf8Capacity = (true, out) →
      0 ∉ out ∧ ∀ capacity, septets.length ≤ capacity → smsGsm7Encode out capacity = some septets) := by
  have counted : ∀ n, smsGsm7SeptetCount text.bytes = some n → ∀ capacity, n ≤ capacity →
      (smsGsm7Encode text.bytes capacity).isSome := by
    intro n count capacity room
    obtain ⟨chars, shape, inside, rfl⟩ := (smsGsm7SeptetCount_iff _ _).mp count
    rw [shape, smsGsm7Encode_chars inside room]
    rfl
  refine ⟨⟨?_, ?_⟩, fun capacity written => smsGsm7Encode_back, counted,
    fun utf8Capacity out => smsGsm7Decode_back small⟩
  · intro some
    obtain ⟨n, count⟩ := Option.isSome_iff_exists.mp some
    exact ⟨n, counted n count⟩
  · rintro ⟨enough, encodes⟩
    obtain ⟨written, encoded⟩ := Option.isSome_iff_exists.mp (encodes enough (Nat.le_refl _))
    rw [(smsGsm7Encode_back encoded).1]
    rfl

/-- `a{`: a basic character and an escaped one. -/
theorem gsm7_bijection_escaped :
    (∀ septet ∈ ([0x61, 0x1B, 0x28] : List UInt8), septet.toNat < 128) ∧
    ((smsGsm7SeptetCount (CStr.text "a\x7b").bytes).isSome ↔
      ∃ enough, ∀ capacity, enough ≤ capacity →
        (smsGsm7Encode (CStr.text "a\x7b").bytes capacity).isSome) ∧
    (∀ utf8Capacity out, smsGsm7Decode [0x61, 0x1B, 0x28] utf8Capacity = (true, out) →
      0 ∉ out ∧ ∀ capacity, 3 ≤ capacity → smsGsm7Encode out capacity = some [0x61, 0x1B, 0x28]) := by
  have small : ∀ septet ∈ ([0x61, 0x1B, 0x28] : List UInt8), septet.toNat < 128 := by simp
  have both := gsm7_bijection (.text "a\x7b") small
  exact ⟨small, both.1, both.2.2.2⟩

end SmsGateway
