import SmsGateway.Codec.Acceptance

/-! What `sms_deliver_decode` keeps of a UCS-2 message. -/

namespace SmsGateway

open Lib

/-- The UTF-16BE text of these characters. -/
def utf16Text (chars : List Char) : List UInt8 := (chars.flatMap charUnits).flatMap unitOctets

namespace DeliverHeader

def hasUdh (header : DeliverHeader) : Bool := decide (header.first &&& 0x40 ≠ 0)

/-- The octets of the user data behind its header. -/
def payload (header : DeliverHeader) : List UInt8 :=
  (header.ud.take header.udl.toNat).drop
    (if header.hasUdh then (header.ud.getD 0 0).toNat + 1 else 0)

/-- The user data is there, and its header can be read. -/
def Complete (header : DeliverHeader) : Prop :=
  header.udl.toNat ≤ header.ud.length ∧ header.udl.toNat ≤ 140 ∧
    ∃ headerBytes concat, decodeHeader header.hasUdh header.udl.toNat header.ud =
      .ok (headerBytes, concat)

end DeliverHeader

theorem decodeHeader_bytes {hasUdh : Bool} {limit headerBytes : Nat} {ud : List UInt8}
    {concat : SmsConcatInfo} (decoded : decodeHeader hasUdh limit ud = .ok (headerBytes, concat)) :
    headerBytes = (if hasUdh then (ud.getD 0 0).toNat + 1 else 0) ∧ headerBytes ≤ limit := by
  unfold decodeHeader at decoded
  cases hasUdh with
  | false =>
      cases decoded
      exact ⟨rfl, Nat.zero_le _⟩
  | true =>
      simp only [Bool.not_true, Bool.false_eq_true, ↓reduceIte] at decoded
      split at decoded
      · cases decoded
      · split at decoded
        · cases decoded
        · rename_i fits
          split at decoded
          · cases decoded
          · split at decoded
            · cases decoded
            · cases decoded
              exact ⟨rfl, Nat.not_lt.mp fits⟩

theorem zero_mem_utf8EncodeChar (c : Char) : 0 ∈ String.utf8EncodeChar c ↔ c.toNat = 0 := by
  obtain ⟨bound, -⟩ := char_isScalar c
  have value : c.val.toNat = c.toNat := rfl
  have high (n : Nat) (positive : 0x80 ≤ n) (small : n < 256) : (0 : UInt8) ≠ UInt8.ofNat n := by
    intro equal
    have same := congrArg UInt8.toNat equal
    rw [UInt8.toNat_ofNat', show (0 : UInt8).toNat = 0 from rfl] at same
    omega
  simp only [String.utf8EncodeChar, value]
  generalize c.toNat = v at bound
  split
  · rename_i small
    rw [List.mem_singleton]
    constructor
    · intro equal
      have same := congrArg UInt8.toNat equal
      rw [UInt8.toNat_ofNat', show (0 : UInt8).toNat = 0 from rfl] at same
      omega
    · rintro rfl
      rfl
  · rename_i large
    refine ⟨fun member => ?_, fun zero => by omega⟩
    split at member
    · simp only [List.mem_cons, List.not_mem_nil, or_false] at member
      rcases member with equal | equal <;> exact absurd equal (high _ (by omega) (by omega))
    · split at member
      · simp only [List.mem_cons, List.not_mem_nil, or_false] at member
        rcases member with equal | equal | equal <;>
          exact absurd equal (high _ (by omega) (by omega))
      · simp only [List.mem_cons, List.not_mem_nil, or_false] at member
        rcases member with equal | equal | equal | equal <;>
          exact absurd equal (high _ (by omega) (by omega))

/-- The character U+0000. -/
def nulChar : Char := Char.ofNat 0

theorem zero_mem_utf8Text (chars : List Char) : 0 ∈ utf8Text chars ↔ nulChar ∈ chars := by
  simp only [utf8Text, List.mem_flatMap, zero_mem_utf8EncodeChar]
  constructor
  · rintro ⟨c, member, zero⟩
    rw [show c = nulChar from Char.toNat_inj.mp zero] at member
    exact member
  · intro member
    exact ⟨nulChar, member, rfl⟩

theorem flatMap_octetsOf (chars : List Char) :
    (chars.map Char.toNat).flatMap octetsOf = utf8Text chars :=
  (utf8Text_reads chars).octets.1.symm

theorem flatMap_unitsOf (chars : List Char) :
    (chars.map Char.toNat).flatMap unitsOf = chars.flatMap charUnits := by
  rw [List.flatMap_map]
  rfl

/-- The loop of the UCS-2 branch reads every character. -/
theorem ucs2DecodeLoop_text (chars : List Char) (short : (utf16Text chars).length ≤ 140) :
    ucs2DecodeLoop 2048 (utf16Text chars) [] = (.ok, utf8Text chars) ∧
      (utf8Text chars).length < 2048 := by
  have scalars : ∀ cp ∈ chars.map Char.toNat, IsScalar cp ∧ utf8Octets cp = some (octetsOf cp) :=
    (utf8Text_reads chars).octets.2
  have coded : ∀ cp ∈ chars.map Char.toNat, IsCode isHighSurrogate (unitsOf cp) := fun cp member =>
    unitsOf_isCode (scalars cp member).1
  have bound := octets_length_le coded
  rw [flatMap_octetsOf, flatMap_unitsOf] at bound
  rw [utf16Text, unitOctets_length] at short
  have size : (utf8Text chars).length < 2048 := by omega
  have room : ([] : List UInt8).length + ((chars.map Char.toNat).flatMap octetsOf).length < 2048 := by
    rw [flatMap_octetsOf, List.length_nil]
    omega
  have decoded := ucs2DecodeLoop_codepoints (fun cp member => (scalars cp member).1)
    (fun cp member => (scalars cp member).2) room
  rw [flatMap_octetsOf, flatMap_unitsOf] at decoded
  exact ⟨decoded, size⟩

section

variable {pduHex : CStr} {octets : List UInt8} {header : DeliverHeader} {chars : List Char}
  (hex : hexDecode pduHex smsMaxPduOctets = .ok octets)
  (read : deliverHeader octets = .ok header) (ucs2 : dcsEncoding header.dcs = .ucs2)
include hex read ucs2

theorem deliver_ucs2 :
    (smsDeliverDecode pduHex).1 =
        (decodeUcs2 header.hasUdh header.udl.toNat header.ud 2048).result ∧
      (smsDeliverDecode pduHex).2.text =
        .ofBytes (decodeUcs2 header.hasUdh header.udl.toNat header.ud 2048).text := by
  simp only [smsDeliverDecode, hex, read, decodeUserData, ucs2, DeliverHeader.hasUdh, and_self]

/-- A message that was decoded was complete. -/
theorem deliver_ucs2_complete (decoded : (smsDeliverDecode pduHex).1 = .ok) : header.Complete := by
  rw [(deliver_ucs2 hex read ucs2).1] at decoded
  simp only [decodeUcs2] at decoded
  split at decoded
  · cases decoded
  · rename_i fits
    split at decoded
    · rename_i result concat stopped
      subst decoded
      exact absurd stopped (decodeHeader_error _ _ _ _)
    · rename_i headerBytes concat parsed
      exact ⟨by omega, by omega, headerBytes, concat, parsed⟩

/-- A complete message is decoded to the text of its characters, as far as the C
string goes. -/
theorem deliver_ucs2_text (well : header.payload = utf16Text chars) (complete : header.Complete) :
    (smsDeliverDecode pduHex).1 = .ok ∧
      (smsDeliverDecode pduHex).2.text = .ofBytes (utf8Text chars) ∧
      (utf8Text chars).length < 2048 := by
  obtain ⟨available, small, headerBytes, concat, parsed⟩ := complete
  obtain ⟨bytes, within⟩ := decodeHeader_bytes parsed
  simp only [DeliverHeader.payload, ← bytes] at well
  have length : (utf16Text chars).length = header.udl.toNat - headerBytes := by
    rw [← well, List.length_drop, List.length_take]
    omega
  have even : (utf16Text chars).length = 2 * (chars.flatMap charUnits).length :=
    unitOctets_length _
  obtain ⟨decoded, size⟩ := ucs2DecodeLoop_text chars (by omega)
  obtain ⟨result, text⟩ := deliver_ucs2 hex read ucs2
  have outcome : decodeUcs2 header.hasUdh header.udl.toNat header.ud 2048 =
      ⟨.ok, .ucs2, concat, utf8Text chars⟩ := by
    simp only [decodeUcs2, show ¬ (header.udl.toNat > header.ud.length ∨ header.udl.toNat > 140)
      by omega, ↓reduceIte, parsed, show ¬ (header.udl.toNat - headerBytes) % 2 ≠ 0 by omega, well,
      decoded]
  rw [result, text, outcome]
  exact ⟨rfl, rfl, size⟩

/-- A UCS-2 message reads back whole if and only if it is refused as incomplete or
has no U+0000, where the output string ends. -/
theorem ucs2_delivery_whole_iff (well : header.payload = utf16Text chars) :
    (((smsDeliverDecode pduHex).1 = .ok →
        Utf8Text (smsDeliverDecode pduHex).2.text.str.bytes (chars.map Char.toNat)) ∧
      (header.Complete → (smsDeliverDecode pduHex).1 = .ok)) ↔
    (header.Complete → nulChar ∉ chars) := by
  constructor
  · rintro ⟨reads, accepts⟩ complete member
    have same := (reads (accepts complete)).octets.1
    rw [flatMap_octetsOf] at same
    apply (smsDeliverDecode pduHex).2.text.str.noNul
    rw [same]
    exact (zero_mem_utf8Text chars).mpr member
  · intro plain
    refine ⟨?_, fun complete => (deliver_ucs2_text hex read ucs2 well complete).1⟩
    intro decoded
    have complete := deliver_ucs2_complete hex read ucs2 decoded
    obtain ⟨-, text, size⟩ := deliver_ucs2_text hex read ucs2 well complete
    have noNul : 0 ∉ utf8Text chars := fun zero =>
      plain complete ((zero_mem_utf8Text chars).mp zero)
    have whole : (CString.ofBytes (utf8Text chars) : CString 2048).str = ⟨utf8Text chars, noNul⟩ :=
      CString.ofBytes_str (s := ⟨utf8Text chars, noNul⟩) size
    rw [text, whole]
    exact utf8Text_reads chars

end

/-- An SMS-DELIVER from `+123` with these UTF-16 octets. -/
def ucs2Deliver (payload : List UInt8) : List UInt8 :=
  [0x00, 0x04, 0x03, 0x91, 0x21, 0xF3, 0x00, 0x08, 0x62, 0x10, 0x10, 0x00, 0x00, 0x00, 0x00,
    UInt8.ofNat payload.length] ++ payload

def ucs2DeliverHeader (payload : List UInt8) : DeliverHeader :=
  ⟨0x04, [0x2B, 0x31, 0x32, 0x33], 0x08, timestampText 2026 1 1 0 0 0 false 0 0,
    UInt8.ofNat payload.length, payload⟩

theorem ucs2_delivery_whole_iff_plain :
    Utf8Text (smsDeliverDecode (pduOf (ucs2Deliver [0x00, 0x41, 0x00, 0x42]))).2.text.str.bytes
      [0x41, 0x42] := by
  have decoded : (smsDeliverDecode (pduOf (ucs2Deliver [0x00, 0x41, 0x00, 0x42]))).1 = .ok := by
    decide +kernel
  have hex : hexDecode (pduOf (ucs2Deliver [0x00, 0x41, 0x00, 0x42])) smsMaxPduOctets =
      .ok (ucs2Deliver [0x00, 0x41, 0x00, 0x42]) := by
    rfl
  have read : deliverHeader (ucs2Deliver [0x00, 0x41, 0x00, 0x42]) =
      .ok (ucs2DeliverHeader [0x00, 0x41, 0x00, 0x42]) := by
    rfl
  exact ((ucs2_delivery_whole_iff hex read (by decide)
    (show _ = utf16Text [Char.ofNat 0x41, Char.ofNat 0x42] by decide)).mpr
      (fun _ => by decide)).1 decoded

/-- A message with the text A, U+0000, B is decoded to the text A. -/
theorem ucs2_delivery_cut :
    ∃ header, deliverHeader (ucs2Deliver (utf16Text [Char.ofNat 0x41, nulChar, Char.ofNat 0x42])) =
        .ok header ∧ header.Complete ∧
      header.payload = utf16Text [Char.ofNat 0x41, nulChar, Char.ofNat 0x42] ∧
      (smsDeliverDecode (pduOf (ucs2Deliver
        (utf16Text [Char.ofNat 0x41, nulChar, Char.ofNat 0x42])))).1 = .ok ∧
      ¬ Utf8Text (smsDeliverDecode (pduOf (ucs2Deliver
        (utf16Text [Char.ofNat 0x41, nulChar, Char.ofNat 0x42])))).2.text.str.bytes
          ([Char.ofNat 0x41, nulChar, Char.ofNat 0x42].map Char.toNat) := by
  refine ⟨ucs2DeliverHeader (utf16Text [Char.ofNat 0x41, nulChar, Char.ofNat 0x42]), rfl,
    ⟨by decide, by decide, 0, .zero, rfl⟩, by decide, by decide +kernel, ?_⟩
  intro reads
  have same := reads.octets.1
  rw [flatMap_octetsOf] at same
  revert same
  decide +kernel

end SmsGateway
