import SmsGateway.Codec.Deliver
import SmsGateway.Codec.Submit

/-! Every SMS-SUBMIT that the encoder builds reads back as the message. -/

namespace SmsGateway

open Lib

/-- The fields of an SMS-SUBMIT without service centre and validity period. -/
structure SubmitTpdu where
  first : UInt8
  messageReference : UInt8
  addressLength : UInt8
  addressType : UInt8
  address : List UInt8
  pid : UInt8
  dcs : UInt8
  udl : UInt8
  ud : List UInt8

/-- Reads the octets of a PDU as such an SMS-SUBMIT. -/
def readSubmit : List UInt8 → Option SubmitTpdu
  | 0x00 :: first :: reference :: length :: toa :: rest =>
      match rest.drop ((length.toNat + 1) / 2) with
      | pid :: dcs :: udl :: ud =>
          some ⟨first, reference, length, toa, rest.take ((length.toNat + 1) / 2), pid, dcs, udl, ud⟩
      | _ => none
  | _ => none

theorem putAll_bytes {data : List UInt8} {buffer after : PduBuffer}
    (done : data.foldlM PduBuffer.put buffer = some after) :
    after.bytes = buffer.bytes ++ data := by
  induction data generalizing buffer with
  | nil =>
      cases done
      simp
  | cons octet data ih =>
      rw [List.foldlM_cons] at done
      obtain ⟨next, put, rest⟩ := Option.bind_eq_some_iff.mp done
      rw [ih rest, PduBuffer.put_bytes put]
      simp

theorem addressEncode_bytes {buffer after : PduBuffer} {address : CStr}
    (done : addressEncode buffer address = some after) :
    ∃ digits international, addressValidate address = some (digits, international) ∧
      after.bytes = buffer.bytes ++ UInt8.ofNat digits.length ::
        (if international then 0x91 else 0x81) :: semiOctets digits := by
  obtain ⟨⟨digits, international⟩, valid, done⟩ := Option.bind_eq_some_iff.mp done
  obtain ⟨first, put, done⟩ := Option.bind_eq_some_iff.mp done
  obtain ⟨second, putType, done⟩ := Option.bind_eq_some_iff.mp done
  refine ⟨digits, international, valid, ?_⟩
  rw [putAll_bytes done, PduBuffer.put_bytes putType, PduBuffer.put_bytes put]
  simp

/-- The octets of DCS, UDL and UD. -/
def IsUserData (encoding : SmsEncoding) (udh payload : List UInt8) (dcs udl : UInt8)
    (ud : List UInt8) : Prop :=
  (encoding = .gsm7 ∧ dcs = 0x00 ∧ packSeptets payload udh 140 = some (ud, udl)) ∨
    (encoding = .ucs2 ∧ dcs = 0x08 ∧ udh.length + payload.length ≤ 140 ∧
      udl = UInt8.ofNat (udh.length + payload.length) ∧ ud = udh ++ payload)

theorem putUserData_bytes {pdu after : PduBuffer} {encoding : SmsEncoding}
    {udh payload : List UInt8} (done : putUserData pdu encoding udh payload = some after) :
    ∃ dcs udl ud, IsUserData encoding udh payload dcs udl ud ∧
      after.bytes = pdu.bytes ++ dcs :: udl :: ud := by
  cases encoding with
  | gsm7 =>
      obtain ⟨first, put, done⟩ := Option.bind_eq_some_iff.mp done
      obtain ⟨⟨packed, udl⟩, pack, done⟩ := Option.bind_eq_some_iff.mp done
      obtain ⟨second, putLength, done⟩ := Option.bind_eq_some_iff.mp done
      refine ⟨0x00, udl, packed, .inl ⟨rfl, rfl, pack⟩, ?_⟩
      rw [PduBuffer.append_bytes done, PduBuffer.put_bytes putLength, PduBuffer.put_bytes put]
      simp
  | ucs2 =>
      obtain ⟨first, put, done⟩ := Option.bind_eq_some_iff.mp done
      dsimp only at done
      split at done
      · cases done
      rename_i fits
      obtain ⟨second, putLength, done⟩ := Option.bind_eq_some_iff.mp done
      obtain ⟨third, header, done⟩ := Option.bind_eq_some_iff.mp done
      refine ⟨0x08, _, udh ++ payload, .inr ⟨rfl, rfl, by omega, rfl, rfl⟩, ?_⟩
      have written : third.bytes = second.bytes ++ udh := by
        unfold putUdh at header
        split at header
        · exact PduBuffer.append_bytes header
        · rename_i none
          cases header
          have empty : udh = [] := List.length_eq_zero_iff.mp (by omega)
          rw [empty, List.append_nil]
      rw [PduBuffer.append_bytes done, written, PduBuffer.put_bytes putLength,
        PduBuffer.put_bytes put]
      simp
  | eightBit => cases done
  | unknown => cases done

/-- A PDU that was built reads back field by field. -/
theorem buildSubmitPdu_read {recipient hex : CStr} {encoding : SmsEncoding} {report : Bool}
    {udh payload : List UInt8} {length : Nat}
    (built : buildSubmitPdu recipient encoding report udh payload = some (length, hex)) :
    ∃ octets tpdu, hexDecode hex smsMaxPduOctets = .ok octets ∧ readSubmit octets = some tpdu ∧
      length = octets.length - 1 ∧ tpdu.first = submitFirstOctet report (udh.length > 0) ∧
      addressDecode tpdu.address tpdu.addressLength.toNat tpdu.addressType 24 =
        (true, recipient.bytes) ∧
      IsUserData encoding udh payload tpdu.dcs tpdu.udl tpdu.ud := by
  simp only [buildSubmitPdu, bind, Option.bind_eq_some_iff] at built
  obtain ⟨pdu0, put0, pdu1, put1, pdu2, put2, pdu3, put3, pdu4, put4, pdu5, put5, text, encoded,
    built⟩ := built
  simp only [Option.some.injEq, Prod.mk.injEq] at built
  obtain ⟨rfl, rfl⟩ := built
  obtain ⟨digits, international, valid, addressBytes⟩ := addressEncode_bytes put3
  obtain ⟨dcs, udl, ud, userData, dataBytes⟩ := putUserData_bytes put5
  obtain ⟨-, few, -⟩ := addressValidate_some valid
  have start : pdu0.bytes = [0x00] := by
    rw [PduBuffer.put_bytes put0]
    rfl
  have bytes : pdu5.bytes = 0x00 :: submitFirstOctet report (udh.length > 0) :: 0x00 ::
      UInt8.ofNat digits.length :: (if international then 0x91 else 0x81) ::
        (semiOctets digits ++ 0x00 :: dcs :: udl :: ud) := by
    rw [dataBytes, PduBuffer.put_bytes put4, addressBytes, PduBuffer.put_bytes put2,
      PduBuffer.put_bytes put1, start]
    simp
  have size : (UInt8.ofNat digits.length).toNat = digits.length := by
    rw [UInt8.toNat_ofNat']
    omega
  have front : (digits.length + 1) / 2 = (semiOctets digits).length := (semiOctets_length _).symm
  refine ⟨pdu5.bytes, ⟨submitFirstOctet report (udh.length > 0), 0x00, UInt8.ofNat digits.length,
    if international then 0x91 else 0x81, semiOctets digits, 0x00, dcs, udl, ud⟩,
    hexDecode_hexEncode encoded pdu5.fits, ?_, ?_, rfl, ?_, userData⟩
  · rw [bytes]
    simp only [readSubmit, size, front, List.drop_left, List.take_left]
  · rw [start]
    rfl
  · rw [size]
    have decoded := addressDecode_semiOctets valid [] (show 21 < 24 by decide)
    rw [List.append_nil] at decoded
    exact decoded

theorem submitFirstOctet_udh : ∀ report hasUdh : Bool,
    (decide (submitFirstOctet report hasUdh &&& 0x40 ≠ 0)) = hasUdh := by
  decide

theorem join_reference (reference : UInt16) :
    (reference >>> 8).toUInt8.toUInt16 <<< 8 ||| reference.toUInt8.toUInt16 = reference := by
  have bound := reference.toNat_lt
  apply UInt16.toNat_inj.mp
  simp only [UInt16.toNat_or, UInt16.toNat_shiftLeft, UInt8.toNat_toUInt16, UInt16.toNat_toUInt8,
    UInt16.toNat_shiftRight, UInt16.reduceToNat, Nat.reduceMod, Nat.shiftRight_eq_div_pow]
  rw [Nat.mod_eq_of_lt (show (reference.toNat / 2 ^ 8 % 2 ^ 8) <<< 8 < 2 ^ 16 by
    rw [Nat.shiftLeft_eq]; omega), or_eq_add _ 8 (by omega)]
  omega

theorem narrow_reference {reference : UInt16} (small : reference ≤ 0xFF) :
    reference.toUInt8.toUInt16 = reference := by
  have bound := UInt16.le_iff_toNat_le.mp small
  apply UInt16.toNat_inj.mp
  simp only [UInt8.toNat_toUInt16, UInt16.toNat_toUInt8]
  simp only [UInt16.reduceToNat] at bound
  omega

/-- The concatenation information of part `part` of `total`. -/
def concatOf (reference : UInt16) (total part : UInt8) : SmsConcatInfo :=
  ⟨true, reference > 0xFF, reference, total, part⟩

/-- The decoder accepts the header and reads its fields. -/
theorem concatHeader_parsed (reference : UInt16) {total part : UInt8} (positive : part ≠ 0)
    (within : ¬ part > total) :
    parseConcatUdh (concatHeader reference total part) = (true, concatOf reference total part) ∧
      udhHasNationalLanguageShift (concatHeader reference total part) = false ∧
      (concatHeader reference total part).headD 0 =
        UInt8.ofNat ((concatHeader reference total part).length - 1) := by
  have nonzero : total ≠ 0 := by
    rintro rfl
    apply within
    rw [gt_iff_lt, UInt8.lt_iff_toNat_lt]
    have : part.toNat ≠ 0 := fun zero => positive (UInt8.toNat_inj.mp zero)
    simp only [UInt8.reduceToNat]
    omega
  by_cases small : reference ≤ 0xFF
  · have narrow : ¬ reference > 0xFF := by simpa using small
    simp [concatHeader, small, parseConcatUdh, headerElements, udhElements, concatElement, positive,
      within, nonzero, concatOf, narrow, narrow_reference small, udhHasNationalLanguageShift]
  · have wide : reference > 0xFF := by simpa using small
    have joined : (reference >>> 8 % 256) <<< 8 ||| reference % 256 = reference := by
      simpa using join_reference reference
    simp [concatHeader, small, parseConcatUdh, headerElements, udhElements, concatElement, positive,
      within, nonzero, concatOf, wide, joined, udhHasNationalLanguageShift]

/-- A header that the encoder may put in front: none, or that of a part. -/
inductive IsHeader : List UInt8 → SmsConcatInfo → Prop where
  | none : IsHeader [] .zero
  | part (reference : UInt16) {total part : UInt8} (positive : part ≠ 0)
      (within : ¬ part > total) :
      IsHeader (concatHeader reference total part) (concatOf reference total part)

theorem concatHeader_length (reference : UInt16) (total part : UInt8) :
    (concatHeader reference total part).length = concatHeaderLength reference := by
  simp only [concatHeaderLength, concatHeader]
  split <;> rfl

theorem concatHeaderLength_eq (reference : UInt16) :
    concatHeaderLength reference = if reference ≤ 0xFF then 6 else 7 := by
  simp only [concatHeaderLength, concatHeader]
  split <;> rfl

theorem concatHeaderLength_cases (reference : UInt16) :
    concatHeaderLength reference = 6 ∨ concatHeaderLength reference = 7 := by
  rw [concatHeaderLength_eq]
  split
  · exact .inl rfl
  · exact .inr rfl

/-- `decode_user_data` finds the header that was put in front of the user data. -/
theorem decodeHeader_isHeader {udh ud : List UInt8} {concat : SmsConcatInfo} {limit : Nat}
    (header : IsHeader udh concat) (front : ud.take udh.length = udh) (room : udh.length ≤ limit) :
    decodeHeader (udh.length > 0) limit ud = .ok (udh.length, concat) := by
  cases header with
  | none => simp [decodeHeader]
  | part reference positive within =>
      rename_i total part
      obtain ⟨parsed, plain, first⟩ := concatHeader_parsed reference positive within
      have length := concatHeader_length reference total part
      have size := concatHeaderLength_cases reference
      have nonempty : 0 < (concatHeader reference total part).length := by omega
      have octet : (ud.getD 0 0).toNat + 1 = (concatHeader reference total part).length := by
        have same : ud.getD 0 0 = (concatHeader reference total part).headD 0 := by
          rw [← front]
          cases ud with
          | nil =>
              rw [List.take_nil] at front
              rw [← front] at nonempty
              simp at nonempty
          | cons octet ud => rw [List.take_cons (by omega)]; rfl
        rw [same, first, UInt8.toNat_ofNat']
        omega
      simp only [decodeHeader, nonempty, gt_iff_lt, decide_true, Bool.not_true, Bool.false_eq_true,
        ↓reduceIte, show ¬ limit = 0 by omega, octet, Nat.not_lt.mpr room, front, parsed, plain]

/-- The UTF-16 code units of a code point. -/
def unitsOf (cp : Nat) : List Nat :=
  if cp ≤ 0xFFFF then [cp]
  else [0xD800 ||| (cp - 0x10000) >>> 10, 0xDC00 ||| (cp - 0x10000) &&& 0x03FF]

theorem surrogates {cp : Nat} (large : ¬ cp ≤ 0xFFFF) (scalar : IsScalar cp) :
    0xD800 ||| (cp - 0x10000) >>> 10 = 0xD800 + (cp - 0x10000) / 1024 ∧
      0xDC00 ||| (cp - 0x10000) &&& 0x03FF = 0xDC00 + (cp - 0x10000) % 1024 := by
  obtain ⟨bound, -⟩ := scalar
  constructor
  · calc 0xD800 ||| (cp - 0x10000) >>> 10
        = 54 <<< 10 ||| (cp - 0x10000) / 2 ^ 10 :=
          congrArg (0xD800 ||| ·) (Nat.shiftRight_eq_div_pow _ 10)
      _ = 54 * 2 ^ 10 + (cp - 0x10000) / 2 ^ 10 := or_eq_add 54 10 (by omega)
  · calc 0xDC00 ||| (cp - 0x10000) &&& 0x03FF
        = 55 <<< 10 ||| (cp - 0x10000) % 2 ^ 10 :=
          congrArg (0xDC00 ||| ·) (Nat.and_two_pow_sub_one_eq_mod _ 10)
      _ = 55 * 2 ^ 10 + (cp - 0x10000) % 2 ^ 10 := or_eq_add 55 10 (by omega)

theorem unitsOf_isCode {cp : Nat} (scalar : IsScalar cp) : IsCode isHighSurrogate (unitsOf cp) := by
  simp only [unitsOf]
  split
  · refine .single ?_
    simp only [isHighSurrogate, decide_eq_false_iff_not]
    have := scalar.2
    omega
  · rename_i large
    obtain ⟨high, low⟩ := surrogates large scalar
    have bound := scalar.1
    rw [high, low]
    refine .pair ?_ ?_
    · simp only [isHighSurrogate, decide_eq_true_eq]
      omega
    · simp only [isHighSurrogate, decide_eq_false_iff_not]
      omega

theorem join_unit {unit : Nat} (small : unit < 65536) :
    (UInt8.ofNat (unit >>> 8)).toNat <<< 8 ||| (UInt8.ofNat unit).toNat = unit := by
  rw [UInt8.toNat_ofNat', UInt8.toNat_ofNat', or_eq_add _ 8 (by omega), Nat.shiftRight_eq_div_pow]
  omega

/-- The decoder reads back the code units of one code point. -/
theorem ucs2DecodeLoop_codepoint {cp capacity : Nat} {rest out : List UInt8} (scalar : IsScalar cp)
    (written : utf8Octets cp = some (octetsOf cp))
    (room : out.length + (octetsOf cp).length < capacity) :
    ucs2DecodeLoop capacity ((unitsOf cp).flatMap unitOctets ++ rest) out =
      ucs2DecodeLoop capacity rest (out ++ octetsOf cp) := by
  have appended := smsUtf8Append_octets written room
  obtain ⟨bound, plain⟩ := scalar
  by_cases small : cp ≤ 0xFFFF
  · have joined := join_unit (show cp < 65536 by omega)
    simp only [unitsOf, small, ↓reduceIte, List.flatMap_cons, List.flatMap_nil, List.append_nil,
      unitOctets, List.cons_append, List.nil_append]
    rw [ucs2DecodeLoop.eq_def]
    simp only [joined, show ¬ (0xD800 ≤ cp ∧ cp ≤ 0xDBFF) by omega,
      show ¬ (0xDC00 ≤ cp ∧ cp ≤ 0xDFFF) by omega, ↓reduceIte, appended]
  · obtain ⟨high, low⟩ := surrogates small ⟨bound, plain⟩
    have highJoined := join_unit (show 0xD800 + (cp - 0x10000) / 1024 < 65536 by omega)
    have lowJoined := join_unit (show 0xDC00 + (cp - 0x10000) % 1024 < 65536 by omega)
    have back : 0x10000 + (0xD800 + (cp - 0x10000) / 1024 - 0xD800) <<< 10 +
        (0xDC00 + (cp - 0x10000) % 1024 - 0xDC00) = cp := by
      rw [Nat.shiftLeft_eq]
      omega
    simp only [unitsOf, small, ↓reduceIte, List.flatMap_cons, List.flatMap_nil, List.append_nil,
      unitOctets, List.cons_append, List.nil_append, high, low]
    rw [ucs2DecodeLoop.eq_def]
    simp only [highJoined, lowJoined, back,
      show 0xD800 ≤ 0xD800 + (cp - 0x10000) / 1024 ∧
        0xD800 + (cp - 0x10000) / 1024 ≤ 0xDBFF by omega,
      show ¬ (0xDC00 + (cp - 0x10000) % 1024 < 0xDC00 ∨
        0xDC00 + (cp - 0x10000) % 1024 > 0xDFFF) by omega, and_self, ↓reduceIte, appended]

theorem ucs2DecodeLoop_codepoints {capacity : Nat} {cps : List Nat} {out : List UInt8}
    (scalars : ∀ cp ∈ cps, IsScalar cp)
    (written : ∀ cp ∈ cps, utf8Octets cp = some (octetsOf cp))
    (room : out.length + (cps.flatMap octetsOf).length < capacity) :
    ucs2DecodeLoop capacity ((cps.flatMap unitsOf).flatMap unitOctets) out =
      (.ok, out ++ cps.flatMap octetsOf) := by
  induction cps generalizing out with
  | nil => simp [ucs2DecodeLoop]
  | cons cp cps ih =>
      simp only [List.flatMap_cons, List.flatMap_append, List.length_append] at room ⊢
      rw [ucs2DecodeLoop_codepoint (scalars cp List.mem_cons_self) (written cp List.mem_cons_self)
        (by omega), ih (fun cp member => scalars cp (List.mem_cons_of_mem _ member))
        (fun cp member => written cp (List.mem_cons_of_mem _ member))
        (by simp only [List.length_append]; omega), List.append_assoc]

theorem ucs2EncodeStep_fold {capacity : Nat} {cps out units : List Nat}
    (folded : cps.foldlM (ucs2EncodeStep capacity) out = some units) :
    units = out ++ cps.flatMap unitsOf := by
  induction cps generalizing out with
  | nil =>
      cases folded
      simp
  | cons cp cps ih =>
      rw [List.foldlM_cons] at folded
      obtain ⟨next, step, folded⟩ := Option.bind_eq_some_iff.mp folded
      have appended : next = out ++ unitsOf cp := by
        simp only [ucs2EncodeStep] at step
        split at step
        · rename_i small
          split at step
          · cases step
          · cases step
            simp [unitsOf, small]
        · rename_i large
          split at step
          · cases step
          · cases step
            simp [unitsOf, large]
      rw [ih folded, appended, List.flatMap_cons, List.append_assoc]

theorem unitOctets_length (units : List Nat) :
    (units.flatMap unitOctets).length = 2 * units.length := by
  induction units with
  | nil => rfl
  | cons unit units ih =>
      simp only [List.flatMap_cons, List.length_append, ih, unitOctets, List.length_cons,
        List.length_nil]
      omega

section

variable {cps : List Nat} {udh ud : List UInt8} {udl : UInt8} {concat : SmsConcatInfo}
  (written : ∀ cp ∈ cps, utf8Octets cp = some (octetsOf cp)) (header : IsHeader udh concat)
include written header

/-- The user data of a group of GSM 03.38 characters reads back as their text. -/
theorem decodeUserData_gsm7 (report : Bool) (found : ∀ cp ∈ cps, gsm7Find cp = some (septetsOf cp))
    (fits : udhSeptets udh.length + (cps.flatMap septetsOf).length ≤ 160)
    (packed : packSeptets (cps.flatMap septetsOf) udh 140 = some (ud, udl)) :
    decodeUserData (submitFirstOctet report (udh.length > 0)) 0x00 udl ud 2048 =
      ⟨.ok, .gsm7, concat, cps.flatMap octetsOf⟩ := by
  have small : ∀ septet ∈ cps.flatMap septetsOf, septet.toNat < 128 := by
    intro septet member
    obtain ⟨cp, cpMember, inside⟩ := List.mem_flatMap.mp member
    exact gsm7Find_small (found cp cpMember) septet inside
  obtain ⟨length, count, front, unpacked⟩ := packSeptets_some small packed
  have bits := udhSeptets_bits udh.length
  have size : (udl.toNat * 7 + 7) / 8 = ud.length := by rw [count, length]
  have header : decodeHeader (udh.length > 0) ud.length ud = .ok (udh.length, concat) :=
    decodeHeader_isHeader header front (by omega)
  have hseptets : (if decide (udh.length > 0) = true then headerSeptets udh.length else 0) =
      udhSeptets udh.length := by simp [udhSeptets]
  have coded : ∀ cp ∈ cps, IsCode isEscape (septetsOf cp) := fun cp member =>
    gsm7Find_isCode (found cp member)
  have bound := octets_length_le coded
  have decoded : gsm7DecodeLoop 2048 (cps.flatMap septetsOf) [] =
      (true, [] ++ cps.flatMap octetsOf) :=
    gsm7DecodeLoop_codepoints found written (by simp only [List.length_nil]; omega)
  have encoding : dcsEncoding 0x00 = .gsm7 := by decide
  simp only [decodeUserData, encoding, submitFirstOctet_udh, decodeGsm7, size, header, hseptets,
    show ¬ (ud.length > ud.length ∨ udl.toNat > 160) by omega, ↓reduceIte,
    show ¬ udhSeptets udh.length > udl.toNat by omega, List.take_length,
    show udl.toNat - udhSeptets udh.length = (cps.flatMap septetsOf).length by omega, unpacked,
    smsGsm7Decode, decoded, List.nil_append]
  rfl

/-- The user data of a group of UTF-16 characters reads back as their text. -/
theorem decodeUserData_ucs2 (report : Bool) (scalars : ∀ cp ∈ cps, IsScalar cp)
    (fits : udh.length + ((cps.flatMap unitsOf).flatMap unitOctets).length ≤ 140)
    (length : udl = UInt8.ofNat (udh.length + ((cps.flatMap unitsOf).flatMap unitOctets).length))
    (data : ud = udh ++ (cps.flatMap unitsOf).flatMap unitOctets) :
    decodeUserData (submitFirstOctet report (udh.length > 0)) 0x08 udl ud 2048 =
      ⟨.ok, .ucs2, concat, cps.flatMap octetsOf⟩ := by
  have size : udl.toNat = ud.length := by
    rw [length, data, UInt8.toNat_ofNat', List.length_append]
    omega
  have octets := unitOctets_length (cps.flatMap unitsOf)
  have total : ud.length = udh.length + ((cps.flatMap unitsOf).flatMap unitOctets).length := by
    rw [data, List.length_append]
  have header : decodeHeader (udh.length > 0) ud.length ud = .ok (udh.length, concat) := by
    refine decodeHeader_isHeader header ?_ (by omega)
    rw [data, List.take_left]
  have coded : ∀ cp ∈ cps, IsCode isHighSurrogate (unitsOf cp) := fun cp member =>
    unitsOf_isCode (scalars cp member)
  have bound := octets_length_le coded
  have decoded : ucs2DecodeLoop 2048 ((cps.flatMap unitsOf).flatMap unitOctets) [] =
      (.ok, [] ++ cps.flatMap octetsOf) :=
    ucs2DecodeLoop_codepoints scalars written (by simp only [List.length_nil]; omega)
  have encoding : dcsEncoding 0x08 = .ucs2 := by decide
  simp only [decodeUserData, encoding, submitFirstOctet_udh, decodeUcs2, size, header,
    show ¬ (ud.length > ud.length ∨ ud.length > 140) by omega, ↓reduceIte,
    show ¬ (ud.length - udh.length) % 2 ≠ 0 by omega, List.take_length]
  rw [data, List.drop_left, decoded, List.nil_append]

end

/-- A segment reads back as an SMS-SUBMIT to the recipient with this
concatenation information and text. -/
def ReadsBack (recipient : CStr) (segment : SmsSubmitSegment) (concat : SmsConcatInfo)
    (text : List UInt8) : Prop :=
  ∃ octets tpdu, hexDecode segment.pduHex smsMaxPduOctets = .ok octets ∧
    readSubmit octets = some tpdu ∧ segment.tpduLengthOctets = octets.length - 1 ∧
    addressDecode tpdu.address tpdu.addressLength.toNat tpdu.addressType 24 =
      (true, recipient.bytes) ∧
    decodeUserData tpdu.first tpdu.dcs tpdu.udl tpdu.ud 2048 =
      ⟨.ok, segment.encoding, concat, text⟩

/-- How the payload of a group of characters is coded, and that it fits. -/
inductive CodedGroup (udhLen : Nat) (cps : List Nat) : SmsEncoding → List UInt8 → Prop where
  | gsm7 (found : ∀ cp ∈ cps, gsm7Find cp = some (septetsOf cp))
      (fits : udhSeptets udhLen + (cps.flatMap septetsOf).length ≤ 160) :
      CodedGroup udhLen cps .gsm7 (cps.flatMap septetsOf)
  | ucs2 (scalars : ∀ cp ∈ cps, IsScalar cp) :
      CodedGroup udhLen cps .ucs2 ((cps.flatMap unitsOf).flatMap unitOctets)

theorem buildSubmitPdu_readsBack {recipient hex : CStr} {encoding : SmsEncoding} {report : Bool}
    {udh payload : List UInt8} {length : Nat} {cps : List Nat} {concat : SmsConcatInfo}
    {segment : SmsSubmitSegment}
    (built : buildSubmitPdu recipient encoding report udh payload = some (length, hex))
    (same : segment.encoding = encoding ∧ segment.tpduLengthOctets = length ∧ segment.pduHex = hex)
    (written : ∀ cp ∈ cps, utf8Octets cp = some (octetsOf cp)) (header : IsHeader udh concat)
    (coded : CodedGroup udh.length cps encoding payload) :
    ReadsBack recipient segment concat (cps.flatMap octetsOf) := by
  obtain ⟨octets, tpdu, decoded, read, size, first, address, data⟩ := buildSubmitPdu_read built
  obtain ⟨kind, rfl, rfl⟩ := same
  refine ⟨octets, tpdu, decoded, read, size, address, ?_⟩
  rw [first, kind]
  cases coded with
  | gsm7 found fits =>
      rcases data with ⟨-, dcs, packed⟩ | ⟨wrong, -⟩
      · rw [dcs]
        exact decodeUserData_gsm7 written header report found fits packed
      · cases wrong
  | ucs2 scalars =>
      rcases data with ⟨wrong, -⟩ | ⟨-, dcs, room, udl, ud⟩
      · cases wrong
      · rw [dcs]
        exact decodeUserData_ucs2 written header report scalars room udl ud

theorem buildSingle_readsBack {recipient : CStr} {encoding : SmsEncoding} {report : Bool}
    {payload : List UInt8} {cps : List Nat} {segments : List SmsSubmitSegment}
    (built : buildSingle recipient encoding report payload = some segments)
    (written : ∀ cp ∈ cps, utf8Octets cp = some (octetsOf cp))
    (coded : CodedGroup 0 cps encoding payload) :
    ∃ segment, segments = [segment] ∧
      ReadsBack recipient segment .zero (cps.flatMap octetsOf) := by
  obtain ⟨⟨length, hex⟩, pdu, built⟩ := Option.bind_eq_some_iff.mp built
  cases built
  exact ⟨_, rfl, buildSubmitPdu_readsBack pdu ⟨rfl, rfl, rfl⟩ written .none coded⟩

theorem buildPart_readsBack {recipient : CStr} {encoding : SmsEncoding} {report : Bool}
    {reference : UInt16} {parts number : Nat} {payload : List UInt8} {cps : List Nat}
    {segment : SmsSubmitSegment} (few : parts ≤ 255) (positive : 1 ≤ number)
    (within : number ≤ parts)
    (built : buildPart recipient encoding report reference parts payload number = some segment)
    (written : ∀ cp ∈ cps, utf8Octets cp = some (octetsOf cp))
    (coded : CodedGroup (concatHeaderLength reference) cps encoding payload) :
    ReadsBack recipient segment (concatOf reference (UInt8.ofNat parts) (UInt8.ofNat number))
      (cps.flatMap octetsOf) := by
  simp only [buildPart, bind, Option.bind_eq_some_iff] at built
  obtain ⟨⟨length, hex⟩, pdu, built⟩ := built
  cases built
  have header : IsHeader (concatHeader reference (UInt8.ofNat parts) (UInt8.ofNat number))
      (concatOf reference (UInt8.ofNat parts) (UInt8.ofNat number)) := by
    refine .part reference ?_ ?_
    · intro zero
      have value := congrArg UInt8.toNat zero
      rw [UInt8.toNat_ofNat'] at value
      simp only [UInt8.reduceToNat] at value
      omega
    · rw [gt_iff_lt, UInt8.lt_iff_toNat_lt, UInt8.toNat_ofNat', UInt8.toNat_ofNat']
      omega
  refine buildSubmitPdu_readsBack pdu ⟨rfl, rfl, rfl⟩ written header ?_
  rw [concatHeader_length]
  exact coded

/-- The parts of a long message read back one by one. -/
theorem buildParts_readBack {recipient : CStr} {encoding : SmsEncoding} {report : Bool}
    {reference : UInt16} {parts number : Nat} {groups : List (List Nat)}
    {payload : List Nat → List UInt8} {segments : List SmsSubmitSegment} (few : parts ≤ 255)
    (positive : 1 ≤ number) (within : number + groups.length ≤ parts + 1)
    (built : buildParts recipient encoding report reference parts (groups.map payload) number =
      some segments)
    (written : ∀ group ∈ groups, ∀ cp ∈ group, utf8Octets cp = some (octetsOf cp))
    (coded : ∀ group ∈ groups,
      CodedGroup (concatHeaderLength reference) group encoding (payload group)) :
    segments.length = groups.length ∧
      ∀ i (inside : i < segments.length), ∃ group, groups[i]? = some group ∧
        ReadsBack recipient segments[i]
          (concatOf reference (UInt8.ofNat parts) (UInt8.ofNat (number + i)))
          (group.flatMap octetsOf) := by
  induction groups generalizing number segments with
  | nil =>
      cases built
      simp
  | cons group groups ih =>
      simp only [List.length_cons] at within
      simp only [List.map_cons, buildParts, bind, Option.bind_eq_some_iff] at built
      obtain ⟨segment, part, later, rest, built⟩ := built
      cases built
      obtain ⟨length, each⟩ := ih (by omega) (by omega) rest
        (fun group member => written group (List.mem_cons_of_mem _ member))
        (fun group member => coded group (List.mem_cons_of_mem _ member))
      refine ⟨by simp [length], ?_⟩
      intro i inside
      cases i with
      | zero =>
          refine ⟨group, rfl, ?_⟩
          exact buildPart_readsBack few positive (by omega) part (written group List.mem_cons_self)
            (coded group List.mem_cons_self)
      | succ i =>
          obtain ⟨other, found, reads⟩ := each i (by simpa using inside)
          refine ⟨other, by simpa using found, ?_⟩
          rw [show number + (i + 1) = number + 1 + i by omega]
          exact reads

/-- Every segment of the list reads back, with the texts of the message in order. -/
def RoundTrips (recipient text : CStr) (reference : UInt16) (segments : List SmsSubmitSegment) :
    Prop :=
  segments.length ≤ smsMaxSegments ∧
    ∃ texts : List (List UInt8), texts.length = segments.length ∧ texts.flatten = text.bytes ∧
      ∀ i (inside : i < segments.length), ∃ part, texts[i]? = some part ∧
        ReadsBack recipient segments[i]
          (if segments.length = 1 then .zero
          else concatOf reference (UInt8.ofNat segments.length) (UInt8.ofNat (i + 1))) part

theorem buildSingle_roundTrips {recipient text : CStr} {reference : UInt16} {encoding : SmsEncoding}
    {report : Bool} {payload : List UInt8} {cps : List Nat} {segments : List SmsSubmitSegment}
    (wellFormed : Utf8Text text.bytes cps) (coded : CodedGroup 0 cps encoding payload)
    (built : buildSingle recipient encoding report payload = some segments) :
    RoundTrips recipient text reference segments := by
  obtain ⟨octets, scalars⟩ := wellFormed.octets
  obtain ⟨segment, rfl, reads⟩ :=
    buildSingle_readsBack built (fun cp member => (scalars cp member).2) coded
  refine ⟨by simp [smsMaxSegments], [cps.flatMap octetsOf], rfl, ?_, ?_⟩
  · rw [List.flatten_singleton, octets]
  · intro i inside
    simp only [List.length_singleton, Nat.lt_one_iff] at inside
    subst inside
    exact ⟨_, rfl, reads⟩

theorem buildParts_roundTrips {recipient text : CStr} {reference : UInt16} {encoding : SmsEncoding}
    {report : Bool} {groups : List (List Nat)} {payload : List Nat → List UInt8}
    {segments : List SmsSubmitSegment} (wellFormed : Utf8Text text.bytes groups.flatten)
    (several : 2 ≤ groups.length) (few : groups.length ≤ smsMaxSegments)
    (coded : ∀ group ∈ groups,
      CodedGroup (concatHeaderLength reference) group encoding (payload group))
    (built : buildParts recipient encoding report reference groups.length (groups.map payload) 1 =
      some segments) :
    RoundTrips recipient text reference segments := by
  obtain ⟨octets, scalars⟩ := wellFormed.octets
  simp only [smsMaxSegments] at few
  obtain ⟨length, each⟩ := buildParts_readBack (show groups.length ≤ 255 by omega)
    (Nat.le_refl 1) (by omega) built
    (fun group member cp inside => (scalars cp (List.mem_flatten_of_mem member inside)).2) coded
  refine ⟨by rw [length]; exact few, groups.map (List.flatMap octetsOf), by simp [length], ?_, ?_⟩
  · rw [octets, List.flatMap_def, List.map_flatten, List.flatten_flatten, List.map_map]
    rfl
  · intro i inside
    obtain ⟨group, found, reads⟩ := each i inside
    refine ⟨group.flatMap octetsOf, by simp [found], ?_⟩
    rw [if_neg (by omega), length, Nat.add_comm i 1]
    exact reads

theorem spanUnits_length {α : Type} (units : List α) (span : Nat × Nat) :
    (spanUnits units span).length ≤ span.2 := by
  simp only [spanUnits, List.length_take]
  omega

/-- The groups behind the spans of a split, none longer than a segment holds. -/
theorem split_groups {α : Type} {lead : α → Bool} {code : Nat → List α} {units : List α}
    {cps : List Nat} {perChunk : Nat} {spans : List (Nat × Nat)}
    (coded : ∀ cp ∈ cps, IsCode lead (code cp)) (whole : units = cps.flatMap code)
    (split : splitSpans lead perChunk units smsMaxSegments 0 = some spans) :
    ∃ groups : List (List Nat), groups.flatten = cps ∧ groups.length = spans.length ∧
      groups.map (List.flatMap code) = spans.map (spanUnits units) ∧
      ∀ group ∈ groups, (group.flatMap code).length ≤ perChunk := by
  obtain ⟨groups, joined, chunks⟩ := splitSpans_groups coded (by simp [whole]) split
  refine ⟨groups, joined, by simpa using congrArg List.length chunks, chunks, ?_⟩
  intro group member
  have chunk := List.mem_map_of_mem (f := List.flatMap code) member
  rw [chunks] at chunk
  obtain ⟨span, inside, same⟩ := List.mem_map.mp chunk
  rw [← same]
  calc (spanUnits units span).length ≤ span.2 := spanUnits_length units span
    _ ≤ perChunk := ((splitSpans_bounds split).1 span inside).1

theorem encodeGsm7_roundTrips {recipient text : CStr} {report : Bool} {reference : UInt16}
    {maxSegments : Nat} {septets : List UInt8} {cps : List Nat} {segments : List SmsSubmitSegment}
    (wellFormed : Utf8Text text.bytes cps) (coded : septets = cps.flatMap septetsOf)
    (found : ∀ cp ∈ cps, gsm7Find cp = some (septetsOf cp))
    (encoded : encodeGsm7 recipient report reference maxSegments septets = some segments) :
    RoundTrips recipient text reference segments := by
  simp only [encodeGsm7] at encoded
  split at encoded
  · rename_i short
    subst coded
    have none : udhSeptets 0 = 0 := rfl
    exact buildSingle_roundTrips wellFormed (.gsm7 found (by omega)) encoded
  rename_i long
  split at encoded
  · cases encoded
  rename_i spans split
  split at encoded
  · cases encoded
  obtain ⟨groups, rfl, count, chunks, bounded⟩ :=
    split_groups (fun cp member => gsm7Find_isCode (found cp member)) coded split
  obtain ⟨-, few, several⟩ := splitSpans_bounds split
  rw [← count, ← chunks] at encoded
  refine buildParts_roundTrips wellFormed ?_ (by omega) ?_ encoded
  · rw [count]
    apply several
    omega
  · intro group member
    refine .gsm7 (fun cp inside => found cp (List.mem_flatten_of_mem member inside)) ?_
    have length := bounded group member
    have header : udhSeptets (concatHeaderLength reference) =
        headerSeptets (concatHeaderLength reference) := by
      rcases concatHeaderLength_cases reference with six | seven
      · rw [six]
        rfl
      · rw [seven]
        rfl
    have room : headerSeptets (concatHeaderLength reference) ≤ 160 := by
      rcases concatHeaderLength_cases reference with six | seven
      · rw [six]
        decide
      · rw [seven]
        decide
    omega

theorem encodeUcs2_roundTrips {recipient text : CStr} {report : Bool} {reference : UInt16}
    {maxSegments : Nat} {units : List Nat} {cps : List Nat} {segments : List SmsSubmitSegment}
    (wellFormed : Utf8Text text.bytes cps) (coded : units = cps.flatMap unitsOf)
    (encoded : encodeUcs2 recipient report reference maxSegments units = some segments) :
    RoundTrips recipient text reference segments := by
  obtain ⟨-, scalars⟩ := wellFormed.octets
  simp only [encodeUcs2] at encoded
  split at encoded
  · subst coded
    exact buildSingle_roundTrips wellFormed (.ucs2 fun cp member => (scalars cp member).1) encoded
  rename_i long
  split at encoded
  · cases encoded
  rename_i spans split
  split at encoded
  · cases encoded
  obtain ⟨groups, rfl, count, chunks, -⟩ :=
    split_groups (fun cp member => unitsOf_isCode (scalars cp member).1) coded split
  obtain ⟨-, few, several⟩ := splitSpans_bounds split
  have payloads : (spans.map fun span => (spanUnits units span).flatMap unitOctets) =
      groups.map fun group => (group.flatMap unitsOf).flatMap unitOctets := by
    have octets := congrArg (List.map (List.flatMap unitOctets)) chunks
    rw [List.map_map, List.map_map] at octets
    exact octets.symm
  rw [payloads, ← count] at encoded
  refine buildParts_roundTrips wellFormed ?_ (by omega) ?_ encoded
  · rw [count]
    apply several
    omega
  · intro group member
    exact .ucs2 fun cp inside => (scalars cp (List.mem_flatten_of_mem member inside)).1

/-- The submit round trip: every segment of an encoded message is an SMS-SUBMIT
to its recipient, with the concatenation information of its place, and the texts
of the segments make up the message. -/
theorem submit_round_trip {recipient text : CStr} {report : Bool} {reference : UInt16}
    {maxSegments : Nat} {segments : List SmsSubmitSegment}
    (encoded : smsSubmitEncode recipient text report reference maxSegments = some segments) :
    RoundTrips recipient text reference segments := by
  simp only [smsSubmitEncode] at encoded
  split at encoded
  · cases encoded
  split at encoded
  · cases encoded
  split at encoded
  · split at encoded
    · cases encoded
    split at encoded
    · cases encoded
    rename_i septets gsm7
    obtain ⟨cps, wellFormed, coded, found⟩ := smsGsm7Encode_some gsm7
    exact encodeGsm7_roundTrips wellFormed coded found encoded
  · split at encoded
    · cases encoded
    rename_i units ucs2
    obtain ⟨cps, wellFormed, folded⟩ := walkUtf8_some ucs2
    exact encodeUcs2_roundTrips wellFormed (ucs2EncodeStep_fold folded) encoded

/-- 71 Cyrillic letters to the number +4915: two segments. -/
theorem submit_round_trip_two_segments :
    ∃ segments, smsSubmitEncode ⟨[0x2B, 0x34, 0x39, 0x31, 0x35], by decide⟩
        ⟨(List.replicate 71 [0xD0, 0x96]).flatten, by decide⟩ true 0x1234 16 = some segments ∧
      segments.length = 2 ∧
      RoundTrips ⟨[0x2B, 0x34, 0x39, 0x31, 0x35], by decide⟩ ⟨(List.replicate 71 [0xD0, 0x96]).flatten, by decide⟩
        0x1234 segments := by
  have count : (smsSubmitEncode ⟨[0x2B, 0x34, 0x39, 0x31, 0x35], by decide⟩
      ⟨(List.replicate 71 [0xD0, 0x96]).flatten, by decide⟩ true 0x1234 16).map List.length = some 2 := by
    decide +kernel
  obtain ⟨segments, encoded, two⟩ := Option.map_eq_some_iff.mp count
  exact ⟨segments, encoded, two, submit_round_trip encoded⟩

end SmsGateway
