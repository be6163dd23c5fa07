import SmsGateway.Codec.Deliver

/-! When `sms_deliver_decode` answers that a text is too long. -/

namespace SmsGateway

/-! The text of a message, as GSM 03.38 and UTF-16 have it. -/

/-- The code points of septets. An escape with a septet that the extension table does
not have stands for that septet's own character, an escape at the end for a space. -/
def gsm7Characters : List UInt8 → List Nat
  | [] => []
  | septet :: rest =>
      if septet = 0x1B then
        match rest with
        | [] => [0x20]
        | second :: rest =>
            (gsm7ExtensionDecode second).getD (gsm7Basic.getD (second &&& 0x7F).toNat 0) ::
              gsm7Characters rest
      else gsm7Basic.getD (septet &&& 0x7F).toNat 0 :: gsm7Characters rest

/-- The code points of UTF-16BE octets; a lone surrogate stands for U+FFFD. -/
def utf16Characters : List UInt8 → List Nat
  | high :: low :: rest =>
      let unit := high.toNat <<< 8 ||| low.toNat
      if 0xD800 ≤ unit ∧ unit ≤ 0xDBFF then
        match rest with
        | high2 :: low2 :: rest =>
            let second := high2.toNat <<< 8 ||| low2.toNat
            if 0xDC00 ≤ second ∧ second ≤ 0xDFFF then
              (0x10000 + (unit - 0xD800) <<< 10 + (second - 0xDC00)) :: utf16Characters rest
            else 0xFFFD :: utf16Characters (high2 :: low2 :: rest)
        | _ => [0xFFFD]
      else if 0xDC00 ≤ unit ∧ unit ≤ 0xDFFF then 0xFFFD :: utf16Characters rest
      else unit :: utf16Characters rest
  | _ => []

/-- The septets of the text of GSM 7-bit user data, when all of it is there. -/
def gsm7Septets (hasUdh : Bool) (udl : Nat) (ud : List UInt8) : Option (List UInt8) :=
  let packedBytes := (udl * 7 + 7) / 8
  if packedBytes > ud.length ∨ udl > 160 then none
  else match decodeHeader hasUdh packedBytes ud with
    | .error _ => none
    | .ok (headerBytes, _) =>
        let hseptets := if hasUdh then headerSeptets headerBytes else 0
        if hseptets > udl then none
        else unpackSeptets (ud.take packedBytes) (hseptets * 7) (udl - hseptets)

/-- The octets of the text of UCS-2 user data, when all of it is there. -/
def ucs2Octets (hasUdh : Bool) (udl : Nat) (ud : List UInt8) : Option (List UInt8) :=
  if udl > ud.length ∨ udl > 140 then none
  else match decodeHeader hasUdh udl ud with
    | .error _ => none
    | .ok (headerBytes, _) =>
        if (udl - headerBytes) % 2 ≠ 0 then none else some ((ud.take udl).drop headerBytes)

/-- The header of an SMS-DELIVER PDU. -/
def deliverHeaderOf (pduHex : CStr) : Option DeliverHeader :=
  match hexDecode pduHex smsMaxPduOctets with
  | .error _ => none
  | .ok pdu => (deliverHeader pdu).toOption

/-- The text septets of complete GSM 7-bit user data. -/
def DeliverHeader.septets (header : DeliverHeader) : Option (List UInt8) :=
  if dcsEncoding header.dcs = .gsm7 then
    gsm7Septets (header.first &&& 0x40 ≠ 0) header.udl.toNat header.ud
  else none

/-- The text octets of complete UCS-2 user data. -/
def DeliverHeader.ucs2Octets (header : DeliverHeader) : Option (List UInt8) :=
  if dcsEncoding header.dcs = .ucs2 then
    SmsGateway.ucs2Octets (header.first &&& 0x40 ≠ 0) header.udl.toNat header.ud
  else none

/-- The text septets of a structurally complete GSM 7-bit SMS-DELIVER PDU. -/
def deliverSeptets (pduHex : CStr) : Option (List UInt8) :=
  (deliverHeaderOf pduHex).bind DeliverHeader.septets

/-- The code points of the text of a structurally complete PDU. -/
def deliverText (pduHex : CStr) : List Nat :=
  match deliverSeptets pduHex with
  | some septets => gsm7Characters septets
  | none =>
      match (deliverHeaderOf pduHex).bind DeliverHeader.ucs2Octets with
      | some octets => utf16Characters octets
      | none => []

/-- The length of the UTF-8 form of these code points. -/
def utf8Length (cps : List Nat) : Nat := (cps.flatMap octetsOf).length

/-- An escape at the end, or with a septet that the extension table does not have. -/
def brokenEscape : List UInt8 → Bool
  | [] => false
  | septet :: rest =>
      if septet = 0x1B then
        match rest with
        | [] => true
        | second :: rest => (gsm7ExtensionDecode second).isNone || brokenEscape rest
      else brokenEscape rest

/-! Every text of 160 septets or 140 octets fits. -/

theorem utf8Octets_of_le {cp : Nat} (small : cp ≤ 0x10FFFF) :
    ∃ octets, utf8Octets cp = some octets := by
  unfold utf8Octets
  repeat' split
  all_goals exact ⟨_, rfl⟩

theorem gsm7Basic_small (i : Nat) : gsm7Basic.getD i 0 < 0xD800 := by
  have all : ∀ cp ∈ gsm7Basic, cp < 0xD800 := by decide +kernel
  rw [List.getD_eq_getElem?_getD]
  cases found : gsm7Basic[i]? with
  | none => decide
  | some cp => exact all cp (List.mem_of_getElem? found)

theorem gsm7ExtensionDecode_small {value : UInt8} {cp : Nat}
    (decoded : gsm7ExtensionDecode value = some cp) : cp < 0xD800 := by
  have all : ∀ entry ∈ gsm7Extension, entry.1 < 0xD800 := by decide
  obtain ⟨entry, found, rfl⟩ := Option.map_eq_some_iff.mp decoded
  exact all entry (List.mem_of_find?_eq_some found)

/-- A code point is appended while four more bytes have room. -/
theorem smsUtf8Append_room {cp capacity : Nat} {out : List UInt8} (small : cp ≤ 0x10FFFF)
    (room : out.length + 4 < capacity) :
    ∃ octets, utf8Octets cp = some octets ∧ octets.length ≤ 4 ∧
      smsUtf8Append cp capacity out = some (out ++ octets) := by
  obtain ⟨octets, written⟩ := utf8Octets_of_le small
  have bound := (utf8Octets_length written).2
  refine ⟨octets, written, bound, ?_⟩
  simp only [smsUtf8Append, written]
  rw [if_neg (by omega), if_neg (by omega)]

theorem brokenEscape_plain {septet : UInt8} (plain : septet ≠ 0x1B) (rest : List UInt8) :
    brokenEscape (septet :: rest) = brokenEscape rest := by
  cases rest with
  | nil => simp [brokenEscape, plain]
  | cons second rest => simp [brokenEscape, plain]

/-- With room for the text, only a broken escape stops the decoder. -/
theorem gsm7DecodeLoop_fst {capacity : Nat} {septets out : List UInt8}
    (room : out.length + 4 * septets.length < capacity) :
    (gsm7DecodeLoop capacity septets out).1 = !brokenEscape septets := by
  fun_induction gsm7DecodeLoop capacity septets out with
  | case1 out => rfl
  | case2 out => rfl
  | case3 out second rest undefined => simp [brokenEscape, undefined]
  | case4 out second rest cp decoded refused =>
      have small := gsm7ExtensionDecode_small decoded
      simp only [List.length_cons] at room
      obtain ⟨octets, -, -, appended⟩ := @smsUtf8Append_room cp capacity out (by omega) (by omega)
      rw [appended] at refused
      cases refused
  | case5 out second rest cp decoded grown appended ih =>
      have small := gsm7ExtensionDecode_small decoded
      simp only [List.length_cons] at room
      obtain ⟨octets, -, bound, here⟩ := @smsUtf8Append_room cp capacity out (by omega) (by omega)
      rw [appended, Option.some.injEq] at here
      rw [ih (by rw [here, List.length_append]; omega)]
      simp [brokenEscape, decoded]
  | case6 septet rest out plain refused =>
      have small := gsm7Basic_small (septet &&& 0x7F).toNat
      simp only [List.length_cons] at room
      obtain ⟨octets, -, -, appended⟩ := @smsUtf8Append_room _ capacity out
        (Nat.le_of_lt (Nat.lt_trans small (by decide))) (by omega)
      rw [appended] at refused
      cases refused
  | case7 septet rest out plain grown appended ih =>
      have small := gsm7Basic_small (septet &&& 0x7F).toNat
      simp only [List.length_cons] at room
      obtain ⟨octets, -, bound, here⟩ := @smsUtf8Append_room _ capacity out
        (Nat.le_of_lt (Nat.lt_trans small (by decide))) (by omega)
      rw [appended, Option.some.injEq] at here
      rw [ih (by rw [here, List.length_append]; omega)]
      rw [brokenEscape_plain plain]

theorem unit_le (high low : UInt8) : high.toNat <<< 8 ||| low.toNat ≤ 0xFFFF := by
  have shifted : high.toNat <<< 8 < 2 ^ 16 := by
    rw [Nat.shiftLeft_eq]
    have := high.toNat_lt
    omega
  have small : low.toNat < 2 ^ 16 := Nat.lt_trans low.toNat_lt (by decide)
  exact Nat.le_of_lt_succ (Nat.or_lt_two_pow shifted small)

/-- With room for the text, the UCS-2 loop never runs out of it. -/
theorem ucs2DecodeLoop_fst {capacity : Nat} {octets out : List UInt8}
    (room : out.length + 2 * octets.length < capacity) :
    (ucs2DecodeLoop capacity octets out).1 ≠ .textTooLong := by
  have pair {first second : Nat} (high : 0xD800 ≤ first ∧ first ≤ 0xDBFF)
      (low : ¬ (second < 0xDC00 ∨ second > 0xDFFF)) :
      0x10000 + (first - 0xD800) <<< 10 + (second - 0xDC00) ≤ 0x10FFFF := by
    rw [Nat.shiftLeft_eq]
    omega
  fun_induction ucs2DecodeLoop capacity octets out with
  | case1 => simp
  | case2 high low out cp isHigh high2 low2 rest second isLow refused =>
      simp only [List.length_cons] at room
      obtain ⟨_, -, -, appended⟩ :=
        @smsUtf8Append_room _ capacity out (pair isHigh isLow) (by omega)
      rw [appended] at refused
      cases refused
  | case3 high low out cp isHigh high2 low2 rest second isLow grown appended ih =>
      simp only [List.length_cons] at room
      obtain ⟨_, -, bound, here⟩ :=
        @smsUtf8Append_room _ capacity out (pair isHigh isLow) (by omega)
      rw [appended, Option.some.injEq] at here
      apply ih
      rw [here, List.length_append]
      omega
  | case4 => simp
  | case5 => simp
  | case6 high low rest out cp notHigh notLow refused =>
      simp only [List.length_cons] at room
      obtain ⟨_, -, -, appended⟩ := @smsUtf8Append_room cp capacity out
        (Nat.le_trans (unit_le high low) (by decide)) (by omega)
      rw [appended] at refused
      cases refused
  | case7 high low rest out cp notHigh notLow grown appended ih =>
      simp only [List.length_cons] at room
      obtain ⟨_, -, bound, here⟩ := @smsUtf8Append_room cp capacity out
        (Nat.le_trans (unit_le high low) (by decide)) (by omega)
      rw [appended, Option.some.injEq] at here
      apply ih
      rw [here, List.length_append]
      omega
  | case8 => simp

theorem gsm7Characters_length (septets : List UInt8) :
    (gsm7Characters septets).length ≤ septets.length := by
  fun_induction gsm7Characters septets with
  | case1 => simp
  | case2 => simp
  | case3 second rest ih =>
      simp only [List.length_cons]
      omega
  | case4 septet rest plain ih =>
      simp only [List.length_cons]
      omega

theorem utf8Length_le (cps : List Nat) : utf8Length cps ≤ 4 * cps.length := by
  induction cps with
  | nil => simp [utf8Length]
  | cons cp rest ih =>
      have head := octetsOf_length_le cp
      simp only [utf8Length, List.flatMap_cons, List.length_append, List.length_cons] at ih ⊢
      omega

/-! The result of the whole decoder. -/

theorem hexDecode_error {hex : CStr} {capacity : Nat} {result : DecodeResult}
    (failed : hexDecode hex capacity = .error result) : result ≠ .textTooLong := by
  unfold hexDecode at failed
  repeat' split at failed
  all_goals
    cases failed
    try simp

theorem decodeHeader_not_tooLong {hasUdh : Bool} {limit : Nat} {ud : List UInt8}
    {result : DecodeResult} {concat : SmsConcatInfo}
    (failed : decodeHeader hasUdh limit ud = .error (result, concat)) :
    result ≠ .textTooLong := by
  unfold decodeHeader at failed
  simp only at failed
  repeat' split at failed
  all_goals
    cases failed
    try simp

theorem deliverHeader_not_tooLong {pdu : List UInt8} {ended : DecodeResult × SmsDeliver}
    (stopped : deliverHeader pdu = .error ended) : ended.1 ≠ .textTooLong := by
  unfold deliverHeader at stopped
  simp only at stopped
  repeat' split at stopped
  all_goals
    cases stopped
    try simp

theorem gsm7Septets_length {hasUdh : Bool} {udl : Nat} {ud septets : List UInt8}
    (found : gsm7Septets hasUdh udl ud = some septets) : septets.length ≤ 160 := by
  simp only [gsm7Septets] at found
  split at found
  · cases found
  · split at found
    · cases found
    · rename_i headerBytes concat header
      generalize (if hasUdh = true then headerSeptets headerBytes else 0) = hseptets at found
      split at found
      · cases found
      · have length := unpackSeptets_length found
        omega

theorem decodeGsm7_none {hasUdh : Bool} {udl : Nat} {ud : List UInt8}
    (absent : gsm7Septets hasUdh udl ud = none) :
    (decodeGsm7 hasUdh udl ud 2048).result ≠ .textTooLong := by
  simp only [decodeGsm7, gsm7Septets] at absent ⊢
  split at absent
  · rename_i incomplete
    simp [incomplete]
  · rename_i complete
    simp only [complete, ↓reduceIte]
    split at absent
    · rename_i ended header
      obtain ⟨result, concat⟩ := ended
      simp only [header]
      exact decodeHeader_not_tooLong header
    · rename_i headerBytes concat header
      simp only [header]
      generalize (if hasUdh = true then headerSeptets headerBytes else 0) = hseptets at absent ⊢
      split at absent
      · rename_i beyond
        simp [beyond]
      · rename_i within
        simp [within, absent]

theorem decodeGsm7_some {hasUdh : Bool} {udl : Nat} {ud septets : List UInt8}
    (found : gsm7Septets hasUdh udl ud = some septets) :
    (decodeGsm7 hasUdh udl ud 2048).result =
      if brokenEscape septets then .textTooLong else .ok := by
  have length := gsm7Septets_length found
  have decoded := @gsm7DecodeLoop_fst 2048 septets [] (by simp only [List.length_nil]; omega)
  simp only [decodeGsm7, gsm7Septets] at found ⊢
  split at found
  · cases found
  · rename_i complete
    simp only [complete, ↓reduceIte]
    split at found
    · cases found
    · rename_i headerBytes concat header
      simp only [header]
      generalize (if hasUdh = true then headerSeptets headerBytes else 0) = hseptets at found ⊢
      split at found
      · cases found
      · rename_i within
        simp only [within, ↓reduceIte, found, smsGsm7Decode, OfNat.ofNat_ne_zero, decoded]
        cases brokenEscape septets <;> rfl

theorem decodeUcs2_result (hasUdh : Bool) (udl : Nat) (ud : List UInt8) :
    (decodeUcs2 hasUdh udl ud 2048).result ≠ .textTooLong := by
  simp only [decodeUcs2]
  split
  · simp
  · rename_i complete
    split
    · rename_i header
      exact decodeHeader_not_tooLong header
    · rename_i headerBytes concat header
      split
      · simp
      · apply ucs2DecodeLoop_fst
        simp only [List.length_nil, List.length_drop, List.length_take]
        omega

theorem DeliverHeader.septets_length {header : DeliverHeader} {septets : List UInt8}
    (found : header.septets = some septets) : septets.length ≤ 160 := by
  unfold DeliverHeader.septets at found
  split at found
  · exact gsm7Septets_length found
  · cases found

theorem decodeUserData_textTooLong (header : DeliverHeader) :
    (decodeUserData header.first header.dcs header.udl header.ud 2048).result = .textTooLong ↔
      ∃ septets, header.septets = some septets ∧ brokenEscape septets = true := by
  simp only [decodeUserData, DeliverHeader.septets]
  cases dcsEncoding header.dcs with
  | gsm7 =>
      simp only [↓reduceIte]
      cases found : gsm7Septets (header.first &&& 0x40 ≠ 0) header.udl.toNat header.ud with
      | none => simp only [decodeGsm7_none found, reduceCtorEq, false_and, exists_false]
      | some septets =>
          simp only [decodeGsm7_some found, Option.some.injEq, exists_eq_left']
          cases brokenEscape septets <;> simp
  | ucs2 => simp [decodeUcs2_result]
  | eightBit => simp
  | unknown => simp

/-- A text is called too long exactly when it is in GSM 7-bit with a broken escape. -/
theorem smsDeliverDecode_textTooLong (pduHex : CStr) :
    (smsDeliverDecode pduHex).1 = .textTooLong ↔
      ∃ septets, deliverSeptets pduHex = some septets ∧ brokenEscape septets = true := by
  simp only [smsDeliverDecode, deliverSeptets, deliverHeaderOf]
  cases hex : hexDecode pduHex smsMaxPduOctets with
  | error result => simp [hexDecode_error hex]
  | ok pdu =>
      cases read : deliverHeader pdu with
      | error ended => simp [read, Except.toOption, deliverHeader_not_tooLong read]
      | ok header =>
          simp only [read, Except.toOption, Option.bind_some]
          exact decodeUserData_textTooLong header

/-- The text of at most 160 septets fits the buffer with its terminator. -/
theorem deliverText_fits {pduHex : CStr} {septets : List UInt8}
    (found : deliverSeptets pduHex = some septets) :
    utf8Length (deliverText pduHex) + 1 ≤ 2048 := by
  obtain ⟨header, -, text⟩ := Option.bind_eq_some_iff.mp found
  have units := DeliverHeader.septets_length text
  have characters := gsm7Characters_length septets
  have octets := utf8Length_le (gsm7Characters septets)
  simp only [deliverText, found]
  omega

/-- `SMS_PDU_DECODE_TEXT_TOO_LONG` is only answered for a text that does not fit,
exactly for the PDUs without a broken escape. -/
theorem text_too_long_iff (pduHex : CStr) :
    ((smsDeliverDecode pduHex).1 = .textTooLong → 2048 < utf8Length (deliverText pduHex) + 1) ↔
      ∀ septets, deliverSeptets pduHex = some septets → brokenEscape septets = false := by
  constructor
  · intro means septets found
    cases broken : brokenEscape septets with
    | false => rfl
    | true =>
        have long := means ((smsDeliverDecode_textTooLong pduHex).mpr ⟨septets, found, broken⟩)
        have fits := deliverText_fits found
        omega
  · intro unbroken tooLong
    obtain ⟨septets, found, broken⟩ := (smsDeliverDecode_textTooLong pduHex).mp tooLong
    rw [unbroken septets found] at broken
    cases broken

/-- A message of two septets, an escape and a commercial at. -/
def brokenDeliver : CStr :=
  pduOf [0x00, 0x04, 0x03, 0x91, 0x21, 0xF3, 0x00, 0x00, 0x62, 0x10, 0x10, 0x00, 0x00, 0x00, 0x00,
    0x02, 0x1B, 0x00]

/-- The text of two septets is called too long. -/
theorem two_septets_too_long :
    deliverSeptets brokenDeliver = some [0x1B, 0x00] ∧
      (smsDeliverDecode brokenDeliver).1 = .textTooLong ∧
      ¬ 2048 < utf8Length (deliverText brokenDeliver) + 1 := by
  decide +kernel

end SmsGateway
