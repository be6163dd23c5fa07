import SmsGateway.Codec.Address

/-! SMS-DELIVER and SMS-STATUS-REPORT PDUs. -/

namespace SmsGateway

/-- `sms_pdu_type_t`. -/
inductive SmsPduType where
  | unknown
  | deliver
  | statusReport
  deriving DecidableEq, Repr

/-- `sms_deliver_t`. -/
structure SmsDeliver where
  sender : CString 24
  encoding : SmsEncoding
  concat : SmsConcatInfo
  serviceCenterTimestamp : CString 40
  text : CString 2048
  deriving DecidableEq, Repr

def SmsDeliver.zero : SmsDeliver := ⟨.zero, .gsm7, .zero, .zero, .zero⟩

/-- `sms_status_report_t`. -/
structure SmsStatusReport where
  messageReference : UInt8
  recipient : CString 24
  serviceCenterTimestamp : CString 40
  dischargeTimestamp : CString 40
  status : UInt8
  delivered : Bool
  deriving DecidableEq, Repr

def dcsEncoding (dcs : UInt8) : SmsEncoding :=
  if dcs &&& 0xC0 = 0x00 then
    if dcs &&& 0x20 ≠ 0 then .unknown
    else if (dcs >>> 2) &&& 0x03 = 0 then .gsm7
    else if (dcs >>> 2) &&& 0x03 = 1 then .eightBit
    else if (dcs >>> 2) &&& 0x03 = 2 then .ucs2
    else .unknown
  else if dcs &&& 0xF0 = 0xF0 then
    if dcs &&& 0x04 ≠ 0 then .eightBit else .gsm7
  else .unknown

/-- The information elements of a header body, and whether the last one was
complete. The fuel is the number of octets left. -/
def udhElements : Nat → List UInt8 → List (UInt8 × List UInt8) × Bool
  | fuel + 1, iei :: len :: rest =>
      if rest.length < len.toNat then ([], false)
      else
        let (later, complete) := udhElements fuel (rest.drop len.toNat)
        ((iei, rest.take len.toNat) :: later, complete)
  | _, _ => ([], true)

/-- One element of the loop of `parse_concat_udh`. -/
def concatElement (concat : SmsConcatInfo) : UInt8 × List UInt8 → SmsConcatInfo
  | (0x00, [reference, total, part]) => ⟨true, false, reference.toUInt16, total, part⟩
  | (0x08, [high, low, total, part]) =>
      ⟨true, true, high.toUInt16 <<< 8 ||| low.toUInt16, total, part⟩
  | _ => concat

/-- The elements of a header whose first octet is its length. -/
def headerElements (udh : List UInt8) : List (UInt8 × List UInt8) × Bool :=
  match udh with
  | [] => ([], true)
  | length :: body => udhElements length.toNat (body.take length.toNat)

/-- Success, and the concatenation information read so far. -/
def parseConcatUdh (udh : List UInt8) : Bool × SmsConcatInfo :=
  match udh with
  | [] => (true, .zero)
  | length :: _ =>
      if length.toNat + 1 > udh.length then (false, .zero)
      else
        let (elements, complete) := headerElements udh
        let concat := elements.foldl concatElement .zero
        if !complete then (false, concat)
        else if concat.present ∧ (concat.totalParts = 0 ∨ concat.partNumber = 0 ∨
            concat.partNumber > concat.totalParts) then (false, concat)
        else (true, concat)

def udhHasNationalLanguageShift (udh : List UInt8) : Bool :=
  match udh with
  | [] => false
  | length :: _ =>
      if length.toNat + 1 > udh.length then false
      else (headerElements udh).1.any fun element => element.1 == 0x24 || element.1 == 0x25

/-- `none` is the -1 of the source. -/
def semiOctetValue (byte : UInt8) : Option Nat :=
  let tens := (byte &&& 0x0F).toNat
  let ones := ((byte >>> 4) &&& 0x0F).toNat
  if tens > 9 ∨ ones > 9 then none else some (tens * 10 + ones)

/-- `%02d` of a value below 100. -/
def decimal2 (value : Nat) : List UInt8 :=
  [UInt8.ofNat (0x30 + value / 10), UInt8.ofNat (0x30 + value % 10)]

/-- `%04d-%02d-%02dT%02d:%02d:%02d%c%02d:%02d`. -/
def timestampText (year month day hour minute second : Nat) (negative : Bool)
    (tzHours tzMins : Nat) : List UInt8 :=
  decimal2 (year / 100) ++ decimal2 (year % 100) ++ [0x2D] ++ decimal2 month ++ [0x2D] ++
    decimal2 day ++ [0x54] ++ decimal2 hour ++ [0x3A] ++ decimal2 minute ++ [0x3A] ++
    decimal2 second ++ [if negative then 0x2D else 0x2B] ++ decimal2 tzHours ++ [0x3A] ++
    decimal2 tzMins

def timestampDecode (data : List UInt8) (outCapacity : Nat) : Option (List UInt8) := do
  if data.length < 7 ∨ outCapacity < 24 then none
  else
    let yy ← semiOctetValue (data.getD 0 0)
    let month ← semiOctetValue (data.getD 1 0)
    let day ← semiOctetValue (data.getD 2 0)
    let hour ← semiOctetValue (data.getD 3 0)
    let minute ← semiOctetValue (data.getD 4 0)
    let second ← semiOctetValue (data.getD 5 0)
    let zone := data.getD 6 0
    let negative := zone &&& 0x08 ≠ 0
    let quarters := (zone &&& 0x07).toNat * 10 + ((zone >>> 4) &&& 0x0F).toNat
    if month < 1 ∨ month > 12 ∨ day < 1 ∨ day > 31 ∨ hour > 23 ∨ minute > 59 ∨ second > 59 ∨
        quarters > 79 then none
    else
      let tzMinutes := quarters * 15
      let year := if yy ≥ 70 then 1900 + yy else 2000 + yy
      let text := timestampText year month day hour minute second negative (tzMinutes / 60)
        (tzMinutes % 60)
      if text.length < outCapacity then some text else none

/-- The code unit loop of `decode_user_data`. -/
def ucs2DecodeLoop (textCapacity : Nat) : List UInt8 → List UInt8 → DecodeResult × List UInt8
  | high :: low :: rest, out =>
      let cp := high.toNat <<< 8 ||| low.toNat
      if 0xD800 ≤ cp ∧ cp ≤ 0xDBFF then
        match rest with
        | high2 :: low2 :: rest =>
            let second := high2.toNat <<< 8 ||| low2.toNat
            if second < 0xDC00 ∨ second > 0xDFFF then (.invalid, out)
            else
              match smsUtf8Append (0x10000 + (cp - 0xD800) <<< 10 + (second - 0xDC00)) textCapacity
                  out with
              | none => (.textTooLong, out)
              | some out => ucs2DecodeLoop textCapacity rest out
        | _ => (.invalid, out)
      else if 0xDC00 ≤ cp ∧ cp ≤ 0xDFFF then (.invalid, out)
      else
        match smsUtf8Append cp textCapacity out with
        | none => (.textTooLong, out)
        | some out => ucs2DecodeLoop textCapacity rest out
  | _, out => (.ok, out)

/-- What `decode_user_data` returns and leaves in its outputs. -/
structure UserData where
  result : DecodeResult
  encoding : SmsEncoding
  concat : SmsConcatInfo
  text : List UInt8
  deriving DecidableEq, Repr

/-- The header of the user data: its length in octets and the concatenation
information, or the result and the information at which decoding ends. -/
def decodeHeader (hasUdh : Bool) (limit : Nat) (ud : List UInt8) :
    Except (DecodeResult × SmsConcatInfo) (Nat × SmsConcatInfo) :=
  if !hasUdh then .ok (0, .zero)
  else if limit = 0 then .error (.invalid, .zero)
  else
    let headerBytes := (ud.getD 0 0).toNat + 1
    if headerBytes > limit then .error (.invalid, .zero)
    else
      let (parsed, concat) := parseConcatUdh (ud.take headerBytes)
      if !parsed then .error (.invalid, concat)
      else if udhHasNationalLanguageShift (ud.take headerBytes) then .error (.unsupported, concat)
      else .ok (headerBytes, concat)

def decodeGsm7 (hasUdh : Bool) (udl : Nat) (ud : List UInt8) (textCapacity : Nat) : UserData :=
  let packedBytes := (udl * 7 + 7) / 8
  if packedBytes > ud.length ∨ udl > 160 then ⟨.truncated, .gsm7, .zero, []⟩
  else match decodeHeader hasUdh packedBytes ud with
    | .error (result, concat) => ⟨result, .gsm7, concat, []⟩
    | .ok (headerBytes, concat) =>
        let hseptets := if hasUdh then headerSeptets headerBytes else 0
        if hseptets > udl then ⟨.invalid, .gsm7, concat, []⟩
        else match unpackSeptets (ud.take packedBytes) (hseptets * 7) (udl - hseptets) with
          | none => ⟨.truncated, .gsm7, concat, []⟩
          | some septets =>
              let (decoded, text) := smsGsm7Decode septets textCapacity
              ⟨if decoded then .ok else .textTooLong, .gsm7, concat, text⟩

def decodeUcs2 (hasUdh : Bool) (udl : Nat) (ud : List UInt8) (textCapacity : Nat) : UserData :=
  if udl > ud.length ∨ udl > 140 then ⟨.truncated, .ucs2, .zero, []⟩
  else match decodeHeader hasUdh udl ud with
    | .error (result, concat) => ⟨result, .ucs2, concat, []⟩
    | .ok (headerBytes, concat) =>
        if (udl - headerBytes) % 2 ≠ 0 then ⟨.invalid, .ucs2, concat, []⟩
        else
          let (result, text) := ucs2DecodeLoop textCapacity ((ud.take udl).drop headerBytes) []
          ⟨result, .ucs2, concat, text⟩

def decodeUserData (firstOctet dcs udl : UInt8) (ud : List UInt8) (textCapacity : Nat) : UserData :=
  let hasUdh := firstOctet &&& 0x40 ≠ 0
  match dcsEncoding dcs with
  | .gsm7 => decodeGsm7 hasUdh udl.toNat ud textCapacity
  | .ucs2 => decodeUcs2 hasUdh udl.toNat ud textCapacity
  | .eightBit => ⟨.unsupported, .eightBit, .zero, []⟩
  | .unknown => ⟨.unsupported, .unknown, .zero, []⟩

def smsPduTypeDetect (pduHex : CStr) : SmsPduType :=
  match hexDecode pduHex smsMaxPduOctets with
  | .error _ => .unknown
  | .ok pdu =>
      if pdu.length < 2 then .unknown
      else
        let smscLen := (pdu.getD 0 0).toNat
        if 1 + smscLen ≥ pdu.length then .unknown
        else if pdu.getD (1 + smscLen) 0 &&& 0x03 = 0x00 then .deliver
        else if pdu.getD (1 + smscLen) 0 &&& 0x03 = 0x02 then .statusReport
        else .unknown

/-- The header fields of an SMS-DELIVER up to its user data. -/
structure DeliverHeader where
  first : UInt8
  sender : List UInt8
  dcs : UInt8
  timestamp : List UInt8
  udl : UInt8
  ud : List UInt8

/-- The part of `sms_deliver_decode` before the user data: the result at which
it ends with what it left in the output, or the header. -/
def deliverHeader (pdu : List UInt8) : Except (DecodeResult × SmsDeliver) DeliverHeader :=
  if pdu.length < 2 then .error (.truncated, .zero)
  else
    let smscLen := (pdu.getD 0 0).toNat
    if 1 + smscLen ≥ pdu.length then .error (.truncated, .zero)
    else
      let first := pdu.getD (1 + smscLen) 0
      let pos := 2 + smscLen
      if first &&& 0x03 ≠ 0x00 ∨ pos + 2 > pdu.length then .error (.unsupported, .zero)
      else
        let oaDigits := (pdu.getD pos 0).toNat
        let oaToa := pdu.getD (pos + 1) 0
        let oaBytes := (oaDigits + 1) / 2
        let pos := pos + 2
        if pos + oaBytes + 10 > pdu.length then .error (.invalid, .zero)
        else
          let (parsed, sender) := addressDecode (pdu.drop pos) oaDigits oaToa 24
          let out := { SmsDeliver.zero with sender := .ofBytes sender }
          if !parsed then .error (.invalid, out)
          else
            let pos := pos + oaBytes + 1
            let dcs := pdu.getD pos 0
            match timestampDecode (pdu.drop (pos + 1)) 40 with
            | none => .error (.invalid, out)
            | some timestamp =>
                let out := { out with serviceCenterTimestamp := .ofBytes timestamp }
                let pos := pos + 1 + 7
                if pos ≥ pdu.length then .error (.truncated, out)
                else .ok ⟨first, sender, dcs, timestamp, pdu.getD pos 0, pdu.drop (pos + 1)⟩

/-- The result and the output, which the caller zeroed. -/
def smsDeliverDecode (pduHex : CStr) : DecodeResult × SmsDeliver :=
  match hexDecode pduHex smsMaxPduOctets with
  | .error result => (result, .zero)
  | .ok pdu =>
      match deliverHeader pdu with
      | .error ended => ended
      | .ok header =>
          let data := decodeUserData header.first header.dcs header.udl header.ud 2048
          (data.result, {
            sender := .ofBytes header.sender
            encoding := data.encoding
            concat := data.concat
            serviceCenterTimestamp := .ofBytes header.timestamp
            text := .ofBytes data.text })

def smsStatusReportDecode (pduHex : CStr) : Except DecodeResult SmsStatusReport := do
  let pdu ← hexDecode pduHex smsMaxPduOctets
  if pdu.length < 2 then .error .truncated
  else
    let smscLen := (pdu.getD 0 0).toNat
    if 1 + smscLen ≥ pdu.length then .error .truncated
    else
      let first := pdu.getD (1 + smscLen) 0
      let pos := 2 + smscLen
      if first &&& 0x03 ≠ 0x02 ∨ pos + 3 > pdu.length then .error .unsupported
      else
        let messageReference := pdu.getD pos 0
        let raDigits := (pdu.getD (pos + 1) 0).toNat
        let raToa := pdu.getD (pos + 2) 0
        let raBytes := (raDigits + 1) / 2
        let pos := pos + 3
        let (parsed, recipient) := addressDecode (pdu.drop pos) raDigits raToa 24
        if pos + raBytes + 15 > pdu.length ∨ !parsed then .error .invalid
        else
          let pos := pos + raBytes
          match timestampDecode (pdu.drop pos) 40, timestampDecode (pdu.drop (pos + 7)) 40 with
          | some serviceCenter, some discharge =>
              let pos := pos + 14
              if pos ≥ pdu.length then .error .truncated
              else
                let status := pdu.getD pos 0
                .ok {
                  messageReference := messageReference
                  recipient := .ofBytes recipient
                  serviceCenterTimestamp := .ofBytes serviceCenter
                  dischargeTimestamp := .ofBytes discharge
                  status := status
                  delivered := status < 0x20 }
          | _, _ => .error .invalid

/-- A part number and a total as `parse_concat_udh` accepts them. -/
def SmsConcatInfo.Valid (concat : SmsConcatInfo) : Prop :=
  concat.totalParts ≠ 0 ∧ concat.partNumber ≠ 0 ∧ concat.partNumber ≤ concat.totalParts

theorem parseConcatUdh_valid {udh : List UInt8} (parsed : (parseConcatUdh udh).1 = true)
    (present : (parseConcatUdh udh).2.present = true) : (parseConcatUdh udh).2.Valid := by
  unfold parseConcatUdh at parsed present ⊢
  cases udh with
  | nil => cases present
  | cons length body =>
      simp only at parsed present ⊢
      split at parsed
      · cases parsed
      · rename_i fits
        simp only [fits, ↓reduceIte] at present ⊢
        generalize headerElements (length :: body) = scan at parsed present ⊢
        obtain ⟨elements, complete⟩ := scan
        simp only at parsed present ⊢
        generalize elements.foldl concatElement .zero = concat at parsed present ⊢
        cases complete with
        | false => cases parsed
        | true =>
            simp only [Bool.not_true, Bool.false_eq_true, ↓reduceIte] at parsed present ⊢
            split at parsed
            · cases parsed
            · rename_i fine
              simp only [fine, ↓reduceIte] at present ⊢
              simp only [present, true_and, not_or] at fine
              exact ⟨fine.1, fine.2.1, UInt8.not_lt.mp fine.2.2⟩

/-- A header that cannot be read never counts as decoded. -/
theorem decodeHeader_error (hasUdh : Bool) (limit : Nat) (ud : List UInt8)
    (concat : SmsConcatInfo) : decodeHeader hasUdh limit ud ≠ .error (.ok, concat) := by
  unfold decodeHeader
  split
  · simp
  · split
    · simp
    · simp only
      split
      · simp
      · split
        · simp
        · split <;> simp

theorem deliverHeader_error {pdu : List UInt8} {ended : DecodeResult × SmsDeliver}
    (stopped : deliverHeader pdu = .error ended) :
    ended.1 ≠ .ok ∧ ended.2.encoding = .gsm7 := by
  unfold deliverHeader at stopped
  split at stopped
  · cases stopped
    exact ⟨by simp, rfl⟩
  · simp only at stopped
    split at stopped
    · cases stopped
      exact ⟨by simp, rfl⟩
    · split at stopped
      · cases stopped
        exact ⟨by simp, rfl⟩
      · split at stopped
        · cases stopped
          exact ⟨by simp, rfl⟩
        · split at stopped
          · cases stopped
            exact ⟨by simp, rfl⟩
          · split at stopped
            · cases stopped
              exact ⟨by simp, rfl⟩
            · split at stopped
              · cases stopped
                exact ⟨by simp, rfl⟩
              · cases stopped

theorem decodeHeader_valid {hasUdh : Bool} {limit headerBytes : Nat} {ud : List UInt8}
    {concat : SmsConcatInfo} (decoded : decodeHeader hasUdh limit ud = .ok (headerBytes, concat))
    (present : concat.present = true) : concat.Valid := by
  unfold decodeHeader at decoded
  split at decoded
  · cases decoded
    cases present
  · split at decoded
    · cases decoded
    · simp only at decoded
      split at decoded
      · cases decoded
      · split at decoded
        · cases decoded
        · rename_i parsed
          split at decoded
          · cases decoded
          · cases decoded
            exact parseConcatUdh_valid (by simpa using parsed) present

/-- User data is decoded only behind a header that was read. -/
theorem decodeUserData_header {firstOctet dcs udl : UInt8} {ud : List UInt8} {textCapacity : Nat}
    {data : UserData} (whole : decodeUserData firstOctet dcs udl ud textCapacity = data)
    (decoded : data.result = .ok) : ∃ limit headerBytes,
      decodeHeader (firstOctet &&& 0x40 ≠ 0) limit ud = .ok (headerBytes, data.concat) := by
  simp only [decodeUserData] at whole
  cases encoding : dcsEncoding dcs with
  | gsm7 =>
      simp only [encoding, decodeGsm7] at whole
      split at whole
      · subst whole
        cases decoded
      · split at whole
        · rename_i header
          subst whole
          simp only at decoded
          exact absurd (decoded ▸ header) (decodeHeader_error _ _ _ _)
        · rename_i headerBytes concat header
          generalize (if decide (firstOctet &&& 0x40 ≠ 0) = true then headerSeptets headerBytes
            else 0) = hseptets at whole
          split at whole
          · subst whole
            cases decoded
          · split at whole <;> subst whole
            · cases decoded
            · exact ⟨_, _, header⟩
  | ucs2 =>
      simp only [encoding, decodeUcs2] at whole
      split at whole
      · subst whole
        cases decoded
      · split at whole
        · rename_i header
          subst whole
          simp only at decoded
          exact absurd (decoded ▸ header) (decodeHeader_error _ _ _ _)
        · rename_i header
          split at whole <;> subst whole
          · cases decoded
          · exact ⟨_, _, header⟩
  | eightBit =>
      simp only [encoding] at whole
      subst whole
      cases decoded
  | unknown =>
      simp only [encoding] at whole
      subst whole
      cases decoded

theorem smsDeliverDecode_valid {pduHex : CStr} (decoded : (smsDeliverDecode pduHex).1 = .ok)
    (present : (smsDeliverDecode pduHex).2.concat.present = true) :
    (smsDeliverDecode pduHex).2.concat.Valid := by
  unfold smsDeliverDecode at decoded present ⊢
  split at decoded
  · rename_i failed
    simp only [failed] at present
    cases present
  · rename_i pdu hex
    simp only [hex] at present ⊢
    split at decoded
    · rename_i ended header
      simp only [header] at present ⊢
      exact absurd decoded (deliverHeader_error header).1
    · rename_i header read
      simp only [read] at present ⊢
      obtain ⟨limit, headerBytes, parsed⟩ := decodeUserData_header rfl decoded
      exact decodeHeader_valid parsed present

theorem decodeUserData_encoding (firstOctet dcs udl : UInt8) (ud : List UInt8)
    (textCapacity : Nat) :
    (decodeUserData firstOctet dcs udl ud textCapacity).encoding = dcsEncoding dcs := by
  simp only [decodeUserData]
  cases dcsEncoding dcs with
  | gsm7 =>
      simp only [decodeGsm7]
      repeat' split
      all_goals rfl
  | ucs2 =>
      simp only [decodeUcs2]
      repeat' split
      all_goals rfl
  | eightBit => rfl
  | unknown => rfl

/-- Only the data coding scheme selects 8-bit data. -/
theorem smsDeliverDecode_eightBit {pduHex : CStr}
    (eightBit : (smsDeliverDecode pduHex).2.encoding = .eightBit) :
    ∃ octets header, hexDecode pduHex smsMaxPduOctets = .ok octets ∧
      deliverHeader octets = .ok header ∧ dcsEncoding header.dcs = .eightBit := by
  unfold smsDeliverDecode at eightBit
  split at eightBit
  · cases eightBit
  · rename_i octets hex
    split at eightBit
    · rename_i ended stopped
      rw [(deliverHeader_error stopped).2] at eightBit
      cases eightBit
    · rename_i header read
      simp only [decodeUserData_encoding] at eightBit
      exact ⟨octets, header, hex, read, eightBit⟩

theorem hexDecode_length {hex : CStr} {octets : List UInt8} {outCapacity : Nat}
    (decoded : hexDecode hex outCapacity = .ok octets) : hex.length ≤ 2 * outCapacity := by
  unfold hexDecode at decoded
  split at decoded
  · cases decoded
  · split at decoded
    · cases decoded
    · omega

end SmsGateway
