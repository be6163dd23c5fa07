import SmsGateway.Codec.Address

/-! SMS-SUBMIT PDUs (`sms_submit_encode`). -/

namespace SmsGateway

open Lib

/-- `sms_submit_segment_t`. -/
structure SmsSubmitSegment where
  encoding : SmsEncoding
  concat : SmsConcatInfo
  segmentNumber : UInt8
  segmentCount : UInt8
  tpduLengthOctets : Nat
  pduHex : CStr
  deriving DecidableEq, Repr

def smsMaxGsm7Septets : Nat := smsMaxSegments * 160
def smsMaxUcs2Units : Nat := smsMaxSegments * 70

/-- The user data header of one part, with an 8-bit or a 16-bit reference. -/
def concatHeader (reference : UInt16) (total sequence : UInt8) : List UInt8 :=
  if reference ≤ 0xFF then [0x05, 0x00, 0x03, reference.toUInt8, total, sequence]
  else [0x06, 0x08, 0x04, (reference >>> 8).toUInt8, reference.toUInt8, total, sequence]

def submitFirstOctet (requestStatusReport hasUdh : Bool) : UInt8 :=
  0x01 ||| (if requestStatusReport then 0x20 else 0x00) ||| (if hasUdh then 0x40 else 0x00)

def putUdh (pdu : PduBuffer) (udh : List UInt8) : Option PduBuffer :=
  if udh.length > 0 then pdu.append udh else some pdu

/-- DCS, UDL and UD of a PDU; the payload is septets or UTF-16 octets. -/
def putUserData (pdu : PduBuffer) (encoding : SmsEncoding) (udh payload : List UInt8) :
    Option PduBuffer :=
  match encoding with
  | .gsm7 => do
      let pdu ← pdu.put 0x00
      let (packed, udl) ← packSeptets payload udh 140
      let pdu ← pdu.put udl
      pdu.append packed
  | .ucs2 => do
      let pdu ← pdu.put 0x08
      let udOctets := udh.length + payload.length
      if udOctets > 140 then none
      else
        let pdu ← pdu.put (UInt8.ofNat udOctets)
        let pdu ← putUdh pdu udh
        pdu.append payload
  | .eightBit | .unknown => none

/-- The length of the TPDU and the PDU in hexadecimal. -/
def buildSubmitPdu (recipient : CStr) (encoding : SmsEncoding) (requestStatusReport : Bool)
    (udh payload : List UInt8) : Option (Nat × CStr) := do
  let pdu ← PduBuffer.empty.put 0x00
  let tpduStart := pdu.bytes.length
  let pdu ← pdu.put (submitFirstOctet requestStatusReport (udh.length > 0))
  let pdu ← pdu.put 0x00
  let pdu ← addressEncode pdu recipient
  let pdu ← pdu.put 0x00
  let pdu ← putUserData pdu encoding udh payload
  let hex ← hexEncode pdu.bytes smsMaxPduHex
  some (pdu.bytes.length - tpduStart, hex)

def splitGsm7 (septets : List UInt8) (perSegment : Nat) : Option (List (Nat × Nat)) :=
  splitSpans isEscape perSegment septets smsMaxSegments 0

def ucs2EncodeStep (capacity : Nat) (out : List Nat) (cp : Nat) : Option (List Nat) :=
  if cp ≤ 0xFFFF then
    if (0xD800 ≤ cp ∧ cp ≤ 0xDFFF) ∨ out.length ≥ capacity then none else some (out ++ [cp])
  else if cp > 0x10FFFF ∨ out.length + 2 > capacity then none
  else
    let offset := cp - 0x10000
    some (out ++ [0xD800 ||| offset >>> 10, 0xDC00 ||| offset &&& 0x03FF])

def utf8ToUcs2 (text : List UInt8) (capacity : Nat) : Option (List Nat) :=
  forEachCodepoint (ucs2EncodeStep capacity) text []

def isHighSurrogate (unit : Nat) : Bool := decide (0xD800 ≤ unit ∧ unit ≤ 0xDBFF)

/-- The chunking loop of the UCS-2 branch. -/
def splitUcs2 (units : List Nat) (unitsPerSegment : Nat) : Option (List (Nat × Nat)) :=
  splitSpans isHighSurrogate unitsPerSegment units smsMaxSegments 0

def unitOctets (unit : Nat) : List UInt8 := [UInt8.ofNat (unit >>> 8), UInt8.ofNat unit]

/-- The only segment of a short message. -/
def buildSingle (recipient : CStr) (encoding : SmsEncoding) (requestStatusReport : Bool)
    (payload : List UInt8) : Option (List SmsSubmitSegment) := do
  let (length, hex) ← buildSubmitPdu recipient encoding requestStatusReport [] payload
  some [⟨encoding, .zero, 1, 1, length, hex⟩]

/-- Part `number` of a long message. -/
def buildPart (recipient : CStr) (encoding : SmsEncoding) (requestStatusReport : Bool)
    (reference : UInt16) (parts : Nat) (payload : List UInt8) (number : Nat) :
    Option SmsSubmitSegment := do
  let udh := concatHeader reference (UInt8.ofNat parts) (UInt8.ofNat number)
  let (length, hex) ← buildSubmitPdu recipient encoding requestStatusReport udh payload
  some {
    encoding := encoding
    concat := {
      present := true
      is16bit := reference > 0xFF
      reference := reference
      totalParts := UInt8.ofNat parts
      partNumber := UInt8.ofNat number }
    segmentNumber := UInt8.ofNat number
    segmentCount := UInt8.ofNat parts
    tpduLengthOctets := length
    pduHex := hex }

/-- The loop over the parts, from part `number` on. -/
def buildParts (recipient : CStr) (encoding : SmsEncoding) (requestStatusReport : Bool)
    (reference : UInt16) (parts : Nat) : List (List UInt8) → Nat → Option (List SmsSubmitSegment)
  | [], _ => some []
  | payload :: rest, number => do
      let segment ← buildPart recipient encoding requestStatusReport reference parts payload number
      let later ← buildParts recipient encoding requestStatusReport reference parts rest (number + 1)
      some (segment :: later)

/-- The length of the header before the number of parts is known. -/
def concatHeaderLength (reference : UInt16) : Nat := (concatHeader reference 1 1).length

def encodeGsm7 (recipient : CStr) (requestStatusReport : Bool) (reference : UInt16)
    (maxSegments : Nat) (septets : List UInt8) : Option (List SmsSubmitSegment) :=
  if septets.length ≤ 160 then buildSingle recipient .gsm7 requestStatusReport septets
  else match splitGsm7 septets (160 - headerSeptets (concatHeaderLength reference)) with
    | none => none
    | some spans =>
        if spans.length > maxSegments ∨ spans.length > 255 then none
        else buildParts recipient .gsm7 requestStatusReport reference spans.length
          (spans.map (spanUnits septets)) 1

def encodeUcs2 (recipient : CStr) (requestStatusReport : Bool) (reference : UInt16)
    (maxSegments : Nat) (units : List Nat) : Option (List SmsSubmitSegment) :=
  if units.length ≤ 70 then
    buildSingle recipient .ucs2 requestStatusReport (units.flatMap unitOctets)
  else match splitUcs2 units ((140 - concatHeaderLength reference) / 2) with
    | none => none
    | some spans =>
        if spans.length = 0 ∨ spans.length > maxSegments ∨ spans.length > 255 then none
        else buildParts recipient .ucs2 requestStatusReport reference spans.length
          (spans.map fun span => (spanUnits units span).flatMap unitOctets) 1

/-- The segments of a message, or `none` when `sms_submit_encode` returns false. -/
def smsSubmitEncode (recipient text : CStr) (requestStatusReport : Bool)
    (concatReference : UInt16) (maxSegments : Nat) : Option (List SmsSubmitSegment) :=
  if maxSegments = 0 then none
  else match addressValidate recipient with
    | none => none
    | some _ =>
        match smsGsm7SeptetCount text.bytes with
        | some gsmCount =>
            if gsmCount > smsMaxGsm7Septets then none
            else match smsGsm7Encode text.bytes smsMaxGsm7Septets with
              | none => none
              | some septets =>
                  encodeGsm7 recipient requestStatusReport concatReference maxSegments septets
        | none =>
            match utf8ToUcs2 text.bytes smsMaxUcs2Units with
            | none => none
            | some units =>
                encodeUcs2 recipient requestStatusReport concatReference maxSegments units

end SmsGateway
