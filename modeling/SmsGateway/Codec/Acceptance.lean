import Mathlib.Data.Nat.Find
import SmsGateway.Codec.Characters
import SmsGateway.Codec.RoundTrip

/-! Which messages `sms_submit_encode` accepts, and in how many segments.

Every check behind the validation of the recipient and the split of the text
passes, so that the number of greedy chunks decides. -/

namespace SmsGateway

open Lib

/-! Building the PDU of a payload that fits cannot fail. -/

theorem PduBuffer.append_ok (buffer : PduBuffer) (data : List UInt8)
    (room : buffer.bytes.length + data.length ≤ smsMaxPduOctets) :
    ∃ after, buffer.append data = some after ∧ after.bytes = buffer.bytes ++ data :=
  ⟨_, dif_pos room, rfl⟩

theorem PduBuffer.put_ok (buffer : PduBuffer) (byte : UInt8)
    (room : buffer.bytes.length < smsMaxPduOctets) :
    ∃ after, buffer.put byte = some after ∧ after.bytes.length = buffer.bytes.length + 1 := by
  obtain ⟨after, put, bytes⟩ := append_ok buffer [byte] room
  exact ⟨after, put, by rw [bytes]; simp⟩

theorem putAll_ok (data : List UInt8) (buffer : PduBuffer)
    (room : buffer.bytes.length + data.length ≤ smsMaxPduOctets) :
    ∃ after, data.foldlM PduBuffer.put buffer = some after ∧
      after.bytes.length = buffer.bytes.length + data.length := by
  induction data generalizing buffer with
  | nil => exact ⟨buffer, rfl, rfl⟩
  | cons octet data ih =>
      rw [List.length_cons] at room
      obtain ⟨next, put, length⟩ := PduBuffer.put_ok buffer octet (by omega)
      obtain ⟨after, rest, total⟩ := ih next (by omega)
      refine ⟨after, ?_, by rw [total, length, List.length_cons]; omega⟩
      rw [List.foldlM_cons, put]
      exact rest

theorem addressEncode_ok {recipient : CStr} {digits : List UInt8} {international : Bool}
    (valid : addressValidate recipient = some (digits, international)) (buffer : PduBuffer)
    (room : buffer.bytes.length + 12 ≤ smsMaxPduOctets) :
    ∃ after, addressEncode buffer recipient = some after ∧
      after.bytes.length ≤ buffer.bytes.length + 12 := by
  have few := (addressValidate_some valid).2.1
  have octets := semiOctets_length digits
  obtain ⟨first, put1, length1⟩ :=
    PduBuffer.put_ok buffer (UInt8.ofNat digits.length) (by omega)
  obtain ⟨second, put2, length2⟩ :=
    PduBuffer.put_ok first (if international then 0x91 else 0x81) (by omega)
  obtain ⟨after, put3, length3⟩ :=
    putAll_ok (semiOctets digits) second (by omega)
  refine ⟨after, ?_, by omega⟩
  simp only [addressEncode, valid, put1, put2, put3, bind, Option.bind]

theorem packLoop_length (totalBytes : Nat) (septets : List UInt8) (bit : Nat) (out : List UInt8) :
    (packLoop totalBytes septets bit out).length = out.length := by
  induction septets generalizing bit out with
  | nil => rfl
  | cons septet septets ih => rw [packLoop, ih, packSeptet_length]

/-- The user data fits behind a header of this length. -/
def PayloadFits (udhLen length : Nat) : SmsEncoding → Prop
  | .gsm7 => udhSeptets udhLen + length ≤ 160
  | .ucs2 => udhLen + length ≤ 140
  | .eightBit | .unknown => False

theorem packSeptets_ok {septets udh : List UInt8}
    (fits : udhSeptets udh.length + septets.length ≤ 160) :
    ∃ packed udl, packSeptets septets udh 140 = some (packed, udl) ∧ packed.length ≤ 140 := by
  have header := udhSeptets_bits udh.length
  refine ⟨_, _, if_neg (by omega), ?_⟩
  simp only [packLoop_length, List.length_append, List.length_replicate]
  omega

theorem putUdh_ok (buffer : PduBuffer) (udh : List UInt8)
    (room : buffer.bytes.length + udh.length ≤ smsMaxPduOctets) :
    ∃ after, putUdh buffer udh = some after ∧
      after.bytes.length = buffer.bytes.length + udh.length := by
  simp only [putUdh]
  split
  · obtain ⟨after, put, bytes⟩ := PduBuffer.append_ok buffer udh room
    exact ⟨after, put, by rw [bytes, List.length_append]⟩
  · exact ⟨buffer, rfl, by omega⟩

theorem putUserData_ok (buffer : PduBuffer) {encoding : SmsEncoding} {udh payload : List UInt8}
    (fits : PayloadFits udh.length payload.length encoding)
    (room : buffer.bytes.length + 142 ≤ smsMaxPduOctets) :
    ∃ after, putUserData buffer encoding udh payload = some after := by
  cases encoding with
  | gsm7 =>
      obtain ⟨packed, udl, pack, small⟩ := packSeptets_ok fits
      obtain ⟨first, put1, length1⟩ := PduBuffer.put_ok buffer 0x00 (by omega)
      obtain ⟨second, put2, length2⟩ := PduBuffer.put_ok first udl (by omega)
      obtain ⟨after, put3, -⟩ :=
        PduBuffer.append_ok second packed (by omega)
      exact ⟨after, by simp only [putUserData, put1, pack, put2, put3, bind, Option.bind]⟩
  | ucs2 =>
      simp only [PayloadFits] at fits
      obtain ⟨first, put1, length1⟩ := PduBuffer.put_ok buffer 0x08 (by omega)
      obtain ⟨second, put2, length2⟩ := PduBuffer.put_ok first
        (UInt8.ofNat (udh.length + payload.length)) (by omega)
      obtain ⟨third, put3, length3⟩ := putUdh_ok second udh (by omega)
      obtain ⟨after, put4, -⟩ :=
        PduBuffer.append_ok third payload (by omega)
      exact ⟨after, by simp only [putUserData, put1, show ¬ udh.length + payload.length > 140 by omega,
        ↓reduceIte, put2, put3, put4, bind, Option.bind]⟩
  | eightBit => cases fits
  | unknown => cases fits

section

variable {recipient : CStr} {digits : List UInt8} {international : Bool}
  (valid : addressValidate recipient = some (digits, international)) {encoding : SmsEncoding}
  (report : Bool)
include valid

theorem buildSubmitPdu_ok (udh : List UInt8) {payload : List UInt8}
    (fits : PayloadFits udh.length payload.length encoding) :
    ∃ length hex, buildSubmitPdu recipient encoding report udh payload = some (length, hex) := by
  have size : smsMaxPduOctets = 176 := rfl
  have start : PduBuffer.empty.bytes.length = 0 := rfl
  obtain ⟨pdu0, put0, length0⟩ := PduBuffer.put_ok .empty 0x00 (by omega)
  obtain ⟨pdu1, put1, length1⟩ := PduBuffer.put_ok pdu0
    (submitFirstOctet report (udh.length > 0)) (by omega)
  obtain ⟨pdu2, put2, length2⟩ := PduBuffer.put_ok pdu1 0x00 (by omega)
  obtain ⟨pdu3, put3, length3⟩ := addressEncode_ok valid pdu2 (by omega)
  obtain ⟨pdu4, put4, length4⟩ := PduBuffer.put_ok pdu3 0x00 (by omega)
  obtain ⟨pdu5, put5⟩ := putUserData_ok pdu4 fits (by omega)
  have room := pdu5.fits
  have hex : hexEncode pdu5.bytes smsMaxPduHex = some (pduOf pdu5.bytes) := by
    refine if_neg ?_
    simp only [smsMaxPduHex]
    omega
  refine ⟨pdu5.bytes.length - pdu0.bytes.length, pduOf pdu5.bytes, ?_⟩
  simp only [buildSubmitPdu, put0, put1, put2, put3, put4, put5, hex, bind, Option.bind]

theorem buildSingle_ok {payload : List UInt8} (fits : PayloadFits 0 payload.length encoding) :
    ∃ segment, buildSingle recipient encoding report payload = some [segment] ∧
      segment.encoding = encoding := by
  obtain ⟨length, hex, built⟩ := buildSubmitPdu_ok valid report [] fits
  exact ⟨⟨encoding, .zero, 1, 1, length, hex⟩, by simp only [buildSingle, built, bind, Option.bind],
    rfl⟩

theorem buildPart_ok (reference : UInt16) (parts number : Nat) {payload : List UInt8}
    (fits : PayloadFits (concatHeaderLength reference) payload.length encoding) :
    ∃ segment, buildPart recipient encoding report reference parts payload number = some segment ∧
      segment.encoding = encoding := by
  have header := concatHeader_length reference (UInt8.ofNat parts) (UInt8.ofNat number)
  obtain ⟨length, hex, built⟩ := buildSubmitPdu_ok valid report _ (header ▸ fits)
  simp only [buildPart, built, bind, Option.bind]
  exact ⟨_, rfl, rfl⟩

theorem buildParts_ok (reference : UInt16) (parts : Nat) {payloads : List (List UInt8)}
    (fits : ∀ payload ∈ payloads,
      PayloadFits (concatHeaderLength reference) payload.length encoding) (number : Nat) :
    ∃ segments, buildParts recipient encoding report reference parts payloads number =
      some segments ∧ segments.length = payloads.length ∧
        ∀ segment ∈ segments, segment.encoding = encoding := by
  induction payloads generalizing number with
  | nil => exact ⟨[], rfl, rfl, nofun⟩
  | cons payload payloads ih =>
      obtain ⟨segment, built, kind⟩ :=
        buildPart_ok valid report reference parts number (fits payload List.mem_cons_self)
      obtain ⟨later, rest, count, kinds⟩ :=
        ih (fun other member => fits other (List.mem_cons_of_mem _ member)) (number + 1)
      refine ⟨segment :: later, ?_, by rw [List.length_cons, List.length_cons, count], ?_⟩
      · simp only [buildParts, built, rest, bind, Option.bind]
      · intro other member
        rcases List.mem_cons.mp member with rfl | member
        · exact kind
        · exact kinds other member

end

/-! The capacity of a segment. -/

def singleCapacity : SmsEncoding → Nat
  | .gsm7 => 160
  | _ => 70

/-- What one of several segments holds, by the width of the reference. -/
def partCapacity (reference : UInt16) : SmsEncoding → Nat
  | .gsm7 => if reference ≤ 0xFF then 153 else 152
  | _ => if reference ≤ 0xFF then 67 else 66

theorem partCapacity_gsm7 (reference : UInt16) :
    160 - headerSeptets (concatHeaderLength reference) = partCapacity reference .gsm7 ∧
      udhSeptets (concatHeaderLength reference) + partCapacity reference .gsm7 = 160 := by
  simp only [concatHeaderLength_eq, partCapacity]
  split <;> decide

theorem partCapacity_ucs2 (reference : UInt16) :
    (140 - concatHeaderLength reference) / 2 = partCapacity reference .ucs2 ∧
      concatHeaderLength reference + 2 * partCapacity reference .ucs2 ≤ 140 := by
  simp only [concatHeaderLength_eq, partCapacity]
  split <;> decide

theorem partCapacity_bounds (reference : UInt16) (encoding : SmsEncoding) :
    2 ≤ partCapacity reference encoding ∧
      partCapacity reference encoding ≤ singleCapacity encoding := by
  cases encoding <;> simp only [partCapacity, singleCapacity] <;> split <;> decide

/-- The result for a text that takes this many segments. -/
inductive Outcome (encoding : SmsEncoding) (limit : Nat) :
    Option Nat → Option (List SmsSubmitSegment) → Prop where
  | built {segments : List SmsSubmitSegment} (few : segments.length ≤ limit)
      (kinds : ∀ segment ∈ segments, segment.encoding = encoding) :
      Outcome encoding limit (some segments.length) (some segments)
  | refused {n : Nat} (beyond : limit < n) : Outcome encoding limit (some n) none
  | failed : Outcome encoding limit none none

section

variable {recipient : CStr} {digits : List UInt8} {international : Bool}
  (valid : addressValidate recipient = some (digits, international)) (report : Bool)
  (reference : UInt16) {maxSegments : Nat} (positive : 1 ≤ maxSegments)
include valid positive

theorem single_outcome {encoding : SmsEncoding} {payload : List UInt8}
    (fits : PayloadFits 0 payload.length encoding) :
    Outcome encoding maxSegments (some 1) (buildSingle recipient encoding report payload) := by
  obtain ⟨segment, built, kind⟩ := buildSingle_ok valid report fits
  rw [built]
  have kinds : ∀ other ∈ [segment], other.encoding = encoding := by
    intro other member
    rw [List.mem_singleton.mp member, kind]
  exact .built positive kinds

omit positive in
theorem parts_outcome {encoding : SmsEncoding} (spans : List (Nat × Nat))
    (payload : Nat × Nat → List UInt8) (few : spans.length ≤ maxSegments)
    (fits : ∀ span ∈ spans,
      PayloadFits (concatHeaderLength reference) (payload span).length encoding) :
    Outcome encoding maxSegments (some spans.length)
      (buildParts recipient encoding report reference spans.length (spans.map payload) 1) := by
  obtain ⟨segments, built, count, kinds⟩ :=
    buildParts_ok valid report reference spans.length (List.forall_mem_map.mpr fits) 1
  rw [List.length_map] at count
  rw [built, ← count]
  exact .built (count ▸ few) kinds

theorem encodeGsm7_outcome (septets : List UInt8) :
    Outcome .gsm7 maxSegments
      (chunkCount isEscape 160 (partCapacity reference .gsm7) smsMaxSegments septets)
      (encodeGsm7 recipient report reference maxSegments septets) := by
  obtain ⟨capacity, room⟩ := partCapacity_gsm7 reference
  simp only [chunkCount, encodeGsm7, splitGsm7, capacity]
  split
  · rename_i short
    refine single_outcome valid report positive ?_
    simpa [PayloadFits, udhSeptets] using short
  · cases split : splitSpans isEscape (partCapacity reference .gsm7) septets smsMaxSegments 0 with
    | none => exact .failed
    | some spans =>
        obtain ⟨bounds, count, -⟩ := splitSpans_bounds split
        have limit : smsMaxSegments = 16 := rfl
        simp only [Option.map_some]
        split
        · exact .refused (by omega)
        · rename_i few
          refine parts_outcome valid report reference spans _ (by omega) ?_
          intro span inside
          have length := spanUnits_length septets span
          have bound := (bounds span inside).1
          simp only [PayloadFits]
          omega

theorem encodeUcs2_outcome (units : List Nat) :
    Outcome .ucs2 maxSegments
      (chunkCount isHighSurrogate 70 (partCapacity reference .ucs2) smsMaxSegments units)
      (encodeUcs2 recipient report reference maxSegments units) := by
  obtain ⟨capacity, room⟩ := partCapacity_ucs2 reference
  have narrow := (partCapacity_bounds reference .ucs2).2
  simp only [chunkCount, encodeUcs2, splitUcs2, capacity]
  split
  · rename_i short
    refine single_outcome valid report positive ?_
    simp only [PayloadFits, unitOctets_length]
    omega
  · rename_i long
    cases split :
        splitSpans isHighSurrogate (partCapacity reference .ucs2) units smsMaxSegments 0 with
    | none => exact .failed
    | some spans =>
        obtain ⟨bounds, count, several⟩ := splitSpans_bounds split
        have many := several (by simp only [singleCapacity] at narrow; omega)
        have limit : smsMaxSegments = 16 := rfl
        simp only [Option.map_some]
        split
        · exact .refused (by omega)
        · rename_i few
          refine parts_outcome valid report reference spans _ (by omega) ?_
          intro span inside
          have length := spanUnits_length units span
          have bound := (bounds span inside).1
          simp only [PayloadFits, unitOctets_length]
          omega

end

/-! The characters of a text. -/

/-- The code points of the default alphabet that take one septet. -/
def gsm7Single : List Nat := gsm7Basic.eraseIdx 0x1B

/-- The code points that take an escape and a second septet. -/
def gsm7Escaped : List Nat := gsm7Extension.map Prod.fst

/-- GSM 7-bit can represent the character. -/
def InGsm7 (c : Char) : Prop := c.toNat ∈ gsm7Single ∨ c.toNat ∈ gsm7Escaped

instance : DecidablePred InGsm7 := fun _ => inferInstanceAs (Decidable (_ ∨ _))

instance (chars : List Char) : Decidable (∀ c ∈ chars, InGsm7 c) := List.decidableBAll _ chars

/-- The septets or the UTF-16 units of a character. -/
def charSize : SmsEncoding → Char → Nat
  | .gsm7, c => if c.toNat ∈ gsm7Single then 1 else 2
  | _, c => if c.toNat ≤ 0xFFFF then 1 else 2

def textEncoding (chars : List Char) : SmsEncoding :=
  if ∀ c ∈ chars, InGsm7 c then .gsm7 else .ucs2

/-- The text in `n` parts cut at character boundaries, each within the capacity of
a segment. -/
def FitsInto (reference : UInt16) (chars : List Char) (n : Nat) : Prop :=
  CutsInto (charSize (textEncoding chars)) (singleCapacity (textEncoding chars))
    (partCapacity reference (textEncoding chars)) chars n

theorem basicIndex_isSome (cp : Nat) :
    ((List.range 128).find? fun i => i ≠ 0x1B ∧ gsm7Basic[i]? = some cp).isSome ↔
      cp ∈ gsm7Single := by
  have size : gsm7Basic.length = 128 := rfl
  rw [List.find?_isSome, gsm7Single, List.mem_eraseIdx_iff_getElem?]
  simp only [List.mem_range, decide_eq_true_eq]
  constructor
  · rintro ⟨i, -, other, entry⟩
    exact ⟨i, other, entry⟩
  · rintro ⟨i, other, entry⟩
    obtain ⟨inside, -⟩ := List.getElem?_eq_some_iff.mp entry
    exact ⟨i, by omega, other, entry⟩

theorem extensionEntry_isSome (cp : Nat) :
    (gsm7Extension.find? fun entry => entry.1 = cp).isSome ↔ cp ∈ gsm7Escaped := by
  rw [List.find?_isSome, gsm7Escaped, List.mem_map]
  simp only [decide_eq_true_eq]

/-- The lookup finds the characters that GSM 7-bit can represent. -/
theorem gsm7Find_char (c : Char) :
    (InGsm7 c → gsm7Find c.toNat = some (septetsOf c.toNat) ∧
      (septetsOf c.toNat).length = charSize .gsm7 c) ∧
    (¬ InGsm7 c → gsm7Find c.toNat = none) := by
  have basic := basicIndex_isSome c.toNat
  have escaped := extensionEntry_isSome c.toNat
  simp only [InGsm7, charSize, septetsOf, gsm7Find]
  generalize (List.range 128).find? (fun i => i ≠ 0x1B ∧ gsm7Basic[i]? = some c.toNat) = index
    at basic
  generalize gsm7Extension.find? (fun entry => entry.1 = c.toNat) = entry at escaped
  cases index with
  | some i =>
      have inside := basic.mp rfl
      simp [inside]
  | none =>
      have outside : c.toNat ∉ gsm7Single := by simpa using basic
      cases entry with
      | some entry =>
          have inside := escaped.mp rfl
          simp [outside, inside]
      | none =>
          have neither : c.toNat ∉ gsm7Escaped := by simpa using escaped
          simp [outside, neither]

theorem unitsOf_char_length (c : Char) : (unitsOf c.toNat).length = charSize .ucs2 c := by
  simp only [unitsOf, charSize]
  split <;> rfl

def charSeptets (c : Char) : List UInt8 := septetsOf c.toNat
def charUnits (c : Char) : List Nat := unitsOf c.toNat

theorem septetCount_fold (chars : List Char) (start : Nat) :
    (chars.map Char.toNat).foldlM
        (fun total cp => (gsm7Find cp).map fun septets => total + septets.length) start =
      if ∀ c ∈ chars, InGsm7 c then some (start + (chars.flatMap charSeptets).length)
      else none := by
  induction chars generalizing start with
  | nil => simp
  | cons c chars ih =>
      obtain ⟨found, missing⟩ := gsm7Find_char c
      rw [List.map_cons, List.foldlM_cons]
      by_cases inside : InGsm7 c
      · rw [(found inside).1, Option.map_some]
        refine (ih _).trans ?_
        simp only [List.forall_mem_cons, inside, true_and, List.flatMap_cons, List.length_append,
          charSeptets, Nat.add_assoc]
      · rw [missing inside]
        simp [inside]

theorem flatMap_septetsOf (chars : List Char) :
    (chars.map Char.toNat).flatMap septetsOf = chars.flatMap charSeptets := by
  rw [List.flatMap_map]
  rfl

theorem gsm7Encode_fold (capacity : Nat) {chars : List Char} (inside : ∀ c ∈ chars, InGsm7 c)
    (out : List UInt8) (room : out.length + (chars.flatMap charSeptets).length ≤ capacity) :
    (chars.map Char.toNat).foldlM (gsm7EncodeStep capacity) out =
      some (out ++ chars.flatMap charSeptets) := by
  rw [← flatMap_septetsOf] at room ⊢
  apply gsm7EncodeStep_found _ room
  intro cp member
  obtain ⟨c, present, rfl⟩ := List.mem_map.mp member
  exact ((gsm7Find_char c).1 (inside c present)).1

theorem ucs2EncodeStep_char (capacity : Nat) (out : List Nat) (c : Char) :
    ucs2EncodeStep capacity out c.toNat =
      if out.length + (charUnits c).length ≤ capacity then some (out ++ charUnits c) else none := by
  obtain ⟨bound, gap⟩ := char_isScalar c
  simp only [ucs2EncodeStep, charUnits, unitsOf]
  split
  · simp only [gap, false_or, List.length_singleton, ge_iff_le]
    split <;> split <;> first | rfl | omega
  · simp only [show ¬ c.toNat > 0x10FFFF by omega, false_or, List.length_cons, List.length_nil]
    split <;> split <;> first | rfl | omega

theorem ucs2Encode_fold (capacity : Nat) (chars : List Char) (out : List Nat)
    (fits : out.length ≤ capacity) :
    (chars.map Char.toNat).foldlM (ucs2EncodeStep capacity) out =
      if out.length + (chars.flatMap charUnits).length ≤ capacity then
        some (out ++ chars.flatMap charUnits)
      else none := by
  induction chars generalizing out with
  | nil => simp [fits]
  | cons c chars ih =>
      rw [List.map_cons, List.foldlM_cons, ucs2EncodeStep_char, List.flatMap_cons,
        List.length_append]
      by_cases room : out.length + (charUnits c).length ≤ capacity
      · rw [if_pos room]
        refine (ih _ (by rwa [List.length_append])).trans ?_
        rw [List.length_append, List.append_assoc, Nat.add_assoc]
      · rw [if_neg room, if_neg (by omega)]
        rfl

/-- Malformed text stops every loop over it. -/
theorem forEachCodepoint_malformed {σ : Type} (step : σ → Nat → Option σ) {text : List UInt8}
    (malformed : ¬ ∃ chars, text = utf8Text chars) (start : σ) :
    forEachCodepoint step text start = none := by
  cases walked : forEachCodepoint step text start with
  | none => rfl
  | some final =>
      obtain ⟨cps, reads, -⟩ := walkUtf8_some walked
      obtain ⟨chars, same, -⟩ := utf8Text_iff.mp reads
      exact absurd ⟨chars, same⟩ malformed

/-- How many segments the text takes; none if it takes too many. -/
def messageCount (reference : UInt16) (chars : List Char) : Option Nat :=
  if ∀ c ∈ chars, InGsm7 c then
    chunkCount isEscape 160 (partCapacity reference .gsm7) smsMaxSegments (chars.flatMap charSeptets)
  else
    chunkCount isHighSurrogate 70 (partCapacity reference .ucs2) smsMaxSegments
      (chars.flatMap charUnits)

/-- The result of the encoder by the number of segments. -/
theorem smsSubmitEncode_outcome {recipient text : CStr} {digits : List UInt8} {international : Bool}
    (valid : addressValidate recipient = some (digits, international)) (report : Bool)
    (reference : UInt16) {maxSegments : Nat} (positive : 1 ≤ maxSegments) {chars : List Char}
    (bytes : text.bytes = utf8Text chars) :
    Outcome (textEncoding chars) maxSegments (messageCount reference chars)
      (smsSubmitEncode recipient text report reference maxSegments) := by
  have septetLimit : smsMaxGsm7Septets = 2560 := rfl
  have unitLimit : smsMaxUcs2Units = 1120 := rfl
  have limit : smsMaxSegments = 16 := rfl
  have count := septetCount_fold chars 0
  rw [← forEachCodepoint_text, ← bytes] at count
  simp only [smsSubmitEncode, valid, smsGsm7SeptetCount, count, messageCount, textEncoding,
    show maxSegments ≠ 0 by omega, ↓reduceIte]
  by_cases inside : ∀ c ∈ chars, InGsm7 c
  · have capacity := (partCapacity_bounds reference .gsm7).2
    simp only [singleCapacity] at capacity
    simp only [if_pos inside, Nat.zero_add]
    split
    · rename_i beyond
      rw [chunkCount_none (by omega) (by rw [limit]; omega)]
      exact .failed
    · rename_i fits
      have encoded := gsm7Encode_fold smsMaxGsm7Septets inside []
        (by rw [List.length_nil]; omega)
      rw [← forEachCodepoint_text, ← bytes] at encoded
      simp only [smsGsm7Encode, encoded, List.nil_append]
      exact encodeGsm7_outcome valid report reference positive _
  · have capacity := (partCapacity_bounds reference .ucs2).2
    simp only [singleCapacity] at capacity
    have units := ucs2Encode_fold smsMaxUcs2Units chars [] (Nat.zero_le _)
    rw [← forEachCodepoint_text, ← bytes] at units
    simp only [if_neg inside, utf8ToUcs2, units, List.length_nil, Nat.zero_add, List.nil_append]
    by_cases fits : (chars.flatMap charUnits).length ≤ smsMaxUcs2Units
    · simp only [if_pos fits]
      exact encodeUcs2_outcome valid report reference positive _
    · rw [if_neg fits, chunkCount_none (by omega) (by rw [limit]; omega)]
      exact .failed

/-- The number of segments is the least number of parts. -/
theorem messageCount_iff (reference : UInt16) (chars : List Char) (n : Nat) :
    messageCount reference chars = some n ↔
      n ≤ smsMaxSegments ∧ IsLeast {k | FitsInto reference chars k} n := by
  simp only [messageCount, FitsInto, textEncoding]
  by_cases inside : ∀ c ∈ chars, InGsm7 c
  · obtain ⟨wide, larger⟩ := partCapacity_bounds reference .gsm7
    have coded : ∀ c ∈ chars, IsCode isEscape (charSeptets c) := fun c member =>
      gsm7Find_isCode ((gsm7Find_char c).1 (inside c member)).1
    have sizes : ∀ c ∈ chars, (charSeptets c).length = charSize .gsm7 c := fun c member =>
      ((gsm7Find_char c).1 (inside c member)).2
    simp only [if_pos inside, singleCapacity] at larger ⊢
    rw [chunkCount_iff wide larger (show 1 ≤ smsMaxSegments by decide) coded]
    simp only [CutsInto.congr sizes]
  · obtain ⟨wide, larger⟩ := partCapacity_bounds reference .ucs2
    have coded : ∀ c ∈ chars, IsCode isHighSurrogate (charUnits c) := fun c _ =>
      unitsOf_isCode (char_isScalar c)
    have sizes : ∀ c ∈ chars, (charUnits c).length = charSize .ucs2 c := fun c _ =>
      unitsOf_char_length c
    simp only [if_neg inside, singleCapacity] at larger ⊢
    rw [chunkCount_iff wide larger (show 1 ≤ smsMaxSegments by decide) coded]
    simp only [CutsInto.congr sizes]

/-- If the text fits into some parts, it is encoded in no more. -/
theorem messageCount_of_fits {reference : UInt16} {chars : List Char} {n : Nat}
    (fits : FitsInto reference chars n) (few : n ≤ smsMaxSegments) :
    ∃ k ≤ n, messageCount reference chars = some k := by
  classical
  have least : IsLeast {k | FitsInto reference chars k} (Nat.find ⟨n, fits⟩) :=
    ⟨Nat.find_spec ⟨n, fits⟩, fun k member => Nat.find_min' _ member⟩
  have fewer : Nat.find ⟨n, fits⟩ ≤ n := least.2 fits
  exact ⟨_, fewer, (messageCount_iff reference chars _).mpr ⟨Nat.le_trans fewer few, least⟩⟩

/-- An optional plus and one to twenty digits. -/
def Dialable (recipient : CStr) : Prop :=
  ∃ digits : List UInt8, (recipient.bytes = digits ∨ recipient.bytes = 0x2B :: digits) ∧
    1 ≤ digits.length ∧ digits.length ≤ 20 ∧ ∀ ch ∈ digits, isDigit ch = true

theorem addressValidate_nonempty {recipient : CStr} {digits : List UInt8} {international : Bool}
    (valid : addressValidate recipient = some (digits, international)) : 1 ≤ digits.length := by
  simp only [addressValidate, Option.ite_none_left_eq_some, Option.ite_none_right_eq_some,
    Option.some.injEq, Prod.mk.injEq] at valid
  obtain ⟨size, -, same, -⟩ := valid
  rw [same] at size
  omega

theorem addressValidate_iff (recipient : CStr) :
    (∃ digits international, addressValidate recipient = some (digits, international)) ↔
      Dialable recipient := by
  constructor
  · rintro ⟨digits, international, valid⟩
    obtain ⟨bytes, few, allDigits⟩ := addressValidate_some valid
    refine ⟨digits, ?_, ?_, few, allDigits⟩
    · cases international with
      | true => exact .inr bytes
      | false => exact .inl bytes
    · exact addressValidate_nonempty valid
  · rintro ⟨digits, bytes, some', few, allDigits⟩
    have every : digits.all isDigit = true := List.all_eq_true.mpr allDigits
    rcases bytes with bytes | bytes
    · have plain : (digits.head? == some 0x2B) = false := by
        cases digits with
        | nil => rfl
        | cons ch digits =>
            have digit := allDigits ch List.mem_cons_self
            simp only [List.head?_cons, beq_eq_false_iff_ne, ne_eq, Option.some.injEq]
            rintro rfl
            cases digit
      exact ⟨digits, false, by simp only [addressValidate, bytes, plain, Bool.false_eq_true,
        ↓reduceIte, show ¬ (digits.length = 0 ∨ digits.length > 20) by omega, every]⟩
    · exact ⟨digits, true, by simp only [addressValidate, bytes, List.head?_cons, beq_self_eq_true,
        ↓reduceIte, List.drop_succ_cons, List.drop_zero,
        show ¬ (digits.length = 0 ∨ digits.length > 20) by omega, every]⟩

theorem addressValidate_none {recipient : CStr} (invalid : ¬ Dialable recipient) :
    addressValidate recipient = none := by
  cases valid : addressValidate recipient with
  | none => rfl
  | some found => exact absurd ((addressValidate_iff recipient).mp ⟨_, _, valid⟩) invalid

theorem smsSubmitEncode_invalid {recipient : CStr} (invalid : ¬ Dialable recipient) (text : CStr)
    (report : Bool) (reference : UInt16) (maxSegments : Nat) :
    smsSubmitEncode recipient text report reference maxSegments = none := by
  simp only [smsSubmitEncode, addressValidate_none invalid, ite_self]

theorem smsSubmitEncode_malformed {text : CStr}
    (malformed : ¬ ∃ chars, text.bytes = utf8Text chars) (recipient : CStr) (report : Bool)
    (reference : UInt16) (maxSegments : Nat) :
    smsSubmitEncode recipient text report reference maxSegments = none := by
  simp only [smsSubmitEncode, smsGsm7SeptetCount, utf8ToUcs2,
    forEachCodepoint_malformed _ malformed]
  split
  · rfl
  · split <;> rfl

/-- What an encoded message says of its recipient, its text and its segments. -/
theorem smsSubmitEncode_some {recipient text : CStr} {report : Bool} {reference : UInt16}
    {maxSegments : Nat} {segments : List SmsSubmitSegment} (positive : 1 ≤ maxSegments)
    (encoded : smsSubmitEncode recipient text report reference maxSegments = some segments) :
    Dialable recipient ∧ segments.length ≤ maxSegments ∧ ∃ chars, text.bytes = utf8Text chars ∧
      messageCount reference chars = some segments.length ∧
      ∀ segment ∈ segments, segment.encoding = textEncoding chars := by
  by_cases dialable : Dialable recipient
  swap
  · rw [smsSubmitEncode_invalid dialable] at encoded
    cases encoded
  by_cases wellFormed : ∃ chars, text.bytes = utf8Text chars
  swap
  · rw [smsSubmitEncode_malformed wellFormed] at encoded
    cases encoded
  obtain ⟨digits, international, valid⟩ := (addressValidate_iff recipient).mpr dialable
  obtain ⟨chars, bytes⟩ := wellFormed
  have outcome := smsSubmitEncode_outcome valid report reference positive bytes
  rw [encoded] at outcome
  generalize counted : messageCount reference chars = count at outcome
  cases outcome with
  | built few kinds => exact ⟨dialable, few, chars, bytes, counted, kinds⟩

/-- A message of that many segments is encoded. -/
theorem smsSubmitEncode_ok {recipient text : CStr} (dialable : Dialable recipient) (report : Bool)
    {reference : UInt16} {maxSegments n : Nat} (positive : 1 ≤ maxSegments) {chars : List Char}
    (bytes : text.bytes = utf8Text chars) (counted : messageCount reference chars = some n)
    (few : n ≤ maxSegments) :
    ∃ segments, smsSubmitEncode recipient text report reference maxSegments = some segments ∧
      segments.length = n ∧ ∀ segment ∈ segments, segment.encoding = textEncoding chars := by
  obtain ⟨digits, international, valid⟩ := (addressValidate_iff recipient).mpr dialable
  have outcome := smsSubmitEncode_outcome valid report reference positive bytes
  rw [counted] at outcome
  generalize encoded : smsSubmitEncode recipient text report reference maxSegments = result
    at outcome
  cases outcome with
  | built few kinds => exact ⟨_, rfl, rfl, kinds⟩
  | refused beyond => omega

/-! Room for more segments than there are changes nothing. -/

theorem buildParts_length {recipient : CStr} {encoding : SmsEncoding} {report : Bool}
    {reference : UInt16} {parts number : Nat} {payloads : List (List UInt8)}
    {segments : List SmsSubmitSegment}
    (built : buildParts recipient encoding report reference parts payloads number = some segments) :
    segments.length = payloads.length := by
  induction payloads generalizing number segments with
  | nil =>
      cases built
      rfl
  | cons payload payloads ih =>
      obtain ⟨segment, -, built⟩ := Option.bind_eq_some_iff.mp built
      obtain ⟨later, rest, built⟩ := Option.bind_eq_some_iff.mp built
      cases built
      rw [List.length_cons, List.length_cons, ih rest]

section

variable {recipient : CStr} {report : Bool} {reference : UInt16} {maxSegments limit : Nat}
  {segments : List SmsSubmitSegment}

theorem encodeGsm7_limit {septets : List UInt8}
    (encoded : encodeGsm7 recipient report reference maxSegments septets = some segments)
    (few : segments.length ≤ limit) :
    encodeGsm7 recipient report reference limit septets = some segments := by
  simp only [encodeGsm7] at encoded ⊢
  split at encoded
  · rw [if_pos ‹_›]
    exact encoded
  · rw [if_neg ‹_›]
    split at encoded
    · cases encoded
    · rename_i spans split
      split at encoded
      · cases encoded
      · have length := buildParts_length encoded
        rw [List.length_map] at length
        rw [if_neg (by omega)]
        exact encoded

theorem encodeUcs2_limit {units : List Nat}
    (encoded : encodeUcs2 recipient report reference maxSegments units = some segments)
    (few : segments.length ≤ limit) :
    encodeUcs2 recipient report reference limit units = some segments := by
  simp only [encodeUcs2] at encoded ⊢
  split at encoded
  · rw [if_pos ‹_›]
    exact encoded
  · rw [if_neg ‹_›]
    split at encoded
    · cases encoded
    · rename_i spans split
      split at encoded
      · cases encoded
      · have length := buildParts_length encoded
        rw [List.length_map] at length
        rw [if_neg (by omega)]
        exact encoded

theorem smsSubmitEncode_limit {text : CStr}
    (encoded : smsSubmitEncode recipient text report reference maxSegments = some segments)
    (positive : 1 ≤ limit) (few : segments.length ≤ limit) :
    smsSubmitEncode recipient text report reference limit = some segments := by
  simp only [smsSubmitEncode] at encoded ⊢
  rw [if_neg (show limit ≠ 0 by omega)]
  split at encoded
  · cases encoded
  split at encoded
  · cases encoded
  split at encoded
  · split at encoded
    · cases encoded
    · rw [if_neg ‹_›]
      split at encoded
      · cases encoded
      · exact encodeGsm7_limit encoded few
  · split at encoded
    · cases encoded
    · exact encodeUcs2_limit encoded few

end

/-- The encoder accepts a message if the recipient can be dialled and the text is
well-formed and fits, and takes as few segments as possible. -/
theorem smsSubmitEncode_accepts (recipient text : CStr) (report : Bool) (reference : UInt16)
    (maxSegments : Nat) (positive : 1 ≤ maxSegments) :
    ((smsSubmitEncode recipient text report reference maxSegments).isSome ↔
      Dialable recipient ∧ ∃ chars, text.bytes = utf8Text chars ∧
        ∃ n ≤ min 16 maxSegments, FitsInto reference chars n) ∧
    ∀ segments, smsSubmitEncode recipient text report reference maxSegments = some segments →
      ∃ chars, text.bytes = utf8Text chars ∧
        IsLeast {n | FitsInto reference chars n} segments.length ∧
        ∀ segment ∈ segments,
          segment.encoding = if ∀ c ∈ chars, InGsm7 c then .gsm7 else .ucs2 := by
  have limit : smsMaxSegments = 16 := rfl
  refine ⟨⟨?_, ?_⟩, ?_⟩
  · intro found
    obtain ⟨segments, encoded⟩ := Option.isSome_iff_exists.mp found
    obtain ⟨dialable, few, chars, bytes, counted, -⟩ := smsSubmitEncode_some positive encoded
    obtain ⟨total, least⟩ := (messageCount_iff reference chars _).mp counted
    exact ⟨dialable, chars, bytes, segments.length, by omega, least.1⟩
  · rintro ⟨dialable, chars, bytes, n, few, fits⟩
    obtain ⟨k, fewer, counted⟩ := messageCount_of_fits fits (by omega)
    obtain ⟨segments, encoded, -⟩ :=
      smsSubmitEncode_ok dialable report positive bytes counted (by omega)
    rw [encoded]
    rfl
  · intro segments encoded
    obtain ⟨-, -, chars, bytes, counted, kinds⟩ := smsSubmitEncode_some positive encoded
    exact ⟨chars, bytes, ((messageCount_iff reference chars _).mp counted).2, kinds⟩

theorem smsSubmitEncode_accepts_hi : Dialable (.text "+49170") ∧
    ∃ chars, (CStr.text "hi").bytes = utf8Text chars ∧ ∃ n ≤ min 16 1, FitsInto 0 chars n :=
  (smsSubmitEncode_accepts (.text "+49170") (.text "hi") false 0 1 (by decide)).1.mp
    (by decide +kernel)

end SmsGateway
