import SmsGateway.Codec.Acceptance

/-! The check before a message is queued (`sms_submit_preflight`): it counts the
segments of the encoder without building them. -/

namespace SmsGateway

open Lib

/-- The counting loop of the UCS-2 branch: the segments from `cursor` on, at most
`budget` of them. -/
def countUcs2 (units : List Nat) (unitsPerSegment : Nat) : Nat → Nat → Option Nat
  | budget, cursor =>
      if units.length ≤ cursor then some 0
      else match budget with
        | 0 => none
        | budget + 1 =>
            let fits := min (units.length - cursor) unitsPerSegment
            let count :=
              if 0 < fits ∧ cursor + fits < units.length ∧
                  (units[cursor + fits - 1]?).any isHighSurrogate then fits - 1
              else fits
            if count = 0 then none
            else (countUcs2 units unitsPerSegment budget (cursor + count)).map (· + 1)

/-- The encoding and the number of segments, or `none` when `sms_submit_preflight`
returns false. -/
def smsSubmitPreflight (recipient text : CStr) (concatReference : UInt16) :
    Option (SmsEncoding × Nat) :=
  match addressValidate recipient with
  | none => none
  | some _ =>
      match smsGsm7SeptetCount text.bytes with
      | some gsmCount =>
          if gsmCount > smsMaxGsm7Septets then none
          else if gsmCount ≤ 160 then some (.gsm7, 1)
          else match smsGsm7Encode text.bytes smsMaxGsm7Septets with
            | none => none
            | some septets =>
                match splitGsm7 septets
                    (160 - headerSeptets (concatHeaderLength concatReference)) with
                | none => none
                | some spans =>
                    if spans.length = 0 ∨ spans.length > smsMaxSegments then none
                    else some (.gsm7, spans.length)
      | none =>
          match utf8ToUcs2 text.bytes smsMaxUcs2Units with
          | none => none
          | some units =>
              if units.length ≤ 70 then some (.ucs2, 1)
              else match countUcs2 units ((140 - concatHeaderLength concatReference) / 2)
                  smsMaxSegments 0 with
                | none => none
                | some parts =>
                    if parts = 0 ∨ parts > smsMaxSegments then none else some (.ucs2, parts)

/-- The counting loop takes the units that the splitting loop takes. -/
theorem takeUnits_eq (units : List Nat) (unitsPerSegment cursor : Nat) :
    takeUnits isHighSurrogate unitsPerSegment units cursor =
      (let fits := min (units.length - cursor) unitsPerSegment
       if 0 < fits ∧ cursor + fits < units.length ∧
           (units[cursor + fits - 1]?).any isHighSurrogate then fits - 1
       else fits) := by
  simp only [takeUnits]
  by_cases more : units.length - cursor > unitsPerSegment
  · simp only [more, ↓reduceIte, Nat.min_eq_right (Nat.le_of_lt more),
      show cursor + unitsPerSegment < units.length by omega, true_and, gt_iff_lt]
  · simp only [more, ↓reduceIte, Nat.min_eq_left (Nat.not_lt.mp more)]
    rw [if_neg]
    omega

theorem countUcs2_eq (units : List Nat) (unitsPerSegment budget cursor : Nat) :
    countUcs2 units unitsPerSegment budget cursor =
      (splitSpans isHighSurrogate unitsPerSegment units budget cursor).map List.length := by
  induction budget generalizing cursor with
  | zero =>
      unfold countUcs2 splitSpans
      split <;> rfl
  | succ budget ih =>
      unfold countUcs2 splitSpans
      simp only [← takeUnits_eq, ih]
      split
      · rfl
      · split
        · rfl
        · rw [Option.map_map, Option.map_map]
          rfl

theorem gsm7_count {septets : List UInt8} (long : ¬ septets.length ≤ 160) (reference : UInt16) :
    (match splitGsm7 septets (160 - headerSeptets (concatHeaderLength reference)) with
      | none => none
      | some spans =>
          if spans.length = 0 ∨ spans.length > smsMaxSegments then none
          else some (SmsEncoding.gsm7, spans.length)) =
      (chunkCount isEscape 160 (partCapacity reference .gsm7) smsMaxSegments septets).map
        (SmsEncoding.gsm7, ·) := by
  have narrow := (partCapacity_bounds reference .gsm7).2
  simp only [singleCapacity] at narrow
  simp only [chunkCount, long, ↓reduceIte, splitGsm7, (partCapacity_gsm7 reference).1]
  cases split : splitSpans isEscape (partCapacity reference .gsm7) septets smsMaxSegments 0 with
  | none => rfl
  | some spans =>
      obtain ⟨-, few, several⟩ := splitSpans_bounds split
      have many := several (by omega)
      simp only [Option.map_some]
      rw [if_neg (by omega)]

theorem ucs2_count {units : List Nat} (long : ¬ units.length ≤ 70) (reference : UInt16) :
    (match countUcs2 units ((140 - concatHeaderLength reference) / 2) smsMaxSegments 0 with
      | none => none
      | some parts =>
          if parts = 0 ∨ parts > smsMaxSegments then none else some (SmsEncoding.ucs2, parts)) =
      (chunkCount isHighSurrogate 70 (partCapacity reference .ucs2) smsMaxSegments units).map
        (SmsEncoding.ucs2, ·) := by
  have narrow := (partCapacity_bounds reference .ucs2).2
  simp only [singleCapacity] at narrow
  simp only [chunkCount, long, ↓reduceIte, countUcs2_eq, (partCapacity_ucs2 reference).1]
  cases split :
      splitSpans isHighSurrogate (partCapacity reference .ucs2) units smsMaxSegments 0 with
  | none => rfl
  | some spans =>
      obtain ⟨-, few, several⟩ := splitSpans_bounds split
      have many := several (by omega)
      simp only [Option.map_some]
      rw [if_neg (by omega)]

/-- The preflight computes the number of segments. -/
theorem smsSubmitPreflight_count {recipient text : CStr} {digits : List UInt8}
    {international : Bool} (valid : addressValidate recipient = some (digits, international))
    (reference : UInt16) {chars : List Char} (bytes : text.bytes = utf8Text chars) :
    smsSubmitPreflight recipient text reference =
      (messageCount reference chars).map (textEncoding chars, ·) := by
  have septetLimit : smsMaxGsm7Septets = 2560 := rfl
  have limit : smsMaxSegments = 16 := rfl
  have count := septetCount_fold chars 0
  rw [← forEachCodepoint_text, ← bytes] at count
  simp only [smsSubmitPreflight, valid, smsGsm7SeptetCount, count, messageCount, textEncoding]
  by_cases inside : ∀ c ∈ chars, InGsm7 c
  · have capacity := (partCapacity_bounds reference .gsm7).2
    simp only [singleCapacity] at capacity
    simp only [if_pos inside, Nat.zero_add]
    split
    · rename_i beyond
      rw [chunkCount_none (by omega) (by rw [limit]; omega)]
      rfl
    · rename_i fits
      split
      · rename_i short
        simp only [chunkCount, short, ↓reduceIte, Option.map_some]
      · rename_i long
        have encoded := gsm7Encode_fold smsMaxGsm7Septets inside []
          (by rw [List.length_nil]; omega)
        rw [← forEachCodepoint_text, ← bytes] at encoded
        simp only [smsGsm7Encode, encoded, List.nil_append]
        exact gsm7_count long reference
  · have capacity := (partCapacity_bounds reference .ucs2).2
    simp only [singleCapacity] at capacity
    have unitLimit : smsMaxUcs2Units = 1120 := rfl
    have units := ucs2Encode_fold smsMaxUcs2Units chars [] (Nat.zero_le _)
    rw [← forEachCodepoint_text, ← bytes] at units
    simp only [if_neg inside, utf8ToUcs2, units, List.length_nil, Nat.zero_add, List.nil_append]
    by_cases fits : (chars.flatMap charUnits).length ≤ smsMaxUcs2Units
    · simp only [if_pos fits]
      split
      · rename_i short
        simp only [chunkCount, short, ↓reduceIte, Option.map_some]
      · rename_i long
        exact ucs2_count long reference
    · rw [if_neg fits, chunkCount_none (by omega) (by rw [limit]; omega)]
      rfl

theorem smsSubmitPreflight_invalid {recipient : CStr} (invalid : ¬ Dialable recipient)
    (text : CStr) (reference : UInt16) : smsSubmitPreflight recipient text reference = none := by
  simp only [smsSubmitPreflight, addressValidate_none invalid]

theorem smsSubmitPreflight_malformed {text : CStr}
    (malformed : ¬ ∃ chars, text.bytes = utf8Text chars) (recipient : CStr) (reference : UInt16) :
    smsSubmitPreflight recipient text reference = none := by
  simp only [smsSubmitPreflight, smsGsm7SeptetCount, utf8ToUcs2,
    forEachCodepoint_malformed _ malformed]
  split <;> rfl

theorem smsSubmitPreflight_some {recipient text : CStr} {reference : UInt16}
    {encoding : SmsEncoding} {n : Nat}
    (accepted : smsSubmitPreflight recipient text reference = some (encoding, n)) :
    Dialable recipient ∧ ∃ chars, text.bytes = utf8Text chars ∧
      messageCount reference chars = some n ∧ encoding = textEncoding chars := by
  by_cases dialable : Dialable recipient
  swap
  · rw [smsSubmitPreflight_invalid dialable] at accepted
    cases accepted
  by_cases wellFormed : ∃ chars, text.bytes = utf8Text chars
  swap
  · rw [smsSubmitPreflight_malformed wellFormed] at accepted
    cases accepted
  obtain ⟨digits, international, valid⟩ := (addressValidate_iff recipient).mpr dialable
  obtain ⟨chars, bytes⟩ := wellFormed
  rw [smsSubmitPreflight_count valid reference bytes] at accepted
  obtain ⟨count, counted, same⟩ := Option.map_eq_some_iff.mp accepted
  cases same
  exact ⟨dialable, chars, bytes, counted, rfl⟩

/-- The preflight and the encoder with room for every segment agree. -/
theorem smsSubmitPreflight_iff (recipient text : CStr) (report : Bool) (reference : UInt16)
    (encoding : SmsEncoding) (n : Nat) :
    smsSubmitPreflight recipient text reference = some (encoding, n) ↔
      ∃ segments, smsSubmitEncode recipient text report reference 16 = some segments ∧
        segments.length = n ∧ ∀ segment ∈ segments, segment.encoding = encoding := by
  constructor
  · intro accepted
    obtain ⟨dialable, chars, bytes, counted, rfl⟩ := smsSubmitPreflight_some accepted
    exact smsSubmitEncode_ok dialable report (by decide) bytes counted
      ((messageCount_iff reference chars n).mp counted).1
  · rintro ⟨segments, encoded, rfl, kinds⟩
    obtain ⟨dialable, -, chars, bytes, counted, kinds'⟩ :=
      smsSubmitEncode_some (by decide) encoded
    obtain ⟨digits, international, valid⟩ := (addressValidate_iff recipient).mpr dialable
    -- There is a segment, whose encoding is that of the text.
    have positive : 1 ≤ segments.length := ((messageCount_iff reference chars _).mp counted).2.1.1
    obtain ⟨segment, member⟩ := List.exists_mem_of_length_pos positive
    have same : textEncoding chars = encoding :=
      (kinds' segment member).symm.trans (kinds segment member)
    rw [smsSubmitPreflight_count valid reference bytes, counted, same]
    rfl

end SmsGateway
