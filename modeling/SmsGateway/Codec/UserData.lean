import SmsGateway.Codec.Checked

/-! The accesses of `decode_user_data` and of the loops over its header. -/

namespace SmsGateway.Checked

open Lib

/-- One element of the loop of `parse_concat_udh`, whose data starts at `data`. -/
def concatElement (pdu : List UInt8) (data : Nat) (iei : UInt8) (len : Nat)
    (concat : SmsConcatInfo) : Access SmsConcatInfo :=
  if iei = 0x00 ∧ len = 3 then do
    let reference ← load pdu data
    let total ← load pdu (data + 1)
    let part ← load pdu (data + 2)
    .ok ⟨true, false, reference.toUInt16, total, part⟩
  else if iei = 0x08 ∧ len = 4 then do
    let high ← load pdu data
    let low ← load pdu (data + 1)
    let total ← load pdu (data + 2)
    let part ← load pdu (data + 3)
    .ok ⟨true, true, high.toUInt16 <<< 8 ||| low.toUInt16, total, part⟩
  else .ok concat

/-- The loop of `parse_concat_udh` from `pos` on: whether every element was
complete. -/
def concatLoop (pdu : List UInt8) (udh stop pos : Nat) (concat : SmsConcatInfo) :
    Access (Bool × SmsConcatInfo) :=
  if pos + 2 ≤ stop then do
    let iei ← load pdu (udh + pos)
    let len := (← load pdu (udh + pos + 1)).toNat
    if pos + 2 + len > stop then .ok (false, concat)
    else
      let concat ← concatElement pdu (udh + pos + 2) iei len concat
      concatLoop pdu udh stop (pos + 2 + len) concat
  else .ok (true, concat)
  termination_by stop - pos

def parseConcatUdh (pdu : List UInt8) (udh udhLen : Nat) : Access (Bool × SmsConcatInfo) :=
  if udhLen = 0 then .ok (true, .zero)
  else do
    let length ← load pdu udh
    if length.toNat + 1 > udhLen then .ok (false, .zero)
    else
      let (complete, concat) ← concatLoop pdu udh (length.toNat + 1) 1 .zero
      if !complete then .ok (false, concat)
      else if concat.present ∧ (concat.totalParts = 0 ∨ concat.partNumber = 0 ∨
          concat.partNumber > concat.totalParts) then .ok (false, concat)
      else .ok (true, concat)

def shiftLoop (pdu : List UInt8) (udh stop pos : Nat) : Access Bool :=
  if pos + 2 ≤ stop then do
    let iei ← load pdu (udh + pos)
    let len := (← load pdu (udh + pos + 1)).toNat
    if pos + 2 + len > stop then .ok false
    else if iei = 0x24 ∨ iei = 0x25 then .ok true
    else shiftLoop pdu udh stop (pos + 2 + len)
  else .ok false
  termination_by stop - pos

def udhHasNationalLanguageShift (pdu : List UInt8) (udh udhLen : Nat) : Access Bool :=
  if udhLen = 0 then .ok false
  else do
    let length ← load pdu udh
    if length.toNat + 1 > udhLen then .ok false
    else shiftLoop pdu udh (length.toNat + 1) 1

/-- The header of the user data at `ud`. -/
def decodeHeader (pdu : List UInt8) (ud : Nat) (hasUdh : Bool) (limit : Nat) :
    Access (Except (DecodeResult × SmsConcatInfo) (Nat × SmsConcatInfo)) :=
  if !hasUdh then .ok (.ok (0, .zero))
  else if limit = 0 then .ok (.error (.invalid, .zero))
  else do
    let headerBytes := (← load pdu ud).toNat + 1
    if headerBytes > limit then .ok (.error (.invalid, .zero))
    else
      let (parsed, concat) ← parseConcatUdh pdu ud headerBytes
      if !parsed then .ok (.error (.invalid, concat))
      else
        let shifted ← udhHasNationalLanguageShift pdu ud headerBytes
        if shifted then .ok (.error (.unsupported, concat)) else .ok (.ok (headerBytes, concat))

/-- The code unit loop of `decode_user_data` from `pos` on. -/
def ucs2DecodeLoop (pdu : List UInt8) (ud udl textCapacity pos : Nat) (text : List UInt8)
    (outLen : Nat) : Access (DecodeResult × List UInt8) :=
  if pos + 1 < udl then do
    let high ← load pdu (ud + pos)
    let low ← load pdu (ud + pos + 1)
    let cp := high.toNat <<< 8 ||| low.toNat
    if 0xD800 ≤ cp ∧ cp ≤ 0xDBFF then
      if pos + 2 + 1 ≥ udl then .ok (.invalid, text)
      else
        let high ← load pdu (ud + pos + 1 + 1)
        let low ← load pdu (ud + pos + 1 + 1 + 1)
        let second := high.toNat <<< 8 ||| low.toNat
        if second < 0xDC00 ∨ second > 0xDFFF then .ok (.invalid, text)
        else
          let cp := 0x10000 + (cp - 0xD800) <<< 10 + (second - 0xDC00)
          let (appended, text, outLen) ← smsUtf8Append cp text textCapacity outLen
          if appended then ucs2DecodeLoop pdu ud udl textCapacity (pos + 4) text outLen
          else .ok (.textTooLong, text)
    else if 0xDC00 ≤ cp ∧ cp ≤ 0xDFFF then .ok (.invalid, text)
    else
      let (appended, text, outLen) ← smsUtf8Append cp text textCapacity outLen
      if appended then ucs2DecodeLoop pdu ud udl textCapacity (pos + 2) text outLen
      else .ok (.textTooLong, text)
  else .ok (.ok, text)
  termination_by udl - pos

def decodeGsm7 (pdu : List UInt8) (hasUdh : Bool) (udl ud udAvailable : Nat) (text : List UInt8)
    (textCapacity : Nat) : Access UserData :=
  let packedBytes := (udl * 7 + 7) / 8
  if packedBytes > udAvailable ∨ udl > 160 then .ok ⟨.truncated, .gsm7, .zero, text⟩
  else do
    match ← decodeHeader pdu ud hasUdh packedBytes with
    | .error (result, concat) => .ok ⟨result, .gsm7, concat, text⟩
    | .ok (headerBytes, concat) =>
        let hseptets := if hasUdh then headerSeptets headerBytes else 0
        if hseptets > udl then .ok ⟨.invalid, .gsm7, concat, text⟩
        else
          let (unpacked, septets) ← unpackSeptets pdu ud packedBytes (hseptets * 7)
            (udl - hseptets) 0 (List.replicate 160 0)
          if unpacked then
            let (decoded, text) ← smsGsm7Decode septets (udl - hseptets) text textCapacity
            .ok ⟨if decoded then .ok else .textTooLong, .gsm7, concat, text⟩
          else .ok ⟨.truncated, .gsm7, concat, text⟩

def decodeUcs2 (pdu : List UInt8) (hasUdh : Bool) (udl ud udAvailable : Nat) (text : List UInt8)
    (textCapacity : Nat) : Access UserData :=
  if udl > udAvailable ∨ udl > 140 then .ok ⟨.truncated, .ucs2, .zero, text⟩
  else do
    match ← decodeHeader pdu ud hasUdh udl with
    | .error (result, concat) => .ok ⟨result, .ucs2, concat, text⟩
    | .ok (headerBytes, concat) =>
        if (udl - headerBytes) % 2 ≠ 0 then .ok ⟨.invalid, .ucs2, concat, text⟩
        else
          let (result, text) ← ucs2DecodeLoop pdu ud udl textCapacity headerBytes text 0
          .ok ⟨result, .ucs2, concat, text⟩

/-- The text of the result is the array it was written to. -/
def decodeUserData (pdu : List UInt8) (firstOctet dcs udl : UInt8) (ud udAvailable : Nat)
    (text : List UInt8) (textCapacity : Nat) : Access UserData := do
  let text ← store text 0 0
  let hasUdh := firstOctet &&& 0x40 ≠ 0
  match dcsEncoding dcs with
  | .gsm7 => decodeGsm7 pdu hasUdh udl.toNat ud udAvailable text textCapacity
  | .ucs2 => decodeUcs2 pdu hasUdh udl.toNat ud udAvailable text textCapacity
  | .eightBit => .ok ⟨.unsupported, .eightBit, .zero, text⟩
  | .unknown => .ok ⟨.unsupported, .unknown, .zero, text⟩

theorem concatElement_ok {pdu : List UInt8} {data len : Nat} (inside : data + len ≤ pdu.length)
    (iei : UInt8) (concat : SmsConcatInfo) :
    concatElement pdu data iei len concat =
      .ok (SmsGateway.concatElement concat (iei, window pdu data (data + len))) := by
  by_cases narrow : iei = 0x00 ∧ len = 3
  · obtain ⟨rfl, rfl⟩ := narrow
    obtain ⟨reference, read0, split0⟩ := window_cons inside (show data < data + 3 by omega)
    obtain ⟨total, read1, split1⟩ := window_cons inside (show data + 1 < data + 3 by omega)
    obtain ⟨part, read2, split2⟩ := window_cons inside (show data + 2 < data + 3 by omega)
    have ended : window pdu (data + 2 + 1) (data + 3) = [] := window_nil (Nat.le_refl _)
    simp only [concatElement, and_self, ↓reduceIte, read0, read1, read2, bind_ok, split0, split1,
      split2, ended]
    rfl
  · by_cases wide : iei = 0x08 ∧ len = 4
    · obtain ⟨rfl, rfl⟩ := wide
      obtain ⟨high, read0, split0⟩ := window_cons inside (show data < data + 4 by omega)
      obtain ⟨low, read1, split1⟩ := window_cons inside (show data + 1 < data + 4 by omega)
      obtain ⟨total, read2, split2⟩ := window_cons inside (show data + 2 < data + 4 by omega)
      obtain ⟨part, read3, split3⟩ := window_cons inside (show data + 3 < data + 4 by omega)
      have ended : window pdu (data + 3 + 1) (data + 4) = [] := window_nil (Nat.le_refl _)
      simp only [concatElement, narrow, and_self, ↓reduceIte, read0, read1, read2, read3, bind_ok,
        split0, split1, split2, split3, ended]
      rfl
    · have size : (window pdu data (data + len)).length = len := by
        rw [window_length inside]
        omega
      simp only [concatElement, narrow, wide, ↓reduceIte]
      generalize window pdu data (data + len) = body at size
      unfold SmsGateway.concatElement
      split
      · rename_i same
        cases same
        exact absurd ⟨rfl, size.symm⟩ narrow
      · rename_i same
        cases same
        exact absurd ⟨rfl, size.symm⟩ wide
      · rfl

/-- What both loops over the elements find at `pos`. -/
inductive ElementAt (pdu : List UInt8) (udh stop pos : Nat) :
    List (UInt8 × List UInt8) × Bool → Prop where
  | none (ended : ¬ pos + 2 ≤ stop) : ElementAt pdu udh stop pos ([], true)
  | cut {iei len : UInt8} (more : pos + 2 ≤ stop) (tag : load pdu (udh + pos) = .ok iei)
      (length : load pdu (udh + pos + 1) = .ok len) (beyond : pos + 2 + len.toNat > stop) :
      ElementAt pdu udh stop pos ([], false)
  | next {iei len : UInt8} {fuel : Nat} (more : pos + 2 ≤ stop)
      (tag : load pdu (udh + pos) = .ok iei) (length : load pdu (udh + pos + 1) = .ok len)
      (fits : pos + 2 + len.toNat ≤ stop) (enough : stop - (pos + 2 + len.toNat) ≤ fuel) :
      ElementAt pdu udh stop pos
        ((iei, window pdu (udh + pos + 2) (udh + pos + 2 + len.toNat)) ::
          (udhElements fuel (window pdu (udh + (pos + 2 + len.toNat)) (udh + stop))).1,
        (udhElements fuel (window pdu (udh + (pos + 2 + len.toNat)) (udh + stop))).2)

theorem elementAt {pdu : List UInt8} {udh stop : Nat} (inside : udh + stop ≤ pdu.length)
    (pos : Nat) {fuel : Nat} (enough : stop - pos ≤ fuel) :
    ElementAt pdu udh stop pos (udhElements fuel (window pdu (udh + pos) (udh + stop))) := by
  by_cases more : pos + 2 ≤ stop
  · obtain ⟨iei, tag, split⟩ := window_cons inside (show udh + pos < udh + stop by omega)
    obtain ⟨len, length, split'⟩ := window_cons inside (show udh + pos + 1 < udh + stop by omega)
    obtain ⟨fuel, rfl⟩ : ∃ less, fuel = less + 1 := ⟨fuel - 1, by omega⟩
    have size : (window pdu (udh + pos + 1 + 1) (udh + stop)).length = stop - (pos + 2) := by
      rw [window_length inside]
      omega
    rw [split, split', udhElements, size]
    by_cases beyond : stop - (pos + 2) < len.toNat
    · rw [if_pos beyond]
      exact .cut more tag length (by omega)
    · rw [if_neg beyond, window_drop, window_take (by omega),
        show udh + pos + 1 + 1 = udh + pos + 2 by omega]
      have rest : stop - (pos + 2 + len.toNat) ≤ fuel := by omega
      have found := ElementAt.next more tag length (by omega) rest
      rw [show udh + (pos + 2 + len.toNat) = udh + pos + 2 + len.toNat by omega] at found
      exact found
  · have short : udhElements fuel (window pdu (udh + pos) (udh + stop)) = ([], true) := by
      have size : (window pdu (udh + pos) (udh + stop)).length = stop - pos := by
        rw [window_length inside]
        omega
      generalize window pdu (udh + pos) (udh + stop) = list at size
      match list, size with
      | [], _ => cases fuel <;> rfl
      | [octet], _ => cases fuel <;> rfl
      | _ :: _ :: rest, size =>
          simp only [List.length_cons] at size
          omega
    rw [short]
    exact .none more

theorem concatLoop_ok {pdu : List UInt8} {udh stop : Nat} (inside : udh + stop ≤ pdu.length)
    (pos : Nat) {fuel : Nat} (enough : stop - pos ≤ fuel) (concat : SmsConcatInfo) :
    concatLoop pdu udh stop pos concat =
      .ok ((udhElements fuel (window pdu (udh + pos) (udh + stop))).2,
        (udhElements fuel (window pdu (udh + pos) (udh + stop))).1.foldl
          SmsGateway.concatElement concat) := by
  induction left : stop - pos using Nat.strong_induction_on generalizing pos fuel concat with
  | _ n ih =>
      subst left
      have here := elementAt inside pos enough
      generalize udhElements fuel (window pdu (udh + pos) (udh + stop)) = elements at here ⊢
      rw [concatLoop]
      cases here with
      | none ended => rw [if_neg ended]; rfl
      | cut more tag length beyond =>
          rw [if_pos more, tag, bind_ok, length, bind_ok, if_pos beyond]
          rfl
      | @next iei len fuel more tag length fits enough =>
          rw [if_pos more, tag, bind_ok, length, bind_ok, if_neg (by omega),
            concatElement_ok (by omega), bind_ok]
          exact ih _ (by omega) (pos + 2 + len.toNat) enough _ rfl

theorem shiftLoop_ok {pdu : List UInt8} {udh stop : Nat} (inside : udh + stop ≤ pdu.length)
    (pos : Nat) {fuel : Nat} (enough : stop - pos ≤ fuel) :
    shiftLoop pdu udh stop pos =
      .ok ((udhElements fuel (window pdu (udh + pos) (udh + stop))).1.any
        fun element => element.1 == 0x24 || element.1 == 0x25) := by
  induction left : stop - pos using Nat.strong_induction_on generalizing pos fuel with
  | _ n ih =>
      subst left
      have here := elementAt inside pos enough
      generalize udhElements fuel (window pdu (udh + pos) (udh + stop)) = elements at here ⊢
      rw [shiftLoop]
      cases here with
      | none ended => rw [if_neg ended]; rfl
      | cut more tag length beyond =>
          rw [if_pos more, tag, bind_ok, length, bind_ok, if_pos beyond]
          rfl
      | @next iei len fuel more tag length fits enough =>
          rw [if_pos more, tag, bind_ok, length, bind_ok, if_neg (by omega), List.any_cons]
          by_cases shift : iei = 0x24 ∨ iei = 0x25
          · rw [if_pos shift, show (iei == 0x24 || iei == 0x25) = true by simpa using shift]
            rfl
          · rw [if_neg shift, show (iei == 0x24 || iei == 0x25) = false by simpa using shift,
              Bool.false_or]
            exact ih _ (by omega) (pos + 2 + len.toNat) enough rfl

section

variable {pdu : List UInt8} {udh : Nat} {length : UInt8}
  (first : load pdu udh = .ok length) (inside : udh + (length.toNat + 1) ≤ pdu.length)
include first inside

/-- The octets of the header, and the elements in them. -/
theorem header_window :
    (pdu.drop udh).take (length.toNat + 1) =
        length :: window pdu (udh + 1) (udh + (length.toNat + 1)) ∧
      headerElements ((pdu.drop udh).take (length.toNat + 1)) =
        udhElements length.toNat (window pdu (udh + 1) (udh + (length.toNat + 1))) := by
  have whole : (pdu.drop udh).take (length.toNat + 1) =
      length :: window pdu (udh + 1) (udh + (length.toNat + 1)) := by
    obtain ⟨octet, read, split⟩ := window_cons inside (show udh < udh + (length.toNat + 1) by omega)
    cases first.symm.trans read
    rw [← window_eq_take, split]
  refine ⟨whole, ?_⟩
  rw [whole, headerElements]
  congr 1
  apply List.take_of_length_le
  rw [window_length inside]
  omega

theorem parseConcatUdh_ok :
    parseConcatUdh pdu udh (length.toNat + 1) =
      .ok (SmsGateway.parseConcatUdh ((pdu.drop udh).take (length.toNat + 1))) := by
  obtain ⟨whole, elements⟩ := header_window first inside
  have size : (window pdu (udh + 1) (udh + (length.toNat + 1))).length = length.toNat := by
    rw [window_length inside]
    omega
  have loop := concatLoop_ok inside 1 (show length.toNat + 1 - 1 ≤ length.toNat by omega)
    SmsConcatInfo.zero
  rw [whole] at elements ⊢
  simp only [parseConcatUdh, Nat.add_eq_zero_iff, Nat.succ_ne_self, and_false, ↓reduceIte, first,
    bind_ok, Nat.lt_irrefl, gt_iff_lt, loop, SmsGateway.parseConcatUdh, List.length_cons, size,
    elements]
  split
  · rfl
  · split <;> rfl

theorem udhHasNationalLanguageShift_ok :
    udhHasNationalLanguageShift pdu udh (length.toNat + 1) =
      .ok (SmsGateway.udhHasNationalLanguageShift ((pdu.drop udh).take (length.toNat + 1))) := by
  obtain ⟨whole, elements⟩ := header_window first inside
  have size : (window pdu (udh + 1) (udh + (length.toNat + 1))).length = length.toNat := by
    rw [window_length inside]
    omega
  have loop := shiftLoop_ok inside 1 (show length.toNat + 1 - 1 ≤ length.toNat by omega)
  rw [whole] at elements ⊢
  simp only [udhHasNationalLanguageShift, Nat.add_eq_zero_iff, Nat.succ_ne_self, and_false,
    ↓reduceIte, first, bind_ok, Nat.lt_irrefl, gt_iff_lt, loop,
    SmsGateway.udhHasNationalLanguageShift, List.length_cons, size, elements]

end

theorem decodeHeader_ok {pdu : List UInt8} {ud limit : Nat} (inside : ud + limit ≤ pdu.length)
    (hasUdh : Bool) :
    decodeHeader pdu ud hasUdh limit =
      .ok (SmsGateway.decodeHeader hasUdh limit (pdu.drop ud)) := by
  simp only [decodeHeader, SmsGateway.decodeHeader]
  cases hasUdh with
  | false => rfl
  | true =>
      simp only [Bool.not_true, Bool.false_eq_true, ↓reduceIte]
      by_cases empty : limit = 0
      · rw [if_pos empty, if_pos empty]
      · rw [if_neg empty, if_neg empty]
        have first := load_drop (show ud + 0 < pdu.length by omega) 0
        rw [Nat.add_zero] at first
        rw [first, bind_ok]
        by_cases beyond : ((pdu.drop ud).getD 0 0).toNat + 1 > limit
        · rw [if_pos beyond, if_pos beyond]
        · rw [if_neg beyond, if_neg beyond,
            parseConcatUdh_ok first (by omega), bind_ok]
          cases parsed : (SmsGateway.parseConcatUdh
              ((pdu.drop ud).take (((pdu.drop ud).getD 0 0).toNat + 1))).1 with
          | false => simp only [Bool.not_false, ↓reduceIte]
          | true =>
              simp only [Bool.not_true, Bool.false_eq_true, ↓reduceIte,
                udhHasNationalLanguageShift_ok first (show ud +
                  (((pdu.drop ud).getD 0 0).toNat + 1) ≤ pdu.length by omega), bind_ok]
              split <;> rfl

theorem ucs2DecodeLoop_writes {pdu : List UInt8} {ud udl capacity : Nat}
    (inside : ud + udl ≤ pdu.length) (pos : Nat) {out : List UInt8}
    (fits : out.length < capacity) :
    Writes capacity (ucs2DecodeLoop pdu ud udl capacity pos (padded capacity out) out.length)
      (SmsGateway.ucs2DecodeLoop capacity (window pdu (ud + pos) (ud + udl)) out) := by
  induction left : udl - pos using Nat.strong_induction_on generalizing pos out with
  | _ n ih =>
      subst left
      rw [ucs2DecodeLoop]
      by_cases more : pos + 1 < udl
      · obtain ⟨high, read, split⟩ := window_cons inside (show ud + pos < ud + udl by omega)
        obtain ⟨low, read', split'⟩ := window_cons inside (show ud + pos + 1 < ud + udl by omega)
        rw [if_pos more, read, bind_ok, read', bind_ok, split, split',
          SmsGateway.ucs2DecodeLoop.eq_def]
        dsimp only
        by_cases lead : 0xD800 ≤ high.toNat <<< 8 ||| low.toNat ∧
            high.toNat <<< 8 ||| low.toNat ≤ 0xDBFF
        · rw [if_pos lead, if_pos lead]
          by_cases last : pos + 2 + 1 ≥ udl
          · have size : (window pdu (ud + pos + 1 + 1) (ud + udl)).length < 2 := by
              rw [window_length inside]
              omega
            rw [if_pos last]
            generalize window pdu (ud + pos + 1 + 1) (ud + udl) = rest at size
            match rest, size with
            | [], _ => exact ⟨rfl, fits⟩
            | [octet], _ => exact ⟨rfl, fits⟩
          · obtain ⟨high2, read, split⟩ :=
              window_cons inside (show ud + pos + 1 + 1 < ud + udl by omega)
            obtain ⟨low2, read', split'⟩ :=
              window_cons inside (show ud + pos + 1 + 1 + 1 < ud + udl by omega)
            rw [if_neg last, read, bind_ok, read', bind_ok, split, split']
            dsimp only
            by_cases unpaired : high2.toNat <<< 8 ||| low2.toNat < 0xDC00 ∨
                high2.toNat <<< 8 ||| low2.toNat > 0xDFFF
            · rw [if_pos unpaired, if_pos unpaired]
              exact ⟨rfl, fits⟩
            · rw [if_neg unpaired, if_neg unpaired]
              exact append_writes _ fits .textTooLong fun more room =>
                ih (udl - (pos + 4)) (by omega) (pos + 4) room rfl
        · rw [if_neg lead, if_neg lead]
          by_cases trail : 0xDC00 ≤ high.toNat <<< 8 ||| low.toNat ∧
              high.toNat <<< 8 ||| low.toNat ≤ 0xDFFF
          · rw [if_pos trail, if_pos trail]
            exact ⟨rfl, fits⟩
          · rw [if_neg trail, if_neg trail]
            exact append_writes _ fits .textTooLong fun more room =>
              ih (udl - (pos + 2)) (by omega) (pos + 2) room rfl
      · have size : (window pdu (ud + pos) (ud + udl)).length < 2 := by
          rw [window_length inside]
          omega
        rw [if_neg more]
        generalize window pdu (ud + pos) (ud + udl) = rest at size
        match rest, size with
        | [], _ => exact ⟨rfl, fits⟩
        | [octet], _ => exact ⟨rfl, fits⟩

/-- The outcome of the user data, with its text in the array. -/
def Fills (size : Nat) (action : Access UserData) (data : UserData) : Prop :=
  action = .ok { data with text := padded size data.text } ∧ data.text.length < size

theorem decodeGsm7_fills {pdu : List UInt8} {ud available size : Nat}
    (length : ud + available = pdu.length) (hasUdh : Bool) (udl : Nat) (positive : 0 < size) :
    Fills size (decodeGsm7 pdu hasUdh udl ud available (padded size []) size)
      (SmsGateway.decodeGsm7 hasUdh udl (pdu.drop ud) size) := by
  simp only [decodeGsm7, SmsGateway.decodeGsm7, List.length_drop,
    show pdu.length - ud = available by omega]
  by_cases short : (udl * 7 + 7) / 8 > available ∨ udl > 160
  · rw [if_pos short, if_pos short]
    exact ⟨rfl, positive⟩
  rw [if_neg short, if_neg short, decodeHeader_ok (by omega), bind_ok]
  match SmsGateway.decodeHeader hasUdh ((udl * 7 + 7) / 8) (pdu.drop ud) with
  | .error (result, concat) => exact ⟨rfl, positive⟩
  | .ok (headerBytes, concat) =>
      dsimp only
      generalize (if hasUdh = true then headerSeptets headerBytes else 0) = hseptets
      by_cases beyond : hseptets > udl
      · rw [if_pos beyond, if_pos beyond]
        exact ⟨rfl, positive⟩
      rw [if_neg beyond, if_neg beyond, ← window_eq_take]
      rcases unpackSeptets_cases (show ud + (udl * 7 + 7) / 8 ≤ pdu.length by omega)
          (show udl - hseptets ≤ 160 by omega) (hseptets * 7) positive with
        ⟨none, septets, run⟩ | ⟨more, septets, found, run, decoded, fits⟩
      · rw [none, run, bind_ok]
        exact ⟨rfl, positive⟩
      · rw [found, run, bind_ok]
        simp only [↓reduceIte, decoded, bind_ok]
        exact ⟨rfl, fits⟩

theorem decodeUcs2_fills {pdu : List UInt8} {ud available size : Nat}
    (length : ud + available = pdu.length) (hasUdh : Bool) (udl : Nat) (positive : 0 < size) :
    Fills size (decodeUcs2 pdu hasUdh udl ud available (padded size []) size)
      (SmsGateway.decodeUcs2 hasUdh udl (pdu.drop ud) size) := by
  simp only [decodeUcs2, SmsGateway.decodeUcs2, List.length_drop,
    show pdu.length - ud = available by omega]
  by_cases short : udl > available ∨ udl > 140
  · rw [if_pos short, if_pos short]
    exact ⟨rfl, positive⟩
  rw [if_neg short, if_neg short, decodeHeader_ok (by omega), bind_ok]
  match SmsGateway.decodeHeader hasUdh udl (pdu.drop ud) with
  | .error (result, concat) => exact ⟨rfl, positive⟩
  | .ok (headerBytes, concat) =>
      dsimp only
      by_cases odd : (udl - headerBytes) % 2 ≠ 0
      · rw [if_pos odd, if_pos odd]
        exact ⟨rfl, positive⟩
      obtain ⟨run, fits⟩ := ucs2DecodeLoop_writes (show ud + udl ≤ pdu.length by omega) headerBytes
        (show ([] : List UInt8).length < size from positive)
      rw [List.length_nil] at run
      rw [← window_drop, window_eq_take] at run fits
      rw [if_neg odd, if_neg odd, run, bind_ok]
      exact ⟨rfl, fits⟩

theorem decodeUserData_fills {pdu : List UInt8} {ud available size : Nat}
    (length : ud + available = pdu.length) (firstOctet dcs udl : UInt8) (positive : 0 < size) :
    Fills size (decodeUserData pdu firstOctet dcs udl ud available (padded size []) size)
      (SmsGateway.decodeUserData firstOctet dcs udl (pdu.drop ud) size) := by
  have cleared := store_zero (show ([] : List UInt8).length < size from positive)
  rw [List.length_nil] at cleared
  simp only [decodeUserData, SmsGateway.decodeUserData, cleared, bind_ok]
  cases dcsEncoding dcs with
  | gsm7 => exact decodeGsm7_fills length _ _ positive
  | ucs2 => exact decodeUcs2_fills length _ _ positive
  | eightBit => exact ⟨rfl, positive⟩
  | unknown => exact ⟨rfl, positive⟩

end SmsGateway.Checked
