import SmsGateway.Codec.UserData

/-! The accesses of `sms_deliver_decode` and `sms_status_report_decode`. -/

namespace SmsGateway.Checked

open Lib

def timestampDecode (pdu : List UInt8) (data dataLen : Nat) (out : List UInt8)
    (outCapacity : Nat) : Access (Bool × List UInt8) :=
  if dataLen < 7 ∨ outCapacity < 24 then .ok (false, out)
  else do
    let yy ← load pdu data
    let month ← load pdu (data + 1)
    let day ← load pdu (data + 2)
    let hour ← load pdu (data + 3)
    let minute ← load pdu (data + 4)
    let second ← load pdu (data + 5)
    let zone ← load pdu (data + 6)
    match SmsGateway.timestampDecode [yy, month, day, hour, minute, second, zone] outCapacity with
    | none => .ok (false, out)
    | some text => do
        -- The array is larger than every text, so snprintf writes all of it.
        let out ← storeAll out 0 text
        let out ← store out text.length 0
        .ok (true, out)

/-- The arrays of `sms_deliver_t`. -/
structure DeliverArrays where
  sender : List UInt8
  encoding : SmsEncoding
  concat : SmsConcatInfo
  serviceCenterTimestamp : List UInt8
  text : List UInt8
  deriving DecidableEq, Repr

/-- After the `memset`. -/
def DeliverArrays.zero : DeliverArrays :=
  ⟨List.replicate 24 0, .gsm7, .zero, List.replicate 40 0, List.replicate 2048 0⟩

/-- The part of `sms_deliver_decode` behind the `memset`. -/
def deliverDecode (pdu : List UInt8) : Access (DecodeResult × DeliverArrays) :=
  let out := DeliverArrays.zero
  if pdu.length < 2 then .ok (.truncated, out)
  else do
    let smscLen := (← load pdu 0).toNat
    if 1 + smscLen ≥ pdu.length then .ok (.truncated, out)
    else
      let first ← load pdu (1 + smscLen)
      let pos := 2 + smscLen
      if first &&& 0x03 ≠ 0x00 ∨ pos + 2 > pdu.length then .ok (.unsupported, out)
      else
        let oaDigits := (← load pdu pos).toNat
        let oaToa ← load pdu (pos + 1)
        let oaBytes := (oaDigits + 1) / 2
        let pos := pos + 2
        if pos + oaBytes + 10 > pdu.length then .ok (.invalid, out)
        else
          let (parsed, sender) ←
            addressDecode pdu pos (pdu.length - pos) oaDigits oaToa out.sender 24
          let out := { out with sender := sender }
          if !parsed then .ok (.invalid, out)
          else
            let pos := pos + oaBytes + 1
            let dcs ← load pdu pos
            let pos := pos + 1
            let (parsed, timestamp) ←
              timestampDecode pdu pos (pdu.length - pos) out.serviceCenterTimestamp 40
            let out := { out with serviceCenterTimestamp := timestamp }
            if !parsed then .ok (.invalid, out)
            else
              let pos := pos + 7
              if pos ≥ pdu.length then .ok (.truncated, out)
              else
                let udl ← load pdu pos
                let pos := pos + 1
                let data ←
                  decodeUserData pdu first dcs udl pos (pdu.length - pos) out.text 2048
                .ok (data.result, { out with
                  encoding := data.encoding
                  concat := data.concat
                  text := data.text })

def smsDeliverDecode (pduHex : CStr) (out : DeliverArrays) :
    Access (DecodeResult × DeliverArrays) :=
  match hexDecode pduHex smsMaxPduOctets with
  | .error result => .ok (result, out)
  | .ok pdu => deliverDecode pdu

/-- The arrays of `sms_status_report_t`. -/
structure ReportArrays where
  messageReference : UInt8
  recipient : List UInt8
  serviceCenterTimestamp : List UInt8
  dischargeTimestamp : List UInt8
  status : UInt8
  delivered : Bool
  deriving DecidableEq, Repr

def ReportArrays.zero : ReportArrays :=
  ⟨0, List.replicate 24 0, List.replicate 40 0, List.replicate 40 0, 0, false⟩

/-- The part of `sms_status_report_decode` behind the `memset`. -/
def statusReportDecode (pdu : List UInt8) : Access (DecodeResult × ReportArrays) :=
  let out := ReportArrays.zero
  if pdu.length < 2 then .ok (.truncated, out)
  else do
    let smscLen := (← load pdu 0).toNat
    if 1 + smscLen ≥ pdu.length then .ok (.truncated, out)
    else
      let first ← load pdu (1 + smscLen)
      let pos := 2 + smscLen
      if first &&& 0x03 ≠ 0x02 ∨ pos + 3 > pdu.length then .ok (.unsupported, out)
      else
        let messageReference ← load pdu pos
        let out := { out with messageReference := messageReference }
        let raDigits := (← load pdu (pos + 1)).toNat
        let raToa ← load pdu (pos + 2)
        let raBytes := (raDigits + 1) / 2
        let pos := pos + 3
        if pos + raBytes + 15 > pdu.length then .ok (.invalid, out)
        else
          let (parsed, recipient) ←
            addressDecode pdu pos (pdu.length - pos) raDigits raToa out.recipient 24
          let out := { out with recipient := recipient }
          if !parsed then .ok (.invalid, out)
          else
            let pos := pos + raBytes
            let (parsed, timestamp) ←
              timestampDecode pdu pos (pdu.length - pos) out.serviceCenterTimestamp 40
            let out := { out with serviceCenterTimestamp := timestamp }
            if !parsed then .ok (.invalid, out)
            else
              let pos := pos + 7
              let (parsed, timestamp) ←
                timestampDecode pdu pos (pdu.length - pos) out.dischargeTimestamp 40
              let out := { out with dischargeTimestamp := timestamp }
              if !parsed then .ok (.invalid, out)
              else
                let pos := pos + 7
                if pos ≥ pdu.length then .ok (.truncated, out)
                else
                  let status ← load pdu pos
                  .ok (.ok, { out with status := status, delivered := status < 0x20 })

def smsStatusReportDecode (pduHex : CStr) (out : ReportArrays) :
    Access (DecodeResult × ReportArrays) :=
  match hexDecode pduHex smsMaxPduOctets with
  | .error result => .ok (result, out)
  | .ok pdu => statusReportDecode pdu

theorem timestampDecode_length {data : List UInt8} {size : Nat} {text : List UInt8}
    (decoded : SmsGateway.timestampDecode data size = some text) : text.length < size := by
  unfold SmsGateway.timestampDecode at decoded
  split at decoded
  · cases decoded
  · simp only [Option.bind_eq_bind, Option.bind_eq_some_iff] at decoded
    obtain ⟨yy, -, month, -, day, -, hour, -, minute, -, second, -, written⟩ := decoded
    split at written
    · cases written
    · obtain ⟨fits, same⟩ := Option.ite_none_right_eq_some.mp written
      cases same
      exact fits

/-- The text is written, or nothing is. -/
theorem timestampDecode_writes {pdu : List UInt8} {data dataLen : Nat}
    (length : data + dataLen = pdu.length) {size : Nat} (positive : 0 < size) :
    Writes size (timestampDecode pdu data dataLen (padded size []) size)
      ((SmsGateway.timestampDecode (pdu.drop data) size).isSome,
        (SmsGateway.timestampDecode (pdu.drop data) size).getD []) := by
  have available : (pdu.drop data).length = dataLen := by
    rw [List.length_drop]
    omega
  by_cases short : dataLen < 7 ∨ size < 24
  · have none : SmsGateway.timestampDecode (pdu.drop data) size = none := by
      rw [SmsGateway.timestampDecode, available, if_pos short]
    rw [timestampDecode, if_pos short, none]
    exact ⟨rfl, positive⟩
  · have octet (k : Nat) (below : k < 7) :
        load pdu (data + k) = .ok ((pdu.drop data).getD k 0) := load_drop (by omega) 0
    have same : SmsGateway.timestampDecode [(pdu.drop data).getD 0 0, (pdu.drop data).getD 1 0,
        (pdu.drop data).getD 2 0, (pdu.drop data).getD 3 0, (pdu.drop data).getD 4 0,
        (pdu.drop data).getD 5 0, (pdu.drop data).getD 6 0] size =
          SmsGateway.timestampDecode (pdu.drop data) size := by
      have seven : ¬ (7 < 7 ∨ size < 24) := by omega
      simp only [SmsGateway.timestampDecode, available, short, ↓reduceIte, List.length_cons,
        List.length_nil, Nat.zero_add, Nat.reduceAdd, seven, List.getD_cons_zero,
        List.getD_cons_succ]
    have first := octet 0 (by omega)
    rw [Nat.add_zero] at first
    simp only [timestampDecode, short, ↓reduceIte, first, octet 1 (by omega), octet 2 (by omega),
      octet 3 (by omega), octet 4 (by omega), octet 5 (by omega), octet 6 (by omega), bind_ok, same]
    cases decoded : SmsGateway.timestampDecode (pdu.drop data) size with
    | none => exact ⟨rfl, positive⟩
    | some text =>
        have fits := timestampDecode_length decoded
        have written := storeAll_padded text
          (show ([] : List UInt8).length + text.length ≤ size by simpa using Nat.le_of_lt fits)
        rw [List.length_nil, List.nil_append] at written
        simp only [written, bind_ok, store_zero fits]
        exact ⟨rfl, fits⟩

/-- An array of this size with a terminator in it. -/
def Terminated (size : Nat) (array : List UInt8) : Prop := array.length = size ∧ 0 ∈ array

theorem padded_terminated {size : Nat} {bytes : List UInt8} (fits : bytes.length < size) :
    Terminated size (padded size bytes) :=
  ⟨padded_length (Nat.le_of_lt fits), List.mem_of_getElem? (padded_zero fits)⟩

theorem ofBytes_padded {capacity : Nat} [NeZero capacity] (size : Nat) (bytes : List UInt8) :
    (CString.ofBytes (padded size bytes) : CString capacity) = CString.ofBytes bytes := by
  have same : CStr.ofBytes (padded size bytes) = CStr.ofBytes bytes := by
    apply CStr.ext
    simp only [CStr.ofBytes, padded]
    generalize size - bytes.length = zeros
    induction bytes with
    | nil => cases zeros <;> rfl
    | cons byte bytes ih => simp only [List.cons_append, List.takeWhile_cons, ih]
  simp only [CString.ofBytes, same]

namespace DeliverArrays

def Terminated (out : DeliverArrays) : Prop :=
  Checked.Terminated 24 out.sender ∧ Checked.Terminated 40 out.serviceCenterTimestamp ∧
    Checked.Terminated 2048 out.text

/-- The strings in the arrays. -/
def read (out : DeliverArrays) : SmsDeliver :=
  ⟨.ofBytes out.sender, out.encoding, out.concat, .ofBytes out.serviceCenterTimestamp,
    .ofBytes out.text⟩

end DeliverArrays

/-- Without a fault, the action ends with this result and these strings, all of
them terminated. -/
def Ends (action : Access (DecodeResult × DeliverArrays)) (result : DecodeResult × SmsDeliver) :
    Prop :=
  ∃ arrays, action = .ok (result.1, arrays) ∧ arrays.Terminated ∧ arrays.read = result.2

theorem ends_padded {sender stamp text : List UInt8} (short : sender.length < 24)
    (short' : stamp.length < 40) (short'' : text.length < 2048) (result : DecodeResult)
    (encoding : SmsEncoding) (concat : SmsConcatInfo) :
    Ends (.ok (result, ⟨padded 24 sender, encoding, concat, padded 40 stamp, padded 2048 text⟩))
      (result, ⟨.ofBytes sender, encoding, concat, .ofBytes stamp, .ofBytes text⟩) := by
  refine ⟨_, rfl, ⟨padded_terminated short, padded_terminated short', padded_terminated short''⟩, ?_⟩
  simp only [DeliverArrays.read, ofBytes_padded]

theorem deliverDecode_ends (pdu : List UInt8) :
    Ends (deliverDecode pdu)
      (match deliverHeader pdu with
        | .error ended => ended
        | .ok header =>
            let data :=
              SmsGateway.decodeUserData header.first header.dcs header.udl header.ud 2048
            (data.result, {
              sender := .ofBytes header.sender
              encoding := data.encoding
              concat := data.concat
              serviceCenterTimestamp := .ofBytes header.timestamp
              text := .ofBytes data.text })) := by
  have noSender : ([] : List UInt8).length < 24 := by decide
  have noStamp : ([] : List UInt8).length < 40 := by decide
  have noText : ([] : List UInt8).length < 2048 := by decide
  have untouched (result : DecodeResult) : Ends (.ok (result, .zero)) (result, .zero) :=
    ends_padded noSender noStamp noText result .gsm7 .zero
  have octet {k : Nat} (below : k < pdu.length) : load pdu k = .ok (pdu.getD k 0) :=
    load_ok below 0
  unfold deliverDecode deliverHeader
  by_cases small : pdu.length < 2
  · simp only [small, ↓reduceIte]
    exact untouched _
  simp only [small, ↓reduceIte, octet (show 0 < pdu.length by omega), bind_ok]
  by_cases center : 1 + (pdu.getD 0 0).toNat ≥ pdu.length
  · simp only [center, ↓reduceIte]
    exact untouched _
  simp only [center, ↓reduceIte, octet (Nat.not_le.mp center), bind_ok]
  generalize pdu.getD (1 + (pdu.getD 0 0).toNat) 0 = first
  generalize 2 + (pdu.getD 0 0).toNat = pos
  by_cases kind : first &&& 0x03 ≠ 0x00 ∨ pos + 2 > pdu.length
  · simp only [kind, ↓reduceIte]
    exact untouched _
  simp only [kind, ↓reduceIte, octet (show pos < pdu.length by omega),
    octet (show pos + 1 < pdu.length by omega), bind_ok]
  generalize (pdu.getD pos 0).toNat = oaDigits
  generalize pdu.getD (pos + 1) 0 = oaToa
  by_cases beyond : pos + 2 + (oaDigits + 1) / 2 + 10 > pdu.length
  · simp only [beyond, ↓reduceIte]
    exact untouched _
  simp only [beyond, ↓reduceIte]
  obtain ⟨run, short⟩ := addressDecode_writes
    (show pos + 2 + (pdu.length - (pos + 2)) = pdu.length by omega) oaDigits oaToa
    (show 0 < 24 by decide)
  rw [show DeliverArrays.zero.sender = padded 24 [] from rfl, run, bind_ok]
  clear run
  generalize SmsGateway.addressDecode (pdu.drop (pos + 2)) oaDigits oaToa 24 = address at short ⊢
  obtain ⟨parsed, sender⟩ := address
  cases parsed with
  | false => exact ends_padded short noStamp noText _ _ _
  | true =>
      simp only [Bool.not_true, Bool.false_eq_true, ↓reduceIte]
      generalize stamped : pos + 2 + (oaDigits + 1) / 2 + 1 = pos'
      rw [octet (show pos' < pdu.length by omega), bind_ok]
      obtain ⟨run, short'⟩ := timestampDecode_writes
        (show pos' + 1 + (pdu.length - (pos' + 1)) = pdu.length by omega) (show 0 < 40 by decide)
      rw [show DeliverArrays.zero.serviceCenterTimestamp = padded 40 [] from rfl, run, bind_ok]
      clear run
      generalize SmsGateway.timestampDecode (pdu.drop (pos' + 1)) 40 = stamp at short' ⊢
      cases stamp with
      | none => exact ends_padded short noStamp noText _ _ _
      | some timestamp =>
          simp only [Option.isSome_some, Option.getD_some, Bool.not_true, Bool.false_eq_true,
            ↓reduceIte] at short' ⊢
          by_cases last : pos' + 1 + 7 ≥ pdu.length
          · simp only [last, ↓reduceIte]
            exact ends_padded short short' noText _ _ _
          · obtain ⟨run, short''⟩ := decodeUserData_fills
              (show pos' + 1 + 7 + 1 + (pdu.length - (pos' + 1 + 7 + 1)) = pdu.length by omega)
              first (pdu.getD pos' 0) (pdu.getD (pos' + 1 + 7) 0) (show 0 < 2048 by decide)
            simp only [last, ↓reduceIte, octet (Nat.not_le.mp last), bind_ok,
              show DeliverArrays.zero.text = padded 2048 [] from rfl, run]
            exact ends_padded short short' short'' _ _ _

namespace ReportArrays

def Terminated (out : ReportArrays) : Prop :=
  Checked.Terminated 24 out.recipient ∧ Checked.Terminated 40 out.serviceCenterTimestamp ∧
    Checked.Terminated 40 out.dischargeTimestamp

/-- The strings in the arrays. -/
def read (out : ReportArrays) : SmsStatusReport :=
  ⟨out.messageReference, .ofBytes out.recipient, .ofBytes out.serviceCenterTimestamp,
    .ofBytes out.dischargeTimestamp, out.status, out.delivered⟩

end ReportArrays

/-- Without a fault, the action ends with terminated strings and this outcome; a
report that was decoded is in the arrays. -/
def Reports (action : Access (DecodeResult × ReportArrays))
    (outcome : Except DecodeResult SmsStatusReport) : Prop :=
  ∃ arrays, arrays.Terminated ∧
    match outcome with
    | .error result => action = .ok (result, arrays)
    | .ok report => action = .ok (.ok, arrays) ∧ arrays.read = report

theorem terminated_padded {recipient stamp stamp' : List UInt8} (short : recipient.length < 24)
    (short' : stamp.length < 40) (short'' : stamp'.length < 40) (reference status : UInt8)
    (delivered : Bool) :
    (⟨reference, padded 24 recipient, padded 40 stamp, padded 40 stamp', status, delivered⟩ :
      ReportArrays).Terminated :=
  ⟨padded_terminated short, padded_terminated short', padded_terminated short''⟩

theorem statusReportDecode_reports {pduHex : CStr} {pdu : List UInt8}
    (hex : hexDecode pduHex smsMaxPduOctets = .ok pdu) :
    Reports (statusReportDecode pdu) (SmsGateway.smsStatusReportDecode pduHex) := by
  have noRecipient : ([] : List UInt8).length < 24 := by decide
  have noStamp : ([] : List UInt8).length < 40 := by decide
  have untouched (reference : UInt8) (result : DecodeResult) :
      Reports (.ok (result, { ReportArrays.zero with messageReference := reference }))
        (.error result) :=
    ⟨_, terminated_padded noRecipient noStamp noStamp reference 0 false, rfl⟩
  have octet {k : Nat} (below : k < pdu.length) : load pdu k = .ok (pdu.getD k 0) :=
    load_ok below 0
  simp only [SmsGateway.smsStatusReportDecode, hex]
  change Reports (statusReportDecode pdu) (if pdu.length < 2 then _ else _)
  unfold statusReportDecode
  by_cases small : pdu.length < 2
  · simp only [small, ↓reduceIte]
    exact untouched 0 _
  simp only [small, ↓reduceIte, octet (show 0 < pdu.length by omega), bind_ok]
  by_cases center : 1 + (pdu.getD 0 0).toNat ≥ pdu.length
  · simp only [center, ↓reduceIte]
    exact untouched 0 _
  simp only [center, ↓reduceIte, octet (Nat.not_le.mp center), bind_ok]
  generalize pdu.getD (1 + (pdu.getD 0 0).toNat) 0 = first
  generalize 2 + (pdu.getD 0 0).toNat = pos
  by_cases kind : first &&& 0x03 ≠ 0x02 ∨ pos + 3 > pdu.length
  · simp only [kind, ↓reduceIte]
    exact untouched 0 _
  simp only [kind, ↓reduceIte, octet (show pos < pdu.length by omega),
    octet (show pos + 1 < pdu.length by omega), octet (show pos + 2 < pdu.length by omega), bind_ok]
  generalize pdu.getD pos 0 = reference
  generalize (pdu.getD (pos + 1) 0).toNat = raDigits
  generalize pdu.getD (pos + 2) 0 = raToa
  by_cases beyond : pos + 3 + (raDigits + 1) / 2 + 15 > pdu.length
  · simp only [beyond, ↓reduceIte, true_or]
    exact untouched reference _
  simp only [beyond, ↓reduceIte, false_or]
  obtain ⟨run, short⟩ := addressDecode_writes
    (show pos + 3 + (pdu.length - (pos + 3)) = pdu.length by omega) raDigits raToa
    (show 0 < 24 by decide)
  rw [show ReportArrays.zero.recipient = padded 24 [] from rfl, run, bind_ok]
  clear run
  generalize SmsGateway.addressDecode (pdu.drop (pos + 3)) raDigits raToa 24 = address at short ⊢
  obtain ⟨parsed, recipient⟩ := address
  cases parsed with
  | false => exact ⟨_, terminated_padded short noStamp noStamp reference 0 false, rfl⟩
  | true =>
      simp only [Bool.not_true, Bool.false_eq_true, ↓reduceIte]
      generalize stamped : pos + 3 + (raDigits + 1) / 2 = pos'
      obtain ⟨run, short'⟩ := timestampDecode_writes
        (show pos' + (pdu.length - pos') = pdu.length by omega) (show 0 < 40 by decide)
      rw [show ReportArrays.zero.serviceCenterTimestamp = padded 40 [] from rfl, run, bind_ok]
      clear run
      generalize SmsGateway.timestampDecode (pdu.drop pos') 40 = stamp at short' ⊢
      cases stamp with
      | none => exact ⟨_, terminated_padded short noStamp noStamp reference 0 false, rfl⟩
      | some timestamp =>
          obtain ⟨run, short''⟩ := timestampDecode_writes
            (show pos' + 7 + (pdu.length - (pos' + 7)) = pdu.length by omega)
            (show 0 < 40 by decide)
          simp only [Option.isSome_some, Option.getD_some, Bool.not_true, Bool.false_eq_true,
            ↓reduceIte] at short' ⊢
          rw [show ReportArrays.zero.dischargeTimestamp = padded 40 [] from rfl, run, bind_ok]
          clear run
          generalize SmsGateway.timestampDecode (pdu.drop (pos' + 7)) 40 = stamp at short'' ⊢
          cases stamp with
          | none => exact ⟨_, terminated_padded short short' noStamp reference 0 false, rfl⟩
          | some discharge =>
              have last : ¬ pos' + 7 + 7 ≥ pdu.length := by omega
              simp only [Option.isSome_some, Option.getD_some, Bool.not_true, Bool.false_eq_true,
                ↓reduceIte, last, octet (Nat.not_le.mp last), bind_ok] at short'' ⊢
              refine ⟨_, terminated_padded short short' short'' reference _ _, rfl, ?_⟩
              simp only [ReportArrays.read, ofBytes_padded]

/-- On the zeroed output of a caller, what is decoded into the arrays is what the
decoders on lists return. -/
theorem smsDeliverDecode_refines (pduHex : CStr) :
    ∃ after, smsDeliverDecode pduHex .zero = .ok ((SmsGateway.smsDeliverDecode pduHex).1, after) ∧
      after.read = (SmsGateway.smsDeliverDecode pduHex).2 := by
  unfold smsDeliverDecode SmsGateway.smsDeliverDecode
  cases hexDecode pduHex smsMaxPduOctets with
  | error result => exact ⟨.zero, rfl, rfl⟩
  | ok pdu =>
      obtain ⟨arrays, run, -, same⟩ := deliverDecode_ends pdu
      exact ⟨arrays, run, same⟩

theorem smsStatusReportDecode_refines {pduHex : CStr} {report : SmsStatusReport}
    (decoded : SmsGateway.smsStatusReportDecode pduHex = .ok report) (out : ReportArrays) :
    ∃ after, smsStatusReportDecode pduHex out = .ok (.ok, after) ∧ after.read = report := by
  cases hex : hexDecode pduHex smsMaxPduOctets with
  | error result =>
      rw [SmsGateway.smsStatusReportDecode, hex] at decoded
      cases decoded
  | ok pdu =>
      obtain ⟨arrays, -, run⟩ := statusReportDecode_reports hex
      rw [decoded] at run
      rw [smsStatusReportDecode, hex]
      exact ⟨arrays, run⟩

/-- Every access of the two decoders is inside its array, and once the string was
decoded all strings of the output are terminated. -/
theorem decoders_inBounds (pduHex : CStr) (deliver : DeliverArrays) (report : ReportArrays) :
    (∃ result after, smsDeliverDecode pduHex deliver = .ok (result, after) ∧
      ((hexDecode pduHex smsMaxPduOctets).isOk → after.Terminated)) ∧
    (∃ result after, smsStatusReportDecode pduHex report = .ok (result, after) ∧
      ((hexDecode pduHex smsMaxPduOctets).isOk → after.Terminated)) := by
  simp only [smsDeliverDecode, smsStatusReportDecode]
  cases hex : hexDecode pduHex smsMaxPduOctets with
  | error result => exact ⟨⟨result, deliver, rfl, nofun⟩, ⟨result, report, rfl, nofun⟩⟩
  | ok pdu =>
      obtain ⟨arrays, run, terminated, -⟩ := deliverDecode_ends pdu
      refine ⟨⟨_, arrays, run, fun _ => terminated⟩, ?_⟩
      obtain ⟨arrays, terminated, run⟩ := statusReportDecode_reports hex
      generalize SmsGateway.smsStatusReportDecode pduHex = outcome at run
      cases outcome with
      | error result => exact ⟨result, arrays, run, fun _ => terminated⟩
      | ok decoded => exact ⟨.ok, arrays, run.1, fun _ => terminated⟩

end SmsGateway.Checked
