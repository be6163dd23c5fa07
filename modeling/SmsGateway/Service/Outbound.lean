import SmsGateway.Service.Inbound

/-! Outbound messages (`sms_service.c`): queueing, sending and retrying. -/

namespace SmsGateway

open Lib

def digitsValue (digits : List UInt8) : Int :=
  digits.foldl (fun value digit => value * 10 + (digit.toNat - 0x30 : Nat)) 0

/-- `strtol` in base 10; `none` when it converts nothing. Values beyond `long`
are not clamped: its caller refuses them all the same. -/
def strtol (text : List UInt8) : Option Int :=
  let text := text.dropWhile isSpace
  let (negative, text) :=
    match text with
    | 0x2D :: rest => (true, rest)
    | 0x2B :: rest => (false, rest)
    | _ => (false, text)
  match text.takeWhile isDigit with
  | [] => none
  | digits => some (if negative then -digitsValue digits else digitsValue digits)

/-- `+CMGS:`. -/
def cmgsLead : List UInt8 := [0x2B, 0x43, 0x4D, 0x47, 0x53, 0x3A]

/-- The reference in one response line, if it is a `+CMGS:` line with one. -/
def cmgsLineReference (line : CStr) : Option UInt8 :=
  if line.bytes.take 6 ≠ cmgsLead then none
  else match strtol ((line.bytes.drop 6).dropWhile isSpace) with
    | none => none
    | some value => if 0 ≤ value ∧ value ≤ 255 then some (UInt8.ofNat value.toNat) else none

def parseCmgsReference (response : AtResponse) : Option UInt8 :=
  response.lines.findSome? cmgsLineReference

/-- The record as `send_segment` stores it before the modem sees the segment. -/
def sendingRecord (message : SmsMessage) (index : Nat) : SmsMessage :=
  { message with
    status := .sending
    inflightSegment := UInt8.ofNat (index + 1)
    sendAttempts := message.sendAttempts + 1 }

/-- The record once the modem confirmed a segment. -/
def sentRecord (message : SmsMessage) (index : Nat) (reference : UInt8) : SmsMessage :=
  { message with
    modemReference := message.modemReference.setIfInBounds index reference
    segmentSentMask := message.segmentSentMask ||| segmentMask index
    inflightSegment := 0
    lastModemError := 0 }

/-- A retryable record: queued, with no segment in flight. -/
def requeuedRecord (message : SmsMessage) : SmsMessage :=
  { message with status := .queued, inflightSegment := 0 }

def uncertainRecord (message : SmsMessage) (lastModemError : Int) : SmsMessage :=
  { message with status := .uncertain, lastModemError := lastModemError }

/-- The modem's reference for the segment, or the record's modem error and the
result of `send_segment`. -/
def submitOutcome : Except EspErr AtResponse → Except (Int × EspErr) UInt8
  | .error e => .error (-1, e)
  | .ok response =>
      if response.result ≠ .ok then .error (response.errorCode, .fail)
      else match parseCmgsReference response with
        | none => .error (response.errorCode, .fail)
        | some reference => .ok reference

/-- The prompt payload of a segment: its PDU and Ctrl-Z. -/
def promptPayload (segment : SmsSubmitSegment) : List UInt8 := segment.pduHex.bytes ++ [0x1A]

def submitRequest (message : SmsMessage) (segment : SmsSubmitSegment) (index : Nat) : AtRequest :=
  ⟨.cmgs segment.tpduLengthOctets, some (promptPayload segment), some (message.id, index)⟩

/-- `send_segment` from the `malloc` of the payload on. -/
def submitSegment (message : SmsMessage) (segment : SmsSubmitSegment) (index : Nat) :
    ServiceM (Except EspErr Unit × SmsMessage) := do
  let memory ← allocate
  if !memory then do
    let (_, message) ← storeSave (requeuedRecord message)
    pure (.error .noMem, message)
  else
    match submitOutcome (← execute (submitRequest message segment index)) with
    | .error (modemError, e) => do
        let (_, message) ← storeSave (uncertainRecord message modemError)
        emitEvent .uncertain message
        pure (.error e, message)
    | .ok reference => storeSave (sentRecord message index reference)

/-- The result and the caller's record. -/
def sendSegment (message : SmsMessage) (segment : SmsSubmitSegment) (index : Nat) :
    ServiceM (Except EspErr Unit × SmsMessage) :=
  if index ≥ message.segmentCount.toNat then pure (.error .invalidArg, message)
  else do
    match ← storeSave (sendingRecord message index) with
    | (.error e, message) => pure (.error e, message)
    | (.ok (), message) => submitSegment message segment index

/-- The loop of `process_one_outbound` from segment `index` on; the flag says
whether it ran to its end. -/
def sendSegments : List SmsSubmitSegment → Nat → SmsMessage → ServiceM (Bool × SmsMessage)
  | [], _, message => pure (true, message)
  | segment :: rest, index, message =>
      if segmentBit message.segmentSentMask index then sendSegments rest (index + 1) message
      else do
        match ← sendSegment message segment index with
        | (.error _, message) => pure (false, message)
        | (.ok (), message) => sendSegments rest (index + 1) message

/-- The end of `process_one_outbound`: every segment was confirmed. -/
def finishOutbound (message : SmsMessage) (segmentCount : Nat) : ServiceM Unit :=
  if message.segmentSentMask &&& allSegments segmentCount = allSegments segmentCount then do
    match ← storeSave { message with status := .sent, inflightSegment := 0 } with
    | (.error _, _) => pure ()
    | (.ok (), message) => emitEvent .sent message
  else pure ()

/-- Room for the segments of a record. -/
def segmentCapacity (message : SmsMessage) : Nat :=
  if 1 ≤ message.segmentCount.toNat ∧ message.segmentCount.toNat ≤ smsMaxSegments then
    message.segmentCount.toNat
  else smsMaxSegments

/-- The segments of a queued record, if they are as many as when it was queued. -/
def queuedSegments (message : SmsMessage) : Option (List SmsSubmitSegment) :=
  match smsSubmitEncode message.recipient.str message.text.str message.deliveryReportRequested
      message.concatReference (segmentCapacity message) with
  | none => none
  | some segments =>
      if segments.length = 0 ∨ segments.length ≠ message.segmentCount.toNat then none
      else some segments

/-- `process_one_outbound` on the record it found. -/
def processQueued (message : SmsMessage) : ServiceM Unit := do
  let memory ← allocate
  if !memory then pure ()
  else
    match queuedSegments message with
    | none => do
        let (_, message) ← storeSave { message with status := .failed, lastModemError := -1 }
        emitEvent .failed message
    | some segments => do
        match ← sendSegments segments 0 message with
        | (false, _) => pure ()
        | (true, message) => finishOutbound message segments.length

def processOneOutbound : ServiceM Unit := do
  let configured ← pduModeConfigured
  let ready ← modemReady
  if !ready || !configured then pure ()
  else do
    let memory ← allocate
    if !memory then pure ()
    else
      match ← storeFind (.findStatus .queued) with
      | .error _ => pure ()
      | .ok message => processQueued message

/-- One record of the loop of `mark_interrupted_sends_uncertain`. -/
def markInterrupted (record : SmsMessage) : ServiceM SmsMessage :=
  if record.direction = .outbound ∧ record.status = .sending then do
    let (_, record) ← storeSave { record with status := .uncertain }
    emitEvent .uncertain record
    pure record
  else pure record

/-- The loop over the records after an id. Every round moves to a larger id, so
the loop of the source makes fewer than 2^32 rounds. -/
def markInterruptedLoop : Nat → UInt32 → ServiceM Unit
  | 0, _ => pure ()
  | rounds + 1, after => do
      match ← storeList after 1 with
      | .ok (record :: _) => do
          let record ← markInterrupted record
          markInterruptedLoop rounds record.id
      | _ => pure ()

def markInterruptedSendsUncertain (rounds : Nat) : ServiceM Unit := do
  let memory ← allocate
  if !memory then pure () else markInterruptedLoop rounds 0

/-- The record `sms_service_send` queues. -/
def queuedRecord (recipient text : CStr) (requestDeliveryReport : Bool) (concatReference : UInt16)
    (encoding : SmsEncoding) (segmentCount : Nat) : SmsMessage :=
  { SmsMessage.zero with
    direction := .outbound
    status := .queued
    encoding := encoding
    deliveryReportRequested := requestDeliveryReport
    concatReference := concatReference
    segmentCount := UInt8.ofNat segmentCount
    modemReference := Vector.replicate 16 0xFF
    deliveryStatus := Vector.replicate 16 0xFF
    recipient := .strncpy recipient
    text := .strncpy text }

/-- The id of the queued message. -/
def smsServiceSend (recipient text : CStr) (requestDeliveryReport : Bool) :
    ServiceM (Except EspErr UInt32) :=
  if text.length ≥ 4096 then pure (.error .invalidSize)
  else do
    let memory ← allocate
    if !memory then pure (.error .noMem)
    else do
      let random ← espRandom
      let concatReference := if random.toUInt16 = 0 then 1 else random.toUInt16
      match smsSubmitEncode recipient text requestDeliveryReport concatReference smsMaxSegments with
      | none | some [] => pure (.error .invalidArg)
      | some (first :: rest) =>
          if (first :: rest).length > smsMaxSegments then pure (.error .invalidArg)
          else do
            let memory ← allocate
            if !memory then pure (.error .noMem)
            else
              match ← storeSave (queuedRecord recipient text requestDeliveryReport concatReference
                  first.encoding (first :: rest).length) with
              | (.error e, _) => pure (.error e)
              | (.ok (), message) => pure (.ok message.id)

def smsServiceDelete (id : UInt32) : ServiceM (Except EspErr Unit) := do
  let memory ← allocate
  if !memory then pure (.error .noMem)
  else
    match ← storeFind (.get id) with
    | .error e => pure (.error e)
    | .ok message =>
        if message.direction = .outbound ∧
            (message.status = .queued ∨ message.status = .sending) then
          pure (.error .invalidState)
        else storeDelete id

def smsServiceRetryUncertain (id : UInt32) : ServiceM (Except EspErr Unit) := do
  let memory ← allocate
  if !memory then pure (.error .noMem)
  else
    match ← storeFind (.get id) with
    | .error e => pure (.error e)
    | .ok message =>
        if message.direction ≠ .outbound ∨ message.status ≠ .uncertain then
          pure (.error .invalidState)
        else do
          let (result, _) ← storeSave (requeuedRecord message)
          pure result

end SmsGateway
