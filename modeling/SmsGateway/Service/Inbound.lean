import SmsGateway.Service.Calls

/-! Inbound messages and delivery reports (`sms_service.c`). -/

namespace SmsGateway

open Lib

/-- The part numbers of a message, in the order of the loop of `assemble_if_complete`. -/
def partNumbers (totalParts : UInt8) : List UInt8 :=
  (List.range totalParts.toNat).map fun k => UInt8.ofNat (k + 1)

/-- The assembled record before the first part is read. -/
def assembledStart (deliver : SmsDeliver) : SmsMessage :=
  { SmsMessage.zero with
    direction := .inbound
    status := .received
    encoding := deliver.encoding
    sender := .strncpy deliver.sender.str
    serviceCenterTimestamp := .strncpy deliver.serviceCenterTimestamp.str
    segmentCount := deliver.concat.totalParts
    concatReference := deliver.concat.reference }

/-- The assembled record once a part is copied to the end of its text. -/
def appendPart (assembled : SmsMessage) (part : UInt8) (stored : SmsMessage) : SmsMessage :=
  let assembled := { assembled with text := .strncpy (assembled.text.str ++ stored.text.str) }
  if part = 1 then
    { assembled with serviceCenterTimestamp := .strncpy stored.serviceCenterTimestamp.str }
  else assembled

/-- The loop over the parts: the assembled record and the ids of the parts.
`partial_ids` has 16 entries in the source, and no stored part has a larger total
since a save refuses its segment count. -/
def assembleParts (deliver : SmsDeliver) :
    List UInt8 → SmsMessage → List UInt32 →
      ServiceM (Except EspErr (SmsMessage × List UInt32))
  | [], assembled, partialIds => pure (.ok (assembled, partialIds))
  | part :: rest, assembled, partialIds => do
      match ← storeFind (.findPartial deliver.sender.str deliver.concat.reference
          deliver.concat.totalParts part) with
      | .error e => pure (.error e)
      | .ok stored =>
          if stored.text.str.length ≥ 4096 ∨
              assembled.text.str.length + stored.text.str.length ≥ 4096 then
            pure (.error .invalidSize)
          else
            assembleParts deliver rest (appendPart assembled part stored)
              (partialIds ++ [stored.id])

/-- A failed delete is only logged. -/
def deletePartials : List UInt32 → ServiceM Unit
  | [] => pure ()
  | id :: rest => do
      let _ ← storeDelete id
      deletePartials rest

/-- The assembled record is stored unless an equal message is; the flag is
`created`. -/
def storeAssembled (assembled : SmsMessage) : ServiceM (Except EspErr (SmsMessage × Bool)) := do
  match ← storeFind (.findInboundIdentity assembled.sender.str
      assembled.serviceCenterTimestamp.str assembled.encoding assembled.text.str) with
  | .ok existing => pure (.ok (existing, false))
  | .error .notFound =>
      match ← storeSave assembled with
      | (.error e, _) => pure (.error e)
      | (.ok (), saved) => pure (.ok (saved, true))
  | .error e => pure (.error e)

/-- The assembled record and whether it is new. -/
def assembleIfComplete (deliver : SmsDeliver) : ServiceM (Except EspErr (SmsMessage × Bool)) :=
  if !deliver.concat.present then pure (.error .invalidArg)
  else do
    let memory ← allocate
    if !memory then pure (.error .noMem)
    else
      match ← assembleParts deliver (partNumbers deliver.concat.totalParts)
          (assembledStart deliver) [] with
      | .error e => pure (.error e)
      | .ok (assembled, partialIds) => do
          let memory ← allocate
          if !memory then pure (.error .noMem)
          else
            match ← storeAssembled assembled with
            | .error e => pure (.error e)
            | .ok done => do
                deletePartials partialIds
                pure (.ok done)

/-- The record of a decoded message or part. -/
def deliverRecord (deliver : SmsDeliver) : SmsMessage :=
  { SmsMessage.zero with
    direction := .inbound
    status := if deliver.concat.present then .partialRecord else .received
    encoding := deliver.encoding
    concat := deliver.concat
    concatReference := deliver.concat.reference
    segmentCount := if deliver.concat.present then deliver.concat.totalParts else 1
    sender := .strncpy deliver.sender.str
    serviceCenterTimestamp := .strncpy deliver.serviceCenterTimestamp.str
    text := .strncpy deliver.text.str }

/-- A stored part overwritten by a part of the same number. -/
def overwritePart (existing : SmsMessage) (deliver : SmsDeliver) : SmsMessage :=
  { existing with
    encoding := deliver.encoding
    concat := deliver.concat
    text := .strncpy deliver.text.str
    serviceCenterTimestamp := .strncpy deliver.serviceCenterTimestamp.str }

/-- A save and the record the caller has afterwards. -/
def saveRecord (message : SmsMessage) : ServiceM (Except EspErr SmsMessage) := do
  match ← storeSave message with
  | (.error e, _) => pure (.error e)
  | (.ok (), saved) => pure (.ok saved)

/-- The first half of `persist_deliver` for a part: the part is in the store. -/
def persistPart (deliver : SmsDeliver) : ServiceM (Except EspErr SmsMessage) := do
  match ← storeFind (.findPartial deliver.sender.str deliver.concat.reference
      deliver.concat.totalParts deliver.concat.partNumber) with
  | .ok existing =>
      if existing.text.str = deliver.text.str then pure (.ok existing)
      else saveRecord (overwritePart existing deliver)
  | .error .notFound => saveRecord (deliverRecord deliver)
  | .error e => pure (.error e)

/-- The second half: the message is assembled once all its parts are stored. -/
def persistAssembly (deliver : SmsDeliver) (eventMessage : SmsMessage) :
    ServiceM (Except EspErr SmsMessage) := do
  match ← assembleIfComplete deliver with
  | .ok (assembled, true) => do
      emitEvent .received assembled
      pure (.ok assembled)
  | .ok (assembled, false) => pure (.ok assembled)
  | .error .notFound => do
      emitEvent .partialReceived eventMessage
      pure (.ok eventMessage)
  | .error e => pure (.error e)

/-- `persist_deliver` without concatenation information. -/
def persistSingle (record : SmsMessage) : ServiceM (Except EspErr SmsMessage) := do
  match ← storeFind (.findInboundIdentity record.sender.str record.serviceCenterTimestamp.str
      record.encoding record.text.str) with
  | .ok existing => pure (.ok existing)
  | .error .notFound => do
      match ← saveRecord record with
      | .error e => pure (.error e)
      | .ok saved => do
          emitEvent .received saved
          pure (.ok saved)
  | .error e => pure (.error e)

/-- The result is `event_message`, which the caller drops when the call fails. -/
def persistDeliver (deliver : SmsDeliver) : ServiceM (Except EspErr SmsMessage) := do
  let record ← allocate
  if !record then pure (.error .noMem)
  else if deliver.concat.present then do
    let existing ← allocate
    let assembled ← allocate
    if !existing || !assembled then pure (.error .noMem)
    else
      match ← persistPart deliver with
      | .error e => pure (.error e)
      | .ok eventMessage => persistAssembly deliver eventMessage
  else do
    let existing ← allocate
    if !existing then pure (.error .noMem)
    else persistSingle (deliverRecord deliver)

/-- `(1U << segment_count) - 1U`, and all ones from 16 segments on. -/
def allSegments (segmentCount : Nat) : BitVec 16 :=
  if segmentCount ≥ 16 then BitVec.allOnes 16 else BitVec.ofNat 16 (2 ^ segmentCount - 1)

/-- `1U << index`. -/
def segmentMask (index : Nat) : BitVec 16 := BitVec.twoPow 16 index

/-- The outbound record after a report about one of its segments. -/
def applyReport (message : SmsMessage) (segment : Nat) (report : SmsStatusReport) : SmsMessage :=
  let message := { message with
    deliveryStatus := message.deliveryStatus.setIfInBounds segment report.status }
  let message :=
    if report.delivered then
      { message with
        segmentDeliveredMask := message.segmentDeliveredMask ||| segmentMask segment }
    else if report.status ≥ 0x40 then
      { message with segmentFailedMask := message.segmentFailedMask ||| segmentMask segment }
    else message
  let all := allSegments message.segmentCount.toNat
  if message.segmentDeliveredMask &&& all = all then { message with status := .delivered }
  else if message.segmentFailedMask &&& all ≠ 0 then { message with status := .failed }
  else message

/-- The event of an outbound record whose final status a report decided. -/
def emitReport (saved : SmsMessage) : ServiceM Unit :=
  if saved.status = .delivered then emitEvent .delivered saved
  else if saved.status = .failed then emitEvent .failed saved
  else pure ()

def processStatusReportPdu (pdu : CStr) : ServiceM (Except EspErr Unit) :=
  match smsStatusReportDecode pdu with
  | .error _ => pure (.error .invalidResponse)
  | .ok report => do
      let memory ← allocate
      if !memory then pure (.error .noMem)
      else
        match ← storeFindOutboundReference report.recipient.str report.messageReference with
        | .error e => pure (.error e)
        | .ok (message, segment) => do
            match ← saveRecord (applyReport message segment report) with
            | .error e => pure (.error e)
            | .ok saved => do
                emitReport saved
                pure (.ok ())

/-- The quarantine record of a PDU. -/
def unsupportedRecord (pdu : CStr) (deliver : SmsDeliver) : SmsMessage :=
  { SmsMessage.zero with
    direction := .inbound
    status := .unsupported
    encoding := deliver.encoding
    segmentCount := 1
    sender := .strncpy deliver.sender.str
    serviceCenterTimestamp := .strncpy deliver.serviceCenterTimestamp.str
    rawPdu := .strncpy pdu }

def persistUnsupportedDeliver (pdu : CStr) (deliver : SmsDeliver) :
    ServiceM (Except EspErr SmsMessage) := do
  let memory ← allocate
  if !memory then pure (.error .noMem)
  else
    match ← storeFind (.findInboundRawPdu pdu) with
    | .ok existing => pure (.ok existing)
    | .error .notFound => do
        match ← saveRecord (unsupportedRecord pdu deliver) with
        | .error e => pure (.error e)
        | .ok stored => do
            emitEvent .unsupportedReceived stored
            pure (.ok stored)
    | .error e => pure (.error e)

/-- The modem's copy goes once the message is persisted; a failure is only
logged. -/
def deleteModemCopy (modemIndex : Int) : ServiceM (Except EspErr Unit) :=
  if modemIndex ≥ 0 then do
    let _ ← deleteModemIndex modemIndex
    pure (.ok ())
  else pure (.ok ())

/-- What follows the decoding of an SMS-DELIVER. -/
def processDecoded (pdu : CStr) (modemIndex : Int) (decode : DecodeResult) (deliver : SmsDeliver) :
    ServiceM (Except EspErr Unit) :=
  if decode = .unsupported ∧ deliver.encoding = .eightBit then do
    match ← persistUnsupportedDeliver pdu deliver with
    | .error e => pure (.error e)
    | .ok _ => deleteModemCopy modemIndex
  else if decode ≠ .ok then pure (.error .invalidResponse)
  else do
    match ← persistDeliver deliver with
    | .error e => pure (.error e)
    | .ok _ => deleteModemCopy modemIndex

def processDeliverPdu (pdu : CStr) (modemIndex : Int) : ServiceM (Except EspErr Unit) := do
  let delivered ← allocate
  let stored ← allocate
  if !delivered || !stored then pure (.error .noMem)
  else processDecoded pdu modemIndex (smsDeliverDecode pdu).1 (smsDeliverDecode pdu).2

def processAnyPdu (pdu : CStr) (modemIndex : Int) : ServiceM (Except EspErr Unit) :=
  match smsPduTypeDetect pdu with
  | .deliver => processDeliverPdu pdu modemIndex
  | .statusReport => do
      match ← processStatusReportPdu pdu with
      | .error e => pure (.error e)
      | .ok () => deleteModemCopy modemIndex
  | .unknown => pure (.error .notSupported)

end SmsGateway
