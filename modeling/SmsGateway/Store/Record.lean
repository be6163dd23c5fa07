import SmsGateway.Base

/-! The SMS record (`sms_message_t`) and its flash form (`persisted_record_t`). -/

namespace SmsGateway

inductive SmsDirection where
  | inbound
  | outbound
  deriving DecidableEq, Repr

/-- `sms_message_status_t`; `partialRecord` is `SMS_MESSAGE_PARTIAL`. -/
inductive SmsMessageStatus where
  | partialRecord
  | received
  | queued
  | sending
  | sent
  | delivered
  | failed
  | unsupported
  | uncertain
  deriving DecidableEq, Repr

/-- `sms_message_t`. -/
structure SmsMessage where
  id : UInt32
  direction : SmsDirection
  status : SmsMessageStatus
  encoding : SmsEncoding
  sender : CharArray 24
  recipient : CharArray 24
  serviceCenterTimestamp : CharArray 40
  text : CharArray 4096
  rawPdu : CharArray 353
  concat : SmsConcatInfo
  deliveryReportRequested : Bool
  concatReference : UInt16
  segmentCount : UInt8
  segmentSentMask : BitVec 16
  segmentDeliveredMask : BitVec 16
  segmentFailedMask : BitVec 16
  modemReference : Vector UInt8 16
  deliveryStatus : Vector UInt8 16
  inflightSegment : UInt8
  sendAttempts : UInt8
  lastModemError : Int
  deriving DecidableEq, Repr

/-- A zeroed record, as `calloc` leaves it. -/
def SmsMessage.zero : SmsMessage where
  id := 0
  direction := .inbound
  status := .partialRecord
  encoding := .gsm7
  sender := .zero
  recipient := .zero
  serviceCenterTimestamp := .zero
  text := .zero
  rawPdu := .zero
  concat := .zero
  deliveryReportRequested := false
  concatReference := 0
  segmentCount := 0
  segmentSentMask := 0
  segmentDeliveredMask := 0
  segmentFailedMask := 0
  modemReference := Vector.replicate 16 0
  deliveryStatus := Vector.replicate 16 0
  inflightSegment := 0
  sendAttempts := 0
  lastModemError := 0

/-- `message->id = id`. -/
def SmsMessage.withId (message : SmsMessage) (id : UInt32) : SmsMessage :=
  { message with id := id }

@[simp] theorem SmsMessage.withId_id (message : SmsMessage) (id : UInt32) :
    (message.withId id).id = id := rfl

@[simp] theorem SmsMessage.withId_self (message : SmsMessage) :
    message.withId message.id = message := rfl

/-- `persisted_record_t`: enumerations and flags are single octets on flash. -/
structure PersistedRecord where
  magic : UInt32
  version : UInt16
  size : UInt16
  id : UInt32
  direction : UInt8
  status : UInt8
  encoding : UInt8
  deliveryReportRequested : UInt8
  sender : CharArray 24
  recipient : CharArray 24
  serviceCenterTimestamp : CharArray 40
  text : CharArray 4096
  rawPdu : CharArray 353
  concatPresent : UInt8
  concatIs16bit : UInt8
  concatReference : UInt16
  concatTotalParts : UInt8
  concatPartNumber : UInt8
  outboundConcatReference : UInt16
  segmentCount : UInt8
  segmentSentMask : BitVec 16
  segmentDeliveredMask : BitVec 16
  segmentFailedMask : BitVec 16
  modemReference : Vector UInt8 16
  deliveryStatus : Vector UInt8 16
  inflightSegment : UInt8
  sendAttempts : UInt8
  lastModemError : Int
  deriving DecidableEq, Repr

def smsStoreRecordMagic : UInt32 := 0x534D5347
def smsStoreRecordVersion : UInt16 := 1

/-- `sizeof(persisted_record_t)`, which is packed. -/
def persistedRecordSize : Nat := 4606

def SmsDirection.code : SmsDirection → UInt8
  | .inbound => 0
  | .outbound => 1

def SmsDirection.ofCode (code : UInt8) : SmsDirection :=
  if code = 0 then .inbound else .outbound

def SmsMessageStatus.code : SmsMessageStatus → UInt8
  | .partialRecord => 0
  | .received => 1
  | .queued => 2
  | .sending => 3
  | .sent => 4
  | .delivered => 5
  | .failed => 6
  | .unsupported => 7
  | .uncertain => 8

def SmsMessageStatus.ofCode (code : UInt8) : SmsMessageStatus :=
  if code = 0 then .partialRecord
  else if code = 1 then .received
  else if code = 2 then .queued
  else if code = 3 then .sending
  else if code = 4 then .sent
  else if code = 5 then .delivered
  else if code = 6 then .failed
  else if code = 7 then .unsupported
  else .uncertain

def SmsEncoding.code : SmsEncoding → UInt8
  | .gsm7 => 0
  | .ucs2 => 1
  | .eightBit => 2
  | .unknown => 3

def SmsEncoding.ofCode (code : UInt8) : SmsEncoding :=
  if code = 0 then .gsm7
  else if code = 1 then .ucs2
  else if code = 2 then .eightBit
  else .unknown

def flagCode (flag : Bool) : UInt8 := if flag then 1 else 0

def recordEncode (message : SmsMessage) : PersistedRecord where
  magic := smsStoreRecordMagic
  version := smsStoreRecordVersion
  size := UInt16.ofNat persistedRecordSize
  id := message.id
  direction := message.direction.code
  status := message.status.code
  encoding := message.encoding.code
  deliveryReportRequested := flagCode message.deliveryReportRequested
  sender := message.sender
  recipient := message.recipient
  serviceCenterTimestamp := message.serviceCenterTimestamp
  text := message.text
  rawPdu := message.rawPdu
  concatPresent := flagCode message.concat.present
  concatIs16bit := flagCode message.concat.is16bit
  concatReference := message.concat.reference
  concatTotalParts := message.concat.totalParts
  concatPartNumber := message.concat.partNumber
  outboundConcatReference := message.concatReference
  segmentCount := message.segmentCount
  segmentSentMask := message.segmentSentMask
  segmentDeliveredMask := message.segmentDeliveredMask
  segmentFailedMask := message.segmentFailedMask
  modemReference := message.modemReference
  deliveryStatus := message.deliveryStatus
  inflightSegment := message.inflightSegment
  sendAttempts := message.sendAttempts
  lastModemError := message.lastModemError

def recordDecode (record : PersistedRecord) : Option SmsMessage :=
  if record.magic ≠ smsStoreRecordMagic ∨ record.version ≠ smsStoreRecordVersion ∨
      record.size.toNat ≠ persistedRecordSize ∨ record.id = 0 ∨
      record.direction > SmsDirection.outbound.code ∨
      record.status > SmsMessageStatus.uncertain.code ∨
      record.encoding > SmsEncoding.unknown.code ∨
      record.segmentCount.toNat > smsMaxSegments ∨
      ¬ record.sender.terminated ∨ ¬ record.recipient.terminated ∨
      ¬ record.serviceCenterTimestamp.terminated ∨ ¬ record.text.terminated ∨
      ¬ record.rawPdu.terminated then
    none
  else
    some {
      id := record.id
      direction := .ofCode record.direction
      status := .ofCode record.status
      encoding := .ofCode record.encoding
      sender := record.sender
      recipient := record.recipient
      serviceCenterTimestamp := record.serviceCenterTimestamp
      text := record.text
      rawPdu := record.rawPdu
      concat := {
        present := record.concatPresent != 0
        is16bit := record.concatIs16bit != 0
        reference := record.concatReference
        totalParts := record.concatTotalParts
        partNumber := record.concatPartNumber }
      deliveryReportRequested := record.deliveryReportRequested != 0
      concatReference := record.outboundConcatReference
      segmentCount := record.segmentCount
      segmentSentMask := record.segmentSentMask
      segmentDeliveredMask := record.segmentDeliveredMask
      segmentFailedMask := record.segmentFailedMask
      modemReference := record.modemReference
      deliveryStatus := record.deliveryStatus
      inflightSegment := record.inflightSegment
      sendAttempts := record.sendAttempts
      lastModemError := record.lastModemError }

/-- The fields `sms_store_save` checks before it touches the flash. -/
def SmsMessage.storable (message : SmsMessage) : Bool :=
  message.text.terminated && message.sender.terminated && message.recipient.terminated &&
    message.serviceCenterTimestamp.terminated && message.rawPdu.terminated &&
    decide (message.segmentCount.toNat ≤ smsMaxSegments)

@[simp] theorem SmsMessage.storable_withId (message : SmsMessage) (id : UInt32) :
    (message.withId id).storable = message.storable := rfl

@[simp] theorem SmsDirection.ofCode_code (d : SmsDirection) : .ofCode d.code = d := by
  cases d <;> decide

@[simp] theorem SmsMessageStatus.ofCode_code (status : SmsMessageStatus) :
    .ofCode status.code = status := by
  cases status <;> decide

@[simp] theorem SmsEncoding.ofCode_code (encoding : SmsEncoding) :
    .ofCode encoding.code = encoding := by
  cases encoding <;> decide

@[simp] theorem flagCode_ne_zero (flag : Bool) : (flagCode flag != 0) = flag := by
  cases flag <;> decide

theorem SmsDirection.code_le (d : SmsDirection) : d.code ≤ SmsDirection.outbound.code := by
  cases d <;> decide

theorem SmsMessageStatus.code_le (status : SmsMessageStatus) :
    status.code ≤ SmsMessageStatus.uncertain.code := by
  cases status <;> decide

theorem SmsEncoding.code_le (encoding : SmsEncoding) :
    encoding.code ≤ SmsEncoding.unknown.code := by
  cases encoding <;> decide

/-- Every record that passes the checks of a save is accepted by the next scan. -/
theorem recordDecode_recordEncode (message : SmsMessage) (storable : message.storable = true)
    (named : message.id ≠ 0) : recordDecode (recordEncode message) = some message := by
  simp only [SmsMessage.storable, Bool.and_eq_true, decide_eq_true_eq] at storable
  obtain ⟨⟨⟨⟨⟨text, sender⟩, recipient⟩, timestamp⟩, rawPdu⟩, segments⟩ := storable
  have size : (UInt16.ofNat persistedRecordSize).toNat = persistedRecordSize := by decide
  have direction := UInt8.not_lt.mpr message.direction.code_le
  have status := UInt8.not_lt.mpr message.status.code_le
  have encoding := UInt8.not_lt.mpr message.encoding.code_le
  simp [recordDecode, recordEncode, size, named, direction, status, encoding, text, sender,
    recipient, timestamp, rawPdu, segments]

theorem recordDecode_named {record : PersistedRecord} {message : SmsMessage}
    (decoded : recordDecode record = some message) : message.id ≠ 0 := by
  simp only [recordDecode] at decoded
  split at decoded
  · cases decoded
  · rename_i accepted
    cases decoded
    intro zero
    exact accepted (.inr (.inr (.inr (.inl zero))))

end SmsGateway
