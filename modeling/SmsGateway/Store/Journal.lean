import SmsGateway.Lib.Faults
import SmsGateway.Lib.Slots
import SmsGateway.Store.Record

/-! The durable SMS store (`sms_store.c`) over a flash whose calls may fail. -/

namespace SmsGateway

open Lib

def smsStoreMaxRecords : Nat := 128

abbrev Slot := Fin smsStoreMaxRecords

instance : NeZero smsStoreMaxRecords := ⟨by decide⟩

/-- A stored blob: its length and, read as a record, its contents. -/
structure Blob where
  length : Nat
  record : PersistedRecord
  deriving DecidableEq

/-- The NVS namespace of the store (the blob under `s000` .. `s127` and
`next_id`) and the static variables of `sms_store.c`. -/
structure Store where
  blob : Slot → Option Blob
  nextId : Option UInt32
  prunedRecords : UInt32
  capacityFailures : UInt32
  replayWatermark : UInt32
  replayProtectionEnabled : Bool

def Store.empty : Store := ⟨fun _ => none, none, 0, 0, 0, true⟩

inductive NvsCall where
  | getBlob
  | setBlob
  | getU32
  | setU32
  | eraseKey
  | commit
  deriving DecidableEq, Repr

abbrev StoreM := FaultM NvsCall Store

def nvsGetBlob (slot : Slot) : StoreM (Except EspErr Blob) :=
  attempt .nvs .getBlob fun s =>
    match s.blob slot with
    | none => (.error .nvsNotFound, s)
    | some blob => (if blob.length > persistedRecordSize then .error .invalidSize else .ok blob, s)

def nvsSetBlob (slot : Slot) (blob : Blob) : StoreM (Except EspErr Unit) :=
  attempt .nvs .setBlob fun s => (.ok (), { s with blob := Function.update s.blob slot (some blob) })

def nvsEraseKey (slot : Slot) : StoreM (Except EspErr Unit) :=
  attempt .nvs .eraseKey fun s =>
    match s.blob slot with
    | none => (.error .nvsNotFound, s)
    | some _ => (.ok (), { s with blob := Function.update s.blob slot none })

def nvsGetU32 : StoreM (Except EspErr UInt32) :=
  attempt .nvs .getU32 fun s =>
    match s.nextId with
    | none => (.error .nvsNotFound, s)
    | some value => (.ok value, s)

def nvsSetU32 (value : UInt32) : StoreM (Except EspErr Unit) :=
  attempt .nvs .setU32 fun s => (.ok (), { s with nextId := some value })

def nvsCommit : StoreM (Except EspErr Unit) :=
  attempt .nvs .commit fun s => (.ok (), s)

def loadSlot (slot : Slot) : StoreM (Except EspErr (Option SmsMessage)) := do
  match ← nvsGetBlob slot with
  | .error .nvsNotFound => pure (.ok none)
  | .error e => pure (.error e)
  | .ok blob =>
      if blob.length ≠ persistedRecordSize then pure (.error .invalidResponse)
      else match recordDecode blob.record with
        | none => pure (.error .invalidResponse)
        | some message => pure (.ok (some message))

def writeSlot (slot : Slot) (message : SmsMessage) : StoreM (Except EspErr Unit) := do
  match ← nvsSetBlob slot ⟨persistedRecordSize, recordEncode message⟩ with
  | .error e => pure (.error e)
  | .ok () => nvsCommit

def allSlots : List Slot := List.finRange smsStoreMaxRecords

/-- Whether a slot holds the record with this id. -/
def holdsId (id : UInt32) : Option SmsMessage → Bool
  | some message => message.id == id
  | none => false

def findIdSlot (id : UInt32) : StoreM (Except EspErr Slot) := do
  let found ← firstSlot loadSlot (holdsId id) .notFound allSlots
  pure (found.map Prod.fst)

def findEmptySlot : StoreM (Except EspErr Slot) := do
  let found ← firstSlot loadSlot Option.isNone .noMem allSlots
  pure (found.map Prod.fst)

def recordPrunable (s : Store) (message : SmsMessage) : Bool :=
  match message.status with
  | .received => !s.replayProtectionEnabled || decide (message.id ≤ s.replayWatermark)
  | .sent => !message.deliveryReportRequested
  | .delivered | .failed | .unsupported => true
  | .partialRecord | .queued | .sending | .uncertain => false

def uint32Max : UInt32 := 0xFFFFFFFF

/-- The loop of `find_prunable_slot` and `sms_store_find_status`: the slot of the
passing record with the smallest id. -/
def findLeast (pass : SmsMessage → Bool) (absent : EspErr) : StoreM (Except EspErr Slot) := do
  match ← foldSlots loadSlot (visitLeast pass SmsMessage.id) allSlots (none, uint32Max) with
  | .error e => pure (.error e)
  | .ok (none, _) => pure (.error absent)
  | .ok (some bestSlot, _) => pure (.ok bestSlot)

def findPrunableSlot : StoreM (Except EspErr Slot) := fun (plan, s) =>
  findLeast (recordPrunable s) .noMem (plan, s)

def eraseSlot (slot : Slot) : StoreM (Except EspErr Unit) := do
  match ← nvsEraseKey slot with
  | .error e => pure (.error e)
  | .ok () => nvsCommit

/-- The successor of an id; `0` is skipped. -/
def nextOf (id : UInt32) : UInt32 := if id + 1 = 0 then 1 else id + 1

/-- `id_out` is written before `next_id` is stored: the second component is the
value left in it, if any. -/
def allocateId : StoreM (Except EspErr Unit × Option UInt32) := do
  let stored ← nvsGetU32
  match stored with
  | .error .nvsNotFound => do
      let result ← nvsSetU32 (nextOf 1)
      pure (result, some 1)
  | .error e => pure (.error e, none)
  | .ok value => do
      let next := if value = 0 then 1 else value
      let result ← nvsSetU32 (nextOf next)
      pure (result, some next)

/-- The slot of a new record: an empty one, or that of the oldest prunable
record once it is erased. -/
def claimSlot : StoreM (Except EspErr Slot) := do
  match ← findEmptySlot with
  | .ok slot => pure (.ok slot)
  | .error .noMem => do
      match ← findPrunableSlot with
      | .error e => pure (.error e)
      | .ok slot => do
          match ← eraseSlot slot with
          | .error e => pure (.error e)
          | .ok () => do
              modify fun (plan, s) => (plan, { s with prunedRecords := s.prunedRecords + 1 })
              pure (.ok slot)
  | .error e => pure (.error e)

/-- The new-record branch of `sms_store_save`. -/
def saveNew (message : SmsMessage) : StoreM (Except EspErr Unit × SmsMessage) := do
  match ← claimSlot with
  | .error e => do
      if e = .noMem then
        modify fun (plan, s) => (plan, { s with capacityFailures := s.capacityFailures + 1 })
      pure (.error e, message)
  | .ok slot => do
      match ← allocateId with
      | (.error e, none) => pure (.error e, message)
      | (.error e, some id) => pure (.error e, message.withId id)
      | (.ok (), allocated) => do
          let named := message.withId (allocated.getD message.id)
          match ← writeSlot slot named with
          | .error e => pure (.error e, named.withId 0)
          | .ok () => pure (.ok (), named)

/-- The existing-record branch of `sms_store_save`. -/
def saveExisting (message : SmsMessage) : StoreM (Except EspErr Unit × SmsMessage) := do
  let slot ← (do
    match ← findIdSlot message.id with
    | .error .notFound => findEmptySlot
    | found => pure found)
  match slot with
  | .error e => pure (.error e, message)
  | .ok slot => do
      let result ← writeSlot slot message
      pure (result, message)

/-- Returns the error code and the caller's record, whose id may be set. -/
def smsStoreSave (message : SmsMessage) : StoreM (Except EspErr Unit × SmsMessage) :=
  if message.storable then
    if message.id = 0 then saveNew message else saveExisting message
  else pure (.error .invalidArg, message)

def smsStoreGet (id : UInt32) : StoreM (Except EspErr SmsMessage) := do
  if id = 0 then pure (.error .invalidArg)
  else match ← findIdSlot id with
    | .error e => pure (.error e)
    | .ok slot => do
        match ← loadSlot slot with
        | .error e => pure (.error e)
        | .ok none => pure (.ok .zero)
        | .ok (some message) => pure (.ok message)

def smsStoreDelete (id : UInt32) : StoreM (Except EspErr Unit) := do
  if id = 0 then pure (.error .invalidArg)
  else match ← findIdSlot id with
    | .error e => pure (.error e)
    | .ok slot => eraseSlot slot

def smsStoreFindStatus (status : SmsMessageStatus) : StoreM (Except EspErr SmsMessage) := do
  match ← findLeast (fun message => message.status == status) .notFound with
  | .error e => pure (.error e)
  | .ok bestSlot => do
      match ← loadSlot bestSlot with
      | .error e => pure (.error e)
      | .ok none => pure (.ok .zero)
      | .ok (some message) => pure (.ok message)

/-- The first record that passes a test, in slot order. -/
def findRecord (pass : SmsMessage → Bool) : StoreM (Except EspErr SmsMessage) := do
  match ← firstSlot loadSlot (Option.any pass) .notFound allSlots with
  | .error e => pure (.error e)
  | .ok (_, none) => pure (.error .notFound)
  | .ok (_, some message) => pure (.ok message)

def isPartialOf (sender : CStr) (reference : UInt16) (totalParts partNumber : UInt8)
    (message : SmsMessage) : Bool :=
  message.direction == .inbound && message.status == .partialRecord && message.concat.present &&
    message.concat.reference == reference && message.concat.totalParts == totalParts &&
    message.concat.partNumber == partNumber && message.sender.str == sender

def smsStoreFindPartial (sender : CStr) (reference : UInt16) (totalParts partNumber : UInt8) :
    StoreM (Except EspErr SmsMessage) :=
  if totalParts = 0 ∨ partNumber = 0 then pure (.error .invalidArg)
  else findRecord (isPartialOf sender reference totalParts partNumber)

def isInboundIdentity (sender timestamp : CStr) (encoding : SmsEncoding) (text : CStr)
    (message : SmsMessage) : Bool :=
  message.direction == .inbound && message.status == .received && message.encoding == encoding &&
    message.sender.str == sender && message.serviceCenterTimestamp.str == timestamp &&
    message.text.str == text

def smsStoreFindInboundIdentity (sender timestamp : CStr) (encoding : SmsEncoding) (text : CStr) :
    StoreM (Except EspErr SmsMessage) :=
  findRecord (isInboundIdentity sender timestamp encoding text)

def isInboundRawPdu (pdu : CStr) (message : SmsMessage) : Bool :=
  message.direction == .inbound && message.status == .unsupported && message.rawPdu.str == pdu

def smsStoreFindInboundRawPdu (pdu : CStr) : StoreM (Except EspErr SmsMessage) :=
  findRecord (isInboundRawPdu pdu)

/-- `(mask & (1U << i)) != 0`. -/
def segmentBit (mask : BitVec 16) (i : Nat) : Bool := mask.getLsbD i

/-- One segment of the inner loop of `sms_store_find_outbound_reference`. -/
def visitReference (reference : UInt8) (slot : Slot) (message : SmsMessage)
    (best : Option (Slot × Nat) × UInt32) (i : Nat) : Option (Slot × Nat) × UInt32 :=
  if segmentBit message.segmentSentMask i ∧ message.modemReference[i]? = some reference ∧
      (best.1 = none ∨ message.id > best.2) then
    (some (slot, i), message.id)
  else best

def visitOutbound (recipient : CStr) (reference : UInt8) (best : Option (Slot × Nat) × UInt32)
    (slot : Slot) : Option SmsMessage → Option (Slot × Nat) × UInt32
  | none => best
  | some message =>
      if message.direction ≠ .outbound ∨ message.recipient.str ≠ recipient then best
      else (List.range message.segmentCount.toNat).foldl
        (visitReference reference slot message) best

def smsStoreFindOutboundReference (recipient : CStr) (reference : UInt8) :
    StoreM (Except EspErr (SmsMessage × Nat)) := do
  match ← foldSlots loadSlot (visitOutbound recipient reference) allSlots (none, 0) with
  | .error e => pure (.error e)
  | .ok (none, _) => pure (.error .notFound)
  | .ok (some (bestSlot, bestIndex), _) => do
      match ← loadSlot bestSlot with
      | .error e => pure (.error e)
      | .ok none => pure (.ok (.zero, bestIndex))
      | .ok (some message) => pure (.ok (message, bestIndex))

/-- Index of the record with the highest id, the first one on a tie. -/
def highestIndex : List SmsMessage → Nat
  | [] => 0
  | first :: rest =>
      (rest.foldl (fun (best : Nat × UInt32 × Nat) record =>
        if record.id > best.2.1 then (best.2.2, record.id, best.2.2 + 1)
        else (best.1, best.2.1, best.2.2 + 1)) (0, first.id, 1)).1

/-- One slot of `sms_store_list`. -/
def visitList (afterId : UInt32) (maxRecords : Nat) (records : List SmsMessage) (_slot : Slot) :
    Option SmsMessage → List SmsMessage
  | none => records
  | some message =>
      if message.id ≤ afterId then records
      else if records.length < maxRecords then records ++ [message]
      else match records[highestIndex records]? with
        | none => records
        | some highest =>
            if message.id < highest.id then records.set (highestIndex records) message else records

/-- Insert after every record whose id is not greater, as `insertion_sort` does. -/
def insertById (record : SmsMessage) : List SmsMessage → List SmsMessage
  | [] => [record]
  | head :: tail =>
      if head.id > record.id then record :: head :: tail else head :: insertById record tail

def insertionSort (records : List SmsMessage) : List SmsMessage :=
  records.foldl (fun sorted record => insertById record sorted) []

def smsStoreList (afterId : UInt32) (maxRecords : Nat) :
    StoreM (Except EspErr (List SmsMessage)) := do
  if maxRecords = 0 then pure (.error .invalidArg)
  else match ← foldSlots loadSlot (visitList afterId maxRecords) allSlots [] with
    | .error e => pure (.error e)
    | .ok records => pure (.ok (insertionSort records))

def smsStoreSetReplayWatermark (protectionEnabled : Bool) (watermark : UInt32) (s : Store) :
    Store :=
  { s with replayProtectionEnabled := protectionEnabled, replayWatermark := watermark }

end SmsGateway
