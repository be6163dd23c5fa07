import SmsGateway.Lib.Faults
import SmsGateway.Lib.Staged
import SmsGateway.Base

/-! The idempotency ledger (`api_idempotency.c`) over a flash whose calls may fail. -/

namespace SmsGateway.Ledger

open Lib

def gatewaySha256Len : Nat := 32

abbrev Digest := Vector UInt8 gatewaySha256Len

def gatewayIdempotencyMaxRecords : Nat := 32

abbrev Slot := Fin gatewayIdempotencyMaxRecords

def idemMagic : UInt32 := 0x4944454d

def idemVersion : UInt16 := 2

/-- `idem_record_t`. With message id 0 it is a reservation pending finalization. -/
structure IdemRecord where
  magic : UInt32
  version : UInt16
  reserved : UInt16
  sequence : UInt32
  messageId : UInt32
  keyHash : Digest
  requestHash : Digest
  deriving DecidableEq

/-- `sizeof(idem_record_t)`. -/
def idemRecordSize : Nat := 80

/-- A stored blob: its length and, read as a record, its contents. -/
structure Blob where
  length : Nat
  record : IdemRecord
  deriving DecidableEq

/-- The blobs under `r00` .. `r31`. -/
abbrev Contents := Slot → Option Blob

/-- The NVS namespace `api_idem`. -/
abbrev Flash := Staged Contents

/-- `gateway_idempotency_result_t`. -/
inductive IdempotencyResult where
  | miss
  | replay
  | conflict
  deriving DecidableEq, Repr

def equal32 (a b : Digest) : Bool :=
  (List.finRange gatewaySha256Len).foldl (fun diff i => diff ||| (a.get i ^^^ b.get i)) 0 == 0

/-- The calls of the ledger that may be refused. -/
inductive Device where
  | lock
  | sha256
  | getBlob
  | setBlob
  | eraseKey
  | commit
  deriving DecidableEq, Repr

abbrev LedgerM := FaultM Device Flash

def nvsGetBlob (slot : Slot) : LedgerM (Except EspErr Blob) :=
  attempt .nvs .getBlob fun s =>
    match s.current slot with
    | none => (.error .nvsNotFound, s)
    | some blob => (if blob.length > idemRecordSize then .error .invalidSize else .ok blob, s)

def nvsSetBlob (slot : Slot) (blob : Blob) : LedgerM (Except EspErr Unit) :=
  attempt .nvs .setBlob fun s =>
    (.ok (), s.write (Function.update s.current slot (some blob)))

def nvsEraseKey (slot : Slot) : LedgerM (Except EspErr Unit) :=
  attempt .nvs .eraseKey fun s =>
    match s.current slot with
    | none => (.error .nvsNotFound, s)
    | some _ => (.ok (), s.write (Function.update s.current slot none))

def nvsCommit : LedgerM (Except EspErr Unit) :=
  attempt .nvs .commit fun s => (.ok (), s.commit)

def readSlot (slot : Slot) : LedgerM (Except EspErr IdemRecord) := do
  match ← nvsGetBlob slot with
  | .error e => pure (.error e)
  | .ok blob =>
      if blob.length ≠ idemRecordSize ∨ blob.record.magic ≠ idemMagic ∨
          blob.record.version ≠ idemVersion then
        pure (.error .invalidVersion)
      else pure (.ok blob.record)

/-- `read_slot` as every loop uses it: a slot without a record of this version is
passed over. -/
def loadSlot (slot : Slot) : LedgerM (Except EspErr (Option IdemRecord)) := do
  match ← readSlot slot with
  | .error .nvsNotFound => pure (.ok none)
  | .error .invalidVersion => pure (.ok none)
  | .error e => pure (.error e)
  | .ok record => pure (.ok (some record))

def writeSlot (slot : Slot) (record : IdemRecord) : LedgerM (Except EspErr Unit) := do
  match ← nvsSetBlob slot ⟨idemRecordSize, record⟩ with
  | .error e => pure (.error e)
  | .ok () => nvsCommit

def eraseSlot (slot : Slot) : LedgerM (Except EspErr Unit) := do
  match ← nvsEraseKey slot with
  | .error e => pure (.error e)
  | .ok () => nvsCommit

def lockStore : LedgerM (Except EspErr Unit) :=
  attempt (fun _ => .timeout) .lock fun s => (.ok (), s)

def allSlots : List Slot := List.finRange gatewayIdempotencyMaxRecords

section

variable (sha256 : List UInt8 → Digest)

def hashKey (key : CStr) : LedgerM (Except EspErr Digest) :=
  attempt (fun _ => .fail) .sha256 fun s => (.ok (sha256 key.bytes), s)

/-- The calls that take a key hold the mutex while they hash it and do their work. -/
def withKeyHash {α : Type} (key : CStr) (work : Digest → LedgerM (Except EspErr α)) :
    LedgerM (Except EspErr α) := do
  match ← lockStore with
  | .error e => pure (.error e)
  | .ok () => do
      match ← hashKey sha256 key with
      | .error e => pure (.error e)
      | .ok keyHash => work keyHash

/-- The variables of the scan in `gateway_idempotency_claim`. -/
structure ClaimScan where
  emptySlot : Option Slot
  oldestFinalizedSlot : Option Slot
  oldestSequence : UInt32
  maxSequence : UInt32

namespace ClaimScan

def start : ClaimScan := ⟨none, none, 0xFFFFFFFF, 0⟩

def visitEmpty (scan : ClaimScan) (slot : Slot) : ClaimScan :=
  if scan.emptySlot.isNone then { scan with emptySlot := some slot } else scan

def visitRecord (scan : ClaimScan) (slot : Slot) (record : IdemRecord) : ClaimScan :=
  let highest := if record.sequence > scan.maxSequence then record.sequence else scan.maxSequence
  if record.messageId ≠ 0 ∧ record.sequence < scan.oldestSequence then
    { scan with
      maxSequence := highest
      oldestSequence := record.sequence
      oldestFinalizedSlot := some slot }
  else { scan with maxSequence := highest }

/-- The slot of the reservation. -/
def chosen (scan : ClaimScan) : Option Slot :=
  match scan.emptySlot with
  | some slot => some slot
  | none => scan.oldestFinalizedSlot

end ClaimScan

/-- The scan: it ends at the record of the key, if there is one. -/
def claimLoop (keyHash : Digest) :
    List Slot → ClaimScan → LedgerM (Except EspErr (IdemRecord ⊕ ClaimScan))
  | [], scan => pure (.ok (.inr scan))
  | slot :: rest, scan => do
      match ← loadSlot slot with
      | .error e => pure (.error e)
      | .ok none => claimLoop keyHash rest (scan.visitEmpty slot)
      | .ok (some record) =>
          if equal32 record.keyHash keyHash then pure (.ok (.inl record))
          else claimLoop keyHash rest (scan.visitRecord slot record)

def reservation (scan : ClaimScan) (keyHash requestHash : Digest) : IdemRecord where
  magic := idemMagic
  version := idemVersion
  reserved := 0
  sequence := if scan.maxSequence = 0xFFFFFFFF then 1 else scan.maxSequence + 1
  messageId := 0
  keyHash := keyHash
  requestHash := requestHash

/-- The result and the message id of the record found. -/
def gatewayIdempotencyClaim (key : CStr) (requestHash : Digest) :
    LedgerM (Except EspErr (IdempotencyResult × UInt32)) :=
  withKeyHash sha256 key fun keyHash => do
    match ← claimLoop keyHash allSlots .start with
    | .error e => pure (.error e)
    | .ok (.inl record) =>
        let result := if equal32 record.requestHash requestHash then .replay else .conflict
        pure (.ok (result, record.messageId))
    | .ok (.inr scan) =>
        match scan.chosen with
        | none => pure (.error .noMem)
        | some chosen => do
            match ← writeSlot chosen (reservation scan keyHash requestHash) with
            | .error e => pure (.error e)
            | .ok () => pure (.ok (.miss, 0))

/-- Whether a slot holds the record of this key. -/
def holdsKey (keyHash : Digest) : Option IdemRecord → Bool
  | some record => equal32 record.keyHash keyHash
  | none => false

/-- The loop of `finalize` and `release_pending`: what is done at the first record
of the key. -/
def atRecord (keyHash : Digest) (work : Slot → IdemRecord → LedgerM (Except EspErr Unit)) :
    LedgerM (Except EspErr Unit) := do
  match ← firstSlot loadSlot (holdsKey keyHash) .notFound allSlots with
  | .error e => pure (.error e)
  | .ok (_, none) => pure (.error .notFound)
  | .ok (slot, some record) => work slot record

def gatewayIdempotencyFinalize (key : CStr) (requestHash : Digest) (messageId : UInt32) :
    LedgerM (Except EspErr Unit) :=
  if messageId = 0 then pure (.error .invalidArg)
  else withKeyHash sha256 key fun keyHash =>
    atRecord keyHash fun slot record =>
      if !equal32 record.requestHash requestHash then pure (.error .invalidState)
      else writeSlot slot { record with messageId := messageId }

def gatewayIdempotencyReleasePending (key : CStr) (requestHash : Digest) :
    LedgerM (Except EspErr Unit) :=
  withKeyHash sha256 key fun keyHash =>
    atRecord keyHash fun slot record =>
      if !equal32 record.requestHash requestHash || record.messageId != 0 then
        pure (.error .invalidState)
      else eraseSlot slot

end

/-- The loop of `gateway_idempotency_clear_pending`, with the count so far. -/
def clearLoop : List Slot → UInt32 → LedgerM (Except EspErr Unit × UInt32)
  | [], cleared => pure (.ok (), cleared)
  | slot :: rest, cleared => do
      match ← loadSlot slot with
      | .error e => pure (.error e, cleared)
      | .ok none => clearLoop rest cleared
      | .ok (some record) =>
          if record.messageId = 0 then do
            match ← nvsEraseKey slot with
            | .error e => pure (.error e, cleared)
            | .ok () => clearLoop rest (cleared + 1)
          else clearLoop rest cleared

def gatewayIdempotencyClearPending : LedgerM (Except EspErr Unit × UInt32) := do
  match ← lockStore with
  | .error e => pure (.error e, 0)
  | .ok () => do
      match ← clearLoop allSlots 0 with
      | (.error e, cleared) => pure (.error e, cleared)
      | (.ok (), cleared) =>
          if cleared > 0 then do
            let result ← nvsCommit
            pure (result, cleared)
          else pure (.ok (), cleared)

/-- The buffer that `gateway_idempotency_sms_fingerprint` hashes. -/
def fingerprintBytes (recipient text : CStr) (deliveryReport : Bool) : List UInt8 :=
  recipient.bytes ++ [0] ++ text.bytes ++ [0] ++ [if deliveryReport then 1 else 0]

end SmsGateway.Ledger
