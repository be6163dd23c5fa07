import SmsGateway.Codec.Deliver
import SmsGateway.Codec.Submit
import SmsGateway.Lib.Program
import SmsGateway.Store.Numbering

/-! What the SMS service calls: the store, the modem transport, the allocator and
the event callback. -/

namespace SmsGateway

open Lib

/-- `sms_service_event_t`. -/
inductive SmsServiceEvent where
  | received
  | partialReceived
  | sent
  | delivered
  | failed
  | unsupportedReceived
  | uncertain
  deriving DecidableEq, Repr

/-- The fields of `at_response_t` that the service reads. -/
structure AtResponse where
  result : AtResult
  errorCode : Int
  lines : List CStr
  deriving DecidableEq, Repr

/-- `AT+CMGL=4`, `AT+CMGD=<index>,0` and `AT+CMGS=<length>`. -/
inductive AtCommand where
  | cmgl
  | cmgd (index : Int)
  | cmgs (tpduLengthOctets : Nat)
  deriving DecidableEq, Repr

/-- The fields of `at_request_t` that differ between requests. `origin` names the
record and segment whose payload the request carries; the source has no such
field. -/
structure AtRequest where
  command : AtCommand
  promptPayload : Option (List UInt8)
  origin : Option (UInt32 × Nat)
  deriving DecidableEq, Repr

/-- The store calls that look for one record. -/
inductive StoreQuery where
  | get (id : UInt32)
  | findStatus (status : SmsMessageStatus)
  | findPartial (sender : CStr) (reference : UInt16) (totalParts partNumber : UInt8)
  | findInboundIdentity (sender timestamp : CStr) (encoding : SmsEncoding) (text : CStr)
  | findInboundRawPdu (pdu : CStr)

def StoreQuery.run : StoreQuery → StoreM (Except EspErr SmsMessage)
  | .get id => smsStoreGet id
  | .findStatus status => smsStoreFindStatus status
  | .findPartial sender reference totalParts partNumber =>
      smsStoreFindPartial sender reference totalParts partNumber
  | .findInboundIdentity sender timestamp encoding text =>
      smsStoreFindInboundIdentity sender timestamp encoding text
  | .findInboundRawPdu pdu => smsStoreFindInboundRawPdu pdu

inductive ServiceCall where
  | isReady
  | pduModeConfigured
  | alloc
  | espRandom
  | execute (request : AtRequest)
  | query (wanted : StoreQuery)
  | findOutboundReference (recipient : CStr) (reference : UInt8)
  | list (afterId : UInt32) (maxRecords : Nat)
  | save (message : SmsMessage)
  | delete (id : UInt32)
  | emit (event : SmsServiceEvent) (message : SmsMessage)

/-- What a call returns; an allocation answers whether it succeeded. -/
@[reducible] def ServiceCall.Reply : ServiceCall → Type
  | .isReady | .pduModeConfigured | .alloc => Bool
  | .espRandom => UInt32
  | .execute _ => Except EspErr AtResponse
  | .query _ => Except EspErr SmsMessage
  | .findOutboundReference _ _ => Except EspErr (SmsMessage × Nat)
  | .list _ _ => Except EspErr (List SmsMessage)
  | .save _ => Except EspErr Unit × SmsMessage
  | .delete _ => Except EspErr Unit
  | .emit _ _ => Unit

abbrev ServiceM := Prog ServiceCall ServiceCall.Reply

def modemReady : ServiceM Bool := Prog.send ServiceCall.isReady

def pduModeConfigured : ServiceM Bool := Prog.send ServiceCall.pduModeConfigured

/-- `calloc` or `malloc`: whether it returned memory. -/
def allocate : ServiceM Bool := Prog.send ServiceCall.alloc

def espRandom : ServiceM UInt32 := Prog.send ServiceCall.espRandom

def transportExecute (request : AtRequest) : ServiceM (Except EspErr AtResponse) :=
  Prog.send (ServiceCall.execute request)

def storeFind (wanted : StoreQuery) : ServiceM (Except EspErr SmsMessage) :=
  Prog.send (ServiceCall.query wanted)

def storeFindOutboundReference (recipient : CStr) (reference : UInt8) :
    ServiceM (Except EspErr (SmsMessage × Nat)) :=
  Prog.send (ServiceCall.findOutboundReference recipient reference)

def storeList (afterId : UInt32) (maxRecords : Nat) : ServiceM (Except EspErr (List SmsMessage)) :=
  Prog.send (ServiceCall.list afterId maxRecords)

def storeSave (message : SmsMessage) : ServiceM (Except EspErr Unit × SmsMessage) :=
  Prog.send (ServiceCall.save message)

def storeDelete (id : UInt32) : ServiceM (Except EspErr Unit) :=
  Prog.send (ServiceCall.delete id)

def emitEvent (event : SmsServiceEvent) (message : SmsMessage) : ServiceM Unit :=
  Prog.send (ServiceCall.emit event message)

/-- The journal, how many ids it has given out, and the events emitted so far,
the newest first. -/
structure World where
  store : Store
  issued : Nat
  events : List (SmsServiceEvent × SmsMessage)

/-- The world once the journal is `t`. -/
def World.withStore (w : World) (t : Store) : World :=
  { w with store := t, issued := w.issued + Store.allocations w.store t }

/-- The world after an event. -/
def World.emit (w : World) (event : SmsServiceEvent) (message : SmsMessage) : World :=
  { w with events := (event, message) :: w.events }

/-- A store call on this journal, under some pattern of refused flash calls. -/
def World.Performs {α : Type} (w : World) (op : StoreM α) (reply : α) (after : World) : Prop :=
  ∃ plan, (op (plan, w.store)).1 = reply ∧ after = w.withStore (op (plan, w.store)).2.2

/-- What the surroundings may answer: any flash call may be refused, any
allocation may fail and the modem may do anything. -/
def ServiceCall.Answers (w : World) :
    (request : ServiceCall) → request.Reply → World → Prop
  | .isReady, _, t | .pduModeConfigured, _, t | .alloc, _, t | .espRandom, _, t
  | .execute _, _, t => t = w
  | .query wanted, reply, t => w.Performs wanted.run reply t
  | .findOutboundReference recipient reference, reply, t =>
      w.Performs (smsStoreFindOutboundReference recipient reference) reply t
  | .list afterId maxRecords, reply, t => w.Performs (smsStoreList afterId maxRecords) reply t
  | .save message, reply, t => w.Performs (smsStoreSave message) reply t
  | .delete id, reply, t => w.Performs (smsStoreDelete id) reply t
  | .emit event message, _, t => t = w.emit event message

/-- Surroundings that refuse nothing: memory, the flash and a modem that confirms
every command. -/
def ServiceCall.handle : (request : ServiceCall) → World → request.Reply × World
  | .isReady, w | .pduModeConfigured, w | .alloc, w => (true, w)
  | .espRandom, w => (0, w)
  | .execute _, w => (.ok ⟨.ok, 0, []⟩, w)
  | .query wanted, w =>
      ((wanted.run (Plan.faultless, w.store)).1,
        w.withStore (wanted.run (Plan.faultless, w.store)).2.2)
  | .findOutboundReference recipient reference, w =>
      ((smsStoreFindOutboundReference recipient reference (Plan.faultless, w.store)).1,
        w.withStore (smsStoreFindOutboundReference recipient reference
          (Plan.faultless, w.store)).2.2)
  | .list afterId maxRecords, w =>
      ((smsStoreList afterId maxRecords (Plan.faultless, w.store)).1,
        w.withStore (smsStoreList afterId maxRecords (Plan.faultless, w.store)).2.2)
  | .save message, w =>
      ((smsStoreSave message (Plan.faultless, w.store)).1,
        w.withStore (smsStoreSave message (Plan.faultless, w.store)).2.2)
  | .delete id, w =>
      ((smsStoreDelete id (Plan.faultless, w.store)).1,
        w.withStore (smsStoreDelete id (Plan.faultless, w.store)).2.2)
  | .emit event message, w => ((), w.emit event message)

theorem ServiceCall.handle_answers (request : ServiceCall) (w : World) :
    request.Answers w (request.handle w).1 (request.handle w).2 := by
  cases request <;> first
    | exact rfl
    | exact ⟨Plan.faultless, rfl, rfl⟩

/-- `execute`: a request reaches the transport only while the modem is ready. -/
def execute (request : AtRequest) : ServiceM (Except EspErr AtResponse) := do
  if ← modemReady then transportExecute request else pure (.error .invalidState)

/-- `execute_simple` of a command without a prompt. -/
def executeSimple (command : AtCommand) : ServiceM Bool := do
  match ← execute ⟨command, none, none⟩ with
  | .error _ => pure false
  | .ok response => pure (response.result == .ok)

def deleteModemIndex (index : Int) : ServiceM (Except EspErr Unit) := do
  let deleted ← executeSimple (.cmgd index)
  pure (if deleted then .ok () else .error .fail)

end SmsGateway
