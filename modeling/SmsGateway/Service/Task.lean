import SmsGateway.Lib.History
import SmsGateway.Service.Gateway
import SmsGateway.Service.Scan

/-! The task of the SMS service (`service_task`): events, the setup of the modem and
the outbound queue, pass by pass. -/

namespace SmsGateway

open Lib Prog

/-- `service_event_t`. -/
inductive ServiceEvent where
  | modemReady
  | modemLost
  | urc (line : CStr)
  | wake
  deriving DecidableEq, Repr

/-- `direct_urc_pending_t`. -/
inductive DirectUrcPending where
  | none
  | deliver
  | statusReport
  deriving DecidableEq, Repr

/-- The variables of the task, and its diagnostics of the setup. -/
structure TaskState where
  directPending : DirectUrcPending
  modemReady : Bool
  pduModeConfigured : Bool
  setupAttempts : UInt32
  /-- `setup_failed_command`, `setup_failed_result` and `setup_failed_code`. -/
  setupFailed : Option (CStr × AtResult × Int)
  lastSetup : UInt32
  lastPoll : UInt32
  deriving DecidableEq, Repr

def TaskState.initial : TaskState := ⟨.none, false, false, 0, none, 0, 0⟩

inductive TaskCall where
  /-- `xQueueReceive`, for at most two seconds. -/
  | receive
  | tickCount
  /-- `transport.execute` of a setup command, and of `AT+CMGR=<index>`. -/
  | setup (command : CStr)
  | read (index : Int)
  | service (request : ServiceCall)

@[reducible] def TaskCall.Reply : TaskCall → Type
  | .receive => Option ServiceEvent
  | .tickCount => UInt32
  | .setup _ | .read _ => Except EspErr AtResponse
  | .service request => request.Reply

abbrev TaskM := Prog TaskCall TaskCall.Reply

def TaskM.ask (request : TaskCall) : TaskM request.Reply := Prog.send request

open TaskM (ask)

/-- A part of the service inside the task, which knows `pdu_mode_configured`. -/
def inTask {α : Type} (configured : Bool) : ServiceM α → TaskM α
  | .done value => .done value
  | .call .pduModeConfigured next => inTask configured (next configured)
  | .call request next => .call (.service request) fun reply => inTask configured (next reply)

/-! URCs. -/

/-- `parse_index_urc`: the number behind the last comma, 0 when only blanks stand there. -/
def parseIndexUrc (line start : CStr) : Option Int :=
  if !line.startsWith start ∨ 0x2C ∉ line.bytes then none
  else
    let text := (line.bytes.reverse.takeWhile (· ≠ 0x2C)).reverse
    -- Without a number `strtol` leaves `end` at the text, and the blanks are skipped from there.
    let (value, rest) := (At.strtol text).getD (0, text)
    let behind := rest.dropWhile isSpace
    if behind.length = text.length ∨ behind ≠ [] ∨ value < 0 ∨ value > 65535 then none
    else some value

def readModemIndex (configured : Bool) (index : Int) : TaskM Unit := do
  let ready ← ask (.service .isReady)
  if !ready then pure ()
  else
    let result ← ask (.read index)
    match result with
    | .error _ => pure ()
    | .ok response =>
        if response.result ≠ .ok then pure ()
        else
          match response.lines.find? isHexPduLine with
          | none => pure ()
          | some line => do
              let _ ← inTask configured (processAnyPdu line index)
              pure ()

/-- A PDU that came with its URC. -/
def processDirect (pending : DirectUrcPending) (line : CStr) : ServiceM Unit := do
  match pending with
  | .deliver => do
      let _ ← processDeliverPdu line (-1)
      pure ()
  | _ => do
      let _ ← processStatusReportPdu line
      pure ()

def handleUrcLine (line : CStr) (s : TaskState) : TaskM TaskState :=
  if s.directPending ≠ .none then
    let taken := { s with directPending := .none }
    if isHexPduLine line then do
      inTask s.pduModeConfigured (processDirect s.directPending line)
      pure taken
    else pure taken
  else if line.startsWith (.text "+CMT:") then pure { s with directPending := .deliver }
  else if line.startsWith (.text "+CDS:") then pure { s with directPending := .statusReport }
  else
    match (parseIndexUrc line (.text "+CMTI:")).or (parseIndexUrc line (.text "+CDSI:")) with
    | none => pure s
    | some index => do
        readModemIndex s.pduModeConfigured index
        pure s

/-! The setup of the modem. -/

def setupCommand (command : CStr) (s : TaskState) : TaskM (Bool × TaskState) := do
  let ready ← ask (.service .isReady)
  -- The response is zeroed, so a command that was not executed leaves the code of OK.
  if !ready then pure (false, { s with setupFailed := some (command, .ok, 0) })
  else
    let result ← ask (.setup command)
    match result with
    | .error _ => pure (false, { s with setupFailed := some (command, .ok, 0) })
    | .ok response =>
        if response.result = .ok then pure (true, s)
        else pure (false, { s with setupFailed := some (command, response.result, response.errorCode) })

def pduModeCommand : CStr := .text "AT+CMGF=0"

def indicationCommands : List CStr :=
  ["AT+CNMI=2,1,0,2,0", "AT+CNMI=2,1,0,1,0", "AT+CNMI=1,1,0,1,0", "AT+CNMI=2,1,0,0,0",
    "AT+CNMI=1,1,0,0,0"].map CStr.text

/-- The indications that are left. -/
def setupIndications : List CStr → TaskState → TaskM (Bool × TaskState)
  | [], s => pure (false, s)
  | command :: rest, s => do
      let (accepted, s) ← setupCommand command s
      if accepted then pure (true, s) else setupIndications rest s

def configurePduMode (s : TaskState) : TaskM TaskState := do
  let (accepted, s) ← setupCommand pduModeCommand { s with setupAttempts := s.setupAttempts + 1 }
  if !accepted then pure s
  else
    let (indications, s) ← setupIndications indicationCommands s
    if !indications then pure s
    else
      let s := { s with pduModeConfigured := true, setupFailed := none }
      inTask s.pduModeConfigured scanStoredMessages
      pure s

section

variable (hz : UInt32)

def pdMsToTicks (ms : UInt32) : UInt32 := ms * hz / 1000

def pollInboxIfDue (s : TaskState) : TaskM TaskState := do
  let now ← ask .tickCount
  if !s.pduModeConfigured then pure s
  else
    let ready ← ask (.service .isReady)
    if !ready ∨ now - s.lastPoll < pdMsToTicks hz 60000 then pure s
    else
      inTask s.pduModeConfigured scanStoredMessages
      pure { s with lastPoll := now }

def retryPduModeIfNeeded (s : TaskState) : TaskM TaskState :=
  if s.pduModeConfigured then pure s
  else do
    let ready ← ask (.service .isReady)
    if !ready then pure s
    else
      let now ← ask .tickCount
      if s.lastSetup ≠ 0 ∧ now - s.lastSetup < pdMsToTicks hz 30000 then pure s
      else configurePduMode { s with lastSetup := now, modemReady := true }

def handleEvent (s : TaskState) : Option ServiceEvent → TaskM TaskState
  | some .modemReady => do
      let now ← ask .tickCount
      configurePduMode { s with
        modemReady := true, pduModeConfigured := false, lastSetup := now, lastPoll := now }
  | some .modemLost =>
      pure { s with directPending := .none, modemReady := false, pduModeConfigured := false }
  | some (.urc line) => handleUrcLine line s
  | some .wake | none => pure s

/-- One pass of the loop. -/
def servicePass (s : TaskState) : TaskM TaskState := do
  let event ← ask .receive
  let s ← handleEvent s event
  let s ← retryPduModeIfNeeded hz s
  inTask s.pduModeConfigured processOneOutbound
  pollInboxIfDue hz s

def servicePasses : Nat → TaskState → TaskM TaskState
  | 0, s => pure s
  | passes + 1, s => do
      let s ← servicePass hz s
      servicePasses passes s

/-- `service_task`, stopped after this many passes. -/
def serviceTask (passes : Nat) : TaskM TaskState := do
  inTask false restartProgram
  let now ← ask .tickCount
  servicePasses hz passes { TaskState.initial with lastPoll := now }

end

end SmsGateway
