import SmsGateway.Modem.Status

/-! The modem manager (`modem_manager.c`): its events, its polls and its queue. -/

namespace SmsGateway.Modem

/-- `modem_manager_state_t`. -/
inductive ManagerState where
  | stopped
  | waitTransport
  | initializing
  | simWait
  | networkWait
  | ready
  | degraded
  | recovery
  deriving DecidableEq, Repr

/-- `manager_event_t`. -/
inductive Event where
  | transportReady
  | transportLost
  | urc (line : CString 512)
  | simPin (pin : CString 9)
  | manualRestart
  deriving DecidableEq, Repr

/-- The values of `Kconfig`. -/
structure Config where
  pollReadyMs : Int
  pollWaitMs : Int
  failuresBeforeRecovery : UInt32
  hardResetAfterRecoveries : UInt32
  recoveryBackoffMs : Int
  deriving DecidableEq, Repr

/-- `manager_state_t`, without what is only reported: counters, identities and the
last error. -/
structure Manager where
  state : ManagerState
  transportReady : Bool
  initialized : Bool
  sim : SimState
  circuitRegistration : Registration
  packetRegistration : Registration
  epsRegistration : Registration
  registered : Bool
  roaming : Bool
  signal : Signal
  operatorInfo : Operator
  consecutiveFailures : UInt32
  recoveriesSinceHardReset : UInt32
  successfulPollCycles : UInt32
  reinitializePending : Bool
  nextPollMs : Int
  nextOperatorPollMs : Int
  deriving DecidableEq, Repr

/-- What one handler is answered: the first reading of the clock and the later ones,
the lines of a command that ended with OK, and whether the hard reset worked. No
handler sends one command twice. -/
structure Answers where
  now : Int
  later : Int
  execute : CStr → Option (List CStr)
  hardReset : Bool

def modemManagerInit : Manager where
  state := .waitTransport
  transportReady := false
  initialized := false
  sim := .unknown
  circuitRegistration := ⟨.unknown, -1⟩
  packetRegistration := ⟨.unknown, -1⟩
  epsRegistration := ⟨.unknown, -1⟩
  registered := false
  roaming := false
  signal := ⟨99, int16Min, 99⟩
  operatorInfo := ⟨-1, -1, .zero, -1⟩
  consecutiveFailures := 0
  recoveriesSinceHardReset := 0
  successfulPollCycles := 0
  reinitializePending := false
  nextPollMs := 0
  nextOperatorPollMs := 0

/-- The lines of the response, or `none` when the command failed. -/
def executeCommand (m : Manager) (a : Answers) (command : String) :
    Option (List CStr) × Manager :=
  match a.execute (.text command) with
  | some lines => (some lines, { m with consecutiveFailures := 0 })
  | none => (none, { m with consecutiveFailures := m.consecutiveFailures + 1 })

def executeOptional (m : Manager) (a : Answers) (command : String) :
    Option (List CStr) × Manager :=
  match executeCommand m a command with
  | (some lines, m) => (some lines, m)
  | (none, failed) => (none, { failed with consecutiveFailures := m.consecutiveFailures })

def responseParseSim (m : Manager) (lines : List CStr) : Bool × Manager :=
  match lines.findSome? modemStatusParseCpin with
  | some sim => (true, { m with sim := sim })
  | none => (false, m)

def responseParseSignal (m : Manager) (lines : List CStr) : Bool × Manager :=
  match lines.findSome? modemStatusParseCsq with
  | some signal => (true, { m with signal := signal })
  | none => (false, m)

def responseParseOperator (m : Manager) (lines : List CStr) : Bool × Manager :=
  match lines.findSome? modemStatusParseOperator with
  | some operatorInfo => (true, { m with operatorInfo := operatorInfo })
  | none => (false, m)

def recomputeRegistration (m : Manager) : Manager :=
  let statuses :=
    [m.epsRegistration.status, m.packetRegistration.status, m.circuitRegistration.status]
  match statuses.find? modemRegistrationIsRegistered with
  | some status => { m with registered := true, roaming := modemRegistrationIsRoaming status }
  | none => { m with registered := false, roaming := false }

def querySim (m : Manager) (a : Answers) : Bool × Manager :=
  match executeCommand m a "AT+CPIN?" with
  | (some lines, m) => responseParseSim m lines
  | (none, m) => (false, m)

def querySignal (m : Manager) (a : Answers) : Bool × Manager :=
  match executeCommand m a "AT+CSQ" with
  | (some lines, m) => responseParseSignal m lines
  | (none, m) => (false, m)

/-- The three domains a registration is kept for. -/
inductive Domain where
  | circuit
  | packet
  | eps
  deriving DecidableEq, Repr

def Domain.start : Domain → String
  | .circuit => "+CREG:"
  | .packet => "+CGREG:"
  | .eps => "+CEREG:"

/-- `*target = registration`. -/
def Manager.register (m : Manager) (registration : Registration) : Domain → Manager
  | .circuit => { m with circuitRegistration := registration }
  | .packet => { m with packetRegistration := registration }
  | .eps => { m with epsRegistration := registration }

def queryRegistrationOne (m : Manager) (a : Answers) (command : String) (target : Domain)
    (optional : Bool) : Bool × Manager :=
  match (if optional then executeOptional m a command else executeCommand m a command) with
  | (none, m) => (false, m)
  | (some lines, m) =>
      match lines.findSome? (modemStatusParseRegistration · (.text target.start)) with
      | some registration => (true, m.register registration target)
      | none => (false, m)

def queryRegistration (m : Manager) (a : Answers) : Bool × Manager :=
  let (circuit, m) := queryRegistrationOne m a "AT+CREG?" .circuit false
  let (packet, m) := queryRegistrationOne m a "AT+CGREG?" .packet true
  let (eps, m) := queryRegistrationOne m a "AT+CEREG?" .eps true
  (circuit || packet || eps, recomputeRegistration m)

def queryOperator (m : Manager) (a : Answers) : Bool × Manager :=
  match executeOptional m a "AT+COPS?" with
  | (some lines, m) => responseParseOperator m lines
  | (none, m) => (false, m)

/-- A command whose result is not used. -/
def ignored (m : Manager) (a : Answers) (command : String) : Manager :=
  (executeOptional m a command).2

def configureRegistrationUrc (m : Manager) (a : Answers) (extended basic : String) : Manager :=
  match executeOptional m a extended with
  | (some _, m) => m
  | (none, m) => ignored m a basic

/-- The part of `initialize_session` behind the SIM query. -/
def initializeNetwork (config : Config) (m : Manager) (a : Answers) : Manager :=
  let m := configureRegistrationUrc m a "AT+CREG=2" "AT+CREG=1"
  let m := configureRegistrationUrc m a "AT+CGREG=2" "AT+CGREG=1"
  let m := configureRegistrationUrc m a "AT+CEREG=2" "AT+CEREG=1"
  let m := { m with initialized := true }
  if m.sim ≠ .ready then
    { m with state := .simWait, nextPollMs := a.later + config.pollWaitMs }
  else
    let m := (queryRegistration m a).2
    let m := (querySignal m a).2
    let m := (queryOperator m a).2
    let m := recomputeRegistration { m with nextOperatorPollMs := a.later + 300000 }
    { m with
      state := if m.registered then .ready else .networkWait
      nextPollMs := a.later + if m.registered then config.pollReadyMs else config.pollWaitMs }

def initializeSession (config : Config) (m : Manager) (a : Answers) : Bool × Manager :=
  let m := { m with state := .initializing, initialized := false }
  match executeCommand m a "ATE0" with
  | (none, m) => (false, m)
  | (some _, m) =>
      match executeCommand m a "AT+CMEE=2" with
      | (none, m) => (false, m)
      | (some _, m) =>
          let m := ignored m a "AT^CURC=0"
          let m := ignored m a "AT^PORTSEL=1"
          let m := ignored m a "AT+CGMI"
          let m := ignored m a "AT+CGMM"
          let m := ignored m a "AT+CGMR"
          let m := ignored m a "AT+CGSN"
          match querySim m a with
          | (false, m) => (false, m)
          | (true, m) => (true, initializeNetwork config m a)

def updateStateAfterPoll (m : Manager) : Manager :=
  { m with state :=
      if m.sim ≠ .ready then .simWait else if m.registered then .ready else .networkWait }

def pollStatus (m : Manager) (a : Answers) : Bool × Manager :=
  if m.sim ≠ .ready then
    let (ok, m) := querySim m a
    let m := if ok ∧ m.sim = .ready then { m with reinitializePending := true } else m
    (ok, updateStateAfterPoll m)
  else
    let (regOk, m) := queryRegistration m a
    let (signalOk, m) := querySignal m a
    let m :=
      if a.later ≥ m.nextOperatorPollMs then
        { (queryOperator m a).2 with nextOperatorPollMs := a.later + 300000 }
      else m
    (regOk && signalOk, updateStateAfterPoll m)

/-- What a status line says. -/
inductive StatusLine where
  | sim (sim : SimState)
  | signal (signal : Signal)
  | registration (target : Domain) (registration : Registration)
  deriving DecidableEq, Repr

/-- The parsers in the order in which `handle_urc_line` tries them. -/
def statusLine (line : CStr) : Option StatusLine :=
  match modemStatusParseCpin line with
  | some sim => some (.sim sim)
  | none =>
    match modemStatusParseCsq line with
    | some signal => some (.signal signal)
    | none =>
      match modemStatusParseRegistration line (.text Domain.circuit.start) with
      | some registration => some (.registration .circuit registration)
      | none =>
        match modemStatusParseRegistration line (.text Domain.packet.start) with
        | some registration => some (.registration .packet registration)
        | none =>
          match modemStatusParseRegistration line (.text Domain.eps.start) with
          | some registration => some (.registration .eps registration)
          | none => none

/-- The value of the line, put into the snapshot. -/
def Manager.put (m : Manager) : StatusLine → Manager
  | .sim sim => { m with sim := sim }
  | .signal signal => { m with signal := signal }
  | .registration target registration => m.register registration target

/-- What is due after the line. -/
def Manager.schedule (m : Manager) (now : Int) : StatusLine → Manager
  | .sim sim =>
      if sim = .ready then { m with reinitializePending := true, nextPollMs := now } else m
  | .signal _ => m
  | .registration _ _ => { m with nextOperatorPollMs := 0, nextPollMs := now }

def handleUrcLine (m : Manager) (line : CStr) (now : Int) : Manager :=
  match statusLine line with
  | none => m
  | some status =>
      updateStateAfterPoll (recomputeRegistration ((m.put status).schedule now status))

def scheduleRecovery (config : Config) (m : Manager) (a : Answers) : Manager :=
  let (action, rounds) := modemRecoveryPolicyNext m.consecutiveFailures
    config.failuresBeforeRecovery config.hardResetAfterRecoveries m.recoveriesSinceHardReset
  let m := { m with recoveriesSinceHardReset := rounds }
  match action with
  | .none => m
  | .reinit =>
      { m with state := .recovery, reinitializePending := true, consecutiveFailures := 0 }
  | .functionalReset =>
      { ignored { m with state := .recovery } a "AT+CFUN=1,1" with
        initialized := false
        consecutiveFailures := 0
        reinitializePending := true
        nextPollMs := a.later + config.recoveryBackoffMs }
  | .hardReset =>
      let m := { m with state := .recovery, successfulPollCycles := 0, reinitializePending := false }
      if a.hardReset then
        { m with
          initialized := false
          transportReady := false
          consecutiveFailures := 0
          state := .waitTransport }
      else { m with state := .degraded }

def handleManualRestart (config : Config) (m : Manager) (a : Answers) : Manager :=
  if !m.transportReady then m
  else
    let m := { m with state := .recovery }
    if a.hardReset then
      { m with transportReady := false, initialized := false, state := .waitTransport }
    else
      let (reset, m) := executeOptional m a "AT+CFUN=1,1"
      let m := { m with
        initialized := false
        consecutiveFailures := 0
        reinitializePending := true
        nextPollMs := a.later + config.recoveryBackoffMs }
      if reset.isNone then { m with state := .degraded } else m

/-- The digits of a PIN fit the command. -/
def handleSimPin (m : Manager) (pin : CString 9) (a : Answers) : Manager :=
  if !m.transportReady ∨ m.sim ≠ .pinRequired then m
  else
    let command := CStr.text "AT+CPIN=\"" ++ pin.str ++ .text "\""
    match a.execute command with
    | some _ =>
        { m with consecutiveFailures := 0, reinitializePending := true, nextPollMs := a.now + 1000 }
    | none => m

def handleTransportReady (m : Manager) (now : Int) : Manager :=
  { m with
    transportReady := true
    initialized := false
    consecutiveFailures := 0
    reinitializePending := true
    nextPollMs := now
    state := .initializing }

def handleTransportLost (m : Manager) : Manager :=
  { m with
    transportReady := false
    initialized := false
    registered := false
    roaming := false
    sim := .unknown
    circuitRegistration := { m.circuitRegistration with status := .unknown }
    packetRegistration := { m.packetRegistration with status := .unknown }
    epsRegistration := { m.epsRegistration with status := .unknown }
    reinitializePending := false
    state := .waitTransport }

/-- The switch of `manager_task`. -/
def handleEvent (config : Config) (m : Manager) (a : Answers) : Event → Manager
  | .transportReady => handleTransportReady m a.now
  | .transportLost => handleTransportLost m
  | .urc line => handleUrcLine m line.str a.now
  | .simPin pin => handleSimPin m pin a
  | .manualRestart => handleManualRestart config m a

/-- What `manager_task` does behind the switch. -/
def managerPoll (config : Config) (m : Manager) (a : Answers) : Manager :=
  if !m.transportReady then m
  else if m.reinitializePending ∧ a.now ≥ m.nextPollMs then
    match initializeSession config { m with reinitializePending := false } a with
    | (true, m) => m
    | (false, m) =>
        { scheduleRecovery config m a with nextPollMs := a.later + config.recoveryBackoffMs }
  else if a.later ≥ m.nextPollMs then
    let (ok, m) := pollStatus m a
    let registered := m.registered
    let m :=
      if !ok then scheduleRecovery config { m with successfulPollCycles := 0 } a
      else
        let m := { m with successfulPollCycles := m.successfulPollCycles + 1 }
        if m.successfulPollCycles ≥ 3 then
          { m with recoveriesSinceHardReset := 0, successfulPollCycles := 3 }
        else m
    { m with
      nextPollMs := a.later + if registered then config.pollReadyMs else config.pollWaitMs }
  else m

/-- One iteration of `manager_task`: the event at the front of the queue, if there is
one, and what is due behind it. -/
def managerTask (config : Config) (m : Manager) (queue : List Event) (a b : Answers) :
    Manager × List Event :=
  match queue with
  | [] => (managerPoll config m b, [])
  | event :: rest => (managerPoll config (handleEvent config m a event) b, rest)

/-! The queue of the manager. -/

def managerQueueDepth : Nat := 16

/-- The calls that post to the queue. -/
inductive Post where
  | notifyTransportReady
  | notifyTransportLost
  | handleUrc (line : CStr)
  | requestRestart
  | submitSimPin (pin : CStr)
  deriving DecidableEq, Repr

/-- `xQueueSend`; an event for which there is no room is dropped. -/
def queueSend (queue : List Event) (event : Event) : List Event :=
  if queue.length < managerQueueDepth then queue ++ [event] else queue

def modemManagerSubmitSimPin (queue : List Event) (pin : CStr) : List Event :=
  if fits : pin.length < 9 then
    if pin.bytes.all isDigit ∧ 4 ≤ pin.length then queueSend queue (.simPin ⟨pin, fits⟩) else queue
  else queue

def post (queue : List Event) : Post → List Event
  | .notifyTransportReady => queueSend queue .transportReady
  | .notifyTransportLost =>
      -- A full queue is emptied for it.
      if queue.length < managerQueueDepth then .transportLost :: queue else [.transportLost]
  | .handleUrc line =>
      if fits : line.length < 512 then queueSend queue (.urc ⟨line, fits⟩) else queue
  | .requestRestart => queueSend queue .manualRestart
  | .submitSimPin pin => modemManagerSubmitSimPin queue pin

end SmsGateway.Modem
