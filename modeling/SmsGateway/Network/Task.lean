import SmsGateway.Base

/-! The network task of `network_service.c`.

Every handler runs on the one task; the driver, the clock and the setup portal answer
through `Answers`. -/

namespace SmsGateway.Network

/-- `network_portal_reason_t`. -/
inductive PortalReason where
  | closed
  | firstSetup
  | fallback
  | manual
  deriving DecidableEq, Repr

/-- `network_setup_state_t`. -/
inductive SetupState where
  | idle
  | connecting
  | connected
  | failed
  deriving DecidableEq, Repr

/-- `esp_err_t`, as far as the task tells errors apart. -/
inductive EspErr where
  | ok
  | wifiState
  | fail
  deriving DecidableEq, Repr

def reconnectMinMs : Nat := 1000
def reconnectMaxMs : Nat := 30000
def reconnectWithPortalMs : Nat := 30000
def setupConnectAttempts : UInt32 := 3
def setupConnectTimeoutMs : Int := 30000
def setupRestartDelayMs : Int := 10000

/-- `WIFI_REASON_ASSOC_LEAVE`. -/
def wifiReasonAssocLeave : Int := 8

/-- `CONFIG_GATEWAY_WIFI_PORTAL_FALLBACK_SECONDS` and
`CONFIG_GATEWAY_WIFI_MANUAL_PORTAL_SECONDS`. -/
structure Config where
  portalFallbackSeconds : Int
  manualPortalSeconds : Int
  deriving DecidableEq, Repr

/-- The fields of `s_snapshot` that the task uses, and the variables it owns. -/
structure State where
  provisioned : Bool
  provisioning : Bool
  connected : Bool
  portalReason : PortalReason
  setupState : SetupState
  reconnects : UInt32
  disconnects : UInt32
  lastDisconnectReason : Int
  ipv4 : CString 16
  staSsid : CString 33
  reconnectDelayMs : Nat
  nextConnectMs : Int
  offlineSinceMs : Int
  portalOpenedMs : Int
  setupDeadlineMs : Int
  restartAtMs : Int
  setupFailures : UInt32
  staConnecting : Bool
  deriving DecidableEq, Repr

/-- What one handler is answered. `later` is every reading of the clock behind the
first one. -/
structure Answers where
  now : Int
  later : Int
  positive : 0 ≤ now
  monotone : now ≤ later
  connect : EspErr
  setConfig : Nat → EspErr
  portal : EspErr
  savedSsid : CString 33

/-- `net_cmd_t`. -/
inductive Command where
  | staStart
  | disconnected (reason : Int)
  | gotIp (ip : CString 16)
  | openPortal (reason : PortalReason)
  | setupSubmitted (ssid : CString 33)
  | tick
  deriving DecidableEq, Repr

/-- The state behind `network_service_init`. -/
def networkServiceInit (provisioned : Bool) (ssid : CString 33) (now : Int) : State where
  provisioned := provisioned
  provisioning := false
  connected := false
  portalReason := .closed
  setupState := .idle
  reconnects := 0
  disconnects := 0
  lastDisconnectReason := 0
  ipv4 := .zero
  staSsid := ssid
  reconnectDelayMs := reconnectMinMs
  nextConnectMs := 0
  offlineSinceMs := now
  portalOpenedMs := 0
  setupDeadlineMs := 0
  restartAtMs := 0
  setupFailures := 0
  staConnecting := false

def staConnectNow (s : State) (err : EspErr) : State :=
  let s := { s with nextConnectMs := 0, staConnecting := true }
  if err ≠ .ok then { s with staConnecting := false } else s

def scheduleReconnect (s : State) (now : Int) : State :=
  let delay := s.reconnectDelayMs
  let delay :=
    if s.provisioning ∧ delay < reconnectWithPortalMs then reconnectWithPortalMs else delay
  let s := { s with reconnects := s.reconnects + 1, nextConnectMs := now + delay }
  if s.reconnectDelayMs < reconnectMaxMs then
    let doubled := s.reconnectDelayMs * 2
    { s with reconnectDelayMs := if doubled > reconnectMaxMs then reconnectMaxMs else doubled }
  else s

/-- `portal` is the result of everything that opening the access point needs. -/
def openPortal (s : State) (reason : PortalReason) (portal : EspErr) (now : Int) :
    EspErr × State :=
  if s.provisioning then
    (.ok, { s with
      portalReason := if reason = .manual then reason else s.portalReason
      portalOpenedMs := now })
  else if portal ≠ .ok then (portal, s)
  else (.ok, { s with provisioning := true, portalReason := reason, portalOpenedMs := now })

def closePortal (s : State) : State :=
  if !s.provisioning then s else { s with provisioning := false, portalReason := .closed }

def handleDisconnected (s : State) (reason : Int) (a : Answers) : State :=
  let wasConnected := s.connected
  let s := { s with
    staConnecting := false
    connected := false
    ipv4 := .zero
    disconnects := s.disconnects + 1
    lastDisconnectReason := reason }
  let s :=
    if wasConnected then { s with offlineSinceMs := a.now, reconnectDelayMs := reconnectMinMs }
    else s
  if s.setupState = .connecting then
    -- Its own disconnect from the previous network.
    if reason = wifiReasonAssocLeave then s
    else
      let s := { s with setupFailures := s.setupFailures + 1 }
      if s.setupFailures ≥ setupConnectAttempts then
        scheduleReconnect { s with setupState := .failed } a.later
      else { s with nextConnectMs := a.later + 2000 }
  else if s.setupState = .connected then s
  else if s.provisioned then scheduleReconnect s a.later
  else s

def handleGotIp (s : State) (ip : CString 16) (savedSsid : CString 33) (now : Int) : State :=
  let s := { s with
    staConnecting := false
    nextConnectMs := 0
    reconnectDelayMs := reconnectMinMs
    connected := true
    provisioned := true
    ipv4 := ip
    staSsid := savedSsid
    setupState := if s.setupState = .failed then .idle else s.setupState }
  let portal := if s.provisioning then s.portalReason else .closed
  if s.setupState = .connecting then
    { s with restartAtMs := now + setupRestartDelayMs, setupState := .connected }
  else if portal = .fallback ∨ portal = .firstSetup then closePortal s
  else s

/-- The loop of `apply_sta_credentials` from this attempt on. -/
def setConfigLoop (setConfig : Nat → EspErr) (attempt : Nat) : Nat → EspErr → EspErr
  | 0, err => err
  | left + 1, _ =>
      let err := setConfig attempt
      if err ≠ .wifiState then err else setConfigLoop setConfig (attempt + 1) left err

def applyStaCredentials (setConfig : Nat → EspErr) : EspErr := setConfigLoop setConfig 0 5 .fail

def handleSetupSubmitted (s : State) (ssid : CString 33) (a : Answers) : State :=
  let err := applyStaCredentials a.setConfig
  let s := { s with staConnecting := false }
  if err ≠ .ok then { s with setupState := .failed }
  else { s with
    provisioned := true
    setupState := .connecting
    staSsid := ssid
    setupFailures := 0
    setupDeadlineMs := a.now + setupConnectTimeoutMs
    reconnectDelayMs := reconnectMinMs
    nextConnectMs := a.later + 1000 }

/-- The deadline of a credential test, in `handle_tick`. -/
def tickDeadline (s : State) (a : Answers) : State :=
  if s.setupState = .connecting ∧ a.now ≥ s.setupDeadlineMs then
    scheduleReconnect { s with setupState := .failed } a.later
  else s

/-- The reconnect that is due, in `handle_tick`; `snap` is the snapshot at the start of
the tick. -/
def tickConnect (snap s : State) (a : Answers) : State :=
  if s.nextConnectMs ≠ 0 ∧ a.now ≥ s.nextConnectMs ∧ !snap.connected ∧ snap.provisioned then
    staConnectNow s a.connect
  else s

/-- The portal that opens after some time offline, in `handle_tick`. -/
def tickFallback (config : Config) (snap s : State) (a : Answers) : State :=
  if !snap.connected ∧ snap.provisioned ∧ !snap.provisioning ∧
      a.now - s.offlineSinceMs ≥ config.portalFallbackSeconds * 1000 then
    match openPortal s .fallback a.portal a.later with
    | (.ok, s) => s
    | (_, s) => { s with offlineSinceMs := a.now }
  else s

/-- The end of a portal that was opened by hand, in `handle_tick`. -/
def tickManual (config : Config) (snap s : State) (a : Answers) : State :=
  if snap.provisioning ∧ snap.portalReason = .manual ∧ snap.setupState ≠ .connecting ∧
      snap.setupState ≠ .connected ∧
      a.now - s.portalOpenedMs ≥ config.manualPortalSeconds * 1000 then
    let s := closePortal s
    if !snap.connected then { s with offlineSinceMs := a.now } else s
  else s

/-- `none` when the tick restarts the device. -/
def handleTick (config : Config) (s : State) (a : Answers) : Option State :=
  if s.restartAtMs ≠ 0 ∧ a.now ≥ s.restartAtMs then none
  else
    let snap := s
    let s := tickDeadline s a
    let s := tickConnect snap s a
    let s := tickFallback config snap s a
    some (tickManual config snap s a)

/-- The switch of `network_task`. -/
def handleCommand (s : State) (a : Answers) : Command → State
  | .staStart =>
      if s.provisioned ∧ s.portalReason ≠ .firstSetup then staConnectNow s a.connect else s
  | .disconnected reason => handleDisconnected s reason a
  | .gotIp ip => handleGotIp s ip a.savedSsid a.now
  | .openPortal reason => (openPortal s reason a.portal a.now).2
  | .setupSubmitted ssid => handleSetupSubmitted s ssid a
  | .tick => s

/-- One iteration of `network_task`: a command, or a timeout of the queue, and the tick
behind it. -/
def networkTask (config : Config) (s : State) (command : Command) (a b : Answers) :
    Option State :=
  handleTick config (handleCommand s a command) b

/-- The commands that are posted to the task: `network_service_init` opens the portal
for the first setup when there are no credentials, the button opens it by hand. -/
def Posted (provisioned : Bool) : Command → Prop
  | .openPortal reason => reason = .manual ∨ reason = .firstSetup ∧ provisioned = false
  | _ => True

end SmsGateway.Network
