import SmsGateway.Lib.Parallel
import SmsGateway.Mqtt.Fragments
import SmsGateway.Settings.Config

/-! The MQTT client and its CA certificate: `mqtt_service_reconfigure`, the worker and
the event handler, with every allocation. ESP-MQTT keeps the pointer to the certificate. -/

namespace SmsGateway.Mqtt.Runtime

open Lib Prog Settings

/-- A client handle, and a block of the heap. -/
abbrev Client := Nat

abbrev Block := Nat

/-- A task that calls into the service. -/
abbrev Task := Nat

/-- `s_runtime_mutex`, `s_client_mutex` and `s_config_mutex`. -/
inductive Mutex where
  | runtime
  | client
  | config
  deriving DecidableEq, Repr

/-- The order in which a task takes the mutexes. -/
def Mutex.rank : Mutex → Nat
  | .runtime => 0
  | .client => 1
  | .config => 2

/-- `s_client` and `s_active_ca_pem`, the clients that exist with the certificate each
points to, and the certificates that belong to `s_active_ca_pem`. -/
structure Vars where
  client : Option Client
  activeCaPem : Option Block
  clients : List (Client × Option Block)
  owned : List Block
  deriving DecidableEq

/-- `heap` are the certificates that are allocated, `held` those a task has allocated
and not handed over or freed, `copies` its copies of configurations. -/
structure State where
  config : MqttConfig
  connected : Bool
  holder : Mutex → Option Task
  vars : Vars
  heap : List Block
  held : Task → List Block
  copies : Task → Nat

def State.initial : State :=
  ⟨.zero, false, fun _ => none, ⟨none, none, [], []⟩, [], fun _ => [], fun _ => 0⟩

/-- The fields of `esp_mqtt_client_config_t` that differ between clients. -/
structure ClientConfig where
  uri : CStr
  username : Option CStr
  password : Option CStr
  lastWillTopic : CStr
  certificate : Option Block
  crtBundleAttach : Bool

inductive MqttCommandKind where
  | none
  | smsSend
  | nativeNotify
  | modemRestart
  | systemReboot
  | haStatus
  deriving DecidableEq, Repr

/-- A finished payload (`MQTT_WORK_DATA`). -/
abbrev DataWork := Fragments.Work

def mqttCommandAllowed (kind : MqttCommandKind) (retained : Bool) (payload : CStr) : Bool :=
  if kind = .none then false
  else if kind = .haStatus then !retained && payload = .text "online"
  else if retained then false
  else if kind = .modemRestart ∨ kind = .systemReboot then payload = .text "PRESS"
  else true

/-- The text of a JSON object (`cJSON_PrintUnformatted`). -/
structure Printed where
  text : CStr
  object : text.bytes.head? = some 0x7B

/-- What the worker asks the other components for; each may fail or have nothing. -/
inductive Inquiry where
  /-- `modem_core_manager_snapshot` -/
  | managerSnapshot
  /-- `cJSON_CreateObject` -/
  | createObject
  /-- No message is in flight and the journal has one to replay. -/
  | nextInbound
  /-- The acknowledged message is the one in flight, and the cursor is stored. -/
  | acknowledged
  /-- The message in flight waited too long. -/
  | expired
  deriving DecidableEq, Repr

inductive RuntimeCall where
  | callocConfigs
  | freeConfigs
  | getMqtt
  | duplicate (pem : CStr)
  | free (block : Block)
  | take (mutex : Mutex)
  | give (mutex : Mutex)
  | readConfig
  | writeConfig (config : MqttConfig)
  | getClient
  | setClient (client : Option Client)
  | connected
  | setConnected (connected : Bool)
  | getActiveCaPem
  | setActiveCaPem (block : Option Block)
  | publish (client : Client) (topic payload : CStr) (qos : Nat) (retain : Bool)
  | subscribe (client : Client) (topic : CStr) (qos : Nat)
  | stop (client : Client)
  | destroy (client : Client)
  | init (config : ClientConfig)
  | registerEvent (client : Client)
  | start (client : Client)
  | setReplayProtection (enabled : Bool)
  | inquire (inquiry : Inquiry)
  | printUnformatted
  /-- The handler of this command runs. -/
  | dispatch (kind : MqttCommandKind) (work : DataWork)

@[reducible] def RuntimeCall.Reply : RuntimeCall → Type
  | .callocConfigs | .take _ | .connected | .inquire _ => Bool
  | .printUnformatted => Option Printed
  | .getMqtt => Except EspErr MqttConfig
  | .duplicate _ | .getActiveCaPem => Option Block
  | .readConfig => MqttConfig
  | .getClient | .init _ => Option Client
  | .publish _ _ _ _ _ | .subscribe _ _ _ => Int
  | .stop _ | .destroy _ | .start _ => Except EspErr Unit
  | .freeConfigs | .free _ | .give _ | .writeConfig _ | .setClient _ | .setConnected _
  | .setActiveCaPem _ | .registerEvent _ | .setReplayProtection _ | .dispatch _ _ => Unit

abbrev RuntimeM := Prog RuntimeCall RuntimeCall.Reply

def ask (request : RuntimeCall) : RuntimeM request.Reply := Prog.send request

/-- What a call of a task does. Any allocation, mutex and client call may fail. -/
def RuntimeCall.Answers (task : Task) (s : State) :
    (request : RuntimeCall) → request.Reply → State → Prop
  | .callocConfigs, allocated, t =>
      t = if allocated then
        { s with copies := Function.update s.copies task (s.copies task + 1) } else s
  | .freeConfigs, _, t =>
      t = { s with copies := Function.update s.copies task (s.copies task - 1) }
  | .getMqtt, _, t => t = s
  | .duplicate _, none, t => t = s
  | .duplicate _, some block, t =>
      block ∉ s.heap ∧ t = { s with
        heap := block :: s.heap
        held := Function.update s.held task (block :: s.held task) }
  | .free block, _, t =>
      t = { s with
        heap := s.heap.filter (· ≠ block)
        vars := { s.vars with owned := s.vars.owned.filter (· ≠ block) }
        held := fun other => (s.held other).filter (· ≠ block) }
  | .take mutex, taken, t =>
      if taken then s.holder mutex = none ∧
        t = { s with holder := Function.update s.holder mutex (some task) }
      else t = s
  | .give mutex, _, t => t = { s with holder := Function.update s.holder mutex none }
  | .readConfig, config, t => config = s.config ∧ t = s
  | .writeConfig config, _, t => t = { s with config := config }
  | .getClient, client, t => client = s.vars.client ∧ t = s
  | .setClient client, _, t => t = { s with vars := { s.vars with client := client } }
  | .connected, up, t => up = s.connected ∧ t = s
  | .setConnected up, _, t => t = { s with connected := up }
  | .getActiveCaPem, block, t => block = s.vars.activeCaPem ∧ t = s
  | .setActiveCaPem block, _, t =>
      -- The pointer takes the block over from the task.
      t = { s with
        vars := { s.vars with activeCaPem := block, owned := block.toList ++ s.vars.owned }
        held := Function.update s.held task ((s.held task).filter fun own => block ≠ some own) }
  | .destroy client, _, t =>
      t = { s with vars := { s.vars with clients := s.vars.clients.filter (·.1 ≠ client) } }
  | .init _, none, t => t = s
  | .init config, some client, t =>
      (∀ other ∈ s.vars.clients, other.1 ≠ client) ∧ t = { s with
        vars := { s.vars with clients := (client, config.certificate) :: s.vars.clients } }
  | .publish _ _ _ _ _, _, t | .subscribe _ _ _, _, t | .stop _, _, t | .registerEvent _, _, t
  | .start _, _, t | .setReplayProtection _, _, t | .inquire _, _, t | .printUnformatted, _, t
  | .dispatch _ _, _, t => t = s

/-! Topics. -/

def mqttTopicMax : Nat := 192

/-- `snprintf(out, MQTT_TOPIC_MAX, "%s/%s", base, suffix)`. -/
def printTopic (base suffix : CStr) : CStr :=
  (base ++ CStr.text "/" ++ suffix).truncate (mqttTopicMax - 1)

/-- `<prefix>/device/<id>/config`. -/
def discoveryTopic (deviceId discoveryPrefix : CStr) : CStr :=
  (discoveryPrefix ++ CStr.text "/device/" ++ deviceId ++ CStr.text "/config").truncate
    (mqttTopicMax - 1)

/-- `topic`; without the mutex the topic is empty. -/
def topic (suffix : CStr) : RuntimeM CStr := do
  let taken ← ask (.take .config)
  if taken then
    let config ← ask .readConfig
    ask (.give .config)
    pure (printTopic config.baseTopic.text suffix)
  else pure .empty

/-- `mqtt_config_view_t`. -/
structure MqttConfigView where
  homeAssistantEnabled : Bool
  baseTopic : CStr
  discoveryPrefix : CStr
  defaultRecipient : CStr

def MqttConfigView.of (config : MqttConfig) : MqttConfigView :=
  ⟨config.homeAssistantEnabled, config.baseTopic.text, config.discoveryPrefix.text,
    config.defaultRecipient.text⟩

def configView : RuntimeM (Option MqttConfigView) := do
  let taken ← ask (.take .config)
  if taken then
    let config ← ask .readConfig
    ask (.give .config)
    pure (some (.of config))
  else pure none

/-! The worker. -/

/-- The packet id, or -1. -/
def publishRaw (name payload : CStr) (qos : Nat) (retain : Bool) : RuntimeM Int := do
  let taken ← ask (.take .client)
  if taken then
    let client ← ask .getClient
    match client with
    | none =>
        ask (.give .client)
        pure (-1)
    | some client =>
        let connected ← ask .connected
        if connected then
          let id ← ask (.publish client name payload qos retain)
          ask (.give .client)
          pure id
        else
          ask (.give .client)
          pure (-1)
  else pure (-1)

/-- The topics to subscribe to, with their QoS. -/
def subscribeAll (client : Client) : List (CStr × Nat) → RuntimeM Unit
  | [] => pure ()
  | (suffix, qos) :: rest => do
      let name ← topic suffix
      let _ ← ask (.subscribe client name qos)
      subscribeAll client rest

def subscriptions (view : MqttConfigView) : List (CStr × Nat) :=
  [(.text "sms/send", 1), (.text "modem/restart", 1), (.text "system/reboot", 1)] ++
    if view.defaultRecipient.bytes ≠ [] then [(.text "ha/notify", 0)] else []

def subscribe (view : MqttConfigView) : RuntimeM Unit := do
  let client ← ask .getClient
  match client with
  | none => ask (.give .client)
  | some client =>
      subscribeAll client (subscriptions view)
      if view.homeAssistantEnabled then
        let _ ← ask (.subscribe client (printTopic view.discoveryPrefix (.text "status")) 0)
        ask (.give .client)
      else ask (.give .client)

/-- The kind of command that the topic of the work stands for. -/
def commandKind (work : DataWork) : RuntimeM MqttCommandKind := do
  let expected ← topic (.text "sms/send")
  if CStr.ofBytes work.topic = expected then pure .smsSend
  else
    let expected ← topic (.text "ha/notify")
    if CStr.ofBytes work.topic = expected then pure .nativeNotify
    else
      let expected ← topic (.text "modem/restart")
      if CStr.ofBytes work.topic = expected then pure .modemRestart
      else
        let expected ← topic (.text "system/reboot")
        if CStr.ofBytes work.topic = expected then pure .systemReboot
        else
          let found ← configView
          match found with
          | none => pure .none
          | some view =>
              if CStr.ofBytes work.topic = printTopic view.discoveryPrefix (.text "status") then
                pure .haStatus
              else pure .none

/-- An object is printed and published; one that was not created prints as nothing. -/
def publishJsonObject (name : CStr) (qos : Nat) (retain : Bool) : RuntimeM Unit := do
  let encoded ← ask .printUnformatted
  match encoded with
  | none => pure ()
  | some printed =>
      let _ ← publishRaw name printed.text qos retain
      pure ()

def publishStatus : RuntimeM Unit := do
  let known ← ask (.inquire .managerSnapshot)
  if known then
    let statusTopic ← topic (.text "status")
    let created ← ask (.inquire .createObject)
    if created then publishJsonObject statusTopic 1 true else pure ()
  else pure ()

/-- The topics that an object names. -/
def nameTopics : List CStr → RuntimeM Unit
  | [] => pure ()
  | suffix :: rest => do
      let _ ← topic suffix
      nameTopics rest

def publishCommandResult : RuntimeM Unit := do
  let resultTopic ← topic (.text "command/result")
  publishJsonObject resultTopic 1 false

/-- The event of a message that was received, or of one whose status changed. -/
def publishSmsEvent (received : Bool) : RuntimeM Unit := do
  let created ← ask (.inquire .createObject)
  if created then
    let outTopic ← topic (if received then .text "sms/received" else .text "sms/status")
    publishJsonObject outTopic 1 false
    publishStatus
  else pure ()

/-- The packet id goes to the replay, which has its own model. -/
def publishInboundReplay : RuntimeM Unit := do
  let outTopic ← topic (.text "sms/received")
  let created ← ask (.inquire .createObject)
  if created then publishJsonObject outTopic 1 false else pure ()

def replayNextInbound : RuntimeM Unit := do
  let up ← ask .connected
  if up then
    let found ← ask (.inquire .nextInbound)
    if found then publishInboundReplay else pure ()
  else pure ()

def handleReplayAck : RuntimeM Unit := do
  let stored ← ask (.inquire .acknowledged)
  if stored then replayNextInbound else pure ()

def replayWatchdog : RuntimeM Unit := do
  let expired ← ask (.inquire .expired)
  if expired then replayNextInbound else pure ()

section

variable (deviceId : CStr)

def publishDiscovery : RuntimeM Unit := do
  let found ← configView
  match found with
  | none => pure ()
  | some view =>
      if view.homeAssistantEnabled then
        nameTopics ([.text "availability", .text "status", .text "sms/received",
          .text "modem/restart", .text "system/reboot"] ++
            if view.defaultRecipient.bytes ≠ [] then [.text "ha/notify"] else [])
        publishJsonObject (discoveryTopic deviceId view.discoveryPrefix) 1 true
      else pure ()

def subscribeAndAnnounce : RuntimeM Unit := do
  let found ← configView
  match found with
  | none => pure ()
  | some view =>
      let taken ← ask (.take .client)
      if taken then
        subscribe view
        let availability ← topic (.text "availability")
        let _ ← publishRaw availability (.text "online") 1 true
        publishDiscovery deviceId
        publishStatus
      else pure ()

/-- The handler of a command, with what it publishes. -/
def runCommand (kind : MqttCommandKind) (work : DataWork) : RuntimeM Unit := do
  ask (.dispatch kind work)
  match kind with
  | .smsSend => publishCommandResult
  | .haStatus =>
      publishDiscovery deviceId
      publishStatus
  | _ => pure ()

def handleDataWork (work : DataWork) : RuntimeM Unit := do
  let kind ← commandKind work
  if kind = .none then pure ()
  else if !mqttCommandAllowed kind work.retained (.ofBytes work.payload) then pure ()
  else if kind = .haStatus then
    let found ← configView
    match found with
    | none => pure ()
    | some view => if view.homeAssistantEnabled then runCommand deviceId kind work else pure ()
  else runCommand deviceId kind work

/-- `mqtt_work_t`. -/
inductive Work where
  | connected
  | data (work : DataWork)
  | smsEvent (received : Bool)
  | replay
  | replayAck

def Work.perform : Work → RuntimeM Unit
  | .connected => do
      subscribeAndAnnounce deviceId
      replayNextInbound
  | .data work => handleDataWork deviceId work
  | .smsEvent received => publishSmsEvent received
  | .replay => replayNextInbound
  | .replayAck => handleReplayAck

/-- A pass of `worker_task` with work from the queue. -/
def workerPass (work : Work) : RuntimeM Unit := do
  let taken ← ask (.take .runtime)
  if taken then
    work.perform deviceId
    ask (.give .runtime)
  else pure ()

end

/-- A pass of `worker_task` after its queue stayed empty. -/
def statusPass : RuntimeM Unit := do
  let up ← ask .connected
  if up then
    let taken ← ask (.take .runtime)
    if taken then
      replayWatchdog
      replayNextInbound
      publishStatus
      ask (.give .runtime)
    else pure ()
  else pure ()

/-- `mqtt_event_handler` at a connection or its loss. -/
def connectionEvent (client : Client) (connected : Bool) : RuntimeM Unit := do
  let active ← ask .getClient
  if active = some client then ask (.setConnected connected) else pure ()

/-! The change of the configuration. -/

def reconfigureFinish (result : Except EspErr Unit) : RuntimeM (Except EspErr Unit) := do
  ask .freeConfigs
  pure result

/-- `owned_ca_free(&next_ca_pem)`. -/
def freeNext : Option Block → RuntimeM Unit
  | none => pure ()
  | some block => ask (.free block)

/-- `owned_ca_free(&s_active_ca_pem)`. -/
def freeActive : RuntimeM Unit := do
  let active ← ask .getActiveCaPem
  match active with
  | none => pure ()
  | some block =>
      ask (.free block)
      ask (.setActiveCaPem none)

/-- The mutexes given back. -/
def leave (result : Except EspErr Unit) : RuntimeM (Except EspErr Unit) := do
  ask (.give .client)
  ask (.give .runtime)
  reconfigureFinish result

section

variable (deviceId : CStr)

/-- What the retiring client still publishes. -/
def farewell (old : Client) (previous : MqttConfig) : RuntimeM Unit := do
  let connected ← ask .connected
  if connected then
    let _ ← ask (.publish old (printTopic previous.baseTopic.text (.text "availability"))
      (.text "offline") 1 true)
    let _ ← ask (.publish old (printTopic previous.baseTopic.text (.text "status")) .empty 1 true)
    if previous.homeAssistantEnabled then
      let _ ← ask (.publish old (discoveryTopic deviceId previous.discoveryPrefix.text) .empty 1 true)
      pure ()
    else pure ()
  else pure ()

/-- The old client is stopped and destroyed, and its certificate freed. -/
def retire (previous : MqttConfig) : RuntimeM Unit := do
  let old ← ask .getClient
  match old with
  | none =>
      ask (.setClient none)
      ask (.setConnected false)
      freeActive
  | some client =>
      farewell deviceId client previous
      ask (.setClient none)
      ask (.setConnected false)
      let _ ← ask (.stop client)
      let _ ← ask (.destroy client)
      freeActive

def optionalText (text : CStr) : Option CStr := if text.bytes ≠ [] then some text else none

def clientConfig (config : MqttConfig) (availability : CStr) (nextCaPem : Option Block) :
    ClientConfig where
  uri := config.brokerUri.text
  username := optionalText config.username.text
  password := optionalText config.password.text
  lastWillTopic := availability
  certificate := if gatewayMqttUriIsTls config.brokerUri.text then nextCaPem else none
  crtBundleAttach := gatewayMqttUriIsTls config.brokerUri.text ∧ nextCaPem = none

/-- The new client, once the configuration is in place. -/
def installClient (config : MqttConfig) (nextCaPem : Option Block) :
    RuntimeM (Except EspErr Unit) := do
  let availability ← topic (.text "availability")
  let created ← ask (.init (clientConfig config availability nextCaPem))
  match created with
  | none =>
      freeNext nextCaPem
      leave (.error .fail)
  | some client =>
      ask (.setActiveCaPem nextCaPem)
      ask (.setClient (some client))
      ask (.registerEvent client)
      let started ← ask (.start client)
      match started with
      | .error err =>
          ask (.setClient none)
          let _ ← ask (.destroy client)
          freeActive
          leave (.error err)
      | .ok () => leave (.ok ())

/-- From the mutexes on. -/
def replaceClient (next : MqttConfig) (nextCaPem : Option Block) :
    RuntimeM (Except EspErr Unit) := do
  let runtime ← ask (.take .runtime)
  if !runtime then
    freeNext nextCaPem
    reconfigureFinish (.error .timeout)
  else
    let client ← ask (.take .client)
    if !client then
      ask (.give .runtime)
      freeNext nextCaPem
      reconfigureFinish (.error .timeout)
    else
      let config ← ask (.take .config)
      if !config then
        ask (.give .client)
        ask (.give .runtime)
        freeNext nextCaPem
        reconfigureFinish (.error .timeout)
      else
        let previous ← ask .readConfig
        ask (.give .config)
        retire deviceId previous
        let again ← ask (.take .config)
        if !again then
          freeNext nextCaPem
          leave (.error .timeout)
        else
          ask (.writeConfig next)
          ask (.give .config)
          -- From here `s_config` is read under the runtime mutex only.
          let config ← ask .readConfig
          ask (.setReplayProtection config.enabled)
          if !config.enabled then
            freeNext nextCaPem
            leave (.ok ())
          else installClient config nextCaPem

def mqttServiceReconfigure : RuntimeM (Except EspErr Unit) := do
  let configs ← ask .callocConfigs
  if !configs then pure (.error .noMem)
  else
    let read ← ask .getMqtt
    match read with
    | .error err => reconfigureFinish (.error err)
    | .ok next =>
        if gatewayMqttConfigValidate next ≠ .ok () then reconfigureFinish (.error .invalidArg)
        else if next.enabled ∧ gatewayMqttUriIsTls next.brokerUri.text ∧
            next.caPem.text.bytes ≠ [] then
          let copy ← ask (.duplicate next.caPem.text)
          match copy with
          | none => reconfigureFinish (.error .noMem)
          | some block => replaceClient deviceId next (some block)
        else replaceClient deviceId next none

inductive Starts : Task → RuntimeM Unit → Prop where
  | worker (task : Task) (work : Work) : Starts task (workerPass deviceId work)
  | status (task : Task) : Starts task statusPass
  | event (task : Task) (client : Client) (connected : Bool) :
      Starts task (connectionEvent client connected)
  | reconfigure (task : Task) :
      Starts task (mqttServiceReconfigure deviceId >>= fun _ => pure ())

def rules : Rules Task State RuntimeCall RuntimeCall.Reply :=
  ⟨fun task s request reply t => request.Answers task s reply t, Starts deviceId⟩

abbrev System := Crew Task State RuntimeCall RuntimeCall.Reply

def Reached (g : System) : Prop := Crew.Reached (rules deviceId) State.initial g

/-- An answer to a call: allocations and mutexes as they can, `choice` for what is
allocated or created, `config` from the settings. -/
def RuntimeCall.answer (config : MqttConfig) (choice : Nat) (task : Task) :
    (request : RuntimeCall) → State → Option (request.Reply × State)
  | .callocConfigs, s =>
      some (true, { s with copies := Function.update s.copies task (s.copies task + 1) })
  | .freeConfigs, s =>
      some ((), { s with copies := Function.update s.copies task (s.copies task - 1) })
  | .getMqtt, s => some (.ok config, s)
  | .duplicate _, s =>
      if choice ∉ s.heap then
        some (some choice, { s with
          heap := choice :: s.heap
          held := Function.update s.held task (choice :: s.held task) })
      else none
  | .free block, s => some ((), { s with
      heap := s.heap.filter (· ≠ block)
      vars := { s.vars with owned := s.vars.owned.filter (· ≠ block) }
      held := fun other => (s.held other).filter (· ≠ block) })
  | .take mutex, s =>
      if s.holder mutex = none then
        some (true, { s with holder := Function.update s.holder mutex (some task) })
      else none
  | .give mutex, s => some ((), { s with holder := Function.update s.holder mutex none })
  | .readConfig, s => some (s.config, s)
  | .writeConfig next, s => some ((), { s with config := next })
  | .getClient, s => some (s.vars.client, s)
  | .setClient client, s => some ((), { s with vars := { s.vars with client := client } })
  | .connected, s => some (s.connected, s)
  | .setConnected up, s => some ((), { s with connected := up })
  | .getActiveCaPem, s => some (s.vars.activeCaPem, s)
  | .setActiveCaPem block, s => some ((), { s with
      vars := { s.vars with activeCaPem := block, owned := block.toList ++ s.vars.owned }
      held := Function.update s.held task ((s.held task).filter fun own => block ≠ some own) })
  | .destroy client, s => some (.ok (), { s with
      vars := { s.vars with clients := s.vars.clients.filter (·.1 ≠ client) } })
  | .init settings, s =>
      if ∀ other ∈ s.vars.clients, other.1 ≠ choice then
        some (some choice, { s with
          vars := { s.vars with clients := (choice, settings.certificate) :: s.vars.clients } })
      else none
  | .publish _ _ _ _ _, s | .subscribe _ _ _, s => some (1, s)
  | .stop _, s | .start _, s => some (.ok (), s)
  | .registerEvent _, s | .setReplayProtection _, s | .dispatch _ _, s => some ((), s)
  | .inquire _, s => some (true, s)
  | .printUnformatted, s => some (some ⟨.text "\x7b\x7d", by decide⟩, s)

theorem RuntimeCall.answer_answers {config : MqttConfig} {choice : Nat} {task : Task}
    {request : RuntimeCall} {s t : State} {reply : request.Reply}
    (answered : request.answer config choice task s = some (reply, t)) :
    request.Answers task s reply t := by
  cases request with
  | duplicate _ | take _ | init _ =>
      simp only [RuntimeCall.answer] at answered
      split at answered
      · rename_i may
        cases answered
        exact ⟨may, rfl⟩
      · cases answered
  | readConfig | getClient | connected | getActiveCaPem =>
      cases answered
      exact ⟨rfl, rfl⟩
  | _ =>
      cases answered
      exact rfl

theorem reached_of_play {config : MqttConfig}
    {schedule : List (Crew.Move Task RuntimeCall RuntimeCall.Reply)}
    (may : ∀ move ∈ schedule, Crew.Startable (rules deviceId) move) {g : System}
    (played : Crew.play (RuntimeCall.answer config) schedule
      ⟨State.initial, fun _ => .done ()⟩ = some g) :
    Reached deviceId g := by
  apply Crew.play_steps _ may played
  intro choice task request s reply t answered
  exact RuntimeCall.answer_answers answered

end

end SmsGateway.Mqtt.Runtime
