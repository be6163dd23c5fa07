import SmsGateway.Mqtt.Runtime

/-! What the MQTT service publishes: every call of every program that its tasks start that
hands a message to a client names a topic of this list, of some configuration. -/

namespace SmsGateway.Mqtt.Runtime

open Lib Prog Settings

/-- A printed JSON object. -/
def Object (payload : CStr) : Prop := payload.bytes.head? = some 0x7B

/-- What the gateway publishes under a configuration. -/
inductive Publishes (deviceId : CStr) (config : MqttConfig) : CStr → CStr → Prop where
  | availability {payload : CStr} (known : payload = .text "online" ∨ payload = .text "offline") :
      Publishes deviceId config (printTopic config.baseTopic.text (.text "availability")) payload
  | status {payload : CStr} (printed : Object payload ∨ payload = .empty) :
      Publishes deviceId config (printTopic config.baseTopic.text (.text "status")) payload
  | commandResult {payload : CStr} (printed : Object payload) :
      Publishes deviceId config (printTopic config.baseTopic.text (.text "command/result")) payload
  | received {payload : CStr} (printed : Object payload) :
      Publishes deviceId config (printTopic config.baseTopic.text (.text "sms/received")) payload
  | smsStatus {payload : CStr} (printed : Object payload) :
      Publishes deviceId config (printTopic config.baseTopic.text (.text "sms/status")) payload
  | discovery {payload : CStr} (printed : Object payload ∨ payload = .empty) :
      Publishes deviceId config (discoveryTopic deviceId config.discoveryPrefix.text) payload

/-- The topic is empty when the mutex of the configuration was not free. -/
def Own (deviceId name payload : CStr) : Prop :=
  name = .empty ∨ ∃ config, Publishes deviceId config name payload

/-- The message that a call hands to a client, the last will of a new client among them. -/
def RuntimeCall.message : RuntimeCall → Option (CStr × CStr)
  | .publish _ name payload _ _ => some (name, payload)
  | .init config => some (config.lastWillTopic, .text "offline")
  | _ => none

/-- The message of a call is one of the gateway's. -/
def Speaks (deviceId : CStr) (request : RuntimeCall) : Prop :=
  ∀ name payload, request.message = some (name, payload) → Own deviceId name payload

variable {deviceId : CStr} {α : Type}

/-- A topic of some configuration, or none. -/
def Named (suffix name : CStr) : Prop :=
  name = .empty ∨ ∃ config : MqttConfig, name = printTopic config.baseTopic.text suffix

theorem Named.own {suffix name payload : CStr} (named : Named suffix name)
    (published : ∀ config : MqttConfig,
      Publishes deviceId config (printTopic config.baseTopic.text suffix) payload) :
    Own deviceId name payload := by
  rcases named with empty | ⟨config, rfl⟩
  · exact .inl empty
  · exact .inr ⟨config, published config⟩

/-! The rules. -/

theorem calls_done (value : α) : (pure value : RuntimeM α).Calls (Speaks deviceId) := trivial

/-- A call without a message. -/
theorem calls_ask {request : RuntimeCall} {f : request.Reply → RuntimeM α}
    (silent : request.message = none) (rest : ∀ reply, (f reply).Calls (Speaks deviceId)) :
    (ask request >>= f).Calls (Speaks deviceId) := by
  refine Calls.send ?_ rest
  intro name payload message
  rw [silent] at message
  cases message

theorem calls_silent {request : RuntimeCall} (silent : request.message = none) :
    (ask request).Calls (Speaks deviceId) := by
  have calls : (ask request >>= pure).Calls (Speaks deviceId) := calls_ask silent calls_done
  rwa [bind_pure] at calls

theorem calls_publish {client : Client} {name payload : CStr} {qos : Nat} {retain : Bool}
    {f : Int → RuntimeM α} (own : Own deviceId name payload)
    (rest : ∀ id, (f id).Calls (Speaks deviceId)) :
    (ask (.publish client name payload qos retain) >>= f).Calls (Speaks deviceId) := by
  refine Calls.send ?_ rest
  intro _ _ message
  cases message
  exact own

theorem calls_topic {suffix : CStr} {f : CStr → RuntimeM α}
    (rest : ∀ name, Named suffix name → (f name).Calls (Speaks deviceId)) :
    (topic suffix >>= f).Calls (Speaks deviceId) := by
  rw [topic, bind_assoc]
  refine calls_ask rfl fun taken => ?_
  cases taken with
  | false => exact rest .empty (.inl rfl)
  | true =>
      refine calls_ask rfl fun config => ?_
      refine calls_ask rfl fun _ => ?_
      exact rest _ (.inr ⟨config, rfl⟩)

theorem calls_configView {f : Option MqttConfigView → RuntimeM α}
    (none : (f none).Calls (Speaks deviceId))
    (some : ∀ config, (f (some (.of config))).Calls (Speaks deviceId)) :
    (configView >>= f).Calls (Speaks deviceId) := by
  rw [configView, bind_assoc]
  refine calls_ask rfl fun taken => ?_
  cases taken with
  | false => exact none
  | true =>
      refine calls_ask rfl fun config => ?_
      refine calls_ask rfl fun _ => ?_
      exact some config

/-! The worker. -/

theorem calls_publishRaw {name payload : CStr} {qos : Nat} {retain : Bool}
    (own : Own deviceId name payload) :
    (publishRaw name payload qos retain).Calls (Speaks deviceId) := by
  refine calls_ask rfl fun taken => ?_
  cases taken with
  | false => exact calls_done _
  | true =>
      refine calls_ask rfl fun client => ?_
      cases client with
      | none => exact calls_ask rfl fun _ => calls_done _
      | some client =>
          refine calls_ask rfl fun connected => ?_
          cases connected with
          | false => exact calls_ask rfl fun _ => calls_done _
          | true =>
              refine calls_publish own fun id => ?_
              exact calls_ask rfl fun _ => calls_done id

theorem calls_publishJsonObject {name : CStr} {qos : Nat} {retain : Bool}
    (own : ∀ payload, Object payload → Own deviceId name payload) :
    (publishJsonObject name qos retain).Calls (Speaks deviceId) := by
  refine calls_ask rfl fun encoded => ?_
  cases encoded with
  | none => exact calls_done ()
  | some printed =>
      exact (calls_publishRaw (own printed.text printed.object)).bind fun _ => calls_done ()

theorem calls_publishStatus : publishStatus.Calls (Speaks deviceId) := by
  refine calls_ask rfl fun known => ?_
  cases known with
  | false => exact calls_done ()
  | true =>
      refine calls_topic fun name named => ?_
      refine calls_ask rfl fun created => ?_
      cases created with
      | false => exact calls_done ()
      | true =>
          apply calls_publishJsonObject
          exact fun payload printed => named.own fun _ => .status (.inl printed)

theorem calls_nameTopics (suffixes : List CStr) :
    (nameTopics suffixes).Calls (Speaks deviceId) := by
  induction suffixes with
  | nil => exact calls_done ()
  | cons suffix rest ih => exact calls_topic fun _ _ => ih

theorem calls_publishCommandResult : publishCommandResult.Calls (Speaks deviceId) := by
  refine calls_topic fun name named => ?_
  apply calls_publishJsonObject
  exact fun payload printed => named.own fun _ => .commandResult printed

theorem calls_publishSmsEvent (received : Bool) :
    (publishSmsEvent received).Calls (Speaks deviceId) := by
  refine calls_ask rfl fun created => ?_
  cases created with
  | false => exact calls_done ()
  | true =>
      refine calls_topic fun name named => ?_
      refine (calls_publishJsonObject ?_).bind fun _ => calls_publishStatus
      intro payload printed
      cases received with
      | false => exact named.own fun _ => .smsStatus printed
      | true => exact named.own fun _ => .received printed

theorem calls_publishInboundReplay : publishInboundReplay.Calls (Speaks deviceId) := by
  refine calls_topic fun name named => ?_
  refine calls_ask rfl fun created => ?_
  cases created with
  | false => exact calls_done ()
  | true =>
      apply calls_publishJsonObject
      exact fun payload printed => named.own fun _ => .received printed

theorem calls_replayNextInbound : replayNextInbound.Calls (Speaks deviceId) := by
  refine calls_ask rfl fun up => ?_
  cases up with
  | false => exact calls_done ()
  | true =>
      refine calls_ask rfl fun found => ?_
      cases found with
      | false => exact calls_done ()
      | true => exact calls_publishInboundReplay

theorem calls_handleReplayAck : handleReplayAck.Calls (Speaks deviceId) := by
  refine calls_ask rfl fun stored => ?_
  cases stored with
  | false => exact calls_done ()
  | true => exact calls_replayNextInbound

theorem calls_replayWatchdog : replayWatchdog.Calls (Speaks deviceId) := by
  refine calls_ask rfl fun expired => ?_
  cases expired with
  | false => exact calls_done ()
  | true => exact calls_replayNextInbound

theorem calls_subscribeAll (client : Client) (suffixes : List (CStr × Nat)) :
    (subscribeAll client suffixes).Calls (Speaks deviceId) := by
  induction suffixes with
  | nil => exact calls_done ()
  | cons head rest ih =>
      refine calls_topic fun name _ => ?_
      exact calls_ask rfl fun _ => ih

theorem calls_subscribe (view : MqttConfigView) : (subscribe view).Calls (Speaks deviceId) := by
  refine calls_ask rfl fun client => ?_
  cases client with
  | none => exact calls_silent rfl
  | some client =>
      refine (calls_subscribeAll client _).bind fun _ => ?_
      split
      · exact calls_ask rfl fun _ => calls_silent rfl
      · exact calls_silent rfl

theorem calls_publishDiscovery : (publishDiscovery deviceId).Calls (Speaks deviceId) := by
  refine calls_configView (calls_done ()) fun config => ?_
  dsimp only
  split
  · refine (calls_nameTopics _).bind fun _ => ?_
    apply calls_publishJsonObject
    exact fun payload printed => .inr ⟨config, .discovery (.inl printed)⟩
  · exact calls_done ()

theorem calls_subscribeAndAnnounce : (subscribeAndAnnounce deviceId).Calls (Speaks deviceId) := by
  refine calls_configView (calls_done ()) fun config => ?_
  refine calls_ask rfl fun taken => ?_
  cases taken with
  | false => exact calls_done ()
  | true =>
      refine (calls_subscribe _).bind fun _ => ?_
      refine calls_topic fun name named => ?_
      refine (calls_publishRaw (named.own fun _ => .availability (.inl rfl))).bind fun _ => ?_
      exact calls_publishDiscovery.bind fun _ => calls_publishStatus

theorem calls_commandKind (work : DataWork) : (commandKind work).Calls (Speaks deviceId) := by
  refine calls_topic fun _ _ => ?_
  split
  · exact calls_done _
  refine calls_topic fun _ _ => ?_
  split
  · exact calls_done _
  refine calls_topic fun _ _ => ?_
  split
  · exact calls_done _
  refine calls_topic fun _ _ => ?_
  split
  · exact calls_done _
  refine calls_configView (calls_done _) fun config => ?_
  dsimp only
  split
  · exact calls_done _
  · exact calls_done _

theorem calls_runCommand (kind : MqttCommandKind) (work : DataWork) :
    (runCommand deviceId kind work).Calls (Speaks deviceId) := by
  refine calls_ask rfl fun _ => ?_
  cases kind with
  | smsSend => exact calls_publishCommandResult
  | haStatus => exact calls_publishDiscovery.bind fun _ => calls_publishStatus
  | none | nativeNotify | modemRestart | systemReboot => exact calls_done ()

theorem calls_handleDataWork (work : DataWork) :
    (handleDataWork deviceId work).Calls (Speaks deviceId) := by
  refine (calls_commandKind work).bind fun kind => ?_
  split
  · exact calls_done ()
  split
  · exact calls_done ()
  split
  · refine calls_configView (calls_done ()) fun config => ?_
    dsimp only
    split
    · exact calls_runCommand kind work
    · exact calls_done ()
  · exact calls_runCommand kind work

theorem calls_perform (work : Work) : (work.perform deviceId).Calls (Speaks deviceId) := by
  cases work with
  | connected => exact calls_subscribeAndAnnounce.bind fun _ => calls_replayNextInbound
  | data work => exact calls_handleDataWork work
  | smsEvent received => exact calls_publishSmsEvent received
  | replay => exact calls_replayNextInbound
  | replayAck => exact calls_handleReplayAck

theorem calls_workerPass (work : Work) : (workerPass deviceId work).Calls (Speaks deviceId) := by
  refine calls_ask rfl fun taken => ?_
  cases taken with
  | false => exact calls_done ()
  | true => exact (calls_perform work).bind fun _ => calls_silent rfl

theorem calls_statusPass : statusPass.Calls (Speaks deviceId) := by
  refine calls_ask rfl fun up => ?_
  cases up with
  | false => exact calls_done ()
  | true =>
      refine calls_ask rfl fun taken => ?_
      cases taken with
      | false => exact calls_done ()
      | true =>
          refine calls_replayWatchdog.bind fun _ => ?_
          refine calls_replayNextInbound.bind fun _ => ?_
          exact calls_publishStatus.bind fun _ => calls_silent rfl

theorem calls_connectionEvent (client : Client) (connected : Bool) :
    (connectionEvent client connected).Calls (Speaks deviceId) := by
  refine calls_ask rfl fun active => ?_
  split
  · exact calls_silent rfl
  · exact calls_done ()

/-! The change of the configuration. -/

theorem calls_reconfigureFinish (result : Except EspErr Unit) :
    (reconfigureFinish result).Calls (Speaks deviceId) :=
  calls_ask rfl fun _ => calls_done result

theorem calls_freeNext (nextCaPem : Option Block) : (freeNext nextCaPem).Calls (Speaks deviceId) := by
  cases nextCaPem with
  | none => exact calls_done ()
  | some block => exact calls_silent rfl

theorem calls_freeActive : freeActive.Calls (Speaks deviceId) := by
  refine calls_ask rfl fun active => ?_
  cases active with
  | none => exact calls_done ()
  | some block => exact calls_ask rfl fun _ => calls_silent rfl

theorem calls_leave (result : Except EspErr Unit) : (leave result).Calls (Speaks deviceId) := by
  refine calls_ask rfl fun _ => ?_
  exact calls_ask rfl fun _ => calls_reconfigureFinish result

theorem calls_farewell (old : Client) (previous : MqttConfig) :
    (farewell deviceId old previous).Calls (Speaks deviceId) := by
  refine calls_ask rfl fun connected => ?_
  cases connected with
  | false => exact calls_done ()
  | true =>
      refine calls_publish (.inr ⟨previous, .availability (.inr rfl)⟩) fun _ => ?_
      refine calls_publish (.inr ⟨previous, .status (.inr rfl)⟩) fun _ => ?_
      split
      · exact calls_publish (.inr ⟨previous, .discovery (.inr rfl)⟩) fun _ => calls_done ()
      · exact calls_done ()

theorem calls_retire (previous : MqttConfig) :
    (retire deviceId previous).Calls (Speaks deviceId) := by
  refine calls_ask rfl fun old => ?_
  cases old with
  | none =>
      refine calls_ask rfl fun _ => ?_
      exact calls_ask rfl fun _ => calls_freeActive
  | some client =>
      refine (calls_farewell client previous).bind fun _ => ?_
      refine calls_ask rfl fun _ => ?_
      refine calls_ask rfl fun _ => ?_
      refine calls_ask rfl fun _ => ?_
      exact calls_ask rfl fun _ => calls_freeActive

theorem calls_installClient (config : MqttConfig) (nextCaPem : Option Block) :
    (installClient config nextCaPem).Calls (Speaks deviceId) := by
  refine calls_topic fun availability named => ?_
  refine Calls.send ?_ fun created => ?_
  · intro name payload message
    cases message
    exact named.own fun _ => .availability (.inr rfl)
  cases created with
  | none => exact (calls_freeNext nextCaPem).bind fun _ => calls_leave _
  | some client =>
      refine calls_ask rfl fun _ => ?_
      refine calls_ask rfl fun _ => ?_
      refine calls_ask rfl fun _ => ?_
      refine calls_ask rfl fun started => ?_
      cases started with
      | error err =>
          refine calls_ask rfl fun _ => ?_
          refine calls_ask rfl fun _ => ?_
          exact calls_freeActive.bind fun _ => calls_leave _
      | ok _ => exact calls_leave _

theorem calls_replaceClient (next : MqttConfig) (nextCaPem : Option Block) :
    (replaceClient deviceId next nextCaPem).Calls (Speaks deviceId) := by
  refine calls_ask rfl fun runtime => ?_
  cases runtime with
  | false => exact (calls_freeNext nextCaPem).bind fun _ => calls_reconfigureFinish _
  | true =>
      refine calls_ask rfl fun client => ?_
      cases client with
      | false =>
          refine calls_ask rfl fun _ => ?_
          exact (calls_freeNext nextCaPem).bind fun _ => calls_reconfigureFinish _
      | true =>
          refine calls_ask rfl fun config => ?_
          cases config with
          | false =>
              refine calls_ask rfl fun _ => ?_
              refine calls_ask rfl fun _ => ?_
              exact (calls_freeNext nextCaPem).bind fun _ => calls_reconfigureFinish _
          | true =>
              refine calls_ask rfl fun previous => ?_
              refine calls_ask rfl fun _ => ?_
              refine (calls_retire previous).bind fun _ => ?_
              refine calls_ask rfl fun again => ?_
              cases again with
              | false => exact (calls_freeNext nextCaPem).bind fun _ => calls_leave _
              | true =>
                  refine calls_ask rfl fun _ => ?_
                  refine calls_ask rfl fun _ => ?_
                  refine calls_ask rfl fun config => ?_
                  refine calls_ask rfl fun _ => ?_
                  split
                  · exact (calls_freeNext nextCaPem).bind fun _ => calls_leave _
                  · exact calls_installClient config nextCaPem

theorem calls_mqttServiceReconfigure : (mqttServiceReconfigure deviceId).Calls (Speaks deviceId) := by
  refine calls_ask rfl fun configs => ?_
  cases configs with
  | false => exact calls_done _
  | true =>
      refine calls_ask rfl fun read => ?_
      cases read with
      | error err => exact calls_reconfigureFinish _
      | ok next =>
          dsimp only
          split
          · exact calls_reconfigureFinish _
          split
          · refine calls_ask rfl fun copy => ?_
            cases copy with
            | none => exact calls_reconfigureFinish _
            | some block => exact calls_replaceClient next (some block)
          · exact calls_replaceClient next none

theorem calls_starts {task : Task} {program : RuntimeM Unit}
    (starts : Starts deviceId task program) : program.Calls (Speaks deviceId) := by
  cases starts with
  | worker work => exact calls_workerPass work
  | status => exact calls_statusPass
  | event client connected => exact calls_connectionEvent client connected
  | reconfigure => exact calls_mqttServiceReconfigure.bind fun _ => calls_done ()

/-- In every run each message that a task is about to hand to a client is on the list. -/
theorem reached_speaks {g : System} (reached : Reached deviceId g) {task : Task}
    {request : RuntimeCall} {next : request.Reply → RuntimeM Unit}
    (pending : g.rest task = .call request next) : Speaks deviceId request := by
  have calls : (g.rest task).Calls (Speaks deviceId) :=
    reached.calls (fun _ _ starts => calls_starts starts) task
  rw [pending] at calls
  exact calls.1

end SmsGateway.Mqtt.Runtime
