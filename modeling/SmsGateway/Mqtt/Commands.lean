import SmsGateway.Mqtt.Published
import SmsGateway.Mqtt.Tenure
import SmsGateway.Settings.Storage

/-! Which MQTT messages are commands: in every run a handler runs for a message on its
topic of the configuration in force only, and never for a message of the gateway itself. -/

namespace SmsGateway.Mqtt.Runtime

open Lib Prog Settings

variable {task : Task}

/-- A command is not retained, a restart is pressed, and Home Assistant is online. -/
theorem allowed_policy {kind : MqttCommandKind} {retained : Bool} {payload : CStr}
    (allowed : mqttCommandAllowed kind retained payload = true) :
    kind ≠ .none ∧ retained = false ∧
      (kind = .modemRestart ∨ kind = .systemReboot → payload = .text "PRESS") ∧
      (kind = .haStatus → payload = .text "online") := by
  cases kind <;> simp_all [mqttCommandAllowed]

/-- In every order of the tasks, whatever the changes of the configuration, a command is
handled only for a message that is not retained, on the topic of the command in the
configuration that is in force when the handler runs. -/
theorem command_handled_from_its_topic {deviceId : CStr} {g : System} (reached : Reached deviceId g)
    {kind : MqttCommandKind} {work : DataWork} {next : Unit → RuntimeM Unit}
    (pending : g.rest task = .call (.dispatch kind work) next) :
    -- The topic to compare with is empty when the mutex of the configuration was not free.
    (CStr.ofBytes work.topic ≠ .empty →
        CStr.ofBytes work.topic = commandTopic g.state.config kind) ∧
      kind ≠ .none ∧ work.retained = false ∧
      (kind = .modemRestart ∨ kind = .systemReboot → CStr.ofBytes work.payload = .text "PRESS") ∧
      (kind = .haStatus → CStr.ofBytes work.payload = .text "online") := by
  obtain ⟨-, -, topic, allowed⟩ : Allowed task g.state (.dispatch kind work) :=
    (reached_holds reached).allowed pending
  exact ⟨topic, allowed_policy allowed⟩

/-- Home Assistant presses the button that restarts the modem. -/
def pressed : DataWork where
  topic := (CStr.text "gateway/modem/restart").bytes ++ [0]
  payloadLen := 5
  retained := false
  duplicate := false
  qos := 1
  payload := (CStr.text "PRESS").bytes ++ [0]

/-- The gateway with the MAC address 24:0a:c4:12:34:56. -/
def ownDeviceId : CStr := deviceIdOf 0x12 0x34 0x56

def System.restartsModem (g : System) : Bool :=
  match g.rest 1 with
  | .call (.dispatch kind work) _ => kind = .modemRestart ∧ work = pressed
  | _ => false

theorem reached_pressed : ∃ g next, Reached ownDeviceId g ∧
    g.rest 1 = .call (.dispatch .modemRestart pressed) next := by
  have run : (played ownCertificate (turn 0 (change ownDeviceId) 28 7 ++
      turn 1 (workerPass ownDeviceId (.data pressed)) 10 7)).map System.restartsModem = some true := by
    decide +kernel
  obtain ⟨g, run, restarts⟩ := Option.map_eq_some_iff.mp run
  have reached : Reached ownDeviceId g := by
    refine reached_of_play ownDeviceId ?_ run
    intro move member
    exact (List.mem_append.mp member).elim (startable_change move)
      (startable_turn (.worker 1 (.data pressed)) move)
  simp only [System.restartsModem] at restarts
  split at restarts
  · rename_i kind work next pending
    obtain ⟨rfl, rfl⟩ := of_decide_eq_true restarts
    exact ⟨g, next, reached, pending⟩
  · cases restarts

theorem command_handled_from_its_topic_pressed : ∃ g next, Reached ownDeviceId g ∧
    g.rest 1 = .call (.dispatch .modemRestart pressed) next ∧
      CStr.ofBytes pressed.topic = commandTopic g.state.config .modemRestart := by
  obtain ⟨g, next, reached, pending⟩ := reached_pressed
  have named : CStr.ofBytes pressed.topic ≠ .empty := by decide
  exact ⟨g, next, reached, pending, (command_handled_from_its_topic reached pending).1 named⟩

/-! The topics of the gateway's own messages. -/

theorem deviceIdOf_length (mac3 mac4 mac5 : UInt8) : (deviceIdOf mac3 mac4 mac5).length < 24 := by
  have short : (deviceIdOf mac3 mac4 mac5).length ≤
      ((CStr.text "smsgw-").bytes ++ (hexByte mac3 ++ (hexByte mac4 ++ hexByte mac5))).length :=
    (List.takeWhile_sublist _).length_le
  have front : (CStr.text "smsgw-").bytes.length = 6 := by decide
  simp only [List.length_append, hexByte, List.length_cons, List.length_nil, front] at short
  omega

/-- The last letters of a topic. -/
def ending (topic : CStr) : List UInt8 := topic.bytes.reverse.take 4

theorem text_length {size : Nat} (field : CharField size) : field.text.length ≤ size :=
  ((List.takeWhile_sublist _).length_le).trans field.sized.le

/-- A topic that fits ends as its last part does. -/
theorem ending_append {front last : CStr} (long : 4 ≤ last.length) :
    ending (front ++ last) = ending last := by
  simp only [ending, CStr.append_bytes, List.reverse_append]
  apply List.take_append_of_le_length
  rw [List.length_reverse]
  exact long

theorem ending_printTopic {base suffix : CStr} (long : 4 ≤ suffix.length)
    (short : base.length + suffix.length + 1 < mqttTopicMax) :
    ending (printTopic base suffix) = ending suffix := by
  have fits : (base ++ CStr.text "/" ++ suffix).length ≤ mqttTopicMax - 1 := by
    simp only [CStr.length, CStr.append_bytes, List.length_append] at short ⊢
    have slash : (CStr.text "/").bytes.length = 1 := by decide
    omega
  rw [printTopic, CStr.truncate_of_length_le fits]
  exact ending_append long

/-- A topic below the base topic ends as its suffix does, for any configuration. -/
theorem ending_base (config : MqttConfig) {suffix : CStr} (long : 4 ≤ suffix.length)
    (short : suffix.length ≤ 62) :
    ending (printTopic config.baseTopic.text suffix) = ending suffix := by
  have base := text_length config.baseTopic
  apply ending_printTopic long
  simp only [mqttTopicMax]
  omega

theorem ending_discoveryTopic {deviceId : CStr} (identity : deviceId.length < 24)
    (config : MqttConfig) :
    ending (discoveryTopic deviceId config.discoveryPrefix.text) = ending (.text "/config") := by
  have front := text_length config.discoveryPrefix
  have fits : (config.discoveryPrefix.text ++ CStr.text "/device/" ++ deviceId ++
      CStr.text "/config").length ≤ mqttTopicMax - 1 := by
    simp only [CStr.length, CStr.append_bytes, List.length_append] at front identity ⊢
    have middle : (CStr.text "/device/").bytes.length = 8 := by decide
    have last : (CStr.text "/config").bytes.length = 7 := by decide
    simp only [mqttTopicMax]
    omega
  rw [discoveryTopic, CStr.truncate_of_length_le fits]
  exact ending_append (by decide)

/-- How the topics of the commands end. -/
def commandEnding : MqttCommandKind → List UInt8
  | .none => []
  | .smsSend => ending (.text "sms/send")
  | .nativeNotify => ending (.text "ha/notify")
  | .modemRestart => ending (.text "modem/restart")
  | .systemReboot => ending (.text "system/reboot")
  | .haStatus => ending (.text "status")

theorem ending_commandTopic (config : MqttConfig) (kind : MqttCommandKind) :
    ending (commandTopic config kind) = commandEnding kind := by
  cases kind with
  | none => rfl
  | haStatus =>
      have front := text_length config.discoveryPrefix
      have suffix : (CStr.text "status").length = 6 := by decide
      apply ending_printTopic (by decide)
      simp only [mqttTopicMax]
      omega
  | smsSend | nativeNotify | modemRestart | systemReboot =>
      exact ending_base config (by decide) (by decide)

/-- What the gateway prints is not what announces Home Assistant. -/
theorem not_online {payload : CStr} (printed : Object payload ∨ payload = .empty) :
    payload ≠ .text "online" := by
  rintro rfl
  rcases printed with printed | empty
  · have letter : (CStr.text "online").bytes.head? ≠ some 0x7B := by decide
    exact letter printed
  · exact absurd empty (by decide)

/-- Only the topics that end with `status` end as a command's topic does. -/
theorem ending_status {last : CStr} (kind : MqttCommandKind)
    (known : last ∈ [CStr.text "status", .text "command/result", .text "sms/received",
      .text "sms/status", .text "/config"])
    (same : ending last = commandEnding kind) : kind = .haStatus := by
  simp only [List.mem_cons, List.not_mem_nil, or_false] at known
  rcases known with rfl | rfl | rfl | rfl | rfl <;> revert same <;> cases kind <;> decide

theorem ending_availability (kind : MqttCommandKind) :
    ending (.text "availability") ≠ commandEnding kind := by
  cases kind <;> decide

/-- What the gateway publishes ends as no command's topic does, or does not announce Home
Assistant. -/
theorem published_ending {deviceId : CStr} (identity : deviceId.length < 24) {config : MqttConfig}
    {topic payload : CStr} (published : Publishes deviceId config topic payload)
    {kind : MqttCommandKind} (same : ending topic = commandEnding kind) :
    kind = .haStatus ∧ payload ≠ .text "online" := by
  cases published with
  | availability _ =>
      rw [ending_base config (by decide) (by decide)] at same
      exact absurd same (ending_availability kind)
  | status printed =>
      rw [ending_base config (by decide) (by decide)] at same
      exact ⟨ending_status kind (by decide) same, not_online printed⟩
  | commandResult printed | received printed | smsStatus printed =>
      rw [ending_base config (by decide) (by decide)] at same
      exact ⟨ending_status kind (by decide) same, not_online (.inl printed)⟩
  | discovery printed =>
      rw [ending_discoveryTopic identity] at same
      exact ⟨ending_status kind (by decide) same, not_online printed⟩

/-- Whatever task hands a message with a topic to a client in a run, and whatever client
that is, in no run is a command handled that has this topic and this payload. -/
theorem own_message_not_handled {mac3 mac4 mac5 : UInt8} {g : System}
    (reached : Reached (deviceIdOf mac3 mac4 mac5) g) {publisher : Task} {request : RuntimeCall}
    {next : request.Reply → RuntimeM Unit} (publishes : g.rest publisher = .call request next)
    {name payload : CStr} (message : request.message = some (name, payload)) (named : name ≠ .empty)
    {g' : System} (later : Reached (deviceIdOf mac3 mac4 mac5) g') {kind : MqttCommandKind}
    {work : DataWork} {rest : Unit → RuntimeM Unit}
    (handled : g'.rest task = .call (.dispatch kind work) rest) :
    ¬(CStr.ofBytes work.topic = name ∧ CStr.ofBytes work.payload = payload) := by
  rintro ⟨rfl, rfl⟩
  obtain ⟨-, -, topic, allowed⟩ : Allowed task g'.state (.dispatch kind work) :=
    (reached_holds later).allowed handled
  obtain ⟨-, -, -, online⟩ := allowed_policy allowed
  rcases reached_speaks reached publishes _ _ message with empty | ⟨config, published⟩
  · exact named empty
  · have same : ending (.ofBytes work.topic) = commandEnding kind := by
      rw [topic named]
      exact ending_commandTopic g'.state.config kind
    obtain ⟨announces, other⟩ := published_ending (deviceIdOf_length mac3 mac4 mac5) published same
    exact other (online announces)

/-- The gateway shares its base topic with Home Assistant, so that its own status has the
topic on which Home Assistant announces itself. -/
def sharing : MqttConfig :=
  { ownCertificate with homeAssistantEnabled := true, discoveryPrefix := .print (.text "gateway") }

/-- The gateway has its configuration and a connection. -/
def connecting : Schedule :=
  turn 0 (change ownDeviceId) 28 7 ++ turn 2 (connectionEvent 7 true) 2 7

theorem reached_sharing {work : Work} {calls : Nat} {g : System}
    (run : played sharing (connecting ++ turn 1 (workerPass ownDeviceId work) calls 7) = some g) :
    Reached ownDeviceId g := by
  refine reached_of_play ownDeviceId ?_ run
  intro move member
  rcases List.mem_append.mp member with member | member
  · exact (List.mem_append.mp member).elim (startable_change move)
      (startable_turn (.event 2 7 true) move)
  · exact startable_turn (.worker 1 work) move member

/-- Home Assistant announces itself. -/
def announced : DataWork where
  topic := (CStr.text "gateway/status").bytes ++ [0]
  payloadLen := 6
  retained := false
  duplicate := false
  qos := 0
  payload := (CStr.text "online").bytes ++ [0]

def System.sendsStatus (g : System) : Bool :=
  match g.rest 1 with
  | .call request _ => request.message = some (.text "gateway/status", .text "\x7b\x7d")
  | .done _ => false

def System.refreshes (g : System) : Bool :=
  match g.rest 1 with
  | .call (.dispatch kind work) _ => kind = .haStatus ∧ work = announced
  | _ => false

/-- The gateway's own status is not taken for the announcement, which has the same topic. -/
theorem own_message_not_handled_status : ∃ g g' request next rest,
    Reached ownDeviceId g ∧ g.rest 1 = .call request next ∧
      request.message = some (.ofBytes announced.topic, .text "\x7b\x7d") ∧
      Reached ownDeviceId g' ∧ g'.rest 1 = .call (.dispatch .haStatus announced) rest ∧
      CStr.ofBytes announced.payload ≠ .text "\x7b\x7d" := by
  have first : (played sharing (connecting ++
      turn 1 (workerPass ownDeviceId (.smsEvent true)) 20 7)).map System.sendsStatus =
        some true := by decide +kernel
  have second : (played sharing (connecting ++
      turn 1 (workerPass ownDeviceId (.data announced)) 19 7)).map System.refreshes =
        some true := by decide +kernel
  obtain ⟨g, run, sends⟩ := Option.map_eq_some_iff.mp first
  obtain ⟨g', run', refreshes⟩ := Option.map_eq_some_iff.mp second
  have reached := reached_sharing run
  have later := reached_sharing run'
  simp only [System.sendsStatus] at sends
  split at sends
  · rename_i request next pending
    have message := of_decide_eq_true sends
    simp only [System.refreshes] at refreshes
    split at refreshes
    · rename_i kind work rest handled
      obtain ⟨rfl, rfl⟩ := of_decide_eq_true refreshes
      refine ⟨g, g', request, next, rest, reached, pending, message, later, handled, ?_⟩
      intro same
      exact own_message_not_handled reached pending message (by decide) later handled ⟨rfl, same⟩
    · cases refreshes
  · cases sends

end SmsGateway.Mqtt.Runtime
