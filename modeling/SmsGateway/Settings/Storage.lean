import SmsGateway.Lib.Outcomes
import SmsGateway.Settings.Config

/-! The settings in memory and in flash (`gateway_settings.c`): no stored bytes keep the
gateway from starting with a valid configuration, and an accepted one comes back. -/

namespace SmsGateway.Settings

open Lib

/-- The calls that may be refused. -/
inductive Device where
  | createMutex
  | openNamespace
  | allocate
  | takeMutex
  | getBlob
  | setBlob
  | eraseKey
  | commit
  deriving DecidableEq, Repr

/-- The blob under `mqtt_v1` and the static variables of `gateway_settings.c`. -/
structure State where
  blob : Option (List UInt8)
  config : MqttConfig
  initialized : Bool
  deriving DecidableEq

abbrev SettingsM := FaultM Device State

/-- A refused call has any code, that of a missing key among them. -/
def refusal : Nat → EspErr
  | 0 => .nvsNotFound
  | code + 1 => .nvs code

/-- A call that gets something or nothing. -/
def ask (device : Device) : SettingsM (Except EspErr Unit) :=
  attempt refusal device fun s => (.ok (), s)

/-- A blob that is longer than the record is refused. -/
def nvsGetBlob : SettingsM (Except EspErr (List UInt8)) :=
  attempt refusal .getBlob fun s =>
    match s.blob with
    | none => (.error .nvsNotFound, s)
    | some blob => (if blob.length > recordSize then .error .invalidSize else .ok blob, s)

def nvsSetBlob (blob : List UInt8) : SettingsM (Except EspErr Unit) :=
  attempt refusal .setBlob fun s => (.ok (), { s with blob := some blob })

def nvsEraseKey : SettingsM (Except EspErr Unit) :=
  attempt refusal .eraseKey fun s =>
    match s.blob with
    | none => (.error .nvsNotFound, s)
    | some _ => (.ok (), { s with blob := none })

def nvsCommit : SettingsM (Except EspErr Unit) := ask .commit

def putConfig (config : MqttConfig) : SettingsM Unit :=
  modify fun (plan, s) => (plan, { s with config := config })

def currentConfig : SettingsM MqttConfig := do return (← get).2.config

def isInitialized : SettingsM Bool := do return (← get).2.initialized

/-- What `nvs_get_blob` brought: the configuration it leaves, and `err`. -/
def loadRecord (current : MqttConfig) : Except EspErr (List UInt8) → MqttConfig × Except EspErr Unit
  | .ok blob =>
      let record := MqttRecord.ofBytes blob
      if blob.length = recordSize ∧ record.magic = settingsMagic ∧
          record.version = settingsVersion then
        (recordToConfig record, gatewayMqttConfigValidate (recordToConfig record))
      else (current, .error .invalidVersion)
  | .error .nvsNotFound => (current, .ok ())
  | .error e => (current, .error e)

/-- A corrupt or incompatible record must not keep the gateway from booting. -/
def discardRecord (err : Except EspErr Unit) : SettingsM Unit := do
  if err ≠ .ok () then
    putConfig .zero
    let _ ← nvsEraseKey
    let _ ← nvsCommit

def fillDefaults (deviceId : Option CStr) (err : Except EspErr Unit) : SettingsM Unit := do
  let config ← currentConfig
  if err ≠ .ok () ∨ config.baseTopic.text.bytes = [] then
    putConfig (gatewayMqttConfigDefaults deviceId)

def markInitialized : SettingsM Unit :=
  modify fun (plan, s) => (plan, { s with initialized := true })

/-- `gateway_settings_init` once it has its mutex, its namespace and its memory. -/
def initRecord (deviceId : Option CStr) : SettingsM (Except EspErr Unit) := do
  let read ← nvsGetBlob
  let current ← currentConfig
  putConfig (loadRecord current read).1
  discardRecord (loadRecord current read).2
  fillDefaults deviceId (loadRecord current read).2
  markInitialized
  return .ok ()

def gatewaySettingsInit (deviceId : Option CStr) : SettingsM (Except EspErr Unit) := do
  if ← isInitialized then return .error .invalidState
  match ← ask .createMutex with
  | .error _ => return .error .noMem
  | .ok () =>
      match ← ask .openNamespace with
      | .error e => return .error e
      | .ok () =>
          match ← ask .allocate with
          | .error _ => return .error .noMem
          | .ok () => initRecord deviceId

def gatewaySettingsGetMqtt : SettingsM (Except EspErr MqttConfig) := do
  if !(← isInitialized) then return .error .invalidState
  match ← ask .takeMutex with
  | .error _ => return .error .timeout
  | .ok () => return .ok (← currentConfig)

/-- `nvs_set_blob` and `nvs_commit`. -/
def storeRecord (config : MqttConfig) : SettingsM (Except EspErr Unit) := do
  match ← nvsSetBlob (configToRecord config).bytes with
  | .error e => return .error e
  | .ok () => nvsCommit

def gatewaySettingsSetMqtt (config : MqttConfig) : SettingsM (Except EspErr Unit) := do
  if !(← isInitialized) then return .error .invalidState
  match gatewayMqttConfigValidate config with
  | .error e => return .error e
  | .ok () =>
      match ← ask .allocate with
      | .error _ => return .error .noMem
      | .ok () =>
          match ← ask .takeMutex with
          | .error _ => return .error .timeout
          | .ok () =>
              match ← storeRecord config with
              | .error e => return .error e
              | .ok () =>
                  putConfig config
                  return .ok ()

/-! ## The defaults -/

/-- What may stand between the slashes of a topic. -/
def levelChar (ch : UInt8) : Bool := topicChar ch && ch != slash

/-- A device id is one level of a topic. -/
def ValidDeviceId (deviceId : Option CStr) : Prop := ∀ id ∈ deviceId, id.bytes.all levelChar = true

theorem CharField.text_print {size : Nat} (positive : 0 < size) (source : CStr) :
    (CharField.print source : CharField size).text = source.truncate (size - 1) := by
  have short : (source.truncate (size - 1)).bytes.length < size := by
    simp only [CStr.truncate, List.length_take]
    omega
  have noNul := (source.truncate (size - 1)).noNul
  apply CStr.ext
  simp only [CharField.print, CharField.text, CharField.ofBytes, CStr.ofBytes,
    List.take_of_length_le (Nat.le_of_lt short), padded]
  have more : size - (source.truncate (size - 1)).bytes.length =
      size - (source.truncate (size - 1)).bytes.length - 1 + 1 := by omega
  have whole := CStr.ofBytes_of_noNul noNul
  rw [List.takeWhile_append_of_pos (List.takeWhile_eq_self_iff.mp whole), more,
    List.replicate_succ, List.takeWhile_cons]
  simp

/-- A topic that ends in a level of its own. -/
theorem topicValid_level {front name : List UInt8} {topic : CStr} {maxLen : Nat}
    (frontChars : front.all topicChar = true) (leads : front.head? ≠ some slash)
    (chars : name.all levelChar = true) (present : front ≠ [] ∧ name ≠ [])
    (shape : topic.bytes = front ++ name) (short : topic.length < maxLen) :
    topicValid topic maxLen = true := by
  have levels : ∀ ch ∈ name, topicChar ch = true ∧ ch ≠ slash := by
    intro ch member
    have both := List.all_eq_true.mp chars ch member
    simpa [levelChar] using both
  have nonempty : topic.length ≠ 0 := by
    have positive := List.length_pos_iff.mpr present.1
    rw [CStr.length, shape, List.length_append]
    omega
  have first : topic.bytes.head? ≠ some slash := by
    rw [shape, List.head?_append_of_ne_nil _ present.1]
    exact leads
  have last : topic.bytes.getLast? ≠ some slash := by
    rw [shape, List.getLast?_append_of_ne_nil _ present.2]
    intro ends
    exact (levels slash (List.mem_of_getLast? ends)).2 rfl
  have passes : ¬ (topic.length = 0 ∨ topic.length ≥ maxLen ∨ topic.bytes.head? = some slash ∨
      topic.bytes.getLast? = some slash) := by
    rintro (empty | long | leading | trailing)
    · exact nonempty empty
    · exact absurd short (Nat.not_lt.mpr long)
    · exact first leading
    · exact last trailing
  rw [topicValid, if_neg passes, shape, List.all_append, frontChars, Bool.true_and, List.all_eq_true]
  exact fun ch member => (levels ch member).1

theorem deviceLevel_chars {deviceId : Option CStr} (valid : ValidDeviceId deviceId) :
    (deviceLevel deviceId).bytes ≠ [] ∧ (deviceLevel deviceId).bytes.all levelChar = true := by
  have fallback : (CStr.text "gateway").bytes ≠ [] ∧
      (CStr.text "gateway").bytes.all levelChar = true := by decide
  cases deviceId with
  | none => exact fallback
  | some id =>
      by_cases named : id.bytes ≠ []
      · rw [deviceLevel, if_pos named]
        exact ⟨named, valid id rfl⟩
      · rw [deviceLevel, if_neg named]
        exact fallback

def topicRoot : CStr := .text "sms-gateway/"

/-- However long the id, the cut leaves some of it behind the root. -/
theorem baseTopic_shape (name : CStr) :
    ((CharField.print (.text "sms-gateway/" ++ name) : CharField 128).text).bytes =
      topicRoot.bytes ++ name.bytes.take 115 := by
  rw [CharField.text_print (by decide)]
  simp only [CStr.truncate, CStr.append_bytes]
  exact List.take_append

theorem defaults_valid {deviceId : Option CStr} (valid : ValidDeviceId deviceId) :
    gatewayMqttConfigValidate (gatewayMqttConfigDefaults deviceId) = .ok () := by
  obtain ⟨named, chars⟩ := deviceLevel_chars valid
  have cut : ((deviceLevel deviceId).bytes.take 115).all levelChar = true := by
    rw [List.all_eq_true] at chars ⊢
    exact fun ch member => chars ch (List.mem_of_mem_take member)
  have base : topicValid (gatewayMqttConfigDefaults deviceId).baseTopic.text 128 = true := by
    have shape := baseTopic_shape (deviceLevel deviceId)
    refine topicValid_level (by decide) (by decide) cut ⟨by decide, by simpa using named⟩ shape ?_
    have room : ((deviceLevel deviceId).bytes.take 115).length ≤ 115 := List.length_take_le _ _
    have root : topicRoot.bytes.length = 12 := by decide
    rw [CStr.length, gatewayMqttConfigDefaults, shape, List.length_append]
    omega
  have discovery :
      topicValid (gatewayMqttConfigDefaults deviceId).discoveryPrefix.text 64 = true := by
    rw [gatewayMqttConfigDefaults, CharField.text_print (by decide)]
    decide
  have recipient : (gatewayMqttConfigDefaults deviceId).defaultRecipient.text.bytes = [] := by
    show MqttConfig.zero.defaultRecipient.text.bytes = []
    decide
  have disabled : (gatewayMqttConfigDefaults deviceId).enabled = false := rfl
  simp [gatewayMqttConfigValidate, base, discovery, recipient, disabled]

/-! ## Starting -/

/-- The configuration after a start that read this. -/
def settled (deviceId : Option CStr) (current : MqttConfig) (read : Except EspErr (List UInt8)) :
    MqttConfig :=
  if (loadRecord current read).2 ≠ .ok () ∨
      (loadRecord current read).1.baseTopic.text.bytes = [] then gatewayMqttConfigDefaults deviceId
  else (loadRecord current read).1

/-- A record is kept only when it passes the validation. -/
theorem loadRecord_valid {read : Except EspErr (List UInt8)}
    (loaded : (loadRecord .zero read).2 = .ok ())
    (named : (loadRecord .zero read).1.baseTopic.text.bytes ≠ []) :
    gatewayMqttConfigValidate (loadRecord .zero read).1 = .ok () := by
  unfold loadRecord at loaded named ⊢
  split at loaded
  · rename_i blob
    simp only at loaded named ⊢
    split at loaded
    · rename_i matching
      rw [if_pos matching]
      exact loaded
    · cases loaded
  · exact absurd (by decide) named
  · cases loaded

theorem settled_valid {deviceId : Option CStr} (valid : ValidDeviceId deviceId)
    (read : Except EspErr (List UInt8)) :
    gatewayMqttConfigValidate (settled deviceId .zero read) = .ok () := by
  rw [settled]
  split
  · exact defaults_valid valid
  · rename_i kept
    rw [not_or, not_not] at kept
    exact loadRecord_valid kept.1 kept.2

section

variable {faulty : Prop} {s : State} {deviceId : Option CStr}

theorem putConfig_ends {config : MqttConfig} {post : Unit → State → Prop}
    (holds : post () { s with config := config }) : Ends faulty (putConfig config) s post :=
  fun _ clear => ⟨clear, holds⟩

theorem currentConfig_ends {post : MqttConfig → State → Prop} (holds : post s.config s) :
    Ends faulty currentConfig s post :=
  fun _ clear => ⟨clear, holds⟩

theorem markInitialized_ends {post : Unit → State → Prop}
    (holds : post () { s with initialized := true }) : Ends faulty markInitialized s post :=
  fun _ clear => ⟨clear, holds⟩

theorem ask_ends {device : Device} {post : Except EspErr Unit → State → Prop}
    (fails : faulty → ∀ code, post (.error (refusal code)) s) (works : post (.ok ()) s) :
    Ends faulty (ask device) s post :=
  Ends.attempt fails works

/-- The record may go from the flash, its calls refused or not; the settings in memory are
cleared. -/
theorem discardRecord_ends (err : Except EspErr Unit) :
    Ends faulty (discardRecord err) s fun _ t =>
      t.config = if err ≠ .ok () then .zero else s.config := by
  rw [discardRecord]
  split
  · apply Ends.bind
    apply putConfig_ends
    apply Ends.bind
    refine Ends.mono (show Ends faulty nvsEraseKey _ fun _ t => t.config = .zero from ?_) ?_
    · apply Ends.attempt
      · exact fun _ _ => rfl
      · split <;> rfl
    · intro _ t cleared
      apply Ends.bind
      apply ask_ends
      · exact fun _ _ => .pure cleared
      · exact .pure cleared
  · exact .pure rfl

theorem fillDefaults_ends (err : Except EspErr Unit) :
    Ends faulty (fillDefaults deviceId err) s fun _ t =>
      t.config = if err ≠ .ok () ∨ s.config.baseTopic.text.bytes = [] then
        gatewayMqttConfigDefaults deviceId else s.config := by
  apply Ends.bind
  apply currentConfig_ends
  split
  · exact putConfig_ends rfl
  · exact .pure rfl

/-- A start ends well, with the settings of what it read. -/
theorem initRecord_ends {reads : Except EspErr (List UInt8) → Prop}
    (answers : Ends faulty nvsGetBlob s fun read t => t = s ∧ reads read) :
    Ends faulty (initRecord deviceId) s fun result t =>
      result = .ok () ∧ t.initialized = true ∧
        ∃ read, reads read ∧ t.config = settled deviceId s.config read := by
  apply Ends.bind
  refine Ends.mono answers ?_
  rintro read same ⟨rfl, answered⟩
  apply Ends.bind
  apply currentConfig_ends
  apply Ends.bind
  apply putConfig_ends
  apply Ends.bind
  refine Ends.mono (discardRecord_ends _) ?_
  intro _ t cleared
  apply Ends.bind
  refine Ends.mono (fillDefaults_ends _) ?_
  intro _ u filled
  apply Ends.bind
  apply markInitialized_ends
  refine .pure ⟨rfl, rfl, read, answered, ?_⟩
  simp only [filled, cleared, settled]
  by_cases fine : (loadRecord same.config read).2 = .ok ()
  · simp [fine]
  · simp [fine]

theorem nvsGetBlob_ends : Ends faulty nvsGetBlob s fun _ t => t = s := by
  apply Ends.attempt
  · exact fun _ _ => rfl
  · split <;> rfl

theorem nvsGetBlob_stored {blob : List UInt8} (stored : s.blob = some blob)
    (fits : blob.length ≤ recordSize) :
    Ends False nvsGetBlob s fun read t => t = s ∧ read = .ok blob := by
  apply Ends.attempt
  · exact fun impossible => absurd impossible id
  · rw [stored]
    exact ⟨rfl, if_neg (Nat.not_lt.mpr fits)⟩

end

theorem isInitialized_apply (plan : Plan Device) (s : State) :
    isInitialized (plan, s) = (s.initialized, plan, s) := rfl

theorem ask_accepted {plan : Plan Device} {device : Device} (clear : plan device 0 = none)
    (s : State) : ask device (plan, s) = (.ok (), plan.skip device 1, s) :=
  attempt_accepted _ _ _ _ _ clear

/-- The mutex, the namespace and the memory are there. -/
structure Prepared (plan : Plan Device) : Prop where
  mutex : plan .createMutex 0 = none
  flash : plan .openNamespace 0 = none
  memory : plan .allocate 0 = none

/-- What is left of the plan behind these three calls. -/
def Prepared.rest (plan : Plan Device) : Plan Device :=
  ((plan.skip .createMutex 1).skip .openNamespace 1).skip .allocate 1

theorem init_prepared {plan : Plan Device} {s : State} (prepared : Prepared plan)
    (fresh : s.initialized = false) (deviceId : Option CStr) :
    gatewaySettingsInit deviceId (plan, s) = initRecord deviceId (Prepared.rest plan, s) := by
  have flash : (plan.skip .createMutex 1) .openNamespace 0 = none := prepared.flash
  have memory : ((plan.skip .createMutex 1).skip .openNamespace 1) .allocate 0 = none :=
    prepared.memory
  simp only [gatewaySettingsInit, bind, StateT.bind, isInitialized_apply, fresh,
    ask_accepted prepared.mutex, ask_accepted flash, ask_accepted memory, Bool.false_eq_true,
    ↓reduceIte]
  rfl

/-- The gateway after a reset, with these bytes in its flash. -/
def State.boot (blob : Option (List UInt8)) : State := ⟨blob, .zero, false⟩

theorem init_valid {plan : Plan Device} {deviceId : Option CStr} (valid : ValidDeviceId deviceId)
    (prepared : Prepared plan) (blob : Option (List UInt8)) :
    ∃ later t, gatewaySettingsInit deviceId (plan, .boot blob) = (.ok (), later, t) ∧
      t.initialized = true ∧ gatewayMqttConfigValidate t.config = .ok () := by
  have answers : Ends True nvsGetBlob (.boot blob) fun _ t => t = .boot blob ∧ True :=
    Ends.mono nvsGetBlob_ends fun _ _ same => ⟨same, trivial⟩
  have ends := @initRecord_ends _ _ deviceId _ answers (Prepared.rest plan) (.inl trivial)
  rw [init_prepared prepared rfl]
  generalize initRecord deviceId (Prepared.rest plan, .boot blob) = run at ends
  obtain ⟨-, ended, marked, read, -, config⟩ := ends
  refine ⟨run.2.1, run.2.2, Prod.ext ended rfl, marked, ?_⟩
  rw [config]
  exact settled_valid valid read

/-! ## Storing -/

section

variable {faulty : Prop} {s : State} {config : MqttConfig}

theorem isInitialized_ends {post : Bool → State → Prop} (holds : post s.initialized s) :
    Ends faulty isInitialized s post :=
  fun _ clear => ⟨clear, holds⟩

theorem storeRecord_ends (config : MqttConfig) :
    Ends faulty (storeRecord config) s fun result t =>
      t.config = s.config ∧ (result = .ok () → t.blob = some (configToRecord config).bytes) := by
  apply Ends.bind
  apply Ends.attempt
  · exact fun _ _ => .pure ⟨rfl, nofun⟩
  · apply ask_ends
    · exact fun _ _ => ⟨rfl, nofun⟩
    · exact ⟨rfl, fun _ => rfl⟩

/-- A set is accepted with the record in flash and the settings in memory, or leaves the
settings in memory as they are. -/
theorem set_ends (config : MqttConfig) :
    Ends faulty (gatewaySettingsSetMqtt config) s fun result t =>
      result = .ok () ∧ gatewayMqttConfigValidate config = .ok () ∧
          t.blob = some (configToRecord config).bytes ∧ t.config = config ∨
        result ≠ .ok () ∧ t.config = s.config := by
  apply Ends.bind
  apply isInitialized_ends
  split
  · exact .pure (.inr ⟨nofun, rfl⟩)
  · cases checked : gatewayMqttConfigValidate config with
    | error e => exact .pure (.inr ⟨nofun, rfl⟩)
    | ok valid =>
        apply Ends.bind
        apply ask_ends
        · exact fun _ _ => .pure (.inr ⟨nofun, rfl⟩)
        · apply Ends.bind
          apply ask_ends
          · exact fun _ _ => .pure (.inr ⟨nofun, rfl⟩)
          · apply Ends.bind
            refine Ends.mono (storeRecord_ends config) ?_
            rintro (e | _) t ⟨kept, stored⟩
            · exact .pure (.inr ⟨nofun, kept⟩)
            · apply Ends.bind
              apply putConfig_ends
              exact .pure (.inl ⟨rfl, rfl, stored rfl, rfl⟩)

end

theorem set_stored {plan : Plan Device} {s : State} {config : MqttConfig}
    (accepted : (gatewaySettingsSetMqtt config (plan, s)).1 = .ok ()) :
    gatewayMqttConfigValidate config = .ok () ∧
      (gatewaySettingsSetMqtt config (plan, s)).2.2.blob = some (configToRecord config).bytes := by
  obtain ⟨-, ⟨-, checked, stored, -⟩ | ⟨refused, -⟩⟩ := @set_ends True s config plan (.inl trivial)
  · exact ⟨checked, stored⟩
  · exact absurd accepted refused

/-! ## Coming back -/

/-- The same switches and the same strings. -/
structure MqttConfig.Same (a b : MqttConfig) : Prop where
  enabled : a.enabled = b.enabled
  brokerUri : a.brokerUri.text = b.brokerUri.text
  username : a.username.text = b.username.text
  password : a.password.text = b.password.text
  baseTopic : a.baseTopic.text = b.baseTopic.text
  homeAssistantEnabled : a.homeAssistantEnabled = b.homeAssistantEnabled
  discoveryPrefix : a.discoveryPrefix.text = b.discoveryPrefix.text
  defaultRecipient : a.defaultRecipient.text = b.defaultRecipient.text
  caPem : a.caPem.text = b.caPem.text

/-- This holds of each of the seven arrays. -/
structure MqttConfig.Every (holds : ∀ {size : Nat}, CharField size → Prop) (config : MqttConfig) :
    Prop where
  brokerUri : holds config.brokerUri
  username : holds config.username
  password : holds config.password
  baseTopic : holds config.baseTopic
  discoveryPrefix : holds config.discoveryPrefix
  defaultRecipient : holds config.defaultRecipient
  caPem : holds config.caPem

theorem MqttConfig.Same.validate {a b : MqttConfig} (same : a.Same b) :
    gatewayMqttConfigValidate a = gatewayMqttConfigValidate b := by
  simp only [gatewayMqttConfigValidate, brokerValid, same.enabled, same.brokerUri, same.baseTopic,
    same.discoveryPrefix, same.defaultRecipient, same.caPem]

theorem MqttConfig.terminated_same {config : MqttConfig}
    (strings : config.Every CharField.Terminated) : config.terminated.Same config where
  enabled := rfl
  brokerUri := CharField.text_terminate strings.brokerUri
  username := CharField.text_terminate strings.username
  password := CharField.text_terminate strings.password
  baseTopic := CharField.text_terminate strings.baseTopic
  homeAssistantEnabled := rfl
  discoveryPrefix := CharField.text_terminate strings.discoveryPrefix
  defaultRecipient := CharField.text_terminate strings.defaultRecipient
  caPem := CharField.text_terminate strings.caPem

theorem MqttConfig.terminated_self {config : MqttConfig}
    (zeroed : config.Every fun field => field.bytes.getLast? = some 0) :
    config.terminated = config := by
  simp only [MqttConfig.terminated, CharField.terminate_self zeroed.brokerUri,
    CharField.terminate_self zeroed.username, CharField.terminate_self zeroed.password,
    CharField.terminate_self zeroed.baseTopic, CharField.terminate_self zeroed.discoveryPrefix,
    CharField.terminate_self zeroed.defaultRecipient, CharField.terminate_self zeroed.caPem]

theorem baseTopic_of_valid {config : MqttConfig} (valid : gatewayMqttConfigValidate config = .ok ()) :
    config.baseTopic.text.bytes ≠ [] := by
  intro empty
  have refused : topicValid config.baseTopic.text 128 = false := by
    rw [topicValid, if_pos (.inl (by rw [CStr.length, empty]; rfl))]
  rw [gatewayMqttConfigValidate, refused] at valid
  cases valid

/-- What a start makes of an accepted record: the settings, terminated. -/
theorem settled_record (deviceId : Option CStr) (current : MqttConfig) {config : MqttConfig}
    (valid : gatewayMqttConfigValidate config.terminated = .ok ()) :
    settled deviceId current (.ok (configToRecord config).bytes) = config.terminated := by
  have matching : (configToRecord config).bytes.length = recordSize ∧
      (configToRecord config).magic = settingsMagic ∧
      (configToRecord config).version = settingsVersion :=
    ⟨(configToRecord config).bytes_length, rfl, rfl⟩
  have loaded : loadRecord current (.ok (configToRecord config).bytes) =
      (config.terminated, .ok ()) := by
    simp only [loadRecord, MqttRecord.ofBytes_bytes, recordToConfig_configToRecord]
    rw [if_pos matching, valid]
  rw [settled, loaded, if_neg]
  rintro (failed | unnamed)
  · exact failed rfl
  · exact baseTopic_of_valid valid unnamed

theorem faultless_prepared :
    Prepared (.faultless : Plan Device) ∧ Prepared.rest .faultless = .faultless :=
  ⟨⟨rfl, rfl, rfl⟩, by simp only [Prepared.rest, Plan.skip_faultless]⟩

theorem get_faultless {s : State} (marked : s.initialized = true) :
    (gatewaySettingsGetMqtt (.faultless, s)).1 = .ok s.config := by
  simp only [gatewaySettingsGetMqtt, bind, StateT.bind, isInitialized_apply, marked]
  rfl

/-- A reset behind an accepted set: the start reads the record and the settings are there. -/
theorem boot_record (deviceId : Option CStr) {config : MqttConfig}
    (valid : gatewayMqttConfigValidate config.terminated = .ok ()) :
    ∃ device, gatewaySettingsInit deviceId
        (.faultless, .boot (some (configToRecord config).bytes)) = (.ok (), device) ∧
      (gatewaySettingsGetMqtt device).1 = .ok config.terminated := by
  have fits : (configToRecord config).bytes.length ≤ recordSize :=
    Nat.le_of_eq (configToRecord config).bytes_length
  have answers := @nvsGetBlob_stored (.boot (some (configToRecord config).bytes)) _ rfl fits
  have ends := @initRecord_ends _ _ deviceId _ answers .faultless (.inr rfl)
  rw [init_prepared faultless_prepared.1 rfl, faultless_prepared.2]
  generalize initRecord deviceId (.faultless, .boot (some (configToRecord config).bytes)) = run
    at ends
  obtain ⟨clear, ended, marked, _, rfl, loaded⟩ := ends
  have plan : run.2.1 = .faultless := clear.resolve_left id
  refine ⟨run.2, Prod.ext ended rfl, ?_⟩
  have got := get_faultless marked
  rw [← plan] at got
  rw [← settled_record deviceId .zero valid]
  exact got.trans (congrArg Except.ok loaded)

theorem set_faultless {s : State} {config : MqttConfig} (marked : s.initialized = true)
    (checked : gatewayMqttConfigValidate config = .ok ()) :
    (gatewaySettingsSetMqtt config (.faultless, s)).1 = .ok () := by
  simp only [gatewaySettingsSetMqtt, bind, StateT.bind, isInitialized_apply, marked, checked]
  rfl

/-! ## The ids of the gateway -/

def hexDigit (digit : Nat) : UInt8 := UInt8.ofNat (if digit < 10 then 0x30 + digit else 0x57 + digit)

/-- `%02x`. -/
def hexByte (byte : UInt8) : List UInt8 := [hexDigit (byte.toNat / 16), hexDigit (byte.toNat % 16)]

/-- The id that `build_identity` makes of the last three bytes of the MAC address. -/
def deviceIdOf (mac3 mac4 mac5 : UInt8) : CStr :=
  .ofBytes ((CStr.text "smsgw-").bytes ++ (hexByte mac3 ++ (hexByte mac4 ++ hexByte mac5)))

theorem hexByte_level (byte : UInt8) : (hexByte byte).all levelChar = true :=
  forall_octet (P := fun byte => (hexByte byte).all levelChar = true) (by decide +kernel) byte

theorem deviceIdOf_valid (mac3 mac4 mac5 : UInt8) :
    ValidDeviceId (some (deviceIdOf mac3 mac4 mac5)) := by
  rintro id ⟨⟩
  rw [List.all_eq_true]
  intro ch member
  have inside := List.takeWhile_sublist _ |>.subset member
  have all : ((CStr.text "smsgw-").bytes ++ (hexByte mac3 ++ (hexByte mac4 ++ hexByte mac5))).all
      levelChar = true := by
    simp only [List.all_append, hexByte_level, Bool.and_true]
    decide
  exact List.all_eq_true.mp all ch inside

/-! ## Survival -/

/-- Whatever bytes the flash holds and whatever `nvs_get_blob` answers, the gateway starts
with valid settings; settings whose strings are terminated come back behind a reset once
they were accepted, byte by byte when their arrays end in zeros; and a refused set changes
nothing in memory. -/
theorem settings_survive {deviceId : Option CStr} (valid : ValidDeviceId deviceId) :
    (∀ (plan : Plan Device) (blob : Option (List UInt8)), Prepared plan →
      ∃ later t, gatewaySettingsInit deviceId (plan, .boot blob) = (.ok (), later, t) ∧
        t.initialized = true ∧ gatewayMqttConfigValidate t.config = .ok ()) ∧
    (∀ (plan : Plan Device) (s : State) (config : MqttConfig) (later : Plan Device) (t : State),
      config.Every CharField.Terminated →
      gatewaySettingsSetMqtt config (plan, s) = (.ok (), later, t) →
      ∃ device out, gatewaySettingsInit deviceId (.faultless, .boot t.blob) = (.ok (), device) ∧
        (gatewaySettingsGetMqtt device).1 = .ok out ∧ out.Same config ∧
        (config.Every (fun field => field.bytes.getLast? = some 0) → out = config)) ∧
    (∀ (plan : Plan Device) (s : State) (config : MqttConfig) (e : EspErr) (later : Plan Device)
      (t : State), gatewaySettingsSetMqtt config (plan, s) = (.error e, later, t) →
      t.config = s.config) := by
  refine ⟨fun plan blob prepared => init_valid valid prepared blob, ?_, ?_⟩
  · intro plan s config later t strings accepted
    obtain ⟨checked, stored⟩ := set_stored (congrArg Prod.fst accepted)
    have same := MqttConfig.terminated_same strings
    obtain ⟨device, started, got⟩ := boot_record deviceId (same.validate.trans checked)
    rw [accepted] at stored
    refine ⟨device, config.terminated, ?_, got, same, MqttConfig.terminated_self⟩
    rw [show t.blob = some (configToRecord config).bytes from stored]
    exact started
  · intro plan s config e later t refused
    obtain ⟨-, outcome⟩ := @set_ends True s config plan (.inl trivial)
    rw [refused] at outcome
    rcases outcome with ⟨accepted, -⟩ | ⟨-, kept⟩
    · cases accepted
    · exact kept

theorem CharField.ofBytes_terminated {size : Nat} {bytes : List UInt8}
    (short : bytes.length < size) : (CharField.ofBytes bytes : CharField size).Terminated := by
  have more : size - (bytes.take size).length ≠ 0 := by
    rw [List.length_take]
    omega
  exact List.mem_append_right _ (List.mem_replicate.mpr ⟨more, rfl⟩)

theorem CharField.print_terminated {size : Nat} (source : CStr) (positive : 0 < size) :
    (CharField.print source : CharField size).Terminated := by
  apply CharField.ofBytes_terminated
  simp only [CStr.truncate, List.length_take]
  omega

/-- A broker behind TLS, with an authority of its own. -/
def brokerConfig : MqttConfig :=
  { gatewayMqttConfigDefaults (some (deviceIdOf 0xA1 0xB2 0xC3)) with
    enabled := true
    brokerUri := .print (.text "mqtts://broker.local:8883")
    username := .print (.text "gateway")
    password := .print (.text "secret")
    defaultRecipient := .print (.text "+4512345678")
    caPem := .print (.text "-----BEGIN CERTIFICATE-----MIIB-----END CERTIFICATE-----") }

theorem brokerConfig_strings : brokerConfig.Every CharField.Terminated := by
  constructor <;> exact CharField.print_terminated _ (by decide)

/-- A gateway that has started with the settings of a fresh device. -/
def fresh : State := ⟨none, gatewayMqttConfigDefaults (some (deviceIdOf 0xA1 0xB2 0xC3)), true⟩

theorem settings_survive_broker :
    ValidDeviceId (some (deviceIdOf 0xA1 0xB2 0xC3)) ∧
    (∃ later t, gatewaySettingsInit (some (deviceIdOf 0xA1 0xB2 0xC3))
        (.faultless, .boot (some (List.replicate 3808 0xFF))) = (.ok (), later, t) ∧
      t.initialized = true ∧ gatewayMqttConfigValidate t.config = .ok ()) ∧
    (∃ device out, gatewaySettingsInit (some (deviceIdOf 0xA1 0xB2 0xC3))
        (.faultless, .boot (gatewaySettingsSetMqtt brokerConfig (.faultless, fresh)).2.2.blob) =
          (.ok (), device) ∧
      (gatewaySettingsGetMqtt device).1 = .ok out ∧ out = brokerConfig) ∧
    ∃ e later t, gatewaySettingsSetMqtt { brokerConfig with brokerUri := .zero }
      (.faultless, fresh) = (.error e, later, t) ∧ t.config = fresh.config := by
  have valid := deviceIdOf_valid 0xA1 0xB2 0xC3
  have checked : gatewayMqttConfigValidate brokerConfig = .ok () := by decide +kernel
  have accepted := @set_faultless fresh _ rfl checked
  obtain ⟨anyFlash, survives, refusal⟩ := settings_survive valid
  obtain ⟨device, out, booted, got, -, same⟩ :=
    survives .faultless fresh brokerConfig _ _ brokerConfig_strings (Prod.ext accepted rfl)
  refine ⟨valid, anyFlash .faultless _ faultless_prepared.1, ⟨device, out, booted, got, ?_⟩, ?_⟩
  · apply same
    constructor <;> decide +kernel
  · have refused : gatewayMqttConfigValidate { brokerConfig with brokerUri := .zero } =
        .error .invalidArg := by decide +kernel
    have run : (gatewaySettingsSetMqtt { brokerConfig with brokerUri := .zero }
        (.faultless, fresh)).1 = .error .invalidArg := by
      simp only [gatewaySettingsSetMqtt, bind, StateT.bind, isInitialized_apply, refused]
      rfl
    exact ⟨_, _, _, Prod.ext run rfl, refusal .faultless fresh _ _ _ _ (Prod.ext run rfl)⟩

/-- Settings of the portal: disabled, with a topic of their own. -/
def plainConfig : MqttConfig :=
  { MqttConfig.zero with
    baseTopic := .ofBytes [0x61]
    discoveryPrefix := .ofBytes [0x62] }

/-- The same with a user name that fills its array. -/
def unterminatedUser : MqttConfig := { plainConfig with username := ⟨List.replicate 96 0x61, rfl⟩ }

/-- A gateway that has started with these settings. -/
def started : State := ⟨none, plainConfig, true⟩

/-- The last byte of the name is lost behind a reset. -/
theorem unterminated_user_cut :
    (gatewaySettingsSetMqtt unterminatedUser (.faultless, started)).1 = .ok () ∧
    ∃ device out, gatewaySettingsInit (some (deviceIdOf 0xA1 0xB2 0xC3))
        (.faultless,
          .boot (gatewaySettingsSetMqtt unterminatedUser (.faultless, started)).2.2.blob) =
        (.ok (), device) ∧
      (gatewaySettingsGetMqtt device).1 = .ok out ∧ ¬ out.Same unterminatedUser := by
  have checked : gatewayMqttConfigValidate unterminatedUser = .ok () := by decide +kernel
  have accepted := @set_faultless started _ rfl checked
  have kept : gatewayMqttConfigValidate unterminatedUser.terminated = .ok () := by decide +kernel
  obtain ⟨device, booted, got⟩ := boot_record (some (deviceIdOf 0xA1 0xB2 0xC3)) kept
  have stored := (set_stored accepted).2
  refine ⟨accepted, device, unterminatedUser.terminated, by rw [stored]; exact booted, got, ?_⟩
  intro same
  exact absurd same.username (by decide +kernel)

end SmsGateway.Settings
