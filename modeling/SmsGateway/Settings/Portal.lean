import SmsGateway.At.Protocol
import SmsGateway.Lib.Decimal
import SmsGateway.Ota.Version
import SmsGateway.Settings.Config

/-! The MQTT part of the setup form (`provisioning_portal.c`): what the page shows of the
settings, and what saving the form makes of them. -/

namespace SmsGateway.Settings

open Lib

/-! ## Arrays -/

/-- `snprintf(field, sizeof(field), "%s", source)`; the bytes behind the terminator stay. -/
def CharField.overwrite {size : Nat} (field : CharField size) (source : CStr) : CharField size :=
  let front := (source.truncate (size - 1)).bytes ++ [0]
  ⟨(front ++ field.bytes.drop front.length).take size, by
    have sized := field.sized
    simp only [List.length_take, List.length_append, List.length_drop]
    omega⟩

/-- `field[0] = '\0'`. -/
def CharField.clear {size : Nat} (field : CharField size) : CharField size :=
  ⟨field.bytes.set 0 0, by rw [List.length_set, field.sized]⟩

/-! ## The broker's address -/

def portalHostMax : Nat := 200

def colon : UInt8 := 0x3A

/-- `strstr`: the text from the first place where the needle stands. -/
def strstr (needle : List UInt8) : List UInt8 → Option (List UInt8)
  | [] => if needle = [] then some [] else none
  | ch :: rest =>
      if needle.isPrefixOf (ch :: rest) then some (ch :: rest) else strstr needle rest

/-- `strrchr`: what stands in front of the last such byte, and behind it. -/
def strrchr (ch : UInt8) (text : List UInt8) : Option (List UInt8 × List UInt8) :=
  match text.reverse.dropWhile (· ≠ ch) with
  | [] => none
  | _ :: front => some (front.reverse, (text.reverse.takeWhile (· ≠ ch)).reverse)

def atoi (text : List UInt8) : Int := ((At.strtol text).map Prod.fst).getD 0

/-- The host, the port and whether it is TLS. -/
structure Broker where
  host : CStr
  port : Int
  tls : Bool
  deriving DecidableEq

def defaultPort (tls : Bool) : Int := if tls then 8883 else 1883

def splitBrokerUri (uri : CStr) (hostSize : Nat) : Broker :=
  let tls := gatewayMqttUriIsTls uri
  match strstr (CStr.text "://").bytes uri.bytes with
  | none => ⟨.empty, defaultPort tls, tls⟩
  | some found =>
      let start := found.drop 3
      match strrchr colon start with
      | some (front, port) => ⟨.ofBytes (front.take (hostSize - 1)), atoi port, tls⟩
      | none =>
          ⟨.ofBytes ((start.takeWhile (· ≠ slash)).take (hostSize - 1)), defaultPort tls, tls⟩

def hostChar (ch : UInt8) : Bool := Ota.isAlnum ch || ch = 0x2E || ch = 0x2D || ch = 0x5F

def hostValid (host : CStr) : Bool :=
  decide (0 < host.length) && decide (host.length ≤ portalHostMax) && host.bytes.all hostChar

/-- `%d`. -/
def printInt (value : Int) : List UInt8 :=
  if value < 0 then 0x2D :: decimalText value.natAbs else decimalText value.natAbs

/-- `%s://%s:%d`. -/
def Broker.uri (broker : Broker) : CStr :=
  (if broker.tls then CStr.text "mqtts" else .text "mqtt") ++ .text "://" ++ broker.host ++
    .text ":" ++ .ofBytes (printInt broker.port)

/-! ## The form -/

/-- A member of the JSON object, as far as the form looks at it. -/
inductive Item where
  | string (valuestring : CStr)
  | number (valueint : Int)
  | bool (value : Bool)
  | null
  | other
  deriving DecidableEq

/-- The members that the MQTT part of the form looks for. -/
structure MqttForm where
  mqttHost : Option Item
  mqttUsername : Option Item
  mqttPassword : Option Item
  defaultRecipient : Option Item
  mqttPort : Option Item
  mqttTls : Option Item
  homeAssistant : Option Item

/-- `json_string`; nothing when it clears `valid`. -/
def jsonString (item : Option Item) (maxLen : Nat) : Option CStr :=
  match item with
  | none | some .null => some .empty
  | some (.string value) => if maxLen < value.length then none else some value
  | some _ => none

def isTrue (item : Option Item) : Bool := item = some (.bool true)

def formPort (form : MqttForm) : Int :=
  match form.mqttPort with
  | some (.number value) => value
  | _ => defaultPort (isTrue form.mqttTls)

/-- The texts that `apply_mqtt_form` returns. -/
inductive FormError where
  | tooLong
  | host
  | port
  deriving DecidableEq, Repr

def FormError.text : FormError → String
  | .tooLong => "MQTT field too long"
  | .host => "MQTT broker host may only contain letters, digits, '.', '-' and '_'"
  | .port => "MQTT port must be 1-65535"

/-- The strings of the form. -/
structure MqttStrings where
  host : CStr
  username : CStr
  password : CStr
  recipient : CStr

def MqttForm.strings (form : MqttForm) : Option MqttStrings := do
  let host ← jsonString form.mqttHost portalHostMax
  let username ← jsonString form.mqttUsername 95
  let password ← jsonString form.mqttPassword 159
  let recipient ← jsonString form.defaultRecipient 23
  pure ⟨host, username, password, recipient⟩

/-- The recipient and discovery, which are kept whatever the broker is. -/
def applyRecipient (form : MqttForm) (recipient : CStr) (config : MqttConfig) : MqttConfig :=
  { config with
    defaultRecipient := config.defaultRecipient.overwrite recipient
    homeAssistantEnabled :=
      if form.homeAssistant ≠ none then isTrue form.homeAssistant else config.homeAssistantEnabled }

/-- The settings of a broker. An empty password keeps the saved one for the same host. -/
def applyBroker (broker : Broker) (username password : CStr) (config : MqttConfig) : MqttConfig :=
  let previous := splitBrokerUri config.brokerUri.text (portalHostMax + 1)
  let sameBroker := config.enabled ∧ previous.host = broker.host
  { config with
    brokerUri := config.brokerUri.overwrite broker.uri
    username := config.username.overwrite username
    password :=
      if password.bytes ≠ [] then config.password.overwrite password
      else if ¬sameBroker then config.password.clear else config.password
    caPem := if !broker.tls then config.caPem.clear else config.caPem
    enabled := true }

/-- `apply_mqtt_form`: the settings, and nothing or its error. -/
def applyMqttForm (form : MqttForm) (config : MqttConfig) : Option FormError × MqttConfig :=
  match form.strings with
  | none => (some .tooLong, config)
  | some strings =>
      let config := applyRecipient form strings.recipient config
      if strings.host.bytes = [] then (none, { config with enabled := false })
      else if !hostValid strings.host then (some .host, config)
      else
        let broker : Broker := ⟨strings.host, formPort form, isTrue form.mqttTls⟩
        if broker.port < 1 ∨ 65535 < broker.port then (some .port, config)
        else (none, applyBroker broker strings.username strings.password config)

/-- The MQTT part of `setup_handler`: the settings that are stored, or why they are not. -/
inductive Saved where
  | stored (config : MqttConfig)
  | refused (error : FormError)
  | invalid
  deriving DecidableEq

def saveMqttForm (form : MqttForm) (config : MqttConfig) : Saved :=
  match applyMqttForm form config with
  | (some error, _) => .refused error
  | (none, next) =>
      if gatewayMqttConfigValidate next ≠ .ok () then .invalid else .stored next

/-! ## The page -/

/-- The form as `info_handler` fills it in, with the password left empty. -/
def shownForm (config : MqttConfig) : MqttForm :=
  let broker := splitBrokerUri config.brokerUri.text (portalHostMax + 1)
  { mqttHost := some (.string (if config.enabled then broker.host else .empty))
    mqttUsername := some (.string config.username.text)
    mqttPassword := some (.string .empty)
    defaultRecipient := some (.string config.defaultRecipient.text)
    mqttPort := some (.number broker.port)
    mqttTls := some (.bool broker.tls)
    homeAssistant := some (.bool config.homeAssistantEnabled) }

end SmsGateway.Settings
