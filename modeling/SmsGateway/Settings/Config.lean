import Mathlib.Data.UInt
import Mathlib.Data.List.Infix
import SmsGateway.Base
import SmsGateway.Lib.Memory

/-! The MQTT settings (`mqtt_config.c`) and the record they are stored as
(`record_to_config` and `config_to_record` of `gateway_settings.c`). -/

namespace SmsGateway.Settings

open Lib

/-- A `char` array with all of its bytes, also those behind a terminator. -/
structure CharField (size : Nat) where
  bytes : List UInt8
  sized : bytes.length = size
  deriving DecidableEq

namespace CharField

variable {size : Nat}

@[ext] theorem ext {a b : CharField size} (same : a.bytes = b.bytes) : a = b := by
  cases a
  cases b
  simp_all

/-- A zeroed array with these bytes in front, as far as they fit. -/
def ofBytes (bytes : List UInt8) : CharField size :=
  ⟨padded size (bytes.take size), padded_length (List.length_take_le _ _)⟩

def zero : CharField size := ofBytes []

/-- The string in the array; without a terminator it is all the bytes, where C reads on
behind the array. -/
def text (field : CharField size) : CStr := .ofBytes field.bytes

def Terminated (field : CharField size) : Prop := 0 ∈ field.bytes

/-- `field[sizeof(field) - 1] = 0`. -/
def terminate (field : CharField size) : CharField size :=
  ⟨field.bytes.set (size - 1) 0, by rw [List.length_set, field.sized]⟩

/-- `snprintf(field, sizeof(field), "%s", source)` into a zeroed array. -/
def print (source : CStr) : CharField size := ofBytes (source.truncate (size - 1)).bytes

end CharField

/-- `gateway_mqtt_config_t`. -/
structure MqttConfig where
  enabled : Bool
  brokerUri : CharField 256
  username : CharField 96
  password : CharField 160
  baseTopic : CharField 128
  homeAssistantEnabled : Bool
  discoveryPrefix : CharField 64
  defaultRecipient : CharField 24
  caPem : CharField 3072
  deriving DecidableEq

def MqttConfig.zero : MqttConfig :=
  ⟨false, .zero, .zero, .zero, .zero, false, .zero, .zero, .zero⟩

/-! ## Validation -/

def plus : UInt8 := 0x2B

def slash : UInt8 := 0x2F

def hash : UInt8 := 0x23

/-- The loop of `e164_valid`: how many digits there are, unless it refuses them. -/
def e164Loop (digits : Nat) : List UInt8 → Option Nat
  | [] => some digits
  | ch :: rest =>
      if ch < 0x30 ∨ ch > 0x39 ∨ digits = 0 ∧ ch = 0x30 then none
      else if digits + 1 > 15 then none
      else e164Loop (digits + 1) rest

def e164Valid (value : CStr) : Bool :=
  match value.bytes with
  | [] => false
  | ch :: rest => ch == plus && (e164Loop 0 rest).any (· ≥ 2)

def topicChar (ch : UInt8) : Bool := !(ch < 0x21 || ch > 0x7E || ch == hash || ch == plus)

def topicValid (value : CStr) (maxLen : Nat) : Bool :=
  if value.length = 0 ∨ value.length ≥ maxLen ∨ value.bytes.head? = some slash ∨
      value.bytes.getLast? = some slash then false
  else value.bytes.all topicChar

def gatewayMqttUriIsTls (uri : CStr) : Bool := uri.startsWith (.text "mqtts://")

/-- The part of the validation that an enabled client needs. -/
def brokerValid (config : MqttConfig) : Except EspErr Unit :=
  let uri := config.brokerUri.text
  let mqtt := uri.startsWith (.text "mqtt://")
  let mqtts := gatewayMqttUriIsTls uri
  if (!mqtt && !mqtts) || uri.bytes.contains 0x40 || uri.bytes.contains 0x20 then .error .invalidArg
  else
    let host := uri.bytes.drop (if mqtts then 8 else 7)
    if host = [] ∨ host.head? = some slash then .error .invalidArg
    else if !mqtts ∧ config.caPem.text.bytes ≠ [] then .error .invalidArg
    else if config.caPem.text.bytes ≠ [] ∧
        ¬ (CStr.text "-----BEGIN CERTIFICATE-----").bytes <:+: config.caPem.text.bytes then
      .error .invalidArg
    else .ok ()

def gatewayMqttConfigValidate (config : MqttConfig) : Except EspErr Unit :=
  if !topicValid config.baseTopic.text 128 ∨ !topicValid config.discoveryPrefix.text 64 then
    .error .invalidArg
  else if config.defaultRecipient.text.bytes ≠ [] ∧ !e164Valid config.defaultRecipient.text then
    .error .invalidArg
  else if !config.enabled then .ok ()
  else brokerValid config

/-- The last level of the topic of a fresh device: its id, or `gateway`. `none` is the null
pointer. -/
def deviceLevel : Option CStr → CStr
  | some id => if id.bytes ≠ [] then id else .text "gateway"
  | none => .text "gateway"

def gatewayMqttConfigDefaults (deviceId : Option CStr) : MqttConfig :=
  { MqttConfig.zero with
    homeAssistantEnabled := true
    baseTopic := .print (.text "sms-gateway/" ++ deviceLevel deviceId)
    discoveryPrefix := .print (.text "homeassistant") }

/-! ## The record -/

/-- `mqtt_record_t`. -/
structure MqttRecord where
  magic : UInt32
  version : UInt16
  enabled : UInt8
  haEnabled : UInt8
  brokerUri : CharField 256
  username : CharField 96
  password : CharField 160
  baseTopic : CharField 128
  discoveryPrefix : CharField 64
  defaultRecipient : CharField 24
  caPem : CharField 3072
  deriving DecidableEq

def settingsMagic : UInt32 := 0x4d515454

def settingsVersion : UInt16 := 1

/-- `sizeof(mqtt_record_t)`: the structure is packed. -/
def recordSize : Nat := 3808

/-- Little endian, as the target stores it. -/
def readWord (bytes : List UInt8) (offset count : Nat) : Nat :=
  ((bytes.drop offset).take count).foldr (fun byte value => byte.toNat + 256 * value) 0

def wordBytes (value : Nat) : Nat → List UInt8
  | 0 => []
  | count + 1 => UInt8.ofNat (value % 256) :: wordBytes (value / 256) count

/-- The bytes of a stored blob, read into a zeroed record. -/
def MqttRecord.ofBytes (blob : List UInt8) : MqttRecord where
  magic := UInt32.ofNat (readWord blob 0 4)
  version := UInt16.ofNat (readWord blob 4 2)
  enabled := blob.getD 6 0
  haEnabled := blob.getD 7 0
  brokerUri := .ofBytes (blob.drop 8)
  username := .ofBytes (blob.drop 264)
  password := .ofBytes (blob.drop 360)
  baseTopic := .ofBytes (blob.drop 520)
  discoveryPrefix := .ofBytes (blob.drop 648)
  defaultRecipient := .ofBytes (blob.drop 712)
  caPem := .ofBytes (blob.drop 736)

def MqttRecord.header (record : MqttRecord) : List UInt8 :=
  wordBytes record.magic.toNat 4 ++ (wordBytes record.version.toNat 2 ++
    [record.enabled, record.haEnabled])

def MqttRecord.bytes (record : MqttRecord) : List UInt8 :=
  record.header ++ (record.brokerUri.bytes ++ (record.username.bytes ++ (record.password.bytes ++
    (record.baseTopic.bytes ++ (record.discoveryPrefix.bytes ++ (record.defaultRecipient.bytes ++
      record.caPem.bytes))))))

def recordToConfig (r : MqttRecord) : MqttConfig where
  enabled := r.enabled ≠ 0
  brokerUri := r.brokerUri.terminate
  username := r.username.terminate
  password := r.password.terminate
  baseTopic := r.baseTopic.terminate
  homeAssistantEnabled := r.haEnabled ≠ 0
  discoveryPrefix := r.discoveryPrefix.terminate
  defaultRecipient := r.defaultRecipient.terminate
  caPem := r.caPem.terminate

def configToRecord (c : MqttConfig) : MqttRecord where
  magic := settingsMagic
  version := settingsVersion
  enabled := if c.enabled then 1 else 0
  haEnabled := if c.homeAssistantEnabled then 1 else 0
  brokerUri := c.brokerUri
  username := c.username
  password := c.password
  baseTopic := c.baseTopic
  discoveryPrefix := c.discoveryPrefix
  defaultRecipient := c.defaultRecipient
  caPem := c.caPem

/-! ## What a record brings back -/

section

variable {size : Nat} {field : CharField size}

theorem CharField.ofBytes_append (field : CharField size) (rest : List UInt8) :
    CharField.ofBytes (field.bytes ++ rest) = field := by
  apply CharField.ext
  have front : (field.bytes ++ rest).take size = field.bytes := by
    rw [List.take_append_of_le_length (Nat.le_of_eq field.sized.symm)]
    exact List.take_of_length_le (Nat.le_of_eq field.sized)
  simp [CharField.ofBytes, front, padded, field.sized]

theorem CharField.ofBytes_self (field : CharField size) : CharField.ofBytes field.bytes = field := by
  have whole := field.ofBytes_append []
  rwa [List.append_nil] at whole

theorem takeWhile_set_last {bytes : List UInt8} (terminated : 0 ∈ bytes) :
    (bytes.set (bytes.length - 1) 0).takeWhile (· ≠ 0) = bytes.takeWhile (· ≠ 0) := by
  induction bytes with
  | nil => rfl
  | cons byte rest ih =>
      by_cases stop : byte = 0
      · cases rest with
        | nil => simp [stop]
        | cons next rest => simp [stop]
      · have later : 0 ∈ rest := by
          rcases List.mem_cons.mp terminated with here | inRest
          · exact absurd here.symm stop
          · exact inRest
        have nonempty := List.length_pos_of_mem later
        have last : (byte :: rest).length - 1 = rest.length - 1 + 1 := by
          rw [List.length_cons]
          omega
        rw [last, List.set_cons_succ, List.takeWhile_cons, List.takeWhile_cons, ih later]

/-- Setting the last byte to zero cuts no terminated string. -/
theorem CharField.text_terminate (terminated : field.Terminated) :
    field.terminate.text = field.text := by
  apply CStr.ext
  have cut := takeWhile_set_last terminated
  rw [field.sized] at cut
  exact cut

theorem CharField.terminate_self (zeroed : field.bytes.getLast? = some 0) :
    field.terminate = field := by
  apply CharField.ext
  rw [List.getLast?_eq_getElem?, field.sized] at zeroed
  obtain ⟨inside, zero⟩ := List.getElem?_eq_some_iff.mp zeroed
  simp only [CharField.terminate, ← zero]
  exact List.set_getElem_self inside

end

theorem wordBytes_length (value count : Nat) : (wordBytes value count).length = count := by
  induction count generalizing value with
  | zero => rfl
  | succ count ih => rw [wordBytes, List.length_cons, ih]

theorem foldr_wordBytes {value count : Nat} (small : value < 256 ^ count) :
    (wordBytes value count).foldr (fun byte value => byte.toNat + 256 * value) 0 = value := by
  induction count generalizing value with
  | zero =>
      rw [Nat.pow_zero] at small
      simp only [wordBytes, List.foldr_nil]
      omega
  | succ count ih =>
      rw [Nat.pow_succ] at small
      have low : (UInt8.ofNat (value % 256)).toNat = value % 256 :=
        UInt8.toNat_ofNat_of_lt' (Nat.mod_lt _ (by decide))
      rw [wordBytes, List.foldr_cons, ih (by omega), low]
      omega

theorem readWord_wordBytes (front rest : List UInt8) {value count : Nat}
    (small : value < 256 ^ count) :
    readWord (front ++ (wordBytes value count ++ rest)) front.length count = value := by
  have word : (wordBytes value count ++ rest).take count = wordBytes value count := by
    rw [List.take_append_of_le_length (Nat.le_of_eq (wordBytes_length value count).symm)]
    exact List.take_of_length_le (Nat.le_of_eq (wordBytes_length value count))
  rw [readWord, List.drop_left, word, foldr_wordBytes small]

theorem MqttRecord.header_length (record : MqttRecord) : record.header.length = 8 := by
  rw [header, List.length_append, List.length_append, wordBytes_length, wordBytes_length]
  rfl

theorem MqttRecord.bytes_length (record : MqttRecord) : record.bytes.length = recordSize := by
  simp only [bytes, List.length_append, header_length, CharField.sized]
  rfl

/-- Behind a field of known size. -/
theorem drop_field {size offset : Nat} {blob rest : List UInt8} {field : CharField size}
    (here : blob.drop offset = field.bytes ++ rest) : blob.drop (offset + size) = rest := by
  rw [← List.drop_drop, here]
  exact List.drop_left' field.sized

theorem MqttRecord.ofBytes_bytes (record : MqttRecord) :
    MqttRecord.ofBytes record.bytes = record := by
  have magic : readWord record.bytes 0 4 = record.magic.toNat := by
    rw [bytes, header, List.append_assoc]
    exact readWord_wordBytes [] _ record.magic.toNat_lt
  have version : readWord record.bytes 4 2 = record.version.toNat := by
    have read := fun rest => @readWord_wordBytes (wordBytes record.magic.toNat 4) rest
      record.version.toNat 2 record.version.toNat_lt
    simp only [wordBytes_length] at read
    rw [bytes, header, List.append_assoc, List.append_assoc]
    exact read _
  have flags : record.bytes.getD 6 0 = record.enabled ∧ record.bytes.getD 7 0 = record.haEnabled :=
    ⟨rfl, rfl⟩
  have brokerUri : record.bytes.drop 8 = record.brokerUri.bytes ++ _ :=
    List.drop_left' record.header_length
  have username : record.bytes.drop 264 = record.username.bytes ++ _ := drop_field brokerUri
  have password : record.bytes.drop 360 = record.password.bytes ++ _ := drop_field username
  have baseTopic : record.bytes.drop 520 = record.baseTopic.bytes ++ _ := drop_field password
  have discoveryPrefix : record.bytes.drop 648 = record.discoveryPrefix.bytes ++ _ :=
    drop_field baseTopic
  have defaultRecipient : record.bytes.drop 712 = record.defaultRecipient.bytes ++ _ :=
    drop_field discoveryPrefix
  have caPem : record.bytes.drop 736 = record.caPem.bytes := drop_field defaultRecipient
  simp only [ofBytes, magic, version, flags, brokerUri, username, password, baseTopic,
    discoveryPrefix, defaultRecipient, caPem, CharField.ofBytes_append, CharField.ofBytes_self,
    UInt32.ofNat_toNat, UInt16.ofNat_toNat]

/-- The settings behind a restart: every array is terminated in its last byte. -/
def MqttConfig.terminated (config : MqttConfig) : MqttConfig :=
  { config with
    brokerUri := config.brokerUri.terminate
    username := config.username.terminate
    password := config.password.terminate
    baseTopic := config.baseTopic.terminate
    discoveryPrefix := config.discoveryPrefix.terminate
    defaultRecipient := config.defaultRecipient.terminate
    caPem := config.caPem.terminate }

theorem recordToConfig_configToRecord (config : MqttConfig) :
    recordToConfig (configToRecord config) = config.terminated := by
  obtain ⟨enabled, brokerUri, username, password, baseTopic, homeAssistant, _, _, _⟩ := config
  cases enabled <;> cases homeAssistant <;> rfl

end SmsGateway.Settings
