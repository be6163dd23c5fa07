import Mathlib.Data.List.Induction
import SmsGateway.Settings.Portal

/-! What the setup page shows is what was typed, and saving it again as it is shown changes
nothing; a password stays with the host that it was typed for. -/

namespace SmsGateway.Settings

open Lib

/-! ## Arrays -/

section

variable {size : Nat} {field : CharField size}

theorem CharField.length_text_lt (terminated : field.Terminated) : field.text.length < size := by
  have found := List.takeWhile_append_dropWhile (p := (· ≠ 0)) (l := field.bytes)
  have total := field.sized
  by_contra long
  have whole : field.bytes.takeWhile (· ≠ 0) = field.bytes := by
    apply (List.takeWhile_prefix _).eq_of_length_le
    rw [field.sized]
    exact Nat.le_of_not_lt long
  have nonzero := List.takeWhile_eq_self_iff.mp whole 0 terminated
  simp at nonzero

theorem CharField.bytes_of_terminated (terminated : field.Terminated) :
    field.bytes = field.text.bytes ++ 0 :: field.bytes.drop (field.text.length + 1) := by
  have short := field.length_text_lt terminated
  have split := List.takeWhile_append_dropWhile (p := (· ≠ 0)) (l := field.bytes)
  have behind : field.bytes.drop field.text.length = field.bytes.dropWhile (· ≠ 0) := by
    nth_rewrite 1 [← split]
    exact List.drop_left' rfl
  cases rest : field.bytes.dropWhile (· ≠ 0) with
  | nil =>
      rw [rest] at behind
      have full := List.drop_eq_nil_iff.mp behind
      rw [field.sized] at full
      omega
  | cons first more =>
      have zero : first = 0 := by
        have head := List.head?_dropWhile_not (· ≠ 0) field.bytes
        rw [rest] at head
        simpa using head
      have more_eq : field.bytes.drop (field.text.length + 1) = more := by
        rw [← List.drop_drop, behind, rest]
        rfl
      rw [more_eq, ← zero, ← rest]
      exact split.symm

theorem CharField.text_overwrite {source : CStr} (fits : source.length < size) :
    (field.overwrite source).text = source := by
  have whole : source.truncate (size - 1) = source := CStr.truncate_of_length_le (by omega)
  apply CStr.ext
  have front : (source.bytes ++ [0]).length ≤ size := by
    rw [List.length_append]
    exact fits
  have nonzero : ∀ byte ∈ source.bytes, decide (byte ≠ 0) = true := by
    intro byte member
    rw [decide_eq_true_iff]
    rintro rfl
    exact source.noNul member
  simp only [text, overwrite, whole, CStr.ofBytes, List.take_append, List.take_of_length_le front]
  rw [List.append_assoc, List.takeWhile_append_of_pos nonzero]
  simp

theorem CharField.overwrite_terminated (source : CStr) (some : 0 < size) :
    (field.overwrite source).Terminated := by
  have short : (source.truncate (size - 1)).bytes.length < size := by
    simp only [CStr.truncate, List.length_take]
    omega
  simp only [Terminated, overwrite]
  have front : ((source.truncate (size - 1)).bytes ++ [0]).take size =
      (source.truncate (size - 1)).bytes ++ [0] := by
    apply List.take_of_length_le
    rw [List.length_append]
    exact short
  rw [List.take_append, front, List.append_assoc]
  exact List.mem_append_right _ List.mem_cons_self

/-- Writing the string that is there already. -/
theorem CharField.overwrite_text (terminated : field.Terminated) :
    field.overwrite field.text = field := by
  have short := field.length_text_lt terminated
  have whole : field.text.truncate (size - 1) = field.text :=
    CStr.truncate_of_length_le (by omega)
  apply CharField.ext
  have same : (field.text.bytes ++ [0]) ++ field.bytes.drop (field.text.bytes ++ [0]).length =
      field.bytes := by
    rw [List.append_assoc, List.length_append]
    exact (field.bytes_of_terminated terminated).symm
  simp only [overwrite, whole, same]
  exact List.take_of_length_le (Nat.le_of_eq field.sized)

theorem CharField.clear_clear : field.clear.clear = field.clear := by
  apply CharField.ext
  exact List.set_set ..

theorem CharField.text_clear (some : 0 < size) : field.clear.text = .empty := by
  apply CStr.ext
  simp only [clear, text, CStr.ofBytes]
  cases bytes : field.bytes with
  | nil =>
      have total := field.sized
      rw [bytes, List.length_nil] at total
      omega
  | cons first rest => rfl

end

/-! ## The broker's address -/

theorem colon_not_digit {ch : UInt8} (member : ch = colon) : ¬(0x30 ≤ ch ∧ ch ≤ 0x39) := by
  rw [member]
  decide

theorem strtol_decimalText {n : Nat} (small : n ≤ 65535) :
    At.strtol (decimalText n) = some ((n : Int), []) := by
  have digit : ∀ ch ∈ decimalText n, isDigit ch = true := by
    intro ch member
    exact decide_eq_true (decimalText_digit member)
  cases start : decimalText n with
  | nil => exact absurd start (decimalText_ne_nil n)
  | cons first rest =>
      have firstDigit : isDigit first = true := digit first (by rw [start]; exact List.mem_cons_self)
      have kind : isSpace first = false ∧ first ≠ 45 ∧ first ≠ 43 :=
        forall_octet (P := fun ch => isDigit ch = true → isSpace ch = false ∧ ch ≠ 45 ∧ ch ≠ 43)
          (by decide +kernel) first firstDigit
      have all : (first :: rest).takeWhile isDigit = first :: rest := by
        apply List.takeWhile_eq_self_iff.mpr
        rw [← start]
        exact digit
      have value := foldl_decimalText n
      rw [start] at value
      have noSpace : (first :: rest).dropWhile isSpace = first :: rest := by
        rw [List.dropWhile_cons, kind.1]
        rfl
      have unsigned : (first == 45) = false ∧ (first == 43) = false := by
        simp [kind.2.1, kind.2.2]
      simp only [At.strtol, noSpace, List.head?_cons, Option.some_beq_some, unsigned, Bool.or_self,
        Bool.false_eq_true, ↓reduceIte, all, value, List.isEmpty_cons, List.drop_length]
      congr 2
      rw [At.longMax, At.longMin]
      omega

theorem atoi_printInt {port : Int} (low : 0 ≤ port) (high : port ≤ 65535) :
    atoi (printInt port) = port := by
  have small : port.natAbs ≤ 65535 := by omega
  rw [atoi, printInt, if_neg (by omega), strtol_decimalText small]
  simp only [Option.map_some, Option.getD_some]
  omega

theorem strrchr_of_notMem {ch : UInt8} {front back : List UInt8} (last : ch ∉ back) :
    strrchr ch (front ++ ch :: back) = some (front, back) := by
  have stops : ∀ byte ∈ back.reverse, decide (byte ≠ ch) = true := by
    intro byte member
    rw [decide_eq_true_iff]
    rintro rfl
    exact last (List.mem_reverse.mp member)
  have reversed : (front ++ ch :: back).reverse = back.reverse ++ ch :: front.reverse := by simp
  rw [strrchr, reversed, List.dropWhile_append_of_pos stops, List.takeWhile_append_of_pos stops]
  simp

theorem printInt_noColon {port : Int} (low : 0 ≤ port) : colon ∉ printInt port := by
  rw [printInt, if_neg (by omega)]
  exact fun member => colon_not_digit rfl (decimalText_digit member)

theorem printInt_noNul {port : Int} (low : 0 ≤ port) : 0 ∉ printInt port := by
  rw [printInt, if_neg (by omega)]
  intro member
  exact absurd (decimalText_digit member) (by decide)

theorem printInt_length {port : Int} (low : 0 ≤ port) (high : port ≤ 65535) :
    (printInt port).length ≤ 5 := by
  rw [printInt, if_neg (by omega)]
  exact decimalText_length (by decide) (by omega)

/-- A host and a port as the form accepts them. -/
structure Broker.Valid (broker : Broker) : Prop where
  host : hostValid broker.host = true
  low : 1 ≤ broker.port
  high : broker.port ≤ 65535

namespace Broker.Valid

variable {broker : Broker}

theorem length_le (valid : broker.Valid) : broker.host.length ≤ portalHostMax := by
  have host := valid.host
  simp only [hostValid, Bool.and_eq_true, decide_eq_true_eq] at host
  exact host.1.2

theorem nonempty (valid : broker.Valid) : broker.host.bytes ≠ [] := by
  have host := valid.host
  simp only [hostValid, Bool.and_eq_true, decide_eq_true_eq] at host
  exact List.length_pos_iff.mp host.1.1

theorem uri_bytes (valid : broker.Valid) :
    broker.uri.bytes = (if broker.tls then CStr.text "mqtts" else .text "mqtt").bytes ++
      ((CStr.text "://").bytes ++ (broker.host.bytes ++ colon :: printInt broker.port)) := by
  have port : (CStr.ofBytes (printInt broker.port)).bytes = printInt broker.port :=
    CStr.ofBytes_of_noNul (printInt_noNul (by have := valid.low; omega))
  rw [Broker.uri]
  simp only [CStr.append_bytes, port, List.append_assoc]
  rfl

theorem uri_length (valid : broker.Valid) : broker.uri.length < 256 := by
  have port := printInt_length (by have := valid.low; omega) valid.high
  have host := valid.length_le
  have scheme : (if broker.tls then CStr.text "mqtts" else .text "mqtt").bytes.length ≤ 5 := by
    split <;> decide
  have separator : (CStr.text "://").bytes.length = 3 := by decide
  rw [CStr.length, portalHostMax] at host
  rw [CStr.length, valid.uri_bytes]
  simp only [List.length_append, List.length_cons]
  omega

theorem found (valid : broker.Valid) : strstr (CStr.text "://").bytes broker.uri.bytes =
    some ((CStr.text "://").bytes ++ (broker.host.bytes ++ colon :: printInt broker.port)) := by
  rw [valid.uri_bytes]
  cases broker.tls <;> rfl

/-- The page takes the address apart into what the form put together. -/
theorem split (valid : broker.Valid) : splitBrokerUri broker.uri (portalHostMax + 1) = broker := by
  have scheme : gatewayMqttUriIsTls broker.uri = broker.tls := by
    rw [gatewayMqttUriIsTls, CStr.startsWith, valid.uri_bytes]
    cases broker.tls <;> rfl
  have start : ((CStr.text "://").bytes ++
      (broker.host.bytes ++ colon :: printInt broker.port)).drop 3 =
      broker.host.bytes ++ colon :: printInt broker.port := rfl
  have low := valid.low
  have host : CStr.ofBytes (broker.host.bytes.take (portalHostMax + 1 - 1)) = broker.host := by
    rw [Nat.add_sub_cancel, List.take_of_length_le valid.length_le]
    exact CStr.ext (CStr.ofBytes_of_noNul broker.host.noNul)
  have separated : strrchr colon (broker.host.bytes ++ colon :: printInt broker.port) =
      some (broker.host.bytes, printInt broker.port) :=
    strrchr_of_notMem (printInt_noColon (by omega))
  rw [splitBrokerUri]
  simp only [valid.found, start, separated, host, scheme, atoi_printInt (by omega) valid.high]

end Broker.Valid

/-! ## What is stored -/

def MqttForm.broker (form : MqttForm) (strings : MqttStrings) : Broker :=
  ⟨strings.host, formPort form, isTrue form.mqttTls⟩

/-- The two forms that are stored: one without a host, and one with a valid broker. -/
theorem saveMqttForm_stored {form : MqttForm} {config saved : MqttConfig}
    (stored : saveMqttForm form config = .stored saved) :
    gatewayMqttConfigValidate saved = .ok () ∧ ∃ strings, form.strings = some strings ∧
      (strings.host.bytes = [] ∧
          saved = { applyRecipient form strings.recipient config with enabled := false } ∨
        (form.broker strings).Valid ∧
          saved = applyBroker (form.broker strings) strings.username strings.password
            (applyRecipient form strings.recipient config)) := by
  cases typed : form.strings with
  | none =>
      rw [saveMqttForm, applyMqttForm, typed] at stored
      cases stored
  | some strings =>
      rw [saveMqttForm, applyMqttForm, typed] at stored
      by_cases empty : strings.host.bytes = []
      · simp only [empty, if_true] at stored
        split at stored
        · cases stored
        · rename_i valid
          cases stored
          exact ⟨not_not.mp valid, strings, rfl, Or.inl ⟨empty, rfl⟩⟩
      · simp only [if_neg empty] at stored
        by_cases host : hostValid strings.host = true
        · by_cases port : formPort form < 1 ∨ 65535 < formPort form
          · simp [host, if_pos port] at stored
          · simp only [host, Bool.not_true, Bool.false_eq_true, if_false, if_neg port] at stored
            split at stored
            · cases stored
            · rename_i valid
              cases stored
              have between := not_or.mp port
              refine ⟨not_not.mp valid, strings, rfl, Or.inr ⟨⟨host, ?_, ?_⟩, rfl⟩⟩
              · exact Int.not_lt.mp between.1
              · exact Int.not_lt.mp between.2
        · simp [host] at stored

/-- Settings that the form shows in full. -/
structure Settled (config : MqttConfig) : Prop where
  valid : gatewayMqttConfigValidate config = .ok ()
  username : config.username.Terminated
  recipient : config.defaultRecipient.Terminated
  uri : config.brokerUri.Terminated ∨ config.enabled = false
  broker : config.enabled = true → ∃ broker : Broker, broker.Valid ∧
    config.brokerUri.text = broker.uri ∧ (broker.tls = false → config.caPem.clear = config.caPem)

/-- A form without a broker leaves the user name as it was, so that name must end. -/
theorem settled_of_stored {form : MqttForm} {config saved : MqttConfig}
    (terminated : ∀ strings, form.strings = some strings → strings.host = .empty →
      config.username.Terminated)
    (stored : saveMqttForm form config = .stored saved) : Settled saved := by
  obtain ⟨valid, strings, typed, ⟨empty, rfl⟩ | ⟨accepted, rfl⟩⟩ := saveMqttForm_stored stored
  · have kept : config.username.Terminated := terminated strings typed (CStr.ext empty)
    exact ⟨valid, kept, CharField.overwrite_terminated _ (by decide), Or.inr rfl, nofun⟩
  · refine ⟨valid, CharField.overwrite_terminated _ (by decide),
      CharField.overwrite_terminated _ (by decide),
      Or.inl (CharField.overwrite_terminated _ (by decide)), fun _ => ?_⟩
    refine ⟨_, accepted, CharField.text_overwrite accepted.uri_length, fun plain => ?_⟩
    simp only [applyBroker, plain, Bool.not_false, if_true]
    exact CharField.clear_clear

theorem jsonString_string {value : CStr} {maxLen : Nat} (short : value.length ≤ maxLen) :
    jsonString (some (.string value)) maxLen = some value := by
  rw [jsonString, if_neg (Nat.not_lt.mpr short)]

/-- The fields of the form as it is shown pass their own length checks. -/
theorem Settled.strings {config : MqttConfig} (settled : Settled config) :
    (shownForm config).strings = some
      { host := if config.enabled then
          (splitBrokerUri config.brokerUri.text (portalHostMax + 1)).host else .empty
        username := config.username.text
        password := .empty
        recipient := config.defaultRecipient.text } := by
  have host : (if config.enabled then
      (splitBrokerUri config.brokerUri.text (portalHostMax + 1)).host else CStr.empty).length ≤
        portalHostMax := by
    split
    · rename_i on
      obtain ⟨broker, valid, uri, -⟩ := settled.broker on
      rw [uri, valid.split]
      exact valid.length_le
    · exact Nat.zero_le _
  have username := config.username.length_text_lt settled.username
  have recipient := config.defaultRecipient.length_text_lt settled.recipient
  simp only [MqttForm.strings, shownForm]
  rw [jsonString_string host, jsonString_string (Nat.le_of_lt_succ username),
    jsonString_string (Nat.zero_le _), jsonString_string (Nat.le_of_lt_succ recipient)]
  rfl

theorem Settled.recipient_kept {config : MqttConfig} (settled : Settled config) :
    applyRecipient (shownForm config) config.defaultRecipient.text config = config := by
  rw [applyRecipient, CharField.overwrite_text settled.recipient]
  cases config with
  | mk _ _ _ _ _ homeAssistant => cases homeAssistant <;> rfl

/-- The broker that is shown is the one that is set, so nothing of it is written anew. -/
theorem Settled.broker_kept {config : MqttConfig} {broker : Broker} (settled : Settled config)
    (on : config.enabled = true) (valid : broker.Valid) (uri : config.brokerUri.text = broker.uri)
    (plain : broker.tls = false → config.caPem.clear = config.caPem) :
    applyBroker broker config.username.text .empty config = config := by
  have terminated : config.brokerUri.Terminated := by
    rcases settled.uri with terminated | off
    · exact terminated
    · rw [on] at off
      cases off
  have address : config.brokerUri.overwrite broker.uri = config.brokerUri := by
    rw [← uri]
    exact CharField.overwrite_text terminated
  have ca : (if !broker.tls then config.caPem.clear else config.caPem) = config.caPem := by
    cases tls : broker.tls with
    | true => rfl
    | false => exact plain tls
  have same : (splitBrokerUri config.brokerUri.text (portalHostMax + 1)).host = broker.host := by
    rw [uri, valid.split]
  simp only [applyBroker, address, ca, CharField.overwrite_text settled.username, same, on,
    CStr.empty_bytes, ne_eq, not_true_eq_false, and_self, if_false]
  rw [← on]

theorem Settled.resubmit {config : MqttConfig} (settled : Settled config) :
    saveMqttForm (shownForm config) config = .stored config := by
  have applied : applyMqttForm (shownForm config) config = (none, config) := by
    rw [applyMqttForm, settled.strings]
    simp only [settled.recipient_kept]
    cases on : config.enabled with
    | false =>
        simp only [Bool.false_eq_true, if_false, CStr.empty_bytes, if_true]
        rw [← on]
    | true =>
        obtain ⟨broker, valid, uri, plain⟩ := settled.broker on
        have shown : splitBrokerUri config.brokerUri.text (portalHostMax + 1) = broker := by
          rw [uri, valid.split]
        have port : formPort (shownForm config) = broker.port := by
          simp only [formPort, shownForm, shown]
        have tls : isTrue (shownForm config).mqttTls = broker.tls := by
          simp only [isTrue, shownForm, shown]
          cases broker.tls <;> rfl
        have between : ¬(broker.port < 1 ∨ 65535 < broker.port) := by
          have low := valid.low
          have high := valid.high
          omega
        simp only [if_true, shown, if_neg valid.nonempty, valid.host, port, tls, Bool.not_true,
          Bool.false_eq_true, if_false, if_neg between]
        rw [settled.broker_kept on valid uri plain]
  rw [saveMqttForm, applied]
  simp only [settled.valid, ne_eq, not_true_eq_false, if_false]

/-! ## Saving the form as it is shown -/

/-- The page shows the broker that was typed, or without one what it showed before. -/
structure ShowsTyped (form : MqttForm) (strings : MqttStrings) (config saved : MqttConfig) :
    Prop where
  host : (shownForm saved).mqttHost = some (.string strings.host)
  recipient : (shownForm saved).defaultRecipient = some (.string strings.recipient)
  homeAssistant : (shownForm saved).homeAssistant =
    if form.homeAssistant ≠ none then some (.bool (isTrue form.homeAssistant))
    else (shownForm config).homeAssistant
  username : (shownForm saved).mqttUsername =
    if strings.host ≠ .empty then some (.string strings.username)
    else (shownForm config).mqttUsername
  port : (shownForm saved).mqttPort =
    if strings.host ≠ .empty then some (.number (formPort form)) else (shownForm config).mqttPort
  tls : (shownForm saved).mqttTls =
    if strings.host ≠ .empty then some (.bool (isTrue form.mqttTls)) else (shownForm config).mqttTls

theorem jsonString_length {item : Option Item} {maxLen : Nat} {value : CStr}
    (typed : jsonString item maxLen = some value) : value.length ≤ maxLen := by
  rw [jsonString.eq_def] at typed
  split at typed
  · cases typed
    exact Nat.zero_le _
  · cases typed
    exact Nat.zero_le _
  · split at typed
    · cases typed
    · rename_i short
      cases typed
      exact Nat.not_lt.mp short
  · cases typed

theorem MqttForm.strings_lengths {form : MqttForm} {strings : MqttStrings}
    (typed : form.strings = some strings) :
    strings.username.length < 96 ∧ strings.password.length < 160 ∧ strings.recipient.length < 24 := by
  simp only [MqttForm.strings, Option.bind_eq_bind, Option.pure_def, Option.bind_eq_some_iff] at typed
  obtain ⟨host, -, username, user, password, pass, recipient, number, shape⟩ := typed
  cases shape
  have user := jsonString_length user
  have pass := jsonString_length pass
  have number := jsonString_length number
  exact ⟨Nat.lt_succ_of_le user, Nat.lt_succ_of_le pass, Nat.lt_succ_of_le number⟩

theorem shown_homeAssistant (form : MqttForm) (recipient : CStr) (config : MqttConfig) :
    some (Item.bool (applyRecipient form recipient config).homeAssistantEnabled) =
      if form.homeAssistant ≠ none then some (.bool (isTrue form.homeAssistant))
      else (shownForm config).homeAssistant := by
  simp only [applyRecipient, shownForm]
  split <;> rfl

theorem showsTyped_of_stored {form : MqttForm} {config saved : MqttConfig}
    (stored : saveMqttForm form config = .stored saved) :
    ∃ strings, form.strings = some strings ∧ ShowsTyped form strings config saved := by
  obtain ⟨-, strings, typed, ⟨empty, rfl⟩ | ⟨accepted, rfl⟩⟩ := saveMqttForm_stored stored
  · have lengths := MqttForm.strings_lengths typed
    have none : strings.host = .empty := CStr.ext empty
    refine ⟨strings, typed, ?_, ?_, shown_homeAssistant form strings.recipient config, ?_, ?_, ?_⟩
    · rw [none]
      rfl
    · simp only [shownForm, applyRecipient, CharField.text_overwrite lengths.2.2]
    · rw [if_neg (not_not.mpr none)]
      rfl
    · rw [if_neg (not_not.mpr none)]
      rfl
    · rw [if_neg (not_not.mpr none)]
      rfl
  · have lengths := MqttForm.strings_lengths typed
    have shown := accepted.split
    have uri : (config.brokerUri.overwrite (form.broker strings).uri).text =
        (form.broker strings).uri := CharField.text_overwrite accepted.uri_length
    have some : strings.host ≠ .empty := fun empty => accepted.nonempty (congrArg CStr.bytes empty)
    refine ⟨strings, typed, ?_, ?_, shown_homeAssistant form strings.recipient config, ?_, ?_, ?_⟩
    · simp only [shownForm, applyBroker, applyRecipient, uri, shown, if_true]
      rfl
    · simp only [shownForm, applyBroker, applyRecipient, CharField.text_overwrite lengths.2.2]
    · rw [if_pos some]
      simp only [shownForm, applyBroker, applyRecipient, CharField.text_overwrite lengths.1]
    · rw [if_pos some]
      simp only [shownForm, applyBroker, applyRecipient, uri, shown]
      rfl
    · rw [if_pos some]
      simp only [shownForm, applyBroker, applyRecipient, uri, shown]
      rfl

/-- The page shows what was typed, and saving the form as it is shown stores the same settings,
the password among them, although the page does not show it. -/
theorem resubmit_unchanged {form : MqttForm} {config saved : MqttConfig}
    (terminated : ∀ strings, form.strings = some strings → strings.host = .empty →
      config.username.Terminated)
    (stored : saveMqttForm form config = .stored saved) :
    (∃ strings, form.strings = some strings ∧ ShowsTyped form strings config saved) ∧
      saveMqttForm (shownForm saved) saved = .stored saved :=
  ⟨showsTyped_of_stored stored, (settled_of_stored terminated stored).resubmit⟩

/-- The settings after the form is submitted: only a form that is stored changes them. -/
def submitMqtt (config : MqttConfig) (form : MqttForm) : MqttConfig :=
  match saveMqttForm form config with
  | .stored next => next
  | _ => config

/-- A form with a broker, a user and a password. -/
def brokerForm (password : CStr) : MqttForm where
  mqttHost := some (.string (.text "ha.local"))
  mqttUsername := some (.string (.text "gateway"))
  mqttPassword := some (.string password)
  defaultRecipient := some (.string (.text "+491701234567"))
  mqttPort := none
  mqttTls := some (.bool true)
  homeAssistant := none

theorem resubmit_unchanged_broker :
    saveMqttForm
        (shownForm (submitMqtt (gatewayMqttConfigDefaults none) (brokerForm (.text "secret"))))
        (submitMqtt (gatewayMqttConfigDefaults none) (brokerForm (.text "secret"))) =
      .stored (submitMqtt (gatewayMqttConfigDefaults none) (brokerForm (.text "secret"))) := by
  have terminated (strings : MqttStrings)
      (_ : (brokerForm (.text "secret")).strings = some strings) (_ : strings.host = .empty) :
      (gatewayMqttConfigDefaults none).username.Terminated := show 0 ∈ _ by decide +kernel
  exact (resubmit_unchanged terminated (by decide +kernel)).2

/-! ## Whose password it is -/

/-- What ends the host in a URI. -/
def hostEnd (ch : UInt8) : Bool := ch = slash || ch = colon || ch = 0x3F || ch = hash

/-- The host that a client connects to: the text behind `://` up to the port, the path, the
query or the fragment, or an address in brackets. The settings refuse a URI with user info. -/
def uriHost (uri : CStr) : CStr :=
  match strstr (CStr.text "://").bytes uri.bytes with
  | none => .empty
  | some found =>
      let start := found.drop 3
      if start.head? = some 0x5B then .ofBytes (start.takeWhile (· ≠ 0x5D))
      else .ofBytes (start.takeWhile (!hostEnd ·))

def MqttConfig.host (config : MqttConfig) : CStr := uriHost config.brokerUri.text

theorem hostChar_plain {ch : UInt8} (plain : hostChar ch = true) :
    hostEnd ch = false ∧ ch ≠ 0 ∧ ch ≠ 0x5B :=
  forall_octet (P := fun ch => hostChar ch = true → hostEnd ch = false ∧ ch ≠ 0 ∧ ch ≠ 0x5B)
    (by decide +kernel) ch plain

/-- The text behind the host does not go on with it. -/
def HostEnds (rest : List UInt8) : Prop := ∀ ch, rest.head? = some ch → ch = 0 ∨ hostEnd ch = true

theorem hostValid_all {host : CStr} (valid : hostValid host = true) :
    host.bytes ≠ [] ∧ ∀ ch ∈ host.bytes, hostChar ch = true := by
  simp only [hostValid, Bool.and_eq_true, decide_eq_true_eq] at valid
  exact ⟨List.length_pos_iff.mp valid.1.1, List.all_eq_true.mp valid.2⟩

/-- The text that starts with a host that the form accepts: its host starts so too, and is
this one where the text behind ends it. -/
theorem host_start {host : CStr} (valid : hostValid host = true) {uri : CStr}
    {found rest : List UInt8} (separator : strstr (CStr.text "://").bytes uri.bytes = some found)
    (starts : found.drop 3 = host.bytes ++ rest) :
    ∃ more, (uriHost uri).bytes = host.bytes ++ more ∧ (HostEnds rest → more = []) := by
  obtain ⟨some, plain⟩ := hostValid_all valid
  have unbracketed : (host.bytes ++ rest).head? ≠ .some 0x5B := by
    cases first : host.bytes with
    | nil => exact absurd first some
    | cons ch tail =>
        have member : ch ∈ host.bytes := by
          rw [first]
          exact List.mem_cons_self
        exact fun same => (hostChar_plain (plain ch member)).2.2 (Option.some.inj same)
  have inside : ∀ ch ∈ host.bytes, (!hostEnd ch) = true := by
    intro ch member
    simp only [(hostChar_plain (plain ch member)).1, Bool.not_false]
  have nonzero : ∀ ch ∈ host.bytes, decide (ch ≠ 0) = true := by
    intro ch member
    exact decide_eq_true (hostChar_plain (plain ch member)).2.1
  refine ⟨(rest.takeWhile (!hostEnd ·)).takeWhile (· ≠ 0), ?_, ?_⟩
  · simp only [uriHost, separator, starts, if_neg unbracketed, CStr.ofBytes]
    rw [List.takeWhile_append_of_pos inside, List.takeWhile_append_of_pos nonzero]
  · intro ends
    cases rest with
    | nil => rfl
    | cons ch tail =>
        rcases ends ch rfl with zero | stops
        · rw [zero, List.takeWhile_cons_of_pos (by decide), List.takeWhile_cons_of_neg (by decide)]
        · rw [List.takeWhile_cons_of_neg (by simp [stops]), List.takeWhile_nil]

/-- What `splitBrokerUri` cuts off in front of the text that ends the host. -/
theorem cut_front {front back : List UInt8} (ends : HostEnds back) {size : Nat} {host : CStr}
    (cut : CStr.ofBytes (front.take size) = host) :
    ∃ rest, front ++ back = host.bytes ++ rest ∧ (HostEnds rest ∨ host.length = size) := by
  have split := List.takeWhile_append_dropWhile (p := (· ≠ 0)) (l := front.take size)
  have whole : front.take size ++ front.drop size = front := List.take_append_drop size front
  cases behind : (front.take size).dropWhile (· ≠ 0) with
  | nil =>
      rw [behind, List.append_nil] at split
      have bytes : host.bytes = front.take size := by
        rw [← cut]
        exact split
      refine ⟨front.drop size ++ back, ?_, ?_⟩
      · rw [bytes, ← List.append_assoc, whole]
      · by_cases short : front.length ≤ size
        · rw [List.drop_eq_nil_of_le short]
          exact .inl ends
        · refine .inr ?_
          rw [CStr.length, bytes, List.length_take]
          omega
  | cons first more =>
      have zero : first = 0 := by
        have head := List.head?_dropWhile_not (· ≠ 0) (front.take size)
        rw [behind] at head
        simpa using head
      rw [behind] at split
      refine ⟨first :: more ++ front.drop size ++ back, ?_, .inl ?_⟩
      · rw [← cut]
        simp only [CStr.ofBytes]
        rw [← List.append_assoc, ← List.append_assoc, split, whole]
      · rintro ch ⟨⟩
        exact .inl zero

theorem strrchr_some {ch : UInt8} {text front back : List UInt8}
    (found : strrchr ch text = some (front, back)) : text = front ++ ch :: back := by
  have split := List.takeWhile_append_dropWhile (p := (· ≠ ch)) (l := text.reverse)
  rw [strrchr] at found
  split at found
  · cases found
  · rename_i first more behind
    cases found
    have same : first = ch := by
      have head := List.head?_dropWhile_not (· ≠ ch) text.reverse
      rw [behind] at head
      simpa using head
    rw [behind, same] at split
    calc text = text.reverse.reverse := (List.reverse_reverse text).symm
      _ = (text.reverse.takeWhile (· ≠ ch) ++ ch :: more).reverse := by rw [split]
      _ = more.reverse ++ ch :: (text.reverse.takeWhile (· ≠ ch)).reverse := by simp

/-- A host that the portal compares is the host of the address, unless that one is longer than
the portal can hold. -/
theorem splitBrokerUri_host {uri host : CStr} (valid : hostValid host = true)
    (short : (uriHost uri).length ≤ portalHostMax)
    (same : (splitBrokerUri uri (portalHostMax + 1)).host = host) : uriHost uri = host := by
  have all (found rest : List UInt8)
      (separator : strstr (CStr.text "://").bytes uri.bytes = some found)
      (starts : found.drop 3 = host.bytes ++ rest)
      (stops : HostEnds rest ∨ host.length = portalHostMax) : uriHost uri = host := by
    obtain ⟨more, bytes, ended⟩ := host_start valid separator starts
    have nothing : more = [] := by
      rcases stops with ends | full
      · exact ended ends
      · rw [CStr.length, bytes, List.length_append] at short
        rw [CStr.length] at full
        exact List.length_eq_zero_iff.mp (by omega)
    apply CStr.ext
    rw [bytes, nothing, List.append_nil]
  rw [splitBrokerUri] at same
  split at same
  · subst same
    exact absurd rfl (hostValid_all valid).1
  · rename_i found separator
    dsimp only at same
    split at same
    · rename_i front port colons
      have ends : HostEnds (colon :: port) := by
        rintro ch ⟨⟩
        exact .inr (by decide)
      obtain ⟨rest, starts, stops⟩ := cut_front ends same
      exact all found rest separator ((strrchr_some colons).trans starts) stops
    · have ends : HostEnds ((found.drop 3).dropWhile (· ≠ slash)) := by
        intro ch first
        have head := List.head?_dropWhile_not (· ≠ slash) (found.drop 3)
        rw [first] at head
        have same : ch = slash := by simpa using head
        rw [same]
        exact .inr (by decide)
      obtain ⟨rest, starts, stops⟩ := cut_front ends same
      rw [List.takeWhile_append_dropWhile] at starts
      exact all found rest separator starts stops

/-- The address that the form puts together has the host that was typed. -/
theorem Broker.Valid.uriHost {broker : Broker} (valid : broker.Valid) :
    uriHost broker.uri = broker.host := by
  have starts : ((CStr.text "://").bytes ++
      (broker.host.bytes ++ colon :: printInt broker.port)).drop 3 =
      broker.host.bytes ++ colon :: printInt broker.port := rfl
  obtain ⟨more, bytes, ended⟩ := host_start valid.host valid.found starts
  have ends : HostEnds (colon :: printInt broker.port) := by
    rintro ch ⟨⟩
    exact .inr (by decide)
  apply CStr.ext
  rw [bytes, ended ends, List.append_nil]

/-- The portal can hold the host of the settings. -/
def ShortHost (config : MqttConfig) : Prop :=
  config.enabled = true → config.host.length ≤ portalHostMax

/-- The settings use this password for this host. -/
def MqttConfig.Uses (config : MqttConfig) (host password : CStr) : Prop :=
  config.enabled = true ∧ config.host = host ∧ config.password.text = password

/-- One of the forms had this host and this password typed into it, and the settings used them
ever since. -/
def TypedForHost (start : MqttConfig) (forms : List MqttForm) (host password : CStr) : Prop :=
  ∃ before form after strings, forms = before ++ form :: after ∧
    form.strings = some strings ∧ strings.host = host ∧ strings.password = password ∧
    ∀ mid, mid <+: after → ((before ++ form :: mid).foldl submitMqtt start).Uses host password

/-- The three ways in which a submission leaves a password behind. -/
theorem submitMqtt_uses {form : MqttForm} {config : MqttConfig} {host password : CStr}
    (short : ShortHost config) (uses : (submitMqtt config form).Uses host password)
    (some : password ≠ .empty) :
    config.Uses host password ∨
      ∃ strings, form.strings = .some strings ∧ strings.host = host ∧
        strings.password = password := by
  rw [submitMqtt] at uses
  split at uses
  · rename_i saved stored
    obtain ⟨-, strings, typed, ⟨-, rfl⟩ | ⟨accepted, rfl⟩⟩ := saveMqttForm_stored stored
    · cases uses.1
    · obtain ⟨-, here, secret⟩ := uses
      have lengths := MqttForm.strings_lengths typed
      have address : strings.host = host := by
        rw [← here, MqttConfig.host, applyBroker,
          CharField.text_overwrite accepted.uri_length, accepted.uriHost]
        rfl
      simp only [applyBroker] at secret
      split at secret
      · rw [CharField.text_overwrite lengths.2.1] at secret
        exact Or.inr ⟨strings, typed, address, secret⟩
      · split at secret
        · rw [CharField.text_clear (by decide)] at secret
          exact absurd secret.symm some
        · rename_i same
          obtain ⟨on, previous⟩ := not_not.mp same
          have kept : config.host = strings.host :=
            splitBrokerUri_host accepted.host (short on) previous
          exact Or.inl ⟨on, kept.trans address, secret⟩
  · exact Or.inl uses

theorem submitMqtt_short {config : MqttConfig} (short : ShortHost config) (form : MqttForm) :
    ShortHost (submitMqtt config form) := by
  rw [submitMqtt]
  split
  · rename_i saved stored
    obtain ⟨-, strings, -, ⟨-, rfl⟩ | ⟨accepted, rfl⟩⟩ := saveMqttForm_stored stored
    · exact nofun
    · intro _
      rw [MqttConfig.host, applyBroker, CharField.text_overwrite accepted.uri_length,
        accepted.uriHost]
      exact accepted.length_le
  · exact short

theorem forms_short {start : MqttConfig} (short : ShortHost start) (forms : List MqttForm) :
    ShortHost (forms.foldl submitMqtt start) := by
  induction forms generalizing start with
  | nil => exact short
  | cons form forms ih => exact ih (submitMqtt_short short form)

/-- Whoever submits forms at the open page: a password in use was typed together with the host
that it is used for, and was never used for another one; else it is the one from before. -/
theorem password_typed_for_host {start : MqttConfig} (short : ShortHost start)
    (forms : List MqttForm) {host password : CStr}
    (uses : (forms.foldl submitMqtt start).Uses host password)
    (some : password ≠ .empty) :
    TypedForHost start forms host password ∨
      ∀ mid, mid <+: forms → (mid.foldl submitMqtt start).Uses host password := by
  induction forms using List.reverseRecOn with
  | nil =>
      refine Or.inr fun mid front => ?_
      rw [List.prefix_nil.mp front]
      exact uses
  | append_singleton forms form ih =>
      have used := uses
      rw [List.foldl_append, List.foldl_cons, List.foldl_nil] at used
      rcases submitMqtt_uses (forms_short short forms) used some with
        before | ⟨strings, typed, address, secret⟩
      · rcases ih before with
          ⟨front, first, after, strings, rfl, typed, address, secret, since⟩ | always
        · refine Or.inl ⟨front, first, after ++ [form], strings, ?_, typed, address, secret, ?_⟩
          · rw [List.append_assoc, List.cons_append]
          · intro mid inside
            rcases List.prefix_concat_iff.mp inside with whole | shorter
            · rw [whole, ← List.cons_append, ← List.append_assoc]
              exact uses
            · exact since mid shorter
        · refine Or.inr fun mid inside => ?_
          rcases List.prefix_concat_iff.mp inside with whole | shorter
          · rw [whole]
            exact uses
          · exact always mid shorter
      · refine Or.inl ⟨forms, form, [], strings, rfl, typed, address, secret, ?_⟩
        intro mid inside
        rw [List.prefix_nil.mp inside]
        exact uses

/-- Settings that came over the API, with a path behind the host. -/
def apiSettings : MqttConfig :=
  { gatewayMqttConfigDefaults none with
    enabled := true
    brokerUri := .print (.text "mqtts://ha.local/mqtt")
    password := .print (.text "secret") }

/-- A form for the same host keeps the password. -/
theorem password_typed_for_host_kept :
    TypedForHost apiSettings [brokerForm .empty] (.text "ha.local") (.text "secret") ∨
      ∀ mid, mid <+: [brokerForm .empty] →
        (mid.foldl submitMqtt apiSettings).Uses (.text "ha.local") (.text "secret") := by
  have short : ShortHost apiSettings := fun _ => by decide +kernel
  have uses : ([brokerForm .empty].foldl submitMqtt apiSettings).Uses (.text "ha.local")
      (.text "secret") := ⟨by decide +kernel, by decide +kernel, by decide +kernel⟩
  exact password_typed_for_host short _ uses (by decide +kernel)

end SmsGateway.Settings
