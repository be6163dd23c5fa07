import SmsGateway.Codec.Preflight
import SmsGateway.Ledger.Idempotency
import SmsGateway.Lib.Program
import SmsGateway.Store.Record

/-! The two ways in for a message with an idempotency key, the REST endpoint
(`messages_post_handler`) and the structured MQTT command (`handle_structured_send`),
and the operator's way to clear reservations, as programs over the calls they make. -/

namespace SmsGateway.Ledger

open Lib

/-! What is checked before any call. -/

/-- The loop of `gateway_e164_valid` behind the plus sign. -/
def e164Digits : List UInt8 → Nat → Option Nat
  | [], digits => some digits
  | ch :: rest, digits =>
      if ch < 0x30 ∨ ch > 0x39 then none
      else if digits = 0 ∧ ch = 0x30 then none
      else if digits + 1 > 15 then none
      else e164Digits rest (digits + 1)

def gatewayE164Valid (value : CStr) : Bool :=
  match value.bytes with
  | [] => false
  | ch :: rest => ch == 0x2B && (e164Digits rest 0).any (· ≥ 2)

def idempotencyKeyChar (c : UInt8) : Bool :=
  (0x61 ≤ c && c ≤ 0x7A) || (0x41 ≤ c && c ≤ 0x5A) || (0x30 ≤ c && c ≤ 0x39) ||
    c == 0x2D || c == 0x5F || c == 0x2E || c == 0x3A

def gatewayIdempotencyKeyValid (value : CStr) : Bool :=
  decide (8 ≤ value.length ∧ value.length ≤ 128) && value.bytes.all idempotencyKeyChar

/-- A member of a `cJSON` object, as far as it is looked at. -/
inductive JsonValue where
  | string (valuestring : CStr)
  | bool (value : Bool)
  | other

inductive Json where
  | object (fields : List (CStr × JsonValue))
  | other

/-- `cJSON_GetObjectItemCaseSensitive`: the first member of this name. -/
def Json.item (json : Json) (name : CStr) : Option JsonValue :=
  match json with
  | .object fields => (fields.find? fun field => field.1 == name).map Prod.snd
  | .other => none

def jsonHasOnlyFields (json : Json) (allowed : List CStr) : Bool :=
  match json with
  | .object fields => fields.all fun field => allowed.contains field.1
  | .other => false

def smsMessageTextMax : Nat := 4096

/-- Recipient, text and delivery-report flag, when all three are acceptable. -/
def messageFields (recipient text dr : Option JsonValue) : Option (CStr × CStr × Bool) :=
  match recipient, text with
  | some (.string recipient), some (.string text) =>
      if gatewayE164Valid recipient && text.length != 0 && decide (text.length < smsMessageTextMax) then
        match dr with
        | none => some (recipient, text, true)
        | some (.bool delivery) => some (recipient, text, delivery)
        | some _ => none
      else none
  | _, _ => none

/-! The calls. -/

inductive Call where
  | fingerprint (recipient text : CStr) (deliveryReport : Bool)
  | claim (key : CStr) (fingerprint : Digest)
  | send (recipient text : CStr) (deliveryReport : Bool)
  | finalize (key : CStr) (fingerprint : Digest) (messageId : UInt32)
  | releasePending (key : CStr) (fingerprint : Digest)
  | clearPending
  | get (id : UInt32)
  | allocate
  | limiterAllow
  deriving DecidableEq

/-- The fingerprint itself is a function of the message; what the caller learns from
the call is whether there was memory and the hash could be computed. -/
abbrev Reply : Call → Type
  | .fingerprint .. => Except EspErr Unit
  | .claim .. => Except EspErr (IdempotencyResult × UInt32)
  | .send .. => Except EspErr UInt32
  | .finalize .. => Except EspErr Unit
  | .releasePending .. => Except EspErr Unit
  | .clearPending => Except EspErr Unit × UInt32
  | .get _ => Except EspErr SmsMessage
  | .allocate => Bool
  | .limiterAllow => Bool

abbrev IngressM := Prog Call Reply

/-- `gateway_idempotency_sms_fingerprint`. -/
abbrev smsFingerprint (recipient text : CStr) (deliveryReport : Bool) :
    IngressM (Except EspErr Unit) :=
  Prog.send (Call.fingerprint recipient text deliveryReport)

abbrev claim (key : CStr) (fingerprint : Digest) :
    IngressM (Except EspErr (IdempotencyResult × UInt32)) :=
  Prog.send (Call.claim key fingerprint)

/-- `modem_core_sms_send`, which is `sms_service_send`. -/
abbrev modemCoreSmsSend (recipient text : CStr) (deliveryReport : Bool) :
    IngressM (Except EspErr UInt32) :=
  Prog.send (Call.send recipient text deliveryReport)

abbrev finalize (key : CStr) (fingerprint : Digest) (messageId : UInt32) :
    IngressM (Except EspErr Unit) :=
  Prog.send (Call.finalize key fingerprint messageId)

abbrev releasePending (key : CStr) (fingerprint : Digest) : IngressM (Except EspErr Unit) :=
  Prog.send (Call.releasePending key fingerprint)

abbrev clearPending : IngressM (Except EspErr Unit × UInt32) := Prog.send Call.clearPending

abbrev modemCoreSmsGet (id : UInt32) : IngressM (Except EspErr SmsMessage) := Prog.send (Call.get id)

/-- `calloc` for a record. -/
abbrev allocate : IngressM Bool := Prog.send Call.allocate

/-- `gateway_rate_limiter_allow` of the outbound limiter. -/
abbrev limiterAllow : IngressM Bool := Prog.send Call.limiterAllow

/-- At most three attempts, as both callers make them. -/
def finalizeLoop (key : CStr) (fingerprint : Digest) (messageId : UInt32) : Nat → IngressM Bool
  | 0 => pure false
  | attempts + 1 => do
      match ← finalize key fingerprint messageId with
      | .ok () => pure true
      | .error _ => finalizeLoop key fingerprint messageId attempts

/-! The REST endpoint. -/

inductive HttpBody where
  | problem (status : Nat) (type title detail : String)
  | message (status : Nat) (record : SmsMessage)
  | cleared (count : UInt32)
  | failed (error : EspErr)

structure HttpReply where
  idempotencyPending : Bool
  location : Option UInt32
  body : HttpBody

def HttpReply.of (body : HttpBody) : HttpReply := ⟨false, none, body⟩

def problem (status : Nat) (type title detail : String) : HttpReply :=
  .of (.problem status type title detail)

/-- A request: what `authorized` or `request_allowed` answered if one of them refused
it, the JSON document of its body unless the body is unreadable or no JSON, the
`Idempotency-Key` header (empty without one) and whether it could be copied. -/
structure MessagePost where
  refusal : Option HttpReply
  body : Option (Option Json)
  idempotencyKey : CStr
  headerCopied : Bool

def postFields (json : Json) : Option (CStr × CStr × Bool) :=
  let dr := match json.item (.text "delivery_report") with
    | none => json.item (.text "request_delivery_report")
    | found => found
  messageFields (json.item (.text "to")) (json.item (.text "text")) dr

def postAllowed : List CStr :=
  [.text "to", .text "text", .text "delivery_report", .text "request_delivery_report"]

def invalidKey : HttpReply :=
  problem 400 "urn:sms-gateway:invalid-idempotency-key" "Bad Request" "Invalid Idempotency-Key"

def queueFailed (e : EspErr) : HttpReply :=
  problem (if e = .noMem then 507 else 503) "urn:sms-gateway:queue-failed" "Service Unavailable"
    "SMS could not be durably queued"

def storeRead : HttpReply :=
  problem 500 "urn:sms-gateway:store-read" "Internal Server Error"
    "Queued message could not be read back"

/-- The answer to a request whose message was queued. -/
def answerQueued (messageId : UInt32) (finalized : Bool) : IngressM HttpReply := do
  if ← allocate then
    match ← modemCoreSmsGet messageId with
    | .error _ => pure { storeRead with idempotencyPending := !finalized }
    | .ok message => pure ⟨!finalized, some messageId, .message 202 message⟩
  else pure ⟨!finalized, none, .failed .noMem⟩

/-- The end of the handler, from `modem_core_sms_send` on, with the key and the
fingerprint if they were claimed. -/
def queueMessage (recipient text : CStr) (delivery : Bool) :
    Option (CStr × Digest) → IngressM HttpReply
  | none => do
      match ← modemCoreSmsSend recipient text delivery with
      | .error e => pure (queueFailed e)
      | .ok messageId => answerQueued messageId true
  | some (key, fingerprint) => do
      match ← modemCoreSmsSend recipient text delivery with
      | .error e => do
          let _ ← releasePending key fingerprint
          pure (queueFailed e)
      | .ok messageId => do
          let finalized ← finalizeLoop key fingerprint messageId 3
          answerQueued messageId finalized

section

variable (sha256 : List UInt8 → Digest)

/-- The part of the handler behind the checks. -/
def postMessage (post : MessagePost) (recipient text : CStr) (delivery : Bool) : IngressM HttpReply := do
  if post.idempotencyKey.length = 0 then queueMessage recipient text delivery none
  else if post.idempotencyKey.length ≥ 129 || !post.headerCopied ||
      !gatewayIdempotencyKeyValid post.idempotencyKey then pure invalidKey
  else match ← smsFingerprint recipient text delivery with
    | .error _ => pure invalidKey
    | .ok () =>
        let fingerprint := sha256 (fingerprintBytes recipient text delivery)
        match ← claim post.idempotencyKey fingerprint with
        | .error _ => pure (problem 503 "urn:sms-gateway:idempotency-unavailable"
            "Service Unavailable"
            "Idempotency reservation could not be persisted; SMS was not queued")
        | .ok (.conflict, _) => pure (problem 409 "urn:sms-gateway:idempotency-conflict" "Conflict"
            "Idempotency-Key was already used with a different request")
        | .ok (.replay, existingId) =>
            if existingId = 0 then
              pure (problem 409 "urn:sms-gateway:idempotency-pending" "Conflict"
                "A previous request with this key is durably reserved but its message ID is not finalized; using another key could duplicate an SMS")
            else if ← allocate then
              match ← modemCoreSmsGet existingId with
              | .error _ => pure (problem 409 "urn:sms-gateway:idempotency-expired" "Conflict"
                  "Idempotent message record is no longer retained")
              | .ok existing => pure (.of (.message 202 existing))
            else pure (.of (.failed .noMem))
        | .ok (.miss, _) =>
            queueMessage recipient text delivery (some (post.idempotencyKey, fingerprint))

def invalidJson : HttpReply :=
  problem 400 "urn:sms-gateway:invalid-json" "Bad Request" "Invalid JSON body or unknown field"

def messagesPostHandler (post : MessagePost) : IngressM HttpReply :=
  match post.refusal with
  | some reply => pure reply
  | none =>
      match post.body with
      | none => pure (problem 400 "urn:sms-gateway:invalid-body" "Bad Request"
          "Request body is missing or too large")
      | some none => pure invalidJson
      | some (some json) =>
          if !jsonHasOnlyFields json postAllowed then pure invalidJson
          else match postFields json with
            | none => pure (problem 400 "urn:sms-gateway:invalid-message" "Bad Request"
                "Invalid E.164 recipient, text, or delivery-report flag")
            | some (recipient, text, delivery) =>
                match smsSubmitPreflight recipient text 0x0100 with
                | none => pure (problem 422 "urn:sms-gateway:message-too-long"
                    "Unprocessable Content"
                    "Message cannot be encoded within the 16-segment SMS limit")
                | some _ => postMessage sha256 post recipient text delivery

/-! The MQTT command. -/

/-- What `publish_command_result` is given. -/
structure CommandResult where
  requestId : Option CStr
  ok : Bool
  code : String
  messageId : UInt32
  replayed : Bool

def stringItem (json : Option Json) (name : CStr) : Option CStr :=
  match json.bind (·.item name) with
  | some (.string value) => some value
  | _ => none

def commandFields (json : Option Json) : Option (CStr × CStr × Bool) :=
  messageFields (json.bind (·.item (.text "to"))) (json.bind (·.item (.text "text")))
    (json.bind (·.item (.text "delivery_report")))

/-- The part of the command behind the checks. -/
def sendCommand (requestId recipient text : CStr) (delivery : Bool) : IngressM CommandResult := do
  let answer (ok : Bool) (code : String) (messageId : UInt32) (replayed : Bool) : CommandResult :=
    ⟨some requestId, ok, code, messageId, replayed⟩
  if ← limiterAllow then
    match ← smsFingerprint recipient text delivery with
    | .error _ => pure (answer false "internal_error" 0 false)
    | .ok () =>
        let fingerprint := sha256 (fingerprintBytes recipient text delivery)
        match ← claim requestId fingerprint with
        | .error _ => pure (answer false "idempotency_unavailable" 0 false)
        | .ok (.conflict, existing) => pure (answer false "idempotency_conflict" existing false)
        | .ok (.replay, existing) =>
            if existing = 0 then pure (answer false "idempotency_pending" 0 true)
            else if ← allocate then
              match ← modemCoreSmsGet existing with
              | .ok _ => pure (answer true "accepted" existing true)
              | .error _ => pure (answer false "idempotency_expired" existing false)
            else pure (answer false "idempotency_expired" existing false)
        | .ok (.miss, _) =>
            match ← modemCoreSmsSend recipient text delivery with
            | .error _ => do
                let _ ← releasePending requestId fingerprint
                pure (answer false "queue_failed" 0 false)
            | .ok id => do
                let finalized ← finalizeLoop requestId fingerprint id 3
                pure (answer true
                  (if finalized then "accepted" else "accepted_idempotency_pending") id false)
  else pure (answer false "rate_limited" 0 false)

/-- The payload is the parsed document, if it is JSON at all. -/
def handleStructuredSend (payload : Option Json) : IngressM CommandResult :=
  let requestId := stringItem payload (.text "request_id")
  match requestId, commandFields payload with
  | some id, some (recipient, text, delivery) =>
      if !gatewayIdempotencyKeyValid id then
        pure ⟨requestId, false, "invalid_request", 0, false⟩
      else match smsSubmitPreflight recipient text 0x0100 with
        | none => pure ⟨some id, false, "message_too_long", 0, false⟩
        | some _ => sendCommand sha256 id recipient text delivery
  | _, _ => pure ⟨requestId, false, "invalid_request", 0, false⟩

end

/-! The operator. -/

structure ClearRequest where
  refusal : Option HttpReply
  body : Option (Option Json)

def acknowledged (json : Option Json) : Bool :=
  match json with
  | none => false
  | some json =>
      jsonHasOnlyFields json [.text "acknowledge_duplicate_risk"] &&
        match json.item (.text "acknowledge_duplicate_risk") with
        | some (.bool true) => true
        | _ => false

def idempotencyClearPendingHandler (request : ClearRequest) : IngressM HttpReply :=
  match request.refusal with
  | some reply => pure reply
  | none =>
      match request.body with
      | none => pure (problem 400 "urn:sms-gateway:invalid-body" "Bad Request"
          "Request body is missing or too large")
      | some json =>
          if !acknowledged json then
            pure (problem 409 "urn:sms-gateway:duplicate-risk-not-acknowledged" "Conflict"
              "Clearing pending idempotency reservations can permit duplicate SMS; explicit acknowledgement is required")
          else do
            match ← clearPending with
            | (.error _, _) => pure (problem 503 "urn:sms-gateway:idempotency-recovery"
                "Service Unavailable" "Pending reservations could not be cleared")
            | (.ok (), cleared) => pure (.of (.cleared cleared))

end SmsGateway.Ledger
