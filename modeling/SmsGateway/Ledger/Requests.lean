import SmsGateway.Ledger.Effects
import SmsGateway.Ledger.Ingress
import SmsGateway.Lib.Runs
import SmsGateway.Lib.Typestate

/-! Requests next to each other: any number of tasks take requests in, one call of one
task at a time, and the device may lose power between any two calls. -/

namespace SmsGateway.Ledger

open Lib

/-- A request that one of the tasks handles. -/
inductive Ingress where
  | post (request : MessagePost)
  | structuredSend (payload : Option Json)
  | clearPending (request : ClearRequest)

inductive Response where
  | http (reply : HttpReply)
  | command (result : CommandResult)

namespace Ingress

/-- The idempotency key that the request carries. -/
def key : Ingress → Option CStr
  | .post request =>
      if request.idempotencyKey.length = 0 then none else some request.idempotencyKey
  | .structuredSend payload => stringItem payload (.text "request_id")
  | .clearPending _ => none

/-- Recipient, text and delivery-report flag of the request. -/
def message : Ingress → Option (CStr × CStr × Bool)
  | .post request => (request.body.bind id).bind postFields
  | .structuredSend payload => commandFields payload
  | .clearPending _ => none

section

variable (sha256 : List UInt8 → Digest)

def program : Ingress → IngressM Response
  | .post request => do
      let reply ← messagesPostHandler sha256 request
      pure (.http reply)
  | .structuredSend payload => do
      let result ← handleStructuredSend sha256 payload
      pure (.command result)
  | .clearPending request => do
      let reply ← idempotencyClearPendingHandler request
      pure (.http reply)

end

end Ingress

/-- The bytes that are hashed for a message. -/
def messageBytes (message : CStr × CStr × Bool) : List UInt8 :=
  fingerprintBytes message.1 message.2.1 message.2.2

/-- How far a request with a key is. -/
inductive Phase where
  | unclaimed
  | claimed
  | failed
  | settled
  deriving DecidableEq

/-- Whether this is a claim that found no record. -/
def missed : Except EspErr (IdempotencyResult × UInt32) → Bool
  | .ok (.miss, _) => true
  | _ => false

def sentPhase : Except EspErr UInt32 → Phase
  | .ok _ => .settled
  | .error _ => .failed

/-- The protocol of a request: with a key it claims first, sends only after a miss,
releases only after a failed send, and each time with its own key and fingerprint. -/
def after (key : Option CStr) (message : Option (CStr × CStr × Bool))
    (sha256 : List UInt8 → Digest) : Phase → (request : Call) → Reply request → Option Phase
  | .unclaimed, .claim claimedKey fingerprint, reply =>
      if key = some claimedKey ∧ (message.map fun m => sha256 (messageBytes m)) = some fingerprint then
        some (if missed reply then .claimed else .settled)
      else none
  | .unclaimed, .send .., _ => if key = none then some .settled else none
  | .unclaimed, .clearPending, _ => if key = none then some .settled else none
  | .claimed, .send .., reply => some (sentPhase reply)
  | .failed, .releasePending releasedKey _, _ =>
      if key = some releasedKey then some .settled else none
  | .settled, .finalize finalizedKey _ _, _ =>
      if key = some finalizedKey then some .settled else none
  | phase, .fingerprint .., _ => some phase
  | phase, .get _, _ => some phase
  | phase, .allocate, _ => some phase
  | phase, .limiterAllow, _ => some phase
  | _, _, _ => none

/-- Calls that neither touch the ledger nor queue a message. -/
def Call.aside : Call → Bool
  | .fingerprint .. | .get _ | .allocate | .limiterAllow => true
  | _ => false

/-- What the protocol has in each phase. -/
inductive Moves (key : Option CStr) (message : Option (CStr × CStr × Bool))
    (sha256 : List UInt8 → Digest) : Phase → (request : Call) → Reply request → Phase → Prop where
  | aside {phase : Phase} {request : Call} {reply : Reply request} (other : request.aside = true) :
      Moves key message sha256 phase request reply phase
  | claim {own : CStr} {fingerprint : Digest} {reply : Reply (.claim own fingerprint)}
      (carried : key = some own)
      (agrees : (message.map fun m => sha256 (messageBytes m)) = some fingerprint) :
      Moves key message sha256 .unclaimed (.claim own fingerprint) reply
        (if missed reply then .claimed else .settled)
  | sendAnonymous {recipient text : CStr} {delivery : Bool}
      {reply : Reply (.send recipient text delivery)} (anonymous : key = none) :
      Moves key message sha256 .unclaimed (.send recipient text delivery) reply .settled
  | clear {reply : Reply .clearPending} (anonymous : key = none) :
      Moves key message sha256 .unclaimed .clearPending reply .settled
  | send {recipient text : CStr} {delivery : Bool} {reply : Reply (.send recipient text delivery)} :
      Moves key message sha256 .claimed (.send recipient text delivery) reply (sentPhase reply)
  | release {own : CStr} {fingerprint : Digest} {reply : Reply (.releasePending own fingerprint)}
      (carried : key = some own) :
      Moves key message sha256 .failed (.releasePending own fingerprint) reply .settled
  | finalize {own : CStr} {fingerprint : Digest} {messageId : UInt32}
      {reply : Reply (.finalize own fingerprint messageId)} (carried : key = some own) :
      Moves key message sha256 .settled (.finalize own fingerprint messageId) reply .settled

theorem after_moves {key : Option CStr} {message : Option (CStr × CStr × Bool)}
    {sha256 : List UInt8 → Digest} {phase later : Phase} {request : Call} {reply : Reply request}
    (moves : after key message sha256 phase request reply = some later) :
    Moves key message sha256 phase request reply later := by
  cases request with
  | fingerprint => cases phase <;> cases moves <;> exact .aside rfl
  | get => cases phase <;> cases moves <;> exact .aside rfl
  | allocate => cases phase <;> cases moves <;> exact .aside rfl
  | limiterAllow => cases phase <;> cases moves <;> exact .aside rfl
  | claim own fingerprint =>
      cases phase with
      | unclaimed =>
          simp only [after] at moves
          split at moves
          · rename_i fits
            cases moves
            exact .claim fits.1 fits.2
          · cases moves
      | claimed => cases moves
      | failed => cases moves
      | settled => cases moves
  | send recipient text delivery =>
      cases phase with
      | unclaimed =>
          simp only [after] at moves
          split at moves
          · rename_i anonymous
            cases moves
            exact .sendAnonymous anonymous
          · cases moves
      | claimed =>
          cases moves
          exact .send
      | failed => cases moves
      | settled => cases moves
  | clearPending =>
      cases phase with
      | unclaimed =>
          simp only [after] at moves
          split at moves
          · rename_i anonymous
            cases moves
            exact .clear anonymous
          · cases moves
      | claimed => cases moves
      | failed => cases moves
      | settled => cases moves
  | releasePending own fingerprint =>
      cases phase with
      | unclaimed => cases moves
      | claimed => cases moves
      | failed =>
          simp only [after] at moves
          split at moves
          · rename_i carried
            cases moves
            exact .release carried
          · cases moves
      | settled => cases moves
  | finalize own fingerprint messageId =>
      cases phase with
      | unclaimed => cases moves
      | claimed => cases moves
      | failed => cases moves
      | settled =>
          simp only [after] at moves
          split at moves
          · rename_i carried
            cases moves
            exact .finalize carried
          · cases moves

open Prog

section

variable {sha256 : List UInt8 → Digest} {key : CStr} {recipient text : CStr} {delivery : Bool}

theorem finalizeLoop_stays {message : Option (CStr × CStr × Bool)} (fingerprint : Digest)
    (messageId : UInt32) (attempts : Nat) :
    (finalizeLoop key fingerprint messageId attempts).Calls fun request =>
      ∀ reply, after (some key) message sha256 .settled request reply = some .settled := by
  induction attempts with
  | zero => trivial
  | succ attempts ih =>
      refine ⟨fun reply => if_pos rfl, ?_⟩
      rintro (e | ⟨⟩)
      · exact ih
      · trivial

theorem answerQueued_follows {optionalKey : Option CStr} {message : Option (CStr × CStr × Bool)}
    (phase : Phase) (messageId : UInt32) (finalized : Bool) :
    Follows (after optionalKey message sha256) phase (answerQueued messageId finalized) := by
  refine .send (fun _ => phase) (by intro _; cases phase <;> rfl) ?_
  rintro (_ | _)
  · trivial
  · refine .send (fun _ => phase) (by intro _; cases phase <;> rfl) ?_
    rintro (e | found)
    · trivial
    · trivial

theorem queueMessage_follows (fingerprint : Digest) {message : Option (CStr × CStr × Bool)} :
    Follows (after (some key) message sha256) .claimed
      (queueMessage recipient text delivery (some (key, fingerprint))) := by
  refine .send sentPhase (fun _ => rfl) ?_
  rintro (e | messageId)
  · exact .send (fun _ => .settled) (fun _ => if_pos rfl) fun _ => trivial
  · exact .bind (finalizeLoop_stays _ _ _) fun finalized => answerQueued_follows _ _ _

theorem queueMessage_anonymous {message : Option (CStr × CStr × Bool)} :
    Follows (after none message sha256) .unclaimed
      (queueMessage recipient text delivery none) := by
  rintro (e | messageId)
  · exact ⟨.settled, rfl, trivial⟩
  · exact ⟨.settled, rfl, answerQueued_follows _ _ _⟩

theorem postMessage_follows (request : MessagePost) :
    Follows (after (Ingress.post request).key (some (recipient, text, delivery)) sha256) .unclaimed
      (postMessage sha256 request recipient text delivery) := by
  unfold postMessage
  split
  · rename_i anonymous
    simp only [Ingress.key, anonymous, ↓reduceIte]
    exact queueMessage_anonymous
  · rename_i named
    simp only [Ingress.key, named, ↓reduceIte]
    split
    · trivial
    · refine .send (fun _ => .unclaimed) (fun _ => rfl) ?_
      rintro (e | ⟨⟩)
      · trivial
      · refine .send (fun reply => if missed reply then .claimed else .settled)
          (fun _ => if_pos ⟨rfl, rfl⟩) ?_
        rintro (e | ⟨result, existingId⟩)
        · trivial
        · cases result with
          | conflict => trivial
          | miss => exact queueMessage_follows _
          | replay =>
              by_cases pending : existingId = 0
              · simp only [pending, ↓reduceIte]
                trivial
              · simp only [pending, ↓reduceIte]
                refine .send (fun _ => .settled) (fun _ => rfl) ?_
                rintro (_ | _)
                · trivial
                · refine .send (fun _ => .settled) (fun _ => rfl) ?_
                  rintro (e | existing)
                  · trivial
                  · trivial

theorem sendCommand_follows :
    Follows (after (some key) (some (recipient, text, delivery)) sha256) .unclaimed
      (sendCommand sha256 key recipient text delivery) := by
  refine .send (fun _ => .unclaimed) (fun _ => rfl) ?_
  rintro (_ | _)
  · trivial
  · refine .send (fun _ => .unclaimed) (fun _ => rfl) ?_
    rintro (e | ⟨⟩)
    · trivial
    · refine .send (fun reply => if missed reply then .claimed else .settled)
        (fun _ => if_pos ⟨rfl, rfl⟩) ?_
      rintro (e | ⟨result, existing⟩)
      · trivial
      · cases result with
        | conflict => trivial
        | miss =>
            refine .send sentPhase (fun _ => rfl) ?_
            rintro (e | id)
            · exact .send (fun _ => .settled) (fun _ => if_pos rfl) fun _ => trivial
            · exact .bind (finalizeLoop_stays _ _ _) fun _ => trivial
        | replay =>
            by_cases pending : existing = 0
            · simp only [pending, ↓reduceIte]
              trivial
            · simp only [pending, ↓reduceIte]
              refine .send (fun _ => .settled) (fun _ => rfl) ?_
              rintro (_ | _)
              · trivial
              · refine .send (fun _ => .settled) (fun _ => rfl) ?_
                rintro (e | found)
                · trivial
                · trivial

end

/-- Every request follows the protocol. -/
theorem program_follows (sha256 : List UInt8 → Digest) (op : Ingress) :
    Follows (after op.key op.message sha256) .unclaimed (op.program sha256) := by
  cases op with
  | post request =>
      apply Follows.returning
      unfold messagesPostHandler
      split
      · trivial
      · split
        · trivial
        · trivial
        · rename_i json stored
          split
          · trivial
          · split
            · trivial
            · rename_i recipient text delivery fields
              have read : (Ingress.post request).message = some (recipient, text, delivery) := by
                simp [Ingress.message, stored, fields]
              rw [read]
              split
              · trivial
              · exact postMessage_follows request
  | structuredSend payload =>
      apply Follows.returning
      unfold handleStructuredSend
      simp only
      split
      · rename_i requestId recipient text delivery named fields
        have read : (Ingress.structuredSend payload).message = some (recipient, text, delivery) :=
          fields
        have carried : (Ingress.structuredSend payload).key = some requestId := named
        rw [read, carried]
        split
        · trivial
        · split
          · trivial
          · exact sendCommand_follows
      · trivial
  | clearPending request =>
      apply Follows.returning
      unfold idempotencyClearPendingHandler
      split
      · trivial
      · split
        · trivial
        · split
          · trivial
          · refine .send (fun _ => .settled) (fun _ => rfl) ?_
            rintro ⟨(e | ⟨⟩), cleared⟩
            · trivial
            · trivial

end SmsGateway.Ledger
