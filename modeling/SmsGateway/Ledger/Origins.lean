import Mathlib.Data.Set.Function
import SmsGateway.Ledger.Queueing

/-! Where the records of the ledger come from, and what a claim of a key that has one
is answered. -/

namespace SmsGateway.Ledger

open Lib Prog

/-- No two slots hold a record of one key. -/
def Distinct (c : Contents) : Prop := DistinctKeys IdemRecord.keyHash (records c)

theorem Distinct.reserve {c : Contents} {scan : ClaimScan} {keyHash requestHash : Digest}
    (distinct : Distinct c) (slot : Slot) (absent : ¬ HoldsKey keyHash c) :
    Distinct (put c slot (reservation scan keyHash requestHash)) := by
  unfold Distinct
  rw [records_put _ _ (reservation_current _ _ _)]
  apply distinct.store
  intro other held stored same
  exact absurd ⟨other, held, stored, same⟩ absent

theorem Distinct.rename {c : Contents} {slot : Slot} {record : IdemRecord} (distinct : Distinct c)
    (held : records c slot = some record) (messageId : UInt32) :
    Distinct (put c slot { record with messageId := messageId }) := by
  unfold Distinct
  rw [records_rename held]
  apply distinct.store
  intro other stored here same
  exact distinct other slot stored record here held same

theorem Distinct.below {c d : Contents} (distinct : Distinct d) (below : Below c d) : Distinct c :=
  fun slot other record held stored otherStored same =>
    distinct slot other record held (below _ _ stored) (below _ _ otherStored) same

/-- Two strings behind each other, each with its terminator, can be told apart. -/
theorem messageBytes_injective : Function.Injective messageBytes := by
  rintro ⟨recipient, text, delivery⟩ ⟨recipient', text', delivery'⟩ same
  have split {first second : CStr} {rest rest' : List UInt8}
      (equal : first.bytes ++ 0 :: rest = second.bytes ++ 0 :: rest') :
      first = second ∧ rest = rest' := by
    have taken := congrArg (List.takeWhile fun byte => decide (byte ≠ 0)) equal
    have whole (s : CStr) (tail : List UInt8) :
        (s.bytes ++ 0 :: tail).takeWhile (fun byte => decide (byte ≠ 0)) = s.bytes := by
      rw [List.takeWhile_append_of_pos]
      · simp
      · intro byte member
        simp only [decide_eq_true_eq]
        rintro rfl
        exact s.noNul member
    rw [whole, whole] at taken
    rw [taken] at equal
    refine ⟨CStr.ext taken, ?_⟩
    simpa using equal
  simp only [messageBytes, fingerprintBytes, List.append_assoc, List.cons_append,
    List.nil_append] at same
  obtain ⟨rfl, behind⟩ := split same
  obtain ⟨rfl, flag⟩ := split behind
  cases delivery <;> cases delivery' <;> first | rfl | cases flag

variable {Task : Type}

/-- The request that claims a key. -/
def Event.claimant : Event Task → Option Ingress
  | .call _ op (.claim ..) _ => some op
  | _ => none

/-- The inputs that claims of the run hash: keys and messages. -/
def hashed (trace : List (Event Task)) : Set (List UInt8) :=
  { bytes | ∃ op ∈ trace.filterMap Event.claimant,
    op.key.map CStr.bytes = some bytes ∨ op.message.map messageBytes = some bytes }

section

variable (sha256 : List UInt8 → Digest)

/-- The record was written for a request of the run. -/
def Origin (trace : List (Event Task)) (record : IdemRecord) : Prop :=
  ∃ op ∈ trace.filterMap Event.claimant, op.keyHash sha256 = some record.keyHash ∧
    (op.message.map fun m => sha256 (messageBytes m)) = some record.requestHash

/-- One record a key, each from a request of the run. -/
structure Traced (trace : List (Event Task)) (c : Contents) : Prop where
  distinct : Distinct c
  origin : ∀ slot record, records c slot = some record → Origin sha256 trace record

end

section

variable {sha256 : List UInt8 → Digest} {trace : List (Event Task)} {c d : Contents}

theorem Traced.snoc (traced : Traced sha256 trace c) (event : Event Task) :
    Traced sha256 (trace ++ [event]) c := by
  refine ⟨traced.distinct, ?_⟩
  intro slot record held
  obtain ⟨op, member, facts⟩ := traced.origin slot record held
  refine ⟨op, ?_, facts⟩
  rw [List.filterMap_append]
  exact List.mem_append_left _ member

theorem Traced.below (traced : Traced sha256 trace d) (below : Below c d) :
    Traced sha256 trace c :=
  ⟨traced.distinct.below below,
    fun slot record held => traced.origin slot record (below slot record held)⟩

theorem Traced.reserve {slot : Slot} {scan : ClaimScan} {keyHash requestHash : Digest}
    (traced : Traced sha256 trace c) (absent : ¬ HoldsKey keyHash c)
    (origin : Origin sha256 trace (reservation scan keyHash requestHash)) :
    Traced sha256 trace (put c slot (reservation scan keyHash requestHash)) := by
  refine ⟨traced.distinct.reserve slot absent, ?_⟩
  intro other record held
  rw [records_put _ _ (reservation_current _ _ _), Function.update_apply] at held
  split at held
  · cases held
    exact origin
  · exact traced.origin other record held

theorem Traced.rename {slot : Slot} {record : IdemRecord} (traced : Traced sha256 trace c)
    (held : records c slot = some record) (messageId : UInt32) :
    Traced sha256 trace (put c slot { record with messageId := messageId }) := by
  refine ⟨traced.distinct.rename held messageId, ?_⟩
  intro other stored here
  rw [records_rename held, Function.update_apply] at here
  split at here
  · cases here
    exact traced.origin slot record held
  · exact traced.origin other stored here

end

variable {sha256 : List UInt8 → Digest} {trace : List (Event Task)} {s t : Flash}
  {keyHash requestHash : Digest}

theorem Claimed.traced {faulty : Prop} {reply : Except EspErr (IdempotencyResult × UInt32)}
    (claimed : Claimed faulty keyHash requestHash s reply t)
    (traced : s.Throughout (Traced sha256 trace))
    (origin : ∀ scan, Origin sha256 trace (reservation scan keyHash requestHash)) :
    t.Throughout (Traced sha256 trace) := by
  cases claimed with
  | refused e fault => exact traced
  | found held same => exact traced
  | full absent occupied => exact traced
  | unsettled e fault absent chosen =>
      exact traced.write (traced.current.reserve absent (origin _))
  | reserved absent chosen => exact .of_current (traced.current.reserve absent (origin _))

theorem Finalized.traced {messageId : UInt32} {reply : Except EspErr Unit}
    (finalized : Finalized keyHash requestHash messageId s reply t)
    (traced : s.Throughout (Traced sha256 trace)) : t.Throughout (Traced sha256 trace) := by
  cases finalized with
  | unchanged e => exact traced
  | unsettled e named held same agrees => exact traced.write (traced.current.rename held _)
  | stored named held same agrees => exact .of_current (traced.current.rename held _)

theorem Released.traced {reply : Except EspErr Unit} (released : Released keyHash s reply t)
    (traced : s.Throughout (Traced sha256 trace)) : t.Throughout (Traced sha256 trace) := by
  cases released with
  | unchanged e => exact traced
  | unsettled e held same pending => exact traced.write (traced.current.below (wipe_below _ _))
  | erased held same pending => exact .of_current (traced.current.below (wipe_below _ _))

theorem Cleared.traced (cleared : Cleared s t) (traced : s.Throughout (Traced sha256 trace)) :
    t.Throughout (Traced sha256 trace) := by
  refine ⟨traced.current.below cleared.below, ?_⟩
  intro c member
  rcases cleared.between c member with earlier | ⟨-, below⟩
  · exact traced.earlier c earlier
  · exact traced.current.below below

variable [DecidableEq Task]

/-- One step, with the claim it may make as the origin of a new record. -/
theorem Step.traced {phase : Task → Phase} {s t : State Task} {event : Event Task}
    (step : Step sha256 s event t) (inPhase : InPhase sha256 phase s)
    (traced : s.flash.Throughout (Traced sha256 trace)) :
    t.flash.Throughout (Traced sha256 (trace ++ [event])) := by
  have before : s.flash.Throughout (Traced sha256 (trace ++ [event])) :=
    ⟨traced.current.snoc event, fun c member => (traced.earlier c member).snoc event⟩
  cases step with
  | start idle => exact before
  | finish running => exact before
  | crash lost => exact before.powerLoss lost
  | @call task op request next reply flash running answered =>
      obtain ⟨later, moves, -⟩ := inPhase task op _ running reply
      generalize phase task = current at moves
      have cases_ := after_moves moves
      cases cases_ with
      | aside other =>
          obtain rfl := aside_leaves other answered
          exact before
      | @claim own fingerprint reply carried agrees =>
          refine ((claim_ends sha256 own fingerprint).yields answered).traced before ?_
          intro scan
          refine ⟨op, ?_, keyHash_of_key carried, agrees⟩
          rw [List.filterMap_append]
          exact List.mem_append_right _ (by simp [Event.claimant])
      | sendAnonymous anonymous =>
          obtain rfl : flash = s.flash := answered
          exact before
      | send =>
          obtain rfl : flash = s.flash := answered
          exact before
      | clear anonymous => exact (clear_ends.yields answered).traced before
      | @release own fingerprint reply carried =>
          exact ((release_ends sha256 own fingerprint).yields answered).traced before
      | @finalize own fingerprint messageId reply carried =>
          exact ((finalize_ends sha256 own fingerprint messageId).yields answered).traced before

theorem traced_of_runs {contents : Contents} (blank : ∀ slot, records contents slot = none)
    {s : State Task} (runs : Runs (Step sha256) (State.fresh contents) trace s) :
    ∃ phase, InPhase sha256 phase s ∧ s.flash.Throughout (Traced sha256 trace) := by
  refine runs.invariant (fun trace s => ∃ phase, InPhase sha256 phase s ∧
    s.flash.Throughout (Traced sha256 trace)) ?_ ?_
  · have nothing {slot : Slot} {record : IdemRecord}
        (held : records (State.fresh contents : State Task).flash.current slot = some record) :
        False := by
      have none_ : records (State.fresh contents : State Task).flash.current slot = none :=
        blank slot
      rw [none_] at held
      cases held
    refine ⟨fun _ => .unclaimed, .none _, ⟨⟨?_, ?_⟩, nofun⟩⟩
    · intro slot other record held stored
      exact (nothing stored).elim
    · intro slot record held
      exact (nothing held).elim
  · rintro trace s event t - ⟨phase, inPhase, traced⟩ step
    obtain ⟨later, there⟩ := step.inPhase inPhase
    exact ⟨later, there, step.traced inPhase traced⟩

/-- What a claim can be answered while its key has a record. -/
theorem Claimed.of_held {faulty : Prop} {slot : Slot} {record : IdemRecord}
    {reply : Except EspErr (IdempotencyResult × UInt32)}
    (claimed : Claimed faulty keyHash requestHash s reply t) (distinct : Distinct s.current)
    (held : records s.current slot = some record) (own : record.keyHash = keyHash) :
    (∀ id, reply ≠ .ok (.miss, id)) ∧
      (record.requestHash ≠ requestHash → ∀ id, reply ≠ .ok (.replay, id)) := by
  have present : HoldsKey keyHash s.current := ⟨slot, record, held, own⟩
  cases claimed with
  | refused e fault => exact ⟨nofun, fun _ => nofun⟩
  | full absent occupied => exact absurd present absent
  | unsettled e fault absent chosen => exact absurd present absent
  | reserved absent chosen => exact absurd present absent
  | @found place found stored same =>
      have here : place = slot := distinct place slot found record stored held (same.trans own.symm)
      subst here
      rw [held] at stored
      cases stored
      refine ⟨?_, ?_⟩
      · intro id equal
        simp only [Except.ok.injEq, Prod.mk.injEq] at equal
        split at equal <;> cases equal.1
      · intro different id equal
        simp only [if_neg different, Except.ok.injEq, Prod.mk.injEq] at equal
        cases equal.1

/-- However requests interleave, whatever the flash refuses and wherever the power is
lost, at most one message is queued for a key whose record is not evicted or cleared; and
while a key has a record, written for an earlier request with that key, a claim for
another message is neither a miss nor a replay. -/
theorem idempotent_queueing (sha256 : List UInt8 → Digest) (key : CStr) (contents : Contents)
    (blank : ∀ slot, records contents slot = none) :
    (∀ (trace : List (Event Task)) s,
      Runs (fun s event t => Step sha256 s event t ∧ Spares sha256 key s event t)
        (State.fresh contents) trace s → trace.countP (Event.queues key) ≤ 1) ∧
    (∀ (trace : List (Event Task)) s task op own fingerprint reply t,
      Runs (Step sha256) (State.fresh contents) trace s →
        Step sha256 s (.call task op (.claim own fingerprint) reply) t → op.key = some key →
        Set.InjOn sha256 (hashed (trace ++ [.call task op (.claim own fingerprint) reply])) →
        ∀ slot record, records s.flash.current slot = some record →
          record.keyHash = sha256 key.bytes →
          ∃ earlier ∈ trace.filterMap Event.claimant, earlier.key = some key ∧
            (earlier.message.map fun m => sha256 (messageBytes m)) = some record.requestHash ∧
            (op.message ≠ earlier.message →
              ∀ id, reply ≠ .ok (.miss, id) ∧ reply ≠ .ok (.replay, id))) := by
  refine ⟨fun trace s runs => queued_at_most_once runs, ?_⟩
  intro trace s task op own fingerprint reply t runs step carried collisionFree slot record held same
  obtain ⟨phase, inPhase, traced⟩ := traced_of_runs blank runs
  obtain ⟨earlier, member, hashedKey, hashedMessage⟩ := traced.current.origin slot record held
  have used (bytes : List UInt8) (other : Ingress) (there : other ∈ trace.filterMap Event.claimant)
      (input : other.key.map CStr.bytes = some bytes ∨
        other.message.map messageBytes = some bytes) :
      bytes ∈ hashed (trace ++ [.call task op (.claim own fingerprint) reply]) := by
    refine ⟨other, ?_, input⟩
    rw [List.filterMap_append]
    exact List.mem_append_left _ there
  have usedNow (bytes : List UInt8) (input : op.key.map CStr.bytes = some bytes ∨
        op.message.map messageBytes = some bytes) :
      bytes ∈ hashed (trace ++ [.call task op (.claim own fingerprint) reply]) := by
    refine ⟨op, ?_, input⟩
    rw [List.filterMap_append]
    exact List.mem_append_right _ (by simp [Event.claimant])
  obtain ⟨earlierKey, isKey, keyEqual⟩ := Option.map_eq_some_iff.mp hashedKey
  obtain ⟨earlierMessage, isMessage, messageEqual⟩ := Option.map_eq_some_iff.mp hashedMessage
  have sameKey : earlierKey = key := by
    apply CStr.ext
    refine collisionFree (used _ earlier member (.inl ?_)) (usedNow _ (.inl ?_))
      (keyEqual.trans same)
    · rw [isKey, Option.map_some]
    · rw [carried, Option.map_some]
  refine ⟨earlier, member, isKey.trans (congrArg some sameKey), hashedMessage, ?_⟩
  intro different
  cases step with
  | @call _ _ _ next _ flash running answered =>
      obtain ⟨later, moves, -⟩ := inPhase task op _ running reply
      generalize phase task = current at moves
      cases after_moves moves with
      | aside other => cases other
      | claim named agrees =>
          rw [carried, Option.some.injEq] at named
          subst named
          have claimed := (claim_ends sha256 key fingerprint).yields answered
          obtain ⟨noMiss, noReplay⟩ := claimed.of_held traced.current.distinct held same
          obtain ⟨message, isNow, hashedNow⟩ := Option.map_eq_some_iff.mp agrees
          have other : record.requestHash ≠ fingerprint := by
            intro equal
            rw [← messageEqual, ← hashedNow] at equal
            have bytes := collisionFree (used _ earlier member (.inr (by rw [isMessage, Option.map_some])))
              (usedNow _ (.inr (by rw [isNow, Option.map_some]))) equal
            rw [messageBytes_injective bytes] at isMessage
            exact different (isNow.trans isMessage.symm)
          exact fun id => ⟨noMiss id, noReplay other id⟩

/-! A retry with another text. -/

/-- SHA-256 on the three inputs of the example. -/
def retrySha256 (input : List UInt8) : Digest :=
  if input = (CStr.text "request-0001").bytes then
    ⟨#[199, 141, 228, 229, 222, 167, 212, 208, 226, 190, 183, 237, 3, 31, 119, 42,
      235, 239, 252, 45, 135, 254, 40, 72, 6, 59, 198, 190, 226, 223, 208, 120], rfl⟩
  else if input = messageBytes (.text "+49123", .text "hello", true) then
    ⟨#[196, 146, 250, 94, 138, 168, 151, 28, 212, 29, 215, 215, 115, 181, 189, 19,
      31, 243, 243, 80, 48, 121, 8, 238, 2, 212, 185, 121, 227, 64, 71, 234], rfl⟩
  else
    ⟨#[134, 202, 240, 46, 157, 33, 115, 152, 71, 104, 159, 187, 129, 227, 128, 235,
      76, 194, 143, 111, 118, 82, 82, 185, 141, 244, 86, 50, 112, 204, 141, 83], rfl⟩

def retryKey : CStr := .text "request-0001"

def retryCommand : Option Json :=
  some (.object [(.text "request_id", .string retryKey), (.text "to", .string (.text "+49123")),
    (.text "text", .string (.text "hello"))])

def retryBody : Json :=
  .object [(.text "to", .string (.text "+49123")), (.text "text", .string (.text "different"))]

def retryPost : MessagePost := ⟨none, some (some retryBody), retryKey, true⟩

theorem retryCommand_program : (Ingress.structuredSend retryCommand).program retrySha256 = (do
    let result ← sendCommand retrySha256 retryKey (.text "+49123") (.text "hello") true
    pure (.command result)) := by
  have named : stringItem retryCommand (.text "request_id") = some retryKey := by decide +kernel
  have fields : commandFields retryCommand = some (.text "+49123", .text "hello", true) := by
    decide +kernel
  have valid : gatewayIdempotencyKeyValid retryKey = true := by decide +kernel
  have fits : smsSubmitPreflight (.text "+49123") (.text "hello") 0x0100 = some (.gsm7, 1) := by
    decide +kernel
  simp only [Ingress.program, handleStructuredSend, named, fields, valid, fits, Bool.not_true]
  rfl

theorem retryPost_program : (Ingress.post retryPost).program retrySha256 = (do
    let reply ← postMessage retrySha256 retryPost (.text "+49123") (.text "different") true
    pure (.http reply)) := by
  have only : jsonHasOnlyFields retryBody postAllowed = true := by decide +kernel
  have fields : postFields retryBody = some (.text "+49123", .text "different", true) := by
    decide +kernel
  have fits : smsSubmitPreflight (.text "+49123") (.text "different") 0x0100 = some (.gsm7, 1) := by
    decide +kernel
  simp only [Ingress.program, messagesPostHandler, retryPost, only, fields, fits, Bool.not_true]
  rfl

def retryMessage : CStr × CStr × Bool := (.text "+49123", .text "hello", true)

def retryFingerprint : Digest := retrySha256 (messageBytes retryMessage)

def retryOther : Digest := retrySha256 (messageBytes (.text "+49123", .text "different", true))

/-- The flash after the command has claimed the key. -/
def retryFlash : Flash :=
  (gatewayIdempotencyClaim retrySha256 retryKey retryFingerprint (.faultless, ⟨fun _ => none, []⟩)).2.2

/-- The command takes the key. -/
def retryClaim : List (Event Bool) :=
  [.start false (.structuredSend retryCommand),
    .call false (.structuredSend retryCommand) .limiterAllow true,
    .call false (.structuredSend retryCommand) (.fingerprint (.text "+49123") (.text "hello") true)
      (.ok ()),
    .call false (.structuredSend retryCommand) (.claim retryKey retryFingerprint) (.ok (.miss, 0))]

/-- A run of tasks that leave the record of the key alone. -/
abbrev RetryRuns : List (Event Bool) → State Bool → Prop :=
  Runs (fun s event t => Step retrySha256 s event t ∧ Spares retrySha256 retryKey s event t)
    (State.fresh fun _ => none)

theorem RetryRuns.begin {trace : List (Event Bool)} {flash : Flash}
    {running : Bool → Option (Ingress × IngressM Response)} (task : Bool) (op : Ingress)
    (runs : RetryRuns trace ⟨flash, running⟩) (idle : running task = none) :
    RetryRuns (trace ++ [.start task op])
      ⟨flash, Function.update running task (some (op, op.program retrySha256))⟩ :=
  runs.step ⟨.start idle, trivial⟩

theorem RetryRuns.answer {trace : List (Event Bool)} {flash : Flash} {task : Bool} {op : Ingress}
    {running : Bool → Option (Ingress × IngressM Response)} (request : Call)
    (reply : Reply request) (t : Flash) {next : Reply request → IngressM Response}
    (runs : RetryRuns trace
      ⟨flash, Function.update running task (some (op, .call request next))⟩)
    (answered : Answers retrySha256 flash request reply t)
    (spares : ∀ s s' : State Bool, s.flash = flash → s'.flash = t →
      Spares retrySha256 retryKey s (.call task op request reply) s') :
    RetryRuns (trace ++ [.call task op request reply])
      ⟨t, Function.update running task (some (op, next reply))⟩ := by
  have step := runs.step ⟨.call (Function.update_self ..) answered, spares _ _ rfl rfl⟩
  simp only [Function.update_idem] at step
  exact step

theorem retry_claims : ∃ next, RetryRuns retryClaim
    ⟨retryFlash, Function.update (fun _ => none) false (some (.structuredSend retryCommand,
      .call (.send (.text "+49123") (.text "hello") true) next))⟩ := by
  have started := RetryRuns.begin false (.structuredSend retryCommand) Runs.start rfl
  rw [retryCommand_program] at started
  have allowed := RetryRuns.answer .limiterAllow true _ started rfl fun _ _ _ _ => trivial
  have printed := RetryRuns.answer (.fingerprint (.text "+49123") (.text "hello") true) (.ok ()) _
    allowed rfl fun _ _ _ _ => trivial
  have claimed := RetryRuns.answer (.claim retryKey retryFingerprint) (.ok (.miss, 0)) retryFlash
    printed ⟨.faultless, .inr rfl, by decide +kernel, rfl⟩ (by
      intro s t here _ slot record held
      rw [here] at held
      cases held)
  exact ⟨_, claimed⟩

/-- Then the retry over REST, up to its claim. -/
def retryPosted : List (Event Bool) :=
  retryClaim ++ [.start true (.post retryPost)] ++
    [.call true (.post retryPost) (.fingerprint (.text "+49123") (.text "different") true) (.ok ())]

theorem retryPost_reaches : ∃ next, postMessage retrySha256 retryPost (.text "+49123")
    (.text "different") true =
      .call (.fingerprint (.text "+49123") (.text "different") true) next ∧
    ∃ later, next (.ok ()) = .call (.claim retryKey retryOther) later := by
  have long : ¬ retryPost.idempotencyKey.length = 0 := by decide +kernel
  have valid : (decide (retryPost.idempotencyKey.length ≥ 129) || !retryPost.headerCopied ||
      !gatewayIdempotencyKeyValid retryPost.idempotencyKey) = false := by decide +kernel
  simp only [postMessage, long, valid, ↓reduceIte]
  exact ⟨_, rfl, _, rfl⟩

theorem retry_posted : ∃ next, RetryRuns retryPosted
    ⟨retryFlash, next⟩ ∧ ∃ later, next true = some (.post retryPost,
      .call (.claim retryKey retryOther) later) := by
  obtain ⟨next, claimed⟩ := retry_claims
  have posted := RetryRuns.begin true (.post retryPost) claimed rfl
  obtain ⟨first, program, later, claims⟩ := retryPost_reaches
  rw [retryPost_program, program] at posted
  have printed := RetryRuns.answer (.fingerprint (.text "+49123") (.text "different") true) (.ok ())
    _ posted rfl fun _ _ _ _ => trivial
  refine ⟨_, printed, ?_⟩
  have resumes : (first (.ok ()) >>= fun reply => pure (.http reply) : IngressM Response) =
      .call (.claim retryKey retryOther) fun reply => later reply >>= fun reply =>
        pure (.http reply) := by
    rw [claims]
    rfl
  exact ⟨_, (Function.update_self ..).trans (congrArg (fun rest => some (_, rest)) resumes)⟩

theorem retry_hashed {reply : Reply (.claim retryKey retryOther)} {bytes : List UInt8}
    (used : bytes ∈ hashed (retryPosted ++
      [.call true (.post retryPost) (.claim retryKey retryOther) reply])) :
    bytes ∈ [retryKey.bytes, messageBytes retryMessage,
      messageBytes (.text "+49123", .text "different", true)] := by
  obtain ⟨op, member, input⟩ := used
  have ops : .structuredSend retryCommand = op ∨ .post retryPost = op := by
    simpa [retryPosted, retryClaim, Event.claimant] using member
  have commandKey : (Ingress.structuredSend retryCommand).key = some retryKey := by decide +kernel
  have commandMessage : (Ingress.structuredSend retryCommand).message = some retryMessage := by
    decide +kernel
  have postKey : (Ingress.post retryPost).key = some retryKey := by decide +kernel
  have postMessage : (Ingress.post retryPost).message =
      some (.text "+49123", .text "different", true) := by decide +kernel
  rcases ops with rfl | rfl
  · rw [commandKey, commandMessage] at input
    simp only [Option.map_some, Option.some.injEq] at input
    rcases input with rfl | rfl <;> simp
  · rw [postKey, postMessage] at input
    simp only [Option.map_some, Option.some.injEq] at input
    rcases input with rfl | rfl <;> simp

theorem idempotent_queueing_retry :
    (retryClaim ++ [Event.call false (.structuredSend retryCommand)
      (.send (.text "+49123") (.text "hello") true) (.ok 7)]).countP (Event.queues retryKey) ≤ 1 ∧
    ∃ earlier ∈ retryPosted.filterMap Event.claimant, earlier.key = some retryKey ∧
      (earlier.message.map fun m => retrySha256 (messageBytes m)) = some retryFingerprint ∧
      ((Ingress.post retryPost).message ≠ earlier.message → ∀ id,
        (.ok (.conflict, 0) : Reply (.claim retryKey retryOther)) ≠ .ok (.miss, id) ∧
          (.ok (.conflict, 0) : Reply (.claim retryKey retryOther)) ≠ .ok (.replay, id)) := by
  have whole := @idempotent_queueing Bool _ retrySha256 retryKey (fun _ => none) fun _ => rfl
  constructor
  · obtain ⟨next, claimed⟩ := retry_claims
    exact whole.1 _ _ (RetryRuns.answer (.send (.text "+49123") (.text "hello") true) (.ok 7) _
      claimed rfl fun _ _ _ _ => trivial)
  · obtain ⟨running, posted, later, waiting⟩ := retry_posted
    have answer : (gatewayIdempotencyClaim retrySha256 retryKey retryOther
        (.faultless, retryFlash)).1 = .ok (.conflict, 0) := by decide +kernel
    have step : Step retrySha256 ⟨retryFlash, running⟩
        (.call true (.post retryPost) (.claim retryKey retryOther) (.ok (.conflict, 0)))
        ⟨_, _⟩ := .call waiting ⟨.faultless, .inr rfl, answer, rfl⟩
    have free : Set.InjOn retrySha256 (hashed (retryPosted ++
        [.call true (.post retryPost) (.claim retryKey retryOther) (.ok (.conflict, 0))])) := by
      have apart : ∀ a ∈ [retryKey.bytes, messageBytes retryMessage,
          messageBytes (.text "+49123", .text "different", true)],
          ∀ b ∈ [retryKey.bytes, messageBytes retryMessage,
            messageBytes (.text "+49123", .text "different", true)],
            retrySha256 a = retrySha256 b → a = b := by decide +kernel
      exact fun a left b right => apart a (retry_hashed left) b (retry_hashed right)
    have held : records retryFlash.current ⟨0, by decide⟩ =
        some (reservation .start (retrySha256 retryKey.bytes) retryFingerprint) := by
      decide +kernel
    exact whole.2 _ _ _ _ _ _ _ _ (posted.mono fun _ _ _ both => both.1) step
      (by decide +kernel) free _ _ held rfl

end SmsGateway.Ledger
