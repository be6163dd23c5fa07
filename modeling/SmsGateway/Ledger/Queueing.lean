import SmsGateway.Ledger.Requests

/-! At most one message is queued for an idempotency key. -/

namespace SmsGateway.Ledger

open Lib Prog

variable {Task : Type} [DecidableEq Task]

/-- The flash and what each task is running. -/
structure State (Task : Type) where
  flash : Flash
  running : Task → Option (Ingress × IngressM Response)

/-- A task takes a request, has a call answered or answers the request; or the power
is lost. -/
inductive Event (Task : Type) where
  | start (task : Task) (op : Ingress)
  | call (task : Task) (op : Ingress) (request : Call) (reply : Reply request)
  | finish (task : Task)
  | crash

section

variable (sha256 : List UInt8 → Digest)

/-- A ledger call holds the mutex from its start to its end; any of its flash calls
may be refused. The other calls leave the flash, and may be answered anything. -/
def Answers (s : Flash) : (request : Call) → Reply request → Flash → Prop
  | .claim key fingerprint, reply, t =>
      Yields True (gatewayIdempotencyClaim sha256 key fingerprint) s reply t
  | .finalize key fingerprint messageId, reply, t =>
      Yields True (gatewayIdempotencyFinalize sha256 key fingerprint messageId) s reply t
  | .releasePending key fingerprint, reply, t =>
      Yields True (gatewayIdempotencyReleasePending sha256 key fingerprint) s reply t
  | .clearPending, reply, t => Yields True gatewayIdempotencyClearPending s reply t
  | .fingerprint .., _, t => t = s
  | .send .., _, t => t = s
  | .get _, _, t => t = s
  | .allocate, _, t => t = s
  | .limiterAllow, _, t => t = s

inductive Step : State Task → Event Task → State Task → Prop where
  | start {s : State Task} {task : Task} {op : Ingress} (idle : s.running task = none) :
      Step s (.start task op)
        { s with running := Function.update s.running task (some (op, op.program sha256)) }
  | call {s : State Task} {task : Task} {op : Ingress} {request : Call}
      {next : Reply request → IngressM Response} {reply : Reply request} {t : Flash}
      (running : s.running task = some (op, .call request next))
      (answered : Answers sha256 s.flash request reply t) :
      Step s (.call task op request reply)
        ⟨t, Function.update s.running task (some (op, next reply))⟩
  | finish {s : State Task} {task : Task} {op : Ingress} {response : Response}
      (running : s.running task = some (op, .done response)) :
      Step s (.finish task) { s with running := Function.update s.running task none }
  | crash {s : State Task} {t : Flash} (lost : s.flash.PowerLoss t) :
      Step s .crash ⟨t, fun _ => none⟩

/-- The records of this kind that the key has stay where they are. -/
def Keeps (keyHash : Digest) (kind : IdemRecord → Prop) (s t : Flash) : Prop :=
  ∀ slot record, records s.current slot = some record → record.keyHash = keyHash → kind record →
    ∃ left, records t.current slot = some left ∧ left.keyHash = keyHash

/-- No claim evicts the finalized record of the key, and clearing does not remove its
reservation. -/
def Spares (key : CStr) (s : State Task) : Event Task → State Task → Prop
  | .call _ _ (.claim ..) _, t =>
      Keeps (sha256 key.bytes) (fun record => record.messageId ≠ 0) s.flash t.flash
  | .call _ _ .clearPending _, t =>
      Keeps (sha256 key.bytes) (fun record => record.messageId = 0) s.flash t.flash
  | _, _ => True

end

/-- A message was queued for a request with this key. -/
def Event.queues (key : CStr) : Event Task → Bool
  | .call _ op (.send ..) (.ok _) => op.key == some key
  | _ => false

/-- A device whose ledger holds no record yet. -/
def State.fresh (contents : Contents) : State Task := ⟨⟨contents, []⟩, fun _ => none⟩

/-! The record of a key stays through every call that spares it. -/

section

variable {keyHash other requestHash : Digest} {s t : Flash}

theorem HoldsKey.put {c : Contents} {slot : Slot} {record : IdemRecord} (current : record.Current)
    (holds : HoldsKey keyHash c)
    (spared : ∀ held, records c slot = some held → held.keyHash = keyHash →
      record.keyHash = keyHash) : HoldsKey keyHash (put c slot record) := by
  obtain ⟨place, held, stored, same⟩ := holds
  by_cases here : place = slot
  · subst here
    refine ⟨place, record, ?_, spared held stored same⟩
    rw [records_put _ _ current, Function.update_self]
  · refine ⟨place, held, ?_, same⟩
    rw [records_put _ _ current, Function.update_of_ne here, stored]

/-- A claim that spares the finalized record of a key spares its reservation too. -/
theorem Keeps.reserve {c : Contents} {slot : Slot} {scan : ClaimScan}
    (chosen : (scanOf c).chosen = some slot) (holds : HoldsKey keyHash c)
    (kept : ∀ place record, records c place = some record → record.keyHash = keyHash →
      record.messageId ≠ 0 →
        ∃ left, records (put c slot (reservation scan other requestHash)) place = some left ∧
          left.keyHash = keyHash) :
    HoldsKey keyHash (put c slot (reservation scan other requestHash)) := by
  apply holds.put (reservation_current _ _ _)
  intro held stored same
  obtain ⟨left, now, still⟩ := kept slot held stored same (chosen_finalized chosen stored)
  rw [records_put _ _ (reservation_current _ _ _), Function.update_self] at now
  cases now
  exact still

theorem Claimed.holds {reply : Except EspErr (IdempotencyResult × UInt32)} {faulty : Prop}
    (claimed : Claimed faulty other requestHash s reply t)
    (holds : s.Throughout (HoldsKey keyHash))
    (kept : Keeps keyHash (fun record => record.messageId ≠ 0) s t) :
    t.Throughout (HoldsKey keyHash) := by
  cases claimed with
  | refused e fault => exact holds
  | found held same => exact holds
  | full absent occupied => exact holds
  | unsettled e fault absent chosen => exact holds.write (Keeps.reserve chosen holds.current kept)
  | reserved absent chosen => exact .of_current (Keeps.reserve chosen holds.current kept)

theorem Finalized.holds {reply : Except EspErr Unit} {messageId : UInt32}
    (finalized : Finalized other requestHash messageId s reply t)
    (holds : s.Throughout (HoldsKey keyHash)) : t.Throughout (HoldsKey keyHash) := by
  have renamed {slot : Slot} {record : IdemRecord} (held : records s.current slot = some record) :
      HoldsKey keyHash (put s.current slot { record with messageId := messageId }) := by
    have current := records_current held
    refine holds.current.put current ?_
    intro stored here same
    rw [held] at here
    cases here
    exact same
  cases finalized with
  | unchanged e => exact holds
  | unsettled e named held same agrees => exact holds.write (renamed held)
  | stored named held same agrees => exact .of_current (renamed held)

theorem Released.holds {reply : Except EspErr Unit} (released : Released other s reply t)
    (different : other ≠ keyHash) (holds : s.Throughout (HoldsKey keyHash)) :
    t.Throughout (HoldsKey keyHash) := by
  have elsewhere {slot : Slot} {record : IdemRecord} (held : records s.current slot = some record)
      (same : record.keyHash = other) : HoldsKey keyHash (wipe s.current slot) := by
    obtain ⟨place, left, stored, own⟩ := holds.current
    refine ⟨place, left, ?_, own⟩
    rw [records_wipe, Function.update_of_ne, stored]
    rintro rfl
    rw [held] at stored
    cases stored
    exact different (same.symm.trans own)
  cases released with
  | unchanged e => exact holds
  | unsettled e held same pending => exact holds.write (elsewhere held same)
  | erased held same pending => exact .of_current (elsewhere held same)

theorem Cleared.holds (cleared : Cleared s t) (holds : s.Throughout (HoldsKey keyHash))
    (kept : Keeps keyHash (fun record => record.messageId = 0) s t) :
    t.Throughout (HoldsKey keyHash) := by
  obtain ⟨slot, record, stored, own⟩ := holds.current
  have still : ∃ left, records t.current slot = some left ∧ left.keyHash = keyHash := by
    by_cases pending : record.messageId = 0
    · exact kept slot record stored own pending
    · exact ⟨record, cleared.kept slot record stored pending, own⟩
  obtain ⟨left, now, same⟩ := still
  refine ⟨⟨slot, left, now, same⟩, ?_⟩
  intro c member
  rcases cleared.between c member with earlier | ⟨above, -⟩
  · exact holds.earlier c earlier
  · exact ⟨slot, left, above slot left now, same⟩

end

/-! The requests of one key. -/

section

variable (sha256 : List UInt8 → Digest)

/-- The hash of the key that a request carries. -/
def Ingress.keyHash (op : Ingress) : Option Digest := op.key.map fun key => sha256 key.bytes

/-- A message was queued for a request whose key has this hash. -/
def Event.queuesHash (keyHash : Digest) : Event Task → Bool
  | .call _ op (.send ..) (.ok _) => op.keyHash sha256 == some keyHash
  | _ => false

/-- Every task is in some phase of the protocol. -/
def InPhase (phase : Task → Phase) (s : State Task) : Prop :=
  ∀ task op rest, s.running task = some (op, rest) →
    Follows (after op.key op.message sha256) (phase task) rest

/-- The task has claimed the key, and neither sent nor released yet. -/
def Holder (keyHash : Digest) (phase : Task → Phase) (s : State Task) (task : Task) : Prop :=
  (phase task = .claimed ∨ phase task = .failed) ∧
    ∃ op rest, s.running task = some (op, rest) ∧ op.keyHash sha256 = some keyHash

/-- How far a key is: untouched, claimed by one task, or spent. -/
inductive Stage (keyHash : Digest) (phase : Task → Phase) (sent : Nat) (s : State Task) : Prop where
  | free (none : sent = 0) (nobody : ∀ task, ¬ Holder sha256 keyHash phase s task)
  | claimed (none : sent = 0) (holds : s.flash.Throughout (HoldsKey keyHash))
      (holder : Task) (alone : ∀ task, Holder sha256 keyHash phase s task → task = holder)
  | spent (once : sent = 1) (holds : s.flash.Throughout (HoldsKey keyHash))
      (nobody : ∀ task, ¬ Holder sha256 keyHash phase s task)

end

section

variable {sha256 : List UInt8 → Digest} {keyHash : Digest} {phase : Task → Phase} {sent : Nat}
  {s : State Task} {task : Task} {op : Ingress} {request : Call} {reply : Reply request}

omit [DecidableEq Task] in
theorem aside_leaves {s t : Flash} (other : request.aside = true)
    (answered : Answers sha256 s request reply t) : t = s := by
  cases request <;> first | exact answered | cases other

omit [DecidableEq Task] in
theorem aside_silent (other : request.aside = true) :
    (Event.call task op request reply).queuesHash sha256 keyHash = false := by
  cases request <;> first | rfl | cases other

omit [DecidableEq Task] in
/-- A step that makes no new holder and keeps the record of the key. -/
theorem Stage.quiet {later : Task → Phase} {t : State Task}
    (stage : Stage sha256 keyHash phase sent s)
    (holders : ∀ task, Holder sha256 keyHash later t task → Holder sha256 keyHash phase s task)
    (kept : s.flash.Throughout (HoldsKey keyHash) → t.flash.Throughout (HoldsKey keyHash)) :
    Stage sha256 keyHash later sent t := by
  cases stage with
  | free none nobody => exact .free none fun task holder => nobody task (holders task holder)
  | claimed none holds holder alone =>
      exact .claimed none (kept holds) holder fun task here => alone task (holders task here)
  | spent once holds nobody =>
      exact .spent once (kept holds) fun task holder => nobody task (holders task holder)

theorem Holder.of_update {later : Phase} {flash : Flash} {rest : IngressM Response} {other : Task}
    (holder : Holder sha256 keyHash (Function.update phase task later)
      ⟨flash, Function.update s.running task (some (op, rest))⟩ other) :
    (other ≠ task ∧ Holder sha256 keyHash phase s other) ∨
      (other = task ∧ (later = .claimed ∨ later = .failed) ∧
        op.keyHash sha256 = some keyHash) := by
  obtain ⟨stage, running⟩ := holder
  by_cases same : other = task
  · subst same
    simp only [Function.update_self] at stage running
    obtain ⟨_, _, ⟨⟩, carried⟩ := running
    exact .inr ⟨rfl, stage, carried⟩
  · simp only [Function.update_of_ne same] at stage running
    exact .inl ⟨same, stage, running⟩

/-- A step of a task that does not become a holder by it. -/
theorem Stage.settle {later : Phase} {flash : Flash} {rest : IngressM Response}
    (stage : Stage sha256 keyHash phase sent s)
    (mine : (later = .claimed ∨ later = .failed) → op.keyHash sha256 = some keyHash →
      Holder sha256 keyHash phase s task)
    (kept : s.flash.Throughout (HoldsKey keyHash) → flash.Throughout (HoldsKey keyHash)) :
    Stage sha256 keyHash (Function.update phase task later) sent
      ⟨flash, Function.update s.running task (some (op, rest))⟩ := by
  refine stage.quiet ?_ kept
  intro other holder
  rcases holder.of_update with ⟨-, before⟩ | ⟨rfl, stage, carried⟩
  · exact before
  · exact mine stage carried

/-- A holder that stops being one leaves nobody behind. -/
theorem Stage.leave {holder : Task} {later : Phase} {flash : Flash} {rest : IngressM Response}
    (alone : ∀ other, Holder sha256 keyHash phase s other → other = holder)
    (mine : Holder sha256 keyHash phase s task) (beyond : later ≠ .claimed ∧ later ≠ .failed)
    (other : Task) :
    ¬ Holder sha256 keyHash (Function.update phase task later)
      ⟨flash, Function.update s.running task (some (op, rest))⟩ other := by
  intro holds
  rcases holds.of_update with ⟨different, before⟩ | ⟨-, stage, -⟩
  · exact different ((alone other before).trans (alone task mine).symm)
  · rcases stage with now | now
    · exact beyond.1 now
    · exact beyond.2 now

theorem Claimed.of_missed {faulty : Prop} {other requestHash : Digest} {s t : Flash}
    {reply : Except EspErr (IdempotencyResult × UInt32)}
    (claimed : Claimed faulty other requestHash s reply t) (miss : missed reply = true) :
    ¬ HoldsKey other s.current ∧ t.Throughout (HoldsKey other) := by
  cases claimed with
  | refused e fault => cases miss
  | found held same => split at miss <;> cases miss
  | full absent occupied => cases miss
  | unsettled e fault absent chosen => cases miss
  | @reserved slot absent chosen =>
      refine ⟨absent, .of_current ⟨slot, reservation (scanOf s.current) other requestHash, ?_, rfl⟩⟩
      rw [Staged.write_current, records_put _ _ (reservation_current _ _ _), Function.update_self]

theorem keyHash_of_key {own : CStr} (carried : op.key = some own) :
    op.keyHash sha256 = some (sha256 own.bytes) := by
  simp [Ingress.keyHash, carried]

/-- One answered call. -/
theorem Stage.call {key : CStr} {later : Phase} {flash : Flash}
    {next : Reply request → IngressM Response}
    (stage : Stage sha256 (sha256 key.bytes) phase sent s)
    (running : s.running task = some (op, .call request next))
    (answered : Answers sha256 s.flash request reply flash)
    (moves : Moves op.key op.message sha256 (phase task) request reply later)
    (spares : Spares sha256 key s (.call task op request reply)
      ⟨flash, Function.update s.running task (some (op, next reply))⟩) :
    Stage sha256 (sha256 key.bytes) (Function.update phase task later)
      (sent + ((Event.call task op request reply).queuesHash sha256 (sha256 key.bytes)).toNat)
      ⟨flash, Function.update s.running task (some (op, next reply))⟩ := by
  generalize now : phase task = current at moves
  have mine (holding : current = .claimed ∨ current = .failed)
      (carried : op.keyHash sha256 = some (sha256 key.bytes)) :
      Holder sha256 (sha256 key.bytes) phase s task := by
    rw [← now] at holding
    exact ⟨holding, op, _, running, carried⟩
  cases moves with
  | aside other =>
      rw [aside_silent other]
      obtain rfl := aside_leaves other answered
      exact stage.settle mine id
  | @claim own fingerprint reply carried agrees =>
      have claimed := (claim_ends sha256 own fingerprint).yields answered
      have kept (holds : s.flash.Throughout (HoldsKey (sha256 key.bytes))) :=
        claimed.holds holds spares
      by_cases same : sha256 own.bytes = sha256 key.bytes
      · by_cases miss : missed reply = true
        · obtain ⟨absent, holds⟩ := claimed.of_missed miss
          rw [same] at absent holds
          cases stage with
          | free none nobody =>
              refine .claimed none holds task ?_
              intro other holder
              rcases holder.of_update with ⟨-, before⟩ | ⟨here, -⟩
              · exact absurd before (nobody other)
              · exact here
          | claimed none held holder alone => exact absurd held.current absent
          | spent once held nobody => exact absurd held.current absent
        · rw [if_neg miss]
          exact stage.settle (by rintro (now | now) <;> cases now) kept
      · refine stage.settle ?_ kept
        intro _ hashed
        rw [keyHash_of_key carried, Option.some.injEq] at hashed
        exact absurd hashed same
  | @sendAnonymous recipient text delivery reply anonymous =>
      obtain rfl : flash = s.flash := answered
      have unkeyed : op.keyHash sha256 = none := by simp [Ingress.keyHash, anonymous]
      have silent : (Event.call task op (.send recipient text delivery) reply).queuesHash sha256 (sha256 key.bytes) =
          false := by
        cases reply with
        | error e => rfl
        | ok id => simp [Event.queuesHash, unkeyed]
      rw [silent]
      refine stage.settle ?_ id
      rintro (now | now) <;> cases now
  | clear anonymous =>
      have cleared := clear_ends.yields answered
      refine stage.settle ?_ fun holds => cleared.holds holds spares
      rintro (now | now) <;> cases now
  | @send recipient text delivery reply =>
      obtain rfl : flash = s.flash := answered
      by_cases carried : op.keyHash sha256 = some (sha256 key.bytes)
      · have holding := mine (.inl rfl) carried
        cases stage with
        | free none nobody => exact absurd holding (nobody task)
        | spent once holds nobody => exact absurd holding (nobody task)
        | claimed none holds holder alone =>
            cases reply with
            | error e =>
                refine (Stage.claimed none holds holder alone).settle ?_ id
                exact fun _ _ => holding
            | ok id =>
                have counts : (Event.call task op (.send recipient text delivery) (.ok id)).queuesHash sha256
                    (sha256 key.bytes) = true := by
                  simp [Event.queuesHash, carried]
                rw [counts, none]
                exact .spent rfl holds
                  (Stage.leave alone holding ⟨Phase.noConfusion, Phase.noConfusion⟩)
      · have silent : (Event.call task op (.send recipient text delivery) reply).queuesHash sha256
            (sha256 key.bytes) = false := by
          cases reply with
          | error e => rfl
          | ok id => simpa [Event.queuesHash] using carried
        rw [silent]
        exact stage.settle (fun _ here => absurd here carried) id
  | @release own fingerprint reply carried =>
      have released := (release_ends sha256 own fingerprint).yields answered
      by_cases same : sha256 own.bytes = sha256 key.bytes
      · have holding := mine (.inr rfl) (by rw [keyHash_of_key carried, same])
        cases stage with
        | free none nobody => exact absurd holding (nobody task)
        | spent once holds nobody => exact absurd holding (nobody task)
        | claimed none holds holder alone =>
            exact .free none (Stage.leave alone holding ⟨Phase.noConfusion, Phase.noConfusion⟩)
      · refine stage.settle ?_ fun holds => released.holds same holds
        rintro (now | now) <;> cases now
  | @finalize own fingerprint messageId reply carried =>
      have finalized := (finalize_ends sha256 own fingerprint messageId).yields answered
      refine stage.settle ?_ fun holds => finalized.holds holds
      rintro (now | now) <;> cases now

theorem InPhase.run {later : Phase} {flash : Flash} {rest : IngressM Response}
    (inPhase : InPhase sha256 phase s)
    (follows : Follows (after op.key op.message sha256) later rest) :
    InPhase sha256 (Function.update phase task later)
      ⟨flash, Function.update s.running task (some (op, rest))⟩ := by
  intro other there rest running
  by_cases same : other = task
  · subst same
    simp only [Function.update_self] at running ⊢
    cases running
    exact follows
  · simp only [Function.update_of_ne same] at running ⊢
    exact inPhase other there rest running

theorem InPhase.stop (inPhase : InPhase sha256 phase s) :
    InPhase sha256 phase { s with running := Function.update s.running task none } := by
  intro other there rest running
  by_cases same : other = task
  · subst same
    simp at running
  · simp only [Function.update_of_ne same] at running
    exact inPhase other there rest running

omit [DecidableEq Task] in
theorem InPhase.none (flash : Flash) : InPhase sha256 phase ⟨flash, fun _ => none⟩ := by
  intro other there rest running
  simp at running

theorem Step.inPhase {event : Event Task} {t : State Task} (step : Step sha256 s event t)
    (inPhase : InPhase sha256 phase s) : ∃ later, InPhase sha256 later t := by
  cases step with
  | start idle => exact ⟨_, inPhase.run (program_follows sha256 _)⟩
  | call running answered =>
      obtain ⟨later, -, follows⟩ := inPhase _ _ _ running _
      exact ⟨_, inPhase.run follows⟩
  | finish running => exact ⟨_, inPhase.stop⟩
  | crash lost => exact ⟨phase, .none _⟩

/-- One step that spares the record of the key. -/
theorem Step.stage {key : CStr} {event : Event Task} {t : State Task}
    (step : Step sha256 s event t) (spares : Spares sha256 key s event t)
    (inPhase : InPhase sha256 phase s)
    (stage : Stage sha256 (sha256 key.bytes) phase sent s) :
    ∃ later, InPhase sha256 later t ∧ Stage sha256 (sha256 key.bytes) later
      (sent + (event.queuesHash sha256 (sha256 key.bytes)).toNat) t := by
  cases step with
  | start idle =>
      refine ⟨_, inPhase.run (program_follows sha256 _), stage.settle ?_ id⟩
      rintro (now | now) <;> cases now
  | call running answered =>
      obtain ⟨later, moves, follows⟩ := inPhase _ _ _ running _
      exact ⟨_, inPhase.run follows, stage.call running answered (after_moves moves) spares⟩
  | @finish task op response running =>
      refine ⟨phase, inPhase.stop, stage.quiet ?_ id⟩
      rintro other ⟨holding, there, rest, running, carried⟩
      by_cases same : other = task
      · subst same
        simp at running
      · simp only [Function.update_of_ne same] at running
        exact ⟨holding, there, rest, running, carried⟩
  | crash lost =>
      refine ⟨phase, .none _, stage.quiet ?_ fun holds => holds.powerLoss lost⟩
      rintro other ⟨-, there, rest, running, -⟩
      simp at running

end

/-- Over a whole run that spares the record of the key. -/
theorem stage_of_runs {sha256 : List UInt8 → Digest} {key : CStr} {contents : Contents}
    {trace : List (Event Task)} {s : State Task}
    (runs : Runs (fun s event t => Step sha256 s event t ∧ Spares sha256 key s event t)
      (State.fresh contents) trace s) :
    ∃ phase, InPhase sha256 phase s ∧ Stage sha256 (sha256 key.bytes) phase
      (trace.countP (Event.queuesHash sha256 (sha256 key.bytes))) s := by
  refine runs.invariant (fun trace s => ∃ phase, InPhase sha256 phase s ∧
    Stage sha256 (sha256 key.bytes) phase
      (trace.countP (Event.queuesHash sha256 (sha256 key.bytes))) s) ?_ ?_
  · refine ⟨fun _ => .unclaimed, .none _, .free rfl ?_⟩
    rintro task ⟨now | now, -⟩ <;> cases now
  · rintro trace s event t - ⟨phase, inPhase, stage⟩ ⟨step, spares⟩
    rw [List.countP_append, List.countP_singleton]
    have counted (b : Bool) : (if b = true then 1 else 0) = b.toNat := by cases b <;> rfl
    rw [counted]
    exact step.stage spares inPhase stage

omit [DecidableEq Task] in
theorem countP_queues_le (sha256 : List UInt8 → Digest) (key : CStr) (trace : List (Event Task)) :
    trace.countP (Event.queues key) ≤
      trace.countP (Event.queuesHash sha256 (sha256 key.bytes)) := by
  apply List.countP_mono_left
  intro event _ queues
  cases event with
  | start task op => cases queues
  | finish task => cases queues
  | crash => cases queues
  | call task op request reply =>
      cases request with
      | send recipient text delivery =>
          cases reply with
          | error e => cases queues
          | ok id =>
              simp only [Event.queues, beq_iff_eq] at queues
              simp [Event.queuesHash, Ingress.keyHash, queues]
      | _ => cases queues

/-- At most one message is queued for the key. -/
theorem queued_at_most_once {sha256 : List UInt8 → Digest} {key : CStr} {contents : Contents}
    {trace : List (Event Task)} {s : State Task}
    (runs : Runs (fun s event t => Step sha256 s event t ∧ Spares sha256 key s event t)
      (State.fresh contents) trace s) : trace.countP (Event.queues key) ≤ 1 := by
  refine (countP_queues_le sha256 key trace).trans ?_
  obtain ⟨phase, -, stage⟩ := stage_of_runs runs
  cases stage with
  | free none nobody => omega
  | claimed none holds holder alone => omega
  | spent once holds nobody => omega

end SmsGateway.Ledger
