import SmsGateway.At.Prompt
import SmsGateway.Service.Outbound
import SmsGateway.Service.Steps
import SmsGateway.Store.Atomic

/-! `send_segment` over the AT engine: what a failed submission leaves in the journal,
before and after the payload was handed to the transport. -/

namespace SmsGateway

open Lib Prog

/-- The `at_request_t` of `send_segment`. -/
def cmgsEngineRequest (tpduLengthOctets : Nat) (payload : List UInt8) : At.Request where
  command := .text ("AT+CMGS=" ++ toString tpduLengthOctets)
  expectedPrefixes := [.text "+CMGS:"]
  timeoutMs := 60000
  maxAttempts := 1
  retryDelayMs := 0
  retryPolicy := 0
  waitForPrompt := true
  promptPayload := payload

/-- `at_engine_execute` of a request that is tried once: it is refused, or the worker
makes its attempt and the caller gets the result. The captured lines may be any. -/
inductive AtEngineExecutes (request : At.Request) :
    At.Trace → Except EspErr AtResponse → Prop where
  | refused (e : EspErr) : AtEngineExecutes request [] (.error e)
  | attempted {number : UInt8} {parser : At.Parser} {sent trace : At.Trace} {response : AtResponse}
      (reached : At.Worker.Reached (.draining request number false parser))
      (ran : At.ExecutesAttempt request { At.Response.reset with attempts := number } parser sent
        trace response.result) :
      AtEngineExecutes request (sent ++ trace) (.ok response)

/-- The engine hands the payload to the transport's write function. -/
def handsOver (payload : List UInt8) (trace : At.Trace) : Bool :=
  trace.any fun entry => entry.request == .write payload

/-- The gateway, and whether a payload was handed to the transport. -/
structure Wired where
  world : World
  handed : Bool

/-- The service's calls, with the submissions carried out by the AT engine. -/
def Wired.Answers (s : Wired) : (request : ServiceCall) → request.Reply → Wired → Prop
  | .execute ⟨.cmgs tpduLengthOctets, some payload, _⟩, reply, t =>
      t.world = s.world ∧ ∃ trace,
        AtEngineExecutes (cmgsEngineRequest tpduLengthOctets payload) trace reply ∧
          t.handed = (s.handed || handsOver payload trace)
  | request, reply, t => request.Answers s.world reply t.world ∧ t.handed = s.handed

/-- The journal accepts the write. -/
def accepted : Entry Wired ServiceCall ServiceCall.Reply → Prop
  | ⟨_, .save _, reply⟩ => reply.1 = .ok ()
  | _ => True

/-- The payload finds no memory. -/
def memoryRefused : Entry Wired ServiceCall ServiceCall.Reply → Prop
  | ⟨_, .alloc, reply⟩ => reply = false
  | _ => False

/-- An `OK` follows the payload. -/
theorem AtEngineExecutes.ok {tpduLengthOctets : Nat} {payload : List UInt8} {trace : At.Trace}
    {response : AtResponse}
    (executes : AtEngineExecutes (cmgsEngineRequest tpduLengthOctets payload) trace (.ok response))
    (ok : response.result = .ok) : handsOver payload trace = true := by
  cases executes with
  | attempted reached ran =>
      have tracked := ran.tracked rfl reached.rested.1
      obtain ⟨before, after, bytes, split, written, -⟩ := tracked.confirmed ok
      rw [handsOver, List.any_eq_true]
      refine ⟨_, List.mem_append_right _ (split ▸ List.mem_append_left _ written), ?_⟩
      exact beq_self_eq_true _

/-- A save that the journal accepts. -/
theorem wired_save {s t : Wired} {message : SmsMessage} {reply : Except EspErr Unit × SmsMessage}
    (sound : s.world.store.Sound) (answers : s.Answers (.save message) reply t)
    (ok : reply.1 = .ok ()) :
    t.world.store.Sound ∧ t.world.Holds reply.2 ∧ t.handed = s.handed ∧
      ∃ id, reply.2 = message.withId id := by
  obtain ⟨⟨plan, rfl, same⟩, handed⟩ := answers
  have ending := smsStoreSave_end plan sound message
  rw [same]
  rcases saved : (smsStoreSave message (plan, s.world.store)).1 with ⟨result, back⟩
  rw [saved] at ending ok
  cases ok
  obtain ⟨held, back⟩ := Store.SaveEnd.stored ending
  refine ⟨Store.SaveEnd.sound sound ending, held, handed, ?_⟩
  rcases back with ⟨-, rfl⟩ | ⟨-, rfl⟩
  · exact ⟨_, rfl⟩
  · exact ⟨_, (SmsMessage.withId_self _).symm⟩

/-- What a submission owes its record: a record whose payload was never handed over
is queued again, one whose payload was handed over and not confirmed is uncertain. -/
structure SafelyStored (t : Wired) (result : Except EspErr Unit) (m : SmsMessage) : Prop where
  held : t.world.Holds m
  unsent : t.handed = false → m.status = .queued ∧ m.inflightSegment = 0
  unconfirmed : t.handed = true → result ≠ .ok () → m.status = .uncertain

section

variable {s t : Wired} {message m : SmsMessage} {result : Except EspErr Unit}
  {trace : List (Entry Wired ServiceCall ServiceCall.Reply)}

/-- `send_segment` once the submission failed. -/
theorem runs_uncertain {modemError : Int} {e : EspErr} (sound : s.world.store.Sound)
    (runs : Runs Wired.Answers (do
      let (_, message) ← storeSave (uncertainRecord message modemError)
      emitEvent .uncertain message
      pure (.error e, message) : ServiceM (Except EspErr Unit × SmsMessage)) s trace (result, m) t)
    (stored : ∀ entry ∈ trace, accepted entry) :
    t.world.Holds m ∧ t.handed = s.handed ∧ result ≠ .ok () ∧ m.status = .uncertain ∧
      ∀ entry ∈ trace, ¬memoryRefused entry := by
  cases runs with
  | call answers rest =>
      cases rest with
      | call emitted rest =>
          cases rest
          obtain ⟨first, -⟩ := List.forall_mem_cons.mp stored
          obtain ⟨-, held, handed, id, back⟩ := wired_save sound answers first
          refine ⟨?_, emitted.2.trans handed, nofun, ?_, ?_⟩
          · rw [show t.world = _ from emitted.1]
            exact held
          · rw [back]
            rfl
          · simp [memoryRefused]

/-- `send_segment` once the modem confirmed. -/
theorem runs_sent (sound : s.world.store.Sound)
    (runs : Runs Wired.Answers (storeSave message) s trace (result, m) t)
    (stored : ∀ entry ∈ trace, accepted entry) :
    t.world.Holds m ∧ t.handed = s.handed ∧ result = .ok () ∧
      (∃ id, m = message.withId id) ∧ ∀ entry ∈ trace, ¬memoryRefused entry := by
  cases runs with
  | call answers rest =>
      cases rest
      have ok := List.forall_mem_singleton.mp stored
      obtain ⟨-, held, handed, back⟩ := wired_save sound answers ok
      exact ⟨held, handed, ok, back, by simp [memoryRefused]⟩

/-- `send_segment` once the payload has its memory. -/
theorem runs_submit {segment : SmsSubmitSegment} {index : Nat} (sound : s.world.store.Sound)
    (runs : Runs Wired.Answers (do
      match submitOutcome (← execute (submitRequest message segment index)) with
      | .error (modemError, e) => do
          let (_, message) ← storeSave (uncertainRecord message modemError)
          emitEvent .uncertain message
          pure (.error e, message)
      | .ok reference => storeSave (sentRecord message index reference) :
      ServiceM (Except EspErr Unit × SmsMessage)) s trace (result, m) t)
    (stored : ∀ entry ∈ trace, accepted entry) :
    t.world.Holds m ∧ (t.handed = false ∨ result ≠ .ok () → m.status = .uncertain) ∧
      ∀ entry ∈ trace, ¬memoryRefused entry := by
  obtain ⟨first, last, reply, u, rfl, executed, finished⟩ := Runs.of_bind runs
  obtain ⟨-, stored⟩ := List.forall_mem_append.mp stored
  -- The modem was not ready, or the engine carried the submission out.
  have outcome : u.world = s.world ∧ (∀ entry ∈ first, ¬memoryRefused entry) ∧
      ∀ response, reply = .ok response → response.result = .ok → u.handed = true := by
    cases executed with
    | @call _ _ ready _ _ _ _ _ answered rest =>
        cases ready with
        | false =>
            cases rest
            exact ⟨answered.1, by simp [memoryRefused], nofun⟩
        | true =>
            cases rest with
            | call submitted rest =>
                cases rest
                obtain ⟨world, calls, executes, handed⟩ := submitted
                refine ⟨world.trans answered.1, by simp [memoryRefused], ?_⟩
                rintro response rfl ok
                rw [handed, executes.ok ok, Bool.or_true]
  obtain ⟨world, quiet, confirmed⟩ := outcome
  have sound : u.world.store.Sound := by
    rw [world]
    exact sound
  cases decided : submitOutcome reply with
  | error failure =>
      simp only [decided] at finished
      obtain ⟨held, -, -, uncertain, later⟩ := runs_uncertain sound finished stored
      exact ⟨held, fun _ => uncertain, List.forall_mem_append.mpr ⟨quiet, later⟩⟩
  | ok reference =>
      simp only [decided] at finished
      obtain ⟨held, handed, ok, -, later⟩ := runs_sent sound finished stored
      refine ⟨held, ?_, List.forall_mem_append.mpr ⟨quiet, later⟩⟩
      have beyond : u.handed = true := by
        cases reply with
        | error e => cases decided
        | ok response =>
            refine confirmed response rfl ?_
            simp only [submitOutcome] at decided
            split at decided
            · cases decided
            · rename_i answered
              exact not_not.mp answered
      rintro (unsent | failed)
      · cases unsent.symm.trans (handed.trans beyond)
      · exact absurd ok failed

end

/-- A submission that the journal stores ends as it should exactly when the payload
was handed to the transport, or found no memory. -/
theorem send_segment_requeues_iff {s t : Wired} {message m : SmsMessage}
    {segment : SmsSubmitSegment} {index : Nat} {result : Except EspErr Unit}
    {trace : List (Entry Wired ServiceCall ServiceCall.Reply)}
    (reachable : s.world.store.Reachable) (unsent : s.handed = false)
    (inside : index < message.segmentCount.toNat)
    (runs : Runs Wired.Answers (sendSegment message segment index) s trace (result, m) t)
    (stored : ∀ entry ∈ trace, accepted entry) :
    SafelyStored t result m ↔ t.handed = true ∨ ∃ entry ∈ trace, memoryRefused entry := by
  rw [sendSegment, if_neg (Nat.not_le.mpr inside)] at runs
  cases runs with
  | @call _ _ reply _ u _ _ _ answers rest =>
      obtain ⟨first, kept⟩ := List.forall_mem_cons.mp stored
      obtain ⟨sound, -, handed, -⟩ := wired_save reachable.sound answers first
      obtain ⟨saved, message⟩ := reply
      cases (show saved = .ok () from first)
      cases rest with
      | @call _ _ memory _ v _ _ _ allocated rest =>
          obtain ⟨-, later⟩ := List.forall_mem_cons.mp kept
          have sound : v.world.store.Sound := by
            rw [show v.world = u.world from allocated.1]
            exact sound
          have unsent : v.handed = false := allocated.2.trans (handed.trans unsent)
          cases memory with
          | false =>
              refine iff_of_true ?_ (.inr ⟨_, List.mem_cons_of_mem _ List.mem_cons_self, rfl⟩)
              cases rest with
              | call answers rest =>
                  cases rest
                  obtain ⟨-, held, same, id, back⟩ := wired_save sound answers
                    (later _ List.mem_cons_self)
                  refine ⟨held, ?_, ?_⟩
                  · intro _
                    rw [back]
                    exact ⟨rfl, rfl⟩
                  · intro beyond
                    cases beyond.symm.trans (same.trans unsent)
          | true =>
              obtain ⟨held, uncertain, quiet⟩ := runs_submit sound rest later
              constructor
              · intro safely
                by_contra neither
                rw [not_or, Bool.not_eq_true] at neither
                have queued := (safely.unsent neither.1).1
                rw [uncertain (.inl neither.1)] at queued
                cases queued
              · rintro (beyond | ⟨entry, member, refused⟩)
                · refine ⟨held, ?_, fun _ failed => uncertain (.inr failed)⟩
                  intro unsent
                  cases beyond.symm.trans unsent
                · rcases List.mem_cons.mp member with rfl | member
                  · exact refused.elim
                  · rcases List.mem_cons.mp member with rfl | member
                    · cases refused
                    · exact absurd refused (quiet entry member)

/-! Three submissions: without memory, with a modem that is not ready, and one that is refused
behind its payload. -/

/-- The message `A` to `+123`. -/
def queuedShort : SmsMessage := queuedRecord (.text "+123") (.text "A") false 1 .gsm7 1

def queuedShortWired : Wired :=
  ⟨⟨(smsStoreSave queuedShort (Plan.faultless, .empty)).2.2, 1, []⟩, false⟩

theorem queuedShortWired_reachable : queuedShortWired.world.store.Reachable := .save .empty _ _

def shortSegment : SmsSubmitSegment :=
  ((queuedSegments queuedShort).bind List.head?).get (by decide +kernel)

/-- The submission of the only segment. -/
def submission : ServiceM (Except EspErr Unit × SmsMessage) :=
  sendSegment (queuedShort.withId 1) shortSegment 0

/-- `>`, then `ERROR`. -/
def promptThenError : List UInt8 := [0x3E, 0x20, 0x45, 0x52, 0x52, 0x4F, 0x52, 0x0D]

theorem submission_executes : ∃ calls,
    AtEngineExecutes (cmgsEngineRequest shortSegment.tpduLengthOctets (promptPayload shortSegment))
      calls (.ok ⟨.error, -1, []⟩) ∧ handsOver (promptPayload shortSegment) calls = true := by
  let request := cmgsEngineRequest shortSegment.tpduLengthOctets (promptPayload shortSegment)
  let response : At.Response := { At.Response.reset with attempts := 1 }
  obtain ⟨sent, ran⟩ :=
    @At.started_executes request response promptThenError .error (by decide +kernel)
  have hands : handsOver (promptPayload shortSegment)
      (trace (At.answering promptThenError) (At.started request response).pass ()) = true := by
    decide +kernel
  refine ⟨_, .attempted (At.Worker.reached_draining request) ran, ?_⟩
  rw [handsOver, List.any_append, Bool.or_eq_true]
  exact .inr hands

/-- Surroundings with or without memory for the payload, and a modem that is ready or not and
answers a submission with `ERROR` behind its payload. -/
def Wired.handle (memory ready : Bool) : (request : ServiceCall) → Wired → request.Reply × Wired
  | .alloc, s => (memory, s)
  | .isReady, s => (ready, s)
  | .execute _, s => (.ok ⟨.error, -1, []⟩, { s with handed := true })
  | request, s => ((request.handle s.world).1, { s with world := (request.handle s.world).2 })

/-- An entry of a run of the submission, with an accepted write. -/
def submits (entry : Entry Wired ServiceCall ServiceCall.Reply) : Bool :=
  match entry with
  | ⟨_, .execute request, _⟩ => request = submitRequest (queuedShort.withId 1) shortSegment 0
  | ⟨_, .save _, reply⟩ => reply.1.isOk
  | _ => true

theorem submits_answers {memory ready : Bool} (request : ServiceCall) (s : Wired)
    (good : submits ⟨s, request, (Wired.handle memory ready request s).1⟩ = true) :
    s.Answers request (Wired.handle memory ready request s).1
      (Wired.handle memory ready request s).2 := by
  cases request with
  | execute request =>
      obtain rfl := of_decide_eq_true good
      obtain ⟨calls, executes, hands⟩ := submission_executes
      refine ⟨rfl, calls, executes, ?_⟩
      rw [hands, Bool.or_true]
      rfl
  | isReady | alloc => exact ⟨rfl, rfl⟩
  | _ => exact ⟨ServiceCall.handle_answers _ s.world, rfl⟩

theorem submits_accepted {entry : Entry Wired ServiceCall ServiceCall.Reply}
    (good : submits entry = true) : accepted entry := by
  obtain ⟨before, request, reply⟩ := entry
  cases request with
  | save message =>
      obtain ⟨result, back⟩ := reply
      cases result with
      | ok _ => rfl
      | error e => cases good
  | _ => trivial

theorem submission_runs {memory ready : Bool}
    (fine : (trace (Wired.handle memory ready) submission queuedShortWired).all submits = true) :
    Runs Wired.Answers submission queuedShortWired
      (trace (Wired.handle memory ready) submission queuedShortWired)
      (run (Wired.handle memory ready) submission queuedShortWired).1
      (run (Wired.handle memory ready) submission queuedShortWired).2 :=
  runs_of_trace _ (fun entry => submits entry = true) submits_answers _ _ (List.all_eq_true.mp fine)

/-- Without memory the record is queued again; refused behind its payload it is uncertain. -/
theorem send_segment_requeues_iff_submissions :
    (∃ trace result m t, Runs Wired.Answers submission queuedShortWired trace (result, m) t ∧
      t.handed = false ∧ SafelyStored t result m) ∧
    ∃ trace result m t, Runs Wired.Answers submission queuedShortWired trace (result, m) t ∧
      t.handed = true ∧ result = .error .fail ∧ SafelyStored t result m := by
  constructor
  · have fine : (trace (Wired.handle false true) submission queuedShortWired).all submits = true := by
      decide +kernel
    have refused : ((trace (Wired.handle false true) submission queuedShortWired).any fun entry =>
        match entry with
        | ⟨_, .alloc, reply⟩ => !reply
        | _ => false) = true := by
      decide +kernel
    have runs := submission_runs fine
    refine ⟨_, _, _, _, runs, by decide +kernel, (send_segment_requeues_iff
      queuedShortWired_reachable rfl (by decide) runs ?_).mpr (.inr ?_)⟩
    · exact fun entry member => submits_accepted (List.all_eq_true.mp fine entry member)
    · obtain ⟨⟨before, request, reply⟩, member, here⟩ := List.any_eq_true.mp refused
      refine ⟨_, member, ?_⟩
      cases request with
      | alloc => simpa [memoryRefused] using here
      | _ => cases here
  · have fine : (trace (Wired.handle true true) submission queuedShortWired).all submits = true := by
      decide +kernel
    have handed : (run (Wired.handle true true) submission queuedShortWired).2.handed = true := by
      decide +kernel
    have runs := submission_runs fine
    refine ⟨_, _, _, _, runs, handed, by decide +kernel, (send_segment_requeues_iff
      queuedShortWired_reachable rfl (by decide) runs ?_).mpr (.inl handed)⟩
    exact fun entry member => submits_accepted (List.all_eq_true.mp fine entry member)

/-- The modem is not ready: no byte was written, and the record is uncertain. -/
theorem unsent_segment_uncertain : ∃ trace result m t,
    Runs Wired.Answers submission queuedShortWired trace (result, m) t ∧
    (∀ entry ∈ trace, accepted entry) ∧ t.handed = false ∧ m.status = .uncertain ∧
    ¬SafelyStored t result m := by
  have fine : (trace (Wired.handle true false) submission queuedShortWired).all submits = true := by
    decide +kernel
  have facts : (run (Wired.handle true false) submission queuedShortWired).2.handed = false ∧
      (run (Wired.handle true false) submission queuedShortWired).1.2.status = .uncertain := by
    decide +kernel
  refine ⟨_, _, _, _, submission_runs fine, ?_, facts.1, facts.2, ?_⟩
  · exact fun entry member => submits_accepted (List.all_eq_true.mp fine entry member)
  · intro safely
    cases facts.2.symm.trans (safely.unsent facts.1).1

end SmsGateway
