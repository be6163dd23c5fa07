import SmsGateway.At.Engine

/-! What the functions of the engine can do in a run. -/

namespace SmsGateway.At

open Lib

/-- The parser and the transaction that `process_token` is called for. -/
abbrev Session := Parser × Option Transaction

/-- The calls of a run. -/
abbrev calls (trace : List (Prog.Entry Unit AtCall AtCall.Reply)) : List AtCall :=
  trace.map Prog.Entry.request

/-- The bytes that a call of the worker brings. -/
def received : Prog.Entry Unit AtCall AtCall.Reply → List UInt8
  | ⟨_, .receiveRx _, some (.data bytes)⟩ => bytes
  | _ => []

/-- Calls other than a receive bring nothing. -/
theorem received_of_calls {trace : List (Prog.Entry Unit AtCall AtCall.Reply)}
    (others : ∀ wait, AtCall.receiveRx wait ∉ calls trace) : trace.flatMap received = [] := by
  rw [List.flatMap_eq_nil_iff]
  rintro ⟨_, request, reply⟩ member
  cases request with
  | receiveRx wait => exact absurd (List.mem_map_of_mem member) (others wait)
  | _ => rfl

theorem handleLine_kept (line : CStr) (transaction : Transaction) :
    ∃ after, (handleLine line (some transaction)).2 = some after ∧
      after.request = transaction.request ∧
      (transaction.router.urcContinuationLines ≤ 1 → after.router.urcContinuationLines ≤ 1) := by
  unfold handleLine
  by_cases done : transaction.done = true
  · simp [done]
  by_cases echo : line = transaction.request.command
  · simp [done, echo]
  simp only [done, echo, if_false, Bool.false_eq_true]
  unfold Router.routeLine
  split
  · rename_i routed
    refine ⟨_, rfl, rfl, ?_⟩
    intro single
    split at routed
    · cases routed
      simp only
      omega
    · split at routed
      · cases routed
        simp only [urcContinuationLines]
        split <;> omega
      · cases routed
  · split
    · refine ⟨_, rfl, ?_⟩
      unfold Transaction.complete
      simp only
      split <;> exact ⟨rfl, id⟩
    · exact ⟨_, rfl, rfl, id⟩

theorem sendPayload_can {parser : Parser} {transaction : Transaction} {after : Session}
    {trace : List (Prog.Entry Unit AtCall AtCall.Reply)}
    (ran : (sendPayload parser transaction).Can trace after) :
    ∃ sent, after = (parser.setPromptEnabled false, some sent) ∧
      sent.router = transaction.router ∧
      calls trace = [.write transaction.request.promptPayload] := by
  unfold sendPayload at ran
  cases ran with
  | @call _ _ reply _ _ _ _ _ _ ended =>
      cases reply <;> cases ended <;> exact ⟨_, rfl, rfl, rfl⟩

theorem queueUrc_can {line : CStr} {trace : List (Prog.Entry Unit AtCall AtCall.Reply)}
    {value : Unit} (ran : (queueUrc line).Can trace value) : trace.flatMap received = [] := by
  unfold queueUrc at ran
  split at ran
  · cases ran
    rfl
  · cases ran with
    | call _ ran =>
        cases ran
        rfl

theorem handleLine_isSome (line : CStr) (transaction : Option Transaction) :
    (handleLine line transaction).2.isSome = transaction.isSome := by
  cases transaction with
  | none => rfl
  | some transaction =>
      obtain ⟨after, equal, -⟩ := handleLine_kept line transaction
      simp [equal]

/-- A token neither starts nor ends an attempt. -/
theorem handleToken_can {token : Token} {s t : Session}
    {trace : List (Prog.Entry Unit AtCall AtCall.Reply)} (ran : (handleToken token s).Can trace t) :
    t.2.isSome = s.2.isSome ∧ trace.flatMap received = [] := by
  obtain ⟨parser, transaction⟩ := s
  cases token with
  | lineOverflow =>
      cases ran
      simp
  | prompt =>
      cases transaction with
      | none =>
          obtain ⟨first, last, _, rfl, queued, ended⟩ := Prog.Can.of_bind ran
          cases ended
          simp [queueUrc_can queued]
      | some transaction =>
          simp only [handleToken] at ran
          split at ran
          · obtain ⟨sent, rfl, -, writes⟩ := sendPayload_can ran
            obtain ⟨⟨_, _, _⟩, rfl, rfl⟩ := List.map_eq_singleton_iff.mp writes
            simp [received]
          · obtain ⟨first, last, _, rfl, queued, ended⟩ := Prog.Can.of_bind ran
            cases ended
            simp [queueUrc_can queued]
  | line bytes =>
      have same := handleLine_isSome (CStr.ofBytes bytes) transaction
      simp only [handleToken] at ran
      rcases handled : handleLine (CStr.ofBytes bytes) transaction with ⟨handling, after⟩
      rw [handled] at ran same
      cases handling with
      | queued =>
          obtain ⟨first, last, _, rfl, queued, ended⟩ := Prog.Can.of_bind ran
          cases ended
          simpa [queueUrc_can queued] using same
      | echo | completed | captured =>
          cases ran
          simpa using same

theorem feed_can {bytes : List UInt8} {s t : Session}
    {trace : List (Prog.Entry Unit AtCall AtCall.Reply)}
    (ran : (Parser.feed processToken bytes s).Can trace t) :
    t.2.isSome = s.2.isSome ∧ trace.flatMap received = [] := by
  induction bytes generalizing s trace with
  | nil =>
      cases ran
      simp
  | cons ch bytes ih =>
      rw [Parser.feed_cons] at ran
      obtain ⟨first, last, between, rfl, now, later⟩ := Prog.Can.of_bind ran
      obtain ⟨kept, quiet⟩ := ih later
      rw [kept, List.flatMap_append, quiet, List.append_nil]
      unfold Parser.octet at now
      split at now
      · cases now
        simp
      · obtain ⟨calls, none, after, rfl, handled, ended⟩ := Prog.Can.of_bind now
        cases ended
        cases handled with
        | call _ handled =>
            have facts := handleToken_can handled
            simpa [received] using facts

theorem feedIdle_can {parser after : Parser} {bytes : List UInt8}
    {trace : List (Prog.Entry Unit AtCall AtCall.Reply)}
    (ran : (feedIdle parser bytes).Can trace after) :
    (Parser.feed processToken bytes (parser, none)).Can trace (after, none) ∧
      trace.flatMap received = [] := by
  obtain ⟨first, last, ⟨fed, transaction⟩, rfl, now, ended⟩ := Prog.Can.of_bind ran
  cases ended
  obtain ⟨same, quiet⟩ := feed_can now
  have idle : transaction = none := by simpa using same
  subst idle
  rw [List.append_nil]
  exact ⟨now, quiet⟩

theorem Attempt.feed_can {attempt after : Attempt} {bytes : List UInt8}
    {trace : List (Prog.Entry Unit AtCall AtCall.Reply)} (ran : (attempt.feed bytes).Can trace after) :
    (Parser.feed processToken bytes (attempt.parser, some attempt.transaction)).Can trace
        (after.parser, some after.transaction) ∧
      trace.flatMap received = [] := by
  obtain ⟨first, last, ⟨fed, transaction⟩, rfl, now, ended⟩ := Prog.Can.of_bind ran
  cases ended
  obtain ⟨same, quiet⟩ := At.feed_can now
  obtain ⟨running, rfl⟩ := Option.isSome_iff_exists.mp same
  rw [List.append_nil]
  exact ⟨now, quiet⟩

theorem beginAttempt_can {request : Request} {response : Response} {parser : Parser}
    {outcome : Except AtResult Attempt} {trace : List (Prog.Entry Unit AtCall AtCall.Reply)}
    (ran : (beginAttempt request response parser).Can trace outcome) :
    (∃ result, outcome = .error result ∧ result ≠ .ok) ∨
      ∃ attempt, outcome = .ok attempt ∧
        attempt.parser = parser.setPromptEnabled request.waitForPrompt ∧
        attempt.transaction = ⟨request, response, false, false, .init⟩ := by
  unfold beginAttempt sendCommand at ran
  cases ran with
  | call _ ran =>
  cases ran with
  | call _ ran =>
  cases ran with
  | call _ ran =>
  cases ran with
  | @call _ _ ready _ _ _ _ _ _ ran =>
  cases ready with
  | false =>
      cases ran
      exact .inl ⟨_, rfl, by simp⟩
  | true =>
      cases ran with
      | @call _ _ written _ _ _ _ _ _ ran =>
      cases written with
      | error e =>
          cases ran
          refine .inl ⟨_, rfl, ?_⟩
          split <;> simp
      | ok value =>
          cases ran with
          | call _ ran =>
          cases ran
          exact .inr ⟨_, rfl, rfl, rfl⟩

theorem beginAttempt_started {request : Request} {response : Response} {parser : Parser}
    {attempt : Attempt} {trace : List (Prog.Entry Unit AtCall AtCall.Reply)}
    (ran : (beginAttempt request response parser).Can trace (.ok attempt)) :
    attempt.parser = parser.setPromptEnabled request.waitForPrompt ∧
      attempt.transaction = ⟨request, response, false, false, .init⟩ := by
  rcases beginAttempt_can ran with ⟨_, same, -⟩ | ⟨_, same, facts⟩
  · cases same
  · cases same
    exact facts

/-- The calls of a pass before its chunk. -/
def pollCalls : List AtCall := [.overflowEpoch, .transportLostEpoch, .cancelEpoch, .time]

/-- What a pass of `execute_attempt` can do: return because the transaction is done,
find no chunk, or feed one. -/
theorem Attempt.pass_can {attempt : Attempt} {outcome : AtResult ⊕ Attempt}
    {trace : List (Prog.Entry Unit AtCall AtCall.Reply)} (ran : attempt.pass.Can trace outcome) :
    (attempt.transaction.done = true ∧ trace = [] ∧
      outcome = .inl attempt.transaction.response.result) ∨
    (attempt.transaction.done = false ∧ calls trace ⊆ pollCalls ++ [.receiveRx true] ∧
      trace.flatMap received = [] ∧
      (outcome = .inr attempt ∨ ∃ result, result ≠ .ok ∧ outcome = .inl result)) ∨
    (attempt.transaction.done = false ∧ ∃ polls bytes fed after, calls polls = pollCalls ∧
      trace = polls ++ ⟨(), .receiveRx true, some (.data bytes)⟩ :: fed ∧
      (attempt.feed bytes).Can fed after ∧ outcome = .inr after) := by
  unfold Attempt.pass at ran
  split at ran
  · rename_i done
    cases ran
    exact .inl ⟨done, rfl, rfl⟩
  rename_i running
  have running : attempt.transaction.done = false := by simpa using running
  cases ran with
  | @call _ _ overflow _ _ _ _ _ _ ran =>
  change (if overflow ≠ _ then _ else _ : AtM _).Can _ _ at ran
  split at ran
  · cases ran
    exact .inr (.inl ⟨running, by simp [calls, pollCalls], rfl, .inr ⟨_, by simp, rfl⟩⟩)
  cases ran with
  | @call _ _ lost _ _ _ _ _ _ ran =>
  change (if lost ≠ _ then _ else _ : AtM _).Can _ _ at ran
  split at ran
  · cases ran
    exact .inr (.inl ⟨running, by simp [calls, pollCalls], rfl, .inr ⟨_, by simp, rfl⟩⟩)
  cases ran with
  | @call _ _ canceled _ _ _ _ _ _ ran =>
  change (if canceled ≠ _ then _ else _ : AtM _).Can _ _ at ran
  split at ran
  · cases ran
    exact .inr (.inl ⟨running, by simp [calls, pollCalls], rfl, .inr ⟨_, by simp, rfl⟩⟩)
  cases ran with
  | @call _ _ clock _ _ _ _ _ _ ran =>
  change (if attempt.deadlineUs - clock ≤ 0 then _ else _ : AtM _).Can _ _ at ran
  split at ran
  · cases ran
    exact .inr (.inl ⟨running, by simp [calls, pollCalls], rfl, .inr ⟨_, by simp, rfl⟩⟩)
  cases ran with
  | @call _ _ event _ _ _ _ _ _ ran =>
  rcases event with _ | bytes | _ | _
  · cases ran
    exact .inr (.inl ⟨running, by simp [calls, pollCalls], rfl, .inl rfl⟩)
  · have fed : (attempt.feed bytes >>= fun after => pure (.inr after)).Can _ outcome := ran
    obtain ⟨first, last, after, rfl, now, ended⟩ := Prog.Can.of_bind fed
    cases ended
    refine .inr (.inr ⟨running, [⟨(), .overflowEpoch, overflow⟩, ⟨(), .transportLostEpoch, lost⟩,
      ⟨(), .cancelEpoch, canceled⟩, ⟨(), .time, clock⟩], bytes, first, after, rfl, ?_, now, rfl⟩)
    rw [List.append_nil]
    rfl
  · cases ran
    exact .inr (.inl ⟨running, by simp [calls, pollCalls], rfl, .inr ⟨_, by simp, rfl⟩⟩)
  · cases ran
    exact .inr (.inl ⟨running, by simp [calls, pollCalls], rfl, .inr ⟨_, by simp, rfl⟩⟩)

end SmsGateway.At
