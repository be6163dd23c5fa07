import SmsGateway.At.Runs

/-! Prompt transactions: when the payload of a request is written. -/

namespace SmsGateway.At

open Lib

/-- The bytes since the parser's last byte end with a line end, or there are none and
the parser is at the start of a line itself. -/
def AtLineStart (parser : Parser) (bytes : List UInt8) : Prop :=
  match bytes.getLast? with
  | some ch => isLineEnd ch = true
  | none => parser.line = [] ∧ parser.discardingOverflow = false

theorem AtLineStart.cons {parser next : Parser} {ch : UInt8} {before : List UInt8}
    (starts : AtLineStart next before)
    (first : next.line = [] → next.discardingOverflow = false → isLineEnd ch = true) :
    AtLineStart parser (ch :: before) := by
  unfold AtLineStart at starts ⊢
  rcases before.eq_nil_or_concat with rfl | ⟨front, last, rfl⟩
  · exact first starts.1 starts.2
  · simpa [List.getLast?_cons] using starts

namespace Parser

/-- What `process_token` leaves of the parser in an attempt that waits for a prompt:
the first prompt is the last. -/
def afterToken (parser : Parser) : Token → Parser
  | .prompt => parser.setPromptEnabled false
  | .line _ | .lineOverflow => parser

/-- The tokens of a stream of bytes in such an attempt. -/
def scan : Parser → List UInt8 → Parser × List Token
  | parser, [] => (parser, [])
  | parser, ch :: rest =>
      match parser.accept ch with
      | (after, none) => scan after rest
      | (after, some token) =>
          ((scan ((after.afterToken token).settle token) rest).1,
            token :: (scan ((after.afterToken token).settle token) rest).2)

theorem scan_append (parser : Parser) (first last : List UInt8) :
    parser.scan (first ++ last) =
      (((parser.scan first).1.scan last).1,
        (parser.scan first).2 ++ ((parser.scan first).1.scan last).2) := by
  induction first generalizing parser with
  | nil => rfl
  | cons ch rest ih =>
      simp only [List.cons_append, scan]
      rcases parser.accept ch with ⟨after, _ | token⟩
      · exact ih after
      · simp only [ih, List.cons_append]

/-- What a byte can do to a parser that has no prompt behind it. -/
theorem accept_cases {parser after : Parser} {ch : UInt8} {found : Option Token}
    (unskipped : parser.skipPromptSpace = false) (accepted : parser.accept ch = (after, found)) :
    after.skipPromptSpace = false ∧ after.promptEnabled = parser.promptEnabled ∧
      (found = none ∧ (after.line = [] → after.discardingOverflow = false → isLineEnd ch = true) ∨
        (∃ token, found = some token ∧ token ≠ .prompt ∧ isLineEnd ch = true) ∨
        found = some .prompt ∧ parser.promptEnabled = true ∧ ch = promptSign ∧ parser.line = [] ∧
          parser.discardingOverflow = false) := by
  unfold accept at accepted
  simp only [unskipped, Bool.false_and, Bool.false_eq_true, if_false] at accepted
  split at accepted
  · rename_i discarding
    split at accepted
    · rename_i ends
      cases accepted
      exact ⟨rfl, rfl, .inr (.inl ⟨_, rfl, by simp, ends⟩)⟩
    · cases accepted
      refine ⟨rfl, rfl, .inl ⟨rfl, ?_⟩⟩
      intro _ keeping
      exact absurd (discarding.symm.trans keeping) (by simp)
  · rename_i keeping
    split at accepted
    · rename_i ends
      split at accepted
      · cases accepted
        exact ⟨rfl, rfl, .inl ⟨rfl, fun _ _ => ends⟩⟩
      · cases accepted
        exact ⟨rfl, rfl, .inr (.inl ⟨_, rfl, by simp, ends⟩)⟩
    · split at accepted
      · rename_i prompt
        simp only [Bool.and_eq_true, beq_iff_eq, List.isEmpty_iff] at prompt
        cases accepted
        exact ⟨rfl, rfl, .inr (.inr ⟨rfl, prompt.1.1, prompt.1.2, prompt.2, by simpa using keeping⟩)⟩
      · split at accepted
        · cases accepted
          refine ⟨rfl, rfl, .inl ⟨rfl, ?_⟩⟩
          intro empty
          simp at empty
        · cases accepted
          refine ⟨rfl, rfl, .inl ⟨rfl, ?_⟩⟩
          intro _ keeping
          simp at keeping

/-- Without the prompt mode there is no prompt. -/
theorem scan_disabled (parser : Parser) (disabled : parser.promptEnabled = false)
    (bytes : List UInt8) : Token.prompt ∉ (parser.scan bytes).2 := by
  induction bytes generalizing parser with
  | nil => simp [scan]
  | cons ch rest ih =>
      obtain ⟨same, prompts⟩ := parser.accept_enabled ch
      simp only [scan]
      rcases accepted : parser.accept ch with ⟨after, _ | token⟩ <;> rw [accepted] at same prompts
      · exact ih _ (same.trans disabled)
      · have other : token ≠ .prompt := by
          rintro rfl
          exact absurd (prompts rfl) (by simp [disabled])
        have kept : ((after.afterToken token).settle token).promptEnabled = false := by
          rw [settle_enabled]
          cases token <;> first | exact same.trans disabled | rfl
        simp [ih _ kept, Ne.symm other]

/-- A prompt is a `>` at the start of a line, and the only one. -/
theorem scan_prompt {parser : Parser} (unskipped : parser.skipPromptSpace = false)
    {bytes : List UInt8} {earlier later : List Token}
    (found : (parser.scan bytes).2 = earlier ++ .prompt :: later) :
    Token.prompt ∉ earlier ++ later ∧
      ∃ before after, bytes = before ++ promptSign :: after ∧ AtLineStart parser before ∧
        (parser.scan before).2 = earlier := by
  induction bytes generalizing parser earlier with
  | nil => simp [scan] at found
  | cons ch rest ih =>
      simp only [scan] at found
      rcases accepted : parser.accept ch with ⟨next, token⟩
      rw [accepted] at found
      obtain ⟨free, enabled, outcome⟩ := accept_cases unskipped accepted
      rcases outcome with ⟨rfl, ends⟩ | ⟨token, rfl, other, ends⟩ | ⟨rfl, open', rfl, empty, keeping⟩
      · obtain ⟨once, before, after, rfl, starts, tokens⟩ := ih free found
        exact ⟨once, ch :: before, after, rfl, starts.cons ends, by simpa [scan, accepted] using tokens⟩
      · cases earlier with
        | nil => exact absurd (List.cons.inj found).1 other
        | cons first earlier =>
            obtain ⟨head, tail⟩ := List.cons.inj found
            subst head
            have settled : ((next.afterToken token).settle token).skipPromptSpace = false := by
              cases token <;> first | exact absurd rfl other | exact free
            obtain ⟨once, before, after, rfl, starts, tokens⟩ := ih settled tail
            refine ⟨by simpa [Ne.symm other] using once, ch :: before, after, rfl,
              starts.cons fun _ _ => ends, ?_⟩
            simp [scan, accepted, tokens]
      · have silent := scan_disabled ((next.afterToken .prompt).settle .prompt) rfl rest
        cases earlier with
        | nil =>
            obtain ⟨-, rfl⟩ := List.cons.inj found
            exact ⟨by simpa using silent, [], rest, rfl, ⟨empty, keeping⟩, rfl⟩
        | cons first earlier =>
            obtain ⟨-, found⟩ := List.cons.inj found
            rw [found] at silent
            exact absurd List.mem_cons_self fun member => silent (List.mem_append_right _ member)

end Parser

abbrev Trace := List (Prog.Entry Unit AtCall AtCall.Reply)

/-- The tokens that `process_token` was called with. -/
def tokens (trace : Trace) : List Token :=
  trace.filterMap fun entry =>
    match entry.request with
    | .token token => some token
    | _ => none

/-- Whether a token completes an attempt: a line overflow, or a final result line that
is routed as a response. -/
def completes (request : Request) (router : Router) : Token → Bool
  | .lineOverflow => true
  | .prompt => false
  | .line bytes =>
      CStr.ofBytes bytes ≠ request.command &&
        (router.routeLine (CStr.ofBytes bytes) request.expectedPrefixes).1 = .response &&
        (finalStatus (CStr.ofBytes bytes)).kind ≠ .none

def Router.after (router : Router) (request : Request) : Token → Router
  | .line bytes =>
      if CStr.ofBytes bytes = request.command then router
      else (router.routeLine (CStr.ofBytes bytes) request.expectedPrefixes).2
  | .prompt | .lineOverflow => router

/-- The router after these tokens of an attempt, and whether one of them completed it. -/
def progress (request : Request) (seen : List Token) : Router × Bool :=
  seen.foldl (fun state token => (state.1.after request token, state.2 || completes request state.1 token))
    (.init, false)

def Completed (request : Request) (seen : List Token) : Prop := (progress request seen).2 = true

instance (request : Request) (seen : List Token) : Decidable (Completed request seen) :=
  inferInstanceAs (Decidable (_ = true))

theorem progress_concat (request : Request) (seen : List Token) (token : Token) :
    progress request (seen ++ [token]) =
      ((progress request seen).1.after request token,
        (progress request seen).2 || completes request (progress request seen).1 token) := by
  simp [progress]

/-- The payload was written, and after it came an `OK` that is no echo and no
unsolicited line, in an attempt that nothing had completed. -/
def OkAfterPayload (request : Request) (trace : Trace) : Prop :=
  ∃ before after bytes, trace = before ++ ⟨(), .token (.line bytes), ()⟩ :: after ∧
    ⟨(), .write request.promptPayload, .ok ()⟩ ∈ before ∧ CStr.ofBytes bytes = .text "OK" ∧
    ¬ Completed request (tokens before) ∧
    completes request (progress request (tokens before)).1 (.line bytes) = true

theorem OkAfterPayload.append {request : Request} {trace : Trace}
    (confirmed : OkAfterPayload request trace) (more : Trace) :
    OkAfterPayload request (trace ++ more) := by
  obtain ⟨before, after, bytes, rfl, written⟩ := confirmed
  exact ⟨before, after ++ more, bytes, by simp, written⟩

/-- Every prompt is answered by the payload, and nothing else writes. -/
inductive Paired (payload : List UInt8) : Trace → Prop where
  | nil : Paired payload []
  | other {entry : Prog.Entry Unit AtCall AtCall.Reply} {trace : Trace}
      (noPrompt : entry.request ≠ .token .prompt) (noWrite : ∀ bytes, entry.request ≠ .write bytes)
      (rest : Paired payload trace) : Paired payload (entry :: trace)
  | prompt {reply : Except EspErr Unit} {trace : Trace} (rest : Paired payload trace) :
      Paired payload (⟨(), .token .prompt, ()⟩ :: ⟨(), .write payload, reply⟩ :: trace)

theorem Paired.append {payload : List UInt8} {first last : Trace} (paired : Paired payload first)
    (later : Paired payload last) : Paired payload (first ++ last) := by
  induction paired with
  | nil => exact later
  | other noPrompt noWrite _ ih => exact .other noPrompt noWrite ih
  | prompt _ ih => exact .prompt ih

theorem finalStatus_ok {line : CStr} (ok : (finalStatus line).kind = .ok) : line = .text "OK" := by
  have prefixed (start : CStr) (kind : FinalKind) : (parsePrefixedError line start kind).kind = kind := by
    simp only [parsePrefixedError]
    split
    · split <;> rfl
    · rfl
  unfold finalStatus at ok
  split at ok
  · assumption
  repeat' split at ok
  all_goals simp_all

theorem queueUrc_trace {line : CStr} {trace : Trace} {value : Unit}
    (ran : (queueUrc line).Can trace value) (payload : List UInt8) :
    tokens trace = [] ∧ Paired payload trace := by
  unfold queueUrc at ran
  split at ran
  · cases ran
    exact ⟨rfl, .nil⟩
  · cases ran with
    | call _ ran =>
        cases ran
        exact ⟨rfl, .other (by simp) (by simp) .nil⟩

/-- What a trace says of the transaction it leads to. -/
structure Tracks (request : Request) (trace : Trace) (transaction : Transaction) : Prop where
  same : transaction.request = request
  paired : Paired request.promptPayload trace
  routed : transaction.done = false →
    progress request (tokens trace) = (transaction.router, false)
  sent : transaction.payloadSent = true → ⟨(), .write request.promptPayload, .ok ()⟩ ∈ trace
  confirmed : transaction.done = true → transaction.response.result = .ok →
    OkAfterPayload request trace

theorem tokens_append (first last : Trace) : tokens (first ++ last) = tokens first ++ tokens last :=
  List.filterMap_append

theorem tokens_cons_token (token : Token) (trace : Trace) :
    tokens (⟨(), .token token, ()⟩ :: trace) = token :: tokens trace := rfl

/-- A line that leaves the attempt open. -/
theorem Tracks.line {request : Request} {trace calls : Trace} {transaction after : Transaction}
    {bytes : List UInt8} (tracks : Tracks request trace transaction) (quiet : tokens calls = [])
    (paired : Paired request.promptPayload calls) (same : after.request = transaction.request)
    (done : after.done = transaction.done) (sent : after.payloadSent = transaction.payloadSent)
    (result : after.response.result = transaction.response.result)
    (routed : transaction.done = false →
      transaction.router.after request (.line bytes) = after.router ∧
        completes request transaction.router (.line bytes) = false) :
    Tracks request (trace ++ ⟨(), .token (.line bytes), ()⟩ :: calls) after where
  same := same.trans tracks.same
  paired := tracks.paired.append (.other (by simp) (by simp) paired)
  routed running := by
    rw [done] at running
    obtain ⟨router, open'⟩ := routed running
    rw [tokens_append, tokens_cons_token, quiet, progress_concat, tracks.routed running]
    simp [router, open']
  sent payload := List.mem_append_left _ (tracks.sent (sent ▸ payload))
  confirmed complete ok := (tracks.confirmed (done ▸ complete) (result ▸ ok)).append _

/-- A final line completes the attempt, with `OK` only after the payload. -/
theorem Tracks.complete {request : Request} {trace : Trace} {transaction : Transaction}
    {bytes : List UInt8} (waits : request.waitForPrompt = true)
    (tracks : Tracks request trace transaction) (running : transaction.done = false)
    (completing : completes request transaction.router (.line bytes) = true) :
    Tracks request (trace ++ [⟨(), .token (.line bytes), ()⟩])
      (transaction.complete (CStr.ofBytes bytes)) := by
  have open' := tracks.routed running
  have confirms (payload : transaction.payloadSent = true)
      (ok : (finalStatus (CStr.ofBytes bytes)).kind = .ok) :
      OkAfterPayload request (trace ++ [⟨(), .token (.line bytes), ()⟩]) := by
    refine ⟨trace, [], bytes, rfl, tracks.sent payload, finalStatus_ok ok, ?_, ?_⟩
    · simp [Completed, open']
    · rw [open']
      exact completing
  have last : Paired request.promptPayload [⟨(), .token (.line bytes), ()⟩] :=
    .other (by simp) (by simp) .nil
  have paired := tracks.paired.append last
  unfold Transaction.complete
  simp only [tracks.same, waits, true_and]
  split
  · exact ⟨rfl, paired, by simp, fun payload => List.mem_append_left _ (tracks.sent payload),
      fun _ ok => by simp at ok⟩
  · rename_i early
    refine ⟨rfl, paired, by simp, fun payload => List.mem_append_left _ (tracks.sent payload),
      fun _ result => ?_⟩
    have ok : (finalStatus (CStr.ofBytes bytes)).kind = .ok := by
      revert result
      simp only
      cases (finalStatus (CStr.ofBytes bytes)).kind <;> simp [mapFinalKind]
    exact confirms (by simpa [ok] using early) ok

theorem Tracks.prompt {request : Request} {trace calls : Trace} {transaction : Transaction}
    {parser : Parser} {t : Session} (tracks : Tracks request trace transaction)
    (ran : (sendPayload parser transaction).Can calls t) :
    ∃ after, t = (parser.setPromptEnabled false, some after) ∧
      Tracks request (trace ++ ⟨(), .token .prompt, ()⟩ :: calls) after ∧ tokens calls = [] := by
  obtain rfl := tracks.same
  unfold sendPayload at ran
  have open' (running : transaction.done = false) :
      progress transaction.request (tokens trace ++ [.prompt]) = (transaction.router, false) := by
    rw [progress_concat, tracks.routed running]
    rfl
  cases ran with
  | @call _ _ reply _ _ _ _ _ _ ran =>
  cases reply with
  | error e =>
      cases ran
      refine ⟨_, rfl, ⟨tracks.same, tracks.paired.append (.prompt .nil), by simp,
        fun payload => List.mem_append_left _ (tracks.sent payload), fun _ ok => by simp at ok⟩, rfl⟩
  | ok value =>
      cases ran
      refine ⟨_, rfl, ⟨tracks.same, tracks.paired.append (.prompt .nil), ?_, fun _ => by simp,
        fun complete ok => (tracks.confirmed complete ok).append _⟩, rfl⟩
      intro running
      rw [tokens_append]
      exact open' running

/-- What `process_token` does with a line of a running attempt. -/
theorem handleLine_running (line : CStr) {transaction : Transaction}
    (running : transaction.done = false) :
    line = transaction.request.command ∧
        handleLine line (some transaction) = (.echo, some transaction) ∨
      line ≠ transaction.request.command ∧
        ((∃ router, transaction.router.routeLine line transaction.request.expectedPrefixes =
              (.urc, router) ∧
            handleLine line (some transaction) =
              (.queued, some { transaction with router := router })) ∨
          transaction.router.routeLine line transaction.request.expectedPrefixes =
              (.response, transaction.router) ∧
            ((finalStatus line).kind ≠ .none ∧
                handleLine line (some transaction) = (.completed, some (transaction.complete line)) ∨
              (finalStatus line).kind = .none ∧
                handleLine line (some transaction) =
                  (.captured, some { transaction with
                    response := transaction.response.captureLine line }))) := by
  unfold handleLine
  by_cases echo : line = transaction.request.command
  · exact .inl ⟨echo, by simp [running, echo]⟩
  refine .inr ⟨echo, ?_⟩
  simp only [running, echo, if_false, Bool.false_eq_true]
  by_cases continues : 0 < transaction.router.urcContinuationLines
  · exact .inl ⟨_, if_pos continues, by simp [Router.routeLine, continues]⟩
  by_cases urc : shouldRouteAsUrc line transaction.request.expectedPrefixes = true
  · exact .inl ⟨_, (if_neg continues).trans (if_pos urc),
      by simp [Router.routeLine, continues, urc]⟩
  · have response : transaction.router.routeLine line transaction.request.expectedPrefixes =
        (.response, transaction.router) := (if_neg continues).trans (if_neg urc)
    refine .inr ⟨response, ?_⟩
    by_cases final : (finalStatus line).kind = .none
    · exact .inr ⟨final, by simp [response, final]⟩
    · exact .inl ⟨final, by simp [response, final]⟩

theorem Response.captureLine_result (response : Response) (line : CStr) :
    (response.captureLine line).result = response.result := by
  unfold Response.captureLine
  split <;> rfl

/-- One token of an attempt that waits for a prompt. -/
theorem Tracks.token {request : Request} {trace calls : Trace} {transaction : Transaction}
    {parser : Parser} {token : Token} {t : Session} (waits : request.waitForPrompt = true)
    (tracks : Tracks request trace transaction)
    (ran : (handleToken token (parser, some transaction)).Can calls t) :
    ∃ after, t = (parser.afterToken token, some after) ∧
      Tracks request (trace ++ ⟨(), .token token, ()⟩ :: calls) after ∧ tokens calls = [] := by
  obtain rfl := tracks.same
  cases token with
  | lineOverflow =>
      cases ran
      exact ⟨_, rfl, ⟨rfl, tracks.paired.append (.other (by simp) (by simp) .nil),
        by simp [Transaction.overflow], fun payload => List.mem_append_left _ (tracks.sent payload),
        fun _ ok => by simp [Transaction.overflow] at ok⟩, rfl⟩
  | prompt =>
      simp only [handleToken, waits, if_true] at ran
      exact tracks.prompt ran
  | line bytes =>
      simp only [handleToken] at ran
      cases running : transaction.done with
      | true =>
          simp only [handleLine, running, if_true] at ran
          obtain ⟨first, last, _, rfl, queued, ended⟩ := Prog.Can.of_bind ran
          cases ended
          obtain ⟨quiet, paired⟩ := queueUrc_trace queued transaction.request.promptPayload
          rw [List.append_nil]
          exact ⟨_, rfl, tracks.line quiet paired rfl rfl rfl rfl (by simp [running]), quiet⟩
      | false =>
          rcases handleLine_running (CStr.ofBytes bytes) running with ⟨echo, handled⟩ |
            ⟨other, ⟨router, urc, handled⟩ | ⟨response, ⟨final, handled⟩ | ⟨none, handled⟩⟩⟩ <;>
            rw [handled] at ran
          · cases ran
            exact ⟨_, rfl, tracks.line rfl .nil rfl rfl rfl rfl
              (by simp [Router.after, completes, echo]), rfl⟩
          · obtain ⟨first, last, _, rfl, queued, ended⟩ := Prog.Can.of_bind ran
            cases ended
            obtain ⟨quiet, paired⟩ := queueUrc_trace queued transaction.request.promptPayload
            rw [List.append_nil]
            exact ⟨_, rfl, tracks.line quiet paired rfl rfl rfl rfl
              (by simp [Router.after, completes, other, urc]), quiet⟩
          · cases ran
            exact ⟨_, rfl, tracks.complete waits running (by simp [completes, other, response, final]),
              rfl⟩
          · cases ran
            exact ⟨_, rfl, tracks.line rfl .nil rfl rfl rfl (Response.captureLine_result _ _)
              (by simp [Router.after, completes, other, response, none]), rfl⟩

/-- A chunk of an attempt that waits for a prompt. -/
theorem Tracks.feed {request : Request} {bytes : List UInt8} {trace calls : Trace}
    {transaction : Transaction} {parser : Parser} {t : Session}
    (waits : request.waitForPrompt = true) (tracks : Tracks request trace transaction)
    (ran : (Parser.feed processToken bytes (parser, some transaction)).Can calls t) :
    ∃ after, t = ((parser.scan bytes).1, some after) ∧ Tracks request (trace ++ calls) after ∧
      tokens calls = (parser.scan bytes).2 := by
  induction bytes generalizing parser transaction trace calls with
  | nil =>
      cases ran
      exact ⟨transaction, rfl, by simpa using tracks, rfl⟩
  | cons ch rest ih =>
      rw [Parser.feed_cons] at ran
      obtain ⟨first, last, between, rfl, now, later⟩ := Prog.Can.of_bind ran
      simp only [Parser.octet] at now
      simp only [Parser.scan]
      rcases accepted : parser.accept ch with ⟨next, _ | token⟩ <;> rw [accepted] at now
      · cases now
        exact ih tracks later
      · obtain ⟨calls, _, handled, rfl, handling, ended⟩ := Prog.Can.of_bind now
        cases ended
        cases handling with
        | call _ handling =>
            obtain ⟨after, rfl, tracked, quiet⟩ := tracks.token waits handling
            obtain ⟨final, rfl, tracks, same⟩ := ih tracked later
            refine ⟨final, rfl, by simpa using tracks, ?_⟩
            rw [List.append_nil, tokens_append, tokens_cons_token, quiet, same]
            rfl

def AtCall.isWrite : AtCall → Bool
  | .write _ => true
  | _ => false

/-- A write is the payload, and a prompt comes right before it. -/
theorem Paired.before_write {payload bytes : List UInt8} {trace before after : Trace}
    {reply : Except EspErr Unit} (paired : Paired payload trace)
    (split : trace = before ++ ⟨(), .write bytes, reply⟩ :: after) :
    bytes = payload ∧ ∃ front, before = front ++ [⟨(), .token .prompt, ()⟩] := by
  induction paired generalizing before with
  | nil => simp at split
  | other noPrompt noWrite _ ih =>
      cases before with
      | nil =>
          obtain ⟨rfl, -⟩ := List.cons.inj split
          exact absurd rfl (noWrite bytes)
      | cons first before =>
          obtain ⟨same, front, rfl⟩ := ih (List.cons.inj split).2
          exact ⟨same, _ :: front, rfl⟩
  | prompt _ ih =>
      rcases before with _ | ⟨first, _ | ⟨second, before⟩⟩
      · cases split
      · cases split
        exact ⟨rfl, [], rfl⟩
      · simp only [List.cons_append, List.cons.injEq] at split
        obtain ⟨rfl, rfl, split⟩ := split
        obtain ⟨same, front, rfl⟩ := ih split
        exact ⟨same, _ :: _ :: front, rfl⟩

theorem Paired.after_prompt {payload : List UInt8} {trace before after : Trace}
    (paired : Paired payload trace) (split : trace = before ++ ⟨(), .token .prompt, ()⟩ :: after) :
    ∃ reply rest, after = ⟨(), .write payload, reply⟩ :: rest := by
  induction paired generalizing before with
  | nil => simp at split
  | other noPrompt noWrite _ ih =>
      cases before with
      | nil =>
          obtain ⟨rfl, -⟩ := List.cons.inj split
          exact absurd rfl noPrompt
      | cons first before => exact ih (List.cons.inj split).2
  | prompt _ ih =>
      rcases before with _ | ⟨first, _ | ⟨second, before⟩⟩
      · cases split
        exact ⟨_, _, rfl⟩
      · cases split
      · simp only [List.cons_append, List.cons.injEq] at split
        exact ih split.2.2

theorem Paired.count {payload : List UInt8} {trace : Trace} (paired : Paired payload trace) :
    (calls trace).countP AtCall.isWrite = (tokens trace).count .prompt := by
  induction paired with
  | nil => rfl
  | @other entry trace noPrompt noWrite _ ih =>
      obtain ⟨_, request, reply⟩ := entry
      cases request with
      | token token =>
          have other : token ≠ .prompt := fun same => noPrompt (same ▸ rfl)
          simpa [calls, tokens, AtCall.isWrite, other] using ih
      | write bytes => exact absurd rfl (noWrite bytes)
      | _ => simpa [calls, tokens, AtCall.isWrite] using ih
  | prompt _ ih =>
      simp only [calls, List.map_cons, List.countP_cons, tokens, List.filterMap_cons,
        List.count_cons] at ih ⊢
      simp [ih, AtCall.isWrite]

/-- Every write of a trace comes after a `>` at the start of a line. -/
def Prompted (start : Parser) (trace : Trace) : Prop :=
  ∀ before bytes reply after, trace = before ++ ⟨(), .write bytes, reply⟩ :: after →
    ∃ front rest, before.flatMap received = front ++ promptSign :: rest ∧ AtLineStart start front ∧
      tokens before = (start.scan front).2 ++ [.prompt]

theorem prompted_nil {start : Parser} : Prompted start [] := by
  intro before bytes reply after split
  simp at split

/-- What a trace of an attempt says of its state. -/
structure Attempt.Tracks (request : Request) (start : Parser) (trace : Trace) (attempt : Attempt) :
    Prop where
  tracks : At.Tracks request trace attempt.transaction
  scanned : start.scan (trace.flatMap received) = (attempt.parser, tokens trace)
  prompted : Prompted start trace

/-- Where a write of two traces in a row is. -/
theorem write_split {first last before after : Trace} {entry : Prog.Entry Unit AtCall AtCall.Reply}
    (split : first ++ last = before ++ entry :: after) :
    (∃ rest, first = before ++ entry :: rest) ∨
      ∃ front, before = first ++ front ∧ last = front ++ entry :: after := by
  rcases List.append_eq_append_iff.mp split with ⟨front, rfl, equal⟩ | ⟨rest, rfl, equal⟩
  · exact .inr ⟨front, rfl, equal⟩
  · cases rest with
    | nil => exact .inr ⟨[], by simp, equal.symm⟩
    | cons head rest =>
        obtain ⟨rfl, rfl⟩ := List.cons.inj equal
        exact .inl ⟨rest, rfl⟩

theorem Prompted.quiet {start : Parser} {trace more : Trace} (prompted : Prompted start trace)
    (quiet : ∀ call ∈ calls more, call.isWrite = false) : Prompted start (trace ++ more) := by
  intro before bytes reply after split
  rcases write_split split with ⟨rest, equal⟩ | ⟨front, rfl, rfl⟩
  · exact prompted before bytes reply rest equal
  · have writes := quiet (.write bytes) (by simp [calls])
    cases writes

theorem polls_isWrite {trace : Trace} (polls : calls trace ⊆ pollCalls ++ [.receiveRx true]) :
    ∀ call ∈ calls trace, call.isWrite = false := by
  intro call member
  have poll := polls member
  simp only [pollCalls, List.cons_append, List.nil_append, List.mem_cons, List.not_mem_nil,
    or_false] at poll
  rcases poll with rfl | rfl | rfl | rfl | rfl <;> rfl

theorem polls_tokens {trace : Trace} (polls : calls trace ⊆ pollCalls ++ [.receiveRx true]) :
    tokens trace = [] ∧ ∀ payload, Paired payload trace := by
  induction trace with
  | nil => exact ⟨rfl, fun _ => .nil⟩
  | cons entry trace ih =>
      obtain ⟨quiet, paired⟩ := ih fun call member => polls (List.mem_cons_of_mem _ member)
      have poll := polls (List.mem_cons_self (a := entry.request))
      obtain ⟨_, request, reply⟩ := entry
      simp only [pollCalls, List.cons_append, List.nil_append, List.mem_cons, List.not_mem_nil,
        or_false] at poll
      rcases poll with rfl | rfl | rfl | rfl | rfl <;>
        exact ⟨quiet, fun payload => .other (by simp) (by simp) (paired payload)⟩

theorem Tracks.quiet {request : Request} {trace more : Trace} {transaction : Transaction}
    (tracks : Tracks request trace transaction) (quiet : tokens more = [])
    (paired : Paired request.promptPayload more) : Tracks request (trace ++ more) transaction where
  same := tracks.same
  paired := tracks.paired.append paired
  routed running := by
    rw [tokens_append, quiet, List.append_nil]
    exact tracks.routed running
  sent payload := List.mem_append_left _ (tracks.sent payload)
  confirmed complete ok := (tracks.confirmed complete ok).append _

/-- Calls that poll leave an attempt as it is. -/
theorem Attempt.Tracks.poll {request : Request} {start : Parser} {trace polls : Trace}
    {attempt : Attempt} (tracks : attempt.Tracks request start trace)
    (poll : calls polls ⊆ pollCalls ++ [.receiveRx true]) (empty : polls.flatMap received = []) :
    attempt.Tracks request start (trace ++ polls) := by
  obtain ⟨quiet, paired⟩ := polls_tokens poll
  refine ⟨tracks.tracks.quiet quiet (paired _), ?_, tracks.prompted.quiet (polls_isWrite poll)⟩
  rw [List.flatMap_append, empty, List.append_nil, tokens_append, quiet, List.append_nil]
  exact tracks.scanned

/-- The write that a chunk brings. -/
theorem prompted_feed {request : Request} {start : Parser} {trace fed : Trace}
    {transaction : Transaction} (unskipped : start.skipPromptSpace = false)
    (tracks : Tracks request (trace ++ fed) transaction)
    (scanned : (start.scan (trace.flatMap received)).2 = tokens (trace ++ fed))
    (silent : fed.flatMap received = []) (prompted : Prompted start trace) :
    Prompted start (trace ++ fed) := by
  intro before bytes reply after split
  rcases write_split split with ⟨rest, equal⟩ | ⟨front, rfl, rfl⟩
  · exact prompted before bytes reply rest equal
  · obtain ⟨-, seen, equal⟩ := tracks.paired.before_write split
    have all : tokens (trace ++ (front ++ ⟨(), .write bytes, reply⟩ :: after)) =
        tokens seen ++ .prompt :: tokens after := by
      rw [split, equal, tokens_append, tokens_append]
      simp [tokens]
    rw [all] at scanned
    obtain ⟨-, first, rest, same, starts, tokens'⟩ := Parser.scan_prompt unskipped scanned
    have none : front.flatMap received = [] := by
      simp only [List.flatMap_append, List.append_eq_nil_iff] at silent
      exact silent.1
    refine ⟨first, rest, ?_, starts, ?_⟩
    · rw [List.flatMap_append, none, List.append_nil, same]
    · rw [equal, tokens_append, tokens']
      rfl

/-- The calls of a pass up to its chunk. -/
theorem polls_heard {polls : Trace} (polled : calls polls = pollCalls) (bytes : List UInt8)
    (fed : Trace) :
    ∃ heard : Trace, polls ++ ⟨(), .receiveRx true, some (.data bytes)⟩ :: fed = heard ++ fed ∧
      calls heard ⊆ pollCalls ++ [.receiveRx true] ∧ heard.flatMap received = bytes := by
  have none : polls.flatMap received = [] := by
    apply received_of_calls
    simp [polled, pollCalls]
  refine ⟨polls ++ [⟨(), .receiveRx true, some (.data bytes)⟩], by simp, ?_, ?_⟩
  · simp [calls, polled]
  · rw [List.flatMap_append, none]
    simp [received]

theorem Attempt.Tracks.pass {request : Request} {start : Parser} {trace more : Trace}
    {attempt after : Attempt} (waits : request.waitForPrompt = true)
    (unskipped : start.skipPromptSpace = false) (tracks : attempt.Tracks request start trace)
    (ran : attempt.pass.Can more (.inr after)) : after.Tracks request start (trace ++ more) := by
  rcases Attempt.pass_can ran with ⟨-, -, same⟩ | ⟨-, poll, empty, same | ⟨_, -, same⟩⟩ |
    ⟨-, polls, bytes, fed, final, polled, rfl, now, same⟩
  · cases same
  · cases same
    exact tracks.poll poll empty
  · cases same
  · cases same
    obtain ⟨ran, silent⟩ := Attempt.feed_can now
    obtain ⟨heard, equal, poll, arrived⟩ := polls_heard polled bytes fed
    obtain ⟨quiet, paired⟩ := polls_tokens poll
    rw [equal, ← List.append_assoc]
    obtain ⟨running, same, tracked, seen⟩ :=
      (tracks.tracks.quiet quiet (paired _)).feed waits ran
    obtain ⟨parser, transaction⟩ := Prod.mk.inj same
    cases transaction
    have scanned : start.scan ((trace ++ heard).flatMap received) =
        (after.parser, tokens (trace ++ heard ++ fed)) := by
      calc start.scan ((trace ++ heard).flatMap received)
          = start.scan (trace.flatMap received ++ bytes) := by
            rw [List.flatMap_append, arrived]
        _ = ((attempt.parser.scan bytes).1, tokens trace ++ (attempt.parser.scan bytes).2) := by
            rw [Parser.scan_append, tracks.scanned]
        _ = (after.parser, tokens (trace ++ heard ++ fed)) := by
            rw [tokens_append, tokens_append, quiet, seen, parser, List.append_nil]
    refine ⟨tracked, ?_, ?_⟩
    · rw [List.flatMap_append, silent, List.append_nil]
      exact scanned
    · exact prompted_feed unskipped tracked (congrArg Prod.snd scanned) silent
        (tracks.prompted.quiet (polls_isWrite poll))

/-- A prompt follows, in the bytes that an attempt has taken from the queue, the
token that completed it. -/
def PromptAfterEnd (request : Request) (parser : Parser) (bytes : List UInt8) : Prop :=
  ∃ earlier later, ((parser.setPromptEnabled true).scan bytes).2 = earlier ++ .prompt :: later ∧
    Completed request earlier

/-- The writes of an attempt, by the calls of its loop: the payload at most once, only
after a prompt at the start of a line, only while nothing has completed the attempt,
and `OK` only for an answer to the payload. -/
structure PromptAtomic (request : Request) (parser : Parser) (trace : Trace) (result : AtResult) :
    Prop where
  once : (calls trace).countP AtCall.isWrite ≤ 1
  prompted : ∀ before bytes reply after, trace = before ++ ⟨(), .write bytes, reply⟩ :: after →
    bytes = request.promptPayload ∧
      ∃ front rest, before.flatMap received = front ++ promptSign :: rest ∧
        AtLineStart parser front ∧
        tokens before = ((parser.setPromptEnabled true).scan front).2 ++ [.prompt]
  uncompleted : ∀ before bytes reply after, trace = before ++ ⟨(), .write bytes, reply⟩ :: after →
    ¬ Completed request (tokens before)
  confirmed : result = .ok → OkAfterPayload request trace

/-- `execute_attempt`: the calls up to the command, those of its loop, and its
result. -/
inductive ExecutesAttempt (request : Request) (response : Response) (parser : Parser) :
    Trace → Trace → AtResult → Prop where
  | refused {sent : Trace} {result : AtResult}
      (began : (beginAttempt request response parser).Can sent (.error result)) :
      ExecutesAttempt request response parser sent [] result
  | answered {sent trace : Trace} {attempt : Attempt} {result : AtResult}
      (began : (beginAttempt request response parser).Can sent (.ok attempt))
      (loops : Prog.Loops Attempt.pass attempt trace result) :
      ExecutesAttempt request response parser sent trace result


/-- What a finished attempt leaves of its invariant. -/
structure Tracked (request : Request) (start : Parser) (trace : Trace) (result : AtResult) : Prop where
  paired : Paired request.promptPayload trace
  scanned : (start.scan (trace.flatMap received)).2 = tokens trace
  prompted : Prompted start trace
  confirmed : result = .ok → OkAfterPayload request trace

theorem Attempt.Tracks.loops {request : Request} {start : Parser} {trace more : Trace}
    {attempt : Attempt} {result : AtResult} (waits : request.waitForPrompt = true)
    (unskipped : start.skipPromptSpace = false) (tracks : attempt.Tracks request start trace)
    (loops : Prog.Loops Attempt.pass attempt more result) :
    Tracked request start (trace ++ more) result := by
  induction loops generalizing trace with
  | finished last =>
      rcases Attempt.pass_can last with ⟨done, rfl, same⟩ | ⟨-, poll, empty, same | ⟨failed, bad, same⟩⟩ |
        ⟨-, _, _, _, _, _, _, _, same⟩
      · cases same
        rw [List.append_nil]
        exact ⟨tracks.tracks.paired, congrArg Prod.snd tracks.scanned, tracks.prompted,
          tracks.tracks.confirmed done⟩
      · cases same
      · cases same
        have polled := tracks.poll poll empty
        exact ⟨polled.tracks.paired, congrArg Prod.snd polled.scanned, polled.prompted,
          fun ok => absurd ok bad⟩
      · cases same
  | again passed _ ih =>
      rw [← List.append_assoc]
      exact ih (tracks.pass waits unskipped passed)

theorem ExecutesAttempt.tracked {request : Request} {response : Response} {parser : Parser}
    {sent trace : Trace} {result : AtResult} (waits : request.waitForPrompt = true)
    (unskipped : parser.skipPromptSpace = false)
    (ran : ExecutesAttempt request response parser sent trace result) :
    Tracked request (parser.setPromptEnabled true) trace result := by
  have unskipped : (parser.setPromptEnabled true).skipPromptSpace = false := by
    simp [Parser.setPromptEnabled, unskipped]
  cases ran with
  | refused began =>
      rcases beginAttempt_can began with ⟨_, same, bad⟩ | ⟨_, same, -⟩
      · cases same
        exact ⟨.nil, rfl, prompted_nil, fun ok => absurd ok bad⟩
      · cases same
  | answered began loops =>
      obtain ⟨same, fresh⟩ := beginAttempt_started began
      rw [waits] at same
      have tracks : Attempt.Tracks request (parser.setPromptEnabled true) [] _ := {
        tracks := {
          same := by rw [fresh]
          paired := .nil
          routed := by
            intro _
            rw [fresh]
            rfl
          sent := by
            intro payload
            rw [fresh] at payload
            cases payload
          confirmed := by
            intro complete
            rw [fresh] at complete
            cases complete }
        scanned := by rw [same]; rfl
        prompted := prompted_nil }
      simpa using tracks.loops waits unskipped loops

/-- The states of the worker task. -/
inductive Worker.Reached : Worker → Prop where
  | start : Worker.Reached (.idle .init)
  | pass {w w' : Worker} {trace : Trace} (before : Worker.Reached w) (ran : w.pass.Can trace w') :
      Worker.Reached w'

/-- Between attempts no prompt is awaited and none was just seen. -/
def Parser.Rested (parser : Parser) : Prop :=
  parser.skipPromptSpace = false ∧ parser.promptEnabled = false

def Worker.Rested : Worker → Prop
  | .idle parser | .draining _ _ _ parser => parser.Rested
  | .attempting _ _ => True

theorem Parser.Rested.octet {parser : Parser} {ch : UInt8} {s : Session} {trace : Trace}
    (rested : parser.Rested)
    (ran : (Parser.octet processToken (parser, none) ch).Can trace s) :
    s.1.Rested ∧ s.2 = none := by
  simp only [Parser.octet] at ran
  rcases accepted : parser.accept ch with ⟨next, found⟩
  obtain ⟨free, enabled, outcome⟩ := Parser.accept_cases rested.1 accepted
  have kept : next.Rested := ⟨free, enabled.trans rested.2⟩
  rw [accepted] at ran
  rcases outcome with ⟨rfl, -⟩ | ⟨token, rfl, other, -⟩ | ⟨-, prompt, -⟩
  · cases ran
    exact ⟨kept, rfl⟩
  · obtain ⟨first, last, ⟨after, transaction⟩, rfl, handled, ended⟩ := Prog.Can.of_bind ran
    cases ended
    cases handled with
    | call _ handled =>
        cases token with
        | prompt => exact absurd rfl other
        | lineOverflow =>
            cases handled
            exact ⟨kept, rfl⟩
        | line bytes =>
            have queued : (queueUrc (CStr.ofBytes bytes) >>= fun _ => pure (next, none)).Can _
                (after, transaction) := handled
            obtain ⟨_, _, _, rfl, _, ended⟩ := Prog.Can.of_bind queued
            cases ended
            exact ⟨kept, rfl⟩
  · exact absurd (prompt.symm.trans rested.2) (by simp)

theorem Parser.Rested.feed {parser : Parser} {bytes : List UInt8} {s : Session} {trace : Trace}
    (rested : parser.Rested)
    (ran : (Parser.feed processToken bytes (parser, none)).Can trace s) : s.1.Rested := by
  induction bytes generalizing parser trace with
  | nil =>
      cases ran
      exact rested
  | cons ch rest ih =>
      rw [Parser.feed_cons] at ran
      obtain ⟨first, last, ⟨after, transaction⟩, rfl, now, later⟩ := Prog.Can.of_bind ran
      obtain ⟨kept, none⟩ := rested.octet now
      cases none
      exact ih kept later

theorem concludeAttempt_rested {request : Request} {number : UInt8} {response : Response}
    {parser : Parser} {result : AtResult} {w : Worker} {trace : Trace}
    (ran : (concludeAttempt request number response parser result).Can trace w) : w.Rested := by
  unfold concludeAttempt at ran
  simp only at ran
  split at ran
  · cases ran with
    | call _ ended =>
        cases ended
        change (if result = .ok then parser.setPromptEnabled false else Parser.init).Rested
        split
        · simp [Parser.Rested, Parser.setPromptEnabled]
        · exact ⟨rfl, rfl⟩
  · cases ran
    exact ⟨rfl, rfl⟩

theorem Worker.Rested.pass {w w' : Worker} {trace : Trace} (rested : w.Rested)
    (ran : w.pass.Can trace w') : w'.Rested := by
  have init : Parser.init.Rested := ⟨rfl, rfl⟩
  cases w with
  | idle parser =>
      unfold Worker.pass at ran
      cases ran with
      | @call _ _ request _ _ _ _ _ _ ran =>
      cases request with
      | some request =>
          cases ran
          exact rested
      | none =>
          cases ran with
          | @call _ _ event _ _ _ _ _ _ ran =>
          rcases event with _ | bytes | _ | _
          · cases ran
            exact rested
          · change (if bytes.isEmpty then _ else _ : AtM Worker).Can _ w' at ran
            split at ran
            · cases ran
              exact init
            · obtain ⟨first, last, after, rfl, fed, ended⟩ := Prog.Can.of_bind ran
              cases ended
              exact Parser.Rested.feed rested (feedIdle_can fed).1
          · cases ran
            exact init
          · cases ran
            exact init
  | draining request number again parser =>
      unfold Worker.pass at ran
      cases ran with
      | @call _ _ event _ _ _ _ _ _ ran =>
      rcases event with _ | bytes | _ | _
      · change (if again then _ else _ : AtM Worker).Can _ w' at ran
        split at ran
        · cases ran
          exact rested
        · obtain ⟨first, last, outcome, rfl, began, later⟩ := Prog.Can.of_bind ran
          cases outcome with
          | error result => exact concludeAttempt_rested later
          | ok attempt =>
              cases later
              trivial
      · have drained : (feedIdle parser bytes >>= fun after =>
            pure (.draining request number again after)).Can _ w' := ran
        obtain ⟨first, last, after, rfl, fed, ended⟩ := Prog.Can.of_bind drained
        cases ended
        exact Parser.Rested.feed rested (feedIdle_can fed).1
      · cases ran
        exact init
      · cases ran
        exact init
  | attempting number attempt =>
      obtain ⟨first, last, outcome, rfl, passed, ended⟩ := Prog.Can.of_bind ran
      cases outcome with
      | inl result => exact concludeAttempt_rested ended
      | inr after =>
          cases ended
          trivial

theorem Worker.Reached.rested {w : Worker} (reached : w.Reached) : w.Rested := by
  induction reached with
  | start => exact ⟨rfl, rfl⟩
  | pass _ ran ih => exact ih.pass ran

theorem tokens_split {trace : Trace} {earlier later : List Token} {token : Token}
    (found : tokens trace = earlier ++ token :: later) :
    ∃ before after, trace = before ++ ⟨(), .token token, ()⟩ :: after ∧ tokens before = earlier := by
  obtain ⟨first, last, rfl, seen, rest⟩ := List.filterMap_eq_append_iff.mp found
  obtain ⟨silent, entry, after, rfl, none, here, -⟩ := List.filterMap_eq_cons_iff.mp rest
  have same : entry = ⟨(), .token token, ()⟩ := by
    obtain ⟨_, request, reply⟩ := entry
    cases request with
    | token other =>
        cases here
        rfl
    | _ => cases here
  subst same
  refine ⟨first ++ silent, after, by simp, ?_⟩
  rw [tokens_append]
  have quiet : tokens silent = [] := List.filterMap_eq_nil_iff.mpr none
  rw [quiet, List.append_nil]
  exact seen

theorem completed_prompt (request : Request) (seen : List Token) :
    Completed request (seen ++ [.prompt]) ↔ Completed request seen := by
  rw [Completed, Completed, progress_concat]
  simp [completes]

theorem prompt_count_le_one {parser : Parser} (unskipped : parser.skipPromptSpace = false)
    (bytes : List UInt8) : (parser.scan bytes).2.count .prompt ≤ 1 := by
  by_cases member : Token.prompt ∈ (parser.scan bytes).2
  · obtain ⟨earlier, later, found⟩ := List.append_of_mem member
    obtain ⟨others, -⟩ := Parser.scan_prompt unskipped found
    rw [List.mem_append, not_or] at others
    rw [found, List.count_append, List.count_cons_self, List.count_eq_zero_of_not_mem others.1,
      List.count_eq_zero_of_not_mem others.2]
  · rw [List.count_eq_zero_of_not_mem member]
    exact Nat.zero_le _

/-- In every attempt of the worker that waits for a prompt, the payload is handled
atomically exactly when no prompt follows, in a chunk that the attempt has taken, the
final result or line overflow that completed it. -/
theorem prompt_atomic_iff {request : Request} {number : UInt8} {response : Response}
    {parser : Parser} {sent trace : Trace} {result : AtResult}
    (waits : request.waitForPrompt = true)
    (reached : Worker.Reached (.draining request number false parser))
    (ran : ExecutesAttempt request response parser sent trace result) :
    PromptAtomic request parser trace result ↔
      ¬ PromptAfterEnd request parser (trace.flatMap received) := by
  have unskipped := reached.rested.1
  have enabled : (parser.setPromptEnabled true).skipPromptSpace = false := by
    simp [Parser.setPromptEnabled, unskipped]
  have tracked := ran.tracked waits unskipped
  constructor
  · rintro atomic ⟨earlier, later, found, completed⟩
    rw [tracked.scanned] at found
    obtain ⟨before, after, split, seen⟩ := tokens_split found
    obtain ⟨reply, rest, rfl⟩ := tracked.paired.after_prompt split
    have shifted : trace = (before ++ [⟨(), .token .prompt, ()⟩]) ++
        ⟨(), .write request.promptPayload, reply⟩ :: rest := by
      simpa using split
    apply atomic.uncompleted _ _ _ _ shifted
    rw [tokens_append, seen]
    exact (completed_prompt request earlier).mpr completed
  · intro orderly
    refine ⟨?_, ?_, ?_, tracked.confirmed⟩
    · rw [tracked.paired.count, ← tracked.scanned]
      exact prompt_count_le_one enabled _
    · intro before bytes reply after split
      exact ⟨(tracked.paired.before_write split).1, tracked.prompted before bytes reply after split⟩
    · intro before bytes reply after split completed
      obtain ⟨-, front, rfl⟩ := tracked.paired.before_write split
      rw [tokens_append] at completed
      refine orderly ⟨tokens front, tokens after, ?_, (completed_prompt request _).mp completed⟩
      rw [tracked.scanned, split, tokens_append, tokens_append]
      simp [tokens]

/-- `AT+CMGS` with a payload of one digit and Ctrl-Z. -/
def cmgsRequest : Request :=
  ⟨.text "AT+CMGS=1", [.text "+CMGS:"], 0, 0, 0, 0, true, [0x30, 0x1A]⟩

/-- Surroundings in which the modem sends one chunk and every write succeeds. -/
def answering (chunk : List UInt8) : (request : AtCall) → Unit → request.Reply × Unit
  | .token _, _ | .complete _, _ => ((), ())
  | .queueUrc _, _ | .isReady, _ => (true, ())
  | .write _, _ => (.ok (), ())
  | .overflowEpoch, _ | .transportLostEpoch, _ | .cancelEpoch, _ => (0, ())
  | .time, _ => (0, ())
  | .receiveRx _, _ => (some (.data chunk), ())
  | .receiveRequest, _ => (some cmgsRequest, ())

/-- The attempt once the command is written. -/
def cmgsAttempt : Attempt :=
  ⟨0, 0, 0, 3000000, Parser.init.setPromptEnabled true,
    ⟨cmgsRequest, .reset, false, false, .init⟩⟩

def cmgsTrace (chunk : List UInt8) : Trace :=
  Prog.trace (answering chunk) cmgsAttempt.pass ()

/-- An attempt of a request in such surroundings, once its command is written. -/
def started (request : Request) (response : Response) : Attempt :=
  ⟨0, 0, 0, 0 + request.timeoutUs, Parser.init.setPromptEnabled request.waitForPrompt,
    ⟨request, response, false, false, .init⟩⟩

/-- The result of an attempt that a pass completed. -/
def completedResult : AtResult ⊕ Attempt → Option AtResult
  | .inl _ => none
  | .inr attempt =>
      if attempt.transaction.done then some attempt.transaction.response.result else none

/-- An attempt that its first chunk completes. -/
theorem started_executes (request : Request) (response : Response) (chunk : List UInt8)
    {result : AtResult} (completes : completedResult
      (Prog.run (answering chunk) (started request response).pass ()).1 = some result) :
    ∃ sent, ExecutesAttempt request response .init sent
      (Prog.trace (answering chunk) (started request response).pass ()) result := by
  have began : (beginAttempt request response .init).Can _ (.ok (started request response)) :=
    Prog.runs_of_run (answering chunk) (fun _ _ => trivial) _ ()
  have fed : (started request response).pass.Can _ _ :=
    Prog.runs_of_run (answering chunk) (fun _ _ => trivial) _ ()
  generalize (Prog.run (answering chunk) (started request response).pass ()).1 = passed
    at completes fed
  cases passed with
  | inl result => cases completes
  | inr attempt =>
      simp only [completedResult] at completes
      split at completes
      · rename_i done
        cases completes
        have ended : attempt.pass.Can [] (.inl attempt.transaction.response.result) := by
          unfold Attempt.pass
          rw [if_pos done]
          exact .done
        refine ⟨_, .answered began ?_⟩
        rw [← List.append_nil (Prog.trace _ _ _)]
        exact .again fed (.finished ended)
      · cases completes

theorem Worker.reached_draining (request : Request) :
    Worker.Reached (.draining request 1 false .init) := by
  have taken : (Worker.pass (.idle .init)).Can [⟨(), .receiveRequest, some request⟩]
      (.draining request 1 false .init) := .call trivial .done
  exact .pass .start taken

theorem cmgsAttempt_executes (chunk : List UInt8) {result : AtResult}
    (completes :
      completedResult (Prog.run (answering chunk) cmgsAttempt.pass ()).1 = some result) :
    ∃ sent, ExecutesAttempt cmgsRequest .reset .init sent (cmgsTrace chunk) result :=
  started_executes cmgsRequest .reset chunk completes

theorem cmgsRequest_reached : Worker.Reached (.draining cmgsRequest 1 false .init) :=
  Worker.reached_draining cmgsRequest

/-- `>`, then `OK`. -/
def promptThenOk : List UInt8 := [0x3E, 0x20, 0x4F, 0x4B, 0x0D]

/-- `ERROR`, then `>`. -/
def errorThenPrompt : List UInt8 := [0x45, 0x52, 0x52, 0x4F, 0x52, 0x0D, 0x3E]

/-- The usual exchange is atomic. -/
theorem prompt_atomic_iff_usual :
    ∃ sent, ExecutesAttempt cmgsRequest .reset .init sent (cmgsTrace promptThenOk) .ok ∧
      PromptAtomic cmgsRequest .init (cmgsTrace promptThenOk) .ok := by
  obtain ⟨sent, ran⟩ := @cmgsAttempt_executes promptThenOk .ok (by decide +kernel)
  refine ⟨sent, ran, (prompt_atomic_iff rfl cmgsRequest_reached ran).mpr ?_⟩
  rintro ⟨earlier, later, found, completed⟩
  have seen : ((Parser.init.setPromptEnabled true).scan
      ((cmgsTrace promptThenOk).flatMap received)).2 = [.prompt, .line [0x4F, 0x4B]] := by
    decide +kernel
  rw [seen] at found
  cases earlier with
  | nil => cases completed
  | cons first earlier => simp [List.cons_eq_append_iff] at found

/-- A prompt in the chunk of an `ERROR` still sends the payload. -/
theorem payload_written_after_error :
    ∃ sent, ExecutesAttempt cmgsRequest .reset .init sent (cmgsTrace errorThenPrompt) .error ∧
      ¬ PromptAtomic cmgsRequest .init (cmgsTrace errorThenPrompt) .error := by
  obtain ⟨sent, ran⟩ := @cmgsAttempt_executes errorThenPrompt .error (by decide +kernel)
  refine ⟨sent, ran, ?_⟩
  intro atomic
  have split : cmgsTrace errorThenPrompt =
      [⟨(), .overflowEpoch, 0⟩, ⟨(), .transportLostEpoch, 0⟩, ⟨(), .cancelEpoch, 0⟩,
        ⟨(), .time, 0⟩, ⟨(), .receiveRx true, some (.data errorThenPrompt)⟩,
        ⟨(), .token (.line [0x45, 0x52, 0x52, 0x4F, 0x52]), ()⟩, ⟨(), .token .prompt, ()⟩] ++
      ⟨(), .write [0x30, 0x1A], .ok ()⟩ :: [] := rfl
  apply atomic.uncompleted _ _ _ _ split
  decide +kernel

end SmsGateway.At
