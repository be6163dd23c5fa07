import SmsGateway.At.Prompt
import SmsGateway.Lib.Prefix

/-! The execution of one request: how often its command is sent, and why again. -/

namespace SmsGateway.At

open Lib

/-! ## What is written -/

/-- The bytes that the calls of a trace hand to the transport, and whether it took them. -/
def written (trace : Trace) : List (List UInt8 × Except EspErr Unit) :=
  trace.filterMap fun entry =>
    match entry with
    | ⟨_, .write bytes, reply⟩ => some (bytes, reply)
    | _ => none

theorem written_append (first last : Trace) :
    written (first ++ last) = written first ++ written last :=
  List.filterMap_append

/-- Neither a write nor the end of a request. -/
def AtCall.isPlain : AtCall → Bool
  | .write _ | .complete _ => false
  | _ => true

theorem written_plain {trace : Trace} (plain : ∀ entry ∈ trace, entry.request.isPlain = true) :
    written trace = [] := by
  apply List.filterMap_eq_nil_iff.mpr
  rintro ⟨_, request, reply⟩ member
  cases request with
  | write bytes => cases plain _ member
  | _ => rfl

/-- No request ends in the trace. -/
def Unfinished (trace : Trace) : Prop :=
  ∀ entry ∈ trace, ∀ response, entry.request ≠ .complete response

theorem unfinished_plain {trace : Trace} (plain : ∀ entry ∈ trace, entry.request.isPlain = true) :
    Unfinished trace := by
  rintro ⟨_, _, _⟩ member response rfl
  cases plain _ member

theorem unfinished_nil : Unfinished [] := by
  intro entry member
  cases member

theorem Unfinished.append {first last : Trace} (one : Unfinished first) (other : Unfinished last) :
    Unfinished (first ++ last) := by
  intro entry member
  rcases List.mem_append.mp member with early | late
  · exact one entry early
  · exact other entry late

/-- Nothing is written for a prompt. -/
def Mute (session : Session) : Prop :=
  ∀ transaction, session.2 = some transaction → transaction.request.waitForPrompt = false

theorem queueUrc_plain {line : CStr} {trace : Trace} {value : Unit}
    (ran : (queueUrc line).Can trace value) : ∀ entry ∈ trace, entry.request.isPlain = true := by
  unfold queueUrc at ran
  split at ran
  · cases ran
    nofun
  · cases ran with
    | call _ ran =>
        cases ran
        intro entry member
        rw [List.mem_singleton.mp member]
        rfl

theorem handleToken_writes {token : Token} {s t : Session} {trace : Trace}
    (ran : (handleToken token s).Can trace t) :
    Unfinished trace ∧ (Mute s → Mute t ∧ written trace = []) := by
  obtain ⟨parser, transaction⟩ := s
  have queued : ∀ {line : CStr} {result : Session},
      (queueUrc line >>= fun _ => pure result).Can trace t →
      (Mute (parser, transaction) → Mute result) →
      Unfinished trace ∧ (Mute (parser, transaction) → Mute t ∧ written trace = []) := by
    intro line result ran mute
    obtain ⟨first, last, _, rfl, now, ended⟩ := Prog.Can.of_bind ran
    cases ended
    rw [List.append_nil]
    have plain := queueUrc_plain now
    exact ⟨unfinished_plain plain, fun silent => ⟨mute silent, written_plain plain⟩⟩
  cases token with
  | lineOverflow =>
      cases ran
      refine ⟨unfinished_nil, fun silent => ⟨?_, rfl⟩⟩
      rintro after same
      obtain ⟨before, here, rfl⟩ := Option.map_eq_some_iff.mp same
      exact silent before here
  | prompt =>
      cases transaction with
      | none => exact queued ran id
      | some transaction =>
          simp only [handleToken] at ran
          split at ran
          · rename_i waits
            obtain ⟨sent, -, -, writes⟩ := sendPayload_can ran
            obtain ⟨⟨_, _, _⟩, rfl, rfl⟩ := List.map_eq_singleton_iff.mp writes
            refine ⟨?_, fun silent => absurd (silent transaction rfl) (by simp [waits])⟩
            intro entry member response
            rw [List.mem_singleton.mp member]
            intro same
            cases same
          · exact queued ran id
  | line bytes =>
      have kept : Mute (parser, transaction) →
          Mute (parser, (handleLine (CStr.ofBytes bytes) transaction).2) := by
        intro silent after same
        cases transaction with
        | none => cases same
        | some transaction =>
            obtain ⟨next, here, request, -⟩ := handleLine_kept (CStr.ofBytes bytes) transaction
            rw [here] at same
            cases same
            rw [request]
            exact silent transaction rfl
      simp only [handleToken] at ran
      rcases handled : handleLine (CStr.ofBytes bytes) transaction with ⟨handling, after⟩
      rw [handled] at ran kept
      cases handling with
      | queued => exact queued ran kept
      | echo | completed | captured =>
          cases ran
          exact ⟨unfinished_nil, fun silent => ⟨kept silent, rfl⟩⟩

theorem feed_writes {bytes : List UInt8} {s t : Session} {trace : Trace}
    (ran : (Parser.feed processToken bytes s).Can trace t) :
    Unfinished trace ∧ (Mute s → Mute t ∧ written trace = []) := by
  induction bytes generalizing s trace with
  | nil =>
      cases ran
      exact ⟨unfinished_nil, fun silent => ⟨silent, rfl⟩⟩
  | cons ch bytes ih =>
      rw [Parser.feed_cons] at ran
      obtain ⟨first, last, between, rfl, now, later⟩ := Prog.Can.of_bind ran
      obtain ⟨open', quiet⟩ := ih later
      have byte : Unfinished first ∧ (Mute s → Mute between ∧ written first = []) := by
        unfold Parser.octet at now
        split at now
        · cases now
          exact ⟨unfinished_nil, fun silent => ⟨silent, rfl⟩⟩
        · obtain ⟨calls, none, after, rfl, handled, ended⟩ := Prog.Can.of_bind now
          cases ended
          cases handled with
          | call _ handled =>
              obtain ⟨unfinished, mute⟩ := handleToken_writes handled
              rw [List.append_nil]
              constructor
              · intro entry member response
                rcases List.mem_cons.mp member with rfl | inside
                · intro same
                  cases same
                · exact unfinished entry inside response
              · intro silent
                obtain ⟨after, none⟩ := mute silent
                exact ⟨after, none⟩
      refine ⟨byte.1.append open', fun silent => ?_⟩
      obtain ⟨between, none⟩ := byte.2 silent
      obtain ⟨after, rest⟩ := quiet between
      exact ⟨after, by rw [written_append, none, rest]; rfl⟩

/-- What a transaction keeps until its attempt is over. -/
def Transaction.origin (transaction : Transaction) : Request × UInt8 :=
  (transaction.request, transaction.response.attempts)

theorem handleLine_origin (line : CStr) (transaction : Transaction) :
    (handleLine line (some transaction)).2.map Transaction.origin = some transaction.origin := by
  unfold handleLine
  by_cases done : transaction.done = true
  · simp [done]
  by_cases echo : line = transaction.request.command
  · simp [done, echo]
  simp only [done, echo, if_false, Bool.false_eq_true]
  split
  · rfl
  · split
    · unfold Transaction.complete
      simp only
      split <;> rfl
    · unfold Response.captureLine
      split <;> rfl

theorem handleToken_origin {token : Token} {s t : Session} {trace : Trace}
    (ran : (handleToken token s).Can trace t) :
    t.2.map Transaction.origin = s.2.map Transaction.origin := by
  obtain ⟨parser, transaction⟩ := s
  have queued : ∀ {line : CStr} {result : Session},
      (queueUrc line >>= fun _ => pure result).Can trace t → t = result := by
    intro line result ran
    obtain ⟨first, last, _, rfl, now, ended⟩ := Prog.Can.of_bind ran
    cases ended
    rfl
  cases token with
  | lineOverflow =>
      cases ran
      cases transaction <;> rfl
  | prompt =>
      cases transaction with
      | none => rw [queued ran]
      | some transaction =>
          simp only [handleToken] at ran
          split at ran
          · unfold sendPayload at ran
            cases ran with
            | @call _ _ reply _ _ _ _ _ _ ended => cases reply <;> cases ended <;> rfl
          · rw [queued ran]
  | line bytes =>
      have kept : (handleLine (CStr.ofBytes bytes) transaction).2.map Transaction.origin =
          transaction.map Transaction.origin := by
        cases transaction with
        | none => rfl
        | some transaction => exact handleLine_origin (CStr.ofBytes bytes) transaction
      simp only [handleToken] at ran
      rcases handled : handleLine (CStr.ofBytes bytes) transaction with ⟨handling, after⟩
      rw [handled] at ran kept
      cases handling with
      | queued =>
          rw [queued ran]
          exact kept
      | echo | completed | captured =>
          cases ran
          exact kept

theorem feed_origin {bytes : List UInt8} {s t : Session} {trace : Trace}
    (ran : (Parser.feed processToken bytes s).Can trace t) :
    t.2.map Transaction.origin = s.2.map Transaction.origin := by
  induction bytes generalizing s trace with
  | nil =>
      cases ran
      rfl
  | cons ch bytes ih =>
      rw [Parser.feed_cons] at ran
      obtain ⟨first, last, between, rfl, now, later⟩ := Prog.Can.of_bind ran
      rw [ih later]
      unfold Parser.octet at now
      split at now
      · cases now
        rfl
      · obtain ⟨calls, none, after, rfl, handled, ended⟩ := Prog.Can.of_bind now
        cases ended
        cases handled with
        | call _ handled =>
            have same := handleToken_origin handled
            exact same

theorem feedIdle_writes {parser after : Parser} {bytes : List UInt8} {trace : Trace}
    (ran : (feedIdle parser bytes).Can trace after) : Unfinished trace ∧ written trace = [] := by
  obtain ⟨unfinished, quiet⟩ := feed_writes (feedIdle_can ran).1
  exact ⟨unfinished, (quiet (by simp [Mute])).2⟩

/-! ## One attempt -/

/-- An attempt of a request: the calls before it that route stale input, those up to its
command, those of its loop, and its result. -/
structure Round where
  drained : Trace
  sent : Trace
  looped : Trace
  result : AtResult

def Round.calls (round : Round) : Trace := round.drained ++ (round.sent ++ round.looped)

def Request.commandLine (request : Request) : List UInt8 := request.command.bytes ++ [carriageReturn]

/-- What the calls of an attempt write: nothing while it drains, its command at most once, then
the payload at most once, to a prompt and behind a command that the transport took. After `OK` it
took all of it. -/
structure Wrote (request : Request) (round : Round) : Prop where
  drained : written round.drained = []
  command : written round.sent = [] ∨ ∃ reply, written round.sent = [(request.commandLine, reply)]
  payload : written round.looped = [] ∨
    request.waitForPrompt = true ∧ written round.sent = [(request.commandLine, .ok ())] ∧
      ∃ reply, written round.looped = [(request.promptPayload, reply)]
  ok : round.result = .ok → written round.sent = [(request.commandLine, .ok ())] ∧
    (request.waitForPrompt = true → written round.looped = [(request.promptPayload, .ok ())])

/-- The round is the run of `execute_attempt` with this number. -/
structure Round.Sound (request : Request) (number : Nat) (round : Round) : Prop where
  attempt : ∃ response parser, response.attempts.toNat = number ∧
    ExecutesAttempt request response parser round.sent round.looped round.result
  wrote : Wrote request round

theorem beginAttempt_writes {request : Request} {response : Response} {parser : Parser}
    {outcome : Except AtResult Attempt} {sent : Trace}
    (ran : (beginAttempt request response parser).Can sent outcome) :
    Unfinished sent ∧
      (written sent = [] ∨ ∃ reply, written sent = [(request.commandLine, reply)]) ∧
      (outcome.isOk = true → written sent = [(request.commandLine, .ok ())]) := by
  unfold beginAttempt sendCommand at ran
  cases ran with
  | call _ ran =>
  cases ran with
  | call _ ran =>
  cases ran with
  | call _ ran =>
  cases ran with
  | @call _ _ ready _ _ _ _ _ _ ran =>
  cases ready with
  | false =>
      cases ran
      refine ⟨?_, .inl rfl, nofun⟩
      simp [Unfinished]
  | true =>
      cases ran with
      | @call _ _ reply _ _ _ _ _ _ ran =>
      cases reply with
      | error e =>
          cases ran
          refine ⟨?_, .inr ⟨_, rfl⟩, nofun⟩
          simp [Unfinished]
      | ok value =>
          cases ran with
          | call _ ran =>
          cases ran
          refine ⟨?_, .inr ⟨_, rfl⟩, fun _ => rfl⟩
          simp [Unfinished]

theorem polls_plain {trace : Trace} (polls : calls trace ⊆ pollCalls ++ [.receiveRx true]) :
    ∀ entry ∈ trace, entry.request.isPlain = true := by
  intro entry member
  have call := polls (List.mem_map_of_mem member)
  simp only [pollCalls, List.cons_append, List.nil_append, List.mem_cons, List.not_mem_nil,
    or_false] at call
  rcases call with here | here | here | here | here <;> rw [here] <;> rfl

/-- The transaction of an attempt stays with its request. -/
theorem Attempt.pass_writes {attempt : Attempt} {outcome : AtResult ⊕ Attempt} {trace : Trace}
    (ran : attempt.pass.Can trace outcome) :
    Unfinished trace ∧
      (∀ after, outcome = .inr after → after.transaction.origin = attempt.transaction.origin) ∧
      (attempt.transaction.request.waitForPrompt = false → written trace = []) := by
  rcases Attempt.pass_can ran with ⟨-, rfl, rfl⟩ | ⟨-, polls, -, outcome⟩ |
    ⟨-, polls, bytes, fed, after, polled, rfl, now, rfl⟩
  · refine ⟨unfinished_nil, ?_, fun _ => rfl⟩
    intro after same
    cases same
  · have plain := polls_plain polls
    refine ⟨unfinished_plain plain, ?_, fun _ => written_plain plain⟩
    rcases outcome with rfl | ⟨result, -, rfl⟩
    · rintro after ⟨⟩
      rfl
    · intro after same
      cases same
  · obtain ⟨fed, -⟩ := Attempt.feed_can now
    obtain ⟨unfinished, mute⟩ := feed_writes fed
    have plain : ∀ entry ∈ polls, entry.request.isPlain = true :=
      polls_plain (by rw [polled]; exact List.subset_append_left _ _)
    have received : written [⟨(), .receiveRx true, some (.data bytes)⟩] = [] := rfl
    refine ⟨?_, ?_, ?_⟩
    · refine (unfinished_plain plain).append ?_
      intro entry member response
      rcases List.mem_cons.mp member with rfl | inside
      · nofun
      · exact unfinished entry inside response
    · rintro after ⟨⟩
      exact Option.some.inj (feed_origin fed)
    · intro waits
      have silent : Mute (attempt.parser, some attempt.transaction) := by
        rintro transaction ⟨⟩
        exact waits
      rw [← List.singleton_append, written_append, written_append, written_plain plain, received,
        (mute silent).2]
      rfl

theorem loops_writes {attempt : Attempt} {trace : Trace} {result : AtResult}
    (loops : Prog.Loops Attempt.pass attempt trace result)
    (waits : attempt.transaction.request.waitForPrompt = false) : written trace = [] := by
  induction loops with
  | finished last => exact (Attempt.pass_writes last).2.2 waits
  | again passed _ ih =>
      obtain ⟨-, same, quiet⟩ := Attempt.pass_writes passed
      have request := congrArg Prod.fst (same _ rfl)
      simp only [Transaction.origin] at request
      rw [written_append, quiet waits, ih (by rw [request, waits])]
      rfl

/-- Each write of a prompt transaction is the payload. -/
theorem Paired.written {payload : List UInt8} {trace : Trace} (paired : Paired payload trace) :
    (At.written trace).length = (calls trace).countP AtCall.isWrite ∧
      ∀ entry ∈ At.written trace, entry.1 = payload := by
  induction paired with
  | nil => exact ⟨rfl, nofun⟩
  | @other entry trace _ noWrite _ ih =>
      obtain ⟨_, request, reply⟩ := entry
      cases request with
      | write bytes => exact absurd rfl (noWrite bytes)
      | _ => simpa [At.written, calls, AtCall.isWrite] using ih
  | @prompt reply trace _ ih =>
      have two : At.written (⟨(), .token .prompt, ()⟩ :: ⟨(), .write payload, reply⟩ :: trace) =
          (payload, reply) :: At.written trace := rfl
      have counts : (calls (⟨(), .token .prompt, ()⟩ :: ⟨(), .write payload, reply⟩ :: trace)).countP
          AtCall.isWrite = (calls trace).countP AtCall.isWrite + 1 := by
        rw [calls, List.map_cons, List.map_cons, List.countP_cons_of_neg (by decide),
          List.countP_cons_of_pos rfl]
      rw [two, counts]
      refine ⟨congrArg Nat.succ ih.1, ?_⟩
      intro entry member
      rcases List.mem_cons.mp member with rfl | later
      · rfl
      · exact ih.2 entry later

theorem ok_paid {request : Request} {trace : Trace} (confirmed : OkAfterPayload request trace) :
    (request.promptPayload, .ok ()) ∈ written trace := by
  obtain ⟨before, after, bytes, rfl, sent, -⟩ := confirmed
  rw [written_append]
  apply List.mem_append_left
  exact List.mem_filterMap.mpr ⟨_, sent, rfl⟩

/-- The payload of an attempt is written at most once, and was taken when the attempt is `OK`. -/
theorem ExecutesAttempt.pays {request : Request} {response : Response} {parser : Parser}
    {sent looped : Trace} {result : AtResult} (unskipped : parser.skipPromptSpace = false)
    (ran : ExecutesAttempt request response parser sent looped result)
    (waits : request.waitForPrompt = true) :
    (written looped = [] ∨ ∃ reply, written looped = [(request.promptPayload, reply)]) ∧
      (result = .ok → written looped = [(request.promptPayload, .ok ())]) := by
  have tracked := ran.tracked waits unskipped
  have enabled : (parser.setPromptEnabled true).skipPromptSpace = false := by
    simp [Parser.setPromptEnabled, unskipped]
  have once : (calls looped).countP AtCall.isWrite ≤ 1 := by
    rw [tracked.paired.count, ← tracked.scanned]
    exact prompt_count_le_one enabled _
  obtain ⟨counted, payload⟩ := tracked.paired.written
  rw [← counted] at once
  have cases : written looped = [] ∨ ∃ reply, written looped = [(request.promptPayload, reply)] := by
    cases wrote : written looped with
    | nil => exact .inl rfl
    | cons entry rest =>
        rw [wrote] at once payload
        have none : rest = [] := by
          apply List.length_eq_zero_iff.mp
          exact Nat.le_zero.mp (Nat.le_of_succ_le_succ once)
        have same : entry.1 = request.promptPayload := payload entry List.mem_cons_self
        exact .inr ⟨entry.2, by rw [none, ← same]⟩
  refine ⟨cases, fun ok => ?_⟩
  have paid := ok_paid (tracked.confirmed ok)
  rcases cases with none | ⟨reply, one⟩
  · rw [none] at paid
    cases paid
  · rw [one, List.mem_singleton] at paid
    rw [one, ← paid]

/-- What an attempt wrote, and what its result says of it. -/
theorem ExecutesAttempt.wrote {request : Request} {response : Response} {parser : Parser}
    {drained sent looped : Trace} {result : AtResult} (quiet : written drained = [])
    (unskipped : parser.skipPromptSpace = false)
    (ran : ExecutesAttempt request response parser sent looped result) :
    Wrote request ⟨drained, sent, looped, result⟩ := by
  cases ran with
  | refused began =>
      obtain ⟨-, command, -⟩ := beginAttempt_writes began
      rcases beginAttempt_can began with ⟨_, same, bad⟩ | ⟨_, same, -⟩
      · cases same
        exact ⟨quiet, command, .inl rfl, fun ok => absurd ok bad⟩
      · cases same
  | answered began loops =>
      obtain ⟨-, command, taken⟩ := beginAttempt_writes began
      have taken := taken rfl
      obtain ⟨-, fresh⟩ := beginAttempt_started began
      cases waits : request.waitForPrompt with
      | false =>
          have silent : written looped = [] := loops_writes loops (by rw [fresh]; exact waits)
          refine ⟨quiet, command, .inl silent, fun _ => ⟨taken, fun prompt => ?_⟩⟩
          rw [waits] at prompt
          cases prompt
      | true =>
          obtain ⟨payload, paid⟩ := (ExecutesAttempt.answered began loops).pays unskipped waits
          exact ⟨quiet, command, payload.imp_right fun one => ⟨waits, taken, one⟩,
            fun ok => ⟨taken, fun _ => paid ok⟩⟩

/-! ## A whole execution -/

def Worker.busy : Worker → Bool
  | .idle _ => false
  | .draining _ _ _ _ | .attempting _ _ => true

/-- Passes of a worker that is busy all along. -/
inductive Worker.Passes : Worker → Trace → Worker → Prop where
  | here {w : Worker} : Passes w [] w
  | pass {w v u : Worker} {first last : Trace} (before : Passes w first v)
      (ran : v.pass.Can last u) (busy : u.busy = true) : Passes w (first ++ last) u

/-- `execute_request`, up to the response: the worker took the request with this parser and is
about to hand out the response after these calls. -/
def Executes (request : Request) (parser : Parser) (trace : Trace) (response : Response) : Prop :=
  ∃ w first last next, Worker.Passes (.draining request 1 false parser) first w ∧
    w.pass.Begins last (.call (.complete response) next) ∧ trace = first ++ last

/-- The rounds so far, each of which was to be repeated, and the calls since that route stale
input. -/
structure Repeated (request : Request) (rounds : List Round) (number : UInt8)
    (drained trace : Trace) : Prop where
  whole : trace = rounds.flatMap Round.calls ++ drained
  quiet : written drained = []
  sound : ∀ index (round : Round), rounds[index]? = some round → round.Sound request (index + 1)
  again : ∀ round ∈ rounds, shouldRetry round.result request.retryPolicy = true
  counted : number.toNat = rounds.length + 1
  limit : number ≤ request.attempts

/-- An attempt that has made these calls and is in its loop. -/
structure Running (request : Request) (number : UInt8) (trace : Trace) (attempt : Attempt) :
    Prop where
  finishes : ∀ {more : Trace} {result : AtResult}, Prog.Loops Attempt.pass attempt more result →
    ∃ response parser sent looped, response.attempts = number ∧ parser.skipPromptSpace = false ∧
      trace ++ more = sent ++ looped ∧ ExecutesAttempt request response parser sent looped result

inductive Underway (request : Request) (rounds : List Round) : Trace → Worker → Prop where
  | draining {number : UInt8} {again : Bool} {parser : Parser} {drained trace : Trace}
      (repeated : Repeated request rounds number drained trace) (rested : parser.Rested) :
      Underway request rounds trace (.draining request number again parser)
  | attempting {number : UInt8} {attempt : Attempt} {drained before trace : Trace}
      (repeated : Repeated request rounds number drained before)
      (running : Running request number trace attempt)
      (origin : attempt.transaction.origin = (request, number)) :
      Underway request rounds (before ++ trace) (.attempting number attempt)

/-- The calls of an execution, attempt by attempt, and how it ended: each attempt but the last was
one that the request wants repeated, and the response is the result of the last. -/
structure Concluded (request : Request) (trace : Trace) (response : Response) (rounds : List Round)
    (last : Round) : Prop where
  whole : trace = (rounds ++ [last]).flatMap Round.calls
  sound : ∀ index (round : Round), (rounds ++ [last])[index]? = some round →
    round.Sound request (index + 1)
  again : ∀ round ∈ rounds, shouldRetry round.result request.retryPolicy = true
  result : last.result = response.result
  attempts : response.attempts.toNat = rounds.length + 1
  limit : rounds.length + 1 ≤ request.attempts.toNat

/-- Where a pass of a busy worker leads. -/
inductive Leads (request : Request) (before more : Trace) : Worker → Prop where
  | on {w : Worker} (underway : ∃ rounds, Underway request rounds (before ++ more) w)
      (unfinished : Unfinished more) : Leads request before more w
  | concludes {front : Trace} {response : Response} {parser : Parser}
      (shape : more = front ++ [⟨(), .complete response, ()⟩]) (unfinished : Unfinished front)
      (concluded : ∃ rounds last, Concluded request (before ++ front) response rounds last) :
      Leads request before more (.idle parser)

theorem sound_concat {request : Request} {rounds : List Round} {last : Round}
    (sound : ∀ index (round : Round), rounds[index]? = some round → round.Sound request (index + 1))
    (ends : last.Sound request (rounds.length + 1)) :
    ∀ index (round : Round), (rounds ++ [last])[index]? = some round →
      round.Sound request (index + 1) := by
  intro index round here
  rcases Nat.lt_trichotomy index rounds.length with early | rfl | late
  · rw [List.getElem?_append_left early] at here
    exact sound index round here
  · rw [List.getElem?_concat_length] at here
    cases here
    exact ends
  · have behind : (rounds ++ [last]).length ≤ index := by
      rw [List.length_append]
      exact late
    rw [List.getElem?_eq_none behind] at here
    cases here

/-- After an attempt: its round is the last, or another follows. -/
theorem conclude_leads {request : Request} {rounds : List Round} {number : UInt8}
    {response : Response} {parser : Parser} {drained before more : Trace}
    {w : Worker} {last : Round} (repeated : Repeated request rounds number drained before)
    (sound : last.Sound request number.toNat) (follows : last.drained = drained)
    (origin : response.attempts = number)
    (ran : (concludeAttempt request number response parser last.result).Can more w) :
    (∃ after, w = .idle after ∧
        more = [⟨(), .complete { response with result := last.result }, ()⟩] ∧
        Concluded request (before ++ (last.sent ++ last.looped))
          { response with result := last.result } rounds last) ∨
      (more = [] ∧ Underway request (rounds ++ [last]) (before ++ (last.sent ++ last.looped)) w) := by
  unfold concludeAttempt at ran
  simp only at ran
  have whole : before ++ (last.sent ++ last.looped) = (rounds ++ [last]).flatMap Round.calls := by
    rw [repeated.whole, List.flatMap_append, List.flatMap_singleton, Round.calls, follows,
      List.append_assoc]
  have each := sound_concat repeated.sound (repeated.counted ▸ sound)
  split at ran
  · cases ran with
    | call _ done =>
        cases done
        refine .inl ⟨_, rfl, rfl, ⟨whole, each, repeated.again, rfl, ?_, ?_⟩⟩
        · exact (congrArg UInt8.toNat origin).trans repeated.counted
        · rw [← repeated.counted]
          exact repeated.limit
  · rename_i goes
    cases ran
    simp only [not_or, not_not] at goes
    obtain ⟨-, retry, unequal⟩ := goes
    have limit := UInt8.le_iff_toNat_le.mp repeated.limit
    have below : number.toNat < request.attempts.toNat :=
      Nat.lt_of_le_of_ne limit fun same => unequal (UInt8.toNat_inj.mp same)
    have top := request.attempts.toNat_lt
    have next : (number + 1).toNat = number.toNat + 1 := by
      rw [UInt8.toNat_add]
      exact Nat.mod_eq_of_lt (by simpa using by omega)
    have quiet : written [] = [] := rfl
    refine .inr ⟨rfl, .draining ⟨?_, quiet, each, ?_, ?_, ?_⟩ ⟨rfl, rfl⟩⟩
    · rw [List.append_nil]
      exact whole
    · intro one member
      rcases List.mem_append.mp member with early | late
      · exact repeated.again one early
      · rw [List.mem_singleton.mp late]
        exact retry
    · rw [next, repeated.counted, List.length_append]
      rfl
    · rw [UInt8.le_iff_toNat_le, next]
      exact below

/-- Calls that write nothing change nothing of the rounds. -/
theorem Repeated.append {request : Request} {rounds : List Round} {number : UInt8}
    {drained before more : Trace} (repeated : Repeated request rounds number drained before)
    (none : written more = []) :
    Repeated request rounds number (drained ++ more) (before ++ more) := by
  refine ⟨?_, ?_, repeated.sound, repeated.again, repeated.counted, repeated.limit⟩
  · rw [repeated.whole, List.append_assoc]
  · rw [written_append, repeated.quiet, none]
    rfl

/-- The end of an attempt, as it leads on. -/
theorem Repeated.leads {request : Request} {rounds : List Round} {number : UInt8}
    {response start : Response} {parser first : Parser} {result : AtResult}
    {drained before sent looped front more : Trace} {w : Worker}
    (repeated : Repeated request rounds number drained before)
    (unskipped : first.skipPromptSpace = false) (begins : start.attempts = number)
    (attempt : ExecutesAttempt request start first sent looped result)
    (unfinished : Unfinished front) {early : Trace}
    (place : early ++ front = before ++ (sent ++ looped)) (origin : response.attempts = number)
    (ran : (concludeAttempt request number response parser result).Can more w) :
    Leads request early (front ++ more) w := by
  let last : Round := ⟨drained, sent, looped, result⟩
  have sound : last.Sound request number.toNat :=
    ⟨⟨start, first, congrArg UInt8.toNat begins, attempt⟩,
      attempt.wrote repeated.quiet unskipped⟩
  rcases conclude_leads repeated sound rfl origin ran with
    ⟨after, rfl, rfl, concluded⟩ | ⟨rfl, underway⟩
  · refine .concludes rfl unfinished ⟨rounds, last, ?_⟩
    rw [place]
    exact concluded
  · rw [List.append_nil]
    refine .on ⟨rounds ++ [last], ?_⟩ unfinished
    rw [place]
    exact underway

/-- An attempt is begun behind the calls of `front`. -/
theorem Repeated.starts {request : Request} {rounds : List Round} {number : UInt8} {parser : Parser}
    {drained early front more : Trace} {w : Worker}
    (repeated : Repeated request rounds number drained (early ++ front)) (rested : parser.Rested)
    (quiet : Unfinished front) (ran : (startAttempt request number parser).Can more w) :
    Leads request early (front ++ more) w := by
  obtain ⟨sent, last, outcome, rfl, began, later⟩ := Prog.Can.of_bind ran
  obtain ⟨unfinished, -⟩ := beginAttempt_writes began
  have both := quiet.append unfinished
  rw [← List.append_assoc]
  cases outcome with
  | error result =>
      exact repeated.leads rested.1 rfl (.refused began) both
        (by rw [List.append_nil, List.append_assoc]) rfl later
  | ok attempt =>
      cases later
      obtain ⟨-, fresh⟩ := beginAttempt_started began
      rw [List.append_nil]
      refine .on ⟨rounds, ?_⟩ both
      rw [← List.append_assoc]
      refine .attempting repeated ⟨?_⟩ ?_
      · intro more result loops
        exact ⟨_, _, sent, more, rfl, rested.1, rfl, .answered began loops⟩
      · rw [fresh]
        rfl

theorem received_silent (event : Option RxEvent) :
    Unfinished [⟨(), .receiveRx false, event⟩] ∧ written [⟨(), .receiveRx false, event⟩] = [] := by
  refine ⟨?_, rfl⟩
  intro entry member response
  rw [List.mem_singleton.mp member]
  nofun

theorem Repeated.drain {request : Request} {rounds : List Round} {number : UInt8} {again : Bool}
    {parser : Parser} {drained before more : Trace} {u : Worker}
    (repeated : Repeated request rounds number drained before) (rested : parser.Rested)
    (ran : (Worker.pass (.draining request number again parser)).Can more u) :
    Leads request before more u := by
  unfold Worker.pass at ran
  cases ran with
  | @call _ _ event _ _ _ rest _ _ ran =>
  obtain ⟨unfinished, silent⟩ := received_silent event
  have behind := repeated.append silent
  rw [← List.singleton_append]
  rcases event with _ | bytes | _ | _
  · change (if again then _ else _ : AtM Worker).Can _ u at ran
    split at ran
    · cases ran
      exact .on ⟨_, .draining behind rested⟩ unfinished
    · exact behind.starts rested unfinished ran
  · have feeds : (feedIdle parser bytes >>= fun after =>
        pure (.draining request number again after)).Can _ u := ran
    obtain ⟨first, last, after, rfl, fed, ended⟩ := Prog.Can.of_bind feeds
    cases ended
    rw [List.append_nil]
    obtain ⟨quiet, none⟩ := feedIdle_writes fed
    have further := behind.append none
    rw [List.append_assoc before] at further
    exact .on ⟨_, .draining further (rested.feed (feedIdle_can fed).1)⟩ (unfinished.append quiet)
  · cases ran
    exact .on ⟨_, .draining behind ⟨rfl, rfl⟩⟩ unfinished
  · cases ran
    exact .on ⟨_, .draining behind ⟨rfl, rfl⟩⟩ unfinished

theorem Underway.pass {request : Request} {rounds : List Round} {before more : Trace} {w u : Worker}
    (underway : Underway request rounds before w) (ran : w.pass.Can more u) :
    Leads request before more u := by
  cases underway with
  | draining repeated rested => exact repeated.drain rested ran
  | @attempting number attempt drained earlier trace repeated running origin =>
      obtain ⟨first, last, outcome, rfl, passed, ended⟩ := Prog.Can.of_bind ran
      obtain ⟨unfinished, same, -⟩ := Attempt.pass_writes passed
      cases outcome with
      | inl result =>
          obtain ⟨response, parser, sent, looped, begins, unskipped, shape, attempted⟩ :=
            running.finishes (.finished passed)
          have parts : attempt.transaction.request = request ∧
              attempt.transaction.response.attempts = number := Prod.mk.inj origin
          obtain ⟨rfl, attempts⟩ := parts
          exact repeated.leads unskipped begins attempted unfinished
            (by rw [List.append_assoc, shape]) attempts ended
      | inr after =>
          cases ended
          rw [List.append_nil]
          refine .on ⟨rounds, ?_⟩ unfinished
          rw [List.append_assoc]
          refine .attempting repeated ⟨?_⟩ ((same after rfl).trans origin)
          intro more result loops
          obtain ⟨response, parser, sent, looped, begins, unskipped, shape, attempted⟩ :=
            running.finishes (.again passed loops)
          have whole : trace ++ first ++ more = sent ++ looped := by rw [List.append_assoc, shape]
          exact ⟨response, parser, sent, looped, begins, unskipped, whole, attempted⟩

instance (request : AtCall) : Nonempty request.Reply := by
  cases request with
  | token _ | complete _ => exact ⟨()⟩
  | queueUrc _ | isReady => exact ⟨true⟩
  | write _ => exact ⟨.ok ()⟩
  | overflowEpoch | transportLostEpoch | cancelEpoch => exact ⟨0⟩
  | time => exact ⟨(0 : Int)⟩
  | receiveRx _ | receiveRequest => exact ⟨none⟩

/-- The first end of a request in a trace is its last call. -/
theorem unfinished_split {front last rest : Trace} {one other : Response}
    (unfinished : Unfinished front)
    (same : last ++ ⟨(), .complete one, ()⟩ :: rest = front ++ [⟨(), .complete other, ()⟩]) :
    last = front ∧ one = other := by
  rcases List.eq_nil_or_concat rest with rfl | ⟨inner, final, rfl⟩
  · obtain ⟨fronts, ends⟩ := List.append_inj' same rfl
    have entries := (List.cons.inj ends).1
    cases entries
    exact ⟨fronts, rfl⟩
  · rw [List.concat_eq_append, ← List.cons_append, ← List.append_assoc] at same
    obtain ⟨fronts, -⟩ := List.append_inj' same rfl
    refine absurd rfl (unfinished ⟨(), .complete one, ()⟩ ?_ one)
    rw [← fronts]
    simp

theorem Worker.Passes.underway {request : Request} {parser : Parser} {trace : Trace} {w : Worker}
    (rested : parser.Rested) (passes : Worker.Passes (.draining request 1 false parser) trace w) :
    ∃ rounds, Underway request rounds trace w := by
  generalize start : Worker.draining request 1 false parser = first at passes
  induction passes with
  | here =>
      subst start
      have limit : 1 ≤ request.attempts := by
        rw [Request.attempts]
        split
        · exact UInt8.le_refl 1
        · rename_i some
          rw [UInt8.le_iff_toNat_le]
          have positive : request.maxAttempts.toNat ≠ 0 := fun zero => some (UInt8.toNat_inj.mp zero)
          change 1 ≤ _
          omega
      exact ⟨[], .draining ⟨rfl, rfl, nofun, nofun, rfl, limit⟩ rested⟩
  | pass before ran busy ih =>
      obtain ⟨rounds, underway⟩ := ih
      cases underway.pass ran with
      | on underway _ => exact underway
      | concludes _ _ _ => cases busy

/-- The calls of a request are its attempts one after the other, each a run of `execute_attempt`
that writes the command at most once and the payload at most once, to a prompt; another attempt
follows only a result that the request wants repeated; there are no more than it allows, and the
response tells how many. `OK` is the result of an attempt that sent everything. -/
theorem retry_discipline {request : Request} {parser : Parser} {trace : Trace} {response : Response}
    (reached : Worker.Reached (.draining request 1 false parser))
    (executes : Executes request parser trace response) :
    ∃ rounds last, Concluded request trace response rounds last := by
  obtain ⟨w, first, last, next, passes, begins, rfl⟩ := executes
  obtain ⟨rounds, underway⟩ := passes.underway reached.rested
  obtain ⟨rest, value, can⟩ := Prog.exists_can (next ())
  have whole := (begins.next ()).can can
  cases underway.pass whole with
  | on _ unfinished =>
      exact absurd rfl (unfinished ⟨(), .complete response, ()⟩ (by simp) response)
  | @concludes front other parser shape unfinished concluded =>
      rw [List.append_assoc, List.singleton_append] at shape
      obtain ⟨rfl, rfl⟩ := unfinished_split unfinished shape
      exact concluded

/-- `AT+CMGS`, twice if the transport fails. -/
def retriedRequest : Request :=
  ⟨.text "AT+CMGS=1", [.text "+CMGS:"], 0, 2, 0, retryOnTransportError, true, [0x30, 0x1A]⟩

/-- A transport that takes a write or not, and a modem that sends one chunk to an attempt. -/
def surroundings (taken : Except EspErr Unit) (chunk : List UInt8) :
    (request : AtCall) → Unit → request.Reply × Unit
  | .token _, _ | .complete _, _ => ((), ())
  | .queueUrc _, _ | .isReady, _ => (true, ())
  | .write _, _ => (taken, ())
  | .overflowEpoch, _ | .transportLostEpoch, _ | .cancelEpoch, _ => (0, ())
  | .time, _ => (0, ())
  | .receiveRx false, _ => (none, ())
  | .receiveRx true, _ => (some (.data chunk), ())
  | .receiveRequest, _ => (some retriedRequest, ())

def Worker.after (w : Worker) (taken : Except EspErr Unit) (chunk : List UInt8) : Worker :=
  (Prog.run (surroundings taken chunk) w.pass ()).1

theorem Worker.passes_after {first w : Worker} {trace : Trace} (passes : Worker.Passes first trace w)
    (taken : Except EspErr Unit) (chunk : List UInt8) (busy : (w.after taken chunk).busy = true) :
    ∃ more, Worker.Passes first more (w.after taken chunk) :=
  ⟨_, .pass passes (Prog.runs_of_run (surroundings taken chunk) (fun _ _ => trivial) w.pass ()) busy⟩

/-- The transport refuses the first command; the second attempt sends everything. -/
theorem retry_discipline_second : ∃ trace response rounds last,
    response.result = .ok ∧ response.attempts = 2 ∧
      Concluded retriedRequest trace response rounds last := by
  let first : Worker := .draining retriedRequest 1 false .init
  let second : Worker := first.after (.error .fail) []
  let third : Worker := second.after (.ok ()) promptThenOk
  let fourth : Worker := third.after (.ok ()) promptThenOk
  have reached : Worker.Reached first :=
    .pass .start (Prog.runs_of_run (surroundings (.ok ()) []) (fun _ _ => trivial)
      (Worker.pass (.idle .init)) ())
  have busy : second.busy = true ∧ third.busy = true ∧ fourth.busy = true := by decide +kernel
  obtain ⟨_, passes⟩ := Worker.passes_after .here (.error .fail) [] busy.1
  obtain ⟨_, passes⟩ := Worker.passes_after passes (.ok ()) promptThenOk busy.2.1
  obtain ⟨trace, passes⟩ := Worker.passes_after passes (.ok ()) promptThenOk busy.2.2
  obtain ⟨response, next, ends, ok, attempts⟩ : ∃ response next,
      fourth.pass = .call (.complete response) next ∧ response.result = .ok ∧ response.attempts = 2 :=
    ⟨_, _, rfl, by decide +kernel, by decide +kernel⟩
  have begins : fourth.pass.Begins [] (.call (.complete response) next) := ends ▸ .here
  obtain ⟨rounds, last, concluded⟩ := retry_discipline reached ⟨_, _, _, _, passes, begins, rfl⟩
  exact ⟨_, response, rounds, last, ok, attempts, concluded⟩

end SmsGateway.At
