import SmsGateway.At.Runs

/-! Payload lines of unsolicited messages: what becomes of the line after a `+CMT:`,
`+CDS:` or `+CBM:` line. -/

namespace SmsGateway.At

open Lib

/-- A line as the modem sends it. -/
structure Line where
  bytes : List UInt8
  filled : bytes ≠ []
  fits : bytes.length ≤ maxLineLength
  plain : ∀ ch ∈ bytes, isLineEnd ch = false ∧ ch ≠ 0

namespace Line

def text (line : Line) : CStr := ⟨line.bytes, fun member => (line.plain 0 member).2 rfl⟩

/-- Whether the parser takes the first byte for a prompt. -/
def startsPrompt (line : Line) (parser : Parser) : Bool :=
  parser.promptEnabled && line.bytes.head? == some promptSign

theorem ofBytes_bytes (line : Line) : CStr.ofBytes line.bytes = line.text := by
  apply CStr.ext
  exact CStr.ofBytes_of_noNul line.text.noNul

end Line

/-- What happens between two lines: an attempt starts, or it ends. -/
inductive Control where
  | start (request : Request) (number : UInt8)
  | stop
  deriving DecidableEq, Repr

def Session.control : Session → Control → Session
  | (parser, _), .start request number =>
      (parser.setPromptEnabled request.waitForPrompt,
        some ⟨request, { Response.reset with attempts := number }, false, false, .init⟩)
  | (parser, _), .stop => (parser.setPromptEnabled false, none)

/-- The bytes of a line and its end. -/
def feedLine (line : Line) (session : Session) : AtM Session :=
  Parser.feed processToken (line.bytes ++ [carriageReturn, lineFeed]) session

inductive Input where
  | line (line : Line)
  | control (control : Control)

/-- `Session.Runs s inputs t`: these lines, starts and ends lead from `s` to `t`. -/
inductive Session.Runs (s : Session) : List Input → Session → Prop where
  | none : Session.Runs s [] s
  | line {inputs : List Input} {t u : Session} {line : Line}
      {trace : List (Prog.Entry Unit AtCall AtCall.Reply)} (before : Session.Runs s inputs t)
      (fed : (feedLine line t).Can trace u) : Session.Runs s (inputs ++ [.line line]) u
  | control {inputs : List Input} {t : Session} {control : Control}
      (before : Session.Runs s inputs t) :
      Session.Runs s (inputs ++ [.control control]) (t.control control)

/-- The engine before its first line. -/
def Session.initial : Session := (.init, none)

theorem queueUrc_line (line : Line) :
    queueUrc line.text = Prog.send (AtCall.queueUrc line.text) >>= fun _ => pure () := by
  have short : ¬ maxUrcLength < line.text.length := Nat.not_lt.mpr line.fits
  simp only [queueUrc, short, if_false]

/-- What `process_token` does with a line that starts with no prompt. -/
def deliverLine (line : Line) (session : Session) : AtM Session := do
  Prog.send (AtCall.token (.line line.bytes))
  match handleLine line.text session.2 with
  | (.queued, after) => do
      queueUrc line.text
      pure (session.1, after)
  | (_, after) => pure (session.1, after)

theorem deliverLine_bind (line : Line) (parser after : Parser) (transaction : Option Transaction)
    (f : Session → AtM Session) (same : ∀ t, f (parser, t) = pure (after, t)) :
    processToken (.line line.bytes) (parser, transaction) >>= f =
      deliverLine line (after, transaction) := by
  simp only [processToken, handleToken, line.ofBytes_bytes, deliverLine, Prog.bind_bind]
  congr 1
  funext _
  rcases handleLine line.text transaction with ⟨_ | _, t⟩ <;> simp [same]

theorem feedLine_eq (line : Line) {parser : Parser} (rest : parser.AtRest)
    (noPrompt : line.startsPrompt parser = false) (transaction : Option Transaction) :
    feedLine line (parser, transaction) = deliverLine line (parser, transaction) := by
  have fits : (parser.line ++ line.bytes).length ≤ maxLineLength := by
    simpa [rest.empty] using line.fits
  have whole : parser.line ++ line.bytes = line.bytes := by simp [rest.empty]
  have fed := Parser.feed_plain processToken rest.keeping rest.unskipped
    (fun ch member => (line.plain ch member).1)
    (by simpa [Line.startsPrompt, and_assoc, rest.empty] using noPrompt) fits transaction
  have ended := Parser.accept_end (parser.withLine _ fits) carriageReturn
    rest.keeping rest.unskipped (by simpa [Parser.withLine, rest.empty] using line.filled) rfl
  have cleared : (parser.withLine _ fits).clearLine = parser := by
    obtain ⟨text, discarding, skip, prompt, bound⟩ := parser
    cases rest.empty
    rfl
  have bytes : (parser.withLine _ fits).line = line.bytes := whole
  rw [bytes] at ended
  rw [feedLine, Parser.feed_append, fed, pure_bind, Parser.feed_cons]
  simp only [Parser.octet, ended, Prog.bind_bind]
  apply deliverLine_bind
  intro after
  have blank := Parser.accept_blank lineFeed rest rfl
  simp only [pure_bind, Parser.settle, cleared]
  rw [Parser.feed_cons, Parser.octet_silent blank, pure_bind]
  rfl

/-- The rest of a line whose first byte was taken for a prompt. -/
def feedRest (bytes : List UInt8) (session : Session) : AtM Session :=
  Parser.feed processToken (bytes ++ [carriageReturn, lineFeed]) session

theorem feedRest_nil {parser : Parser} (rest : parser.AtRest) (transaction : Option Transaction) :
    feedRest [] (parser, transaction) = pure (parser, transaction) := by
  have first := Parser.accept_blank carriageReturn rest rfl
  have second := Parser.accept_blank lineFeed rest rfl
  simp only [feedRest, List.nil_append]
  rw [Parser.feed_cons, Parser.octet_silent first, pure_bind, Parser.feed_cons,
    Parser.octet_silent second, pure_bind]
  rfl

/-- The parser between two lines, with no prompt to come. -/
theorem Parser.setPromptEnabled_rest {parser : Parser} (rest : parser.AtRest) (enabled : Bool) :
    (parser.setPromptEnabled enabled).AtRest where
  empty := rest.empty
  keeping := rest.keeping
  unskipped := by simp [Parser.setPromptEnabled, rest.unskipped]

theorem afterPrompt_sublist (bytes : List UInt8) : (Parser.afterPrompt bytes).Sublist bytes := by
  unfold Parser.afterPrompt
  split
  · exact List.sublist_cons_self _ _
  · exact List.Sublist.refl _

theorem afterPrompt_append (bytes : List UInt8) :
    Parser.afterPrompt (bytes ++ [carriageReturn, lineFeed]) =
      Parser.afterPrompt bytes ++ [carriageReturn, lineFeed] := by
  unfold Parser.afterPrompt
  rcases bytes with _ | ⟨ch, bytes⟩
  · rfl
  · by_cases space : ch = 0x20
    · subst space
      rfl
    · simp [space]

/-- A line that starts with an awaited prompt: the payload is written, and only the
rest of the line is handled as one. -/
theorem feedLine_prompt {line : Line} {parser : Parser} (rest : parser.AtRest)
    (starts : line.startsPrompt parser = true) {transaction : Transaction}
    (waits : transaction.request.waitForPrompt = true) :
    feedLine line (parser, some transaction) = (do
      Prog.send (AtCall.token .prompt)
      let after ← sendPayload parser transaction
      feedRest (Parser.afterPrompt line.bytes.tail) after) := by
  simp only [Line.startsPrompt, Bool.and_eq_true, beq_iff_eq] at starts
  obtain ⟨enabled, first⟩ := starts
  have bytes : line.bytes = promptSign :: line.bytes.tail := by
    obtain ⟨ch, tail, equal⟩ := List.exists_cons_of_ne_nil line.filled
    simp_all
  have skipped (t : Option Transaction) :
      Parser.feed processToken (line.bytes.tail ++ [carriageReturn, lineFeed])
          ((parser.setPromptEnabled false).settle .prompt, t) =
        feedRest (Parser.afterPrompt line.bytes.tail) (parser.setPromptEnabled false, t) := by
    have same : ({ parser.setPromptEnabled false with skipPromptSpace := false } : Parser) =
        parser.setPromptEnabled false := by
      simp [Parser.setPromptEnabled]
    have fed := Parser.feed_skipping processToken
      (line.bytes.tail ++ [carriageReturn, lineFeed]) (by simp) (parser.setPromptEnabled false) t
    rw [same, afterPrompt_append] at fed
    exact fed
  rw [feedLine, bytes, List.cons_append, Parser.feed_cons]
  simp only [Parser.octet, Parser.accept_prompt rest enabled, processToken, handleToken, waits,
    if_true, sendPayload, Prog.bind_bind]
  congr 1
  funext _
  congr 1
  funext reply
  cases reply with
  | error e => simpa using skipped _
  | ok value => simpa using skipped _

/-- A transaction without its place in a multi-line message. -/
def Transaction.unrouted (transaction : Transaction) : Transaction :=
  { transaction with router := .init }

/-- Whether the next line is taken as the continuation of an earlier one. -/
def Transaction.continues (transaction : Transaction) : Prop :=
  0 < transaction.router.urcContinuationLines

theorem deliverLine_can {line : Line} {session t : Session}
    {trace : List (Prog.Entry Unit AtCall AtCall.Reply)}
    (ran : (deliverLine line session).Can trace t) :
    t = (session.1, (handleLine line.text session.2).2) ∧
      ∀ other, AtCall.queueUrc other ∈ calls trace ↔
        (handleLine line.text session.2).1 = .queued ∧ other = line.text := by
  unfold deliverLine at ran
  cases ran with
  | call _ later =>
      revert later
      rcases handled : handleLine line.text session.2 with ⟨handling, after⟩
      intro later
      cases handling with
      | queued =>
          simp only [queueUrc_line] at later
          cases later with
          | call _ ended =>
              cases ended
              simp [calls]
      | echo | completed | captured =>
          cases later
          simp [calls]

structure Session.Sound (session : Session) : Prop where
  rest : session.1.AtRest
  waiting : session.1.promptEnabled = true →
    ∃ transaction, session.2 = some transaction ∧ transaction.request.waitForPrompt = true
  single : ∀ transaction, session.2 = some transaction →
    transaction.router.urcContinuationLines ≤ 1

theorem Session.Sound.control {session : Session} (sound : session.Sound) (control : Control) :
    (session.control control).Sound := by
  obtain ⟨parser, transaction⟩ := session
  cases control with
  | start request number =>
      refine ⟨Parser.setPromptEnabled_rest sound.rest _, fun enabled => ⟨_, rfl, enabled⟩, ?_⟩
      intro started equal
      cases equal
      exact Nat.zero_le _
  | stop =>
      refine ⟨Parser.setPromptEnabled_rest sound.rest _, ?_, ?_⟩
      · intro enabled
        simp [Session.control, Parser.setPromptEnabled] at enabled
      · intro started equal
        cases equal

/-- What handling a line keeps of a session. -/
theorem Session.Sound.handled {session : Session} (sound : session.Sound) (line : CStr) :
    Session.Sound (session.1, (handleLine line session.2).2) := by
  obtain ⟨parser, transaction⟩ := session
  cases transaction with
  | none => exact sound
  | some transaction =>
      obtain ⟨after, equal, request, single⟩ := handleLine_kept line transaction
      simp only [equal]
      refine ⟨sound.rest, ?_, ?_⟩
      · intro enabled
        obtain ⟨waiting, same, waits⟩ := sound.waiting enabled
        cases same
        exact ⟨after, rfl, request ▸ waits⟩
      · intro other same
        cases same
        exact single (sound.single transaction rfl)

theorem feedRest_can {line : Line} {bytes : List UInt8} {session t : Session}
    {trace : List (Prog.Entry Unit AtCall AtCall.Reply)} (sound : session.Sound)
    (disabled : session.1.promptEnabled = false) (part : bytes.Sublist line.bytes)
    (ran : (feedRest bytes session).Can trace t) :
    t.Sound ∧ ∀ other, AtCall.queueUrc other ∈ calls trace → other.length ≤ bytes.length := by
  by_cases filled : bytes = []
  · subst filled
    rw [feedRest_nil sound.rest] at ran
    cases ran
    exact ⟨sound, by simp⟩
  · let rest : Line := {
      bytes := bytes
      filled := filled
      fits := part.length_le.trans line.fits
      plain := fun ch member => line.plain ch (part.subset member) }
    have noPrompt : rest.startsPrompt session.1 = false := by
      simp [Line.startsPrompt, disabled]
    have same : feedRest bytes session = deliverLine rest session :=
      feedLine_eq rest sound.rest noPrompt session.2
    rw [same] at ran
    obtain ⟨rfl, queued⟩ := deliverLine_can ran
    refine ⟨sound.handled _, ?_⟩
    intro other member
    obtain ⟨-, rfl⟩ := (queued other).mp member
    exact Nat.le_refl _

theorem feedLine_prompt_can {line : Line} {session t : Session}
    {trace : List (Prog.Entry Unit AtCall AtCall.Reply)} (sound : session.Sound)
    (starts : line.startsPrompt session.1 = true) (ran : (feedLine line session).Can trace t) :
    t.Sound ∧ ∀ other, AtCall.queueUrc other ∈ calls trace → other.length < line.text.length := by
  have enabled : session.1.promptEnabled = true := by
    simp only [Line.startsPrompt, Bool.and_eq_true] at starts
    exact starts.1
  obtain ⟨transaction, running, waits⟩ := sound.waiting enabled
  obtain ⟨parser, _⟩ := session
  cases running
  rw [feedLine_prompt sound.rest starts waits] at ran
  have shorter : (Parser.afterPrompt line.bytes.tail).length < line.text.length := by
    have tail := (afterPrompt_sublist line.bytes.tail).length_le
    have positive := List.length_pos_iff.mpr line.filled
    rw [List.length_tail] at tail
    exact Nat.lt_of_le_of_lt tail (Nat.sub_lt positive Nat.one_pos)
  have part : (Parser.afterPrompt line.bytes.tail).Sublist line.bytes :=
    (afterPrompt_sublist _).trans (List.tail_sublist _)
  cases ran with
  | call _ later =>
      have sends : (sendPayload parser transaction >>=
          feedRest (Parser.afterPrompt line.bytes.tail)).Can _ t := later
      obtain ⟨first, last, after, rfl, wrote, fed⟩ := Prog.Can.of_bind sends
      obtain ⟨sent, rfl, router, writes⟩ := sendPayload_can wrote
      have rested : Session.Sound (parser.setPromptEnabled false, some sent) := by
        refine ⟨Parser.setPromptEnabled_rest sound.rest _, ?_, ?_⟩
        · intro enabled
          simp [Parser.setPromptEnabled] at enabled
        · intro other same
          cases same
          exact router ▸ sound.single transaction rfl
      obtain ⟨kept, small⟩ := feedRest_can rested rfl part fed
      refine ⟨kept, ?_⟩
      intro other member
      have later : AtCall.queueUrc other ∈ calls last := by
        simpa [calls, writes] using member
      exact Nat.lt_of_le_of_lt (small other later) shorter

theorem feedLine_can {line : Line} {session t : Session}
    {trace : List (Prog.Entry Unit AtCall AtCall.Reply)} (sound : session.Sound)
    (noPrompt : line.startsPrompt session.1 = false) (ran : (feedLine line session).Can trace t) :
    t = (session.1, (handleLine line.text session.2).2) ∧
      ∀ other, AtCall.queueUrc other ∈ calls trace ↔
        (handleLine line.text session.2).1 = .queued ∧ other = line.text := by
  have same : feedLine line session = deliverLine line session :=
    feedLine_eq line sound.rest noPrompt session.2
  rw [same] at ran
  exact deliverLine_can ran

theorem feedLine_sound {line : Line} {session t : Session}
    {trace : List (Prog.Entry Unit AtCall AtCall.Reply)} (sound : session.Sound)
    (ran : (feedLine line session).Can trace t) : t.Sound := by
  cases starts : line.startsPrompt session.1 with
  | true => exact (feedLine_prompt_can sound starts ran).1
  | false =>
      obtain ⟨rfl, -⟩ := feedLine_can sound starts ran
      exact sound.handled _

theorem Session.Runs.sound {inputs : List Input} {s : Session}
    (runs : Session.Runs .initial inputs s) : s.Sound := by
  induction runs with
  | none =>
      refine ⟨⟨rfl, rfl, rfl⟩, ?_, ?_⟩
      · intro enabled
        cases enabled
      · intro transaction running
        cases running
  | line before fed ih => exact feedLine_sound ih fed
  | control before ih => exact ih.control _

theorem Session.Runs.trans {s t u : Session} {first last : List Input}
    (before : Session.Runs s first t) (after : Session.Runs t last u) :
    Session.Runs s (first ++ last) u := by
  induction after with
  | none => simpa using before
  | line _ fed ih =>
      rw [← List.append_assoc]
      exact .line ih fed
  | control _ ih =>
      rw [← List.append_assoc]
      exact .control ih

/-- The bytes of lines as they come from the modem. -/
def wire (lines : List Line) : List UInt8 :=
  lines.flatMap fun line => line.bytes ++ [carriageReturn, lineFeed]

/-- A chunk of whole lines is these lines one after another. -/
theorem feed_lines {lines : List Line} {s t : Session}
    {trace : List (Prog.Entry Unit AtCall AtCall.Reply)}
    (fed : (Parser.feed processToken (wire lines) s).Can trace t) :
    Session.Runs s (lines.map .line) t := by
  induction lines generalizing s trace with
  | nil =>
      cases fed
      exact .none
  | cons line lines ih =>
      rw [wire, List.flatMap_cons, Parser.feed_append] at fed
      obtain ⟨first, last, between, rfl, now, later⟩ := Prog.Can.of_bind fed
      exact Session.Runs.trans (.line .none now) (ih later)

/-- What the worker's loops hold of the traffic. -/
def Worker.session : Worker → Session
  | .idle parser | .draining _ _ _ parser => (parser, none)
  | .attempting _ attempt => (attempt.parser, some attempt.transaction)

theorem Parser.AtRest.setPromptEnabled_false {parser : Parser} (rest : parser.AtRest) :
    parser.setPromptEnabled false = .init := by
  obtain ⟨line, discarding, skip, prompt, fits⟩ := parser
  obtain ⟨rfl, rfl, rfl⟩ := rest
  rfl

theorem concludeAttempt_session {request : Request} {number : UInt8} {response : Response}
    {parser : Parser} {result : AtResult} {w : Worker}
    {trace : List (Prog.Entry Unit AtCall AtCall.Reply)} (transaction : Option Transaction)
    (rest : parser.AtRest)
    (ran : (concludeAttempt request number response parser result).Can trace w) :
    w.session = Session.control (parser, transaction) .stop := by
  have stopped : Session.control (parser, transaction) .stop = (.init, none) := by
    simp only [Session.control, rest.setPromptEnabled_false]
  rw [stopped]
  unfold concludeAttempt at ran
  simp only [rest.setPromptEnabled_false, ite_self] at ran
  split at ran
  · cases ran with
    | call _ ended =>
        cases ended
        rfl
  · cases ran
    rfl

theorem Session.Sound.stopped {parser : Parser} (rest : parser.AtRest) :
    Session.Runs (parser, none) [.control .stop] (.init, none) := by
  have stopped : Session.control (parser, none) .stop = (.init, none) := by
    simp only [Session.control, rest.setPromptEnabled_false]
  rw [← stopped]
  exact .control .none

theorem startAttempt_session {request : Request} {number : UInt8} {parser : Parser} {w : Worker}
    {trace : List (Prog.Entry Unit AtCall AtCall.Reply)} (rest : parser.AtRest)
    (ran : (startAttempt request number parser).Can trace w) :
    ∃ inputs, Session.Runs (parser, none) inputs w.session := by
  obtain ⟨first, last, outcome, rfl, began, later⟩ := Prog.Can.of_bind ran
  rcases beginAttempt_can began with ⟨result, rfl, -⟩ | ⟨attempt, rfl, parser, transaction⟩
  · rw [concludeAttempt_session none rest later]
    exact ⟨_, .control .none⟩
  · cases later
    refine ⟨[.control (.start request number)], ?_⟩
    simp only [Worker.session, parser, transaction]
    exact .control .none

/-- Where the modem sends whole lines, a pass of the worker is lines, starts and ends
of attempts. -/
theorem Worker.pass_session {w w' : Worker} {lines : List Line}
    {trace : List (Prog.Entry Unit AtCall AtCall.Reply)} (sound : w.session.Sound)
    (ran : w.pass.Can trace w') (whole : trace.flatMap received = wire lines) :
    ∃ inputs, Session.Runs w.session inputs w'.session := by
  cases w with
  | idle parser =>
      unfold Worker.pass at ran
      cases ran with
      | @call _ _ request _ _ _ _ _ _ ran =>
      cases request with
      | some request =>
          cases ran
          exact ⟨[], .none⟩
      | none =>
          cases ran with
          | @call _ _ event _ _ _ _ _ _ ran =>
          rcases event with _ | bytes | _ | _
          · cases ran
            exact ⟨[], .none⟩
          · change (if bytes.isEmpty then _ else _ : AtM Worker).Can _ w' at ran
            split at ran
            · cases ran
              exact ⟨_, Session.Sound.stopped sound.rest⟩
            · obtain ⟨first, last, after, rfl, fed, ended⟩ := Prog.Can.of_bind ran
              cases ended
              obtain ⟨now, quiet⟩ := feedIdle_can fed
              have all : bytes = wire lines := by simpa [received, quiet] using whole
              subst all
              exact ⟨_, feed_lines now⟩
          · cases ran
            exact ⟨_, Session.Sound.stopped sound.rest⟩
          · cases ran
            exact ⟨_, Session.Sound.stopped sound.rest⟩
  | draining request number again parser =>
      unfold Worker.pass at ran
      cases ran with
      | @call _ _ event _ _ _ _ _ _ ran =>
      rcases event with _ | bytes | _ | _
      · change (if again then _ else _ : AtM Worker).Can _ w' at ran
        split at ran
        · cases ran
          exact ⟨[], .none⟩
        · exact startAttempt_session sound.rest ran
      · have drained : (feedIdle parser bytes >>= fun after =>
            pure (.draining request number again after)).Can _ w' := ran
        obtain ⟨first, last, after, rfl, fed, ended⟩ := Prog.Can.of_bind drained
        cases ended
        obtain ⟨now, quiet⟩ := feedIdle_can fed
        have all : bytes = wire lines := by simpa [received, quiet] using whole
        subst all
        exact ⟨_, feed_lines now⟩
      · cases ran
        exact ⟨_, Session.Sound.stopped sound.rest⟩
      · cases ran
        exact ⟨_, Session.Sound.stopped sound.rest⟩
  | attempting number attempt =>
      obtain ⟨first, last, outcome, rfl, passed, ended⟩ := Prog.Can.of_bind ran
      cases outcome with
      | inl result =>
          rw [concludeAttempt_session (some attempt.transaction) sound.rest ended]
          exact ⟨_, .control .none⟩
      | inr after =>
          cases ended
          rcases Attempt.pass_can passed with ⟨-, -, same⟩ | ⟨-, -, -, same | ⟨_, -, same⟩⟩ |
            ⟨-, polls, bytes, _, fed, polled, rfl, now, same⟩
          · cases same
          · cases same
            exact ⟨[], .none⟩
          · cases same
          · cases same
            obtain ⟨fed, quiet⟩ := Attempt.feed_can now
            have poll : polls.flatMap received = [] := by
              apply received_of_calls
              simp [polled, pollCalls]
            have all : bytes = wire lines := by
              rw [List.flatMap_append, List.flatMap_append, List.flatMap_cons, poll, quiet] at whole
              simpa [received] using whole
            subst all
            exact ⟨_, feed_lines fed⟩

/-- The payload was put on its way to the URC queue, and the transaction knows
nothing of it: it was not completed and captured nothing. -/
structure Delivered (payload : Line) (s t : Session)
    (trace : List (Prog.Entry Unit AtCall AtCall.Reply)) : Prop where
  queued : AtCall.queueUrc payload.text ∈ calls trace
  kept : t.2.map Transaction.unrouted = s.2.map Transaction.unrouted

/-- A message body that reads like a command. -/
def commandLine : Line := ⟨(CStr.text "AT+CSQ").bytes, by decide, by decide, by decide +kernel⟩

end SmsGateway.At
