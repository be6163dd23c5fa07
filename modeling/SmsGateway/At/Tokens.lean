import SmsGateway.At.Parser

/-! The tokens of a whole stream, and that the parser gives these however the stream
is cut into calls. -/

namespace SmsGateway.At

/-- The stream cut at every line end: the terminated pieces, and the last one. -/
def pieces : List UInt8 → List (List UInt8) × List UInt8
  | [] => ([], [])
  | ch :: rest =>
      let (terminated, last) := pieces rest
      if isLineEnd ch then ([] :: terminated, last)
      else match terminated with
        | [] => ([], ch :: last)
        | first :: others => ((ch :: first) :: others, last)

/-- Leading prompt signs of a piece, each with one space behind it: their number, and
what is left. -/
def stripPrompts : List UInt8 → Nat × List UInt8
  | 0x3E :: 0x20 :: rest => let (count, left) := stripPrompts rest; (count + 1, left)
  | 0x3E :: rest => let (count, left) := stripPrompts rest; (count + 1, left)
  | bytes => (0, bytes)

/-- The prompts of a piece and its line. -/
def strip (promptEnabled : Bool) (piece : List UInt8) : Nat × List UInt8 :=
  if promptEnabled then stripPrompts piece else (0, piece)

def promptTokens (promptEnabled : Bool) (piece : List UInt8) : List Token :=
  List.replicate (strip promptEnabled piece).1 .prompt

/-- The token of a terminated line. -/
def lineTokens (line : List UInt8) : List Token :=
  if line = [] then [] else if line.length ≤ 512 then [.line line] else [.lineOverflow]

def terminatedTokens (promptEnabled : Bool) (piece : List UInt8) : List Token :=
  promptTokens promptEnabled piece ++ lineTokens (strip promptEnabled piece).2

/-- The tokens of a stream. -/
def streamTokens (promptEnabled : Bool) (stream : List UInt8) : List Token :=
  (pieces stream).1.flatMap (terminatedTokens promptEnabled) ++
    promptTokens promptEnabled (pieces stream).2

/-- A callback that does not touch the parser it is called from. -/
def untouched {κ : Type} (act : Token → κ → κ) (token : Token) (state : Parser × κ) :
    Id (Parser × κ) :=
  pure (state.1, act token state.2)

/-- One call of `at_parser_feed` for each of these parts. -/
def feedParts {κ : Type} (act : Token → κ → κ) (parts : List (List UInt8)) (state : Parser × κ) :
    Parser × κ :=
  parts.foldl (fun state part => (Parser.feed (untouched act) part state).run) state

/-! What a parser in the middle of a piece still emits for it. -/

namespace Parser

/-- The tokens that the rest of the piece gives. -/
def pieceTokens (parser : Parser) (piece : List UInt8) (terminated : Bool) : List Token :=
  let piece := if parser.skipPromptSpace then afterPrompt piece else piece
  if parser.discardingOverflow then if terminated then [.lineOverflow] else []
  else if parser.line = [] then
    promptTokens parser.promptEnabled piece ++
      if terminated then lineTokens (strip parser.promptEnabled piece).2 else []
  else if terminated then lineTokens (parser.line ++ piece) else []

/-- The tokens that the rest of the stream gives. -/
def restTokens (parser : Parser) (stream : List UInt8) : List Token :=
  match pieces stream with
  | ([], last) => parser.pieceTokens last false
  | (first :: others, last) =>
      parser.pieceTokens first true ++ (others.flatMap (terminatedTokens parser.promptEnabled) ++
        promptTokens parser.promptEnabled last)

/-- The parser after a byte, and the token it emits. -/
def next (parser : Parser) (ch : UInt8) : Parser × Option Token :=
  match parser.accept ch with
  | (after, none) => (after, none)
  | (after, some token) => (after.settle token, some token)

theorem AtRest.pieceTokens {parser : Parser} (rest : parser.AtRest) (piece : List UInt8) :
    parser.pieceTokens piece true = terminatedTokens parser.promptEnabled piece ∧
      parser.pieceTokens piece false = promptTokens parser.promptEnabled piece := by
  simp [Parser.pieceTokens, rest.empty, rest.keeping, rest.unskipped, terminatedTokens]

theorem AtRest.restTokens {parser : Parser} (rest : parser.AtRest) (stream : List UInt8) :
    parser.restTokens stream = streamTokens parser.promptEnabled stream := by
  rw [Parser.restTokens, streamTokens]
  rcases pieces stream with ⟨_ | ⟨first, others⟩, last⟩
  · simp [rest.pieceTokens]
  · simp [rest.pieceTokens]

theorem next_promptEnabled (parser : Parser) (ch : UInt8) :
    (parser.next ch).1.promptEnabled = parser.promptEnabled := by
  have same := (parser.accept_enabled ch).1
  rw [next]
  rcases accepted : parser.accept ch with ⟨after, _ | token⟩ <;> rw [accepted] at same
  · exact same
  · exact (settle_enabled after token).trans same

theorem afterPrompt_of_ne {ch : UInt8} (other : ch ≠ 0x20) (rest : List UInt8) :
    afterPrompt (ch :: rest) = ch :: rest := by
  simp only [afterPrompt]
  split
  · rename_i equal
    exact absurd (List.cons.inj equal).1 other
  · rfl

/-- Bytes that no prompt starts with are left. -/
theorem strip_plain {promptEnabled : Bool} {ch : UInt8}
    (plain : ¬ (promptEnabled = true ∧ ch = promptSign)) (rest : List UInt8) :
    strip promptEnabled (ch :: rest) = (0, ch :: rest) := by
  cases promptEnabled with
  | false => rfl
  | true =>
      simp only [strip, ↓reduceIte]
      have other : ch ≠ 0x3E := fun same => plain ⟨rfl, same⟩
      unfold stripPrompts
      split
      · rename_i equal
        exact absurd (List.cons.inj equal).1 other
      · rename_i equal
        exact absurd (List.cons.inj equal).1 other
      · rfl

theorem strip_prompt (rest : List UInt8) :
    strip true (promptSign :: rest) =
      ((strip true (afterPrompt rest)).1 + 1, (strip true (afterPrompt rest)).2) := by
  simp only [strip, ↓reduceIte, promptSign, afterPrompt]
  split
  · rfl
  · rename_i other
    rw [stripPrompts]
    intro more equal
    exact other more equal

theorem lineTokens_long {line : List UInt8} (long : maxLineLength < line.length) :
    lineTokens line = [.lineOverflow] := by
  have nonempty : line ≠ [] := by
    rintro rfl
    cases long
  rw [lineTokens, if_neg nonempty, if_neg (by simp only [maxLineLength] at long; omega)]

/-- A byte of a piece for a parser that skips no space. -/
theorem next_unskipped {parser : Parser} (unskipped : parser.skipPromptSpace = false) {ch : UInt8}
    (plain : isLineEnd ch = false) (piece : List UInt8) (terminated : Bool) :
    parser.pieceTokens (ch :: piece) terminated =
      (parser.next ch).2.toList ++ (parser.next ch).1.pieceTokens piece terminated := by
  cases keeping : parser.discardingOverflow with
  | true => simp [pieceTokens, next, accept, plain, keeping, unskipped]
  | false =>
      by_cases prompt : parser.promptEnabled = true ∧ ch = promptSign ∧ parser.line = []
      · obtain ⟨enabled, rfl, empty⟩ := prompt
        have accepted := accept_prompt ⟨empty, keeping, unskipped⟩ enabled
        simp only [next, accepted, settle, pieceTokens, unskipped, keeping, empty, enabled,
          promptTokens, strip_prompt, Bool.false_eq_true, ↓reduceIte, Option.toList_some,
          List.replicate_succ, List.cons_append, List.nil_append]
      · by_cases room : (parser.line ++ [ch]).length ≤ maxLineLength
        · have accepted := accept_plain keeping unskipped plain prompt room
          simp only [next, accepted, Option.toList_none, List.nil_append, pieceTokens, withLine,
            unskipped, keeping, Bool.false_eq_true, ↓reduceIte, List.append_eq_nil_iff,
            List.cons_ne_self, and_false, List.append_assoc, List.singleton_append]
          by_cases empty : parser.line = []
          · have start : ¬ (parser.promptEnabled = true ∧ ch = promptSign) :=
              fun both => prompt ⟨both.1, both.2, empty⟩
            simp only [empty, ↓reduceIte, promptTokens, strip_plain start, List.replicate_zero,
              List.nil_append]
          · simp [empty]
        · have full : maxLineLength ≤ parser.line.length := by
            simp only [List.length_append, List.length_singleton] at room
            omega
          have accepted := accept_full keeping unskipped plain full
          have filled : parser.line ≠ [] := by
            intro empty
            rw [empty] at full
            cases full
          have long : maxLineLength < (parser.line ++ ch :: piece).length := by
            simp only [List.length_append, List.length_cons]
            omega
          simp [next, accepted, pieceTokens, clearLine, unskipped, keeping, filled,
            lineTokens_long long]

theorem next_plain {parser : Parser} {ch : UInt8} (plain : isLineEnd ch = false)
    (piece : List UInt8) (terminated : Bool) :
    parser.pieceTokens (ch :: piece) terminated =
      (parser.next ch).2.toList ++ (parser.next ch).1.pieceTokens piece terminated := by
  cases skip : parser.skipPromptSpace with
  | false => exact next_unskipped skip plain piece terminated
  | true =>
      obtain ⟨line, discarding, skipping, enabled, fits⟩ := parser
      cases skip
      by_cases space : ch = 0x20
      · subst space
        simp [pieceTokens, next, accept, afterPrompt]
      · have same := @next_unskipped ⟨line, discarding, false, enabled, fits⟩ rfl ch plain piece
          terminated
        have accepted := @accept_skipping ⟨line, discarding, false, enabled, fits⟩ ch space
        simp only [next, pieceTokens, accepted, afterPrompt_of_ne space] at same ⊢
        exact same

theorem next_end_unskipped {parser : Parser} (unskipped : parser.skipPromptSpace = false)
    {ch : UInt8} (ends : isLineEnd ch = true) :
    parser.pieceTokens [] true = (parser.next ch).2.toList ∧ (parser.next ch).1.AtRest := by
  cases keeping : parser.discardingOverflow with
  | true =>
      have accepted : parser.accept ch =
          ({ parser.clearLine with discardingOverflow := false }, some .lineOverflow) := by
        simp [accept, keeping, unskipped, ends, clearLine]
      simp only [next, accepted, settle, pieceTokens, keeping, ↓reduceIte, Option.toList_some,
        true_and]
      exact ⟨rfl, rfl, unskipped⟩
  | false =>
      by_cases empty : parser.line = []
      · have rest : parser.AtRest := ⟨empty, keeping, unskipped⟩
        have accepted := accept_blank ch rest ends
        simp only [next, accepted, rest.pieceTokens, Option.toList_none]
        refine ⟨?_, rest⟩
        cases parser.promptEnabled <;> rfl
      · have accepted := accept_end parser ch keeping unskipped empty ends
        have fits : parser.line.length ≤ 512 := parser.fits
        simp only [next, accepted, settle, pieceTokens, unskipped, keeping, empty, lineTokens, fits,
          List.append_nil, Bool.false_eq_true, ↓reduceIte, Option.toList_some, true_and]
        exact ⟨rfl, keeping, unskipped⟩

/-- A line end: the line is emitted and the next piece starts. -/
theorem next_end {parser : Parser} {ch : UInt8} (ends : isLineEnd ch = true) :
    parser.pieceTokens [] true = (parser.next ch).2.toList ∧ (parser.next ch).1.AtRest := by
  have notSpace : ch ≠ 0x20 := by
    rintro rfl
    revert ends
    decide
  cases skip : parser.skipPromptSpace with
  | false => exact next_end_unskipped skip ends
  | true =>
      obtain ⟨line, discarding, skipping, enabled, fits⟩ := parser
      cases skip
      have same := @next_end_unskipped ⟨line, discarding, false, enabled, fits⟩ rfl ch ends
      have accepted := @accept_skipping ⟨line, discarding, false, enabled, fits⟩ ch notSpace
      simp only [next, pieceTokens, accepted] at same ⊢
      exact same

theorem restTokens_nil (parser : Parser) : parser.restTokens [] = [] := by
  have noPrompt : promptTokens parser.promptEnabled [] = [] := by
    cases parser.promptEnabled <;> rfl
  simp [restTokens, pieces, pieceTokens, afterPrompt, noPrompt]

/-- One byte of a stream. -/
theorem restTokens_cons (parser : Parser) (ch : UInt8) (stream : List UInt8) :
    parser.restTokens (ch :: stream) =
      (parser.next ch).2.toList ++ (parser.next ch).1.restTokens stream := by
  cases ends : isLineEnd ch with
  | true =>
      obtain ⟨emitted, rest⟩ := @next_end parser ch ends
      rw [rest.restTokens, next_promptEnabled, ← emitted, restTokens, pieces, streamTokens]
      simp [ends]
  | false =>
      have step := @next_plain parser ch ends
      rw [restTokens, restTokens, pieces, next_promptEnabled]
      rcases pieces stream with ⟨_ | ⟨first, others⟩, last⟩
      · simp [ends, step]
      · simp [ends, step]

end Parser

section Feed

variable {κ : Type} (act : Token → κ → κ)

theorem octet_untouched (parser : Parser) (context : κ) (ch : UInt8) :
    (Parser.octet (untouched act) (parser, context) ch).run =
      ((parser.next ch).1, (parser.next ch).2.toList.foldl (fun context token => act token context)
        context) := by
  simp only [Parser.octet, Parser.next]
  rcases parser.accept ch with ⟨after, _ | token⟩
  · rfl
  · rfl

/-- A parser in any state emits the tokens of the rest of its stream. -/
theorem feed_untouched (stream : List UInt8) (parser : Parser) (context : κ) :
    (Parser.feed (untouched act) stream (parser, context)).run.2 =
      (parser.restTokens stream).foldl (fun context token => act token context) context := by
  induction stream generalizing parser context with
  | nil =>
      rw [parser.restTokens_nil]
      rfl
  | cons ch rest ih =>
      have step := octet_untouched act parser context ch
      rw [Parser.feed_cons, parser.restTokens_cons, List.foldl_append, Id.run_bind, step]
      exact ih _ _

/-- Calls for the parts are a call for the whole stream. -/
theorem feedParts_eq (parts : List (List UInt8)) (state : Parser × κ) :
    feedParts act parts state = (Parser.feed (untouched act) parts.flatten state).run := by
  induction parts generalizing state with
  | nil => rfl
  | cons part rest ih =>
      rw [feedParts, List.foldl_cons, List.flatten_cons, Parser.feed_append, Id.run_bind]
      exact ih _

/-- However a stream is cut into calls, the callback gets the tokens of the whole
stream in their order, and the line buffer holds at most 512 bytes. -/
theorem at_tokenisation (promptEnabled : Bool) (parts : List (List UInt8)) (context : κ) :
    (feedParts act parts (Parser.init.setPromptEnabled promptEnabled, context)).2 =
        (streamTokens promptEnabled parts.flatten).foldl (fun context token => act token context)
          context ∧
      (feedParts act parts (Parser.init.setPromptEnabled promptEnabled, context)).1.line.length ≤
        512 := by
  refine ⟨?_, Parser.fits _⟩
  have fresh : (Parser.init.setPromptEnabled promptEnabled).AtRest := ⟨rfl, rfl, rfl⟩
  rw [feedParts_eq, feed_untouched, fresh.restTokens]
  rfl

end Feed

/-- A prompt, a line with a prompt sign inside and an unfinished line. -/
example : streamTokens true [0x3E, 0x20, 0x41, 0x3E, 0x0D, 0x0A, 0x3E, 0x42] =
    [.prompt, .line [0x41, 0x3E], .prompt] := by
  decide

end SmsGateway.At
