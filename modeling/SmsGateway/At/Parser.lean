import SmsGateway.Base

/-! The tokens of the modem's byte stream (`at_parser.c`). -/

namespace SmsGateway.At

/-- `at_token_t`; a line is given by its bytes. -/
inductive Token where
  | line (bytes : List UInt8)
  | prompt
  | lineOverflow
  deriving DecidableEq, Repr

def maxLineLength : Nat := 512

/-- `at_parser_t`: the unfinished line and the mode flags. -/
structure Parser where
  line : List UInt8
  discardingOverflow : Bool
  skipPromptSpace : Bool
  promptEnabled : Bool
  fits : line.length ≤ maxLineLength
  deriving DecidableEq, Repr

namespace Parser

/-- `at_parser_init` and `at_parser_reset`. -/
def init : Parser := ⟨[], false, false, false, Nat.zero_le _⟩

def setPromptEnabled (parser : Parser) (enabled : Bool) : Parser :=
  { parser with
    promptEnabled := enabled
    skipPromptSpace := parser.skipPromptSpace && enabled }

/-- The parser with nothing in its line buffer. -/
def clearLine (parser : Parser) : Parser := { parser with line := [], fits := Nat.zero_le _ }

end Parser

def carriageReturn : UInt8 := 0x0D

def lineFeed : UInt8 := 0x0A

def promptSign : UInt8 := 0x3E

def isLineEnd (ch : UInt8) : Bool := ch == carriageReturn || ch == lineFeed

namespace Parser

/-- One pass of the loop of `at_parser_feed` up to the callback: the parser that the
callback sees and the token it is given, if there is one. -/
def accept (parser : Parser) (ch : UInt8) : Parser × Option Token :=
  let unskipped := { parser with skipPromptSpace := false }
  if parser.skipPromptSpace && ch == 0x20 then (unskipped, none)
  else if parser.discardingOverflow then
    if isLineEnd ch then
      ({ unskipped.clearLine with discardingOverflow := false }, some .lineOverflow)
    else (unskipped, none)
  else if isLineEnd ch then
    if parser.line.isEmpty then (unskipped, none) else (unskipped, some (.line parser.line))
  else if parser.promptEnabled && ch == promptSign && parser.line.isEmpty then
    (unskipped, some .prompt)
  else if room : parser.line.length < maxLineLength then
    ({ unskipped with
      line := parser.line ++ [ch]
      fits := by rw [List.length_append]; exact room }, none)
  else ({ unskipped.clearLine with discardingOverflow := true }, none)

/-- The rest of the pass once the callback has returned. -/
def settle (parser : Parser) : Token → Parser
  | .line _ => parser.clearLine
  | .prompt => { parser with skipPromptSpace := true }
  | .lineOverflow => parser

variable {m : Type → Type} [Monad m] {κ : Type}

/-- One pass of the loop. The callback may change the parser it is called from. -/
def octet (callback : Token → Parser × κ → m (Parser × κ)) (state : Parser × κ) (ch : UInt8) :
    m (Parser × κ) :=
  match state.1.accept ch with
  | (parser, none) => pure (parser, state.2)
  | (parser, some token) => do
      let after ← callback token (parser, state.2)
      pure (after.1.settle token, after.2)

/-- `at_parser_feed`. -/
def feed (callback : Token → Parser × κ → m (Parser × κ)) (data : List UInt8)
    (state : Parser × κ) : m (Parser × κ) :=
  data.foldlM (octet callback) state

/-- Between two lines. -/
structure AtRest (parser : Parser) : Prop where
  empty : parser.line = []
  keeping : parser.discardingOverflow = false
  unskipped : parser.skipPromptSpace = false

/-- The parser with these bytes of a line. -/
def withLine (parser : Parser) (bytes : List UInt8) (fits : bytes.length ≤ maxLineLength) : Parser :=
  { parser with line := bytes, fits := fits }

/-- A byte of a line that no prompt starts with. -/
theorem accept_plain {parser : Parser} {ch : UInt8} (keeping : parser.discardingOverflow = false)
    (unskipped : parser.skipPromptSpace = false) (plain : isLineEnd ch = false)
    (noPrompt : ¬ (parser.promptEnabled = true ∧ ch = promptSign ∧ parser.line = []))
    (fits : (parser.line ++ [ch]).length ≤ maxLineLength) :
    parser.accept ch = (parser.withLine (parser.line ++ [ch]) fits, none) := by
  have room : parser.line.length < maxLineLength := by
    rw [List.length_append] at fits
    exact fits
  have open' : (parser.promptEnabled && ch == promptSign && parser.line.isEmpty) = false := by
    simpa [and_assoc] using noPrompt
  simp [accept, keeping, unskipped, plain, open', room, withLine]

/-- A byte too many starts an overflow. -/
theorem accept_full {parser : Parser} {ch : UInt8} (keeping : parser.discardingOverflow = false)
    (unskipped : parser.skipPromptSpace = false) (plain : isLineEnd ch = false)
    (full : maxLineLength ≤ parser.line.length) :
    parser.accept ch = ({ parser.clearLine with discardingOverflow := true }, none) := by
  obtain ⟨line, discarding, skip, prompt, fits⟩ := parser
  cases keeping
  cases unskipped
  have filled : line.isEmpty = false := by
    cases line with
    | nil => cases full
    | cons _ _ => rfl
  simp only [accept, plain, filled, Bool.and_false, Bool.false_eq_true, ↓reduceIte,
    Nat.not_lt.mpr full, dite_false]
  rfl

theorem accept_prompt {parser : Parser} (rest : parser.AtRest)
    (enabled : parser.promptEnabled = true) :
    parser.accept promptSign = (parser, some .prompt) := by
  obtain ⟨line, discarding, skip, prompt, fits⟩ := parser
  obtain ⟨rfl, rfl, rfl⟩ := rest
  cases enabled
  rfl

theorem accept_end (parser : Parser) (ch : UInt8) (keeping : parser.discardingOverflow = false)
    (unskipped : parser.skipPromptSpace = false) (filled : parser.line ≠ [])
    (ends : isLineEnd ch = true) : parser.accept ch = (parser, some (.line parser.line)) := by
  obtain ⟨line, discarding, skip, prompt, fits⟩ := parser
  cases keeping
  cases unskipped
  simp [accept, ends, filled]

theorem accept_blank {parser : Parser} (ch : UInt8) (rest : parser.AtRest)
    (ends : isLineEnd ch = true) : parser.accept ch = (parser, none) := by
  obtain ⟨line, discarding, skip, prompt, fits⟩ := parser
  obtain ⟨rfl, rfl, rfl⟩ := rest
  simp [accept, ends]

theorem accept_enabled (parser : Parser) (ch : UInt8) :
    (parser.accept ch).1.promptEnabled = parser.promptEnabled ∧
      ((parser.accept ch).2 = some .prompt → parser.promptEnabled = true) := by
  unfold accept clearLine
  repeat' split
  all_goals simp_all

theorem settle_enabled (parser : Parser) (token : Token) :
    (parser.settle token).promptEnabled = parser.promptEnabled := by
  cases token <;> rfl

variable {callback : Token → Parser × κ → m (Parser × κ)}

theorem feed_cons (ch : UInt8) (rest : List UInt8) (state : Parser × κ) :
    feed callback (ch :: rest) state = octet callback state ch >>= feed callback rest := rfl

theorem octet_silent {parser after : Parser} {ch : UInt8} (accepted : parser.accept ch = (after, none))
    (context : κ) : octet callback (parser, context) ch = pure (after, context) := by
  simp only [octet, accepted]

/-- The bytes of a line after a prompt. -/
def afterPrompt : List UInt8 → List UInt8
  | 0x20 :: rest => rest
  | bytes => bytes

theorem accept_skipping {parser : Parser} {ch : UInt8} (other : ch ≠ 0x20) :
    ({ parser with skipPromptSpace := true } : Parser).accept ch =
      ({ parser with skipPromptSpace := false } : Parser).accept ch := by
  simp [accept, other]

variable [LawfulMonad m]

theorem feed_append (first last : List UInt8) (state : Parser × κ) :
    feed callback (first ++ last) state = feed callback first state >>= feed callback last :=
  List.foldlM_append

/-- Bytes of one line only extend the line. -/
theorem feed_plain (callback : Token → Parser × κ → m (Parser × κ)) {bytes : List UInt8}
    {parser : Parser} (keeping : parser.discardingOverflow = false)
    (unskipped : parser.skipPromptSpace = false)
    (plain : ∀ ch ∈ bytes, isLineEnd ch = false)
    (noPrompt : ¬ (parser.promptEnabled = true ∧ bytes.head? = some promptSign ∧ parser.line = []))
    (fits : (parser.line ++ bytes).length ≤ maxLineLength) (context : κ) :
    feed callback bytes (parser, context) =
      pure (parser.withLine (parser.line ++ bytes) fits, context) := by
  induction bytes generalizing parser with
  | nil =>
      have same : parser.withLine (parser.line ++ []) fits = parser := by
        obtain ⟨line, discarding, skip, prompt, bound⟩ := parser
        simp [withLine]
      rw [same]
      rfl
  | cons ch rest ih =>
      have short : (parser.line ++ [ch]).length ≤ maxLineLength := by
        simp only [List.length_append, List.length_cons, List.length_nil] at fits ⊢
        omega
      have accepted := accept_plain keeping unskipped (plain ch List.mem_cons_self)
        (by simpa using noPrompt) short
      have later : ((parser.line ++ [ch]) ++ rest).length ≤ maxLineLength := by simpa using fits
      have fed := @ih (parser.withLine (parser.line ++ [ch]) short) keeping unskipped
        (fun other member => plain other (List.mem_cons_of_mem _ member)) (by simp [withLine]) later
      rw [feed_cons, octet_silent accepted, pure_bind, fed]
      simp [withLine]

/-- One space after a prompt is no part of the line. -/
theorem feed_skipping (callback : Token → Parser × κ → m (Parser × κ)) (bytes : List UInt8)
    (filled : bytes ≠ []) (parser : Parser) (context : κ) :
    feed callback bytes ({ parser with skipPromptSpace := true }, context) =
      feed callback (afterPrompt bytes) ({ parser with skipPromptSpace := false }, context) := by
  obtain ⟨ch, rest, rfl⟩ := List.exists_cons_of_ne_nil filled
  by_cases space : ch = 0x20
  · subst space
    have skipped : ({ parser with skipPromptSpace := true } : Parser).accept 0x20 =
        ({ parser with skipPromptSpace := false }, none) := by
      simp [accept]
    rw [feed_cons, octet_silent skipped, pure_bind]
    rfl
  · have same : afterPrompt (ch :: rest) = ch :: rest := by
      simp only [afterPrompt]
      split
      · rename_i equal
        exact absurd (List.cons.inj equal).1 space
      · rfl
    rw [same, feed_cons, feed_cons]
    simp only [octet, accept_skipping space]

end Parser

end SmsGateway.At
