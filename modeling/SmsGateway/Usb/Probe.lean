import SmsGateway.Base

/-! The answer to an AT probe (`cdc_rx_callback` while `probing` is set).

The line has room for 31 characters. A character that does not fit is dropped
together with the line before it. -/

namespace SmsGateway.Usb

def carriageReturn : UInt8 := 0x0D
def lineFeed : UInt8 := 0x0A

/-- `probe_line` up to `probe_line_len`, with room for the terminator. -/
structure ProbeLine where
  bytes : List UInt8
  room : bytes.length < 32
  deriving DecidableEq, Repr

namespace ProbeLine

def empty : ProbeLine := ⟨[], by decide⟩

def push (line : ProbeLine) (ch : UInt8) : ProbeLine :=
  if fits : line.bytes.length + 1 < 32 then ⟨line.bytes ++ [ch], by simpa using fits⟩
  else empty

/-- `strcmp(probe_line, "OK") == 0`, with the terminator behind the line. -/
def isOk (line : ProbeLine) : Bool := CStr.ofBytes line.bytes == CStr.text "OK"

end ProbeLine

/-- One turn of the loop: the line and `found_ok`. -/
def probeByte : ProbeLine × Bool → UInt8 → ProbeLine × Bool
  | (line, foundOk), ch =>
      if ch = carriageReturn then (line, foundOk)
      else if ch = lineFeed then (.empty, foundOk || line.isOk)
      else (line.push ch, foundOk)

/-- One call of the callback. -/
def probeData (line : ProbeLine) (data : List UInt8) : ProbeLine × Bool :=
  data.foldl probeByte (line, false)

/-- What the calls for some pieces of the stream find. -/
def probeStream : ProbeLine → List (List UInt8) → List Bool
  | _, [] => []
  | line, data :: rest => (probeData line data).2 :: probeStream (probeData line data).1 rest

/-- The lines that end in a stream. -/
noncomputable def endedLines (stream : List UInt8) : List (List UInt8) :=
  ((stream.filter (· ≠ carriageReturn)).splitOn lineFeed).dropLast

/-- What is left of a line when every 32nd character takes the ones before it along. -/
def lastBlock (line : List UInt8) : List UInt8 := line.drop (32 * (line.length / 32))

theorem lastBlock_snoc (line : List UInt8) (ch : UInt8) :
    lastBlock (line ++ [ch]) =
      if (lastBlock line).length + 1 < 32 then lastBlock line ++ [ch] else [] := by
  have size : (lastBlock line).length = line.length % 32 := by
    rw [lastBlock, List.length_drop]
    omega
  rw [size]
  have total : (line ++ [ch]).length = line.length + 1 := by simp
  split
  · rename_i fits
    have same : (line.length + 1) / 32 = line.length / 32 := by omega
    rw [lastBlock, total, same, List.drop_append_of_le_length (by omega), lastBlock]
  · rename_i full
    have whole : 32 * ((line.length + 1) / 32) = line.length + 1 := by omega
    rw [lastBlock, total, whole]
    simp

/-- The line holds what is left of the characters that arrived since the last line
feed. -/
structure ProbeLine.Holds (line : ProbeLine) (arrived : List UInt8) : Prop where
  bytes : line.bytes = lastBlock arrived
  open_ : lineFeed ∉ arrived

theorem ProbeLine.Holds.empty : ProbeLine.empty.Holds [] := ⟨rfl, by simp⟩

theorem ProbeLine.Holds.push {line : ProbeLine} {arrived : List UInt8} {ch : UInt8}
    (holds : line.Holds arrived) (inside : ch ≠ lineFeed) :
    (line.push ch).Holds (arrived ++ [ch]) := by
  refine ⟨?_, ?_⟩
  · rw [lastBlock_snoc, ← holds.bytes, ProbeLine.push]
    split
    · rfl
    · rfl
  · simp only [List.mem_append, List.mem_singleton, not_or]
    exact ⟨holds.open_, inside.symm⟩

/-- The answer is in this line. -/
def Answers (line : List UInt8) : Prop := CStr.ofBytes (lastBlock line) = CStr.text "OK"

theorem ProbeLine.Holds.isOk_iff {line : ProbeLine} {arrived : List UInt8}
    (holds : line.Holds arrived) : line.isOk = true ↔ Answers arrived := by
  rw [ProbeLine.isOk, beq_iff_eq, holds.bytes, Answers]

/-- The lines of a stream that starts inside a line. -/
theorem endedLines_split {arrived rest : List UInt8} (open_ : lineFeed ∉ arrived) :
    ((arrived ++ lineFeed :: rest).splitOn lineFeed).dropLast =
      arrived :: (rest.splitOn lineFeed).dropLast := by
  rw [List.splitOn_eq_splitOnP, List.splitOnP_append_cons_of_forall_mem, List.dropLast_cons_of_ne_nil
    (List.splitOnP_ne_nil _ _)]
  · rfl
  · intro ch member
    rw [beq_eq_false_iff_ne]
    rintro rfl
    exact open_ member
  · exact beq_self_eq_true _

/-- The loop over a piece of the stream. -/
theorem probeByte_foldl (data : List UInt8) {line : ProbeLine} {arrived : List UInt8}
    (holds : line.Holds arrived) (foundOk : Bool) :
    (data.foldl probeByte (line, foundOk)).2 = true ↔
      foundOk = true ∨ ∃ ended ∈ ((arrived ++ data.filter (· ≠ carriageReturn)).splitOn
        lineFeed).dropLast, Answers ended := by
  induction data generalizing line arrived foundOk with
  | nil =>
      rw [List.filter_nil, List.append_nil, List.splitOn_eq_singleton holds.open_]
      simp
  | cons ch rest ih =>
      rw [List.foldl_cons, probeByte]
      by_cases isReturn : ch = carriageReturn
      · rw [if_pos isReturn, ih holds, List.filter_cons_of_neg (by simp [isReturn])]
      · rw [if_neg isReturn, List.filter_cons_of_pos (by simp [isReturn])]
        by_cases isFeed : ch = lineFeed
        · subst isFeed
          rw [if_pos rfl, ih .empty, endedLines_split holds.open_, Bool.or_eq_true, or_assoc,
            holds.isOk_iff, List.nil_append]
          simp only [List.mem_cons, exists_eq_or_imp]
        · rw [if_neg isFeed, ih (holds.push isFeed)]
          simp only [List.append_assoc, List.singleton_append]

/-- Pieces one after another are one piece. -/
theorem probeStream_any (pieces : List (List UInt8)) (line : ProbeLine) :
    true ∈ probeStream line pieces ↔ (probeData line pieces.flatten).2 = true := by
  have carried (data : List UInt8) (line : ProbeLine) (foundOk : Bool) :
      data.foldl probeByte (line, foundOk) =
        ((data.foldl probeByte (line, false)).1,
          foundOk || (data.foldl probeByte (line, false)).2) := by
    induction data generalizing line foundOk with
    | nil => simp
    | cons ch rest ih =>
        rw [List.foldl_cons, List.foldl_cons]
        simp only [probeByte]
        split
        · exact ih line foundOk
        · split
          · rw [ih _ (foundOk || _), ih _ (false || _)]
            simp [Bool.or_assoc]
          · exact ih _ foundOk
  induction pieces generalizing line with
  | nil => simp [probeStream, probeData]
  | cons data rest ih =>
      calc
        true ∈ probeStream line (data :: rest) ↔
            (probeData line data).2 = true ∨
              (probeData (probeData line data).1 rest.flatten).2 = true := by
          rw [probeStream, List.mem_cons]
          exact or_congr eq_comm (ih _)
        _ ↔ (probeData line (data :: rest).flatten).2 = true := by
          rw [List.flatten_cons, probeData, probeData, probeData, List.foldl_append]
          obtain ⟨between, foundOk⟩ := data.foldl probeByte (line, false)
          rw [carried rest.flatten between foundOk, Bool.or_eq_true]

/-- However the bytes of the modem are cut into pieces, the probe is answered if and
only if, without its carriage returns, a line ends whose characters behind the last
whole block of 32 spell OK before any NUL. -/
theorem probe_answered_iff (pieces : List (List UInt8)) :
    true ∈ probeStream .empty pieces ↔ ∃ line ∈ endedLines pieces.flatten, Answers line := by
  rw [probeStream_any, probeData, probeByte_foldl _ .empty]
  simp [endedLines]

end SmsGateway.Usb
