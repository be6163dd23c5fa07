import SmsGateway.Base

/-! The filter of the AT passthrough (`gateway_at_command_allowed` of `api_common.c`), and
the command lines whose prompt commands it does not see. -/

namespace SmsGateway.Api.AtFilter

/-- `toupper` in the C locale. -/
def toUpper (ch : UInt8) : UInt8 := if 0x61 ≤ ch ∧ ch ≤ 0x7A then ch - 0x20 else ch

/-- The terminator of the value differs from every character of the start. -/
def startsWithIgnoreCase : List UInt8 → List UInt8 → Bool
  | _, [] => true
  | [], _ :: _ => false
  | ch :: value, expected :: start =>
      if toUpper ch ≠ toUpper expected then false else startsWithIgnoreCase value start

/-- CR, LF and Ctrl-Z. -/
def lineEnds : List UInt8 := [0x0D, 0x0A, 0x1A]

/-- `strpbrk(command, accept) != NULL`. -/
def strpbrk (command : CStr) (accept : List UInt8) : Bool := command.bytes.any accept.contains

def gatewayAtCommandAllowed (command : CStr) (maxLength : Nat) : Bool :=
  if !startsWithIgnoreCase command.bytes (CStr.text "AT").bytes then false
  else if command.length ≥ maxLength ∨ strpbrk command lineEnds then false
  else !startsWithIgnoreCase command.bytes (CStr.text "AT+CMGS").bytes &&
    !startsWithIgnoreCase command.bytes (CStr.text "AT+CMGW").bytes

/-! ## What a command line asks of the modem -/

def space : UInt8 := 0x20

def semicolon : UInt8 := 0x3B

/-- A subcommand without its spaces and without its case. -/
def spelling (subcommand : List UInt8) : List UInt8 :=
  (subcommand.filter (· ≠ space)).map toUpper

/-- What stands between the separators behind the leading `AT`. -/
def subcommands (command : CStr) : List (List UInt8) := (command.bytes.drop 2).splitOn semicolon

/-- `+CMGS` and `+CMGW`. -/
def promptNames : List (List UInt8) := [(CStr.text "+CMGS").bytes, (CStr.text "+CMGW").bytes]

def OpensPrompt (subcommand : List UInt8) : Prop :=
  ∃ name ∈ promptNames, name <+: spelling subcommand

instance (subcommand : List UInt8) : Decidable (OpensPrompt subcommand) :=
  List.decidableBEx _ promptNames

/-- One line for the modem, which answers it without a prompt. -/
def Promptless (command : CStr) : Prop :=
  (∀ subcommand ∈ subcommands command, ¬ OpensPrompt subcommand) ∧
    ∀ ch ∈ lineEnds, ch ∉ command.bytes

/-- No prompt command stands behind a separator, and none in front has a space before or
inside its name. -/
def Exposed (command : CStr) : Prop :=
  (∀ subcommand ∈ (subcommands command).tail, ¬ OpensPrompt subcommand) ∧
    ∀ first ∈ (subcommands command).head?, OpensPrompt first → space ∉ first.take 5

/-! ## What the filter sees -/

theorem startsWithIgnoreCase_iff {value start : List UInt8} :
    startsWithIgnoreCase value start = true ↔ start.map toUpper <+: value.map toUpper := by
  induction start generalizing value with
  | nil => simp [startsWithIgnoreCase]
  | cons expected start ih =>
      cases value with
      | nil => simp [startsWithIgnoreCase]
      | cons ch value =>
          simp only [startsWithIgnoreCase, List.map_cons, List.cons_prefix_cons]
          by_cases same : toUpper ch = toUpper expected
          · rw [if_neg (by simpa using same), ih]
            exact ⟨fun rest => ⟨same.symm, rest⟩, fun both => both.2⟩
          · rw [if_pos same]
            exact ⟨nofun, fun both => absurd both.1.symm same⟩

structure Accepted (command : CStr) : Prop where
  leads : startsWithIgnoreCase command.bytes (CStr.text "AT").bytes = true
  clean : ∀ ch ∈ lineEnds, ch ∉ command.bytes
  unprompted : ∀ name ∈ promptNames,
    startsWithIgnoreCase command.bytes ((CStr.text "AT").bytes ++ name) = false

theorem accepted_of_allowed {command : CStr} {maxLength : Nat}
    (allowed : gatewayAtCommandAllowed command maxLength = true) : Accepted command := by
  simp only [gatewayAtCommandAllowed] at allowed
  split at allowed
  · cases allowed
  rename_i leads
  split at allowed
  · cases allowed
  rename_i clean
  obtain ⟨submit, write⟩ := (Bool.and_eq_true _ _).mp allowed
  refine ⟨by simpa using leads, fun ch listed present => clean (.inr ?_), ?_⟩
  · rw [strpbrk, List.any_eq_true]
    exact ⟨ch, present, by simpa using listed⟩
  · intro name listed
    simp only [promptNames, List.mem_cons, List.not_mem_nil, or_false] at listed
    rcases listed with rfl | rfl
    · exact (Bool.not_eq_true' _).mp submit
    · exact (Bool.not_eq_true' _).mp write

theorem take_filter {n : Nat} {text : List UInt8} (solid : space ∉ text.take n) :
    (text.filter (· ≠ space)).take n = text.take n := by
  induction text generalizing n with
  | nil => rfl
  | cons ch rest ih =>
      cases n with
      | zero => rfl
      | succ n =>
          rw [List.take_succ_cons, List.mem_cons, not_or] at solid
          have kept : decide (ch ≠ space) = true := decide_eq_true (Ne.symm solid.1)
          rw [List.filter_cons, if_pos kept, List.take_succ_cons, List.take_succ_cons, ih solid.2]

theorem promptName_length {name : List UInt8} (listed : name ∈ promptNames) : name.length = 5 := by
  simp only [promptNames, List.mem_cons, List.not_mem_nil, or_false] at listed
  rcases listed with rfl | rfl <;> decide

theorem promptName_upper {name : List UInt8} (listed : name ∈ promptNames) :
    name.map toUpper = name := by
  simp only [promptNames, List.mem_cons, List.not_mem_nil, or_false] at listed
  rcases listed with rfl | rfl <;> decide

/-- A name without a space in it is spelled as it stands. -/
theorem prompt_in_place {first name : List UInt8} (listed : name ∈ promptNames)
    (named : name <+: spelling first) (solid : space ∉ first.take 5) :
    name.map toUpper <+: first.map toUpper := by
  have letters : name = (first.map toUpper).take 5 := by
    calc name = (spelling first).take 5 := by
          rw [← promptName_length listed]
          exact List.prefix_iff_eq_take.mp named
      _ = (first.map toUpper).take 5 := by
          rw [spelling, ← List.map_take, take_filter solid, List.map_take]
  rw [promptName_upper listed, letters]
  exact List.take_prefix _ _

theorem splitOn_head {text first : List UInt8} {separator : UInt8}
    (head : first ∈ (text.splitOn separator).head?) : first <+: text := by
  induction text generalizing first with
  | nil =>
      cases head
      exact List.prefix_refl _
  | cons ch rest ih =>
      rw [List.splitOn_cons_eq_if_modifyHead] at head
      split at head
      · cases head
        exact List.nil_prefix
      · rw [List.head?_modifyHead, Option.mem_def, Option.map_eq_some_iff] at head
        obtain ⟨start, inRest, rfl⟩ := head
        exact List.cons_prefix_cons.mpr ⟨rfl, ih inRest⟩

theorem lead_of_accepted {command : CStr} (accepted : Accepted command) :
    command.bytes.map toUpper =
      (CStr.text "AT").bytes ++ (command.bytes.drop 2).map toUpper := by
  obtain ⟨rest, shape⟩ := startsWithIgnoreCase_iff.mp accepted.leads
  rw [List.map_drop, ← shape]
  rfl

/-- The first subcommand is a prompt command only in a spelling with spaces. -/
theorem first_not_prompt {command : CStr} (accepted : Accepted command) {first : List UInt8}
    (head : first ∈ (subcommands command).head?) (solid : OpensPrompt first → space ∉ first.take 5) :
    ¬ OpensPrompt first := by
  intro opens
  obtain ⟨name, listed, named⟩ := opens
  have inFirst := prompt_in_place listed named (solid ⟨name, listed, named⟩)
  have inLine : name.map toUpper <+: (command.bytes.drop 2).map toUpper :=
    inFirst.trans ((splitOn_head head).map toUpper)
  have seen : startsWithIgnoreCase command.bytes ((CStr.text "AT").bytes ++ name) = true := by
    rw [startsWithIgnoreCase_iff, lead_of_accepted accepted, List.map_append]
    exact (List.prefix_append_right_inj _).mpr inLine
  rw [accepted.unprompted name listed] at seen
  cases seen

/-- An accepted line opens no prompt exactly when none of its prompt commands stands behind
a separator or has a space before or in its name; it is one line in any case. -/
theorem passthrough_promptless {command : CStr} {maxLength : Nat}
    (allowed : gatewayAtCommandAllowed command maxLength = true) :
    Promptless command ↔ Exposed command := by
  have accepted := accepted_of_allowed allowed
  constructor
  · rintro ⟨none, -⟩
    refine ⟨fun subcommand later => none subcommand (List.mem_of_mem_tail later), ?_⟩
    intro first head opens
    exact absurd opens (none first (List.mem_of_mem_head? head))
  · rintro ⟨behind, front⟩
    refine ⟨?_, accepted.clean⟩
    intro subcommand member
    cases shape : subcommands command with
    | nil => simp [shape] at member
    | cons first later =>
        rw [shape] at behind front member
        rcases List.mem_cons.mp member with rfl | inLater
        · exact first_not_prompt accepted (by simp [shape]) (front _ rfl)
        · exact behind _ inLater

/-- Two queries in one line. -/
def twoQueries : CStr := .text "AT+CSQ;+creg?"

theorem passthrough_two_queries :
    gatewayAtCommandAllowed twoQueries 192 = true ∧ (Promptless twoQueries ↔ Exposed twoQueries) :=
  ⟨by decide, @passthrough_promptless twoQueries 192 (by decide)⟩

/-- A submission behind a query. -/
def trailingSubmit : CStr := .text "AT+CSQ;+CMGS=23"

theorem trailing_submit_accepted :
    gatewayAtCommandAllowed trailingSubmit 192 = true ∧ ¬ Promptless trailingSubmit := by
  refine ⟨by decide, fun promptless => ?_⟩
  exact promptless.1 (CStr.text "+CMGS=23").bytes (by decide +kernel) (by decide +kernel)

end SmsGateway.Api.AtFilter
