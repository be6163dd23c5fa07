import Mathlib.Data.List.Basic
import SmsGateway.Modem.Status

/-! The registration lines of the modem: every answer to a query and every unsolicited
report is read back, whatever blanks stand before its fields. -/

namespace SmsGateway.Modem

open At

/-- The value of the C enumerator. -/
def RegistrationStatus.value : RegistrationStatus → Int
  | .unknown => -1
  | .notRegistered => 0
  | .home => 1
  | .searching => 2
  | .denied => 3
  | .unknownNetwork => 4
  | .roaming => 5

/-- `modem_status_parse_registration` with its out parameter: what it returns, and what it
leaves at `out`. -/
def parseRegistrationInto (line start : CStr) (out : Registration) : Bool × Registration :=
  if !line.startsWith start then (false, out)
  else match parseInt (line.bytes.drop start.length) with
    | none => (false, out)
    | some (first, cursor) =>
        let (status, cursor) := registrationStatus first cursor
        let act := accessTechnology cursor
        match registrationStatusOf status with
        | none => (false, out)
        | some status => (true, { out with status := status, accessTechnology := act })

theorem parseRegistrationInto_eq (line start : CStr) (out : Registration) :
    parseRegistrationInto line start out =
      match modemStatusParseRegistration line start with
      | none => (false, out)
      | some registration => (true, registration) := by
  unfold parseRegistrationInto modemStatusParseRegistration
  by_cases begins : line.startsWith start
  · simp only [begins, Bool.not_true, Bool.false_eq_true, ↓reduceIte]
    cases parseInt (line.bytes.drop start.length) with
    | none => rfl
    | some parsed =>
        simp only [Option.bind_eq_bind, Option.bind_some]
        cases registrationStatusOf (registrationStatus parsed.1 parsed.2).1 with
        | none => rfl
        | some status => rfl
  · simp [begins]

theorem parseRegistrationInto_refused {line start : CStr} {out : Registration}
    (refused : (parseRegistrationInto line start out).1 = false) :
    (parseRegistrationInto line start out).2 = out := by
  rw [parseRegistrationInto_eq] at refused ⊢
  cases parsed : modemStatusParseRegistration line start with
  | none => rfl
  | some registration =>
      rw [parsed] at refused
      cases refused

/-! ## Texts of the two forms -/

/-- Spaces and tabs. -/
structure Blanks where
  bytes : List UInt8
  blank : ∀ ch ∈ bytes, isBlank ch = true

/-- What stands between the quotes of a location or of a cell. -/
structure Quoted where
  bytes : List UInt8
  plain : ∀ ch ∈ bytes, ch ≠ quote ∧ ch ≠ comma ∧ ch ≠ 0

def Quoted.text (field : Quoted) : List UInt8 := quote :: field.bytes ++ [quote]

/-- `%d` of a number that is not negative. -/
def decimal (n : Nat) : List UInt8 := (Nat.toDigits 10 n).map fun digit => UInt8.ofNat digit.toNat

theorem digitByte {digit : Char} (range : digit.isDigit) :
    isDigit (UInt8.ofNat digit.toNat) = true ∧
      (UInt8.ofNat digit.toNat).toNat - 48 = digit.toNat - 48 := by
  have bounds : 48 ≤ digit.toNat ∧ digit.toNat ≤ 57 := Char.isDigit_iff_toNat.mp range
  have small : (UInt8.ofNat digit.toNat).toNat = digit.toNat :=
    UInt8.toNat_ofNat_of_lt' (Nat.lt_of_le_of_lt bounds.2 (by decide))
  refine ⟨?_, by rw [small]⟩
  simp only [isDigit, decide_eq_true_eq, UInt8.le_iff_toNat_le, small]
  exact bounds

theorem decimal_digit {n : Nat} {ch : UInt8} (member : ch ∈ decimal n) : isDigit ch = true := by
  obtain ⟨digit, present, rfl⟩ := List.mem_map.mp member
  exact (digitByte (Nat.isDigit_of_mem_toDigits (by decide) (by decide) present)).1

theorem decimal_leads (n : Nat) :
    ∃ digit digits, decimal n = digit :: digits ∧ isDigit digit = true := by
  have present : decimal n ≠ [] := by simp [decimal, Nat.toDigits_ne_nil]
  obtain ⟨digit, digits, shape⟩ := List.exists_cons_of_ne_nil present
  refine ⟨digit, digits, shape, decimal_digit (n := n) ?_⟩
  rw [shape]
  exact List.mem_cons_self

theorem decimal_value (n : Nat) :
    (decimal n).foldl (fun value ch => value * 10 + (ch.toNat - 48)) 0 = n := by
  calc (decimal n).foldl (fun value ch => value * 10 + (ch.toNat - 48)) 0
      = (Nat.toDigits 10 n).foldl (fun value digit => 10 * value + (digit.toNat - 48)) 0 := by
        rw [decimal, List.foldl_map]
        apply List.foldl_ext
        intro value digit member
        have range := Nat.isDigit_of_mem_toDigits (by decide) (by decide) member
        rw [(digitByte range).2, Nat.mul_comm]
    _ = Nat.ofDigitChars 10 (Nat.toDigits 10 n) 0 := Nat.ofDigitChars_eq_foldl.symm
    _ = n := Nat.ofDigitChars_ten_toDigits

theorem digit_ne {ch other : UInt8} (digit : isDigit ch = true) (apart : isDigit other = false) :
    ch ≠ other := by
  rintro rfl
  rw [digit] at apart
  cases apart

theorem digit_not_space {ch : UInt8} (digit : isDigit ch = true) :
    isSpace ch = false ∧ isBlank ch = false := by
  revert digit
  apply forall_octet (P := fun ch => isDigit ch = true → isSpace ch = false ∧ isBlank ch = false)
  decide +kernel

theorem Blanks.not_mem (blanks : Blanks) {ch : UInt8} (solid : isBlank ch = false) :
    ch ∉ blanks.bytes := by
  intro member
  rw [blanks.blank ch member] at solid
  cases solid

theorem decimal_not_mem (n : Nat) {ch : UInt8} (apart : isDigit ch = false) : ch ∉ decimal n :=
  fun member => digit_ne (decimal_digit member) apart rfl

theorem Quoted.not_mem (field : Quoted) {ch : UInt8} (outside : ch ∉ field.bytes)
    (apart : ch ≠ quote) : ch ∉ field.text := by
  simp [Quoted.text, outside, apart]

theorem Quoted.nul_not_mem (field : Quoted) : 0 ∉ field.text :=
  field.not_mem (fun inside => (field.plain 0 inside).2.2 rfl) (by decide)

theorem Quoted.comma_not_mem (field : Quoted) : comma ∉ field.text :=
  field.not_mem (fun inside => (field.plain comma inside).2.1 rfl) (by decide)

/-- `,"lac","ci"[,act]`. -/
structure CellFields where
  beforeLocation : Blanks
  location : Quoted
  beforeCell : Blanks
  cell : Quoted
  technology : Option (Blanks × Fin (2 ^ 31))

def technologyText : Option (Blanks × Fin (2 ^ 31)) → List UInt8
  | none => []
  | some (blanks, act) => comma :: (blanks.bytes ++ decimal act)

namespace CellFields

/-- From the quote of the location on. -/
def fromLocation (fields : CellFields) : List UInt8 :=
  fields.location.text ++ comma :: (fields.beforeCell.bytes ++ fields.cell.text ++
    technologyText fields.technology)

def text (fields : CellFields) : List UInt8 :=
  comma :: (fields.beforeLocation.bytes ++ fields.fromLocation)

theorem nul_not_mem (fields : CellFields) : 0 ∉ fields.text := by
  intro member
  simp only [text, fromLocation, List.mem_cons, List.mem_append] at member
  rcases member with isComma | inBlanks | inLocation | isComma | (inBlanks | inCell) | inTechnology
  · cases isComma
  · exact fields.beforeLocation.not_mem (by decide) inBlanks
  · exact fields.location.nul_not_mem inLocation
  · cases isComma
  · exact fields.beforeCell.not_mem (by decide) inBlanks
  · exact fields.cell.nul_not_mem inCell
  · cases form : fields.technology with
    | none => simp [form, technologyText] at inTechnology
    | some technology =>
        simp only [form, technologyText, List.mem_cons, List.mem_append] at inTechnology
        rcases inTechnology with isComma | inBlanks | inNumber
        · cases isComma
        · exact technology.1.not_mem (by decide) inBlanks
        · exact decimal_not_mem _ (by decide) inNumber

end CellFields

/-- A registration line behind its start. The query form has the mode in front, the
unsolicited form has none. -/
structure Report where
  mode : Option (Blanks × Fin 3)
  beforeStatus : Blanks
  status : Fin 6
  cell : Option CellFields

namespace Report

def modeText : Option (Blanks × Fin 3) → List UInt8
  | none => []
  | some (blanks, mode) => blanks.bytes ++ decimal mode ++ [comma]

def cellText (cell : Option CellFields) : List UInt8 := (cell.map CellFields.text).getD []

def bytes (report : Report) : List UInt8 :=
  modeText report.mode ++ (report.beforeStatus.bytes ++ (decimal report.status ++
    cellText report.cell))

theorem noNul (report : Report) : 0 ∉ report.bytes := by
  intro member
  simp only [bytes, List.mem_append] at member
  rcases member with inMode | inBlanks | inStatus | inCell
  · cases form : report.mode with
    | none => simp [form, modeText] at inMode
    | some query =>
        simp only [form, modeText, List.mem_append, List.mem_singleton] at inMode
        rcases inMode with (inBlanks | inNumber) | isComma
        · exact query.1.not_mem (by decide) inBlanks
        · exact decimal_not_mem _ (by decide) inNumber
        · cases isComma
  · exact report.beforeStatus.not_mem (by decide) inBlanks
  · exact decimal_not_mem _ (by decide) inStatus
  · cases form : report.cell with
    | none => simp [form, cellText] at inCell
    | some fields =>
        rw [form] at inCell
        exact fields.nul_not_mem inCell

def text (report : Report) : CStr := ⟨report.bytes, report.noNul⟩

/-- The access technology of the report, or -1. -/
def technology (report : Report) : Int :=
  match report.cell.bind (·.technology) with
  | none => -1
  | some (_, act) => act

end Report

/-! ## Numbers and blanks -/

theorem skipSpace_blanks (blanks : Blanks) (rest : List UInt8) :
    skipSpace (blanks.bytes ++ rest) = skipSpace rest :=
  List.dropWhile_append_of_pos blanks.blank

theorem skipSpace_cons {ch : UInt8} (solid : isBlank ch = false) (rest : List UInt8) :
    skipSpace (ch :: rest) = ch :: rest :=
  List.dropWhile_cons_of_neg (by simp [solid])

theorem skipSpace_comma (rest : List UInt8) : skipSpace (comma :: rest) = comma :: rest :=
  skipSpace_cons (by decide) rest

theorem skipSpace_quote (rest : List UInt8) : skipSpace (quote :: rest) = quote :: rest :=
  skipSpace_cons (by decide) rest

theorem skipSpace_decimal (n : Nat) (rest : List UInt8) :
    skipSpace (decimal n ++ rest) = decimal n ++ rest := by
  obtain ⟨digit, digits, shape, range⟩ := decimal_leads n
  rw [shape, List.cons_append, skipSpace_cons (digit_not_space range).2]

/-- A number ends where no digit follows. -/
def Stops (rest : List UInt8) : Prop := rest.takeWhile isDigit = []

theorem Stops.nil : Stops [] := rfl

theorem Stops.comma (rest : List UInt8) : Stops (comma :: rest) := rfl

theorem strtol_decimal {n : Nat} (range : (n : Int) ≤ longMax) {rest : List UInt8}
    (stops : Stops rest) : strtol (decimal n ++ rest) = some ((n : Int), rest) := by
  have run : (decimal n ++ rest).takeWhile isDigit = decimal n := by
    rw [List.takeWhile_append_of_pos (fun ch member => decimal_digit member), stops,
      List.append_nil]
  have value := decimal_value n
  obtain ⟨digit, digits, shape, first⟩ := decimal_leads n
  have present : decimal n ≠ [] := by
    rw [shape]
    exact List.cons_ne_nil _ _
  have kept : (decimal n ++ rest).dropWhile isSpace = decimal n ++ rest := by
    rw [shape, List.cons_append, List.dropWhile_cons_of_neg (by simp [digit_not_space first])]
  have leads : (decimal n ++ rest).head? = some digit := by
    rw [shape]
    rfl
  have clamped : max longMin (min longMax (n : Int)) = n := by
    have negative : longMin ≤ 0 := by decide
    omega
  have unsigned : (some digit == some (45 : UInt8)) = false := by
    simpa using digit_ne first (by decide)
  have plain : (some digit == some (43 : UInt8)) = false := by
    simpa using digit_ne first (by decide)
  simp only [strtol, kept, leads, unsigned, plain, Bool.or_self, Bool.false_eq_true, ↓reduceIte,
    run, value, clamped, List.isEmpty_iff, present, List.drop_left]

theorem parseInt_decimal (blanks : Blanks) {n : Nat} (range : (n : Int) ≤ longMax)
    {rest : List UInt8} (stops : Stops rest) :
    parseInt (blanks.bytes ++ (decimal n ++ rest)) = some ((n : Int), rest) := by
  have bounded : ¬ ((n : Int) < longMin ∨ (n : Int) > longMax) := by
    have negative : longMin ≤ 0 := by decide
    omega
  rw [parseInt, skipSpace_blanks, skipSpace_decimal, strtol_decimal range stops]
  exact if_neg bounded

/-! ## The fields of a line -/

theorem afterLastComma_append (front : List UInt8) {field : List UInt8} (last : comma ∉ field) :
    afterLastComma (front ++ comma :: field) = some field := by
  have present : comma ∈ front ++ comma :: field := by simp
  have all : ∀ ch ∈ field.reverse, decide (ch ≠ comma) = true := by
    intro ch member
    rw [decide_eq_true_eq]
    rintro rfl
    exact last (List.mem_reverse.mp member)
  have ends : (comma :: front.reverse).takeWhile (· ≠ comma) = [] := by simp
  have behind : (front ++ comma :: field).reverse.takeWhile (· ≠ comma) = field.reverse := by
    calc (front ++ comma :: field).reverse.takeWhile (· ≠ comma)
        = (field.reverse ++ comma :: front.reverse).takeWhile (· ≠ comma) := by
          rw [List.reverse_append, List.reverse_cons, List.append_assoc, List.singleton_append]
      _ = field.reverse := by
          rw [List.takeWhile_append_of_pos all, ends, List.append_nil]
  rw [afterLastComma, if_pos present, behind, List.reverse_reverse]

theorem parseInt_quoted (blanks : Blanks) (rest : List UInt8) :
    parseInt (blanks.bytes ++ quote :: rest) = none := by
  have nothing : strtol (quote :: rest) = none := rfl
  rw [parseInt, skipSpace_blanks, skipSpace_quote, nothing]

theorem range_technology (act : Fin (2 ^ 31)) : ((act : Nat) : Int) ≤ longMax := by
  have bound := act.isLt
  simp only [longMax]
  omega

/-- Whatever stands in front, the last field of a cell is its access technology, or no number. -/
theorem accessTechnology_cell (front : List UInt8) (fields : CellFields) :
    accessTechnology (front ++ fields.fromLocation) =
      match fields.technology with
      | none => -1
      | some (_, act) => ((act : Nat) : Int) := by
  rw [CellFields.fromLocation, ← List.append_assoc]
  cases fields.technology with
  | none =>
      have last : comma ∉ fields.beforeCell.bytes ++ fields.cell.text ++ technologyText none := by
        have blank : comma ∉ fields.beforeCell.bytes := fields.beforeCell.not_mem (by decide)
        simp [technologyText, blank, Quoted.comma_not_mem]
      rw [accessTechnology, afterLastComma_append _ last]
      simp only [technologyText, List.append_nil, Quoted.text, List.cons_append, parseInt_quoted]
  | some technology =>
      obtain ⟨blanks, act⟩ := technology
      have last : comma ∉ blanks.bytes ++ (decimal act ++ []) := by
        have blank : comma ∉ blanks.bytes := blanks.not_mem (by decide)
        have number : comma ∉ decimal act := decimal_not_mem act (by decide)
        simp [blank, number]
      have read := parseInt_decimal blanks (range_technology act) Stops.nil
      have split : front ++ fields.location.text ++ comma :: (fields.beforeCell.bytes ++
          fields.cell.text ++ technologyText (some (blanks, act))) =
          (front ++ fields.location.text ++ comma :: (fields.beforeCell.bytes ++
            fields.cell.text)) ++ comma :: (blanks.bytes ++ (decimal act ++ [])) := by
        simp [technologyText]
      rw [split, accessTechnology, afterLastComma_append _ last]
      simp only [read]
      rfl

theorem parseInt_status (blanks : Blanks) (status : Fin 6) (cell : Option CellFields) :
    parseInt (blanks.bytes ++ (decimal status ++ Report.cellText cell)) =
      some (((status : Nat) : Int), Report.cellText cell) := by
  have stops : Stops (Report.cellText cell) := by
    cases cell with
    | none => exact Stops.nil
    | some fields => exact Stops.comma _
  have range : ((status : Nat) : Int) ≤ longMax := by
    simp only [longMax]
    omega
  exact parseInt_decimal blanks range stops

theorem registrationStatus_query (mode : Fin 3) (blanks : Blanks) (status : Fin 6)
    (cell : Option CellFields) :
    registrationStatus (mode : Nat) (comma :: (blanks.bytes ++ (decimal status ++
      Report.cellText cell))) = (((status : Nat) : Int), Report.cellText cell) := by
  have read := parseInt_status ⟨[], by simp⟩ status cell
  obtain ⟨digit, digits, shape, first⟩ := decimal_leads status
  have unquoted : (decimal status ++ Report.cellText cell).head? ≠ some quote := by
    rw [shape, List.cons_append, List.head?_cons, ne_eq, Option.some.injEq]
    exact digit_ne first (by decide)
  have inRange : (0 : Int) ≤ (mode : Nat) ∧ ((mode : Nat) : Int) ≤ 2 ∧ (0 : Int) ≤ (status : Nat) ∧
      ((status : Nat) : Int) ≤ 5 := by omega
  rw [List.nil_append] at read
  simp only [registrationStatus, skipSpace_comma, skipSpace_blanks,
    skipSpace_decimal, ne_eq, not_true_eq_false, ↓reduceIte, unquoted, read]
  exact if_pos inRange

theorem registrationStatus_report (status : Fin 6) (cell : Option CellFields) :
    registrationStatus (status : Nat) (Report.cellText cell) =
      (((status : Nat) : Int), (cell.map CellFields.fromLocation).getD []) := by
  cases cell with
  | none => rfl
  | some fields =>
      simp only [registrationStatus, Report.cellText, Option.map_some, Option.getD_some,
        CellFields.text, skipSpace_comma, skipSpace_blanks,
        CellFields.fromLocation, Quoted.text, List.cons_append, skipSpace_quote, ne_eq, not_true_eq_false,
        ↓reduceIte, List.head?_cons]

theorem accessTechnology_report (report : Report) :
    accessTechnology (Report.cellText report.cell) = report.technology ∧
      accessTechnology ((report.cell.map CellFields.fromLocation).getD []) =
        report.technology := by
  rw [Report.technology]
  cases report.cell with
  | none => exact ⟨rfl, rfl⟩
  | some fields =>
      have behind := accessTechnology_cell (comma :: fields.beforeLocation.bytes) fields
      exact ⟨behind, accessTechnology_cell [] fields⟩

theorem registrationStatusOf_value (status : Fin 6) :
    ∃ named, registrationStatusOf (status : Nat) = some named ∧ named.value = (status : Nat) := by
  revert status
  decide

/-- What the parser has read before it looks at the range of the status. -/
theorem registrationStatus_bytes (report : Report) :
    ∃ first cursor tail, parseInt report.bytes = some (first, cursor) ∧
      registrationStatus first cursor = (((report.status : Nat) : Int), tail) ∧
      accessTechnology tail = report.technology := by
  have technologies := accessTechnology_report report
  cases form : report.mode with
  | none =>
      refine ⟨_, _, _, ?_, registrationStatus_report report.status report.cell, technologies.2⟩
      rw [Report.bytes, form]
      exact parseInt_status report.beforeStatus report.status report.cell
  | some query =>
      obtain ⟨blanks, mode⟩ := query
      have range : ((mode : Nat) : Int) ≤ longMax := by
        simp only [longMax]
        omega
      refine ⟨_, _, _, ?_, registrationStatus_query mode report.beforeStatus report.status
        report.cell, technologies.1⟩
      rw [Report.bytes, form, Report.modeText, List.append_assoc, List.append_assoc]
      exact parseInt_decimal blanks range (Stops.comma _)

theorem modemStatusParseRegistration_report (start : CStr) (report : Report) :
    ∃ status : RegistrationStatus, status.value = (report.status : Nat) ∧
      modemStatusParseRegistration (start ++ report.text) start =
        some ⟨status, report.technology⟩ := by
  obtain ⟨status, named, value⟩ := registrationStatusOf_value report.status
  obtain ⟨first, cursor, tail, number, read, technology⟩ := registrationStatus_bytes report
  have begins : (start ++ report.text).startsWith start = true := by simp [CStr.startsWith]
  have rest : (start ++ report.text).bytes.drop start.length = report.bytes :=
    List.drop_left
  refine ⟨status, value, ?_⟩
  simp only [modemStatusParseRegistration, begins, Bool.not_true, Bool.false_eq_true, ↓reduceIte,
    rest, number, Option.bind_eq_bind, Option.bind_some, read, named, technology]

/-- A registration line is read back in both forms, and a refused line leaves the output as
it was. -/
theorem registration_lines (line start : CStr) (report : Report) (out : Registration) :
    ((parseRegistrationInto (start ++ report.text) start out).1 = true ∧
      (parseRegistrationInto (start ++ report.text) start out).2.status.value =
        (report.status : Nat) ∧
      (parseRegistrationInto (start ++ report.text) start out).2.accessTechnology =
        report.technology) ∧
    ((parseRegistrationInto line start out).1 = false →
      (parseRegistrationInto line start out).2 = out) := by
  obtain ⟨status, value, parsed⟩ := modemStatusParseRegistration_report start report
  refine ⟨?_, parseRegistrationInto_refused⟩
  rw [parseRegistrationInto_eq, parsed]
  exact ⟨rfl, value, rfl⟩

/-- `+CREG: 2,1,"1A","2B",7` is read, `+CREG: 7` is refused. -/
theorem registration_lines_query :
    let report : Report :=
      ⟨some (⟨[32], by decide +kernel⟩, 2), ⟨[], by decide +kernel⟩, 1,
        some ⟨⟨[], by decide +kernel⟩, ⟨[0x31, 0x41], by decide +kernel⟩, ⟨[], by decide +kernel⟩,
          ⟨[0x32, 0x42], by decide +kernel⟩, some (⟨[], by decide +kernel⟩, 7)⟩⟩
    let out : Registration := ⟨.unknown, -1⟩
    CStr.text "+CREG:" ++ report.text = CStr.text "+CREG: 2,1,\"1A\",\"2B\",7" ∧
      (parseRegistrationInto (.text "+CREG:" ++ report.text) (.text "+CREG:") out).2.status.value
        = 1 ∧
      (parseRegistrationInto (.text "+CREG: 7") (.text "+CREG:") out).2 = out := by
  refine ⟨by decide +kernel, (registration_lines (.text "+CREG: 7") (.text "+CREG:") _ _).1.2.1,
    (registration_lines (.text "+CREG: 7") (.text "+CREG:") ?_ _).2 (by decide +kernel)⟩
  exact ⟨none, ⟨[], by decide +kernel⟩, 0, none⟩

end SmsGateway.Modem
