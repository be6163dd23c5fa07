import SmsGateway.Ota.Grammar

/-! The resource of one message (`parse_message_id` of `api_server.c`), and which texts it
takes for one. -/

namespace SmsGateway.Api.MessageUri

open Ota

/-- The sign that `strtoul` takes in front of the digits. -/
inductive Sign where
  | none
  | plus
  | minus
  deriving DecidableEq, Repr

def Sign.bytes : Sign → List UInt8
  | .none => []
  | .plus => [Ota.plus]
  | .minus => [hyphen]

def splitSign : List UInt8 → Sign × List UInt8
  | [] => (.none, [])
  | ch :: rest =>
      if ch = hyphen then (.minus, rest)
      else if ch = Ota.plus then (.plus, rest)
      else (.none, ch :: rest)

/-- The `unsigned long` of the digits: `ULONG_MAX` when they are out of range, and negated
behind a minus. -/
def convert (width : Nat) (sign : Sign) (magnitude : Nat) : Nat :=
  if ulongMax width < magnitude then ulongMax width
  else if sign = .minus then (2 ^ width - magnitude) % 2 ^ width
  else magnitude

/-- `strtoul(value, &end, 10)`: the number and what is left at `end`. -/
def strtoul (width : Nat) (value : List UInt8) : Nat × List UInt8 :=
  let (sign, digits) := splitSign (value.dropWhile isSpace)
  let run := digits.takeWhile isDigit
  if run = [] then (0, value)
  else (convert width sign (numeralValue run), digits.dropWhile isDigit)

def route : CStr := .text "/api/v1/messages/"

def retrySuffix : CStr := .text "/retry"

def uint32Max : Nat := 4294967295

/-- The id and whether the text ends in the retry action; nothing when it returns false. -/
def parseMessageId (uri : CStr) : Option (UInt32 × Bool) :=
  if !uri.startsWith route then none
  else
    let p := uri.bytes.drop route.length
    let (value, rest) := strtoul ulongWidth p
    if value = 0 ∨ value > uint32Max ∨ rest = p then none
    else
      let retry := decide (rest = retrySuffix.bytes)
      if rest ≠ [] ∧ !retry then none
      else some (UInt32.ofNat value, retry)

/-! ## What a resource is -/

/-- Nothing, or the retry action. -/
def tail (retry : Bool) : List UInt8 := if retry then retrySuffix.bytes else []

/-- Digits behind the route whose value is an id, and at most the retry action behind them. -/
def MessageResource (uri : CStr) (id : UInt32) (retry : Bool) : Prop :=
  ∃ digits, digits ≠ [] ∧ (∀ ch ∈ digits, isDigit ch = true) ∧
    1 ≤ numeralValue digits ∧ numeralValue digits ≤ 2 ^ 32 - 1 ∧
    uri.bytes = route.bytes ++ (digits ++ tail retry) ∧ id.toNat = numeralValue digits

/-- What `strtoul` takes for a number. -/
structure Number where
  spaces : List UInt8
  sign : Sign
  digits : List UInt8
  allSpace : ∀ ch ∈ spaces, isSpace ch = true
  someDigit : digits ≠ []
  allDigit : ∀ ch ∈ digits, isDigit ch = true

namespace Number

def text (number : Number) : List UInt8 := number.spaces ++ (number.sign.bytes ++ number.digits)

def magnitude (number : Number) : Nat := numeralValue number.digits

/-- Nothing stands in front of the digits. -/
def Bare (number : Number) : Prop := number.spaces = [] ∧ number.sign = .none

end Number

/-- A number other than zero, written with blanks or a sign or too large for an id. -/
def Misread (uri : CStr) : Prop :=
  ∃ (number : Number) (retry : Bool),
    uri.bytes = route.bytes ++ (number.text ++ tail retry) ∧ number.magnitude ≠ 0 ∧
      (¬ number.Bare ∨ 2 ^ 32 ≤ number.magnitude)

/-! ## The numbers of `strtoul` -/

theorem digit_kind {ch : UInt8} (digit : isDigit ch = true) :
    isSpace ch = false ∧ ch ≠ hyphen ∧ ch ≠ Ota.plus := by
  revert digit
  exact forall_octet (P := fun ch => isDigit ch = true →
    isSpace ch = false ∧ ch ≠ hyphen ∧ ch ≠ Ota.plus) (by decide +kernel) ch

theorem takeWhile_digits {digits rest : List UInt8} (all : ∀ ch ∈ digits, isDigit ch = true)
    (stops : rest.takeWhile isDigit = []) : (digits ++ rest).takeWhile isDigit = digits := by
  rw [List.takeWhile_append_of_pos all, stops, List.append_nil]

theorem dropWhile_digits {digits rest : List UInt8} (all : ∀ ch ∈ digits, isDigit ch = true)
    (stops : rest.takeWhile isDigit = []) : (digits ++ rest).dropWhile isDigit = rest := by
  rw [List.dropWhile_append_of_pos all]
  have split := List.takeWhile_append_dropWhile (p := isDigit) (l := rest)
  rwa [stops, List.nil_append] at split

theorem tail_stops (retry : Bool) : (tail retry).takeWhile isDigit = [] := by
  cases retry <;> decide

theorem splitSign_spec (text : List UInt8) :
    text = (splitSign text).1.bytes ++ (splitSign text).2 := by
  cases text with
  | nil => rfl
  | cons ch rest =>
      simp only [splitSign]
      split
      · rename_i minus
        rw [minus]
        rfl
      · split
        · rename_i plus
          rw [plus]
          rfl
        · rfl

theorem splitSign_digits (sign : Sign) {digits : List UInt8} (some : digits ≠ [])
    (all : ∀ ch ∈ digits, isDigit ch = true) (rest : List UInt8) :
    splitSign (sign.bytes ++ (digits ++ rest)) = (sign, digits ++ rest) := by
  cases sign with
  | plus => rfl
  | minus => rfl
  | none =>
      obtain ⟨first, more, rfl⟩ := List.exists_cons_of_ne_nil some
      have kind := digit_kind (all first List.mem_cons_self)
      simp [Sign.bytes, splitSign, kind.2.1, kind.2.2]

theorem dropWhile_signed (sign : Sign) {digits : List UInt8} (some : digits ≠ [])
    (all : ∀ ch ∈ digits, isDigit ch = true) (rest : List UInt8) :
    (sign.bytes ++ (digits ++ rest)).dropWhile isSpace = sign.bytes ++ (digits ++ rest) := by
  cases sign with
  | plus => rfl
  | minus => rfl
  | none =>
      obtain ⟨first, more, rfl⟩ := List.exists_cons_of_ne_nil some
      have kind := digit_kind (all first List.mem_cons_self)
      exact List.dropWhile_cons_of_neg (by simp [kind.1])

/-- A number is read as a whole when no digit follows it. -/
theorem strtoul_number (width : Nat) (number : Number) {rest : List UInt8}
    (stops : rest.takeWhile isDigit = []) :
    strtoul width (number.text ++ rest) = (convert width number.sign number.magnitude, rest) := by
  have skipped : (number.text ++ rest).dropWhile isSpace =
      number.sign.bytes ++ (number.digits ++ rest) := by
    rw [Number.text, List.append_assoc, List.dropWhile_append_of_pos number.allSpace,
      List.append_assoc, dropWhile_signed number.sign number.someDigit number.allDigit]
  simp only [strtoul, skipped, splitSign_digits number.sign number.someDigit number.allDigit,
    takeWhile_digits number.allDigit stops, dropWhile_digits number.allDigit stops,
    if_neg number.someDigit]
  rfl

/-- Where `strtoul` moves its end, it has read a number. -/
theorem strtoul_moves {width : Nat} {text : List UInt8} (moved : (strtoul width text).2 ≠ text) :
    ∃ number : Number, text = number.text ++ (strtoul width text).2 := by
  have spaces := List.takeWhile_append_dropWhile (p := isSpace) (l := text)
  have signed := splitSign_spec (text.dropWhile isSpace)
  generalize splitAs : splitSign (text.dropWhile isSpace) = split at signed
  have digits := List.takeWhile_append_dropWhile (p := isDigit) (l := split.2)
  simp only [strtoul, splitAs] at moved ⊢
  by_cases none : split.2.takeWhile isDigit = []
  · rw [if_pos none] at moved
    exact absurd rfl moved
  · rw [if_neg none]
    refine ⟨⟨text.takeWhile isSpace, split.1, split.2.takeWhile isDigit, ?_, none, ?_⟩, ?_⟩
    · exact fun ch member => List.mem_takeWhile_imp member
    · exact fun ch member => List.mem_takeWhile_imp member
    · calc text = text.takeWhile isSpace ++ (split.1.bytes ++ split.2) := by
            rw [← signed, spaces]
        _ = _ := by
            rw [Number.text, List.append_assoc, List.append_assoc, digits]

theorem ulongMax_target : ulongMax ulongWidth = 4294967295 := rfl

theorem ulongRange_target : 2 ^ ulongWidth = 4294967296 := rfl

theorem convert_le (sign : Sign) (magnitude : Nat) :
    convert ulongWidth sign magnitude ≤ uint32Max := by
  rw [convert, ulongMax_target, ulongRange_target, uint32Max]
  split
  · exact Nat.le_refl _
  · split <;> omega

/-- The check for zero refuses the zero only. -/
theorem convert_eq_zero (sign : Sign) (magnitude : Nat) :
    convert ulongWidth sign magnitude = 0 ↔ magnitude = 0 := by
  rw [convert, ulongMax_target, ulongRange_target]
  split
  · omega
  · split <;> omega

theorem convert_bare {magnitude : Nat} (fits : magnitude ≤ 2 ^ 32 - 1) :
    convert ulongWidth .none magnitude = magnitude := by
  rw [convert, ulongMax_target, if_neg (by omega), if_neg (by decide)]

/-! ## Which texts are accepted -/

theorem Number.text_ne_nil (number : Number) : number.text ≠ [] := by
  simp [Number.text, number.someDigit]

/-- Every number other than zero is accepted, however it is written. -/
theorem parseMessageId_number {uri : CStr} (number : Number) (retry : Bool)
    (shape : uri.bytes = route.bytes ++ (number.text ++ tail retry))
    (positive : number.magnitude ≠ 0) :
    parseMessageId uri =
      some (UInt32.ofNat (convert ulongWidth number.sign number.magnitude), retry) := by
  have begins : uri.startsWith route = true := by
    rw [CStr.startsWith, shape, List.isPrefixOf_iff_prefix]
    exact List.prefix_append _ _
  have behind : uri.bytes.drop route.length = number.text ++ tail retry := by
    rw [shape]
    exact List.drop_left
  have moved : tail retry ≠ number.text ++ tail retry := by
    intro same
    have lengths := congrArg List.length same
    have nonempty := List.length_pos_iff.mpr number.text_ne_nil
    rw [List.length_append] at lengths
    omega
  have valid : ¬ (convert ulongWidth number.sign number.magnitude = 0 ∨
      convert ulongWidth number.sign number.magnitude > uint32Max ∨
      tail retry = number.text ++ tail retry) := by
    rintro (zero | large | same)
    · exact positive ((convert_eq_zero _ _).mp zero)
    · exact absurd (convert_le number.sign number.magnitude) (Nat.not_le.mpr large)
    · exact moved same
  simp only [parseMessageId, begins, behind, strtoul_number _ number (tail_stops retry)]
  rw [if_neg (by decide), if_neg valid]
  cases retry with
  | false => rfl
  | true => rfl

/-- Nothing else is. -/
theorem parseMessageId_shape {uri : CStr} {id : UInt32} {retry : Bool}
    (parsed : parseMessageId uri = some (id, retry)) :
    ∃ number : Number, uri.bytes = route.bytes ++ (number.text ++ tail retry) ∧
      number.magnitude ≠ 0 := by
  simp only [parseMessageId] at parsed
  split at parsed
  · cases parsed
  rename_i begins
  split at parsed
  · cases parsed
  rename_i valid
  split at parsed
  · cases parsed
  rename_i ended
  obtain ⟨front, whole⟩ : route.bytes <+: uri.bytes := by
    rw [← List.isPrefixOf_iff_prefix]
    simpa [CStr.startsWith] using begins
  have behind : uri.bytes.drop route.length = front := by
    rw [← whole]
    exact List.drop_left
  rw [behind] at parsed valid ended
  obtain ⟨number, shape⟩ := strtoul_moves fun same => valid (.inr (.inr same))
  have last : (strtoul ulongWidth front).2 = tail retry := by
    obtain ⟨-, rfl⟩ := Prod.mk.inj (Option.some.inj parsed)
    by_cases retries : (strtoul ulongWidth front).2 = retrySuffix.bytes
    · simp [tail, retries]
    · simp only [tail, retries]
      simpa [retries] using ended
  rw [last] at shape
  refine ⟨number, by rw [← whole, shape], fun zero => valid (.inl ?_)⟩
  rw [shape, strtoul_number _ number (tail_stops retry)]
  exact (convert_eq_zero _ _).mpr zero

theorem resource_parsed {uri : CStr} {id : UInt32} {retry : Bool}
    (resource : MessageResource uri id retry) : parseMessageId uri = some (id, retry) := by
  obtain ⟨digits, someDigit, allDigit, positive, fits, shape, value⟩ := resource
  let number : Number := ⟨[], .none, digits, nofun, someDigit, allDigit⟩
  have read := parseMessageId_number number retry shape (Nat.ne_of_gt positive)
  have same : convert ulongWidth number.sign number.magnitude = id.toNat := by
    rw [value]
    exact convert_bare fits
  rw [read, same, UInt32.ofNat_toNat]

/-- The digits of a text behind the route are determined by it. -/
theorem bare_of_digits {number : Number} {digits : List UInt8} {retry action : Bool}
    (someDigit : digits ≠ []) (allDigit : ∀ ch ∈ digits, isDigit ch = true)
    (same : number.text ++ tail retry = digits ++ tail action) :
    number.Bare ∧ number.digits = digits := by
  have spaces : number.spaces = [] := by
    obtain ⟨first, more, rfl⟩ := List.exists_cons_of_ne_nil someDigit
    have solid := (digit_kind (allDigit first List.mem_cons_self)).1
    cases leading : number.spaces with
    | nil => rfl
    | cons space rest =>
        have blank := number.allSpace space (by simp [leading])
        rw [Number.text, leading] at same
        have first := (List.cons.inj same).1
        rw [first, solid] at blank
        cases blank
  rw [Number.text, spaces, List.nil_append, List.append_assoc] at same
  have signs := splitSign_digits number.sign number.someDigit number.allDigit (tail retry)
  have bare := splitSign_digits .none someDigit allDigit (tail action)
  rw [same] at signs
  rw [Sign.bytes, List.nil_append, signs] at bare
  obtain ⟨sign, text⟩ := Prod.mk.inj bare
  have runs := congrArg (List.takeWhile isDigit) text
  rw [takeWhile_digits number.allDigit (tail_stops retry),
    takeWhile_digits allDigit (tail_stops action)] at runs
  exact ⟨⟨spaces, sign⟩, runs⟩

theorem misread_not_resource {uri : CStr} (misread : Misread uri) :
    ∃ id retry, parseMessageId uri = some (id, retry) ∧ ¬ MessageResource uri id retry := by
  obtain ⟨number, retry, shape, positive, written⟩ := misread
  refine ⟨_, retry, parseMessageId_number number retry shape positive, ?_⟩
  rintro ⟨digits, someDigit, allDigit, -, fits, other, -⟩
  rw [shape] at other
  obtain ⟨bare, same⟩ := bare_of_digits someDigit allDigit (List.append_cancel_left other)
  rcases written with decorated | large
  · exact decorated bare
  · rw [Number.magnitude, same] at large
    omega

/-- The parser is exact on every text but the misread ones: blanks, a sign, or a number
that `strtoul` cuts to `ULONG_MAX`. -/
theorem message_uri_exact (uri : CStr) :
    (∀ id retry, parseMessageId uri = some (id, retry) ↔ MessageResource uri id retry) ↔
      ¬ Misread uri := by
  constructor
  · intro exact misread
    obtain ⟨id, retry, parsed, refused⟩ := misread_not_resource misread
    exact refused ((exact id retry).mp parsed)
  · intro plain id retry
    refine ⟨fun parsed => ?_, resource_parsed⟩
    obtain ⟨number, shape, positive⟩ := parseMessageId_shape parsed
    have bare : number.Bare := by
      by_contra decorated
      exact plain ⟨number, retry, shape, positive, .inl decorated⟩
    have fits : number.magnitude ≤ 2 ^ 32 - 1 := by
      have small : ¬ 2 ^ 32 ≤ number.magnitude := fun large =>
        plain ⟨number, retry, shape, positive, .inr large⟩
      omega
    have read := parseMessageId_number number retry shape positive
    rw [parsed, bare.2, convert_bare fits] at read
    have value := (Prod.mk.inj (Option.some.inj read)).1
    refine ⟨number.digits, number.someDigit, number.allDigit, Nat.pos_of_ne_zero positive, fits,
      ?_, ?_⟩
    · rw [shape, Number.text, bare.1, bare.2]
      rfl
    · rw [value]
      exact UInt32.toNat_ofNat_of_lt' (Nat.lt_of_le_of_lt fits (by decide))

/-- An id one past the last: the text is taken for the last id. -/
def pastTheLast : CStr := .text "/api/v1/messages/4294967296"

theorem past_the_last_accepted :
    parseMessageId pastTheLast = some (4294967295, false) ∧
      ¬ MessageResource pastTheLast 4294967295 false := by
  refine ⟨by decide +kernel, ?_⟩
  rintro ⟨digits, -, allDigit, -, fits, shape, -⟩
  have run := congrArg (fun bytes => (bytes.drop route.length).takeWhile isDigit) shape
  have behind : (route.bytes ++ (digits ++ tail false)).drop route.length = digits ++ tail false :=
    List.drop_left
  simp only [behind, takeWhile_digits allDigit (tail_stops false)] at run
  rw [← run] at fits
  exact absurd fits (by decide +kernel)

end SmsGateway.Api.MessageUri
