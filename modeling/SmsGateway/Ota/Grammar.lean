import SmsGateway.Lib.Numerals
import SmsGateway.Ota.Version

/-! Semantic versions as the SemVer 2.0.0 grammar has them, and that `parse_semver`
accepts these. -/

namespace SmsGateway.Ota

/-- Digits without a leading zero. -/
def Numeral (digits : List UInt8) : Prop :=
  digits ≠ [] ∧ (∀ ch ∈ digits, isDigit ch = true) ∧ (digits.head? = some 0x30 → digits = [0x30])

instance (digits : List UInt8) : Decidable (∀ ch ∈ digits, isDigit ch = true) :=
  List.decidableBAll _ digits

instance (digits : List UInt8) : Decidable (Numeral digits) :=
  inferInstanceAs (Decidable (_ ∧ _ ∧ _))

def digitValue (ch : UInt8) : Nat := ch.toNat - 0x30

def numeralValue (digits : List UInt8) : Nat := Lib.positional 10 (digits.map digitValue)

/-- Some of `[0-9A-Za-z-]`. -/
def Identifier (identifier : List UInt8) : Prop :=
  identifier ≠ [] ∧ ∀ ch ∈ identifier, isAlnum ch = true ∨ ch = hyphen

instance (identifier : List UInt8) :
    Decidable (∀ ch ∈ identifier, isAlnum ch = true ∨ ch = hyphen) :=
  List.decidableBAll _ identifier

instance (identifier : List UInt8) : Decidable (Identifier identifier) :=
  inferInstanceAs (Decidable (_ ∧ _))

/-- Identifiers with a dot between any two. -/
def dotted (identifiers : List (List UInt8)) : List UInt8 := [dot].intercalate identifiers

/-- A mark with identifiers behind it, or nothing. -/
def marked (mark : UInt8) (identifiers : List (List UInt8)) : List UInt8 :=
  if identifiers = [] then [] else mark :: dotted identifiers

/-- A semantic version. No identifiers mean that the part and its mark are absent. -/
structure SemanticVersion where
  major : List UInt8
  minor : List UInt8
  patch : List UInt8
  pre : List (List UInt8)
  build : List (List UInt8)
  majorNumeral : Numeral major
  minorNumeral : Numeral minor
  patchNumeral : Numeral patch
  preIdentifiers : ∀ identifier ∈ pre, Identifier identifier
  preNumerals : ∀ identifier ∈ pre, (∀ ch ∈ identifier, isDigit ch = true) → Numeral identifier
  buildIdentifiers : ∀ identifier ∈ build, Identifier identifier

namespace SemanticVersion

def text (version : SemanticVersion) : List UInt8 :=
  version.major ++ dot :: (version.minor ++ dot :: (version.patch ++
    (marked hyphen version.pre ++ marked plus version.build)))

/-- The three numbers fit this width. -/
def Fits (width : Nat) (version : SemanticVersion) : Prop :=
  numeralValue version.major < 2 ^ width ∧ numeralValue version.minor < 2 ^ width ∧
    numeralValue version.patch < 2 ^ width

/-- The numbers and the prerelease of the text. -/
def semver (version : SemanticVersion) : Semver where
  major := numeralValue version.major
  minor := numeralValue version.minor
  patch := numeralValue version.patch
  pre := dotted version.pre

end SemanticVersion

/-! Numbers. -/

/-- The number after more digits. -/
def extend (out : Nat) (digits : List UInt8) : Nat :=
  digits.foldl (fun value ch => value * 10 + digitValue ch) out

theorem extend_zero (digits : List UInt8) : extend 0 digits = numeralValue digits := by
  rw [numeralValue, Lib.positional, Nat.ofDigits_eq_foldr, List.foldr_reverse, List.foldl_map]
  simp only [extend, Nat.cast_id]
  congr 1
  funext value ch
  omega

theorem le_extend (out : Nat) (digits : List UInt8) : out ≤ extend out digits := by
  induction digits generalizing out with
  | nil => exact Nat.le_refl out
  | cons ch rest ih =>
      have later := ih (out * 10 + digitValue ch)
      simp only [extend, List.foldl_cons] at later ⊢
      omega

theorem digitValue_le {ch : UInt8} (digit : isDigit ch = true) : digitValue ch ≤ 9 := by
  have upper : ch.toNat ≤ 0x39 := by
    simp only [isDigit, decide_eq_true_eq] at digit
    exact UInt8.le_iff_toNat_le.mp digit.2
  simp only [digitValue]
  omega

/-- The guard of the loop refuses exactly the numbers that do not fit. -/
theorem overflow_guard {width out digit : Nat} (wide : 32 ≤ width) (small : digit ≤ 9) :
    out > (ulongMax width - digit) / 10 ↔ 2 ^ width ≤ out * 10 + digit := by
  have large : 2 ^ 32 ≤ 2 ^ width := Nat.pow_le_pow_right (by decide) wide
  simp only [ulongMax]
  omega

theorem numberLoop_sound {width out value : Nat} {cursor rest : List UInt8} (wide : 32 ≤ width)
    (fits : out < 2 ^ width) (parsed : numberLoop width out cursor = some (value, rest)) :
    ∃ digits, cursor = digits ++ rest ∧ (∀ ch ∈ digits, isDigit ch = true) ∧
      rest.head?.any isDigit = false ∧ value = extend out digits ∧ value < 2 ^ width := by
  induction cursor generalizing out with
  | nil =>
      cases parsed
      exact ⟨[], rfl, nofun, rfl, rfl, fits⟩
  | cons ch more ih =>
      simp only [numberLoop] at parsed
      cases digit : isDigit ch with
      | false =>
          rw [digit] at parsed
          cases parsed
          exact ⟨[], rfl, nofun, by simpa using digit, rfl, fits⟩
      | true =>
          rw [digit, if_pos rfl] at parsed
          split at parsed
          · cases parsed
          · rename_i room
            have fits : out * 10 + digitValue ch < 2 ^ width := by
              have guard := @overflow_guard width out _ wide (digitValue_le digit)
              exact Nat.lt_of_not_le fun beyond => room (guard.mpr beyond)
            obtain ⟨digits, rfl, all, stopped, counted, bounded⟩ := ih fits parsed
            refine ⟨ch :: digits, rfl, ?_, stopped, counted, bounded⟩
            simpa [digit] using all

theorem numberLoop_complete {width out : Nat} {digits rest : List UInt8} (wide : 32 ≤ width)
    (all : ∀ ch ∈ digits, isDigit ch = true) (stopped : rest.head?.any isDigit = false)
    (bounded : extend out digits < 2 ^ width) :
    numberLoop width out (digits ++ rest) = some (extend out digits, rest) := by
  induction digits generalizing out with
  | nil =>
      cases rest with
      | nil => rfl
      | cons ch more =>
          have digit : isDigit ch = false := by simpa using stopped
          simp [numberLoop, digit, extend]
  | cons ch more ih =>
      have digit := all ch List.mem_cons_self
      have room : ¬ out > (ulongMax width - digitValue ch) / 10 := by
        rw [overflow_guard wide (digitValue_le digit)]
        have later := le_extend (out * 10 + digitValue ch) more
        simp only [extend, List.foldl_cons] at later bounded
        omega
      simp only [digitValue] at room
      simp only [List.cons_append, numberLoop, digit, ↓reduceIte]
      rw [if_neg room]
      exact ih (fun ch member => all ch (List.mem_cons_of_mem _ member)) bounded

/-- Numbers are the numerals that fit, up to a byte that is no digit. -/
theorem parseNumber_iff {width value : Nat} {cursor rest : List UInt8} (wide : 32 ≤ width) :
    parseNumber width cursor = some (value, rest) ↔
      ∃ digits, cursor = digits ++ rest ∧ Numeral digits ∧ rest.head?.any isDigit = false ∧
        value = numeralValue digits ∧ value < 2 ^ width := by
  constructor
  · intro parsed
    cases cursor with
    | nil => cases parsed
    | cons ch more =>
        simp only [parseNumber] at parsed
        split at parsed
        · cases parsed
        · rename_i digit
          split at parsed
          · cases parsed
          · rename_i leading
            obtain ⟨digits, split, all, stopped, counted, bounded⟩ :=
              numberLoop_sound wide (Nat.two_pow_pos width) parsed
            rw [extend_zero] at counted
            refine ⟨digits, split, ⟨?_, all, ?_⟩, stopped, counted, bounded⟩
            · rintro rfl
              rw [List.nil_append] at split
              rw [← split, List.head?_cons, Option.any_some] at stopped
              rw [stopped] at digit
              exact digit rfl
            · intro zero
              cases digits with
              | nil => cases zero
              | cons first others =>
                  obtain ⟨rfl, rfl⟩ := List.cons.inj split
                  cases others with
                  | nil => simpa using zero
                  | cons second others =>
                      have next := all second (by simp)
                      simp only [List.head?_cons, Option.some.injEq] at zero
                      exact absurd ⟨zero, by simpa using next⟩ leading
  · rintro ⟨digits, rfl, ⟨nonempty, all, leading⟩, stopped, rfl, bounded⟩
    cases digits with
    | nil => exact absurd rfl nonempty
    | cons ch more =>
        have digit := all ch List.mem_cons_self
        have single : ¬ (ch = 0x30 ∧ (more ++ rest).head?.any isDigit = true) := by
          rintro ⟨rfl, next⟩
          cases leading rfl
          rw [List.nil_append, stopped] at next
          cases next
        simp only [List.cons_append, parseNumber, digit, Bool.not_true, Bool.false_eq_true,
          ↓reduceIte]
        rw [if_neg single, ← extend_zero]
        rw [← extend_zero] at bounded
        exact numberLoop_complete wide all stopped bounded

/-! Identifiers. -/

@[simp] theorem dotted_nil : dotted [] = [] := rfl

@[simp] theorem dotted_singleton (identifier : List UInt8) : dotted [identifier] = identifier :=
  List.intercalate_singleton

@[simp] theorem dotted_cons_cons (first second : List UInt8) (others : List (List UInt8)) :
    dotted (first :: second :: others) = first ++ dot :: dotted (second :: others) := by
  simp [dotted, List.intercalate_cons_cons]

theorem validIdentifierChar_iff (ch : UInt8) :
    validIdentifierChar ch = true ↔ isAlnum ch = true ∨ ch = hyphen := by
  simp [validIdentifierChar]

/-- The bytes of identifiers are no dot and no plus. -/
theorem validIdentifierChar_ne {ch : UInt8} (valid : validIdentifierChar ch = true) :
    ch ≠ dot ∧ ch ≠ plus := by
  constructor
  · rintro rfl
    revert valid
    decide
  · rintro rfl
    revert valid
    decide

/-- Text that a scan passes: its first identifier may be empty behind a valid byte. -/
structure Passed (previousDot : Bool) (passed : List UInt8) (first : List UInt8)
    (others : List (List UInt8)) : Prop where
  joined : passed = dotted (first :: others)
  valid : ∀ ch ∈ first, validIdentifierChar ch = true
  started : previousDot = true → first ≠ []
  identifiers : ∀ identifier ∈ others, Identifier identifier

theorem Passed.named {passed first : List UInt8} {others : List (List UInt8)}
    (text : Passed true passed first others) :
    ∀ identifier ∈ first :: others, Identifier identifier := by
  intro identifier member
  rcases List.mem_cons.mp member with rfl | member
  · refine ⟨text.started rfl, fun ch inside => ?_⟩
    exact (validIdentifierChar_iff ch).mp (text.valid ch inside)
  · exact text.identifiers identifier member

theorem passed_cons {ch : UInt8} {scan : Option (List UInt8 × List UInt8)}
    {passed rest : List UInt8}
    (scanned : scan.map (fun (passed, cursor) => (ch :: passed, cursor)) = some (passed, rest)) :
    ∃ behind, passed = ch :: behind ∧ scan = some (behind, rest) := by
  obtain ⟨⟨behind, cursor⟩, found, same⟩ := Option.map_eq_some_iff.mp scanned
  obtain ⟨rfl, rfl⟩ := Prod.mk.inj same
  exact ⟨behind, rfl, found⟩

theorem scanIdentifiers_sound {stop : UInt8 → Bool} {previousDot : Bool}
    {cursor passed rest : List UInt8}
    (scanned : scanIdentifiers stop previousDot cursor = some (passed, rest)) :
    cursor = passed ++ rest ∧ (∀ ch ∈ rest.head?, stop ch = true) ∧
      ∃ first others, Passed previousDot passed first others := by
  induction cursor generalizing previousDot passed with
  | nil =>
      simp only [scanIdentifiers] at scanned
      cases previousDot with
      | true => cases scanned
      | false =>
          cases scanned
          exact ⟨rfl, nofun, [], [], by simp, nofun, nofun, nofun⟩
  | cons ch more ih =>
      simp only [scanIdentifiers] at scanned
      by_cases stopped : stop ch = true
      · rw [if_pos stopped] at scanned
        cases previousDot with
        | true => cases scanned
        | false =>
            cases scanned
            refine ⟨rfl, ?_, [], [], by simp, nofun, nofun, nofun⟩
            intro other here
            cases here
            exact stopped
      · rw [if_neg stopped] at scanned
        by_cases isDot : ch = dot
        · rw [if_pos isDot] at scanned
          cases previousDot with
          | true => cases scanned
          | false =>
              obtain ⟨behind, rfl, tail⟩ := passed_cons scanned
              obtain ⟨rfl, ended, first, others, later⟩ := ih tail
              refine ⟨rfl, ended, [], first :: others, ?_, nofun, nofun, later.named⟩
              rw [dotted_cons_cons, later.joined, isDot, List.nil_append]
        · rw [if_neg isDot] at scanned
          cases valid : validIdentifierChar ch with
          | false =>
              rw [valid] at scanned
              cases scanned
          | true =>
              rw [valid] at scanned
              obtain ⟨behind, rfl, tail⟩ := passed_cons scanned
              obtain ⟨rfl, ended, first, others, later⟩ := ih tail
              refine ⟨rfl, ended, ch :: first, others, ?_, ?_, nofun, later.identifiers⟩
              · rw [later.joined]
                cases others <;> simp
              · intro other member
                rcases List.mem_cons.mp member with rfl | member
                · exact valid
                · exact later.valid other member

/-- Valid bytes are passed, and the scan goes on behind them. -/
theorem scanIdentifiers_valid {stop : UInt8 → Bool} {first more passed rest : List UInt8}
    (valid : ∀ ch ∈ first, validIdentifierChar ch = true)
    (free : ∀ ch ∈ first, stop ch = false)
    (scanned : scanIdentifiers stop false more = some (passed, rest)) :
    scanIdentifiers stop false (first ++ more) = some (first ++ passed, rest) := by
  induction first with
  | nil => exact scanned
  | cons ch others ih =>
      have here := valid ch List.mem_cons_self
      have later := ih (fun ch member => valid ch (List.mem_cons_of_mem _ member))
        (fun ch member => free ch (List.mem_cons_of_mem _ member))
      simp only [List.cons_append, scanIdentifiers, free ch List.mem_cons_self,
        (validIdentifierChar_ne here).1, here, Bool.not_true, Bool.false_eq_true, ↓reduceIte,
        later, Option.map_some]

/-- Behind a valid byte it does not matter what was before it. -/
theorem scanIdentifiers_start {stop : UInt8 → Bool} {ch : UInt8} (more : List UInt8)
    (valid : validIdentifierChar ch = true) (free : stop ch = false) (previousDot : Bool) :
    scanIdentifiers stop previousDot (ch :: more) = scanIdentifiers stop false (ch :: more) := by
  simp only [scanIdentifiers, free, (validIdentifierChar_ne valid).1, Bool.false_eq_true, ↓reduceIte]

theorem Identifier.valid {identifier : List UInt8} (named : Identifier identifier) :
    ∀ ch ∈ identifier, validIdentifierChar ch = true := by
  intro ch member
  exact (validIdentifierChar_iff ch).mpr (named.2 ch member)

theorem Identifier.noDot {identifier : List UInt8} (named : Identifier identifier) :
    dot ∉ identifier := by
  intro member
  exact (validIdentifierChar_ne (named.valid dot member)).1 rfl

theorem scanIdentifiers_complete {stop : UInt8 → Bool} {identifiers : List (List UInt8)}
    {rest : List UInt8}
    (free : ∀ ch, validIdentifierChar ch = true ∨ ch = dot → stop ch = false)
    (named : ∀ identifier ∈ identifiers, Identifier identifier) (nonempty : identifiers ≠ [])
    (ended : ∀ ch ∈ rest.head?, stop ch = true) :
    scanIdentifiers stop true (dotted identifiers ++ rest) =
      some (dotted identifiers, rest) := by
  induction identifiers with
  | nil => exact absurd rfl nonempty
  | cons first others ih =>
      have here := named first List.mem_cons_self
      have valid := here.valid
      have behind : scanIdentifiers stop false
          ((dotted (first :: others)).drop first.length ++ rest) =
            some ((dotted (first :: others)).drop first.length, rest) := by
        cases others with
        | nil =>
            cases rest with
            | nil => simp [scanIdentifiers]
            | cons ch more =>
                have stopped := ended ch rfl
                simp [scanIdentifiers, stopped]
        | cons second others =>
            have later := ih (fun identifier member => named identifier
              (List.mem_cons_of_mem _ member)) nofun
            simp [scanIdentifiers, free dot (.inr rfl), later]
      have split : dotted (first :: others) =
          first ++ (dotted (first :: others)).drop first.length := by
        cases others <;> simp
      have whole := scanIdentifiers_valid valid
        (fun ch member => free ch (.inl (valid ch member))) behind
      rw [← List.append_assoc, ← split] at whole
      cases first with
      | nil => exact absurd rfl here.1
      | cons ch chars =>
          rw [split] at whole ⊢
          have start := valid ch List.mem_cons_self
          rw [List.cons_append, List.cons_append, scanIdentifiers_start _ start (free ch (.inl start))]
          exact whole

/-! The cursors of the loops over a dotted list. -/

theorem takeWhile_noDot {first : List UInt8} (noDot : dot ∉ first) (others : List UInt8) :
    (first ++ dot :: others).takeWhile (· ≠ dot) = first := by
  rw [List.takeWhile_append_of_pos]
  · simp
  · intro ch member
    simp only [ne_eq, decide_eq_true_eq]
    rintro rfl
    exact noDot member

theorem firstIdentifier_dotted {first : List UInt8} {others : List (List UInt8)}
    (noDot : dot ∉ first) : firstIdentifier (dotted (first :: others)) = (first, dotted others) := by
  cases others with
  | nil =>
      have whole : first.takeWhile (· ≠ dot) = first := by
        rw [List.takeWhile_eq_self_iff]
        intro ch member
        simp only [ne_eq, decide_eq_true_eq]
        rintro rfl
        exact noDot member
      simp only [firstIdentifier, dotted_singleton, whole, dotted_nil, Prod.mk.injEq, true_and]
      exact List.drop_eq_nil_of_le (by omega)
  | cons second others =>
      simp only [firstIdentifier, dotted_cons_cons, takeWhile_noDot noDot, Prod.mk.injEq, true_and]
      rw [List.drop_append, List.drop_eq_nil_of_le (by omega)]
      simp

theorem dotted_ne_nil {first : List UInt8} (others : List (List UInt8)) (nonempty : first ≠ []) :
    dotted (first :: others) ≠ [] := by
  cases others <;> simp [nonempty]

/-- Of identifiers, the second pass refuses numbers with a leading zero. -/
theorem leading_zero_iff {identifier : List UInt8} (named : Identifier identifier) :
    (identifier = [] ∨ identifier.all isDigit = true ∧ 1 < identifier.length ∧
        identifier.head? = some 0x30) ↔
      ¬ ((∀ ch ∈ identifier, isDigit ch = true) → Numeral identifier) := by
  rw [or_iff_right named.1, List.all_eq_true]
  constructor
  · rintro ⟨digits, long, zero⟩ numeral
    have single := (numeral digits).2.2 zero
    simp [single] at long
  · intro refused
    rw [Classical.not_imp] at refused
    obtain ⟨digits, refused⟩ := refused
    have zero : identifier.head? = some 0x30 ∧ identifier ≠ [0x30] := by
      by_contra fine
      refine refused ⟨named.1, digits, fun zero => ?_⟩
      by_contra other
      exact fine ⟨zero, other⟩
    refine ⟨digits, ?_, zero.1⟩
    match identifier, zero with
    | [ch], ⟨head, other⟩ =>
        simp only [List.head?_cons, Option.some.injEq] at head
        exact absurd (head ▸ rfl) other
    | _ :: _ :: _, _ => simp

theorem validPrereleaseSequence_dotted {identifiers : List (List UInt8)}
    (named : ∀ identifier ∈ identifiers, Identifier identifier) :
    validPrereleaseSequence (dotted identifiers) = true ↔
      ∀ identifier ∈ identifiers, (∀ ch ∈ identifier, isDigit ch = true) → Numeral identifier := by
  induction identifiers with
  | nil => simp [validPrereleaseSequence]
  | cons first others ih =>
      have here := named first List.mem_cons_self
      have later := ih fun identifier member => named identifier (List.mem_cons_of_mem _ member)
      rw [validPrereleaseSequence, if_neg (dotted_ne_nil others here.1),
        firstIdentifier_dotted here.noDot, List.forall_mem_cons, ← later]
      by_cases leading : (∀ ch ∈ first, isDigit ch = true) → Numeral first
      · rw [if_neg (fun zero => (leading_zero_iff here).mp zero leading)]
        exact (and_iff_right leading).symm
      · rw [if_pos ((leading_zero_iff here).mpr leading)]
        simp only [Bool.false_eq_true, false_iff, not_and]
        exact fun numeral => absurd numeral leading

/-! The whole text. -/

theorem marked_head {mark : UInt8} {identifiers : List (List UInt8)} :
    ∀ ch ∈ (marked mark identifiers).head?, ch = mark := by
  intro ch here
  unfold marked at here
  split at here
  · cases here
  · cases here
    rfl

theorem parseBuild_iff {cursor : List UInt8} :
    parseBuild cursor = true ↔ ∃ identifiers, (∀ identifier ∈ identifiers, Identifier identifier) ∧
      cursor = marked plus identifiers := by
  constructor
  · intro parsed
    cases cursor with
    | nil => exact ⟨[], nofun, rfl⟩
    | cons ch more =>
        simp only [parseBuild, Bool.and_eq_true, beq_iff_eq] at parsed
        obtain ⟨⟨passed, rest⟩, scanned⟩ := Option.isSome_iff_exists.mp parsed.2
        obtain ⟨whole, ended, first, others, text⟩ := scanIdentifiers_sound scanned
        have atEnd : rest = [] := by
          cases rest with
          | nil => rfl
          | cons next rest => exact absurd (ended next rfl) (by simp)
        refine ⟨first :: others, text.named, ?_⟩
        rw [whole, atEnd, List.append_nil, text.joined, parsed.1]
        simp [marked]
  · rintro ⟨identifiers, named, rfl⟩
    unfold marked
    split
    · rfl
    · rename_i nonempty
      have scanned := @scanIdentifiers_complete (fun _ => false) identifiers []
        (fun _ _ => rfl) named nonempty (by simp)
      rw [List.append_nil] at scanned
      simp [parseBuild, scanned]

theorem parsePrerelease_iff {cursor pre rest : List UInt8} (ended : ∀ ch ∈ rest.head?, ch = plus) :
    parsePrerelease cursor = some (pre, rest) ↔
      ∃ identifiers, (∀ identifier ∈ identifiers, Identifier identifier) ∧
        (∀ identifier ∈ identifiers, (∀ ch ∈ identifier, isDigit ch = true) → Numeral identifier) ∧
        cursor = marked hyphen identifiers ++ rest ∧ pre = dotted identifiers := by
  constructor
  · intro parsed
    cases cursor with
    | nil =>
        cases parsed
        exact ⟨[], nofun, nofun, rfl, rfl⟩
    | cons ch more =>
        simp only [parsePrerelease] at parsed
        by_cases mark : ch = hyphen
        · rw [if_neg (not_not.mpr mark)] at parsed
          split at parsed
          · cases parsed
          · rename_i passed behind scanned
            split at parsed
            · rename_i valid
              cases parsed
              obtain ⟨whole, -, first, others, text⟩ := scanIdentifiers_sound scanned
              rw [text.joined] at valid
              have numerals := (validPrereleaseSequence_dotted text.named).mp valid
              refine ⟨first :: others, text.named, numerals, ?_, text.joined⟩
              rw [whole, mark, text.joined]
              simp [marked]
            · cases parsed
        · rw [if_pos mark] at parsed
          cases parsed
          exact ⟨[], nofun, nofun, rfl, rfl⟩
  · rintro ⟨identifiers, named, numerals, rfl, rfl⟩
    unfold marked
    split
    · rename_i absent
      subst absent
      cases rest with
      | nil => rfl
      | cons ch more =>
          have other : ch ≠ hyphen := by
            rw [ended ch rfl]
            decide
          simp [parsePrerelease, other]
    · rename_i nonempty
      have scanned := @scanIdentifiers_complete (· == plus) identifiers rest
        (by
          rintro ch (valid | rfl)
          · simpa using (validIdentifierChar_ne valid).2
          · decide)
        named nonempty (fun ch here => by simpa using ended ch here)
      have valid := (validPrereleaseSequence_dotted named).mpr numerals
      simp [parsePrerelease, scanned, valid]

theorem consumeDot_iff {cursor rest : List UInt8} :
    consumeDot cursor = some rest ↔ cursor = dot :: rest := by
  cases cursor with
  | nil => simp [consumeDot]
  | cons ch more =>
      simp only [consumeDot, List.cons.injEq]
      split <;> simp_all

/-- What is behind the patch number does not start with a digit. -/
theorem marked_stops (pre build : List (List UInt8)) :
    (marked hyphen pre ++ marked plus build).head?.any isDigit = false := by
  have first : ∀ ch ∈ (marked hyphen pre ++ marked plus build).head?, ch = hyphen ∨ ch = plus := by
    intro ch here
    rw [List.head?_append] at here
    cases head : (marked hyphen pre).head? with
    | none =>
        rw [head] at here
        exact .inr (marked_head ch here)
    | some mark =>
        rw [head] at here
        cases here
        exact .inl (marked_head ch head)
  cases head : (marked hyphen pre ++ marked plus build).head? with
  | none => rfl
  | some ch =>
      rcases first ch head with rfl | rfl
      · decide
      · decide

/-- `parse_semver` reads exactly the semantic versions with numbers of its width. -/
theorem parseSemver_iff {width : Nat} (wide : 32 ≤ width) {text : CStr} {semver : Semver} :
    parseSemver width text = some semver ↔
      ∃ version : SemanticVersion, version.text = text.bytes ∧ version.Fits width ∧
        version.semver = semver := by
  simp only [parseSemver, Option.bind_eq_bind, Option.bind_eq_some_iff, Prod.exists]
  constructor
  · rintro ⟨major, cursor₁, parsedMajor, cursor₂, first, minor, cursor₃, parsedMinor, cursor₄,
      second, patch, cursor₅, parsedPatch, pre, cursor₆, parsedPre, result⟩
    split at result
    · rename_i parsedBuild
      cases result
      obtain ⟨majorDigits, whole, majorNumeral, -, rfl, majorFits⟩ :=
        (parseNumber_iff wide).mp parsedMajor
      obtain ⟨minorDigits, rfl, minorNumeral, -, rfl, minorFits⟩ :=
        (parseNumber_iff wide).mp parsedMinor
      obtain ⟨patchDigits, rfl, patchNumeral, -, rfl, patchFits⟩ :=
        (parseNumber_iff wide).mp parsedPatch
      obtain ⟨build, buildIdentifiers, rfl⟩ := parseBuild_iff.mp parsedBuild
      obtain ⟨pre, preIdentifiers, preNumerals, rfl, rfl⟩ :=
        (parsePrerelease_iff marked_head).mp parsedPre
      rw [consumeDot_iff.mp first, consumeDot_iff.mp second] at whole
      exact ⟨⟨majorDigits, minorDigits, patchDigits, pre, build, majorNumeral, minorNumeral,
        patchNumeral, preIdentifiers, preNumerals, buildIdentifiers⟩, whole.symm,
        ⟨majorFits, minorFits, patchFits⟩, rfl⟩
    · cases result
  · rintro ⟨version, written, ⟨majorFits, minorFits, patchFits⟩, rfl⟩
    have dotStops (rest : List UInt8) : (dot :: rest).head?.any isDigit = false := by
      rw [List.head?_cons]
      decide
    refine ⟨_, _, (parseNumber_iff wide).mpr ⟨version.major, written.symm, version.majorNumeral,
      dotStops _, rfl, majorFits⟩, _, consumeDot_iff.mpr rfl, _, _, (parseNumber_iff wide).mpr
      ⟨version.minor, rfl, version.minorNumeral, dotStops _, rfl, minorFits⟩, _,
      consumeDot_iff.mpr rfl, _, _, (parseNumber_iff wide).mpr ⟨version.patch, rfl,
      version.patchNumeral, marked_stops _ _, rfl, patchFits⟩, _, _,
      (parsePrerelease_iff marked_head).mpr ⟨version.pre, version.preIdentifiers,
      version.preNumerals, rfl, rfl⟩, ?_⟩
    rw [if_pos (parseBuild_iff.mpr ⟨version.build, version.buildIdentifiers, rfl⟩)]
    rfl

/-- `parse_semver` accepts exactly the texts of the grammar with numbers below
`ULONG_MAX + 1`, and reads the numbers and the prerelease of the text. -/
theorem semver_grammar {width : Nat} (wide : 32 ≤ width) (text : CStr) :
    ((∃ semver, parseSemver width text = some semver) ↔
        ∃ version : SemanticVersion, version.text = text.bytes ∧ version.Fits width) ∧
      ∀ version : SemanticVersion, version.text = text.bytes → version.Fits width →
        parseSemver width text = some version.semver := by
  constructor
  · constructor
    · rintro ⟨semver, parsed⟩
      obtain ⟨version, written, fits, -⟩ := (parseSemver_iff wide).mp parsed
      exact ⟨version, written, fits⟩
    · rintro ⟨version, written, fits⟩
      exact ⟨version.semver, (parseSemver_iff wide).mpr ⟨version, written, fits, rfl⟩⟩
  · intro version written fits
    exact (parseSemver_iff wide).mpr ⟨version, written, fits, rfl⟩

/-- `1.20.3-rc.1+7`. -/
def releaseCandidate : SemanticVersion where
  major := [0x31]
  minor := [0x32, 0x30]
  patch := [0x33]
  pre := [[0x72, 0x63], [0x31]]
  build := [[0x37]]
  majorNumeral := by decide
  minorNumeral := by decide
  patchNumeral := by decide
  preIdentifiers := by decide
  preNumerals := by decide
  buildIdentifiers := by decide

theorem semver_grammar_releaseCandidate :
    parseSemver 32 ⟨releaseCandidate.text, by decide⟩ =
      some ⟨1, 20, 3, [0x72, 0x63, 0x2E, 0x31]⟩ :=
  (semver_grammar (by decide) ⟨releaseCandidate.text, by decide⟩).2 releaseCandidate rfl
    ⟨by decide, by decide, by decide⟩

end SmsGateway.Ota
