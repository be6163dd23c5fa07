import Mathlib.Data.List.Chain
import SmsGateway.Ota.Grammar

/-! The precedence of semantic versions, and what the update policy makes of it. -/

namespace SmsGateway.Ota

open Std

/-- Numeric identifiers compare by value and are below the others, which compare in
ASCII order. -/
def identifierPrecedence (a b : List UInt8) : Ordering :=
  match a.all isDigit, b.all isDigit with
  | true, true => compare (numeralValue a) (numeralValue b)
  | true, false => .lt
  | false, true => .gt
  | false, false => List.compareLex compare a b

/-- A prerelease is below its release; the first identifiers that differ decide, and
a list is below its extensions. -/
def prereleasePrecedence (a b : List (List UInt8)) : Ordering :=
  match a, b with
  | [], [] => .eq
  | [], _ :: _ => .gt
  | _ :: _, [] => .lt
  | _ :: _, _ :: _ => List.compareLex identifierPrecedence a b

/-- SemVer 2.0.0 precedence. -/
def precedence : SemanticVersion → SemanticVersion → Ordering :=
  compareLex (compareOn fun version => numeralValue version.major) <|
    compareLex (compareOn fun version => numeralValue version.minor) <|
      compareLex (compareOn fun version => numeralValue version.patch) fun a b =>
        prereleasePrecedence a.pre b.pre

/-! It is a total preorder. -/

instance : OrientedCmp identifierPrecedence where
  eq_swap {a b} := by
    simp only [identifierPrecedence]
    cases a.all isDigit <;> cases b.all isDigit
    · exact @OrientedCmp.eq_swap _ (List.compareLex compare) _ a b
    · rfl
    · rfl
    · exact OrientedOrd.eq_swap

instance : TransCmp identifierPrecedence where
  isLE_trans {a b c} first second := by
    simp only [identifierPrecedence] at *
    cases numericA : a.all isDigit <;> cases numericB : b.all isDigit <;>
      cases numericC : c.all isDigit <;> simp only [numericA, numericB, numericC] at *
    all_goals first
      | exact TransCmp.isLE_trans first second
      | contradiction
      | rfl

instance : OrientedCmp prereleasePrecedence where
  eq_swap {a b} := by
    cases a <;> cases b
    · rfl
    · rfl
    · rfl
    · exact @OrientedCmp.eq_swap _ (List.compareLex identifierPrecedence) _ _ _

instance : TransCmp prereleasePrecedence where
  isLE_trans {a b c} first second := by
    cases a <;> cases b <;> cases c <;> simp only [prereleasePrecedence] at *
    all_goals first
      | exact TransCmp.isLE_trans first second
      | contradiction
      | rfl

instance : OrientedCmp fun a b : SemanticVersion => prereleasePrecedence a.pre b.pre where
  eq_swap := OrientedCmp.eq_swap

instance : TransCmp fun a b : SemanticVersion => prereleasePrecedence a.pre b.pre where
  isLE_trans := TransCmp.isLE_trans

instance : TransCmp precedence := by
  unfold precedence
  infer_instance

/-! The comparison of identifiers. -/

theorem compare_toNat (a b : UInt8) : compare a b = compare a.toNat b.toNat := by
  have order : compare a b = if a < b then .lt else if a = b then .eq else .gt := rfl
  simp only [order, UInt8.lt_iff_toNat_lt, ← UInt8.toNat_inj]
  rcases Nat.lt_trichotomy a.toNat b.toNat with less | same | greater
  · rw [if_pos less, Nat.compare_eq_lt.mpr less]
  · rw [if_neg (by omega), if_pos same, Nat.compare_eq_eq.mpr same]
  · rw [if_neg (by omega), if_neg (by omega), Nat.compare_eq_gt.mpr greater]

theorem memcmp_cons (a b : UInt8) (as bs : List UInt8) :
    memcmp (a :: as) (b :: bs) = (compare a b).then (memcmp as bs) := by
  simp only [memcmp, compare_toNat, UInt8.lt_iff_toNat_lt]
  rcases Nat.lt_trichotomy a.toNat b.toNat with less | same | greater
  · rw [if_pos less, Nat.compare_eq_lt.mpr less, Ordering.lt_then]
  · rw [if_neg (by omega), if_neg (by omega), Nat.compare_eq_eq.mpr same, Ordering.eq_then]
  · rw [if_neg (by omega), if_pos greater, Nat.compare_eq_gt.mpr greater, Ordering.gt_then]

theorem memcmp_then (a b : List UInt8) :
    (memcmp a b).then (compare a.length b.length) = List.compareLex compare a b := by
  induction a generalizing b with
  | nil => cases b <;> simp [memcmp, List.compareLex, Nat.compare_eq_ite_lt]
  | cons x xs ih =>
      cases b with
      | nil => simp [memcmp, List.compareLex, Nat.compare_eq_ite_lt]
      | cons y ys =>
          rw [List.compareLex_cons_cons, ← ih, memcmp_cons, Ordering.then_assoc]
          simp [Nat.compare_eq_ite_lt]

theorem compare_digitValue {a b : UInt8} (digitA : isDigit a = true) (digitB : isDigit b = true) :
    compare (digitValue a) (digitValue b) = compare a b := by
  simp only [isDigit, decide_eq_true_eq] at digitA digitB
  have lowA : 0x30 ≤ a.toNat := UInt8.le_iff_toNat_le.mp digitA.1
  have lowB : 0x30 ≤ b.toNat := UInt8.le_iff_toNat_le.mp digitB.1
  rw [compare_toNat]
  simp only [digitValue]
  rcases Nat.lt_trichotomy a.toNat b.toNat with less | same | greater
  · rw [Nat.compare_eq_lt.mpr less, Nat.compare_eq_lt]
    omega
  · rw [Nat.compare_eq_eq.mpr same, same, Nat.compare_eq_eq.mpr rfl]
  · rw [Nat.compare_eq_gt.mpr greater, Nat.compare_eq_gt]
    omega

theorem memcmp_digits {a b : List UInt8} (digitsA : ∀ ch ∈ a, isDigit ch = true)
    (digitsB : ∀ ch ∈ b, isDigit ch = true) (same : a.length = b.length) :
    memcmp a b = List.compareLex compare (a.map digitValue) (b.map digitValue) := by
  induction a generalizing b with
  | nil =>
      cases b with
      | nil => rfl
      | cons y ys => cases same
  | cons x xs ih =>
      cases b with
      | nil => cases same
      | cons y ys =>
          rw [memcmp_cons, List.map_cons, List.map_cons, List.compareLex_cons_cons,
            compare_digitValue (digitsA x List.mem_cons_self) (digitsB y List.mem_cons_self),
            ih (fun ch member => digitsA ch (List.mem_cons_of_mem _ member))
              (fun ch member => digitsB ch (List.mem_cons_of_mem _ member)) (Nat.succ.inj same)]

theorem identifierNumeric_iff (identifier : List UInt8) :
    identifierNumeric identifier = true ↔ Numeral identifier := by
  match identifier with
  | [] => simp [identifierNumeric, Numeral]
  | [ch] =>
      simp only [identifierNumeric, Numeral]
      simp
  | first :: second :: others =>
      simp only [identifierNumeric, Numeral]
      simp
      tauto

/-- What the comparison uses of an identifier of a prerelease. -/
structure Comparable (identifier : List UInt8) : Prop where
  named : Identifier identifier
  numeral : (∀ ch ∈ identifier, isDigit ch = true) → Numeral identifier

theorem Comparable.numeric {identifier : List UInt8} (fine : Comparable identifier) :
    identifierNumeric identifier = identifier.all isDigit := by
  rw [Bool.eq_iff_iff, identifierNumeric_iff, List.all_eq_true]
  exact ⟨fun numeral => numeral.2.1, fine.numeral⟩

theorem Numeral.digits {digits : List UInt8} (numeral : Numeral digits) :
    ∀ digit ∈ digits.map digitValue, digit < 10 := by
  intro digit member
  obtain ⟨ch, inside, rfl⟩ := List.mem_map.mp member
  have := digitValue_le (numeral.2.1 ch inside)
  omega

/-- Longer numerals do not start with a zero. -/
theorem Numeral.leading {digits : List UInt8} (numeral : Numeral digits)
    (long : 1 < digits.length) : (digits.map digitValue).head? ≠ some 0 := by
  cases digits with
  | nil => cases long
  | cons ch more =>
      intro zero
      simp only [List.map_cons, List.head?_cons, Option.some.injEq, digitValue] at zero
      have digit := numeral.2.1 ch List.mem_cons_self
      simp only [isDigit, decide_eq_true_eq] at digit
      have low : 0x30 ≤ ch.toNat := UInt8.le_iff_toNat_le.mp digit.1
      have isZero : ch = 0x30 := UInt8.toNat_inj.mp (by simp; omega)
      have single := numeral.2.2 (by rw [List.head?_cons, isZero])
      rw [single] at long
      exact absurd long (by decide)

/-- Numbers of any length compare as their values. -/
theorem compareIdentifiers_numeral {a b : List UInt8} (numeralA : Numeral a)
    (numeralB : Numeral b) :
    compareIdentifiers a b = compare (numeralValue a) (numeralValue b) := by
  have positiveA := List.length_pos_iff.mpr numeralA.1
  have positiveB := List.length_pos_iff.mpr numeralB.1
  simp only [compareIdentifiers, (identifierNumeric_iff a).mpr numeralA,
    (identifierNumeric_iff b).mpr numeralB, and_self, ↓reduceIte, ne_eq, ite_not, numeralValue]
  split
  · rename_i same
    rw [memcmp_digits numeralA.2.1 numeralB.2.1 same]
    exact (Lib.compare_positional (by decide) numeralA.digits numeralB.digits
      (by simpa using same)).symm
  · rename_i differ
    rcases Nat.lt_or_gt_of_ne differ with shorter | longer
    · rw [Nat.compare_eq_lt.mpr shorter]
      have smaller := @Lib.positional_lt_of_shorter 10 _ (b.map digitValue) (by decide)
        numeralA.digits (numeralB.leading (by omega)) (by simpa using shorter)
      exact (Nat.compare_eq_lt.mpr smaller).symm
    · rw [Nat.compare_eq_gt.mpr longer]
      have smaller := @Lib.positional_lt_of_shorter 10 _ (a.map digitValue) (by decide)
        numeralB.digits (numeralA.leading (by omega)) (by simpa using longer)
      exact (Nat.compare_eq_gt.mpr smaller).symm

theorem compareIdentifiers_eq {a b : List UInt8} (fineA : Comparable a) (fineB : Comparable b) :
    compareIdentifiers a b = identifierPrecedence a b := by
  simp only [identifierPrecedence]
  have numericA := fineA.numeric
  have numericB := fineB.numeric
  cases allA : a.all isDigit with
  | true =>
      cases allB : b.all isDigit with
      | true =>
          exact compareIdentifiers_numeral (fineA.numeral (List.all_eq_true.mp allA))
            (fineB.numeral (List.all_eq_true.mp allB))
      | false => simp [compareIdentifiers, numericA, numericB, allA, allB]
  | false =>
      cases allB : b.all isDigit with
      | true => simp [compareIdentifiers, numericA, numericB, allA, allB]
      | false =>
          rw [← memcmp_then]
          simp [compareIdentifiers, numericA, numericB, allA, allB]

theorem compareSequences_dotted {as bs : List (List UInt8)}
    (fineA : ∀ identifier ∈ as, Comparable identifier)
    (fineB : ∀ identifier ∈ bs, Comparable identifier) :
    compareSequences (dotted as) (dotted bs) = List.compareLex identifierPrecedence as bs := by
  induction as generalizing bs with
  | nil =>
      cases bs with
      | nil => simp [compareSequences, List.compareLex]
      | cons b bs =>
          have nonempty := dotted_ne_nil bs (fineB b List.mem_cons_self).named.1
          rw [compareSequences]
          simp [nonempty, List.compareLex]
  | cons a as ih =>
      have hereA := fineA a List.mem_cons_self
      have nonemptyA := dotted_ne_nil as hereA.named.1
      cases bs with
      | nil =>
          rw [compareSequences]
          simp [nonemptyA, List.compareLex]
      | cons b bs =>
          have hereB := fineB b List.mem_cons_self
          have nonemptyB := dotted_ne_nil bs hereB.named.1
          have later := @ih bs (fun identifier member => fineA identifier
            (List.mem_cons_of_mem _ member)) (fun identifier member => fineB identifier
            (List.mem_cons_of_mem _ member))
          rw [compareSequences, if_pos ⟨nonemptyA, nonemptyB⟩,
            firstIdentifier_dotted hereA.named.noDot, firstIdentifier_dotted hereB.named.noDot,
            compareIdentifiers_eq hereA hereB, List.compareLex_cons_cons, later]
          cases identifierPrecedence a b <;> rfl

/-! The comparison of versions. -/

theorem SemanticVersion.comparable (version : SemanticVersion) :
    ∀ identifier ∈ version.pre, Comparable identifier := by
  intro identifier member
  exact ⟨version.preIdentifiers identifier member, version.preNumerals identifier member⟩

theorem comparePrerelease_dotted {as bs : List (List UInt8)} {a b : Semver}
    (fineA : ∀ identifier ∈ as, Comparable identifier)
    (fineB : ∀ identifier ∈ bs, Comparable identifier) (preA : a.pre = dotted as)
    (preB : b.pre = dotted bs) : comparePrerelease a b = prereleasePrecedence as bs := by
  simp only [comparePrerelease, preA, preB]
  cases as with
  | nil =>
      cases bs with
      | nil => rfl
      | cons first others =>
          have nonempty := dotted_ne_nil others (fineB first List.mem_cons_self).named.1
          simp [nonempty, prereleasePrecedence]
  | cons firstA othersA =>
      have nonemptyA := dotted_ne_nil othersA (fineA firstA List.mem_cons_self).named.1
      cases bs with
      | nil => simp [nonemptyA, prereleasePrecedence]
      | cons firstB othersB =>
          have nonemptyB := dotted_ne_nil othersB (fineB firstB List.mem_cons_self).named.1
          simp only [nonemptyA, nonemptyB, false_and, ↓reduceIte, prereleasePrecedence]
          exact compareSequences_dotted fineA fineB

theorem compare_then_of_ne {m n : Nat} (differ : m ≠ n) (order : Ordering) :
    (compare m n).then order = compare m n := by
  rcases Nat.lt_or_gt_of_ne differ with less | greater
  · rw [Nat.compare_eq_lt.mpr less, Ordering.lt_then]
  · rw [Nat.compare_eq_gt.mpr greater, Ordering.gt_then]

theorem otaSemverCompare_parsed {width : Nat} {a b : CStr} {av bv : Semver}
    (parsedA : parseSemver width a = some av) (parsedB : parseSemver width b = some bv) :
    otaSemverCompare width a b =
      some ((compare av.major bv.major).then ((compare av.minor bv.minor).then
        ((compare av.patch bv.patch).then (comparePrerelease av bv)))) := by
  simp only [otaSemverCompare, parsedA, parsedB, Option.bind_eq_bind, Option.bind_some]
  by_cases major : av.major = bv.major
  · rw [if_neg (not_not.mpr major), Nat.compare_eq_eq.mpr major, Ordering.eq_then]
    by_cases minor : av.minor = bv.minor
    · rw [if_neg (not_not.mpr minor), Nat.compare_eq_eq.mpr minor, Ordering.eq_then]
      by_cases patch : av.patch = bv.patch
      · rw [if_neg (not_not.mpr patch), Nat.compare_eq_eq.mpr patch, Ordering.eq_then]
      · rw [if_pos patch, compare_then_of_ne patch]
    · rw [if_pos minor, compare_then_of_ne minor]
  · rw [if_pos major, compare_then_of_ne major]

/-- `ota_semver_compare` is the precedence. -/
theorem otaSemverCompare_eq {width : Nat} {a b : CStr} {versionA versionB : SemanticVersion}
    (parsedA : parseSemver width a = some versionA.semver)
    (parsedB : parseSemver width b = some versionB.semver) :
    otaSemverCompare width a b = some (precedence versionA versionB) := by
  have prerelease : comparePrerelease versionA.semver versionB.semver =
      prereleasePrecedence versionA.pre versionB.pre :=
    comparePrerelease_dotted versionA.comparable versionB.comparable rfl rfl
  rw [otaSemverCompare_parsed parsedA parsedB, prerelease]
  rfl

theorem parseSemver_version {width : Nat} (wide : 32 ≤ width) {text : CStr} {semver : Semver}
    (parsed : parseSemver width text = some semver) :
    ∃ version : SemanticVersion, parseSemver width text = some version.semver := by
  obtain ⟨version, -, -, rfl⟩ := (parseSemver_iff wide).mp parsed
  exact ⟨version, parsed⟩

/-- A comparison that was made is of two semantic versions. -/
theorem otaSemverCompare_versions {width : Nat} (wide : 32 ≤ width) {a b : CStr} {order : Ordering}
    (compared : otaSemverCompare width a b = some order) :
    ∃ versionA versionB : SemanticVersion, parseSemver width a = some versionA.semver ∧
      parseSemver width b = some versionB.semver ∧ order = precedence versionA versionB := by
  have made := compared
  simp only [otaSemverCompare, Option.bind_eq_bind, Option.bind_eq_some_iff] at made
  obtain ⟨_, parsedA, _, parsedB, -⟩ := made
  obtain ⟨versionA, parsedA⟩ := parseSemver_version wide parsedA
  obtain ⟨versionB, parsedB⟩ := parseSemver_version wide parsedB
  have order := otaSemverCompare_eq parsedA parsedB
  rw [compared, Option.some.injEq] at order
  exact ⟨versionA, versionB, parsedA, parsedB, order⟩

/-- The first version is at most the second. -/
def AtMost (width : Nat) (a b : CStr) : Prop :=
  ∃ order, otaSemverCompare width a b = some order ∧ order.isLE = true

theorem AtMost.trans {width : Nat} (wide : 32 ≤ width) {a b c : CStr} (first : AtMost width a b)
    (second : AtMost width b c) : AtMost width a c := by
  obtain ⟨_, comparedAB, lowAB⟩ := first
  obtain ⟨_, comparedBC, lowBC⟩ := second
  obtain ⟨versionA, versionB, parsedA, parsedB, rfl⟩ := otaSemverCompare_versions wide comparedAB
  obtain ⟨versionB', versionC, parsedB', parsedC, rfl⟩ := otaSemverCompare_versions wide comparedBC
  have same := otaSemverCompare_eq parsedB' parsedC
  rw [otaSemverCompare_eq parsedB parsedC, Option.some.injEq] at same
  rw [← same] at lowBC
  exact ⟨_, otaSemverCompare_eq parsedA parsedC, TransCmp.isLE_trans lowAB lowBC⟩

theorem otaSemverCompare_self {width : Nat} (wide : 32 ≤ width) {a : CStr} {semver : Semver}
    (parsed : parseSemver width a = some semver) : otaSemverCompare width a a = some .eq := by
  obtain ⟨version, parsed⟩ := parseSemver_version wide parsed
  rw [otaSemverCompare_eq parsed parsed, @ReflCmp.compare_self _ precedence]

theorem otaSemverCompare_swap {width : Nat} (wide : 32 ≤ width) (a b : CStr) :
    otaSemverCompare width b a = (otaSemverCompare width a b).map Ordering.swap := by
  cases parsedA : parseSemver width a with
  | none => cases parsedB : parseSemver width b <;> simp [otaSemverCompare, parsedA, parsedB]
  | some semverA =>
      cases parsedB : parseSemver width b with
      | none => simp [otaSemverCompare, parsedA, parsedB]
      | some semverB =>
          obtain ⟨versionA, parsedA⟩ := parseSemver_version wide parsedA
          obtain ⟨versionB, parsedB⟩ := parseSemver_version wide parsedB
          rw [otaSemverCompare_eq parsedA parsedB, otaSemverCompare_eq parsedB parsedA,
            Option.map_some, @OrientedCmp.eq_swap _ precedence]

theorem AtMost.total {width : Nat} (wide : 32 ≤ width) {a b : CStr} {semverA semverB : Semver}
    (parsedA : parseSemver width a = some semverA) (parsedB : parseSemver width b = some semverB) :
    AtMost width a b ∨ AtMost width b a := by
  obtain ⟨versionA, parsedA⟩ := parseSemver_version wide parsedA
  obtain ⟨versionB, parsedB⟩ := parseSemver_version wide parsedB
  have swapped := otaSemverCompare_swap wide a b
  have compared := otaSemverCompare_eq parsedA parsedB
  rw [compared, Option.map_some] at swapped
  cases order : precedence versionA versionB with
  | lt => exact .inl ⟨_, compared, by rw [order]; rfl⟩
  | eq => exact .inl ⟨_, compared, by rw [order]; rfl⟩
  | gt => exact .inr ⟨_, swapped, by rw [order]; rfl⟩

/-! Sequences of updates. -/

/-- What the policy reads of an image. -/
structure Firmware where
  project : CStr
  version : CStr
  secureVersion : UInt32
  deriving DecidableEq, Repr

/-- The policy accepts an image over the running one, with neither override flag. -/
def Accepts (expectedProject : CStr) (running candidate : Firmware) : Prop :=
  otaVersionPolicyDecide expectedProject running.version running.secureVersion candidate.project
    candidate.version candidate.secureVersion false false = .accept

instance (expectedProject : CStr) (running candidate : Firmware) :
    Decidable (Accepts expectedProject running candidate) :=
  inferInstanceAs (Decidable (_ = _))

/-- The second image is a later version and has no lower secure version. -/
def Advances (earlier later : Firmware) : Prop :=
  otaSemverCompare ulongWidth earlier.version later.version = some .lt ∧
    earlier.secureVersion ≤ later.secureVersion

theorem Accepts.advances {expectedProject : CStr} {running candidate : Firmware}
    (accepted : Accepts expectedProject running candidate) : Advances running candidate := by
  simp only [Accepts, otaVersionPolicyDecide] at accepted
  split at accepted
  · cases accepted
  · split at accepted
    · cases accepted
    · rename_i secure
      split at accepted
      · cases accepted
      · rename_i order compared
        refine ⟨?_, UInt32.not_lt.mp secure⟩
        rw [otaSemverCompare_swap (by decide), compared]
        cases order with
        | lt => simp at accepted
        | eq => simp at accepted
        | gt => rfl

theorem Advances.trans {first second third : Firmware} (earlier : Advances first second)
    (later : Advances second third) : Advances first third := by
  refine ⟨?_, UInt32.le_trans earlier.2 later.2⟩
  obtain ⟨versionA, versionB, parsedA, parsedB, lowAB⟩ :=
    otaSemverCompare_versions (by decide) earlier.1
  obtain ⟨versionB', versionC, parsedB', parsedC, lowBC⟩ :=
    otaSemverCompare_versions (by decide) later.1
  have same := otaSemverCompare_eq parsedB' parsedC
  rw [otaSemverCompare_eq parsedB parsedC, Option.some.injEq] at same
  rw [← same] at lowBC
  rw [otaSemverCompare_eq parsedA parsedC, TransCmp.lt_trans lowAB.symm lowBC.symm]

instance : Trans Advances Advances Advances := ⟨Advances.trans⟩

/-- `ota_semver_compare` is SemVer precedence, which is a total preorder of the texts
that `parse_semver` accepts; along any accepted updates the version increases and the
secure version does not decrease. -/
theorem semver_precedence {width : Nat} (wide : 32 ≤ width) :
    (∀ (a b : CStr) (versionA versionB : SemanticVersion),
      versionA.text = a.bytes → versionA.Fits width → versionB.text = b.bytes →
      versionB.Fits width →
        otaSemverCompare width a b = some (precedence versionA versionB)) ∧
    (∀ a semver, parseSemver width a = some semver → otaSemverCompare width a a = some .eq) ∧
    (∀ a b, otaSemverCompare width b a = (otaSemverCompare width a b).map Ordering.swap) ∧
    (∀ a b c, AtMost width a b → AtMost width b c → AtMost width a c) ∧
    (∀ a b semverA semverB, parseSemver width a = some semverA →
      parseSemver width b = some semverB → AtMost width a b ∨ AtMost width b a) ∧
    ∀ (expectedProject : CStr) (images : List Firmware),
      images.IsChain (Accepts expectedProject) → images.Pairwise Advances := by
  refine ⟨?_, fun a semver parsed => otaSemverCompare_self wide parsed,
    fun a b => otaSemverCompare_swap wide a b, fun a b c first second => first.trans wide second,
    fun a b semverA semverB parsedA parsedB => AtMost.total wide parsedA parsedB, ?_⟩
  · intro a b versionA versionB writtenA fitsA writtenB fitsB
    exact otaSemverCompare_eq ((parseSemver_iff wide).mpr ⟨versionA, writtenA, fitsA, rfl⟩)
      ((parseSemver_iff wide).mpr ⟨versionB, writtenB, fitsB, rfl⟩)
  · intro expectedProject images accepted
    exact (accepted.imp fun _ _ step => step.advances).pairwise

/-- A release candidate, its release with a build, and the next version. -/
def candidateText : CStr := ⟨[0x31, 0x2E, 0x30, 0x2E, 0x30, 0x2D, 0x72, 0x63], by decide⟩
def releaseText : CStr := ⟨[0x31, 0x2E, 0x30, 0x2E, 0x30, 0x2B, 0x37], by decide⟩
def nextText : CStr := ⟨[0x31, 0x2E, 0x31, 0x30, 0x2E, 0x30], by decide⟩

theorem semver_precedence_updates :
    [Firmware.mk .empty candidateText 1, ⟨.empty, releaseText, 1⟩, ⟨.empty, nextText, 2⟩].Pairwise
      Advances := by
  refine (@semver_precedence 32 (by decide)).2.2.2.2.2 .empty _ ?_
  repeat' constructor
  all_goals decide +kernel

end SmsGateway.Ota
