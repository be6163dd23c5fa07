import SmsGateway.Base

/-! Semantic versions and the update policy (`ota_version_policy.c`). A cursor is the
rest of the text. -/

namespace SmsGateway.Ota

/-- `ULONG_MAX` of a platform with an `unsigned long` of this width. -/
def ulongMax (width : Nat) : Nat := 2 ^ width - 1

/-- The width of an `unsigned long` of the target. -/
def ulongWidth : Nat := 32

def dot : UInt8 := 0x2E
def hyphen : UInt8 := 0x2D
def plus : UInt8 := 0x2B

/-- `isalnum` in the C locale. -/
def isAlnum (ch : UInt8) : Bool :=
  isDigit ch || decide (0x41 ≤ ch ∧ ch ≤ 0x5A) || decide (0x61 ≤ ch ∧ ch ≤ 0x7A)

/-- The digit loop of `parse_number`: the number and the cursor behind it. -/
def numberLoop (width out : Nat) : List UInt8 → Option (Nat × List UInt8)
  | [] => some (out, [])
  | ch :: rest =>
      if isDigit ch then
        let digit := ch.toNat - 0x30
        if out > (ulongMax width - digit) / 10 then none
        else numberLoop width (out * 10 + digit) rest
      else some (out, ch :: rest)

def parseNumber (width : Nat) (cursor : List UInt8) : Option (Nat × List UInt8) :=
  match cursor with
  | [] => none
  | ch :: rest =>
      if !isDigit ch then none
      else if ch = 0x30 ∧ (rest.head?.any isDigit) then none
      else numberLoop width 0 cursor

def validIdentifierChar (ch : UInt8) : Bool := isAlnum ch || ch == hyphen

/-- The end of the first identifier: it, and what is behind its dot. -/
def firstIdentifier (s : List UInt8) : List UInt8 × List UInt8 :=
  let identifier := s.takeWhile (· ≠ dot)
  (identifier, s.drop (identifier.length + 1))

theorem firstIdentifier_shorter {s : List UInt8} (nonempty : s ≠ []) :
    (firstIdentifier s).2.length < s.length := by
  have positive := List.length_pos_iff.mpr nonempty
  simp only [firstIdentifier, List.length_drop]
  omega

def validPrereleaseSequence (s : List UInt8) : Bool :=
  if s = [] then true
  else
    let identifier := (firstIdentifier s).1
    if identifier = [] ∨
        identifier.all isDigit ∧ 1 < identifier.length ∧ identifier.head? = some 0x30 then false
    else validPrereleaseSequence (firstIdentifier s).2
  termination_by s.length
  decreasing_by exact firstIdentifier_shorter ‹_›

/-- The loops over identifiers in `parse_semver`, up to the end or to a byte of `stop`:
what they passed, and the cursor behind it. `previousDot` is also true at the start. -/
def scanIdentifiers (stop : UInt8 → Bool) (previousDot : Bool) :
    List UInt8 → Option (List UInt8 × List UInt8)
  | [] => if previousDot then none else some ([], [])
  | ch :: rest =>
      if stop ch then if previousDot then none else some ([], ch :: rest)
      else if ch = dot then
        if previousDot then none
        else (scanIdentifiers stop true rest).map fun (passed, cursor) => (ch :: passed, cursor)
      else if !validIdentifierChar ch then none
      else (scanIdentifiers stop false rest).map fun (passed, cursor) => (ch :: passed, cursor)

/-- `semver_t`. -/
structure Semver where
  major : Nat
  minor : Nat
  patch : Nat
  pre : List UInt8
  deriving DecidableEq, Repr

def consumeDot : List UInt8 → Option (List UInt8)
  | [] => none
  | ch :: rest => if ch = dot then some rest else none

/-- The prerelease behind the patch number, empty when there is none. -/
def parsePrerelease (cursor : List UInt8) : Option (List UInt8 × List UInt8) :=
  match cursor with
  | [] => some ([], [])
  | ch :: rest =>
      if ch ≠ hyphen then some ([], cursor)
      else
        match scanIdentifiers (· == plus) true rest with
        | none => none
        | some (pre, cursor) =>
            if validPrereleaseSequence pre then some (pre, cursor) else none

/-- The build behind the prerelease, and the end of the text. -/
def parseBuild (cursor : List UInt8) : Bool :=
  match cursor with
  | [] => true
  | ch :: rest => ch == plus && (scanIdentifiers (fun _ => false) true rest).isSome

def parseSemver (width : Nat) (text : CStr) : Option Semver := do
  let (major, cursor) ← parseNumber width text.bytes
  let cursor ← consumeDot cursor
  let (minor, cursor) ← parseNumber width cursor
  let cursor ← consumeDot cursor
  let (patch, cursor) ← parseNumber width cursor
  let (pre, cursor) ← parsePrerelease cursor
  if parseBuild cursor then some ⟨major, minor, patch, pre⟩ else none

def identifierNumeric (s : List UInt8) : Bool :=
  match s with
  | [] => false
  | ch :: _ => !(decide (1 < s.length) && ch == 0x30) && s.all isDigit

/-- `memcmp` of the common length: the order of the first bytes that differ. -/
def memcmp : List UInt8 → List UInt8 → Ordering
  | a :: as, b :: bs => if a < b then .lt else if b < a then .gt else memcmp as bs
  | _, _ => .eq

def compareIdentifiers (a b : List UInt8) : Ordering :=
  if identifierNumeric a ∧ identifierNumeric b then
    if a.length ≠ b.length then compare a.length b.length else memcmp a b
  else if identifierNumeric a ≠ identifierNumeric b then
    if identifierNumeric a then .lt else .gt
  else (memcmp a b).then (compare a.length b.length)

/-- The loop of `compare_prerelease`. -/
def compareSequences (a b : List UInt8) : Ordering :=
  if a ≠ [] ∧ b ≠ [] then
    match compareIdentifiers (firstIdentifier a).1 (firstIdentifier b).1 with
    | .eq => compareSequences (firstIdentifier a).2 (firstIdentifier b).2
    | order => order
  else if a ≠ [] then .gt
  else if b ≠ [] then .lt
  else .eq
  termination_by a.length
  decreasing_by exact firstIdentifier_shorter (And.left ‹_›)

def comparePrerelease (a b : Semver) : Ordering :=
  if a.pre = [] ∧ b.pre = [] then .eq
  else if a.pre = [] then .gt
  else if b.pre = [] then .lt
  else compareSequences a.pre b.pre

def otaSemverCompare (width : Nat) (a b : CStr) : Option Ordering := do
  let av ← parseSemver width a
  let bv ← parseSemver width b
  if av.major ≠ bv.major then some (compare av.major bv.major)
  else if av.minor ≠ bv.minor then some (compare av.minor bv.minor)
  else if av.patch ≠ bv.patch then some (compare av.patch bv.patch)
  else some (comparePrerelease av bv)

/-- `ota_version_decision_t`. -/
inductive VersionDecision where
  | accept
  | rejectProject
  | rejectFormat
  | rejectReinstall
  | rejectDowngrade
  | rejectSecureVersion
  deriving DecidableEq, Repr

def otaVersionPolicyDecide (expectedProject runningVersion : CStr) (runningSecureVersion : UInt32)
    (candidateProject candidateVersion : CStr) (candidateSecureVersion : UInt32)
    (allowReinstall allowDowngrade : Bool) : VersionDecision :=
  if expectedProject ≠ candidateProject then .rejectProject
  else if candidateSecureVersion < runningSecureVersion then .rejectSecureVersion
  else match otaSemverCompare ulongWidth candidateVersion runningVersion with
    | none => .rejectFormat
    | some order =>
        if order = .eq ∧ !allowReinstall then .rejectReinstall
        else if order = .lt ∧ !allowDowngrade then .rejectDowngrade
        else .accept

end SmsGateway.Ota
