import SmsGateway.Codec.Utf8
import SmsGateway.Lib.Blocks

/-! The GSM 03.38 default alphabet (`sms_gsm7.c`). -/

namespace SmsGateway

open Lib

variable {α : Type}

/-- `s_gsm7_basic`: the code points of the septets. -/
def gsm7Basic : List Nat :=
  [0x0040, 0x00A3, 0x0024, 0x00A5, 0x00E8, 0x00E9, 0x00F9, 0x00EC,
    0x00F2, 0x00C7, 0x000A, 0x00D8, 0x00F8, 0x000D, 0x00C5, 0x00E5,
    0x0394, 0x005F, 0x03A6, 0x0393, 0x039B, 0x03A9, 0x03A0, 0x03A8,
    0x03A3, 0x0398, 0x039E, 0x001B, 0x00C6, 0x00E6, 0x00DF, 0x00C9,
    0x0020, 0x0021, 0x0022, 0x0023, 0x00A4, 0x0025, 0x0026, 0x0027,
    0x0028, 0x0029, 0x002A, 0x002B, 0x002C, 0x002D, 0x002E, 0x002F,
    0x0030, 0x0031, 0x0032, 0x0033, 0x0034, 0x0035, 0x0036, 0x0037,
    0x0038, 0x0039, 0x003A, 0x003B, 0x003C, 0x003D, 0x003E, 0x003F,
    0x00A1, 0x0041, 0x0042, 0x0043, 0x0044, 0x0045, 0x0046, 0x0047,
    0x0048, 0x0049, 0x004A, 0x004B, 0x004C, 0x004D, 0x004E, 0x004F,
    0x0050, 0x0051, 0x0052, 0x0053, 0x0054, 0x0055, 0x0056, 0x0057,
    0x0058, 0x0059, 0x005A, 0x00C4, 0x00D6, 0x00D1, 0x00DC, 0x00A7,
    0x00BF, 0x0061, 0x0062, 0x0063, 0x0064, 0x0065, 0x0066, 0x0067,
    0x0068, 0x0069, 0x006A, 0x006B, 0x006C, 0x006D, 0x006E, 0x006F,
    0x0070, 0x0071, 0x0072, 0x0073, 0x0074, 0x0075, 0x0076, 0x0077,
    0x0078, 0x0079, 0x007A, 0x00E4, 0x00F6, 0x00F1, 0x00FC, 0x00E0]

/-- `s_gsm7_extension`: code points and the septet behind the escape. -/
def gsm7Extension : List (Nat × UInt8) :=
  [(0x000C, 0x0A), (0x005E, 0x14), (0x007B, 0x28), (0x007D, 0x29), (0x005C, 0x2F),
    (0x005B, 0x3C), (0x007E, 0x3D), (0x005D, 0x3E), (0x007C, 0x40), (0x20AC, 0x65)]

/-- The one or two septets of a code point. -/
def gsm7Find (codepoint : Nat) : Option (List UInt8) :=
  match (List.range 128).find? fun i => i ≠ 0x1B ∧ gsm7Basic[i]? = some codepoint with
  | some i => some [UInt8.ofNat i]
  | none =>
      match gsm7Extension.find? fun entry => entry.1 = codepoint with
      | some entry => some [0x1B, entry.2]
      | none => none

/-- A loop over the code points of a string, as the encoders run it: it stops at
a malformed sequence and where `step` refuses. The fuel is the number of bytes
left, of which every round takes at least one. -/
def walkUtf8 {σ : Type} (step : σ → Nat → Option σ) : Nat → List UInt8 → σ → Option σ
  | 0, cursor, state => if cursor.isEmpty then some state else none
  | fuel + 1, cursor, state =>
      if cursor.isEmpty then some state
      else match smsUtf8Next cursor with
        | none => none
        | some (cp, rest) =>
            match step state cp with
            | none => none
            | some next => walkUtf8 step fuel rest next

def forEachCodepoint {σ : Type} (step : σ → Nat → Option σ) (text : List UInt8) (start : σ) :
    Option σ :=
  walkUtf8 step text.length text start

/-- The number of septets, or `none` for `SIZE_MAX`. -/
def smsGsm7SeptetCount (text : List UInt8) : Option Nat :=
  forEachCodepoint (fun total cp => (gsm7Find cp).map fun septets => total + septets.length) text 0

def gsm7EncodeStep (septetCapacity : Nat) (out : List UInt8) (cp : Nat) : Option (List UInt8) :=
  match gsm7Find cp with
  | none => none
  | some septets =>
      if out.length + septets.length > septetCapacity then none else some (out ++ septets)

def smsGsm7Encode (text : List UInt8) (septetCapacity : Nat) : Option (List UInt8) :=
  forEachCodepoint (gsm7EncodeStep septetCapacity) text []

def gsm7ExtensionDecode (value : UInt8) : Option Nat :=
  (gsm7Extension.find? fun entry => entry.2 = value).map Prod.fst

/-- The loop of `sms_gsm7_decode`: success, and the bytes written so far. -/
def gsm7DecodeLoop (utf8Capacity : Nat) : List UInt8 → List UInt8 → Bool × List UInt8
  | [], out => (true, out)
  | septet :: rest, out =>
      if septet = 0x1B then
        match rest with
        | [] => (false, out)
        | second :: rest =>
            match gsm7ExtensionDecode second with
            | none => (false, out)
            | some cp =>
                match smsUtf8Append cp utf8Capacity out with
                | none => (false, out)
                | some out => gsm7DecodeLoop utf8Capacity rest out
      else
        match smsUtf8Append (gsm7Basic.getD (septet &&& 0x7F).toNat 0) utf8Capacity out with
        | none => (false, out)
        | some out => gsm7DecodeLoop utf8Capacity rest out

def smsGsm7Decode (septets : List UInt8) (utf8Capacity : Nat) : Bool × List UInt8 :=
  if utf8Capacity = 0 then (false, []) else gsm7DecodeLoop utf8Capacity septets []

/-- The code points of a well-formed text. -/
inductive Utf8Text : List UInt8 → List Nat → Prop where
  | nil : Utf8Text [] []
  | cons {text rest : List UInt8} {cp : Nat} {cps : List Nat}
      (next : smsUtf8Next text = some (cp, rest)) (later : Utf8Text rest cps) :
      Utf8Text text (cp :: cps)

/-- The octets of a code point that UTF-8 may carry. -/
def octetsOf (cp : Nat) : List UInt8 := (utf8Octets cp).getD []

theorem Utf8Text.octets {text : List UInt8} {cps : List Nat} (wellFormed : Utf8Text text cps) :
    text = cps.flatMap octetsOf ∧ ∀ cp ∈ cps, IsScalar cp ∧ utf8Octets cp = some (octetsOf cp) := by
  induction wellFormed with
  | nil => simp
  | cons next later ih =>
      rename_i head cps
      obtain ⟨octets, written, split, scalar⟩ := smsUtf8Next_octets next
      have same : octetsOf head = octets := by rw [octetsOf, written, Option.getD_some]
      refine ⟨?_, ?_⟩
      · rw [List.flatMap_cons, same, ← ih.1]
        exact split
      · intro cp member
        rcases List.mem_cons.mp member with rfl | member
        · exact ⟨scalar, by rw [same]; exact written⟩
        · exact ih.2 cp member

/-- A loop that ends well has seen the code points of a well-formed text. -/
theorem walkUtf8_some {σ : Type} {step : σ → Nat → Option σ} {fuel : Nat} {text : List UInt8}
    {start final : σ} (done : walkUtf8 step fuel text start = some final) :
    ∃ cps, Utf8Text text cps ∧ cps.foldlM step start = some final := by
  induction fuel generalizing text start with
  | zero =>
      simp only [walkUtf8, Option.ite_none_right_eq_some, List.isEmpty_iff, Option.some.injEq]
        at done
      obtain ⟨rfl, rfl⟩ := done
      exact ⟨[], .nil, rfl⟩
  | succ fuel ih =>
      unfold walkUtf8 at done
      split at done
      · rename_i empty
        rw [List.isEmpty_iff] at empty
        subst empty
        cases done
        exact ⟨[], .nil, rfl⟩
      · split at done
        · cases done
        · rename_i cp rest next
          split at done
          · cases done
          · rename_i after stepped
            obtain ⟨cps, wellFormed, folded⟩ := ih done
            refine ⟨cp :: cps, .cons next wellFormed, ?_⟩
            rw [List.foldlM_cons, stepped]
            exact folded

theorem smsUtf8Append_octets {cp capacity : Nat} {out : List UInt8}
    (written : utf8Octets cp = some (octetsOf cp))
    (room : out.length + (octetsOf cp).length < capacity) :
    smsUtf8Append cp capacity out = some (out ++ octetsOf cp) := by
  simp only [smsUtf8Append, written, ge_iff_le, Nat.not_le.mpr (show out.length < capacity by omega),
    Nat.not_le.mpr (show (octetsOf cp).length + out.length < capacity by omega), ↓reduceIte]

def isEscape (septet : UInt8) : Bool := septet == 0x1B

def septetsOf (cp : Nat) : List UInt8 := (gsm7Find cp).getD []

/-- The extension table can be read in both directions. -/
theorem gsm7Extension_entry :
    ∀ entry ∈ gsm7Extension, gsm7ExtensionDecode entry.2 = some entry.1 ∧ entry.2 ≠ 0x1B := by
  decide

theorem basic_septet : ∀ i < 128, i ≠ 0x1B →
    UInt8.ofNat i ≠ 0x1B ∧ (UInt8.ofNat i &&& 0x7F).toNat = i := by
  decide

/-- The septets of a code point: a basic one, or an escaped one. -/
theorem gsm7Find_cases {cp : Nat} {septets : List UInt8} (found : gsm7Find cp = some septets) :
    (∃ i, septets = [UInt8.ofNat i] ∧ i < 128 ∧ i ≠ 0x1B ∧ gsm7Basic[i]? = some cp) ∨
      ∃ second, septets = [0x1B, second] ∧ second ≠ 0x1B ∧ gsm7ExtensionDecode second = some cp := by
  unfold gsm7Find at found
  split at found
  · rename_i i hit
    cases found
    have inside := List.mem_range.mp (List.mem_of_find?_eq_some hit)
    have same := List.find?_some hit
    simp only [ne_eq, Bool.decide_and, decide_not, Bool.and_eq_true, Bool.not_eq_eq_eq_not,
      Bool.not_true, decide_eq_false_iff_not, decide_eq_true_eq] at same
    exact .inl ⟨i, rfl, inside, same.1, same.2⟩
  · split at found
    · rename_i entry hit
      cases found
      have same := List.find?_some hit
      simp only [decide_eq_true_eq] at same
      obtain ⟨decoded, plain⟩ := gsm7Extension_entry entry (List.mem_of_find?_eq_some hit)
      exact .inr ⟨entry.2, rfl, plain, by rw [decoded, same]⟩
    · cases found

theorem gsm7Find_isCode {cp : Nat} {septets : List UInt8} (found : gsm7Find cp = some septets) :
    IsCode isEscape septets := by
  rcases gsm7Find_cases found with ⟨i, rfl, small, plain, -⟩ | ⟨second, rfl, plain, -⟩
  · exact .single (by simpa [isEscape] using (basic_septet i small plain).1)
  · exact .pair rfl (by simpa [isEscape] using plain)

theorem gsm7Find_small {cp : Nat} {septets : List UInt8} (found : gsm7Find cp = some septets) :
    ∀ septet ∈ septets, septet.toNat < 128 := by
  have extension : ∀ entry ∈ gsm7Extension, entry.2.toNat < 128 := by decide
  intro septet member
  rcases gsm7Find_cases found with ⟨i, rfl, small, -, -⟩ | ⟨second, rfl, -, decoded⟩
  · simp only [List.mem_singleton] at member
    rw [member, UInt8.toNat_ofNat']
    omega
  · simp only [List.mem_cons, List.not_mem_nil, or_false] at member
    rcases member with rfl | rfl
    · decide
    · obtain ⟨entry, hit, -⟩ := Option.map_eq_some_iff.mp decoded
      have same := List.find?_some hit
      simp only [decide_eq_true_eq] at same
      rw [← same]
      exact extension entry (List.mem_of_find?_eq_some hit)

/-- The decoder reads back the septets of one code point. -/
theorem gsm7DecodeLoop_codepoint {cp capacity : Nat} {septets rest out : List UInt8}
    (found : gsm7Find cp = some septets) (written : utf8Octets cp = some (octetsOf cp))
    (room : out.length + (octetsOf cp).length < capacity) :
    gsm7DecodeLoop capacity (septets ++ rest) out =
      gsm7DecodeLoop capacity rest (out ++ octetsOf cp) := by
  have appended := smsUtf8Append_octets written room
  rcases gsm7Find_cases found with ⟨i, rfl, small, plain, entry⟩ | ⟨second, rfl, -, decoded⟩
  · obtain ⟨notEscape, index⟩ := basic_septet i small plain
    have codepoint : gsm7Basic.getD (UInt8.ofNat i &&& 0x7F).toNat 0 = cp := by
      rw [index, List.getD_eq_getElem?_getD, entry, Option.getD_some]
    rw [List.cons_append, List.nil_append, gsm7DecodeLoop.eq_def]
    simp only [notEscape, ↓reduceIte, codepoint, appended]
  · rw [List.cons_append, List.cons_append, List.nil_append, gsm7DecodeLoop.eq_def]
    simp only [↓reduceIte, decoded, appended]

theorem gsm7DecodeLoop_codepoints {capacity : Nat} {cps : List Nat} {out : List UInt8}
    (found : ∀ cp ∈ cps, gsm7Find cp = some (septetsOf cp))
    (written : ∀ cp ∈ cps, utf8Octets cp = some (octetsOf cp))
    (room : out.length + (cps.flatMap octetsOf).length < capacity) :
    gsm7DecodeLoop capacity (cps.flatMap septetsOf) out = (true, out ++ cps.flatMap octetsOf) := by
  induction cps generalizing out with
  | nil => simp [gsm7DecodeLoop]
  | cons cp cps ih =>
      simp only [List.flatMap_cons, List.length_append] at room ⊢
      rw [gsm7DecodeLoop_codepoint (found cp List.mem_cons_self) (written cp List.mem_cons_self)
        (by omega), ih (fun cp member => found cp (List.mem_cons_of_mem _ member))
        (fun cp member => written cp (List.mem_cons_of_mem _ member))
        (by simp only [List.length_append]; omega), List.append_assoc]

theorem gsm7EncodeStep_fold {capacity : Nat} {cps : List Nat} {out septets : List UInt8}
    (folded : cps.foldlM (gsm7EncodeStep capacity) out = some septets) :
    septets = out ++ cps.flatMap septetsOf ∧ ∀ cp ∈ cps, gsm7Find cp = some (septetsOf cp) := by
  induction cps generalizing out with
  | nil =>
      cases folded
      simp
  | cons cp cps ih =>
      rw [List.foldlM_cons] at folded
      cases found : gsm7Find cp with
      | none => simp [gsm7EncodeStep, found] at folded
      | some code =>
          have same : septetsOf cp = code := by rw [septetsOf, found, Option.getD_some]
          simp only [gsm7EncodeStep, found] at folded
          split at folded
          · cases folded
          · obtain ⟨joined, rest⟩ := ih folded
            refine ⟨?_, ?_⟩
            · rw [joined, List.flatMap_cons, same, List.append_assoc]
            · intro other member
              rcases List.mem_cons.mp member with rfl | member
              · rw [same]
                exact found
              · exact rest other member

/-- With room for them, the septets of the code points are written. -/
theorem gsm7EncodeStep_found {capacity : Nat} {cps : List Nat} {out : List UInt8}
    (found : ∀ cp ∈ cps, gsm7Find cp = some (septetsOf cp))
    (room : out.length + (cps.flatMap septetsOf).length ≤ capacity) :
    cps.foldlM (gsm7EncodeStep capacity) out = some (out ++ cps.flatMap septetsOf) := by
  induction cps generalizing out with
  | nil => simp
  | cons cp cps ih =>
      rw [List.flatMap_cons, List.length_append] at room
      have step : gsm7EncodeStep capacity out cp = some (out ++ septetsOf cp) := by
        simp only [gsm7EncodeStep, found cp List.mem_cons_self,
          show ¬ out.length + (septetsOf cp).length > capacity by omega, ↓reduceIte]
      rw [List.foldlM_cons, step]
      refine (ih (fun cp member => found cp (List.mem_cons_of_mem _ member)) ?_).trans ?_
      · rw [List.length_append]
        omega
      · rw [List.flatMap_cons, List.append_assoc]

/-- An encoded text is the septets of its code points. -/
theorem smsGsm7Encode_some {text septets : List UInt8} {capacity : Nat}
    (encoded : smsGsm7Encode text capacity = some septets) :
    ∃ cps, Utf8Text text cps ∧ septets = cps.flatMap septetsOf ∧
      ∀ cp ∈ cps, gsm7Find cp = some (septetsOf cp) := by
  obtain ⟨cps, wellFormed, folded⟩ := walkUtf8_some encoded
  obtain ⟨joined, found⟩ := gsm7EncodeStep_fold folded
  exact ⟨cps, wellFormed, joined, found⟩

theorem octetsOf_length_le (cp : Nat) : (octetsOf cp).length ≤ 4 := by
  cases written : utf8Octets cp with
  | none => simp [octetsOf, written]
  | some octets =>
      rw [octetsOf, written, Option.getD_some]
      exact (utf8Octets_length written).2

/-- A text has at most four octets for each unit of its code. -/
theorem octets_length_le {lead : α → Bool} {code : Nat → List α} {cps : List Nat}
    (coded : ∀ cp ∈ cps, IsCode lead (code cp)) :
    (cps.flatMap octetsOf).length ≤ 4 * (cps.flatMap code).length := by
  induction cps with
  | nil => simp
  | cons cp cps ih =>
      have rest := ih fun cp member => coded cp (List.mem_cons_of_mem _ member)
      have here := octetsOf_length_le cp
      have units : 1 ≤ (code cp).length := by
        have one := coded cp List.mem_cons_self
        generalize code cp = unit at one
        cases one <;> simp
      simp only [List.flatMap_cons, List.length_append]
      omega

end SmsGateway
