import SmsGateway.Codec.Acceptance
import SmsGateway.Codec.Checked
import SmsGateway.Codec.TooLong
import SmsGateway.Codec.Unicode

/-! `sms_utf8_append` and `sms_utf8_next` on one buffer: what is appended is read back, but for
the zero and for surrogates. -/

namespace SmsGateway

open Lib

/-- The string that starts at this place of the buffer. -/
def stringAt (buffer : List UInt8) (cursor : Nat) : CStr := .ofBytes (buffer.drop cursor)

/-- `sms_utf8_next` at this place: the value, and the place where the cursor stops. -/
def nextAt (buffer : List UInt8) (cursor : Nat) : Option (Nat × Nat) :=
  (smsUtf8Next (stringAt buffer cursor).bytes).map fun read =>
    (read.1, cursor + ((stringAt buffer cursor).length - read.2.length))

/-- Either nothing was changed, or the string has grown by this value. -/
def AppendsOne (codepoint : Nat) (buffer : List UInt8) (capacity length : Nat) : Prop :=
  Checked.smsUtf8Append codepoint buffer capacity length = .ok (false, buffer, length) ∨
    ∃ after stop, Checked.smsUtf8Append codepoint buffer capacity length = .ok (true, after, stop) ∧
      after.take length = buffer.take length ∧ after[stop]? = some 0 ∧
      nextAt after length = some (codepoint, stop)

/-- The code points of a string, as a loop up to its terminator collects them. -/
def codepointsOf (text : List UInt8) : Option (List Nat) :=
  forEachCodepoint (fun values cp => some (values ++ [cp])) text []

/-- The values one behind the other, until one is refused. -/
def appendAll (capacity : Nat) : List Nat → List UInt8 → Nat → Access (Bool × List UInt8 × Nat)
  | [], buffer, length => .ok (true, buffer, length)
  | codepoint :: rest, buffer, length => do
      let (appended, buffer, length) ← Checked.smsUtf8Append codepoint buffer capacity length
      if appended then appendAll capacity rest buffer length else .ok (false, buffer, length)

/-! ## One value -/

/-- The buffer with these octets and a terminator behind its first bytes. -/
def extended (buffer : List UInt8) (length : Nat) (octets : List UInt8) : List UInt8 :=
  buffer.take length ++ octets ++ 0 :: buffer.drop (length + octets.length + 1)

section

variable {buffer octets : List UInt8} {codepoint capacity length : Nat}

theorem extended_front (inside : length ≤ buffer.length) :
    (extended buffer length octets).take (length + octets.length) = buffer.take length ++ octets := by
  have size : (buffer.take length ++ octets).length = length + octets.length := by
    rw [List.length_append, List.length_take, Nat.min_eq_left inside]
  rw [extended, ← size, List.take_left]

theorem extended_length (room : length + octets.length < buffer.length) :
    (extended buffer length octets).length = buffer.length := by
  simp only [extended, List.length_append, List.length_take, List.length_cons, List.length_drop]
  omega

theorem extended_zero (inside : length ≤ buffer.length) :
    (extended buffer length octets)[length + octets.length]? = some 0 := by
  have size : (buffer.take length ++ octets).length = length + octets.length := by
    rw [List.length_append, List.length_take, Nat.min_eq_left inside]
  rw [extended, ← size, List.getElem?_append_right (Nat.le_refl _), Nat.sub_self]
  rfl

theorem extended_string (inside : length ≤ buffer.length) (noNul : 0 ∉ octets) :
    (stringAt (extended buffer length octets) length).bytes = octets := by
  have back : (extended buffer length octets).drop length =
      octets ++ 0 :: buffer.drop (length + octets.length + 1) := by
    have size : (buffer.take length).length = length := by
      rw [List.length_take, Nat.min_eq_left inside]
    calc (extended buffer length octets).drop length
        = (buffer.take length ++
            (octets ++ 0 :: buffer.drop (length + octets.length + 1))).drop length := by
          rw [extended, List.append_assoc]
      _ = octets ++ 0 :: buffer.drop (length + octets.length + 1) :=
          List.drop_left' size
  rw [stringAt, back, CStr.ofBytes]
  dsimp only
  rw [List.takeWhile_append_of_pos]
  · simp
  · intro octet member
    have other : octet ≠ 0 := fun zero => noNul (zero ▸ member)
    simpa using other

/-- A call writes the octets of the value, or changes nothing. -/
theorem smsUtf8Append_extends (fits : capacity ≤ buffer.length)
    (written : utf8Octets codepoint = some octets) (room : length + octets.length < capacity) :
    Checked.smsUtf8Append codepoint buffer capacity length =
      .ok (true, extended buffer length octets, length + octets.length) := by
  have copied := storeAll_inside (show length + octets.length ≤ buffer.length by omega)
  have size : (buffer.take length ++ octets).length = length + octets.length := by
    rw [List.length_append, List.length_take, Nat.min_eq_left (by omega)]
  have ended : store (buffer.take length ++ octets ++ buffer.drop (length + octets.length))
      (length + octets.length) 0 = .ok (extended buffer length octets) := by
    rw [store, if_pos]
    · congr 1
      calc (buffer.take length ++ octets ++ buffer.drop (length + octets.length)).set
            (length + octets.length) 0
          = buffer.take length ++ octets ++
              (buffer.drop (length + octets.length)).set 0 0 := by
            rw [List.set_append_right _ _ (Nat.le_of_eq size), size, Nat.sub_self]
        _ = extended buffer length octets := by
            rw [List.drop_eq_getElem_cons (show length + octets.length < buffer.length by omega),
              List.set_cons_zero, extended]
    · rw [List.length_append, size, List.length_drop]
      omega
  simp only [Checked.smsUtf8Append, written]
  rw [if_neg (by omega), if_neg (by omega), copied, Checked.bind_ok, ended, Checked.bind_ok]

theorem smsUtf8Append_keeps
    (full : ∀ octets, utf8Octets codepoint = some octets → capacity ≤ length + octets.length) :
    Checked.smsUtf8Append codepoint buffer capacity length = .ok (false, buffer, length) := by
  rw [Checked.smsUtf8Append]
  split
  · rfl
  cases written : utf8Octets codepoint with
  | none => rfl
  | some octets =>
      have short := full octets written
      dsimp only
      rw [if_pos (by omega)]

/-- Only values that a string can carry are read. -/
theorem nextAt_value {cursor stop : Nat} (read : nextAt buffer cursor = some (codepoint, stop)) :
    IsScalar codepoint ∧ codepoint ≠ 0 := by
  obtain ⟨⟨cp, rest⟩, next, same⟩ := Option.map_eq_some_iff.mp read
  cases same
  obtain ⟨octets, written, split, scalar⟩ := smsUtf8Next_octets next
  refine ⟨scalar, ?_⟩
  rintro rfl
  have first : octets = [0] := by
    cases written
    rfl
  refine (stringAt buffer cursor).noNul ?_
  rw [split, first]
  simp

theorem nextAt_extended (inside : length ≤ buffer.length) (scalar : IsScalar codepoint)
    (positive : codepoint ≠ 0) (written : utf8Octets codepoint = some octets) :
    nextAt (extended buffer length octets) length = some (codepoint, length + octets.length) := by
  have value := toNat_ofNat scalar
  have same : octets = String.utf8EncodeChar (Char.ofNat codepoint) := by
    rw [← octetsOf_char, value, octetsOf, written, Option.getD_some]
  have noNul : 0 ∉ octets := by
    rw [same, zero_mem_utf8EncodeChar, value]
    exact positive
  have read := smsUtf8Next_char (Char.ofNat codepoint) []
  rw [List.append_nil, ← same, value] at read
  rw [nextAt, CStr.length, extended_string inside noNul, read]
  rfl

/-- A zero takes one octet and a surrogate, which the branch of three octets leaves out, takes
four. -/
theorem utf8Octets_unreadable (written : utf8Octets codepoint = some octets)
    (unreadable : ¬ (IsScalar codepoint ∧ codepoint ≠ 0)) :
    codepoint = 0 ∧ octets.length = 1 ∨
      (0xD800 ≤ codepoint ∧ codepoint ≤ 0xDFFF) ∧ octets.length = 4 := by
  by_cases zero : codepoint = 0
  · subst zero
    cases written
    exact .inl ⟨rfl, rfl⟩
  · simp only [utf8Octets] at written
    simp only [IsScalar] at unreadable
    repeat' split at written
    all_goals
      cases written
      try omega
    exact .inr ⟨by omega, rfl⟩

/-- The calls that keep the string readable. -/
theorem appendsOne_iff (fits : capacity ≤ buffer.length) :
    AppendsOne codepoint buffer capacity length ↔
      (codepoint = 0 → capacity ≤ length + 1) ∧
        (0xD800 ≤ codepoint ∧ codepoint ≤ 0xDFFF → capacity ≤ length + 4) := by
  by_cases full : ∀ octets, utf8Octets codepoint = some octets → capacity ≤ length + octets.length
  · refine ⟨fun _ => ⟨?_, ?_⟩, fun _ => .inl (smsUtf8Append_keeps full)⟩
    · rintro rfl
      exact full [0] rfl
    · rintro ⟨low, high⟩
      obtain ⟨octets, written⟩ := utf8Octets_of_le (show codepoint ≤ 0x10FFFF by omega)
      have bound := (utf8Octets_length written).2
      have short := full octets written
      omega
  · simp only [not_forall, Nat.not_le] at full
    obtain ⟨octets, written, room⟩ := full
    have appended := smsUtf8Append_extends fits written room
    have inside : length ≤ buffer.length := by omega
    by_cases readable : IsScalar codepoint ∧ codepoint ≠ 0
    · constructor
      · rintro -
        obtain ⟨⟨-, plain⟩, positive⟩ := readable
        exact ⟨fun zero => absurd zero positive, fun surrogate => absurd surrogate plain⟩
      · rintro -
        refine .inr ⟨_, _, appended, ?_, extended_zero inside,
          nextAt_extended inside readable.1 readable.2 written⟩
        rw [extended, List.append_assoc, List.take_append_of_le_length, List.take_take,
          Nat.min_self]
        rw [List.length_take, Nat.min_eq_left inside]
    · have size := utf8Octets_unreadable written readable
      constructor
      · rintro (kept | ⟨after, stop, done, -, -, read⟩)
        · rw [appended] at kept
          cases kept
        · exact absurd (nextAt_value read) readable
      · rintro ⟨zero, surrogate⟩
        rcases size with ⟨same, one⟩ | ⟨same, four⟩
        · have := zero same
          omega
        · have := surrogate same
          omega

end

/-! ## Many values -/

theorem codepointsOf_text (chars : List Char) :
    codepointsOf (utf8Text chars) = some (chars.map Char.toNat) := by
  have collected (cps values : List Nat) :
      cps.foldlM (fun values cp => some (values ++ [cp])) values = some (values ++ cps) := by
    induction cps generalizing values with
    | nil => simp
    | cons cp cps ih =>
        rw [List.foldlM_cons]
        exact (ih (values ++ [cp])).trans (by simp)
  rw [codepointsOf, forEachCodepoint_text, collected, List.nil_append]

/-- The values of a text that has room are all appended. -/
theorem appendAll_text {capacity : Nat} (chars : List Char) {buffer : List UInt8} {length : Nat}
    (fits : capacity ≤ buffer.length) (room : length + (utf8Text chars).length < capacity) :
    ∃ after, appendAll capacity (chars.map Char.toNat) buffer length =
        .ok (true, after, length + (utf8Text chars).length) ∧
      after.take (length + (utf8Text chars).length) = buffer.take length ++ utf8Text chars := by
  induction chars generalizing buffer length with
  | nil => exact ⟨buffer, rfl, by simp [utf8Text]⟩
  | cons c chars ih =>
      have split : utf8Text (c :: chars) = String.utf8EncodeChar c ++ utf8Text chars :=
        List.flatMap_cons
      have written : utf8Octets c.toNat = some (String.utf8EncodeChar c) := by
        obtain ⟨octets, written, split, -⟩ := smsUtf8Next_octets (smsUtf8Next_char c [])
        rw [List.append_nil, List.append_nil] at split
        rw [written, split]
      rw [split, List.length_append] at room
      have appended := smsUtf8Append_extends fits written
        (show length + (String.utf8EncodeChar c).length < capacity by omega)
      have same := @extended_length buffer (String.utf8EncodeChar c) length (by omega)
      have front := @extended_front buffer (String.utf8EncodeChar c) length (by omega)
      obtain ⟨after, done, text⟩ := ih (show capacity ≤ (extended buffer length
        (String.utf8EncodeChar c)).length by omega) (show length + (String.utf8EncodeChar c).length +
        (utf8Text chars).length < capacity by omega)
      refine ⟨after, ?_, ?_⟩
      · rw [List.map_cons, appendAll, appended, Checked.bind_ok]
        dsimp only
        rw [if_pos rfl, done, split, List.length_append, Nat.add_assoc]
      · calc after.take (length + (utf8Text (c :: chars)).length)
            = after.take (length + (String.utf8EncodeChar c).length + (utf8Text chars).length) := by
              rw [split, List.length_append, Nat.add_assoc]
          _ = buffer.take length ++ String.utf8EncodeChar c ++ utf8Text chars := by
              rw [text, front]
          _ = buffer.take length ++ utf8Text (c :: chars) := by
              rw [split, List.append_assoc]

/-- A value that is appended is read back, but for the zero and the surrogates that have room;
the strings that are read to their end are those of characters, and appending what was read gives
their bytes. -/
theorem utf8_append_next {buffer : List UInt8} {capacity : Nat} (codepoint : UInt32) (length : Nat)
    (fits : capacity ≤ buffer.length) (text : CStr) :
    (AppendsOne codepoint.toNat buffer capacity length ↔
      (codepoint.toNat = 0 → capacity ≤ length + 1) ∧
        (0xD800 ≤ codepoint.toNat ∧ codepoint.toNat ≤ 0xDFFF → capacity ≤ length + 4)) ∧
    ((codepointsOf text.bytes).isSome ↔ ∃ chars, text.bytes = utf8Text chars) ∧
    ∀ values, codepointsOf text.bytes = some values → text.length < capacity →
      ∃ after, appendAll capacity values buffer 0 = .ok (true, after, text.length) ∧
        after.take text.length = text.bytes := by
  refine ⟨appendsOne_iff fits, ⟨?_, ?_⟩, ?_⟩
  · intro walked
    by_contra malformed
    rw [codepointsOf, forEachCodepoint_malformed _ malformed] at walked
    cases walked
  · rintro ⟨chars, shape⟩
    rw [shape, codepointsOf_text]
    rfl
  · intro values walked room
    obtain ⟨cps, reads, -⟩ := walkUtf8_some walked
    obtain ⟨chars, shape, -⟩ := utf8Text_iff.mp reads
    rw [shape, codepointsOf_text] at walked
    cases walked
    rw [CStr.length, shape] at room ⊢
    have all := @appendAll_text capacity chars buffer 0 fits (by rwa [Nat.zero_add])
    simpa using all

/-- The euro sign, into eight bytes. -/
theorem utf8_append_next_euro :
    8 ≤ (List.replicate 8 (0 : UInt8)).length ∧ AppendsOne 0x20AC (List.replicate 8 0) 8 0 ∧
    (codepointsOf (CStr.text "ab").bytes).isSome := by
  have both := @utf8_append_next (List.replicate 8 0) 8 0x20AC 0 (by decide) (.text "ab")
  exact ⟨by decide, both.1.mpr ⟨by decide, by decide⟩, both.2.1.mpr ⟨['a', 'b'], by decide⟩⟩

/-- A surrogate is written as four octets that are not read, and a zero as none. -/
theorem surrogate_unreadable :
    Checked.smsUtf8Append 0xD800 (List.replicate 8 0) 8 0 =
      .ok (true, [0xF0, 0x8D, 0xA0, 0x80, 0, 0, 0, 0], 4) ∧
    nextAt [0xF0, 0x8D, 0xA0, 0x80, 0, 0, 0, 0] 0 = none ∧
    ¬ AppendsOne 0xD800 (List.replicate 8 0) 8 0 ∧ ¬ AppendsOne 0 (List.replicate 8 0) 8 0 := by
  refine ⟨rfl, by decide, ?_, ?_⟩
  · rw [appendsOne_iff (by decide)]
    decide
  · rw [appendsOne_iff (by decide)]
    decide

end SmsGateway
