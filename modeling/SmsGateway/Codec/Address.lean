import SmsGateway.Codec.Gsm7
import SmsGateway.Codec.Septets

/-! Telephone numbers and sender names in a PDU. -/

namespace SmsGateway

/-- The digits of an address and whether it is international. -/
def addressValidate (address : CStr) : Option (List UInt8 × Bool) :=
  let international := address.bytes.head? == some 0x2B
  let digits := if international then address.bytes.drop 1 else address.bytes
  if digits.length = 0 ∨ digits.length > 20 then none
  else if digits.all isDigit then some (digits, international) else none

def digitValue (ch : UInt8) : Nat := (ch - 0x30).toNat

def semiOctet (low high : Nat) : UInt8 := UInt8.ofNat (low ||| high <<< 4)

/-- The semi-octets of the digits; an odd count is filled up with `F`. -/
def semiOctets : List UInt8 → List UInt8
  | low :: high :: rest => semiOctet (digitValue low) (digitValue high) :: semiOctets rest
  | [low] => [semiOctet (digitValue low) 0x0F]
  | [] => []

def addressEncode (buffer : PduBuffer) (address : CStr) : Option PduBuffer := do
  let (digits, international) ← addressValidate address
  let buffer ← buffer.put (UInt8.ofNat digits.length)
  let buffer ← buffer.put (if international then 0x91 else 0x81)
  (semiOctets digits).foldlM PduBuffer.put buffer

def nibbleAt (data : List UInt8) (i : Nat) : UInt8 :=
  if i % 2 = 0 then data.getD (i / 2) 0 &&& 0x0F else data.getD (i / 2) 0 >>> 4

def addressChar (nibble : UInt8) : Option UInt8 :=
  if nibble ≤ 9 then some (0x30 + nibble)
  else if nibble = 0x0A then some 0x2A
  else if nibble = 0x0B then some 0x23
  else if 0x0C ≤ nibble ∧ nibble ≤ 0x0E then some (0x61 + (nibble - 0x0C))
  else none

/-- The digit loop of `address_decode`, from semi-octet `i` on. -/
def addressDigits (data : List UInt8) (outCapacity : Nat) :
    Nat → Nat → List UInt8 → Bool × List UInt8
  | 0, _, out => (true, out)
  | count + 1, i, out =>
      match addressChar (nibbleAt data i) with
      | none => (false, out)
      | some ch =>
          if out.length + 1 ≥ outCapacity then (false, out)
          else addressDigits data outCapacity count (i + 1) (out ++ [ch])

/-- Success, and what was written to the zeroed output. -/
def addressDecode (data : List UInt8) (semiOctetCount : Nat) (toa : UInt8) (outCapacity : Nat) :
    Bool × List UInt8 :=
  let requiredBytes := (semiOctetCount + 1) / 2
  let ton := (toa >>> 4) &&& 0x07
  if outCapacity = 0 ∨ data.length < requiredBytes then (false, [])
  else if ton = 0x05 then
    let septetCount := semiOctetCount * 4 / 7
    if septetCount > 11 then (false, [])
    else match unpackSeptets (data.take requiredBytes) 0 septetCount with
      | none => (false, [])
      | some septets => smsGsm7Decode septets outCapacity
  else if ton = 0x01 then
    if 1 ≥ outCapacity then (false, [])
    else addressDigits data outCapacity semiOctetCount 0 [0x2B]
  else addressDigits data outCapacity semiOctetCount 0 []

theorem semiOctets_length (digits : List UInt8) :
    (semiOctets digits).length = (digits.length + 1) / 2 := by
  fun_induction semiOctets with
  | case1 low high rest ih =>
      simp only [List.length_cons, ih]
      omega
  | case2 low => simp
  | case3 => rfl

theorem semiOctet_nibbles : ∀ low < 16, ∀ high < 16,
    semiOctet low high &&& 0x0F = UInt8.ofNat low ∧ semiOctet low high >>> 4 = UInt8.ofNat high := by
  decide +kernel

theorem digitValue_lt (ch : UInt8) :
    isDigit ch = true → digitValue ch < 10 ∧ addressChar (UInt8.ofNat (digitValue ch)) = some ch := by
  revert ch
  apply forall_octet
  decide +kernel

/-- Semi-octet `i` holds digit `i`. -/
theorem nibbleAt_semiOctets {digits : List UInt8} (valid : ∀ ch ∈ digits, isDigit ch = true)
    (rest : List UInt8) (i : Nat) (inside : i < digits.length) :
    nibbleAt (semiOctets digits ++ rest) i = UInt8.ofNat (digitValue digits[i]) := by
  induction digits using semiOctets.induct generalizing i with
  | case1 low high digits ih =>
      have lowSmall := digitValue_lt low (valid low (by simp))
      have highSmall := digitValue_lt high (valid high (by simp))
      obtain ⟨first, second⟩ := semiOctet_nibbles (digitValue low) (by omega) (digitValue high)
        (by omega)
      match i, inside with
      | 0, _ => simpa [nibbleAt, semiOctets] using first
      | 1, _ => simpa [nibbleAt, semiOctets] using second
      | i + 2, inside =>
          have later := ih (fun ch member => valid ch (by simp [member])) i (by simpa using inside)
          have shift : nibbleAt (semiOctet (digitValue low) (digitValue high) ::
              (semiOctets digits ++ rest)) (i + 2) = nibbleAt (semiOctets digits ++ rest) i := by
            simp only [nibbleAt, show (i + 2) % 2 = i % 2 by omega,
              show (i + 2) / 2 = i / 2 + 1 by omega, List.getD_cons_succ]
          rw [semiOctets, List.cons_append, shift, later]
          rfl
  | case2 low =>
      have lowSmall := digitValue_lt low (valid low (by simp))
      obtain ⟨first, -⟩ := semiOctet_nibbles (digitValue low) (by omega) 0x0F (by omega)
      match i, inside with
      | 0, _ => simpa [nibbleAt, semiOctets] using first
  | case3 => simp at inside

theorem addressDigits_written {data digits : List UInt8} {outCapacity i : Nat} {out : List UInt8}
    (room : out.length + digits.length < outCapacity)
    (nibbles : ∀ k (inside : k < digits.length),
      addressChar (nibbleAt data (i + k)) = some digits[k]) :
    addressDigits data outCapacity digits.length i out = (true, out ++ digits) := by
  induction digits generalizing i out with
  | nil => simp [addressDigits]
  | cons ch digits ih =>
      simp only [List.length_cons] at room
      have first := nibbles 0 (by simp)
      simp only [Nat.add_zero, List.getElem_cons_zero] at first
      have later : addressDigits data outCapacity digits.length (i + 1) (out ++ [ch]) =
          (true, out ++ [ch] ++ digits) := by
        refine ih (by simp only [List.length_append, List.length_singleton]; omega) ?_
        intro k inside
        have next := nibbles (k + 1) (by simpa using inside)
        rw [show i + (k + 1) = i + 1 + k by omega] at next
        exact next
      simp only [List.length_cons, addressDigits, first,
        Nat.not_le.mpr (show out.length + 1 < outCapacity by omega), ↓reduceIte, later,
        List.append_assoc, List.singleton_append]

/-- What `address_validate` accepts: an optional plus and up to twenty digits. -/
theorem addressValidate_some {address : CStr} {digits : List UInt8} {international : Bool}
    (valid : addressValidate address = some (digits, international)) :
    address.bytes = (if international then [0x2B] else []) ++ digits ∧ digits.length ≤ 20 ∧
      ∀ ch ∈ digits, isDigit ch = true := by
  unfold addressValidate at valid
  cases plus : address.bytes.head? == some 0x2B with
  | true =>
      simp only [plus, ↓reduceIte] at valid
      split at valid
      · cases valid
      split at valid
      swap
      · cases valid
      rename_i length allDigits
      cases valid
      simp only [beq_iff_eq] at plus
      obtain ⟨rest, split⟩ := List.head?_eq_some_iff.mp plus
      refine ⟨by simp [split], by omega, by simpa using allDigits⟩
  | false =>
      simp only [plus, Bool.false_eq_true, ↓reduceIte] at valid
      split at valid
      · cases valid
      split at valid
      swap
      · cases valid
      rename_i length allDigits
      cases valid
      refine ⟨by simp, by omega, by simpa using allDigits⟩

/-- `address_decode` reads back the number that `address_encode` wrote. -/
theorem addressDecode_semiOctets {address : CStr} {digits : List UInt8} {international : Bool}
    (valid : addressValidate address = some (digits, international)) (rest : List UInt8)
    {outCapacity : Nat} (room : 21 < outCapacity) :
    addressDecode (semiOctets digits ++ rest) digits.length
      (if international then 0x91 else 0x81) outCapacity = (true, address.bytes) := by
  obtain ⟨split, length, allDigits⟩ := addressValidate_some valid
  have enough : ¬ (outCapacity = 0 ∨
      (semiOctets digits ++ rest).length < (digits.length + 1) / 2) := by
    simp only [List.length_append, semiOctets_length]
    omega
  have chars (k : Nat) (inside : k < digits.length) :
      addressChar (nibbleAt (semiOctets digits ++ rest) (0 + k)) = some digits[k] := by
    rw [Nat.zero_add, nibbleAt_semiOctets allDigits rest k inside]
    exact (digitValue_lt _ (allDigits _ (List.getElem_mem inside))).2
  simp only [addressDecode, enough, ↓reduceIte]
  cases international with
  | true =>
      have ton : ((0x91 : UInt8) >>> 4) &&& 0x07 = 0x01 := by decide
      simp only [↓reduceIte, ton, show ¬ (0x01 : UInt8) = 0x05 by decide,
        Nat.not_le.mpr (show 1 < outCapacity by omega)]
      rw [addressDigits_written (by simp only [List.length_singleton]; omega) chars, split]
      rfl
  | false =>
      have ton : ((0x81 : UInt8) >>> 4) &&& 0x07 = 0x00 := by decide
      simp only [Bool.false_eq_true, ↓reduceIte, ton, show ¬ (0x00 : UInt8) = 0x05 by decide,
        show ¬ (0x00 : UInt8) = 0x01 by decide]
      rw [addressDigits_written (by simp only [List.length_nil]; omega) chars, split]
      rfl

end SmsGateway
