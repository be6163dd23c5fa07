import SmsGateway.Codec.Octets
import SmsGateway.Lib.Bits

/-! Packed septets (`pack_septets` and `unpack_septets`). -/

namespace SmsGateway

open Lib

def headerSeptets (headerBytes : Nat) : Nat := (headerBytes * 8 + 6) / 7

/-- One round of the loop of `pack_septets`. -/
def packSeptet (totalBytes : Nat) (out : List UInt8) (bit : Nat) (septet : UInt8) : List UInt8 :=
  let value := (septet &&& 0x7F).toNat
  let shift := bit % 8
  let out := orAt out (bit / 8) (UInt8.ofNat (value <<< shift))
  if shift > 1 ∧ bit / 8 + 1 < totalBytes then
    orAt out (bit / 8 + 1) (UInt8.ofNat (value >>> (8 - shift)))
  else out

def packLoop (totalBytes : Nat) : List UInt8 → Nat → List UInt8 → List UInt8
  | [], _, out => out
  | septet :: rest, bit, out =>
      packLoop totalBytes rest (bit + 7) (packSeptet totalBytes out bit septet)

/-- The septets a header of this length takes; none without a header. -/
def udhSeptets (udhLen : Nat) : Nat := if udhLen > 0 then headerSeptets udhLen else 0

/-- The packed user data and its TP-UDL. -/
def packSeptets (septets udh : List UInt8) (outCapacity : Nat) : Option (List UInt8 × UInt8) :=
  let hseptets := udhSeptets udh.length
  let totalSeptets := hseptets + septets.length
  let totalBytes := (totalSeptets * 7 + 7) / 8
  if totalSeptets > 255 ∨ totalBytes > outCapacity then none
  else
    let out := udh ++ List.replicate (totalBytes - udh.length) 0
    some (packLoop totalBytes septets (hseptets * 7) out, UInt8.ofNat totalSeptets)

/-- One round of the loop of `unpack_septets`. -/
def unpackSeptet (packed : List UInt8) (bit : Nat) : Option UInt8 :=
  let byteIndex := bit / 8
  let shift := bit % 8
  if byteIndex ≥ packed.length then none
  else
    let value := (packed.getD byteIndex 0).toNat >>> shift
    if shift > 1 then
      if byteIndex + 1 ≥ packed.length then none
      else some (UInt8.ofNat
        ((value ||| (packed.getD (byteIndex + 1) 0).toNat <<< (8 - shift)) &&& 0x7F))
    else some (UInt8.ofNat (value &&& 0x7F))

/-- `unpack_septets` from a bit on. -/
def unpackSeptets (packed : List UInt8) (startBit : Nat) : Nat → Option (List UInt8)
  | 0 => some []
  | count + 1 =>
      match unpackSeptet packed startBit with
      | none => none
      | some septet => (unpackSeptets packed (startBit + 7) count).map (septet :: ·)

theorem unpackSeptets_length {packed septets : List UInt8} {startBit count : Nat}
    (unpacked : unpackSeptets packed startBit count = some septets) : septets.length = count := by
  induction count generalizing startBit septets with
  | zero =>
      cases unpacked
      rfl
  | succ count ih =>
      rw [unpackSeptets] at unpacked
      split at unpacked
      · cases unpacked
      · obtain ⟨rest, found, rfl⟩ := Option.map_eq_some_iff.mp unpacked
        rw [List.length_cons, ih found]

theorem testBit_ofNat (value j : Nat) :
    (UInt8.ofNat value).toNat.testBit j = (decide (j < 8) && value.testBit j) := by
  rw [UInt8.toNat_ofNat', Nat.testBit_mod_two_pow]

theorem testBit_septet (septet : UInt8) (j : Nat) :
    (septet &&& 0x7F).toNat.testBit j = (septet.toNat.testBit j && decide (j < 7)) := by
  have mask : ∀ j, Nat.testBit 127 j = decide (j < 7) := fun j =>
    Nat.testBit_two_pow_sub_one 7 j
  rw [UInt8.toNat_and, Nat.testBit_and, show (0x7F : UInt8).toNat = 127 from rfl, mask]

/-- A packed septet fills its seven bits and touches no other. -/
theorem packSeptet_bitAt {totalBytes bit : Nat} {out : List UInt8} (septet : UInt8)
    (length : out.length = totalBytes) (room : bit + 7 ≤ 8 * totalBytes) (k : Nat) :
    bitAt (packSeptet totalBytes out bit septet) k =
      (bitAt out k || (decide (bit ≤ k ∧ k < bit + 7) && septet.toNat.testBit (k - bit))) := by
  have first : bit / 8 < out.length := by omega
  simp only [packSeptet]
  split
  · rename_i spill
    rw [bitAt_orAt _ (by rw [orAt_length]; omega), bitAt_orAt _ first, Bool.or_assoc]
    congr 1
    simp only [testBit_ofNat, Nat.testBit_shiftLeft, Nat.testBit_shiftRight, testBit_septet]
    by_cases inside : bit ≤ k ∧ k < bit + 7
    · by_cases same : k / 8 = bit / 8
      · rw [show k % 8 - bit % 8 = k - bit by omega]
        simp [inside, same, show bit % 8 ≤ k % 8 by omega, show k % 8 < 8 by omega,
          show k - bit < 7 by omega]
      · rw [show 8 - bit % 8 + k % 8 = k - bit by omega]
        simp [inside, show k / 8 = bit / 8 + 1 by omega, show k % 8 < 8 by omega,
          show k - bit < 7 by omega]
    · simp only [inside, decide_false, Bool.false_and, Bool.or_eq_false_iff, Bool.and_eq_false_imp,
        decide_eq_true_eq, decide_eq_false_iff_not]
      omega
  · rename_i noSpill
    rw [bitAt_orAt _ first]
    congr 1
    simp only [testBit_ofNat, Nat.testBit_shiftLeft, testBit_septet]
    by_cases inside : bit ≤ k ∧ k < bit + 7
    · rw [show k % 8 - bit % 8 = k - bit by omega]
      simp [inside, show k / 8 = bit / 8 by omega, show bit % 8 ≤ k % 8 by omega,
        show k % 8 < 8 by omega, show k - bit < 7 by omega]
    · simp only [inside, decide_false, Bool.false_and, Bool.and_eq_false_imp, decide_eq_true_eq,
        decide_eq_false_iff_not]
      omega

@[simp] theorem packSeptet_length (totalBytes bit : Nat) (out : List UInt8) (septet : UInt8) :
    (packSeptet totalBytes out bit septet).length = out.length := by
  simp only [packSeptet]
  split <;> simp

/-- The loop keeps the bits below and writes the septets one after another. -/
theorem packLoop_bitAt {totalBytes bit : Nat} {septets out : List UInt8}
    (length : out.length = totalBytes) (room : bit + 7 * septets.length ≤ 8 * totalBytes)
    (clear : ∀ k ≥ bit, bitAt out k = false) :
    (packLoop totalBytes septets bit out).length = totalBytes ∧
      (∀ k < bit, bitAt (packLoop totalBytes septets bit out) k = bitAt out k) ∧
      ∀ i (inside : i < septets.length), ∀ j < 7,
        bitAt (packLoop totalBytes septets bit out) (bit + 7 * i + j) =
          septets[i].toNat.testBit j := by
  induction septets generalizing bit out with
  | nil => simp [packLoop, length]
  | cons septet rest ih =>
      simp only [List.length_cons] at room
      have bits := packSeptet_bitAt septet length (show bit + 7 ≤ 8 * totalBytes by omega)
      have after : ∀ k ≥ bit + 7, bitAt (packSeptet totalBytes out bit septet) k = false := by
        intro k high
        rw [bits, clear k (by omega)]
        simp only [Bool.false_or, Bool.and_eq_false_imp, decide_eq_true_eq]
        omega
      obtain ⟨size, below, written⟩ := ih (by simpa using length) (by omega) after
      refine ⟨size, ?_, ?_⟩
      · intro k low
        rw [packLoop, below k (by omega), bits]
        simp only [Bool.or_eq_left_iff_imp, Bool.and_eq_true, decide_eq_true_eq]
        omega
      · intro i inside j small
        rw [packLoop]
        cases i with
        | zero =>
            rw [below _ (by omega), bits, clear _ (by omega)]
            simp [small]
        | succ i =>
            rw [show bit + 7 * (i + 1) + j = bit + 7 + 7 * i + j by omega]
            exact written i (by simpa using inside) j small

/-- Unpacking reads seven bits. -/
theorem unpackSeptet_bitAt {packed : List UInt8} {bit : Nat} (room : bit + 7 ≤ 8 * packed.length) :
    ∃ septet, unpackSeptet packed bit = some septet ∧ septet.toNat < 128 ∧
      ∀ j < 7, septet.toNat.testBit j = bitAt packed (bit + j) := by
  have low (value : Nat) : (UInt8.ofNat (value &&& 0x7F)).toNat = value % 128 := by
    rw [UInt8.toNat_ofNat', show value &&& 0x7F = value % 2 ^ 7 from
      Nat.and_two_pow_sub_one_eq_mod value 7]
    omega
  have bits (value j : Nat) : (value % 128).testBit j = (decide (j < 7) && value.testBit j) :=
    Nat.testBit_mod_two_pow value 7 j
  have inside : ¬ bit / 8 ≥ packed.length := by omega
  simp only [unpackSeptet, inside, ↓reduceIte]
  split
  · rename_i spill
    have next : ¬ bit / 8 + 1 ≥ packed.length := by omega
    simp only [next, ↓reduceIte]
    refine ⟨_, rfl, by rw [low]; omega, ?_⟩
    intro j small
    rw [low, bits, Nat.testBit_or, Nat.testBit_shiftRight, Nat.testBit_shiftLeft, bitAt]
    by_cases first : bit % 8 + j < 8
    · rw [show (bit + j) / 8 = bit / 8 by omega, show (bit + j) % 8 = bit % 8 + j by omega]
      simp [small, show ¬ 8 - bit % 8 ≤ j by omega]
    · rw [show (bit + j) / 8 = bit / 8 + 1 by omega,
        show (bit + j) % 8 = j - (8 - bit % 8) by omega,
        testBit_byte_of_ge _ (show 8 ≤ bit % 8 + j by omega)]
      simp [small, show 8 - bit % 8 ≤ j by omega]
  · rename_i noSpill
    refine ⟨_, rfl, by rw [low]; omega, ?_⟩
    intro j small
    rw [low, bits, Nat.testBit_shiftRight, bitAt, show (bit + j) / 8 = bit / 8 by omega,
      show (bit + j) % 8 = bit % 8 + j by omega]
    simp [small]

theorem septet_eq_of_testBit {a b : UInt8} (smallA : a.toNat < 128) (smallB : b.toNat < 128)
    (same : ∀ j < 7, a.toNat.testBit j = b.toNat.testBit j) : a = b := by
  apply byte_eq_of_testBit
  intro j _
  by_cases low : j < 7
  · exact same j low
  · have large : 2 ^ 7 ≤ 2 ^ j := Nat.pow_le_pow_right (by decide) (by omega)
    rw [Nat.testBit_lt_two_pow (by omega), Nat.testBit_lt_two_pow (by omega)]

theorem unpackSeptets_of_bitAt {packed septets : List UInt8} {bit : Nat}
    (small : ∀ septet ∈ septets, septet.toNat < 128)
    (room : bit + 7 * septets.length ≤ 8 * packed.length)
    (bits : ∀ i (inside : i < septets.length), ∀ j < 7,
      bitAt packed (bit + 7 * i + j) = septets[i].toNat.testBit j) :
    unpackSeptets packed bit septets.length = some septets := by
  induction septets generalizing bit with
  | nil => rfl
  | cons septet rest ih =>
      simp only [List.length_cons] at room
      obtain ⟨read, run, readSmall, readBits⟩ :=
        unpackSeptet_bitAt (show bit + 7 ≤ 8 * packed.length by omega)
      have same : read = septet := by
        apply septet_eq_of_testBit readSmall (small septet List.mem_cons_self)
        intro j low
        rw [readBits j low]
        exact bits 0 (by simp) j low
      have later : unpackSeptets packed (bit + 7) rest.length = some rest := by
        refine ih (fun s member => small s (List.mem_cons_of_mem _ member)) (by omega) ?_
        intro i inside j low
        rw [show bit + 7 + 7 * i + j = bit + 7 * (i + 1) + j by omega]
        exact bits (i + 1) (by simpa using inside) j low
      simp only [List.length_cons, unpackSeptets, run, same, later, Option.map_some]

theorem udhSeptets_bits (udhLen : Nat) : 8 * udhLen ≤ udhSeptets udhLen * 7 := by
  simp only [udhSeptets, headerSeptets]
  split <;> omega

/-- What `pack_septets` writes: the header, the septets behind its fill bits, and
the number of septets of both. -/
theorem packSeptets_some {septets udh bytes : List UInt8} {udl : UInt8} {outCapacity : Nat}
    (small : ∀ septet ∈ septets, septet.toNat < 128)
    (packed : packSeptets septets udh outCapacity = some (bytes, udl)) :
    bytes.length = ((udhSeptets udh.length + septets.length) * 7 + 7) / 8 ∧
      udl.toNat = udhSeptets udh.length + septets.length ∧ bytes.take udh.length = udh ∧
      unpackSeptets bytes (udhSeptets udh.length * 7) septets.length = some septets := by
  have header := udhSeptets_bits udh.length
  simp only [packSeptets] at packed
  split at packed
  · cases packed
  rename_i fits
  cases packed
  generalize total : ((udhSeptets udh.length + septets.length) * 7 + 7) / 8 = totalBytes at *
  have size : (udh ++ List.replicate (totalBytes - udh.length) (0 : UInt8)).length = totalBytes := by
    simp only [List.length_append, List.length_replicate]
    omega
  obtain ⟨length, below, written⟩ := packLoop_bitAt size
    (show udhSeptets udh.length * 7 + 7 * septets.length ≤ 8 * totalBytes by omega)
    (fun k high => bitAt_append_zeros _ (by omega))
  refine ⟨length, ?_, ?_, unpackSeptets_of_bitAt small (by omega) written⟩
  · rw [UInt8.toNat_ofNat']
    omega
  · have same := take_eq_of_bitAt (n := udh.length) (by omega) (by rw [size]; omega)
      (fun k low => below k (by omega))
    rw [same, List.take_append_of_le_length (Nat.le_refl _), List.take_length]

end SmsGateway
