import SmsGateway.Codec.Septets

/-! Packed septets come back behind every header, and nothing else is in the buffer. -/

namespace SmsGateway

open Lib

theorem udhSeptets_eq (udhLen : Nat) : udhSeptets udhLen = headerSeptets udhLen := by
  rw [udhSeptets]
  split
  · rfl
  · rw [show udhLen = 0 by omega]
    rfl

/-! ## Septets of eight bits -/

theorem septet_mod (septet : UInt8) :
    septet % 128 &&& 0x7F = septet &&& 0x7F ∧ (septet % 128).toNat < 128 :=
  forall_octet (P := fun septet => septet % 128 &&& 0x7F = septet &&& 0x7F ∧
    (septet % 128).toNat < 128) (by decide +kernel) septet

/-- The loop packs the low seven bits. -/
theorem packLoop_mod (totalBytes : Nat) (septets : List UInt8) (bit : Nat) (out : List UInt8) :
    packLoop totalBytes (septets.map (· % 128)) bit out = packLoop totalBytes septets bit out := by
  induction septets generalizing bit out with
  | nil => rfl
  | cons septet rest ih =>
      have one : packSeptet totalBytes out bit (septet % 128) =
          packSeptet totalBytes out bit septet := by
        rw [packSeptet, packSeptet, (septet_mod septet).1]
      rw [List.map_cons, packLoop, packLoop, ih, one]

theorem packSeptets_mod (septets udh : List UInt8) (outCapacity : Nat) :
    packSeptets (septets.map (· % 128)) udh outCapacity = packSeptets septets udh outCapacity := by
  simp only [packSeptets, List.length_map, packLoop_mod]

/-! ## The other bits -/

/-- Behind the last septet the loop leaves the bits as they are. -/
theorem packLoop_above {totalBytes bit : Nat} {septets out : List UInt8}
    (length : out.length = totalBytes) (room : bit + 7 * septets.length ≤ 8 * totalBytes) {k : Nat}
    (above : bit + 7 * septets.length ≤ k) :
    bitAt (packLoop totalBytes septets bit out) k = bitAt out k := by
  induction septets generalizing bit out with
  | nil => rfl
  | cons septet rest ih =>
      rw [List.length_cons] at room above
      have kept := packSeptet_bitAt septet length (show bit + 7 ≤ 8 * totalBytes by omega) k
      have outside : ¬ (bit ≤ k ∧ k < bit + 7) := by omega
      rw [packLoop, ih (by simpa using length) (by omega) (by omega), kept]
      simp [outside]

/-- No bit is set but those of the header and of the septets. -/
theorem packSeptets_zero {septets udh bytes : List UInt8} {udl : UInt8} {outCapacity k : Nat}
    (packed : packSeptets septets udh outCapacity = some (bytes, udl)) (header : 8 * udh.length ≤ k)
    (uncovered : k < 7 * headerSeptets udh.length ∨
      7 * (headerSeptets udh.length + septets.length) ≤ k) : bitAt bytes k = false := by
  have fill := udhSeptets_bits udh.length
  simp only [packSeptets] at packed
  split at packed
  · cases packed
  cases packed
  generalize total : ((udhSeptets udh.length + septets.length) * 7 + 7) / 8 = totalBytes
  have size : (udh ++ List.replicate (totalBytes - udh.length) (0 : UInt8)).length = totalBytes := by
    simp only [List.length_append, List.length_replicate]
    omega
  have room : udhSeptets udh.length * 7 + 7 * septets.length ≤ 8 * totalBytes := by omega
  have empty : bitAt (udh ++ List.replicate (totalBytes - udh.length) (0 : UInt8)) k = false :=
    bitAt_append_zeros _ header
  rw [← udhSeptets_eq] at uncovered
  rcases uncovered with below | above
  · have kept := (packLoop_bitAt size room fun k high => bitAt_append_zeros _ (by omega)).2.1
    rw [kept k (by omega), empty]
  · rw [packLoop_above size room (by omega), empty]

/-! ## Unpacking -/

/-- A septet is read exactly when its seven bits are in the buffer. -/
theorem unpackSeptet_isSome (packed : List UInt8) (bit : Nat) :
    (unpackSeptet packed bit).isSome ↔ bit + 7 ≤ 8 * packed.length := by
  constructor
  · intro read
    by_contra outside
    have none : unpackSeptet packed bit = none := by
      simp only [unpackSeptet]
      split
      · rfl
      · rename_i inside
        rw [if_pos (by omega), if_pos (by omega)]
    rw [none] at read
    cases read
  · intro room
    obtain ⟨septet, read, -⟩ := unpackSeptet_bitAt room
    rw [read]
    rfl

theorem unpackSeptets_isSome (packed : List UInt8) (startBit count : Nat) :
    (unpackSeptets packed startBit count).isSome ↔
      count = 0 ∨ startBit + 7 * count ≤ 8 * packed.length := by
  induction count generalizing startBit with
  | zero => simp [unpackSeptets]
  | succ count ih =>
      have first := unpackSeptet_isSome packed startBit
      have rest := ih (startBit + 7)
      rw [unpackSeptets]
      cases read : unpackSeptet packed startBit with
      | none =>
          rw [read] at first
          have outside : ¬ startBit + 7 ≤ 8 * packed.length := fun room => by cases first.mpr room
          simp only [Option.isSome_none, Bool.false_eq_true, false_iff, not_or]
          omega
      | some septet =>
          rw [read] at first
          have inside : startBit + 7 ≤ 8 * packed.length := first.mp rfl
          simp only [Option.isSome_map, rest]
          omega

/-- Septets packed behind any header are unpacked again, the header is in front of them, the
length is that of both, and every other bit is zero; unpacking succeeds exactly when all its
bits are there. -/
theorem septet_packing {septets udh : List UInt8} {outCapacity : Nat}
    (few : headerSeptets udh.length + septets.length ≤ 255)
    (room : ((headerSeptets udh.length + septets.length) * 7 + 7) / 8 ≤ outCapacity)
    (packed : List UInt8) (startBit count : Nat) :
    (∃ bytes udl, packSeptets septets udh outCapacity = some (bytes, udl) ∧
      unpackSeptets bytes (7 * headerSeptets udh.length) septets.length =
        some (septets.map (· % 128)) ∧
      bytes.take udh.length = udh ∧ udl.toNat = headerSeptets udh.length + septets.length ∧
      ∀ k, 8 * udh.length ≤ k →
        k < 7 * headerSeptets udh.length ∨
          7 * (headerSeptets udh.length + septets.length) ≤ k → bitAt bytes k = false) ∧
    ((unpackSeptets packed startBit count).isSome ↔
      count = 0 ∨ startBit + 7 * count ≤ 8 * packed.length) := by
  refine ⟨?_, unpackSeptets_isSome packed startBit count⟩
  obtain ⟨bytes, udl, done⟩ :
      ∃ bytes udl, packSeptets septets udh outCapacity = some (bytes, udl) := by
    refine ⟨_, _, if_neg ?_⟩
    rw [udhSeptets_eq]
    omega
  have small : ∀ septet ∈ septets.map (· % 128), septet.toNat < 128 := by
    intro septet member
    obtain ⟨full, -, rfl⟩ := List.mem_map.mp member
    exact (septet_mod full).2
  have read := packSeptets_some small ((packSeptets_mod septets udh outCapacity).trans done)
  rw [udhSeptets_eq, List.length_map, Nat.mul_comm (headerSeptets udh.length) 7] at read
  obtain ⟨-, length, front, unpacked⟩ := read
  exact ⟨bytes, udl, done, unpacked, front, length, fun k => packSeptets_zero done⟩

theorem septet_packing_hello :
    headerSeptets 6 + 5 ≤ 255 ∧ ((headerSeptets 6 + 5) * 7 + 7) / 8 ≤ 140 ∧
    (∃ bytes udl,
      packSeptets [0xE8, 0x65, 0x6C, 0x6C, 0x6F] [5, 0, 3, 7, 2, 1] 140 = some (bytes, udl) ∧
      unpackSeptets bytes (7 * headerSeptets 6) 5 = some [0x68, 0x65, 0x6C, 0x6C, 0x6F] ∧
      bytes.take 6 = [5, 0, 3, 7, 2, 1] ∧ udl.toNat = headerSeptets 6 + 5 ∧
      ∀ k, 8 * 6 ≤ k → k < 7 * headerSeptets 6 ∨ 7 * (headerSeptets 6 + 5) ≤ k →
        bitAt bytes k = false) ∧
    ((unpackSeptets [0xE8, 0x32, 0x9B] 1 3).isSome ↔ 3 = 0 ∨ 1 + 7 * 3 ≤ 8 * 3) :=
  ⟨by decide, by decide,
    @septet_packing [0xE8, 0x65, 0x6C, 0x6C, 0x6F] [5, 0, 3, 7, 2, 1] 140 (by decide) (by decide)
      [0xE8, 0x32, 0x9B] 1 3⟩

end SmsGateway
