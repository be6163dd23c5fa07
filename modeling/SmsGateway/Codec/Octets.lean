import SmsGateway.Base

/-! Hexadecimal PDU strings and the PDU buffer of `sms_pdu.c`. -/

namespace SmsGateway

/-- `sms_pdu_decode_result_t`. -/
inductive DecodeResult where
  | ok
  | invalidHex
  | truncated
  | unsupported
  | invalid
  | textTooLong
  deriving DecidableEq, Repr

def smsMaxPduOctets : Nat := 176
def smsMaxPduHex : Nat := smsMaxPduOctets * 2 + 1

/-- The value of a hexadecimal digit; `none` is the -1 of the source. -/
def hexValue (ch : UInt8) : Option Nat :=
  if 0x30 ≤ ch ∧ ch ≤ 0x39 then some (ch.toNat - 0x30)
  else if 0x61 ≤ ch ∧ ch ≤ 0x66 then some (ch.toNat - 0x61 + 10)
  else if 0x41 ≤ ch ∧ ch ≤ 0x46 then some (ch.toNat - 0x41 + 10)
  else none

/-- The loop of `hex_decode`. -/
def hexPairs : List UInt8 → Option (List UInt8)
  | high :: low :: rest =>
      match hexValue high, hexValue low with
      | some h, some l => (hexPairs rest).map (UInt8.ofNat (h <<< 4 ||| l) :: ·)
      | _, _ => none
  | _ => some []

def hexDecode (hex : CStr) (outCapacity : Nat) : Except DecodeResult (List UInt8) :=
  if hex.length % 2 ≠ 0 then .error .invalidHex
  else if hex.length / 2 > outCapacity then .error .truncated
  else match hexPairs hex.bytes with
    | none => .error .invalidHex
    | some octets => .ok octets

/-- `"0123456789ABCDEF"[value]`. -/
def hexDigit (value : Nat) : UInt8 :=
  if value < 10 then UInt8.ofNat (0x30 + value) else UInt8.ofNat (0x41 + (value - 10))

def hexDigits (octet : UInt8) : List UInt8 :=
  [hexDigit (octet >>> 4).toNat, hexDigit (octet &&& 0x0F).toNat]

theorem hexDigit_ne_zero {value : Nat} (small : value < 16) : hexDigit value ≠ 0 := by
  have all : ∀ v < 16, hexDigit v ≠ 0 := by decide
  exact all value small

theorem high_lt (octet : UInt8) : (octet >>> 4).toNat < 16 := by
  have bound := octet.toNat_lt
  simp only [UInt8.toNat_shiftRight, UInt8.reduceToNat, Nat.reduceMod, Nat.shiftRight_eq_div_pow]
  omega

theorem low_lt (octet : UInt8) : (octet &&& 0x0F).toNat < 16 := by
  simp only [UInt8.toNat_and, UInt8.reduceToNat]
  exact Nat.and_lt_two_pow octet.toNat (show 15 < 2 ^ 4 by decide)

theorem hexDigits_noNul (data : List UInt8) : 0 ∉ data.flatMap hexDigits := by
  intro member
  obtain ⟨octet, -, digit⟩ := List.mem_flatMap.mp member
  simp only [hexDigits, List.mem_cons, List.not_mem_nil, or_false] at digit
  rcases digit with zero | zero
  · exact hexDigit_ne_zero (high_lt octet) zero.symm
  · exact hexDigit_ne_zero (low_lt octet) zero.symm

def hexEncode (data : List UInt8) (outCapacity : Nat) : Option CStr :=
  if outCapacity < data.length * 2 + 1 then none
  else some ⟨data.flatMap hexDigits, hexDigits_noNul data⟩

/-- The PDU string of these octets. -/
def pduOf (octets : List UInt8) : CStr := ⟨octets.flatMap hexDigits, hexDigits_noNul octets⟩

/-- `pdu_buffer_t`. -/
structure PduBuffer where
  bytes : List UInt8
  fits : bytes.length ≤ smsMaxPduOctets

namespace PduBuffer

def empty : PduBuffer := ⟨[], by simp⟩

def append (buffer : PduBuffer) (data : List UInt8) : Option PduBuffer :=
  if room : buffer.bytes.length + data.length ≤ smsMaxPduOctets then
    some ⟨buffer.bytes ++ data, by simpa using room⟩
  else none

def put (buffer : PduBuffer) (byte : UInt8) : Option PduBuffer := buffer.append [byte]

theorem append_bytes {buffer after : PduBuffer} {data : List UInt8}
    (done : buffer.append data = some after) : after.bytes = buffer.bytes ++ data := by
  simp only [append] at done
  split at done
  · cases done
    rfl
  · cases done

theorem put_bytes {buffer after : PduBuffer} {byte : UInt8}
    (done : buffer.put byte = some after) : after.bytes = buffer.bytes ++ [byte] :=
  append_bytes done

end PduBuffer

theorem hexValue_hexDigit {value : Nat} (small : value < 16) :
    hexValue (hexDigit value) = some value := by
  have all : ∀ v < 16, hexValue (hexDigit v) = some v := by decide
  exact all value small

theorem join_halves (octet : UInt8) :
    UInt8.ofNat ((octet >>> 4).toNat <<< 4 ||| (octet &&& 0x0F).toNat) = octet := by
  have low := low_lt octet
  rw [← Nat.shiftLeft_add_eq_or_of_lt low, Nat.shiftLeft_eq]
  have high : (octet >>> 4).toNat = octet.toNat / 16 := by
    simp [UInt8.toNat_shiftRight, Nat.shiftRight_eq_div_pow]
  have rest : (octet &&& 0x0F).toNat = octet.toNat % 16 := by
    simpa using Nat.and_two_pow_sub_one_eq_mod octet.toNat 4
  rw [high, rest, show octet.toNat / 16 * 2 ^ 4 + octet.toNat % 16 = octet.toNat by omega]
  simp

theorem hexPairs_hexDigits (data : List UInt8) : hexPairs (data.flatMap hexDigits) = some data := by
  induction data with
  | nil => rfl
  | cons octet rest ih =>
      simp only [List.flatMap_cons, hexDigits, List.cons_append, List.nil_append, hexPairs,
        hexValue_hexDigit (high_lt octet), hexValue_hexDigit (low_lt octet), Option.map_some, ih,
        join_halves]

theorem hexDigits_length (data : List UInt8) :
    (data.flatMap hexDigits).length = data.length * 2 := by
  induction data with
  | nil => rfl
  | cons octet rest ih =>
      simp only [List.flatMap_cons, List.length_append, ih, List.length_cons, hexDigits,
        List.length_nil]
      omega

theorem hexPairs_length {text octets : List UInt8} (decoded : hexPairs text = some octets) :
    octets.length = text.length / 2 := by
  induction text using hexPairs.induct generalizing octets with
  | case1 high low rest h l first second ih =>
      rw [hexPairs, first, second] at decoded
      obtain ⟨later, found, rfl⟩ := Option.map_eq_some_iff.mp decoded
      rw [List.length_cons, ih found, List.length_cons, List.length_cons]
      omega
  | case2 high low rest absent =>
      rw [hexPairs] at decoded
      split at decoded
      · rename_i h l first second
        exact absurd second (absent h l first)
      · cases decoded
  | case3 text short =>
      have empty : octets = [] := by
        unfold hexPairs at decoded
        split at decoded
        · rename_i high low rest
          exact absurd rfl (short high low rest)
        · exact (Option.some.inj decoded).symm
      subst empty
      cases text with
      | nil => rfl
      | cons high rest =>
          cases rest with
          | nil => simp
          | cons low rest => exact absurd rfl (short high low rest)

/-- Every character of an even string that is decoded is a digit. -/
theorem hexPairs_digits {text octets : List UInt8} (decoded : hexPairs text = some octets)
    (even : text.length % 2 = 0) : ∀ ch ∈ text, (hexValue ch).isSome = true := by
  induction text using hexPairs.induct generalizing octets with
  | case1 high low rest h l first second ih =>
      rw [hexPairs, first, second] at decoded
      obtain ⟨later, found, -⟩ := Option.map_eq_some_iff.mp decoded
      rw [List.length_cons, List.length_cons] at even
      have digits := ih found (by omega)
      simp only [List.forall_mem_cons, first, second, Option.isSome_some, true_and]
      exact digits
  | case2 high low rest absent =>
      rw [hexPairs] at decoded
      split at decoded
      · rename_i h l first second
        exact absurd second (absent h l first)
      · cases decoded
  | case3 text short =>
      cases text with
      | nil => nofun
      | cons high rest =>
          cases rest with
          | nil => cases even
          | cons low rest => exact absurd rfl (short high low rest)

theorem hexDecode_ok {hex : CStr} {capacity : Nat} {octets : List UInt8}
    (decoded : hexDecode hex capacity = .ok octets) :
    hex.length % 2 = 0 ∧ octets.length = hex.length / 2 ∧
      ∀ ch ∈ hex.bytes, (hexValue ch).isSome = true := by
  simp only [hexDecode] at decoded
  split at decoded
  · cases decoded
  rename_i even
  split at decoded
  · cases decoded
  split at decoded
  · cases decoded
  · rename_i pairs
    cases decoded
    have even := not_not.mp even
    exact ⟨even, hexPairs_length pairs, hexPairs_digits pairs even⟩

/-- What `hex_encode` writes, `hex_decode` reads back. -/
theorem hexDecode_hexEncode {data : List UInt8} {outCapacity capacity : Nat} {hex : CStr}
    (encoded : hexEncode data outCapacity = some hex) (room : data.length ≤ capacity) :
    hexDecode hex capacity = .ok data := by
  simp only [hexEncode] at encoded
  split at encoded
  · cases encoded
  · cases encoded
    have length : (data.flatMap hexDigits).length = data.length * 2 := hexDigits_length data
    simp only [hexDecode, CStr.length, length, hexPairs_hexDigits, Nat.mul_mod_left, ne_eq,
      not_true_eq_false, ↓reduceIte, Nat.mul_div_cancel _ (show 0 < 2 by decide),
      Nat.not_lt.mpr room]

end SmsGateway
