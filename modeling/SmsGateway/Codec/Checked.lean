import Mathlib.Data.UInt
import SmsGateway.Codec.Deliver
import SmsGateway.Lib.Memory

/-! The decoders on the arrays of the source: every index is checked, and an
access outside an array is a fault.

`pdu` is the decoded PDU with its length; a pointer into it is an offset. Arrays on
the stack start with zeros, which nothing reads. -/

namespace SmsGateway.Checked

open Lib

/-- Success, the array and the length of the text in it. -/
def smsUtf8Append (codepoint : Nat) (buffer : List UInt8) (capacity length : Nat) :
    Access (Bool × List UInt8 × Nat) :=
  if length ≥ capacity then .ok (false, buffer, length)
  else match utf8Octets codepoint with
    | none => .ok (false, buffer, length)
    | some out =>
        if out.length + length ≥ capacity then .ok (false, buffer, length)
        else do
          let buffer ← storeAll buffer length out
          let buffer ← store buffer (length + out.length) 0
          .ok (true, buffer, length + out.length)

/-- The loop of `sms_gsm7_decode` from septet `i` on. -/
def gsm7DecodeLoop (septets : List UInt8) (septetCount utf8Capacity i : Nat)
    (utf8 : List UInt8) (out : Nat) : Access (Bool × List UInt8) :=
  if i ≥ septetCount then .ok (true, utf8)
  else do
    let septet ← load septets i
    if septet = 0x1B then
      if i + 1 ≥ septetCount then .ok (false, utf8)
      else
        match gsm7ExtensionDecode (← load septets (i + 1)) with
        | none => .ok (false, utf8)
        | some cp =>
            let (appended, utf8, out) ← smsUtf8Append cp utf8 utf8Capacity out
            if appended then gsm7DecodeLoop septets septetCount utf8Capacity (i + 2) utf8 out
            else .ok (false, utf8)
    else
      let cp := gsm7Basic.getD (septet &&& 0x7F).toNat 0
      let (appended, utf8, out) ← smsUtf8Append cp utf8 utf8Capacity out
      if appended then gsm7DecodeLoop septets septetCount utf8Capacity (i + 1) utf8 out
      else .ok (false, utf8)
  termination_by septetCount - i

def smsGsm7Decode (septets : List UInt8) (septetCount : Nat) (utf8 : List UInt8)
    (utf8Capacity : Nat) : Access (Bool × List UInt8) :=
  if utf8Capacity = 0 then .ok (false, utf8)
  else do
    let utf8 ← store utf8 0 0
    gsm7DecodeLoop septets septetCount utf8Capacity 0 utf8 0

/-- The loop of `unpack_septets` from septet `i` on. -/
def unpackSeptets (pdu : List UInt8) (packed packedLen startBit count i : Nat)
    (septets : List UInt8) : Access (Bool × List UInt8) :=
  if i ≥ count then .ok (true, septets)
  else
    let bit := startBit + i * 7
    let byteIndex := bit / 8
    let shift := bit % 8
    if byteIndex ≥ packedLen then .ok (false, septets)
    else do
      let value := (← load pdu (packed + byteIndex)).toNat >>> shift
      if shift > 1 then
        if byteIndex + 1 ≥ packedLen then .ok (false, septets)
        else
          let value := value ||| (← load pdu (packed + (byteIndex + 1))).toNat <<< (8 - shift)
          let septets ← store septets i (UInt8.ofNat (value &&& 0x7F))
          unpackSeptets pdu packed packedLen startBit count (i + 1) septets
      else
        let septets ← store septets i (UInt8.ofNat (value &&& 0x7F))
        unpackSeptets pdu packed packedLen startBit count (i + 1) septets
  termination_by count - i

/-- The digit loop of `address_decode` from semi-octet `i` on. -/
def addressDigits (pdu : List UInt8) (data semiOctetCount outCapacity i pos : Nat)
    (out : List UInt8) : Access (Bool × List UInt8) :=
  if i ≥ semiOctetCount then do
    let out ← store out pos 0
    .ok (true, out)
  else do
    let octet ← load pdu (data + i / 2)
    match addressChar (if i % 2 = 0 then octet &&& 0x0F else octet >>> 4) with
    | none => .ok (false, out)
    | some ch =>
        if pos + 1 ≥ outCapacity then .ok (false, out)
        else
          let out ← store out pos ch
          addressDigits pdu data semiOctetCount outCapacity (i + 1) (pos + 1) out
  termination_by semiOctetCount - i

def addressDecode (pdu : List UInt8) (data dataLen semiOctetCount : Nat) (toa : UInt8)
    (out : List UInt8) (outCapacity : Nat) : Access (Bool × List UInt8) :=
  let requiredBytes := (semiOctetCount + 1) / 2
  let ton := (toa >>> 4) &&& 0x07
  if outCapacity = 0 ∨ dataLen < requiredBytes then .ok (false, out)
  else if ton = 0x05 then
    let septetCount := semiOctetCount * 4 / 7
    if septetCount > 11 then .ok (false, out)
    else do
      let (unpacked, septets) ←
        unpackSeptets pdu data requiredBytes 0 septetCount 0 (List.replicate 11 0)
      if unpacked then smsGsm7Decode septets septetCount out outCapacity else .ok (false, out)
  else if ton = 0x01 then
    if 1 ≥ outCapacity then .ok (false, out)
    else do
      let out ← store out 0 0x2B
      addressDigits pdu data semiOctetCount outCapacity 0 1 out
  else addressDigits pdu data semiOctetCount outCapacity 0 0 out

/-! These write what the decoders on lists return. -/

theorem bind_ok {α β : Type} (value : α) (f : α → Access β) :
    (Except.ok value >>= f : Access β) = f value := rfl

/-- Without a fault, the action returns this result and leaves the array of this
size with the written text, which ends before the array does. -/
def Writes {β : Type} (size : Nat) (action : Access (β × List UInt8)) (result : β × List UInt8) :
    Prop :=
  action = .ok (result.1, padded size result.2) ∧ result.2.length < size

/-- Appending a code point, and what follows it. -/
theorem append_writes {β : Type} (cp : Nat) {capacity : Nat} {out : List UInt8}
    (fits : out.length < capacity) (failed : β) {next : List UInt8 → Nat → Access (β × List UInt8)}
    {rest : List UInt8 → β × List UInt8}
    (later : ∀ more, more.length < capacity →
      Writes capacity (next (padded capacity more) more.length) (rest more)) :
    Writes capacity
      (do let (appended, utf8, length) ← smsUtf8Append cp (padded capacity out) capacity out.length
          if appended then next utf8 length else .ok (failed, utf8))
      (match SmsGateway.smsUtf8Append cp capacity out with
        | none => (failed, out)
        | some more => rest more) := by
  simp only [smsUtf8Append, SmsGateway.smsUtf8Append, Nat.not_le.mpr fits, ↓reduceIte]
  cases utf8Octets cp with
  | none => exact ⟨rfl, fits⟩
  | some octets =>
      dsimp only
      split
      · exact ⟨rfl, fits⟩
      · rename_i room
        have written := storeAll_padded octets (show out.length + octets.length ≤ capacity by omega)
        have size : (out ++ octets).length = out.length + octets.length := List.length_append
        have ended := store_zero (show (out ++ octets).length < capacity by omega)
        rw [size] at ended
        rw [written, bind_ok, ended, bind_ok, ← size]
        exact later (out ++ octets) (by omega)

theorem gsm7DecodeLoop_writes {septets : List UInt8} {count capacity : Nat}
    (inside : count ≤ septets.length) (i : Nat) {out : List UInt8} (fits : out.length < capacity) :
    Writes capacity (gsm7DecodeLoop septets count capacity i (padded capacity out) out.length)
      (SmsGateway.gsm7DecodeLoop capacity (window septets i count) out) := by
  induction left : count - i using Nat.strong_induction_on generalizing i out with
  | _ n ih =>
      subst left
      rw [gsm7DecodeLoop, SmsGateway.gsm7DecodeLoop.eq_def]
      by_cases ended : i ≥ count
      · rw [if_pos ended, window_nil ended]
        exact ⟨rfl, fits⟩
      · rw [if_neg ended]
        obtain ⟨septet, read, split⟩ := window_cons inside (Nat.not_le.mp ended)
        rw [read, bind_ok, split]
        dsimp only
        by_cases escape : septet = 0x1B
        · rw [if_pos escape, if_pos escape]
          by_cases last : i + 1 ≥ count
          · rw [if_pos last, window_nil last]
            exact ⟨rfl, fits⟩
          · rw [if_neg last]
            obtain ⟨second, read, split⟩ := window_cons inside (Nat.not_le.mp last)
            rw [read, bind_ok, split]
            dsimp only
            cases gsm7ExtensionDecode second with
            | none => exact ⟨rfl, fits⟩
            | some cp =>
                exact append_writes cp fits false fun more room =>
                  ih (count - (i + 2)) (by omega) (i + 2) room rfl
        · rw [if_neg escape, if_neg escape]
          exact append_writes _ fits false fun more room =>
            ih (count - (i + 1)) (by omega) (i + 1) room rfl

theorem smsGsm7Decode_writes {septets : List UInt8} {count capacity : Nat}
    (inside : count ≤ septets.length) (positive : 0 < capacity) :
    Writes capacity (smsGsm7Decode septets count (padded capacity []) capacity)
      (SmsGateway.smsGsm7Decode (septets.take count) capacity) := by
  have cleared := store_zero (show ([] : List UInt8).length < capacity by exact positive)
  rw [List.length_nil] at cleared
  simp only [smsGsm7Decode, SmsGateway.smsGsm7Decode, show capacity ≠ 0 by omega, ↓reduceIte]
  rw [cleared, bind_ok]
  exact gsm7DecodeLoop_writes inside 0 positive

/-- Septets are unpacked into the front of the array. -/
theorem unpackSeptets_ok {pdu : List UInt8} {packed packedLen count size : Nat}
    (inside : packed + packedLen ≤ pdu.length) (room : count ≤ size) (startBit i : Nat)
    {done : List UInt8} (length : done.length = i) :
    ∃ septets, unpackSeptets pdu packed packedLen startBit count i (padded size done) =
        .ok ((SmsGateway.unpackSeptets (window pdu packed (packed + packedLen)) (startBit + i * 7)
          (count - i)).isSome, septets) ∧
      ∀ more, SmsGateway.unpackSeptets (window pdu packed (packed + packedLen)) (startBit + i * 7)
        (count - i) = some more → septets = padded size (done ++ more) := by
  have bytes : (window pdu packed (packed + packedLen)).length = packedLen := by
    rw [window_length inside]
    omega
  induction left : count - i generalizing i done with
  | zero =>
      rw [unpackSeptets, if_pos (by omega)]
      refine ⟨padded size done, rfl, ?_⟩
      rintro more ⟨rfl⟩
      rw [List.append_nil]
  | succ n ih =>
      rw [unpackSeptets, if_neg (by omega), SmsGateway.unpackSeptets]
      simp only [SmsGateway.unpackSeptet, bytes]
      -- One septet is stored, and the loop goes on.
      have step (septet : UInt8) :
          ∃ septets, (do let septets ← store (padded size done) i septet
                         unpackSeptets pdu packed packedLen startBit count (i + 1) septets) =
              .ok (((SmsGateway.unpackSeptets (window pdu packed (packed + packedLen))
                (startBit + i * 7 + 7) n).map (septet :: ·)).isSome, septets) ∧
            ∀ more, (SmsGateway.unpackSeptets (window pdu packed (packed + packedLen))
              (startBit + i * 7 + 7) n).map (septet :: ·) = some more →
                septets = padded size (done ++ more) := by
        have stored := store_padded septet (show done.length < size by omega)
        rw [length] at stored
        obtain ⟨septets, run, written⟩ := @ih (i + 1) (done ++ [septet]) (by simp [length])
          (by omega)
        rw [show startBit + (i + 1) * 7 = startBit + i * 7 + 7 by omega] at run written
        refine ⟨septets, by rw [stored, bind_ok, run, Option.isSome_map], ?_⟩
        intro more equal
        obtain ⟨rest, found, rfl⟩ := Option.map_eq_some_iff.mp equal
        rw [written rest found, List.append_assoc, List.singleton_append]
      by_cases first : (startBit + i * 7) / 8 ≥ packedLen
      · rw [if_pos first, if_pos first]
        exact ⟨padded size done, rfl, by simp⟩
      · rw [if_neg first, if_neg first, load_window inside (Nat.not_le.mp first) 0, bind_ok]
        by_cases spill : (startBit + i * 7) % 8 > 1
        · simp only [spill, ↓reduceIte]
          by_cases second : (startBit + i * 7) / 8 + 1 ≥ packedLen
          · rw [if_pos second, if_pos second]
            exact ⟨padded size done, rfl, by simp⟩
          · rw [if_neg second, if_neg second, load_window inside (Nat.not_le.mp second) 0, bind_ok]
            exact step _
        · simp only [spill, ↓reduceIte]
          exact step _

/-- The septets that were unpacked can be decoded. -/
theorem unpackSeptets_cases {pdu : List UInt8} {packed packedLen count : Nat}
    (inside : packed + packedLen ≤ pdu.length) {size : Nat} (room : count ≤ size) (startBit : Nat)
    {capacity : Nat} (positive : 0 < capacity) :
    (SmsGateway.unpackSeptets (window pdu packed (packed + packedLen)) startBit count = none ∧
      ∃ septets, unpackSeptets pdu packed packedLen startBit count 0 (List.replicate size 0) =
        .ok (false, septets)) ∨
    ∃ more septets,
      SmsGateway.unpackSeptets (window pdu packed (packed + packedLen)) startBit count = some more ∧
      unpackSeptets pdu packed packedLen startBit count 0 (List.replicate size 0) =
        .ok (true, septets) ∧
      Writes capacity (smsGsm7Decode septets count (padded capacity []) capacity)
        (SmsGateway.smsGsm7Decode more capacity) := by
  obtain ⟨septets, run, written⟩ :=
    unpackSeptets_ok inside room startBit 0 (show ([] : List UInt8).length = 0 from rfl)
  simp only [padded, List.length_nil, Nat.sub_zero, List.nil_append, Nat.zero_mul, Nat.add_zero]
    at run
  simp only [Nat.zero_mul, Nat.add_zero, Nat.sub_zero, List.nil_append] at written
  cases found : SmsGateway.unpackSeptets (window pdu packed (packed + packedLen)) startBit count with
  | none =>
      rw [found] at run
      exact .inl ⟨rfl, septets, run⟩
  | some more =>
      rw [found] at run
      have whole := written more found
      have length := unpackSeptets_length found
      have available : count ≤ septets.length := by
        rw [whole, padded_length (by omega)]
        exact room
      have front : septets.take count = more := by
        rw [whole, padded, List.take_append_of_le_length (by omega), ← length, List.take_length]
      have decoded := smsGsm7Decode_writes available positive
      rw [front] at decoded
      exact .inr ⟨more, septets, rfl, run, decoded⟩

theorem addressDigits_writes {pdu : List UInt8} {data count capacity : Nat}
    (inside : data + (count + 1) / 2 ≤ pdu.length) (i : Nat) {out : List UInt8}
    (fits : out.length < capacity) :
    Writes capacity (addressDigits pdu data count capacity i out.length (padded capacity out))
      (SmsGateway.addressDigits (pdu.drop data) capacity (count - i) i out) := by
  induction left : count - i generalizing i out with
  | zero =>
      rw [addressDigits, if_pos (by omega), store_zero fits, bind_ok]
      exact ⟨rfl, fits⟩
  | succ n ih =>
      rw [addressDigits, if_neg (by omega), load_drop (by omega) 0, bind_ok,
        SmsGateway.addressDigits, nibbleAt]
      cases addressChar (if i % 2 = 0 then (pdu.drop data).getD (i / 2) 0 &&& 0x0F
          else (pdu.drop data).getD (i / 2) 0 >>> 4) with
      | none => exact ⟨rfl, fits⟩
      | some ch =>
          dsimp only
          by_cases full : out.length + 1 ≥ capacity
          · rw [if_pos full, if_pos full]
            exact ⟨rfl, fits⟩
          · rw [if_neg full, if_neg full, store_padded ch fits, bind_ok]
            have rest := @ih (i + 1) (out ++ [ch]) (by
              rw [List.length_append, List.length_singleton]
              omega) (by omega)
            rw [List.length_append, List.length_singleton] at rest
            exact rest

theorem addressDecode_writes {pdu : List UInt8} {data dataLen capacity : Nat}
    (length : data + dataLen = pdu.length) (count : Nat) (toa : UInt8) (positive : 0 < capacity) :
    Writes capacity (addressDecode pdu data dataLen count toa (padded capacity []) capacity)
      (SmsGateway.addressDecode (pdu.drop data) count toa capacity) := by
  simp only [addressDecode, SmsGateway.addressDecode, List.length_drop,
    show pdu.length - data = dataLen by omega]
  by_cases short : capacity = 0 ∨ dataLen < (count + 1) / 2
  · rw [if_pos short, if_pos short]
    exact ⟨rfl, positive⟩
  rw [if_neg short, if_neg short]
  have inside : data + (count + 1) / 2 ≤ pdu.length := by omega
  by_cases alphanumeric : (toa >>> 4) &&& 0x07 = 0x05
  · rw [if_pos alphanumeric, if_pos alphanumeric]
    by_cases many : count * 4 / 7 > 11
    · rw [if_pos many, if_pos many]
      exact ⟨rfl, positive⟩
    · rw [if_neg many, if_neg many, ← window_eq_take]
      rcases unpackSeptets_cases inside (Nat.not_lt.mp many) 0 positive with
        ⟨none, septets, run⟩ | ⟨more, septets, found, run, decoded⟩
      · rw [none, run, bind_ok]
        exact ⟨rfl, positive⟩
      · rw [found, run, bind_ok]
        exact decoded
  rw [if_neg alphanumeric, if_neg alphanumeric]
  by_cases international : (toa >>> 4) &&& 0x07 = 0x01
  · rw [if_pos international, if_pos international]
    by_cases small : 1 ≥ capacity
    · rw [if_pos small, if_pos small]
      exact ⟨rfl, positive⟩
    · have plus := store_padded (0x2B : UInt8)
        (show ([] : List UInt8).length < capacity from positive)
      rw [List.length_nil] at plus
      rw [if_neg small, if_neg small, plus, bind_ok]
      exact addressDigits_writes inside 0 (show [0x2B].length < capacity by
        rw [List.length_singleton]
        omega)
  · rw [if_neg international, if_neg international]
    exact addressDigits_writes inside 0 (show ([] : List UInt8).length < capacity from positive)

end SmsGateway.Checked
