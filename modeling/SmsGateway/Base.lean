import Mathlib.Algebra.GroupWithZero.Nat
import Mathlib.Data.List.TakeWhile

/-! Error codes, character arrays and the data types that the codec shares with
the store. -/

namespace SmsGateway

/-- `esp_err_t` without `ESP_OK`, which is `Except.ok`. A refused NVS call
returns a code of its own, different from the other constructors here. -/
inductive EspErr where
  | fail
  | noMem
  | invalidArg
  | invalidState
  | invalidSize
  | notFound
  | notSupported
  | invalidResponse
  | timeout
  | invalidVersion
  | nvsNotFound
  | nvs (code : Nat)
  deriving DecidableEq, Repr

/-- `at_result_t`. -/
inductive AtResult where
  | ok
  | error
  | cmeError
  | cmsError
  | timeout
  | canceled
  | transportUnavailable
  | transportError
  | rxOverflow
  | protocolError
  deriving DecidableEq, Repr

/-- A fact about one octet is checked on all 256 of them. -/
theorem forall_octet {P : UInt8 → Prop} (all : ∀ n < 256, P (UInt8.ofNat n)) (octet : UInt8) :
    P octet := by
  have here := all octet.toNat octet.toNat_lt
  rwa [UInt8.ofNat_toNat] at here

/-- A NUL-terminated string, given by the bytes before its terminator. -/
structure CStr where
  bytes : List UInt8
  noNul : 0 ∉ bytes
  deriving DecidableEq, Repr

namespace CStr

def empty : CStr := ⟨[], by simp⟩

instance : Inhabited CStr := ⟨empty⟩

/-- `strlen`. -/
def length (s : CStr) : Nat := s.bytes.length

@[ext] theorem ext {s t : CStr} (same : s.bytes = t.bytes) : s = t := by
  cases s
  cases t
  simp_all

/-- The string that starts at a byte buffer: it ends at the first NUL. -/
def ofBytes (buffer : List UInt8) : CStr :=
  ⟨buffer.takeWhile (· ≠ 0), by
    intro member
    have := List.mem_takeWhile_imp member
    simp at this⟩

def append (s t : CStr) : CStr :=
  ⟨s.bytes ++ t.bytes, by simp [s.noNul, t.noNul]⟩

instance : Append CStr := ⟨append⟩

@[simp] theorem append_bytes (s t : CStr) : (s ++ t).bytes = s.bytes ++ t.bytes := rfl

@[simp] theorem empty_bytes : empty.bytes = [] := rfl

/-- The first `n` bytes of a string, as `strncpy` copies them. -/
def truncate (n : Nat) (s : CStr) : CStr :=
  ⟨s.bytes.take n, fun member => s.noNul (List.mem_of_mem_take member)⟩

theorem truncate_of_length_le {n : Nat} {s : CStr} (short : s.length ≤ n) : s.truncate n = s := by
  apply CStr.ext
  exact List.take_of_length_le short

/-- A string literal of the source. -/
def text (literal : String) : CStr :=
  ofBytes (literal.toList.map fun c => UInt8.ofNat c.toNat)

/-- `strncmp(line, start, strlen(start)) == 0`. -/
def startsWith (line start : CStr) : Bool := start.bytes.isPrefixOf line.bytes

theorem ofBytes_of_noNul {buffer : List UInt8} (noNul : 0 ∉ buffer) :
    (ofBytes buffer).bytes = buffer := by
  apply List.takeWhile_eq_self_iff.mpr
  intro byte member
  simp only [decide_not, Bool.not_eq_eq_eq_not, Bool.not_true, decide_eq_false_iff_not]
  rintro rfl
  exact noNul member

end CStr

/-- `isspace` in the C locale. -/
def isSpace (byte : UInt8) : Bool := byte == 0x20 || (0x09 ≤ byte && byte ≤ 0x0D)

def isDigit (ch : UInt8) : Bool := decide (0x30 ≤ ch ∧ ch ≤ 0x39)

/-- The contents of a `char` array: the string it holds, and an unterminated
array when the string fills it. -/
structure CharArray (capacity : Nat) where
  str : CStr
  fits : str.length ≤ capacity
  deriving DecidableEq, Repr

namespace CharArray

variable {capacity : Nat}

/-- A zeroed array. -/
def zero : CharArray capacity := ⟨.empty, by simp [CStr.length]⟩

instance : Inhabited (CharArray capacity) := ⟨zero⟩

/-- `memchr(field, 0, capacity) != NULL`. -/
def terminated (a : CharArray capacity) : Bool := decide (a.str.length < capacity)

/-- `strncpy(array, source, capacity - 1)` into a zeroed or terminated array. -/
def strncpy (source : CStr) : CharArray capacity :=
  ⟨source.truncate (capacity - 1), by
    simp only [CStr.length, CStr.truncate, List.length_take]
    omega⟩

theorem strncpy_str {source : CStr} (fits : source.length < capacity) :
    (strncpy source : CharArray capacity).str = source := by
  apply CStr.truncate_of_length_le
  omega

end CharArray

/-- A terminated `char` array: what the decoders leave in their output. -/
structure CString (capacity : Nat) where
  str : CStr
  fits : str.length < capacity
  deriving DecidableEq, Repr

namespace CString

variable {capacity : Nat} [NeZero capacity]

/-- The array after these bytes and a terminator were written to it. -/
def ofBytes (bytes : List UInt8) : CString capacity :=
  ⟨(CStr.ofBytes bytes).truncate (capacity - 1), by
    have positive := Nat.pos_of_ne_zero (NeZero.ne capacity)
    simp only [CStr.length, CStr.truncate, List.length_take]
    omega⟩

def zero : CString capacity := ofBytes []

theorem ofBytes_str {s : CStr} (short : s.length < capacity) :
    (ofBytes s.bytes : CString capacity).str = s := by
  have whole : CStr.ofBytes s.bytes = s := CStr.ext (CStr.ofBytes_of_noNul s.noNul)
  simp only [ofBytes, whole]
  exact CStr.truncate_of_length_le (by omega)

end CString

-- The capacities that more than one module fills.
instance neZero24 : NeZero 24 := ⟨by decide⟩

instance neZero40 : NeZero 40 := ⟨by decide⟩

instance neZero64 : NeZero 64 := ⟨by decide⟩

instance neZero2048 : NeZero 2048 := ⟨by decide⟩

inductive SmsEncoding where
  | gsm7
  | ucs2
  | eightBit
  | unknown
  deriving DecidableEq, Repr

/-- `sms_concat_info_t`. -/
structure SmsConcatInfo where
  present : Bool
  is16bit : Bool
  reference : UInt16
  totalParts : UInt8
  partNumber : UInt8
  deriving DecidableEq, Repr

def SmsConcatInfo.zero : SmsConcatInfo := ⟨false, false, 0, 0, 0⟩

def smsMaxSegments : Nat := 16

end SmsGateway
