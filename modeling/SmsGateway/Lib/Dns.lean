import Mathlib.Data.List.Basic

/-! Messages of the domain name system with one question: a header, a name of labels without
compression, the type and the class of the question, and whatever follows. -/

namespace SmsGateway.Lib.Dns

/-- A word, its higher octet first. -/
def octets (value : UInt16) : List UInt8 :=
  [UInt8.ofNat (value.toNat / 256), UInt8.ofNat value.toNat]

def word (high low : UInt8) : UInt16 := UInt16.ofNat (high.toNat * 256 + low.toNat)

theorem octets_word (high low : UInt8) : octets (word high low) = [high, low] := by
  have big := high.toNat_lt
  have small := low.toNat_lt
  have value : (word high low).toNat = high.toNat * 256 + low.toNat := by
    rw [word, UInt16.toNat_ofNat']
    exact Nat.mod_eq_of_lt (by omega)
  have first : (high.toNat * 256 + low.toNat) / 256 = high.toNat := by omega
  have second : UInt8.ofNat (high.toNat * 256 + low.toNat) = low := by
    apply UInt8.toNat_inj.mp
    rw [UInt8.toNat_ofNat']
    omega
  rw [octets, value, first, second, UInt8.ofNat_toNat]

theorem word_octets (value : UInt16) :
    word (UInt8.ofNat (value.toNat / 256)) (UInt8.ofNat value.toNat) = value := by
  have bound := value.toNat_lt
  apply UInt16.toNat_inj.mp
  rw [word, UInt16.toNat_ofNat', UInt8.toNat_ofNat', UInt8.toNat_ofNat']
  omega

/-- A label of a name. -/
@[ext]
structure Label where
  bytes : List UInt8
  nonempty : bytes ≠ []
  short : bytes.length < 256
  deriving DecidableEq

/-- A label after its length. -/
def Label.encode (label : Label) : List UInt8 := UInt8.ofNat label.bytes.length :: label.bytes

def encodeName (name : List Label) : List UInt8 := name.flatMap Label.encode ++ [0]

theorem encodeName_cons (label : Label) (name : List Label) :
    encodeName (label :: name) = label.encode ++ encodeName name := by
  rw [encodeName, List.flatMap_cons, List.append_assoc]
  rfl

theorem Label.length_toNat (label : Label) :
    (UInt8.ofNat label.bytes.length).toNat = label.bytes.length := by
  rw [UInt8.toNat_ofNat']
  exact Nat.mod_eq_of_lt label.short

theorem Label.length_ne_zero (label : Label) : UInt8.ofNat label.bytes.length ≠ 0 := by
  intro zero
  have size := label.length_toNat
  rw [zero] at size
  exact label.nonempty (List.eq_nil_of_length_eq_zero size.symm)

/-- The label of this length at the front. -/
def Label.front (length : UInt8) (bytes : List UInt8) (some : length ≠ 0)
    (enough : length.toNat ≤ bytes.length) : Label where
  bytes := bytes.take length.toNat
  nonempty := by
    intro nil
    have size := congrArg List.length nil
    rw [List.length_take, Nat.min_eq_left enough] at size
    exact some (UInt8.toNat_inj.mp size)
  short := by
    rw [List.length_take, Nat.min_eq_left enough]
    exact length.toNat_lt

theorem Label.front_encode {length : UInt8} {bytes : List UInt8} (some : length ≠ 0)
    (enough : length.toNat ≤ bytes.length) :
    (Label.front length bytes some enough).encode = length :: bytes.take length.toNat := by
  rw [encode, front, List.length_take, Nat.min_eq_left enough, UInt8.ofNat_toNat]

/-- A name, and what follows it. -/
def decodeName (bytes : List UInt8) : Option (List Label × List UInt8) :=
  match bytes with
  | [] => none
  | length :: rest =>
      if zero : length = 0 then some ([], rest)
      else if enough : length.toNat ≤ rest.length then
        (decodeName (rest.drop length.toNat)).map fun parts =>
          (.front length rest zero enough :: parts.1, parts.2)
      else none
termination_by bytes.length
decreasing_by
  rw [List.length_drop, List.length_cons]
  omega

theorem decodeName_encodeName (name : List Label) (rest : List UInt8) :
    decodeName (encodeName name ++ rest) = some (name, rest) := by
  induction name with
  | nil =>
      rw [encodeName, decodeName.eq_def]
      rfl
  | cons label name ih =>
      have size := label.length_toNat
      have enough : (UInt8.ofNat label.bytes.length).toNat ≤
          (label.bytes ++ (encodeName name ++ rest)).length := by
        rw [size, List.length_append]
        exact Nat.le_add_right ..
      have dropped : (label.bytes ++ (encodeName name ++ rest)).drop
          (UInt8.ofNat label.bytes.length).toNat = encodeName name ++ rest := by
        rw [size, List.drop_left]
      have same : Label.front _ _ label.length_ne_zero enough = label := by
        apply Label.ext
        change (label.bytes ++ (encodeName name ++ rest)).take _ = label.bytes
        rw [size, List.take_left]
      rw [encodeName_cons, Label.encode, List.append_assoc, List.cons_append, decodeName.eq_def]
      simp only [dif_neg label.length_ne_zero, dif_pos enough, dropped, ih, Option.map_some, same]

theorem encodeName_of_decodeName {bytes rest : List UInt8} {name : List Label}
    (decoded : decodeName bytes = some (name, rest)) : bytes = encodeName name ++ rest := by
  induction name generalizing bytes with
  | nil =>
      rw [decodeName.eq_def] at decoded
      split at decoded
      · cases decoded
      · split at decoded
        · rename_i zero
          cases decoded
          rw [zero]
          rfl
        · split at decoded
          · obtain ⟨_, -, same⟩ := Option.map_eq_some_iff.mp decoded
            cases same
          · cases decoded
  | cons label name ih =>
      rw [decodeName.eq_def] at decoded
      split at decoded
      · cases decoded
      · split at decoded
        · cases decoded
        · split at decoded
          · rename_i length after some enough
            obtain ⟨⟨others, last⟩, inner, same⟩ := Option.map_eq_some_iff.mp decoded
            cases same
            rw [encodeName_cons, Label.front_encode, List.append_assoc, ← ih inner,
              List.cons_append, List.take_append_drop]
          · cases decoded

structure Header where
  id : UInt16
  flags : UInt16
  questions : UInt16
  answers : UInt16
  authorities : UInt16
  additional : UInt16
  deriving DecidableEq

def Header.encode (header : Header) : List UInt8 :=
  octets header.id ++ octets header.flags ++ octets header.questions ++ octets header.answers ++
    octets header.authorities ++ octets header.additional

structure Message where
  header : Header
  name : List Label
  qtype : UInt16
  qclass : UInt16
  rest : List UInt8
  deriving DecidableEq

/-- The header and the question. -/
def Message.front (message : Message) : List UInt8 :=
  message.header.encode ++ encodeName message.name ++ octets message.qtype ++ octets message.qclass

def Message.encode (message : Message) : List UInt8 := message.front ++ message.rest

def decode : List UInt8 → Option Message
  | i :: i' :: f :: f' :: q :: q' :: a :: a' :: n :: n' :: r :: r' :: bytes =>
      match decodeName bytes with
      | some (name, t :: t' :: c :: c' :: rest) =>
          some ⟨⟨word i i', word f f', word q q', word a a', word n n', word r r'⟩, name, word t t',
            word c c', rest⟩
      | _ => none
  | _ => none

theorem decode_encode (message : Message) : decode message.encode = some message := by
  obtain ⟨⟨id, flags, questions, answers, authorities, additional⟩, name, qtype, qclass, rest⟩ := message
  have inner := decodeName_encodeName name (octets qtype ++ (octets qclass ++ rest))
  simp only [Message.encode, Message.front, Header.encode, List.append_assoc]
  simp only [octets, List.cons_append, List.nil_append] at inner ⊢
  simp only [decode, inner, word_octets]

theorem encode_of_decode {bytes : List UInt8} {message : Message}
    (decoded : decode bytes = some message) : message.encode = bytes := by
  unfold decode at decoded
  split at decoded
  · split at decoded
    · rename_i name _ _ _ _ rest inner
      cases decoded
      rw [encodeName_of_decodeName inner]
      simp only [Message.encode, Message.front, Header.encode, octets_word, List.append_assoc]
      rfl
    · cases decoded
  · cases decoded

/-- The name and the two words behind it. -/
def Message.question (message : Message) : List UInt8 :=
  encodeName message.name ++ octets message.qtype ++ octets message.qclass

theorem Message.front_eq (message : Message) :
    message.front = message.header.encode ++ message.question := by
  rw [front, question, List.append_assoc, List.append_assoc, List.append_assoc]

theorem Message.question_length (message : Message) :
    message.question.length = (encodeName message.name).length + 4 := by
  rw [question, List.length_append, List.length_append]
  rfl

theorem Message.front_length (message : Message) :
    message.front.length = (encodeName message.name).length + 16 := by
  rw [front_eq, List.length_append, question_length, Nat.add_comm]
  rfl

/-- A name behind the header and two words behind the name are enough. -/
theorem decode_of_decodeName {bytes rest : List UInt8} {name : List Label}
    (header : 12 ≤ bytes.length) (decoded : decodeName (bytes.drop 12) = some (name, rest))
    (words : 4 ≤ rest.length) : decode bytes ≠ none := by
  rcases bytes with _ | ⟨i, _ | ⟨i', _ | ⟨f, _ | ⟨f', _ | ⟨q, _ | ⟨q', _ | ⟨a, _ | ⟨a', _ | ⟨n, _ |
    ⟨n', _ | ⟨r, _ | ⟨r', bytes⟩⟩⟩⟩⟩⟩⟩⟩⟩⟩⟩⟩
  iterate 12 · simp at header
  rcases rest with _ | ⟨t, _ | ⟨t', _ | ⟨c, _ | ⟨c', rest⟩⟩⟩⟩
  iterate 4 · simp at words
  simp only [List.drop_succ_cons, List.drop_zero] at decoded
  simp [decode, decoded]

end SmsGateway.Lib.Dns
