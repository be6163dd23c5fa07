import Mathlib.Data.Vector.Defs
import SmsGateway.Lib.Dns
import SmsGateway.Lib.Memory

/-! The name server of the setup portal (`provisioning_portal.c`): every question is answered with
the address of the portal. -/

namespace SmsGateway.Network

open Lib Lib.Dns

def packetSize : Nat := 512

/-- The record of the answer: for the name at offset 12, of type A and class IN, for 30 seconds,
192.168.4.1. -/
def record : List UInt8 := [0xC0, 0x0C, 0, 1, 0, 1, 0, 0, 0, 30, 0, 4, 192, 168, 4, 1]

/-- The loop over the labels of the question: where it stops. -/
def skipLabels (packet : List UInt8) (len questionEnd : Nat) : Access Nat :=
  if questionEnd < len then do
    let label ← load packet questionEnd
    if label ≠ 0 then skipLabels packet len (questionEnd + (label.toNat + 1))
    else pure questionEnd
  else pure questionEnd
termination_by len - questionEnd

/-- `sendto` with the first octets of the array. -/
def sendto (packet : List UInt8) (len : Nat) : Access (List UInt8) :=
  if len ≤ packet.length then .ok (packet.take len) else .error ⟨len - 1, packet.length⟩

/-- `dns_task` on what `recvfrom` put to the front of the packet: what it sends back. -/
def dnsReply (packet : List UInt8) (len : Nat) : Access (Option (List UInt8)) :=
  if len < 13 then pure none
  else do
    -- the zero label, QTYPE and QCLASS
    let questionEnd := (← skipLabels packet len 12) + 5
    if len < questionEnd ∨ packetSize < questionEnd + 16 then pure none
    else do
      let packet ← store packet 2 0x81
      let packet ← store packet 3 0x80
      let packet ← store packet 6 0
      let packet ← store packet 7 1
      let packet ← storeAll packet 8 [0, 0, 0, 0]
      let packet ← storeAll packet questionEnd record
      return some (← sendto packet (questionEnd + record.length))

/-- A pass of the loop of `dns_task`, with the packet as it is on the stack: a longer datagram is
cut. -/
def dnsPass (packet : List.Vector UInt8 packetSize) (datagram : List UInt8) :
    Access (Option (List UInt8)) := do
  let received := datagram.take packetSize
  let packet ← storeAll packet.toList 0 received
  dnsReply packet received.length

/-- `dns_task`: pass by pass what is on the stack, and the datagram with its sender, or none in
time. The replies, and whom they are sent to. -/
def dnsTask {Peer : Type} :
    List (List.Vector UInt8 packetSize × Option (List UInt8 × Peer)) →
      Access (List (List UInt8 × Peer))
  | [] => pure []
  | (_, none) :: passes => dnsTask passes
  | (packet, some (datagram, peer)) :: passes => do
      match ← dnsPass packet datagram with
      | none => dnsTask passes
      | some sent => do
          let others ← dnsTask passes
          pure ((sent, peer) :: others)

/-- The answer to a message: its identifier and its question, and the record. -/
def answerTo (message : Message) : Message :=
  { message with
    header := { message.header with flags := 0x8180, answers := 1, authorities := 0, additional := 0 }
    rest := record }

/-- What is sent back for a datagram: to a message with one question that leaves room for the
record, the answer. -/
def reply (datagram : List UInt8) : Option (List UInt8) :=
  match decode (datagram.take packetSize) with
  | none => none
  | some message =>
      if message.front.length + record.length ≤ packetSize then some (answerTo message).encode
      else none

/-! ## The question -/

/-- The name of the window ends where the loop stops, unless the loop runs behind the window. -/
theorem skipLabels_spec {packet : List UInt8} {len questionEnd : Nat} (inside : len ≤ packet.length) :
    ∃ stop, skipLabels packet len questionEnd = .ok stop ∧
      match decodeName (window packet questionEnd len) with
      | none => len ≤ stop
      | some (name, rest) => stop + 1 + rest.length = len ∧
          stop + 1 = questionEnd + (encodeName name).length := by
  fun_induction skipLabels packet len questionEnd with
  | case1 questionEnd more ih =>
      obtain ⟨label, loaded, shape⟩ := window_cons inside more
      have size : (window packet (questionEnd + 1) len).length = len - (questionEnd + 1) :=
        window_length inside
      rw [loaded, shape, decodeName.eq_def]
      by_cases zero : label = 0
      · subst zero
        exact ⟨questionEnd, rfl, by omega, rfl⟩
      · obtain ⟨stop, stops, found⟩ := ih label
        have next : questionEnd + (label.toNat + 1) = questionEnd + 1 + label.toNat := by omega
        refine ⟨stop, (if_pos zero).trans stops, ?_⟩
        rw [next] at found
        simp only [dif_neg zero]
        by_cases enough : label.toNat ≤ (window packet (questionEnd + 1) len).length
        · rw [dif_pos enough, window_drop]
          cases inner : decodeName (window packet (questionEnd + 1 + label.toNat) len) with
          | none =>
              rw [inner] at found
              exact found
          | some parts =>
              rw [inner] at found
              refine ⟨found.1, ?_⟩
              rw [found.2, encodeName_cons, Label.front_encode, List.length_append,
                List.length_cons, List.length_take, Nat.min_eq_left enough]
              omega
        · rw [dif_neg enough]
          rw [window_nil (by omega), decodeName.eq_def] at found
          exact found
  | case2 questionEnd ended =>
      refine ⟨questionEnd, rfl, ?_⟩
      rw [window_nil (by omega), decodeName.eq_def]
      exact Nat.le_of_not_lt ended

/-! ## The reply -/

theorem answerTo_encode (message : Message) : (answerTo message).encode =
    (answerTo message).header.encode ++ message.question ++ record := by
  rw [Message.encode, Message.front_eq]
  rfl

/-- The stores before the record make the header that of the answer. -/
theorem header_stored {β : Type} (message : Message) (rest : List UInt8)
    (next : List UInt8 → Access β) :
    (do
      let packet ← store (message.header.encode ++ rest) 2 0x81
      let packet ← store packet 3 0x80
      let packet ← store packet 6 0
      let packet ← store packet 7 1
      let packet ← storeAll packet 8 [0, 0, 0, 0]
      next packet) = next ((answerTo message).header.encode ++ rest) := by
  have flags : octets 0x8180 = [0x81, 0x80] := by decide
  have one : octets 1 = [0, 1] := by decide
  have zero : octets 0 = [0, 0] := by decide
  simp only [answerTo, Header.encode, flags, one, zero]
  simp [store, storeAll, octets]
  rfl

/-- Where the loop stops in a packet with a message at its front. -/
theorem skipLabels_message {packet : List UInt8} {message : Message} {others : List UInt8}
    (shape : packet = message.encode ++ others) :
    ∃ stop, skipLabels packet message.encode.length 12 = .ok stop ∧
      stop + 5 = message.front.length := by
  have inside : message.encode.length ≤ packet.length := by
    rw [shape, List.length_append]
    exact Nat.le_add_right ..
  have name : window packet 12 message.encode.length = encodeName message.name ++
      (octets message.qtype ++ (octets message.qclass ++ message.rest)) := by
    rw [window, shape, List.take_left, Message.encode, Message.front]
    simp only [List.append_assoc]
    exact List.drop_left' rfl
  obtain ⟨stop, stops, found⟩ := @skipLabels_spec packet message.encode.length 12 inside
  rw [name, decodeName_encodeName] at found
  refine ⟨stop, stops, ?_⟩
  rw [Message.front_length, ← Nat.succ_inj]
  omega

theorem dnsReply_message {packet : List UInt8} {message : Message} {others : List UInt8}
    (size : packet.length = packetSize) (shape : packet = message.encode ++ others) :
    dnsReply packet message.encode.length =
      .ok (if message.front.length + record.length ≤ packetSize then
        some (answerTo message).encode else none) := by
  obtain ⟨stop, stops, stopped⟩ := skipLabels_message shape
  have front := message.front_length
  have long : message.encode.length = message.front.length + message.rest.length := by
    rw [Message.encode, List.length_append]
  rw [dnsReply, if_neg (by omega), stops]
  change (if message.encode.length < stop + 5 ∨ packetSize < stop + 5 + 16 then pure none
    else _) = _
  rw [stopped]
  by_cases room : message.front.length + record.length ≤ packetSize
  · have few : ¬ (message.encode.length < message.front.length ∨
        packetSize < message.front.length + 16) := by
      rintro (short | full)
      · omega
      · exact absurd room (Nat.not_le.mpr full)
    rw [if_neg few, if_pos room]
    have parts : packet = message.header.encode ++ (message.question ++ (message.rest ++ others)) := by
      rw [shape, Message.encode, Message.front_eq, List.append_assoc, List.append_assoc]
    have whole : ((answerTo message).header.encode ++
        (message.question ++ (message.rest ++ others))).length = packetSize := by
      rw [← size, parts, List.length_append, @List.length_append _ message.header.encode]
      rfl
    have start : ((answerTo message).header.encode ++
        (message.question ++ (message.rest ++ others))).take message.front.length =
          (answerTo message).header.encode ++ message.question := by
      rw [← List.append_assoc, Message.front_eq]
      exact List.take_left' rfl
    rw [parts, header_stored, storeAll_inside (by rw [whole]; exact room), start]
    have length : ((answerTo message).header.encode ++ message.question ++ record).length =
        message.front.length + record.length := by
      rw [Message.front_eq, List.length_append]
      rfl
    change (sendto _ _ >>= fun sent => pure (some sent)) = _
    rw [sendto, if_pos (by rw [List.length_append, length]; exact Nat.le_add_right ..),
      List.take_left' length, answerTo_encode]
    rfl
  · have full : packetSize < message.front.length + 16 := Nat.not_le.mp room
    rw [if_pos (.inr full), if_neg room]
    rfl

/-- What follows a datagram that is no message with a question. -/
theorem dnsReply_none {packet received others : List UInt8} (shape : packet = received ++ others)
    (other : decode received = none) : dnsReply packet received.length = .ok none := by
  have inside : received.length ≤ packet.length := by
    rw [shape, List.length_append]
    exact Nat.le_add_right ..
  unfold dnsReply
  split
  · rfl
  · rename_i long
    obtain ⟨stop, stops, found⟩ := @skipLabels_spec packet received.length 12 inside
    rw [stops]
    change (if received.length < stop + 5 ∨ packetSize < stop + 5 + 16 then pure none else _) = _
    rw [window, shape, List.take_left] at found
    have short : received.length < stop + 5 := by
      by_contra more
      cases inner : decodeName (received.drop 12) with
      | none =>
          rw [inner] at found
          exact more (Nat.lt_of_le_of_lt found (by omega))
      | some parts =>
          rw [inner] at found
          exact decode_of_decodeName (by omega) inner (by omega) other
    rw [if_pos (.inl short)]
    rfl

theorem dnsPass_eq (packet : List.Vector UInt8 packetSize) (datagram : List UInt8) :
    dnsPass packet datagram = .ok (reply datagram) := by
  have few : (datagram.take packetSize).length ≤ packetSize := List.length_take_le _ _
  have size := packet.toList_length
  rw [dnsPass, storeAll_inside (by rw [Nat.zero_add, size]; exact few)]
  change dnsReply _ _ = _
  rw [List.take_zero, List.nil_append, Nat.zero_add, reply]
  cases decoded : decode (datagram.take packetSize) with
  | none => exact dnsReply_none rfl decoded
  | some message =>
      have same := encode_of_decode decoded
      rw [← same] at few ⊢
      refine dnsReply_message ?_ rfl
      rw [List.length_append, List.length_drop, size]
      omega

/-- In no run of the task does an access miss the packet, and what a sender gets back depends on its
own datagram alone, neither on what was on the stack nor on the datagrams of others: to a message
with one question, its answer. -/
theorem dnsTask_eq {Peer : Type}
    (passes : List (List.Vector UInt8 packetSize × Option (List UInt8 × Peer))) :
    dnsTask passes = .ok (passes.filterMap fun pass =>
      pass.2.bind fun received => (reply received.1).map fun sent => (sent, received.2)) := by
  induction passes with
  | nil => rfl
  | cons pass passes ih =>
      obtain ⟨packet, _ | ⟨datagram, peer⟩⟩ := pass
      · exact ih
      · rw [dnsTask, dnsPass_eq]
        change (match reply datagram with | none => _ | some sent => _) = _
        cases answer : reply datagram with
        | none =>
            rw [List.filterMap_cons_none (by simp [answer])]
            exact ih
        | some sent =>
            rw [List.filterMap_cons_some (b := (sent, peer)) (by simp [answer])]
            change (dnsTask passes >>= fun others => pure ((sent, peer) :: others)) = _
            rw [ih]
            rfl

/-- A question whose name has at most 255 octets is answered, whatever follows it, and who reads the
answer finds in it the identifier and the question that were sent, and the record. -/
theorem question_answered (message : Message) (named : (encodeName message.name).length ≤ 255)
    (packet : List.Vector UInt8 packetSize) :
    ∃ sent, dnsPass packet message.encode = .ok (some sent) ∧
      decode sent = some (answerTo message) := by
  have front := message.front_length
  have room : message.front.length + record.length ≤ packetSize := by
    calc
      message.front.length + record.length = (encodeName message.name).length + 32 := by rw [front]; rfl
      _ ≤ 255 + 32 := Nat.add_le_add_right named 32
      _ ≤ packetSize := by decide
  -- what does not fit is cut from the sections behind the question
  let cut : Message := { message with rest := message.rest.take (packetSize - message.front.length) }
  have received : message.encode.take packetSize = cut.encode := by
    rw [Message.encode, List.take_append, List.take_of_length_le (by omega)]
    rfl
  refine ⟨(answerTo message).encode, ?_, decode_encode _⟩
  rw [dnsPass_eq, reply, received, decode_encode]
  exact congrArg Except.ok (if_pos room)

/-- The question for the addresses of `a`. -/
def askA : Message :=
  ⟨⟨7, 0x0100, 1, 0, 0, 0⟩, [⟨[0x61], by decide, by decide⟩], 1, 1, []⟩

theorem question_answered_a : ∃ sent,
    dnsPass (List.Vector.replicate packetSize 0) askA.encode = .ok (some sent) ∧
      decode sent = some (answerTo askA) :=
  question_answered askA (by decide) _

end SmsGateway.Network
