import SmsGateway.Service.PersistBeforeDelete
import SmsGateway.Store.Atomic

/-! Messages the decoder cannot interpret: which of them are kept as raw PDUs. -/

namespace SmsGateway

open Lib Prog

/-- The journal holds the raw PDU in an unsupported record. -/
def Quarantined (pdu : CStr) (w : World) : Prop :=
  ∃ m, w.Holds m ∧ m.direction = .inbound ∧ m.status = .unsupported ∧ m.rawPdu.str = pdu

/-- Processing the PDU stores it as an unsupported record and succeeds, from every
reachable journal, whenever no allocation and no store call fails. -/
def Quarantines (pdu : CStr) (index : Int) : Prop :=
  ∀ (w t : World) (trace : List (Entry World ServiceCall ServiceCall.Reply))
    (result : Except EspErr Unit), w.store.Reachable →
    Runs ServiceCall.Answers (processDeliverPdu pdu index) w trace result t →
    (∀ entry ∈ trace, ¬ entry.request.Fails entry.reply) →
    result = .ok () ∧ Quarantined pdu t

/-- An answer that is no failure. -/
def Succeeds (w : World) (request : ServiceCall) (reply : request.Reply) (t : World) : Prop :=
  request.Answers w reply t ∧ ¬ request.Fails reply

section

variable {pdu : CStr} {w : World} {deliver : SmsDeliver}

theorem persistUnsupportedDeliver_stores (sound : w.store.Sound) (short : pdu.length < 353) :
    Obeys Succeeds (fun _ _ => True) (fun result t => (∃ m, result = .ok m) ∧ Quarantined pdu t)
      (persistUnsupportedDeliver pdu deliver) w := by
  refine Obeys.send trivial ?_
  rintro memory t ⟨rfl, granted⟩
  cases memory with
  | false => exact absurd rfl granted
  | true =>
      refine Obeys.send trivial ?_
      rintro reply t ⟨performs, answered⟩
      obtain ⟨rfl, searched⟩ := @StoreQuery.performs_search _ _ (.findInboundRawPdu pdu) _ sound
        performs
      cases reply with
      | ok m =>
          obtain ⟨held, matched, -⟩ := searched.held m rfl
          simp only [StoreQuery.Matches, isInboundRawPdu, Bool.and_eq_true, beq_iff_eq] at matched
          exact ⟨⟨m, rfl⟩, m, held, matched.1.1, matched.1.2, matched.2⟩
      | error e =>
          have missing : e = .notFound := by
            by_contra other
            exact answered ⟨e, rfl, other⟩
          subst missing
          refine Obeys.bind (Obeys.send trivial ?_)
          rintro ⟨result, back⟩ u ⟨⟨plan, returned, rfl⟩, accepted⟩
          cases result with
          | error e => exact absurd ⟨e, rfl⟩ accepted
          | ok _ =>
              have ending := smsStoreSave_end plan sound (unsupportedRecord pdu deliver)
              rw [returned] at ending
              obtain ⟨held, equal⟩ := ending.stored
              refine ⟨trivial, ?_⟩
              rintro _ v ⟨rfl, -⟩
              refine ⟨⟨back, rfl⟩, back, held, ?_⟩
              rcases equal with ⟨-, rfl⟩ | ⟨named, -⟩
              · exact ⟨rfl, rfl, CharArray.strncpy_str short⟩
              · exact absurd rfl named

theorem deleteModemCopy_keeps (index : Int) (stored : Quarantined pdu w) :
    Obeys Succeeds (fun _ _ => True) (fun result t => result = .ok () ∧ Quarantined pdu t)
      (deleteModemCopy index) w := by
  simp only [deleteModemCopy]
  split
  · refine ⟨trivial, ?_⟩
    rintro ready t ⟨rfl, -⟩
    cases ready with
    | false => exact ⟨rfl, stored⟩
    | true =>
        refine ⟨trivial, ?_⟩
        rintro reply t ⟨rfl, -⟩
        cases reply <;> exact ⟨rfl, stored⟩
  · exact ⟨rfl, stored⟩

theorem processDeliverPdu_quarantines (index : Int) (sound : w.store.Sound)
    (unsupported : (smsDeliverDecode pdu).1 = .unsupported)
    (eightBit : (smsDeliverDecode pdu).2.encoding = .eightBit) :
    Obeys Succeeds (fun _ _ => True) (fun result t => result = .ok () ∧ Quarantined pdu t)
      (processDeliverPdu pdu index) w := by
  obtain ⟨octets, -, hex, -⟩ := smsDeliverDecode_eightBit eightBit
  have short : pdu.length < 353 := by
    have bound := hexDecode_length hex
    simp only [smsMaxPduOctets] at bound
    omega
  refine Obeys.send trivial ?_
  rintro delivered t ⟨rfl, first⟩
  refine Obeys.send trivial ?_
  rintro stored t ⟨rfl, second⟩
  cases delivered with
  | false => exact absurd rfl first
  | true =>
      cases stored with
      | false => exact absurd rfl second
      | true =>
          simp only [Bool.not_true, Bool.or_self, Bool.false_eq_true, ↓reduceIte, processDecoded,
            unsupported, eightBit, and_self]
          refine Obeys.bind (Obeys.mono ?_ (persistUnsupportedDeliver_stores sound short))
          rintro result t ⟨⟨m, rfl⟩, held⟩
          exact deleteModemCopy_keeps index held

end

/-- Any other PDU the decoder does not support is refused at once. -/
theorem processDeliverPdu_refuses {pdu : CStr} (index : Int) (w : World)
    (unsupported : (smsDeliverDecode pdu).1 = .unsupported)
    (other : (smsDeliverDecode pdu).2.encoding ≠ .eightBit) :
    ∃ trace, (∀ entry ∈ trace, ¬ entry.request.Fails entry.reply) ∧
      Runs ServiceCall.Answers (processDeliverPdu pdu index) w trace
        (.error .invalidResponse) w := by
  have refused : processDecoded pdu index (smsDeliverDecode pdu).1 (smsDeliverDecode pdu).2 =
      .done (.error .invalidResponse) := by
    simp [processDecoded, unsupported, other]
  have last : Runs ServiceCall.Answers
      (processDecoded pdu index (smsDeliverDecode pdu).1 (smsDeliverDecode pdu).2) w []
      (.error .invalidResponse) w := by
    rw [refused]
    exact .done
  refine ⟨[⟨w, .alloc, true⟩, ⟨w, .alloc, true⟩], ?_, ?_⟩
  · intro entry member
    simp only [List.mem_cons, List.not_mem_nil, or_false, or_self] at member
    subst member
    simp [ServiceCall.Fails]
  · exact .call rfl (.call rfl last)

/-- A PDU whose header parses and which the decoder does not support is
quarantined exactly when its data coding scheme selects 8-bit data. -/
theorem quarantines_iff_eightBit {pdu : CStr} {octets : List UInt8} {header : DeliverHeader}
    (index : Int) (hex : hexDecode pdu smsMaxPduOctets = .ok octets)
    (parsed : deliverHeader octets = .ok header)
    (unsupported : (smsDeliverDecode pdu).1 = .unsupported) :
    Quarantines pdu index ↔ dcsEncoding header.dcs = .eightBit := by
  have encoding : (smsDeliverDecode pdu).2.encoding = dcsEncoding header.dcs := by
    simp only [smsDeliverDecode, hex, parsed, decodeUserData_encoding]
  constructor
  · intro quarantines
    by_contra other
    obtain ⟨trace, fine, runs⟩ := processDeliverPdu_refuses index ⟨.empty, 0, []⟩ unsupported
      (encoding ▸ other)
    have ended := (quarantines _ _ trace _ .empty runs fine).1
    cases ended
  · intro eightBit w t trace result reachable runs fine
    have obeys := processDeliverPdu_quarantines index reachable.sound unsupported
      (encoding.trans eightBit)
    have succeeding : Runs Succeeds (processDeliverPdu pdu index) w trace result t :=
      runs.meeting (fun entry => ¬ entry.request.Fails entry.reply)
        (fun _ _ _ _ answered fine => ⟨answered, fine⟩) fine
    exact (obeys.runs succeeding).1

/-- A message of 8-bit data. -/
def dataPdu : List UInt8 :=
  [0x00, 0x00, 0x04, 0x91, 0x21, 0x43, 0x00, 0x04, 0x42, 0x10, 0x10, 0x00, 0x00, 0x00, 0x00,
    0x02, 0xAB, 0xCD]

theorem quarantines_iff_eightBit_data :
    ∃ header, deliverHeader dataPdu = .ok header ∧
      (Quarantines (pduOf dataPdu) 5 ↔ dcsEncoding header.dcs = .eightBit) := by
  cases parsed : deliverHeader dataPdu with
  | error ended =>
      have fine : (deliverHeader dataPdu).isOk = true := by decide +kernel
      rw [parsed] at fine
      cases fine
  | ok header =>
      have hex : hexDecode (pduOf dataPdu) smsMaxPduOctets = .ok dataPdu := by decide +kernel
      have unsupported : (smsDeliverDecode (pduOf dataPdu)).1 = .unsupported := by decide +kernel
      exact ⟨header, rfl, quarantines_iff_eightBit 5 hex parsed unsupported⟩

/-- A GSM 7-bit message whose header selects a national language table. -/
def shiftPdu : List UInt8 :=
  [0x00, 0x40, 0x04, 0x91, 0x21, 0x43, 0x00, 0x00, 0x42, 0x10, 0x10, 0x00, 0x00, 0x00, 0x00,
    0x06, 0x03, 0x24, 0x01, 0x01, 0x82, 0x00]

theorem shift_not_quarantined :
    ¬ ∀ (pdu : CStr) (index : Int) (octets : List UInt8) (header : DeliverHeader),
      hexDecode pdu smsMaxPduOctets = .ok octets → deliverHeader octets = .ok header →
      (smsDeliverDecode pdu).1 = .unsupported → Quarantines pdu index := by
  intro claim
  have hex : hexDecode (pduOf shiftPdu) smsMaxPduOctets = .ok shiftPdu := by decide +kernel
  have unsupported : (smsDeliverDecode (pduOf shiftPdu)).1 = .unsupported := by decide +kernel
  have other : (smsDeliverDecode (pduOf shiftPdu)).2.encoding ≠ .eightBit := by decide +kernel
  cases parsed : deliverHeader shiftPdu with
  | error ended =>
      have fine : (deliverHeader shiftPdu).isOk = true := by decide +kernel
      rw [parsed] at fine
      cases fine
  | ok header =>
      obtain ⟨trace, fine, runs⟩ := processDeliverPdu_refuses (-1) ⟨.empty, 0, []⟩ unsupported other
      have ended := (claim _ (-1) _ header hex parsed unsupported _ _ trace _ .empty runs fine).1
      cases ended

end SmsGateway
