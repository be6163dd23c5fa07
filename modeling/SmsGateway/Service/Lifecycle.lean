import Mathlib.Data.Set.Basic
import SmsGateway.Service.Gateway
import SmsGateway.Store.Atomic

/-! The life of an outbound record: what a save of the service makes of the record
it read, and what every outbound record satisfies. -/

namespace SmsGateway

open Lib Prog

/-! Segment masks. -/

theorem segmentBit_or (mask : BitVec 16) {index : Nat} (inside : index < 16) (j : Nat) :
    segmentBit (mask ||| segmentMask index) j = (segmentBit mask j || decide (j = index)) := by
  by_cases same : j = index
  · subst same
    simp [segmentBit, segmentMask, inside]
  · have differs : index ≠ j := fun equal => same equal.symm
    simp [segmentBit, segmentMask, BitVec.getLsbD_twoPow, same, differs]

theorem segmentBit_allSegments (count j : Nat) :
    segmentBit (allSegments count) j = decide (j < 16 ∧ j < count) := by
  simp only [segmentBit, allSegments]
  split
  · rw [BitVec.getLsbD_allOnes]
    by_cases small : j < 16
    · have below : j < count := by omega
      simp [small, below]
    · simp [small]
  · rw [BitVec.getLsbD_ofNat, Nat.testBit_two_pow_sub_one]
    simp

/-- The test of the source for a full mask. -/
theorem covers_iff (mask : BitVec 16) {count : Nat} (small : count ≤ 16) :
    mask &&& allSegments count = allSegments count ↔ ∀ i < count, segmentBit mask i = true := by
  constructor
  · intro covers i inside
    have bit := congrArg (segmentBit · i) covers
    have here : segmentBit (allSegments count) i = true := by
      rw [segmentBit_allSegments]
      exact decide_eq_true ⟨by omega, inside⟩
    simp only [segmentBit, BitVec.getLsbD_and] at bit here ⊢
    rw [here, Bool.and_true] at bit
    exact bit
  · intro each
    apply BitVec.eq_of_getLsbD_eq
    intro i below
    rw [BitVec.getLsbD_and]
    by_cases inside : i < count
    · have bit := each i inside
      simp only [segmentBit] at bit
      simp [bit]
    · have out := segmentBit_allSegments count i
      simp only [segmentBit, inside, and_false, decide_false] at out
      simp [out]

/-! What holds of every outbound record. -/

structure SmsMessage.WellKept (m : SmsMessage) : Prop where
  counted : 1 ≤ m.segmentCount.toNat ∧ m.segmentCount.toNat ≤ 16
  deliveredSent : ∀ i, segmentBit m.segmentDeliveredMask i = true →
    segmentBit m.segmentSentMask i = true
  failedSent : ∀ i, segmentBit m.segmentFailedMask i = true →
    segmentBit m.segmentSentMask i = true
  sentInside : ∀ i, segmentBit m.segmentSentMask i = true → i < m.segmentCount.toNat
  inflight : m.inflightSegment.toNat ≤ m.segmentCount.toNat
  atRest : m.status = .queued ∨ m.status = .sent → m.inflightSegment = 0
  allSent : m.status = .sent → ∀ i < m.segmentCount.toNat, segmentBit m.segmentSentMask i = true
  allDelivered : m.status = .delivered →
    ∀ i < m.segmentCount.toNat, segmentBit m.segmentDeliveredMask i = true

/-- What one save makes of an outbound record. -/
inductive Evolves : SmsMessage → SmsMessage → Prop where
  | sending {m : SmsMessage} {index : Nat} (running : m.status = .queued ∨ m.status = .sending)
      (inside : index < m.segmentCount.toNat) : Evolves m (sendingRecord m index)
  | sent {m : SmsMessage} {index : Nat} (reference : UInt8) (running : m.status = .sending)
      (inside : index < m.segmentCount.toNat) : Evolves m (sentRecord m index reference)
  | requeued {m : SmsMessage} (running : m.status = .sending ∨ m.status = .uncertain) :
      Evolves m (requeuedRecord m)
  | uncertain {m : SmsMessage} (lastModemError : Int) (running : m.status = .sending) :
      Evolves m (uncertainRecord m lastModemError)
  | finished {m : SmsMessage} (running : m.status = .queued ∨ m.status = .sending)
      (full : m.segmentSentMask &&& allSegments m.segmentCount.toNat =
        allSegments m.segmentCount.toNat) :
      Evolves m { m with status := .sent, inflightSegment := 0 }
  | unencodable {m : SmsMessage} (running : m.status = .queued) (bad : queuedSegments m = none) :
      Evolves m { m with status := .failed, lastModemError := -1 }
  | reported {m : SmsMessage} {segment : Nat} (report : SmsStatusReport)
      (inside : segment < m.segmentCount.toNat)
      (sent : segmentBit m.segmentSentMask segment = true) :
      Evolves m (applyReport m segment report)

/-- A report keeps everything but its segment, the masks of outcomes and the status. -/
structure ReportKeeps (m new : SmsMessage) : Prop where
  id : new.id = m.id
  direction : new.direction = m.direction
  segmentCount : new.segmentCount = m.segmentCount
  sentMask : new.segmentSentMask = m.segmentSentMask
  inflight : new.inflightSegment = m.inflightSegment

theorem applyReport_keeps (m : SmsMessage) (segment : Nat) (report : SmsStatusReport) :
    ReportKeeps m (applyReport m segment report) := by
  simp only [applyReport]
  repeat' split
  all_goals exact ⟨rfl, rfl, rfl, rfl, rfl⟩

theorem applyReport_deliveredMask (m : SmsMessage) (segment : Nat) (report : SmsStatusReport) :
    (applyReport m segment report).segmentDeliveredMask =
      if report.delivered then m.segmentDeliveredMask ||| segmentMask segment
      else m.segmentDeliveredMask := by
  simp only [applyReport]
  repeat' split
  all_goals simp_all

theorem applyReport_failedMask (m : SmsMessage) (segment : Nat) (report : SmsStatusReport) :
    (applyReport m segment report).segmentFailedMask =
      if ¬ report.delivered ∧ report.status ≥ 0x40 then m.segmentFailedMask ||| segmentMask segment
      else m.segmentFailedMask := by
  simp only [applyReport]
  repeat' split
  all_goals simp_all

/-- The status after a report, from the masks it leaves. -/
theorem applyReport_status (m : SmsMessage) (segment : Nat) (report : SmsStatusReport) :
    (applyReport m segment report).status =
      (let new := applyReport m segment report
       let all := allSegments m.segmentCount.toNat
       if new.segmentDeliveredMask &&& all = all then .delivered
       else if new.segmentFailedMask &&& all ≠ 0 then .failed
       else m.status) := by
  simp only [applyReport]
  repeat' split
  all_goals simp_all

theorem applyReport_delivered_grows {m : SmsMessage} {segment i : Nat} {report : SmsStatusReport}
    (bit : segmentBit m.segmentDeliveredMask i = true) :
    segmentBit (applyReport m segment report).segmentDeliveredMask i = true := by
  rw [applyReport_deliveredMask]
  split
  · simp only [segmentBit, BitVec.getLsbD_or] at bit ⊢
    simp [bit]
  · exact bit

/-- A bit that a report adds is the bit of its segment. -/
theorem segmentBit_added {mask : BitVec 16} {segment i : Nat} {added : Prop} [Decidable added]
    (inside : segment < 16)
    (bit : segmentBit (if added then mask ||| segmentMask segment else mask) i = true) :
    segmentBit mask i = true ∨ i = segment := by
  split at bit
  · rw [segmentBit_or mask inside, Bool.or_eq_true, decide_eq_true_eq] at bit
    exact bit
  · exact .inl bit

namespace SmsMessage.WellKept

variable {m : SmsMessage}

theorem withId (kept : m.WellKept) (id : UInt32) : (m.withId id).WellKept :=
  ⟨kept.counted, kept.deliveredSent, kept.failedSent, kept.sentInside, kept.inflight, kept.atRest,
    kept.allSent, kept.allDelivered⟩

/-- A change of the status and the segment in flight only. -/
theorem restatus (kept : m.WellKept) {new : SmsMessage}
    (segmentCount : new.segmentCount = m.segmentCount)
    (sentMask : new.segmentSentMask = m.segmentSentMask)
    (deliveredMask : new.segmentDeliveredMask = m.segmentDeliveredMask)
    (failedMask : new.segmentFailedMask = m.segmentFailedMask)
    (inflight : new.inflightSegment.toNat ≤ m.segmentCount.toNat)
    (atRest : new.status = .queued ∨ new.status = .sent → new.inflightSegment = 0)
    (allSent : new.status = .sent →
      ∀ i < m.segmentCount.toNat, segmentBit m.segmentSentMask i = true)
    (undelivered : new.status ≠ .delivered) : new.WellKept := by
  refine ⟨?_, ?_, ?_, ?_, ?_, atRest, ?_, fun status => absurd status undelivered⟩
  · rw [segmentCount]
    exact kept.counted
  · rw [deliveredMask, sentMask]
    exact kept.deliveredSent
  · rw [failedMask, sentMask]
    exact kept.failedSent
  · rw [sentMask, segmentCount]
    exact kept.sentInside
  · rw [segmentCount]
    exact inflight
  · rw [segmentCount, sentMask]
    exact allSent

theorem sending (kept : m.WellKept) {index : Nat} (inside : index < m.segmentCount.toNat) :
    (sendingRecord m index).WellKept := by
  refine kept.restatus rfl rfl rfl rfl ?_ ?_ ?_ ?_
  · have small := kept.counted.2
    simp only [sendingRecord, UInt8.toNat_ofNat']
    omega
  · rintro (status | status) <;> cases status
  · intro status
    cases status
  · intro status
    cases status

theorem sent (kept : m.WellKept) {index : Nat} (reference : UInt8) (running : m.status = .sending)
    (inside : index < m.segmentCount.toNat) : (sentRecord m index reference).WellKept := by
  have small : index < 16 := Nat.lt_of_lt_of_le inside kept.counted.2
  have grows (i : Nat) (bit : segmentBit m.segmentSentMask i = true) :
      segmentBit (m.segmentSentMask ||| segmentMask index) i = true := by
    rw [segmentBit_or _ small, bit, Bool.true_or]
  refine ⟨kept.counted, ?_, ?_, ?_, Nat.zero_le _, fun _ => rfl, ?_, ?_⟩
  · exact fun i bit => grows i (kept.deliveredSent i bit)
  · exact fun i bit => grows i (kept.failedSent i bit)
  · intro i bit
    simp only [sentRecord, segmentBit_or _ small, Bool.or_eq_true, decide_eq_true_eq] at bit
    rcases bit with bit | rfl
    · exact kept.sentInside i bit
    · exact inside
  · intro status
    cases running.symm.trans status
  · intro status
    cases running.symm.trans status

theorem reported (kept : m.WellKept) {segment : Nat} (report : SmsStatusReport)
    (inside : segment < m.segmentCount.toNat)
    (sent : segmentBit m.segmentSentMask segment = true) :
    (applyReport m segment report).WellKept := by
  have same := applyReport_keeps m segment report
  have small : segment < 16 := Nat.lt_of_lt_of_le inside kept.counted.2
  have status := applyReport_status m segment report
  -- Any status but the two that a report decides is the old one.
  have unchanged : (applyReport m segment report).status ≠ .delivered →
      (applyReport m segment report).status ≠ .failed →
      (applyReport m segment report).status = m.status := by
    intro undelivered unfailed
    dsimp only at status
    split at status
    · exact absurd status undelivered
    · split at status
      · exact absurd status unfailed
      · exact status
  refine ⟨?_, ?_, ?_, ?_, ?_, ?_, ?_, ?_⟩
  · rw [same.segmentCount]
    exact kept.counted
  · intro i bit
    rw [applyReport_deliveredMask] at bit
    rw [same.sentMask]
    rcases segmentBit_added small bit with bit | rfl
    · exact kept.deliveredSent i bit
    · exact sent
  · intro i bit
    rw [applyReport_failedMask] at bit
    rw [same.sentMask]
    rcases segmentBit_added small bit with bit | rfl
    · exact kept.failedSent i bit
    · exact sent
  · rw [same.sentMask, same.segmentCount]
    exact kept.sentInside
  · rw [same.inflight, same.segmentCount]
    exact kept.inflight
  · intro rest
    have old : (applyReport m segment report).status = m.status := by
      apply unchanged <;> rcases rest with rest | rest <;> simp [rest]
    rw [same.inflight]
    rw [old] at rest
    exact kept.atRest rest
  · intro rest
    have old : (applyReport m segment report).status = m.status := by
      apply unchanged <;> simp [rest]
    rw [same.segmentCount, same.sentMask]
    exact kept.allSent (old.symm.trans rest)
  · intro delivered
    rw [same.segmentCount]
    dsimp only at status
    split at status
    · rename_i covers
      exact (covers_iff _ kept.counted.2).mp covers
    · have old : m.status = .delivered := by
        split at status
        · cases delivered.symm.trans status
        · exact status.symm.trans delivered
      exact fun i below => applyReport_delivered_grows (kept.allDelivered old i below)

end SmsMessage.WellKept

theorem Evolves.wellKept {m new : SmsMessage} (evolves : Evolves m new) (kept : m.WellKept) :
    new.WellKept := by
  cases evolves with
  | sending running inside => exact kept.sending inside
  | sent reference running inside => exact kept.sent reference running inside
  | requeued running =>
      refine kept.restatus rfl rfl rfl rfl (Nat.zero_le _) (fun _ => rfl) ?_ ?_ <;>
        intro status <;> cases status
  | uncertain lastModemError running =>
      refine kept.restatus rfl rfl rfl rfl kept.inflight ?_ ?_ ?_
      · rintro (status | status) <;> cases status
      · intro status
        cases status
      · intro status
        cases status
  | finished running full =>
      refine kept.restatus rfl rfl rfl rfl (Nat.zero_le _) (fun _ => rfl) ?_ ?_
      · exact fun _ => (covers_iff _ kept.counted.2).mp full
      · intro status
        cases status
  | unencodable running bad =>
      refine kept.restatus rfl rfl rfl rfl kept.inflight ?_ ?_ ?_
      · rintro (status | status) <;> cases status
      · intro status
        cases status
      · intro status
        cases status
  | reported report inside sent => exact kept.reported report inside sent

theorem Evolves.id_eq {m new : SmsMessage} (evolves : Evolves m new) : new.id = m.id := by
  cases evolves with
  | reported report inside sent => exact (applyReport_keeps _ _ report).id
  | _ => rfl

theorem Evolves.direction_eq {m new : SmsMessage} (evolves : Evolves m new) :
    new.direction = m.direction := by
  cases evolves with
  | reported report inside sent => exact (applyReport_keeps _ _ report).direction
  | _ => rfl

/-- No save takes a delivered record to another status. -/
theorem Evolves.delivered {m new : SmsMessage} (evolves : Evolves m new) (kept : m.WellKept)
    (delivered : m.status = .delivered) : new.status = .delivered := by
  cases evolves with
  | @reported segment report inside sent =>
      have covers : (applyReport m segment report).segmentDeliveredMask &&&
          allSegments m.segmentCount.toNat = allSegments m.segmentCount.toNat := by
        refine (covers_iff _ kept.counted.2).mpr ?_
        exact fun i below => applyReport_delivered_grows (kept.allDelivered delivered i below)
      rw [applyReport_status]
      exact if_pos covers
  | sending running inside | finished running full | requeued running =>
      rcases running with status | status <;> cases delivered.symm.trans status
  | sent _ running _ | uncertain _ running | unencodable running _ =>
      cases delivered.symm.trans running

theorem queuedRecord_wellKept {recipient text : CStr} {report : Bool} {reference : UInt16}
    {encoding : SmsEncoding} {count : Nat} (some : 1 ≤ count) (most : count ≤ 16) :
    (queuedRecord recipient text report reference encoding count).WellKept := by
  have size : (UInt8.ofNat count).toNat = count := by
    rw [UInt8.toNat_ofNat']
    omega
  have clear (i : Nat) : segmentBit (0 : BitVec 16) i ≠ true := by simp [segmentBit]
  refine ⟨?_, ?_, ?_, ?_, Nat.zero_le _, fun _ => rfl, ?_, ?_⟩
  · simp only [queuedRecord, size]
    exact ⟨some, most⟩
  · exact fun i bit => absurd bit (clear i)
  · exact fun i bit => absurd bit (clear i)
  · exact fun i bit => absurd bit (clear i)
  · intro status
    cases status
  · intro status
    cases status

/-! The journal as a set of records, and the saves the service makes. -/

/-- What a call may do to the set of stored records, and what its answer tells. -/
def ServiceCall.Keeps (records : Set SmsMessage) :
    (request : ServiceCall) → request.Reply → Set SmsMessage → Prop
  | .query wanted, reply, after =>
      after = records ∧
        ∀ m, reply = .ok m → m ∈ records ∧ m.id ≠ 0 ∧ wanted.Matches m = true
  | .findOutboundReference recipient reference, reply, after =>
      after = records ∧ ∀ m i, reply = .ok (m, i) →
        m ∈ records ∧ m.id ≠ 0 ∧ SentUnder recipient reference m i
  | .list _ _, reply, after =>
      after = records ∧ ∀ listed, reply = .ok listed → ∀ m ∈ listed, m ∈ records
  | .save message, reply, after =>
      (∀ m ∈ after, m ∈ records ∨ ∃ id, m = message.withId id) ∧
        (message.id ≠ 0 → reply.1 = .ok () → reply.2 = message ∧ message ∈ after)
  | .delete _, _, after => after ⊆ records
  | _, _, after => after = records

/-- The records the service saves: one that arrived or was queued, another text of
a stored part, or the next state of a stored outbound record. -/
inductive SavedFrom (records : Set SmsMessage) : SmsMessage → Prop where
  | arrived {m : SmsMessage} (arrived : m.Arrived) : SavedFrom records m
  | queued (recipient text : CStr) (report : Bool) (reference : UInt16) (encoding : SmsEncoding)
      {count : Nat} (some : 1 ≤ count) (most : count ≤ 16) :
      SavedFrom records (queuedRecord recipient text report reference encoding count)
  | part {m : SmsMessage} (stored : m ∈ records) (inbound : m.direction = .inbound)
      (deliver : SmsDeliver) : SavedFrom records (overwritePart m deliver)
  | evolved {m new : SmsMessage} (stored : m ∈ records) (evolves : Evolves m new) :
      SavedFrom records new

/-- Those of them that do not come from a message received. -/
inductive OutgoingFrom (records : Set SmsMessage) : SmsMessage → Prop where
  | queued (recipient text : CStr) (report : Bool) (reference : UInt16) (encoding : SmsEncoding)
      {count : Nat} (some : 1 ≤ count) (most : count ≤ 16) :
      OutgoingFrom records (queuedRecord recipient text report reference encoding count)
  | evolved {m new : SmsMessage} (stored : m ∈ records) (evolves : Evolves m new)
      (encodable : queuedSegments m = none ∨ new.status ≠ .failed) : OutgoingFrom records new

theorem OutgoingFrom.saved {records : Set SmsMessage} {message : SmsMessage}
    (outgoing : OutgoingFrom records message) : SavedFrom records message := by
  cases outgoing with
  | queued recipient text report reference encoding some most =>
      exact .queued recipient text report reference encoding some most
  | evolved stored evolves encodable => exact .evolved stored evolves

theorem OutgoingFrom.unfailed {records : Set SmsMessage} {m new : SmsMessage}
    (stored : m ∈ records) (evolves : Evolves m new) (status : (new.status == .failed) = false) :
    OutgoingFrom records new := by
  refine .evolved stored evolves (.inr ?_)
  intro failed
  rw [failed] at status
  cases status

/-- The request hands over a segment of a stored record. -/
def SubmitsStored (records : Set SmsMessage) (request : AtRequest) : Prop :=
  ∃ m ∈ records, ∃ segments segment index, m.status = .sending ∧
    queuedSegments m = some segments ∧ segments[index]? = some segment ∧
    request = submitRequest m segment index

def ServiceCall.Lawful (records : Set SmsMessage) : ServiceCall → Prop
  | .save message => SavedFrom records message
  | .execute request => request.origin = none ∨ SubmitsStored records request
  | _ => True

def ServiceCall.Outgoing (records : Set SmsMessage) : ServiceCall → Prop
  | .save message => OutgoingFrom records message
  | .execute request => SubmitsStored records request
  | _ => True

/-- The set of stored records of a world. -/
def World.records (w : World) : Set SmsMessage := { m | w.Holds m }

theorem admits_lawful : Admits ServiceCall.Keeps ServiceCall.Lawful where
  plain := by
    intro records request plain
    cases request with
    | save message => exact plain.elim
    | execute request => exact plain.elim
    | _ => trivial
  arrived := fun records m arrived => .arrived arrived
  part := by
    rintro records _ sender reference totalParts partNumber m deliver ⟨rfl, found⟩
    obtain ⟨stored, -, isPart⟩ := found m rfl
    simp only [StoreQuery.Matches, isPartialOf, Bool.and_eq_true, beq_iff_eq] at isPart
    exact .part stored isPart.1.1.1.1.1.1 deliver

section

variable {records : Set SmsMessage} {m : SmsMessage}

theorem lawful_processAnyPdu (pdu : CStr) (index : Int) :
    Safe ServiceCall.Keeps ServiceCall.Lawful (processAnyPdu pdu index) := by
  refine admits_lawful.receives.processAnyPdu (fun _ _ plain => .inl plain)
    (admits_lawful.receives.processStatusReportPdu ?_) pdu index
  rintro records _ recipient reference m i report ⟨rfl, found⟩
  obtain ⟨stored, -, sent⟩ := found m i rfl
  exact .evolved stored (.reported report sent.inside sent.sent)

theorem queuedSegments_length {segments : List SmsSubmitSegment}
    (encoded : queuedSegments m = some segments) : segments.length = m.segmentCount.toNat := by
  simp only [queuedSegments] at encoded
  split at encoded
  · cases encoded
  · split at encoded
    · cases encoded
    · rename_i fits
      cases encoded
      simp only [ne_eq, not_or, not_not] at fits
      exact fits.2

/-- The record in the hands of the service is the stored one, with these segments. -/
structure Running (records : Set SmsMessage) (segments : List SmsSubmitSegment) (m : SmsMessage) :
    Prop where
  stored : m ∈ records
  named : m.id ≠ 0
  status : m.status = .queued ∨ m.status = .sending
  encoded : queuedSegments m = some segments

variable {all : List SmsSubmitSegment}

/-- A save of the next state of the record in hand. -/
theorem Running.saves {new : SmsMessage} (running : Running records all m)
    (evolves : Evolves m new) (next : new.status = .queued ∨ new.status = .sending)
    (encoded : queuedSegments new = queuedSegments m) :
    Obeys ServiceCall.Keeps ServiceCall.Outgoing
      (fun reply after => reply.1 = .ok () → Running after all reply.2) (storeSave new) records := by
  have encodable : new.status ≠ .failed := by
    rcases next with status | status
    all_goals
      rw [status]
      exact nofun
  refine ⟨.evolved running.stored evolves (.inr encodable), ?_⟩
  rintro ⟨result, back⟩ after ⟨-, succeeds⟩ equal
  have named : new.id ≠ 0 := by
    rw [evolves.id_eq]
    exact running.named
  obtain ⟨rfl, stored⟩ := succeeds named equal
  exact ⟨stored, named, next, encoded.trans running.encoded⟩

theorem submitSegment_outgoing {segment : SmsSubmitSegment} {index : Nat}
    (running : Running records all m) (sending : m.status = .sending)
    (inside : index < m.segmentCount.toNat) (next : all[index]? = some segment) :
    Obeys ServiceCall.Keeps ServiceCall.Outgoing
      (fun result after => result.1 = .ok () → Running after all result.2)
      (submitSegment m segment index) records := by
  refine Obeys.send trivial ?_
  intro memory after same
  subst after
  cases memory with
  | false =>
      refine ⟨.unfailed running.stored (.requeued (.inl sending)) rfl, ?_⟩
      rintro reply after - equal
      cases equal
  | true =>
      have uncertain (modemError : Int) (e : EspErr) : Obeys ServiceCall.Keeps ServiceCall.Outgoing
          (fun result after => result.1 = .ok () → Running after all result.2) (do
            let reply ← storeSave (uncertainRecord m modemError)
            emitEvent .uncertain reply.2
            pure (.error e, reply.2) : ServiceM (Except EspErr Unit × SmsMessage)) records := by
        refine Obeys.send (.unfailed running.stored (.uncertain modemError sending) rfl) ?_
        rintro reply after -
        refine ⟨trivial, ?_⟩
        rintro _ _ - equal
        cases equal
      refine Obeys.bind (Obeys.send trivial ?_)
      rintro ready _ rfl
      cases ready with
      | false => exact uncertain _ _
      | true =>
          refine ⟨⟨m, running.stored, all, segment, index, sending, running.encoded, next, rfl⟩, ?_⟩
          rintro response _ rfl
          simp only [Obeys]
          cases submitOutcome response with
          | error failure => exact uncertain failure.1 failure.2
          | ok reference => exact running.saves (.sent reference sending inside) (.inr sending) rfl

theorem sendSegment_outgoing {segment : SmsSubmitSegment} {index : Nat}
    (running : Running records all m) (next : all[index]? = some segment) :
    Obeys ServiceCall.Keeps ServiceCall.Outgoing
      (fun result after => result.1 = .ok () → Running after all result.2)
      (sendSegment m segment index) records := by
  simp only [sendSegment]
  split
  · intro equal
    cases equal
  · rename_i outside
    have inside : index < m.segmentCount.toNat := Nat.lt_of_not_le outside
    refine Obeys.send (.unfailed running.stored (.sending running.status inside) rfl) ?_
    rintro ⟨result, back⟩ after ⟨-, succeeds⟩
    cases result with
    | error e =>
        intro equal
        cases equal
    | ok _ =>
        obtain ⟨same, stored⟩ := succeeds running.named rfl
        obtain rfl : back = sendingRecord m index := same
        exact submitSegment_outgoing ⟨stored, running.named, .inr rfl, running.encoded⟩ rfl
          inside next

theorem sendSegments_outgoing {segments : List SmsSubmitSegment} {index : Nat}
    (running : Running records all m) (left : all.drop index = segments) :
    Obeys ServiceCall.Keeps ServiceCall.Outgoing
      (fun result after => result.1 = true → Running after all result.2)
      (sendSegments segments index m) records := by
  induction segments generalizing index m records with
  | nil => exact fun _ => running
  | cons segment rest ih =>
      have next : all[index]? = some segment := by
        rw [← List.head?_drop, left]
        rfl
      have later : all.drop (index + 1) = rest := by
        rw [← List.tail_drop, left]
        rfl
      simp only [sendSegments]
      split
      · exact ih running later
      · refine Obeys.bind ((sendSegment_outgoing running next).mono ?_)
        rintro ⟨result, message⟩ after kept
        cases result with
        | error e =>
            intro equal
            cases equal
        | ok _ => exact ih (kept rfl) later

theorem finishOutbound_outgoing (running : Running records all m) :
    Obeys ServiceCall.Keeps ServiceCall.Outgoing (fun _ _ => True) (finishOutbound m all.length)
      records := by
  simp only [finishOutbound]
  split
  · rename_i full
    rw [queuedSegments_length running.encoded] at full
    refine Obeys.send (.unfailed running.stored (.finished running.status full) rfl) ?_
    rintro ⟨result, back⟩ after -
    cases result with
    | error e => trivial
    | ok _ => exact Safe.send (fun _ => trivial) _
  · trivial

theorem processQueued_outgoing (stored : m ∈ records) (named : m.id ≠ 0)
    (queued : m.status = .queued) :
    Obeys ServiceCall.Keeps ServiceCall.Outgoing (fun _ _ => True) (processQueued m) records := by
  refine Obeys.send trivial ?_
  rintro memory _ rfl
  cases memory with
  | false => trivial
  | true =>
      simp only [Bool.not_true, Bool.false_eq_true, ↓reduceIte]
      cases encoded : queuedSegments m with
      | none =>
          refine Obeys.send (.evolved stored (.unencodable queued encoded) (.inl encoded)) ?_
          rintro reply after -
          exact Safe.send (fun _ => trivial) _
      | some segments =>
          have running : Running _ segments m := ⟨stored, named, .inl queued, encoded⟩
          refine Obeys.bind ((sendSegments_outgoing running List.drop_zero).mono ?_)
          rintro ⟨finished, message⟩ after kept
          cases finished with
          | false => trivial
          | true => exact finishOutbound_outgoing (kept rfl)

end

theorem outgoing_processOneOutbound :
    Safe ServiceCall.Keeps ServiceCall.Outgoing processOneOutbound := by
  refine Safe.bind (.send fun _ => trivial) fun configured => ?_
  refine Safe.bind (.send fun _ => trivial) fun ready => ?_
  split
  · exact .pure _
  · refine Safe.bind (.send fun _ => trivial) fun memory => ?_
    cases memory with
    | false => exact .pure _
    | true =>
        intro records
        refine Obeys.send trivial ?_
        rintro reply _ ⟨rfl, found⟩
        cases reply with
        | error e => trivial
        | ok m =>
            obtain ⟨stored, named, queued⟩ := found m rfl
            simp only [StoreQuery.Matches, beq_iff_eq] at queued
            exact processQueued_outgoing stored named queued

theorem outgoing_markInterruptedSendsUncertain (rounds : Nat) :
    Safe ServiceCall.Keeps ServiceCall.Outgoing (markInterruptedSendsUncertain rounds) := by
  have loop (after : UInt32) :
      Safe ServiceCall.Keeps ServiceCall.Outgoing (markInterruptedLoop rounds after) := by
    induction rounds generalizing after with
    | zero => exact .pure ()
    | succ rounds ih =>
        intro records
        refine Obeys.send trivial ?_
        rintro reply _ ⟨rfl, found⟩
        cases reply with
        | error e => trivial
        | ok page =>
            cases page with
            | nil => trivial
            | cons record others =>
                have stored := found _ rfl record List.mem_cons_self
                refine Obeys.bind ?_
                simp only [markInterrupted]
                split
                · rename_i sending
                  refine Obeys.send
                    (.unfailed stored (.uncertain record.lastModemError sending.2) rfl) ?_
                  rintro reply after -
                  exact Obeys.send trivial fun _ after _ => ih _ after
                · exact ih _ _
  refine Safe.bind (.send fun _ => trivial) fun memory => ?_
  cases memory with
  | false => exact .pure ()
  | true => exact loop 0

theorem outgoing_smsServiceSend (recipient text : CStr) (report : Bool) :
    Safe ServiceCall.Keeps ServiceCall.Outgoing (smsServiceSend recipient text report) := by
  simp only [smsServiceSend]
  split
  · exact .pure _
  · refine Safe.bind (.send fun _ => trivial) fun memory => ?_
    cases memory with
    | false => exact .pure _
    | true =>
        refine Safe.bind (.send fun _ => trivial) fun random => ?_
        split
        · exact .pure _
        · exact .pure _
        · split
          · exact .pure _
          · rename_i most
            refine Safe.bind (.send fun _ => trivial) fun memory => ?_
            cases memory with
            | false => exact .pure _
            | true =>
                refine Safe.bind (.send fun records => ?_) ?_
                · exact .queued _ _ _ _ _ (Nat.le_add_left _ _) (Nat.le_of_not_lt most)
                · rintro ⟨result, back⟩
                  cases result <;> exact .pure _

theorem outgoing_smsServiceDelete (id : UInt32) :
    Safe ServiceCall.Keeps ServiceCall.Outgoing (smsServiceDelete id) := by
  refine Safe.bind (.send fun _ => trivial) fun memory => ?_
  cases memory with
  | false => exact .pure _
  | true =>
      refine Safe.bind (.send fun _ => trivial) fun reply => ?_
      cases reply with
      | error e => exact .pure _
      | ok m =>
          dsimp only
          split
          · exact .pure _
          · exact .send fun _ => trivial

theorem outgoing_smsServiceRetryUncertain (id : UInt32) :
    Safe ServiceCall.Keeps ServiceCall.Outgoing (smsServiceRetryUncertain id) := by
  refine Safe.bind (.send fun _ => trivial) fun memory => ?_
  cases memory with
  | false => exact .pure _
  | true =>
      intro records
      refine Obeys.send trivial ?_
      rintro reply _ ⟨rfl, found⟩
      cases reply with
      | error e => trivial
      | ok m =>
          obtain ⟨stored, -, -⟩ := found m rfl
          dsimp only
          split
          · trivial
          · rename_i retryable
            simp only [ne_eq, not_or, not_not] at retryable
            refine Obeys.send (.unfailed stored (.requeued (.inr retryable.2)) rfl) ?_
            rintro reply after -
            trivial

/-! These are lawful. -/

section

variable {α : Type} {p : ServiceM α}

theorem lawful_of_outgoing (outgoing : Safe ServiceCall.Keeps ServiceCall.Outgoing p) :
    Safe ServiceCall.Keeps ServiceCall.Lawful p := by
  intro records
  refine (outgoing records).imp (fun _ _ _ _ answered => answered) ?_
  intro records request allowed
  cases request with
  | save message => exact OutgoingFrom.saved allowed
  | execute request => exact .inr allowed
  | _ => trivial

end

theorem lawful_processOneOutbound :
    Safe ServiceCall.Keeps ServiceCall.Lawful processOneOutbound :=
  lawful_of_outgoing outgoing_processOneOutbound

theorem lawful_markInterruptedSendsUncertain (rounds : Nat) :
    Safe ServiceCall.Keeps ServiceCall.Lawful (markInterruptedSendsUncertain rounds) :=
  lawful_of_outgoing (outgoing_markInterruptedSendsUncertain rounds)

end SmsGateway
