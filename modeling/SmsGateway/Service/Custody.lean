import SmsGateway.Service.Arrivals

/-! What the service task knows of the records it has read, and the calls this
lets it make: it queues a record, or hands a segment to the modem, only while the
record is in its custody. -/

namespace SmsGateway

open Lib Prog

/-- A queued record in the hands of the service, with its sent mask: only read, or
also marked as being sent. -/
inductive Holding where
  | none
  | shared (id : UInt32) (sent : BitVec 16)
  | own (id : UInt32) (sent : BitVec 16)

namespace Holding

def Covers (holding : Holding) (id : UInt32) (sent : BitVec 16) : Prop :=
  holding = .shared id sent ∨ holding = .own id sent

/-- After a save of this record. -/
def saved (holding : Holding) (message : SmsMessage) (succeeded : Bool) : Holding :=
  match message.status, holding with
  | .queued, _ => .none
  | .sending, .shared id sent =>
      if succeeded ∧ message.id = id ∧ message.segmentSentMask = sent then .own id sent
      else .shared id sent
  | _, holding => holding

/-- After the payload of a segment went to the modem. -/
def submitted (holding : Holding) (index : Nat) : Holding :=
  match holding with
  | .own id sent => .own id (sent ||| segmentMask index)
  | holding => holding

end Holding

/-- The record in custody, and the ids of the records read so far. -/
structure Knowledge where
  holding : Holding
  seen : List UInt32

namespace Knowledge

def empty : Knowledge := ⟨.none, []⟩

/-- After reading a record. -/
def saw (k : Knowledge) (m : SmsMessage) : Knowledge where
  holding := if m.status = .queued then .shared m.id m.segmentSentMask else k.holding
  seen := m.id :: k.seen

def learn (k : Knowledge) : (request : ServiceCall) → request.Reply → Knowledge
  | .query _, .ok m => k.saw m
  | .findOutboundReference _ _, .ok (m, _) => k.saw m
  | .list _ _, .ok records => { k with seen := records.map SmsMessage.id ++ k.seen }
  | .save message, reply => { k with holding := k.holding.saved message reply.1.isOk }
  | .execute request, _ =>
      match request.origin with
      | some (_, index) => { k with holding := k.holding.submitted index }
      | none => k
  | _, _ => k

def Allows (k : Knowledge) : ServiceCall → Prop
  | .save message =>
      (message.id = 0 ∨ message.id ∈ k.seen) ∧
        (message.status = .queued →
          message.id ≠ 0 ∧ k.holding.Covers message.id message.segmentSentMask)
  | .execute request =>
      ∀ id index, request.origin = some (id, index) →
        index < smsMaxSegments ∧ ∃ sent, k.holding = .own id sent ∧ segmentBit sent index = false
  | _ => True

end Knowledge

/-- What every journal makes true of a reply. -/
def ServiceCall.Truthful : (request : ServiceCall) → request.Reply → Prop
  | .query wanted, reply =>
      ∀ m, reply = .ok m →
        m.id ≠ 0 ∧ m.segmentCount.toNat ≤ smsMaxSegments ∧ wanted.Matches m = true
  | .findOutboundReference _ _, reply => ∀ m i, reply = .ok (m, i) → m.id ≠ 0
  | .save message, reply => message.id ≠ 0 → reply.1 = .ok () → reply.2 = message
  | _, _ => True

def Knowledge.Step (k : Knowledge) (request : ServiceCall) (reply : request.Reply)
    (k' : Knowledge) : Prop :=
  request.Truthful reply ∧ k' = k.learn request reply

/-- A program that makes only allowed calls, whatever it knows at its start. -/
def Careful {α : Type} (p : ServiceM α) : Prop :=
  ∀ k, Obeys Knowledge.Step Knowledge.Allows (fun _ _ => True) p k

section

variable {β : Type} {post : β → Knowledge → Prop} {k : Knowledge}

theorem obeys_reads {wanted : StoreQuery} {f : Except EspErr SmsMessage → ServiceM β}
    (found : ∀ m, m.id ≠ 0 → m.segmentCount.toNat ≤ smsMaxSegments → wanted.Matches m = true →
      Obeys Knowledge.Step Knowledge.Allows post (f (.ok m)) (k.saw m))
    (failed : ∀ e, Obeys Knowledge.Step Knowledge.Allows post (f (.error e)) k) :
    Obeys Knowledge.Step Knowledge.Allows post (storeFind wanted >>= f) k := by
  refine Obeys.send trivial ?_
  rintro reply t ⟨truthful, rfl⟩
  cases reply with
  | error e => exact failed e
  | ok m =>
      obtain ⟨named, most, passes⟩ := truthful m rfl
      exact found m named most passes

/-- A question whose answer tells nothing about the records. -/
theorem obeys_asks {request : ServiceCall} {f : request.Reply → ServiceM β}
    (may : k.Allows request) (silent : ∀ reply, k.learn request reply = k)
    (next : ∀ reply, Obeys Knowledge.Step Knowledge.Allows post (f reply) k) :
    Obeys Knowledge.Step Knowledge.Allows post (Prog.send request >>= f) k := by
  refine Obeys.send may ?_
  rintro reply k' ⟨-, learned⟩
  rw [learned, silent]
  exact next reply

theorem obeys_execute {request : AtRequest} {f : Except EspErr AtResponse → ServiceM β}
    (may : k.Allows (.execute request))
    (idle : Obeys Knowledge.Step Knowledge.Allows post (f (.error .invalidState)) k)
    (next : ∀ reply, Obeys Knowledge.Step Knowledge.Allows post (f reply)
      (k.learn (.execute request) reply)) :
    Obeys Knowledge.Step Knowledge.Allows post (execute request >>= f) k := by
  refine Obeys.bind (obeys_asks trivial (fun _ => rfl) ?_)
  intro ready
  cases ready with
  | false => exact idle
  | true =>
      refine ⟨may, ?_⟩
      rintro reply _ ⟨-, rfl⟩
      exact next reply

theorem obeys_saves {message : SmsMessage} {f : Except EspErr Unit × SmsMessage → ServiceM β}
    (may : k.Allows (.save message))
    (next : ∀ reply : Except EspErr Unit × SmsMessage,
      (message.id ≠ 0 → reply.1 = .ok () → reply.2 = message) →
      Obeys Knowledge.Step Knowledge.Allows post (f reply)
        { k with holding := k.holding.saved message reply.1.isOk }) :
    Obeys Knowledge.Step Knowledge.Allows post (storeSave message >>= f) k := by
  refine Obeys.send may ?_
  rintro reply t ⟨truthful, rfl⟩
  exact next reply truthful

end

/-! The inbound functions queue nothing and submit nothing. -/

theorem admits_knowledge : Admits Knowledge.Step Knowledge.Allows where
  plain := by
    intro k request plain
    cases request with
    | save message => exact plain.elim
    | execute request => exact plain.elim
    | _ => trivial
  arrived := by
    intro k m arrived
    refine ⟨.inl arrived.unnamed, ?_⟩
    intro queued
    rcases arrived.status with status | status | status <;> cases status.symm.trans queued
  part := by
    rintro k _ sender reference totalParts partNumber m deliver ⟨truthful, rfl⟩
    obtain ⟨-, -, isPart⟩ := truthful m rfl
    have status : m.status = .partialRecord := by
      simp only [StoreQuery.Matches, isPartialOf, Bool.and_eq_true, beq_iff_eq] at isPart
      exact isPart.1.1.1.1.1.2
    refine ⟨.inr List.mem_cons_self, ?_⟩
    intro queued
    cases status.symm.trans queued

/-- A report keeps the id and the sent mask, and queues nothing. -/
theorem applyReport_custody (m : SmsMessage) (segment : Nat) (report : SmsStatusReport) :
    (applyReport m segment report).id = m.id ∧
      (applyReport m segment report).segmentSentMask = m.segmentSentMask ∧
      ((applyReport m segment report).status = .queued → m.status = .queued) := by
  simp only [applyReport]
  repeat' split
  all_goals simp

theorem knowledge_reported {k k' : Knowledge} {recipient : CStr} {reference : UInt8}
    {m : SmsMessage} {i : Nat} (report : SmsStatusReport)
    (step : k.Step (.findOutboundReference recipient reference) (.ok (m, i)) k') :
    k'.Allows (.save (applyReport m i report)) := by
  obtain ⟨truthful, rfl⟩ := step
  obtain ⟨sameId, sameMask, queued⟩ := applyReport_custody m i report
  have named := truthful m i rfl
  constructor
  · rw [sameId]
    exact .inr List.mem_cons_self
  · intro status
    rw [sameId, sameMask]
    refine ⟨named, .inl ?_⟩
    simp [Knowledge.learn, Knowledge.saw, queued status]

theorem careful_processAnyPdu (pdu : CStr) (index : Int) : Careful (processAnyPdu pdu index) := by
  refine admits_knowledge.receives.processAnyPdu ?_ (admits_knowledge.receives.processStatusReportPdu ?_) pdu index
  · intro k request plain id index equal
    cases plain.symm.trans equal
  · intro k k' recipient reference m i report step
    exact knowledge_reported report step

/-! The outbound functions submit segments of the record they hold. -/

/-- The record is in custody, with its present sent mask. -/
structure InHand (k : Knowledge) (m : SmsMessage) : Prop where
  named : m.id ≠ 0
  most : m.segmentCount.toNat ≤ smsMaxSegments
  seen : m.id ∈ k.seen
  covers : k.holding.Covers m.id m.segmentSentMask

section

variable {k : Knowledge} {m : SmsMessage}

/-- A save of a record in custody that is not queued. -/
theorem InHand.may (hand : InHand k m) {message : SmsMessage} (same : message.id = m.id)
    (status : message.status ≠ .queued) : k.Allows (.save message) := by
  refine ⟨.inr ?_, fun queued => absurd queued status⟩
  rw [same]
  exact hand.seen

theorem submitSegment_custody {segment : SmsSubmitSegment} {index : Nat} (hand : InHand k m)
    (own : k.holding = .own m.id m.segmentSentMask) (sending : m.status = .sending)
    (inside : index < m.segmentCount.toNat) (clear : segmentBit m.segmentSentMask index = false) :
    Obeys Knowledge.Step Knowledge.Allows
      (fun result k' => result.1 = .ok () → InHand k' result.2) (submitSegment m segment index) k := by
  refine obeys_asks trivial (fun _ => rfl) ?_
  intro memory
  cases memory with
  | false =>
      -- No byte has reached the modem: the record is queued again as it is.
      refine obeys_saves ⟨.inr hand.seen, fun _ => ⟨hand.named, hand.covers⟩⟩ ?_
      rintro reply - equal
      cases equal
  | true =>
      have uncertain (modemError : Int) (e : EspErr) (k' : Knowledge) (seen : k'.seen = k.seen) :
          Obeys Knowledge.Step Knowledge.Allows
            (fun result k' => result.1 = .ok () → InHand k' result.2) (do
              let reply ← storeSave (uncertainRecord m modemError)
              emitEvent .uncertain reply.2
              pure (.error e, reply.2) : ServiceM (Except EspErr Unit × SmsMessage)) k' := by
        refine obeys_saves ⟨.inr ?_, fun queued => by cases queued⟩ ?_
        · rw [seen]
          exact hand.seen
        · rintro reply -
          refine ⟨trivial, ?_⟩
          rintro _ _ - equal
          cases equal
      refine obeys_execute ?_ (uncertain _ _ _ rfl) ?_
      · intro id i equal
        cases equal
        exact ⟨Nat.lt_of_lt_of_le inside hand.most, _, own, clear⟩
      · intro response
        simp only [Knowledge.learn, submitRequest, own, Holding.submitted]
        cases submitOutcome response with
        | error failure => exact uncertain failure.1 failure.2 _ rfl
        | ok reference =>
            refine ⟨⟨.inr hand.seen, ?_⟩, ?_⟩
            · intro queued
              cases sending.symm.trans queued
            · rintro reply _ ⟨truthful, rfl⟩ succeeded
              rw [truthful hand.named succeeded]
              refine ⟨hand.named, hand.most, hand.seen, .inr ?_⟩
              simp [Knowledge.learn, Holding.saved, sentRecord, sending]

theorem sendSegment_custody {segment : SmsSubmitSegment} {index : Nat} (hand : InHand k m)
    (clear : segmentBit m.segmentSentMask index = false) :
    Obeys Knowledge.Step Knowledge.Allows
      (fun result k' => result.1 = .ok () → InHand k' result.2) (sendSegment m segment index) k := by
  simp only [sendSegment]
  split
  · intro equal
    cases equal
  · rename_i inside
    refine obeys_saves (hand.may rfl (by simp [sendingRecord])) ?_
    rintro ⟨result, back⟩ returned
    cases result with
    | error e =>
        intro equal
        cases equal
    | ok _ =>
        have same : back = sendingRecord m index := returned hand.named rfl
        subst same
        have own : k.holding.saved (sendingRecord m index) true =
            .own m.id m.segmentSentMask := by
          rcases hand.covers with shared | own
          · simp [Holding.saved, sendingRecord, shared]
          · simp [Holding.saved, sendingRecord, own]
        exact submitSegment_custody ⟨hand.named, hand.most, hand.seen, .inr own⟩ own rfl
          (Nat.lt_of_not_le inside) clear

theorem sendSegments_custody {segments : List SmsSubmitSegment} {index : Nat} (hand : InHand k m) :
    Obeys Knowledge.Step Knowledge.Allows (fun result k' => result.1 = true → InHand k' result.2)
      (sendSegments segments index m) k := by
  induction segments generalizing index k m with
  | nil => exact fun _ => hand
  | cons segment rest ih =>
      simp only [sendSegments]
      split
      · exact ih hand
      · rename_i clear
        refine Obeys.bind ((sendSegment_custody hand (by simpa using clear)).mono ?_)
        rintro ⟨result, message⟩ k' kept
        cases result with
        | error e =>
            intro equal
            cases equal
        | ok _ => exact ih (kept rfl)

theorem finishOutbound_custody {segmentCount : Nat} (hand : InHand k m) :
    Obeys Knowledge.Step Knowledge.Allows (fun _ _ => True) (finishOutbound m segmentCount) k := by
  simp only [finishOutbound]
  split
  · refine obeys_saves (hand.may rfl (by simp)) ?_
    rintro ⟨result, back⟩ -
    cases result with
    | error e => trivial
    | ok _ => exact admits_knowledge.receives.emitEvent _ _ _
  · trivial

theorem processQueued_custody (hand : InHand k m) :
    Obeys Knowledge.Step Knowledge.Allows (fun _ _ => True) (processQueued m) k := by
  refine obeys_asks trivial (fun _ => rfl) ?_
  intro memory
  cases memory with
  | false => trivial
  | true =>
      simp only [Bool.not_true, Bool.false_eq_true, ↓reduceIte]
      cases queuedSegments m with
      | none =>
          refine obeys_saves (hand.may rfl (by simp)) ?_
          rintro reply -
          exact admits_knowledge.receives.emitEvent _ _ _
      | some segments =>
          refine Obeys.bind ((sendSegments_custody hand).mono ?_)
          rintro ⟨finished, message⟩ k' kept
          cases finished with
          | false => trivial
          | true => exact finishOutbound_custody (kept rfl)

end

theorem careful_processOneOutbound : Careful processOneOutbound := by
  intro k
  refine obeys_asks trivial (fun _ => rfl) fun configured => ?_
  refine obeys_asks trivial (fun _ => rfl) fun ready => ?_
  split
  · trivial
  · refine obeys_asks trivial (fun _ => rfl) fun memory => ?_
    cases memory with
    | false => trivial
    | true =>
        refine obeys_reads ?_ (fun _ => trivial)
        intro m named most queued
        simp only [StoreQuery.Matches, beq_iff_eq] at queued
        refine processQueued_custody ⟨named, most, List.mem_cons_self, .inl ?_⟩
        simp [Knowledge.saw, queued]

/-- One record of the loop after a restart. -/
theorem markInterrupted_custody {k : Knowledge} {m : SmsMessage} (seen : m.id ∈ k.seen) :
    Obeys Knowledge.Step Knowledge.Allows (fun _ _ => True) (markInterrupted m) k := by
  simp only [markInterrupted]
  split
  · refine obeys_saves ⟨.inr seen, fun queued => by cases queued⟩ ?_
    rintro reply -
    exact ((admits_knowledge.receives.emitEvent _ _).bind fun _ => Safe.pure _) _
  · trivial

theorem careful_markInterruptedSendsUncertain (rounds : Nat) :
    Careful (markInterruptedSendsUncertain rounds) := by
  have loop (after : UInt32) : Careful (markInterruptedLoop rounds after) := by
    induction rounds generalizing after with
    | zero => exact Safe.pure ()
    | succ rounds ih =>
        intro k
        refine Obeys.send trivial ?_
        rintro reply _ ⟨-, rfl⟩
        match reply with
        | .error e => trivial
        | .ok [] => trivial
        | .ok (record :: others) =>
            refine Obeys.bind ((markInterrupted_custody ?_).mono fun m k' _ => ih m.id k')
            simp [Knowledge.learn]
  refine admits_knowledge.receives.allocate.bind fun memory => ?_
  cases memory with
  | false => exact Safe.pure ()
  | true => exact loop 0

end SmsGateway
