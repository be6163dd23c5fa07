import SmsGateway.Service.Steps

/-! What the inbound functions may do, for any notion of an allowed call. -/

namespace SmsGateway

open Lib Prog

/-- A record of a message that has just arrived. -/
structure SmsMessage.Arrived (m : SmsMessage) : Prop where
  unnamed : m.id = 0
  inbound : m.direction = .inbound
  status : m.status = .received ∨ m.status = .partialRecord ∨ m.status = .unsupported

/-- A part names as many parts as its record has segments. -/
def SmsMessage.Counted (m : SmsMessage) : Prop :=
  m.status = .partialRecord → m.concat.totalParts = m.segmentCount

/-- Calls that neither save a record nor reach the modem. -/
def ServiceCall.Plain : ServiceCall → Prop
  | .save _ | .execute _ => False
  | _ => True

/-- A notion of an allowed call under which messages may arrive. -/
structure Admits {σ : Type} (step : σ → (request : ServiceCall) → request.Reply → σ → Prop)
    (allowed : σ → ServiceCall → Prop) : Prop where
  plain : ∀ s request, request.Plain → allowed s request
  arrived : ∀ s m, m.Arrived → allowed s (.save m)
  part : ∀ s t sender reference totalParts partNumber m deliver,
    step s (.query (.findPartial sender reference totalParts partNumber)) (.ok m) t →
      allowed t (.save (overwritePart m deliver))

/-- The same for parts that name their total: what arrives is counted, and a part is
overwritten by one of the same total. -/
structure Receives {σ : Type} (step : σ → (request : ServiceCall) → request.Reply → σ → Prop)
    (allowed : σ → ServiceCall → Prop) : Prop where
  plain : ∀ s request, request.Plain → allowed s request
  arrived : ∀ s m, m.Arrived → m.Counted → allowed s (.save m)
  part : ∀ s t sender reference partNumber m (deliver : SmsDeliver),
    step s (.query (.findPartial sender reference deliver.concat.totalParts partNumber)) (.ok m) t →
      allowed t (.save (overwritePart m deliver))

section

variable {σ : Type} {step : σ → (request : ServiceCall) → request.Reply → σ → Prop}
  {allowed : σ → ServiceCall → Prop}

theorem Admits.receives (admits : Admits step allowed) : Receives step allowed where
  plain := admits.plain
  arrived := fun s m arrived _ => admits.arrived s m arrived
  part := fun s t sender reference partNumber m deliver =>
    admits.part s t sender reference _ partNumber m deliver

namespace Receives

variable (receives : Receives step allowed) {deliver : SmsDeliver}

include receives

theorem allocate : Safe step allowed allocate := .send fun s => receives.plain s _ trivial

theorem emitEvent (event : SmsServiceEvent) (m : SmsMessage) :
    Safe step allowed (emitEvent event m) := .send fun s => receives.plain s _ trivial

theorem storeFind (wanted : StoreQuery) : Safe step allowed (storeFind wanted) :=
  .send fun s => receives.plain s _ trivial

theorem storeDelete (id : UInt32) : Safe step allowed (storeDelete id) :=
  .send fun s => receives.plain s _ trivial

theorem saveRecord {m : SmsMessage} (arrived : m.Arrived) (counted : m.Counted) :
    Safe step allowed (saveRecord m) := by
  refine Safe.bind (.send fun s => receives.arrived s m arrived counted) ?_
  rintro ⟨result, back⟩
  cases result <;> exact .pure _

theorem deletePartials (ids : List UInt32) : Safe step allowed (deletePartials ids) := by
  induction ids with
  | nil => exact .pure ()
  | cons id rest ih => exact (receives.storeDelete id).bind fun _ => ih

/-- The assembled record stays a new, received one. -/
theorem assembleParts {s : σ} {parts : List UInt8} {a : SmsMessage} {ids : List UInt32}
    (arrived : a.Arrived) (received : a.status = .received) :
    Obeys step allowed
      (fun result _ => ∀ done, result = .ok done → done.1.Arrived ∧ done.1.status = .received)
      (assembleParts deliver parts a ids) s := by
  induction parts generalizing s a ids with
  | nil =>
      rintro done equal
      cases equal
      exact ⟨arrived, received⟩
  | cons part rest ih =>
      refine Obeys.send (receives.plain s _ trivial) ?_
      rintro reply t -
      cases reply with
      | error e =>
          rintro done equal
          cases equal
      | ok m =>
          dsimp only
          split
          · rintro done equal
            cases equal
          · refine ih ?_ ?_
            · simp only [appendPart]
              split <;> exact ⟨arrived.unnamed, arrived.inbound, arrived.status⟩
            · simp only [appendPart]
              split <;> exact received

theorem storeAssembled {a : SmsMessage} (arrived : a.Arrived) (counted : a.Counted) :
    Safe step allowed (storeAssembled a) := by
  refine (receives.storeFind _).bind fun reply => ?_
  cases reply with
  | ok existing => exact .pure _
  | error e =>
      cases e with
      | notFound =>
          refine Safe.bind (.send fun s => receives.arrived s a arrived counted) ?_
          rintro ⟨result, back⟩
          cases result <;> exact .pure _
      | _ => exact .pure _

theorem assembleIfComplete : Safe step allowed (assembleIfComplete deliver) := by
  simp only [SmsGateway.assembleIfComplete]
  split
  · exact .pure _
  · refine receives.allocate.bind fun memory => ?_
    cases memory with
    | false => exact .pure _
    | true =>
        intro s
        refine Obeys.bind ((receives.assembleParts ⟨rfl, rfl, .inl rfl⟩ rfl).mono ?_)
        intro result t kept
        cases result with
        | error e => trivial
        | ok done =>
            refine receives.allocate.bind (fun memory => ?_) t
            cases memory with
            | false => exact .pure _
            | true =>
                obtain ⟨arrived, received⟩ := kept done rfl
                have counted : done.1.Counted := fun status => by cases received.symm.trans status
                refine (receives.storeAssembled arrived counted).bind fun result => ?_
                cases result with
                | error e => exact .pure _
                | ok stored => exact (receives.deletePartials _).bind fun _ => .pure _

omit receives in
theorem deliverRecord_arrived : (deliverRecord deliver).Arrived := by
  refine ⟨rfl, rfl, ?_⟩
  simp only [deliverRecord]
  split <;> simp

omit receives in
theorem deliverRecord_counted : (deliverRecord deliver).Counted := by
  intro status
  simp only [deliverRecord] at status ⊢
  split at status
  · rename_i multipart
    rw [if_pos multipart]
  · cases status

theorem persistPart : Safe step allowed (persistPart deliver) := by
  intro s
  refine Obeys.send (receives.plain s _ trivial) ?_
  intro reply t found
  cases reply with
  | ok m =>
      dsimp only
      split
      · trivial
      · refine ⟨receives.part s t _ _ _ m deliver found, ?_⟩
        rintro ⟨result, back⟩ u -
        cases result <;> trivial
  | error e =>
      cases e <;> first
        | exact receives.saveRecord deliverRecord_arrived deliverRecord_counted t
        | trivial

theorem persistAssembly (event : SmsMessage) :
    Safe step allowed (persistAssembly deliver event) := by
  refine receives.assembleIfComplete.bind fun result => ?_
  match result with
  | .ok (assembled, true) => exact (receives.emitEvent _ _).bind fun _ => .pure _
  | .ok (assembled, false) => exact .pure _
  | .error e =>
      cases e <;> first
        | exact (receives.emitEvent _ _).bind fun _ => .pure _
        | exact .pure _

theorem persistSingle {record : SmsMessage} (arrived : record.Arrived) (counted : record.Counted) :
    Safe step allowed (persistSingle record) := by
  refine (receives.storeFind _).bind fun reply => ?_
  cases reply with
  | ok existing => exact .pure _
  | error e =>
      cases e with
      | notFound =>
          refine (receives.saveRecord arrived counted).bind fun result => ?_
          cases result with
          | error e => exact .pure _
          | ok saved => exact (receives.emitEvent _ _).bind fun _ => .pure _
      | _ => exact .pure _

theorem persistDeliver : Safe step allowed (persistDeliver deliver) := by
  refine receives.allocate.bind fun record => ?_
  cases record with
  | false => exact .pure _
  | true =>
      simp only [Bool.not_true, Bool.false_eq_true, ↓reduceIte]
      split
      · refine receives.allocate.bind fun existing => receives.allocate.bind fun assembled => ?_
        split
        · exact .pure _
        · refine receives.persistPart.bind fun result => ?_
          cases result with
          | error e => exact .pure _
          | ok m => exact receives.persistAssembly m
      · refine receives.allocate.bind fun existing => ?_
        split
        · exact .pure _
        · exact receives.persistSingle deliverRecord_arrived deliverRecord_counted

theorem persistUnsupportedDeliver (pdu : CStr) :
    Safe step allowed (persistUnsupportedDeliver pdu deliver) := by
  refine receives.allocate.bind fun memory => ?_
  cases memory with
  | false => exact .pure _
  | true =>
      refine (receives.storeFind _).bind fun reply => ?_
      cases reply with
      | ok existing => exact .pure _
      | error e =>
          cases e with
          | notFound =>
              have counted : (unsupportedRecord pdu deliver).Counted := fun status => by cases status
              refine (receives.saveRecord ⟨rfl, rfl, .inr (.inr rfl)⟩ counted).bind fun result => ?_
              cases result with
              | error e => exact .pure _
              | ok saved => exact (receives.emitEvent _ _).bind fun _ => .pure _
          | _ => exact .pure _

/-- A report, when the record it is about may be saved with it. -/
theorem processStatusReportPdu (reported : ∀ s t recipient reference m i report,
      step s (.findOutboundReference recipient reference) (.ok (m, i)) t →
        allowed t (.save (applyReport m i report)))
    (pdu : CStr) : Safe step allowed (processStatusReportPdu pdu) := by
  have events (saved : SmsMessage) : Safe step allowed (emitReport saved) := by
    simp only [emitReport]
    split
    · exact receives.emitEvent _ _
    · split
      · exact receives.emitEvent _ _
      · exact .pure _
  simp only [SmsGateway.processStatusReportPdu]
  split
  · exact .pure _
  · rename_i report _
    refine receives.allocate.bind fun memory => ?_
    cases memory with
    | false => exact .pure _
    | true =>
        intro s
        refine Obeys.send (receives.plain s _ trivial) ?_
        intro reply t found
        match reply with
        | .error e => trivial
        | .ok (m, segment) =>
            refine ⟨reported s t _ _ m segment report found, ?_⟩
            rintro ⟨result, back⟩ u -
            cases result with
            | error e => trivial
            | ok _ => exact (events back).bind (fun _ => .pure _) u

section

/-! Requests without a payload, and what deletes the modem's copy with one. -/

variable (requests : ∀ s request, AtRequest.origin request = none → allowed s (.execute request))

include requests

theorem execute {request : AtRequest} (plain : request.origin = none) :
    Safe step allowed (execute request) := by
  refine Safe.bind (.send fun s => receives.plain s _ trivial) fun ready => ?_
  cases ready with
  | false => exact .pure _
  | true => exact .send fun s => requests s _ plain

theorem deleteModemCopy (index : Int) : Safe step allowed (deleteModemCopy index) := by
  have delete : Safe step allowed (deleteModemIndex index) := by
    refine Safe.bind ?_ fun _ => .pure _
    refine (receives.execute requests rfl).bind fun result => ?_
    cases result <;> exact .pure _
  simp only [SmsGateway.deleteModemCopy]
  split
  · exact delete.bind fun _ => .pure _
  · exact .pure _

theorem processDeliverPdu (pdu : CStr) (index : Int) :
    Safe step allowed (processDeliverPdu pdu index) := by
  refine receives.allocate.bind fun delivered => receives.allocate.bind fun stored => ?_
  split
  · exact .pure _
  · simp only [processDecoded]
    split
    · refine (receives.persistUnsupportedDeliver pdu).bind fun result => ?_
      cases result with
      | error e => exact .pure _
      | ok m => exact receives.deleteModemCopy requests index
    · split
      · exact .pure _
      · refine receives.persistDeliver.bind fun result => ?_
        cases result with
        | error e => exact .pure _
        | ok m => exact receives.deleteModemCopy requests index

/-- All PDUs arrive, when the delivery reports do. -/
theorem processAnyPdu (reports : ∀ pdu, Safe step allowed (SmsGateway.processStatusReportPdu pdu))
    (pdu : CStr) (index : Int) : Safe step allowed (processAnyPdu pdu index) := by
  simp only [SmsGateway.processAnyPdu]
  split
  · exact receives.processDeliverPdu requests pdu index
  · refine (reports pdu).bind fun result => ?_
    cases result with
    | error e => exact .pure _
    | ok _ => exact receives.deleteModemCopy requests index
  · exact .pure _

end

end Receives

end

end SmsGateway
