import SmsGateway.Service.DeliveryFacts

/-! What processing one SMS-DELIVER can do to the journal. -/

namespace SmsGateway

open Lib Prog

/-- The record of a quarantined PDU. -/
def IsRaw (pdu : CStr) (m : SmsMessage) : Prop := isInboundRawPdu pdu m = true

theorem isRaw_iff (pdu : CStr) (m : SmsMessage) :
    IsRaw pdu m ↔ m.direction = .inbound ∧ m.status = .unsupported ∧ m.rawPdu.str = pdu := by
  simp [IsRaw, isInboundRawPdu, and_assoc]

/-- `persistUnsupportedDeliver`. -/
inductive UnsupportedStep (env : Surroundings) (w : World) (pdu : CStr) (deliver : SmsDeliver) :
    Except EspErr SmsMessage → World → Prop where
  | failed {e : EspErr} (fault : env.mayFail) : UnsupportedStep env w pdu deliver (.error e) w
  | duplicate {m : SmsMessage} (held : w.Holds m) (same : IsRaw pdu m) :
      UnsupportedStep env w pdu deliver (.ok m) w
  | unsaved {e : EspErr} {t : World} (absent : ∀ m, w.Holds m → ¬ IsRaw pdu m)
      (saves : Saves env w (unsupportedRecord pdu deliver) (.error e) t) :
      UnsupportedStep env w pdu deliver (.error e) t
  | created {m : SmsMessage} {t : World} (absent : ∀ m, w.Holds m → ¬ IsRaw pdu m)
      (saves : Saves env w (unsupportedRecord pdu deliver) (.ok m) t) :
      UnsupportedStep env w pdu deliver (.ok m) (t.emit .unsupportedReceived m)

/-- A PDU that `process_deliver_pdu` keeps as it is. -/
def KeptRaw (pdu : CStr) : Prop :=
  (smsDeliverDecode pdu).1 = .unsupported ∧ (smsDeliverDecode pdu).2.encoding = .eightBit

/-- `processDeliverPdu`; the modem's answers do not matter. -/
inductive ProcessStep (env : Surroundings) (w : World) (pdu : CStr) :
    Except EspErr Unit → World → Prop where
  | failed {e : EspErr} (fault : env.mayFail) : ProcessStep env w pdu (.error e) w
  | rejected {e : EspErr} (other : ¬ KeptRaw pdu) (bad : (smsDeliverDecode pdu).1 ≠ .ok) :
      ProcessStep env w pdu (.error e) w
  | quarantined {result : Except EspErr SmsMessage} {t : World} (raw : KeptRaw pdu)
      (step : UnsupportedStep env w pdu (smsDeliverDecode pdu).2 result t) :
      ProcessStep env w pdu (result.map fun _ => ()) t
  | delivered {result : Except EspErr SmsMessage} {t : World} (fine : (smsDeliverDecode pdu).1 = .ok)
      (step : DeliverStep env w (smsDeliverDecode pdu).2 result t) :
      ProcessStep env w pdu (result.map fun _ => ()) t

section

variable {env : Surroundings} {pdu : CStr} {w t : World} {allowed : World → ServiceCall → Prop}

theorem KeptRaw.short (raw : KeptRaw pdu) : pdu.length < 353 := by
  obtain ⟨octets, -, hex, -⟩ := smsDeliverDecode_eightBit raw.2
  have bound := hexDecode_length hex
  simp only [smsMaxPduOctets] at bound
  omega

theorem persistUnsupportedDeliver_steps {deliver : SmsDeliver}
    {post : Except EspErr SmsMessage → World → Prop} (numbered : w.Numbered)
    (may : ∀ t (c : ServiceCall), c.Local → allowed t c)
    (next : ∀ result t, UnsupportedStep env w pdu deliver result t → post result t) :
    Obeys env.Step allowed post (persistUnsupportedDeliver pdu deliver) w := by
  refine obeys_allocate (may _ _ trivial) ?_ fun fault => next _ _ (.failed fault)
  refine obeys_find numbered (may _ _ trivial) ?_ ?_ ?_
  · intro m held same _
    exact next _ _ (.duplicate held same)
  · intro none
    have absent (m : SmsMessage) (held : w.Holds m) : ¬ IsRaw pdu m := by
      intro same
      cases (none m held).symm.trans same
    refine Obeys.bind (saveRecord_obeys numbered (Nat.zero_le _) (may _ _ trivial) ?_)
    intro result t saves
    cases result with
    | error e => exact next _ _ (.unsaved absent saves)
    | ok saved =>
        refine obeys_emit (may _ _ trivial) ?_
        exact next _ _ (.created absent saves)
  · intro fault e never
    have stop := next (.error e) w (.failed fault)
    cases e <;> first
      | exact absurd rfl never
      | exact stop

theorem deleteModemCopy_steps {index : Int} {post : Except EspErr Unit → World → Prop}
    (may : ∀ t (c : ServiceCall), c.Local → allowed t c)
    (deletes : allowed w (.execute ⟨.cmgd index, none, none⟩)) (next : post (.ok ()) w) :
    Obeys env.Step allowed post (deleteModemCopy index) w := by
  simp only [deleteModemCopy]
  split
  · refine ⟨may _ _ trivial, ?_⟩
    rintro ready t ⟨rfl, -⟩
    cases ready with
    | false => exact next
    | true =>
        refine ⟨deletes, ?_⟩
        rintro reply t ⟨rfl, -⟩
        cases reply <;> exact next
  · exact next

/-- The index is deleted only behind a step that succeeded. -/
theorem processDeliverPdu_steps (index : Int) (numbered : w.Numbered)
    (may : ∀ t (c : ServiceCall), c.Local → allowed t c)
    (deletes : ∀ t, ProcessStep env w pdu (.ok ()) t →
      allowed t (.execute ⟨.cmgd index, none, none⟩)) :
    Obeys env.Step allowed (ProcessStep env w pdu) (processDeliverPdu pdu index) w := by
  have deleted {t : World} (step : ProcessStep env w pdu (.ok ()) t) :
      Obeys env.Step allowed (ProcessStep env w pdu) (deleteModemCopy index) t :=
    deleteModemCopy_steps may (deletes t step) step
  have decoded : Obeys env.Step allowed (ProcessStep env w pdu)
      (processDecoded pdu index (smsDeliverDecode pdu).1 (smsDeliverDecode pdu).2) w := by
    simp only [processDecoded]
    split
    · rename_i raw
      refine Obeys.bind (persistUnsupportedDeliver_steps numbered may ?_)
      intro result t step
      cases result with
      | error e => exact .quarantined raw step
      | ok m => exact deleted (.quarantined raw step)
    · rename_i other
      split
      · rename_i bad
        exact .rejected other bad
      · rename_i fine
        simp only [ne_eq, not_not] at fine
        refine Obeys.bind (persistDeliver_obeys numbered (fun t _ => may t) ?_)
        intro result t step
        cases result with
        | error e => exact .delivered fine step
        | ok m => exact deleted (.delivered fine step)
  refine obeys_allocate (may _ _ trivial) ?_ ?_
  · exact obeys_allocate (may _ _ trivial) decoded fun fault => .failed fault
  · intro fault
    exact obeys_allocate (may _ _ trivial) (.failed fault) fun _ => .failed fault

theorem processStep_of_runs {index : Int}
    {trace : List (Entry World ServiceCall ServiceCall.Reply)} {result : Except EspErr Unit}
    (numbered : w.Numbered) (runs : Runs env.Meets (processDeliverPdu pdu index) w trace result t)
    (few : t.issued < idLimit) : ProcessStep env w pdu result t := by
  have obeys := @processDeliverPdu_steps env pdu w (fun _ _ => True) index numbered
    (fun _ _ _ => trivial) fun _ _ => trivial
  exact (obeys.runs (runs_few runs few).1).1

theorem UnsupportedStep.numbered {deliver : SmsDeliver} {result : Except EspErr SmsMessage}
    (numbered : w.Numbered) (step : UnsupportedStep env w pdu deliver result t) : t.Numbered := by
  cases step with
  | failed fault => exact numbered
  | duplicate held same => exact numbered
  | unsaved absent saves => exact saves.wrote.numbered
  | created absent saves => exact saves.wrote.numbered

theorem ProcessStep.numbered {result : Except EspErr Unit} (numbered : w.Numbered)
    (step : ProcessStep env w pdu result t) : t.Numbered := by
  cases step with
  | failed fault => exact numbered
  | rejected other bad => exact numbered
  | quarantined raw step => exact step.numbered numbered
  | delivered fine step =>
      obtain ⟨u, stage, store, issued⟩ := step.stage
      rw [World.Numbered, store, issued]
      exact (stage.wrote numbered).numbered

/-- While the journal has room, a record that is no part of a message stays. -/
theorem ProcessStep.keeps {result : Except EspErr Unit} {m : SmsMessage} (roomy : ¬ env.mayPrune)
    (numbered : w.Numbered) (step : ProcessStep env w pdu result t) (held : w.Holds m)
    (whole : m.status ≠ .partialRecord) : t.Holds m := by
  have other : m.id ≠ 0 := numbered.holds_named held
  cases step with
  | failed fault => exact held
  | rejected other bad => exact held
  | quarantined raw step =>
      cases step with
      | failed fault => exact held
      | duplicate held' same => exact held
      | unsaved absent saves => exact saves.keeps held other (.inr roomy)
      | created absent saves => exact saves.keeps held other (.inr roomy)
  | delivered fine step =>
      obtain ⟨u, stage, store, -⟩ := step.stage
      rw [World.Holds, store]
      refine stage.keeps numbered held (.inr roomy) ?_
      intro _ part isPart
      exact whole isPart.status

end

end SmsGateway
