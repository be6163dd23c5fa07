import SmsGateway.Service.DeliveryFacts

/-! Parts of different multipart messages do not mix.

The journal is used by inbound deliveries, each possibly stopped between two
calls, and by other store calls; `InboxRun` remembers the deliveries. -/

namespace SmsGateway

open Lib Prog

/-- What tells multipart messages apart: the sender, the width and the value of
the reference, and the total. -/
def SmsDeliver.key (deliver : SmsDeliver) : CStr × Bool × UInt16 × UInt8 :=
  (deliver.sender.str, deliver.concat.is16bit, deliver.concat.reference,
    deliver.concat.totalParts)

def SmsMessage.partKey (m : SmsMessage) : CStr × Bool × UInt16 × UInt8 :=
  (m.sender.str, m.concat.is16bit, m.concat.reference, m.concat.totalParts)

/-- Runs of the journal, with the deliveries given to `persist_deliver` so far, the
newest first; each finds the journal as `may` asks for. Any flash call may be refused, and
a delivery may be cut off. -/
inductive InboxRun (may : SmsDeliver → World → Prop) : List SmsDeliver → World → Prop where
  | start : InboxRun may [] ⟨.empty, 0, []⟩
  | deliver {history : List SmsDeliver} {w t : World} (before : InboxRun may history w)
      (deliver : SmsDeliver) (allowed : may deliver w)
      (reaches : Reaches ServiceCall.Answers (persistDeliver deliver) w t) :
      InboxRun may (deliver :: history) t
  | save {history : List SmsDeliver} {w t : World} {reply : Except EspErr Unit × SmsMessage}
      (before : InboxRun may history w) (message : SmsMessage)
      (known : message.id.toNat ≤ w.issued) (notPartial : message.status ≠ .partialRecord)
      (notReceived : message.status ≠ .received)
      (performs : w.Performs (smsStoreSave message) reply t) : InboxRun may history t
  | delete {history : List SmsDeliver} {w t : World} {reply : Except EspErr Unit}
      (before : InboxRun may history w) (id : UInt32)
      (performs : w.Performs (smsStoreDelete id) reply t) : InboxRun may history t
  | watermark {history : List SmsDeliver} {w : World} (before : InboxRun may history w)
      (protection : Bool) (value : UInt32) :
      InboxRun may history { w with store := smsStoreSetReplayWatermark protection value w.store }

/-- Processing `deliver` overwrote or deleted no part of another message. -/
def Untouched (deliver : SmsDeliver) (w t : World) : Prop :=
  ∀ m, w.Holds m → m.status = .partialRecord → m.partKey ≠ deliver.key → t.Holds m

/-- The text of the record comes from one message: from a single-part delivery, or
from the deliveries of all parts under one key. -/
def OneMessage (history : List SmsDeliver) (m : SmsMessage) : Prop :=
  (∃ d ∈ history, d.concat.present = false ∧ m.text.str = d.text.str) ∨
    ∃ (key : CStr × Bool × UInt16 × UInt8) (parts : List SmsDeliver),
      (∀ d ∈ parts, d ∈ history ∧ d.concat.present = true ∧ d.key = key) ∧
      parts.map (fun d => d.concat.partNumber) = partNumbers key.2.2.2 ∧
      m.text.str.bytes = (parts.map fun d => d.text.str.bytes).flatten

/-- No stored part differs from the delivered one in the width of the reference alone. -/
def SingleWidth (deliver : SmsDeliver) (w : World) : Prop :=
  deliver.concat.present = true → ∀ part m, w.Holds m → IsPartOf deliver part m →
    m.concat.is16bit = deliver.concat.is16bit

/-- Every stored part and every received message comes from the deliveries. -/
structure Traced (history : List SmsDeliver) (w : World) : Prop where
  parts : ∀ m, w.Holds m → m.status = .partialRecord →
    ∃ d ∈ history, d.concat.present = true ∧ m.concat = d.concat ∧ m.sender.str = d.sender.str ∧
      m.text.str = d.text.str
  received : ∀ m, w.Holds m → m.status = .received → OneMessage history m

theorem OneMessage.mono {history : List SmsDeliver} {m : SmsMessage} (deliver : SmsDeliver)
    (one : OneMessage history m) : OneMessage (deliver :: history) m := by
  rcases one with ⟨d, member, rest⟩ | ⟨key, parts, each, rest⟩
  · exact .inl ⟨d, List.mem_cons_of_mem _ member, rest⟩
  · refine .inr ⟨key, parts, ?_, rest⟩
    intro d member
    obtain ⟨inside, present, same⟩ := each d member
    exact ⟨List.mem_cons_of_mem _ inside, present, same⟩

theorem Traced.mono {history : List SmsDeliver} {w : World} (deliver : SmsDeliver)
    (traced : Traced history w) : Traced (deliver :: history) w := by
  refine ⟨?_, fun m held status => (traced.received m held status).mono deliver⟩
  intro m held status
  obtain ⟨d, member, rest⟩ := traced.parts m held status
  exact ⟨d, List.mem_cons_of_mem _ member, rest⟩

/-- Fewer records, or records that are neither parts nor received messages, stay traced. -/
theorem Traced.of_source {history : List SmsDeliver} {w t : World} (traced : Traced history w)
    (source : ∀ m, t.Holds m → w.Holds m ∨
      m.status ≠ .partialRecord ∧ m.status ≠ .received) : Traced history t := by
  refine ⟨?_, ?_⟩
  · intro m held status
    rcases source m held with before | ⟨other, -⟩
    · exact traced.parts m before status
    · exact absurd status other
  · intro m held status
    rcases source m held with before | ⟨-, other⟩
    · exact traced.received m before status
    · exact absurd status other

section

variable {env : Surroundings} {history : List SmsDeliver} {deliver : SmsDeliver} {w u v t : World}

theorem PartStep.traced {result : Except EspErr SmsMessage} (numbered : w.Numbered)
    (traced : Traced (deliver :: history) w) (multipart : deliver.concat.present = true)
    (step : PartStep env w deliver result t) : Traced (deliver :: history) t := by
  refine ⟨?_, ?_⟩
  · intro m held status
    rcases step.source numbered multipart held with before | own
    · exact traced.parts m before status
    · have sender := ((isPartOf_iff _ _ _).mp own.part).2.2.2.2.2.2
      exact ⟨deliver, List.mem_cons_self, multipart, own.concat, sender, own.text⟩
  · intro m held status
    rcases step.source numbered multipart held with before | own
    · exact traced.received m before status
    · rw [own.part.status] at status
      cases status

/-- The delivered part has the width that it has. -/
theorem PartStep.singleWidth {result : Except EspErr SmsMessage} (numbered : w.Numbered)
    (widths : SingleWidth deliver w) (step : PartStep env w deliver result u) :
    SingleWidth deliver u := by
  intro multipart part m held isPart
  rcases step.source numbered multipart held with before | own
  · exact widths multipart part m before isPart
  · rw [own.concat]

/-- The delivery behind a stored part of the message. -/
theorem Traced.part {part : UInt8} {m : SmsMessage} (traced : Traced (deliver :: history) u)
    (widths : SingleWidth deliver u) (multipart : deliver.concat.present = true)
    (found : PartFound u deliver part m) :
    ∃ d ∈ deliver :: history, d.concat.present = true ∧ d.key = deliver.key ∧
      d.concat.partNumber = part ∧ d.text.str = m.text.str := by
  obtain ⟨d, member, present, concat, sender, text⟩ :=
    traced.parts m found.holds found.isPart.status
  obtain ⟨-, -, -, reference, total, number, mine⟩ := (isPartOf_iff _ _ _).mp found.isPart
  have width := widths multipart part m found.holds found.isPart
  rw [concat] at reference total number width
  rw [sender] at mine
  exact ⟨d, member, present, by simp [SmsDeliver.key, mine, width, reference, total], number,
    text.symm⟩

theorem Traced.gathered {parts : List UInt8} {stored : List SmsMessage}
    (traced : Traced (deliver :: history) u) (widths : SingleWidth deliver u)
    (multipart : deliver.concat.present = true)
    (each : List.Forall₂ (PartFound u deliver) parts stored) :
    ∃ deliveries : List SmsDeliver,
      (∀ d ∈ deliveries, d ∈ deliver :: history ∧ d.concat.present = true ∧
        d.key = deliver.key) ∧
      deliveries.map (fun d => d.concat.partNumber) = parts ∧
      (deliveries.map fun d => d.text.str.bytes).flatten = joinedText stored := by
  induction each with
  | nil => exact ⟨[], by simp, rfl, rfl⟩
  | cons found rest ih =>
      obtain ⟨later, members, numbers, text⟩ := ih
      obtain ⟨d, member, present, key, number, same⟩ := traced.part widths multipart found
      refine ⟨d :: later, ?_, by simp [number, numbers], ?_⟩
      · intro other inside
        rcases List.mem_cons.mp inside with rfl | inside
        · exact ⟨member, present, key⟩
        · exact members other inside
      · simp [joinedText, same, text]

theorem StoreStep.traced {stored : List SmsMessage} {result : Except EspErr (SmsMessage × Bool)}
    (traced : Traced (deliver :: history) u) (widths : SingleWidth deliver u)
    (multipart : deliver.concat.present = true)
    (gathers : Gathers u deliver (partNumbers deliver.concat.totalParts) stored)
    (step : StoreStep env u (assembledOf deliver (partNumbers deliver.concat.totalParts) stored)
      result t) : Traced (deliver :: history) t := by
  have unnamed := assembledOf_id deliver (partNumbers deliver.concat.totalParts) stored
  obtain ⟨-, status, -, -⟩ :=
    assembledOf_fields deliver (partNumbers deliver.concat.totalParts) stored
  refine ⟨?_, ?_⟩
  · intro m held isPartial
    rcases step.source unnamed held with before | rfl
    · exact traced.parts m before isPartial
    · have same := status.symm.trans isPartial
      cases same
  · intro m held received
    rcases step.source unnamed held with before | rfl
    · exact traced.received m before received
    · obtain ⟨deliveries, members, numbers, text⟩ := traced.gathered widths multipart gathers.each
      refine .inr ⟨deliver.key, deliveries, members, numbers, ?_⟩
      rw [text]
      exact assembledOf_text gathers

theorem StoreStep.traced_single {result : Except EspErr (SmsMessage × Bool)}
    (traced : Traced (deliver :: history) w) (single : deliver.concat.present = false)
    (step : StoreStep env w (deliverRecord deliver) result t) : Traced (deliver :: history) t := by
  have status : (deliverRecord deliver).status = .received := by
    simp [deliverRecord, single]
  refine ⟨?_, ?_⟩
  · intro m held isPartial
    rcases step.source rfl held with before | rfl
    · exact traced.parts m before isPartial
    · have same := status.symm.trans isPartial
      cases same
  · intro m held received
    rcases step.source rfl held with before | rfl
    · exact traced.received m before received
    · exact .inl ⟨deliver, List.mem_cons_self, single, (deliverRecord_strings deliver).2.2⟩

theorem Stage.traced (numbered : w.Numbered) (before : Traced history w)
    (widths : SingleWidth deliver w) (stage : Stage env w deliver t) :
    Traced (deliver :: history) t := by
  have traced := before.mono deliver
  cases stage with
  | start => exact traced
  | part multipart part => exact part.traced numbered traced multipart
  | stored multipart part gathers stores =>
      exact stores.traced (part.traced numbered traced multipart)
        (part.singleWidth numbered widths) multipart gathers
  | deleting multipart part gathers stores first deletes =>
      refine Traced.of_source (stores.traced (part.traced numbered traced multipart)
        (part.singleWidth numbered widths) multipart gathers) ?_
      intro m held
      exact .inl (deletes.source held)
  | single single stores => exact stores.traced_single traced single

/-- A stored part under another key is no part of the delivered message. -/
theorem not_isPartOf_of_key {m : SmsMessage} (widths : SingleWidth deliver w)
    (multipart : deliver.concat.present = true) (held : w.Holds m)
    (other : m.partKey ≠ deliver.key) (part : UInt8) : ¬ IsPartOf deliver part m := by
  intro isPart
  obtain ⟨-, -, -, reference, total, -, sender⟩ := (isPartOf_iff _ _ _).mp isPart
  have width := widths multipart part m held isPart
  apply other
  simp [SmsMessage.partKey, SmsDeliver.key, sender, reference, total, width]

theorem Stage.untouched (numbered : w.Numbered) (widths : SingleWidth deliver w)
    (stage : Stage env w deliver t) : Untouched deliver w t := by
  intro m held status other
  refine stage.keeps numbered held (partial_spared status) ?_
  intro multipart
  exact not_isPartOf_of_key widths multipart held other

end

/-- What holds while a delivery is processed. -/
structure Isolated (history : List SmsDeliver) (deliver : SmsDeliver) (w t : World) : Prop where
  numbered : t.Numbered
  traced : Traced (deliver :: history) t
  untouched : Untouched deliver w t

theorem Isolated.congr {history : List SmsDeliver} {deliver : SmsDeliver} {w t u : World}
    (isolated : Isolated history deliver w u) (store : t.store = u.store)
    (issued : t.issued = u.issued) : Isolated history deliver w t := by
  have same (m : SmsMessage) : t.Holds m ↔ u.Holds m := by
    rw [World.Holds, World.Holds, store]
  refine ⟨?_, ⟨?_, ?_⟩, ?_⟩
  · rw [World.Numbered, store, issued]
    exact isolated.numbered
  · intro m held
    exact isolated.traced.parts m ((same m).mp held)
  · intro m held
    exact isolated.traced.received m ((same m).mp held)
  · intro m held status other
    exact (same m).mpr (isolated.untouched m held status other)

/-- What one delivery, complete or cut off, keeps. -/
theorem delivery_isolated {history : List SmsDeliver} {deliver : SmsDeliver} {w t : World}
    (numbered : w.Numbered) (before : Traced history w) (widths : SingleWidth deliver w)
    (reaches : Reaches ServiceCall.Answers (persistDeliver deliver) w t)
    (few : t.issued < idLimit) : Isolated history deliver w t := by
  have stage (s : World) (stage : Stage anySurroundings w deliver s) :
      Isolated history deliver w s :=
    ⟨(stage.wrote numbered).numbered, stage.traced numbered before widths,
      stage.untouched numbered widths⟩
  have obeys : Obeys anySurroundings.Step (fun s _ => Isolated history deliver w s)
      (fun _ s => Isolated history deliver w s) (persistDeliver deliver) w := by
    refine persistDeliver_obeys numbered ?_ ?_
    · intro s visits c _
      exact stage s visits.stage
    · intro result s step
      obtain ⟨u, reached, store, issued⟩ := step.stage
      exact (stage u reached).congr store issued
  exact obeys.reaches (reaches_any reaches few).1

theorem InboxRun.traced {history : List SmsDeliver} {w : World}
    (run : InboxRun SingleWidth history w) (few : w.issued < idLimit) :
    w.Numbered ∧ Traced history w := by
  induction run with
  | start =>
      refine ⟨Store.numbered_empty, ⟨?_, ?_⟩⟩ <;> rintro m ⟨slot, stored⟩ <;> cases stored
  | deliver before deliver widths reaches ih =>
      obtain ⟨numbered, traced⟩ := ih (reaches_any reaches few).2
      have isolated := delivery_isolated numbered traced widths reaches few
      exact ⟨isolated.numbered, isolated.traced⟩
  | save before message known notPartial notReceived performs ih =>
      rename_i history w t reply
      have grows : w.issued ≤ t.issued := by
        obtain ⟨plan, -, rfl⟩ := performs
        exact Nat.le_add_right _ _
      obtain ⟨numbered, traced⟩ := ih (by omega)
      obtain ⟨wrote, effect, -⟩ := World.performs_save numbered known performs few
      refine ⟨wrote.numbered, traced.of_source ?_⟩
      intro m held
      rcases effect.source held with before | ⟨-, rfl⟩ | ⟨-, rfl⟩
      · exact .inl before
      · exact .inr ⟨notPartial, notReceived⟩
      · exact .inr ⟨notPartial, notReceived⟩
  | delete before id performs ih =>
      rename_i history w t reply
      have grows : w.issued ≤ t.issued := by
        obtain ⟨plan, -, rfl⟩ := performs
        exact Nat.le_add_right _ _
      obtain ⟨numbered, traced⟩ := ih (by omega)
      obtain ⟨wrote, effect⟩ := World.performs_delete numbered performs
      refine ⟨wrote.numbered, traced.of_source ?_⟩
      intro m held
      cases effect with
      | kept same => exact .inl ((same m).mp held)
      | erased rest => exact .inl ((rest m).mp held).1
  | watermark before protection value ih =>
      obtain ⟨numbered, traced⟩ := ih few
      exact ⟨numbered.congr rfl rfl, traced.of_source fun m held => .inl held⟩

/-- In every run whose parts never find one that differs in the reference width alone, a
delivery leaves the parts of other messages as they are, wherever it is cut off, and no
received record mixes messages. -/
theorem multipart_keys_isolated {history : List SmsDeliver} {deliver : SmsDeliver} {w t : World}
    (run : InboxRun SingleWidth history w) (widths : SingleWidth deliver w)
    (reaches : Reaches ServiceCall.Answers (persistDeliver deliver) w t)
    (few : t.issued < idLimit) :
    Untouched deliver w t ∧
      ∀ m, t.Holds m → m.status = .received → OneMessage (deliver :: history) m := by
  obtain ⟨numbered, traced⟩ := run.traced (reaches_any reaches few).2
  have isolated := delivery_isolated numbered traced widths reaches few
  exact ⟨isolated.untouched, isolated.traced.received⟩

/-- Part 1 of 2 of a message with an 8-bit reference and the text `A`. -/
def narrowPart (reference : UInt8) : SmsDeliver :=
  (smsDeliverDecode (pduOf [0x00, 0x40, 0x04, 0x91, 0x21, 0x43, 0x00, 0x00, 0x42, 0x10, 0x10, 0x00,
    0x00, 0x00, 0x00, 0x08, 0x05, 0x00, 0x03, reference, 0x02, 0x01, 0x82])).2

/-- Part 1 of 2 of another message of the sender, with the 16-bit reference 7 and
the text `B`. -/
def widePart : SmsDeliver :=
  (smsDeliverDecode (pduOf [0x00, 0x40, 0x04, 0x91, 0x21, 0x43, 0x00, 0x00, 0x42, 0x10, 0x10, 0x00,
    0x00, 0x00, 0x00, 0x09, 0x06, 0x08, 0x04, 0x00, 0x07, 0x02, 0x01, 0x42])).2

/-- The world after a delivery that nothing disturbs. -/
def afterDelivery (deliver : SmsDeliver) (w : World) : World :=
  (Prog.run ServiceCall.handle (persistDeliver deliver) w).2

theorem reaches_afterDelivery (deliver : SmsDeliver) (w : World) :
    Reaches ServiceCall.Answers (persistDeliver deliver) w (afterDelivery deliver w) :=
  (runs_of_run ServiceCall.handle ServiceCall.handle_answers _ _).reaches

def afterNarrow : World := afterDelivery (narrowPart 7) ⟨.empty, 0, []⟩

theorem inboxRun_afterNarrow {may : SmsDeliver → World → Prop}
    (allowed : may (narrowPart 7) ⟨.empty, 0, []⟩) : InboxRun may [narrowPart 7] afterNarrow :=
  .deliver .start (narrowPart 7) allowed (reaches_afterDelivery _ _)

theorem singleWidth_of_slots {deliver : SmsDeliver} {w : World}
    (same : (allSlots.all fun slot => (w.store.view slot).all fun m =>
      m.concat.is16bit == deliver.concat.is16bit) = true) : SingleWidth deliver w := by
  rintro - part m ⟨slot, stored⟩ -
  have here := List.all_eq_true.mp same slot (Store.mem_allSlots slot)
  rw [stored] at here
  simpa using here

theorem multipart_keys_isolated_references :
    Untouched (narrowPart 8) afterNarrow (afterDelivery (narrowPart 8) afterNarrow) ∧
      ∀ m, (afterDelivery (narrowPart 8) afterNarrow).Holds m → m.status = .received →
        OneMessage [narrowPart 8, narrowPart 7] m := by
  have run : InboxRun SingleWidth [narrowPart 7] afterNarrow :=
    inboxRun_afterNarrow (singleWidth_of_slots (by decide +kernel))
  exact multipart_keys_isolated run (singleWidth_of_slots (by decide +kernel))
    (reaches_afterDelivery _ _) (by decide +kernel)

theorem width_alone_overwrites :
    ¬ ∀ (history : List SmsDeliver) (deliver : SmsDeliver) (w t : World),
      InboxRun (fun _ _ => True) history w →
      Reaches ServiceCall.Answers (persistDeliver deliver) w t → t.issued < idLimit →
      Untouched deliver w t ∧
        ∀ m, t.Holds m → m.status = .received → OneMessage (deliver :: history) m := by
  intro claim
  obtain ⟨kept, -⟩ := claim [narrowPart 7] widePart afterNarrow
    (afterDelivery widePart afterNarrow) (inboxRun_afterNarrow trivial) (reaches_afterDelivery _ _)
    (by decide +kernel)
  have before : ((afterNarrow.store.view ⟨0, by decide⟩).any fun m =>
      m.status == .partialRecord && m.partKey != widePart.key && m.text.str.bytes == [0x41]) =
        true := by
    decide +kernel
  have after : (allSlots.all fun slot =>
      ((afterDelivery widePart afterNarrow).store.view slot).all fun m =>
        m.text.str.bytes != [0x41]) = true := by
    decide +kernel
  obtain ⟨m, stored, fields⟩ := Option.any_eq_true _ _ |>.mp before
  simp only [Bool.and_eq_true, beq_iff_eq, bne_iff_ne] at fields
  obtain ⟨slot, held⟩ := kept m ⟨_, stored⟩ fields.1.1 fields.1.2
  have here := List.all_eq_true.mp after slot (Store.mem_allSlots slot)
  rw [held] at here
  simp [fields.2] at here

end SmsGateway
