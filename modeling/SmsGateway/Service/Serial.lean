import Mathlib.Logic.Relation
import SmsGateway.Service.AtMostOnce
import SmsGateway.Service.Lifecycle

/-! The operations of all tasks one after another, and what this keeps of outbound
records. -/

namespace SmsGateway

open Lib Prog

/-! Store calls on a journal that may hold an id twice. -/

theorem Store.Holds.named {s : Store} {m : SmsMessage} (held : s.Holds m) : m.id ≠ 0 := by
  obtain ⟨slot, stored⟩ := held
  simp only [Store.view] at stored
  split at stored
  · cases stored
  · split at stored
    · exact recordDecode_named stored
    · cases stored

/-- A search that succeeds returns a stored record that matches. -/
theorem StoreQuery.performs_ok {w t : World} {wanted : StoreQuery}
    {reply : Except EspErr SmsMessage} (sound : w.store.Sound)
    (performs : w.Performs wanted.run reply t) :
    t = w ∧ ∀ m, reply = .ok m → w.Holds m ∧ wanted.Matches m = true := by
  obtain ⟨same, searched⟩ := performs_search sound performs
  refine ⟨same, ?_⟩
  intro m equal
  obtain ⟨held, passes, -⟩ := searched.held m equal
  exact ⟨held, passes⟩

/-- What is stored after a save was stored before or is the saved record, under a
new id if it had none. -/
theorem Store.SaveEnd.source {s t : Store} {message m : SmsMessage}
    {result : Except EspErr Unit × SmsMessage} (ending : s.SaveEnd message result t)
    (held : t.Holds m) :
    s.Holds m ∨ (message.id = 0 ∧ ∃ id, m = message.withId id) ∨ (message.id ≠ 0 ∧ m = message) := by
  have wiped {slot : Slot} (held : (s.wipe slot).Holds m) : s.Holds m :=
    ((holds_update slot (view_wipe s slot) m).mp held).1
  cases ending with
  | invalid rejected => exact .inl held
  | new storable unnamed ending =>
      cases ending with
      | refused same policy counter returned => exact .inl ((holds_congr same m).mp held)
      | lost full oldest erased policy counter returned =>
          exact .inl (wiped ((holds_congr erased m).mp held))
      | written room stored policy counter returned =>
          have kept : (message.withId s.freshId).storable = true := storable
          rw [holds_congr stored, holds_put kept s.freshId_ne_zero] at held
          rcases held with rfl | held
          · exact .inr (.inl ⟨unnamed, _, rfl⟩)
          · exact .inl (wiped held)
  | existing storable named ending =>
      cases ending with
      | refused e => exact .inl held
      | written place returned =>
          rw [holds_put storable named] at held
          rcases held with rfl | held
          · exact .inr (.inr ⟨named, rfl⟩)
          · exact .inl (wiped held)

/-- Every call of the service is one on the set of stored records. -/
theorem ServiceCall.Answers.keeps {w t : World} {request : ServiceCall} {reply : request.Reply}
    (sound : w.store.Sound) (answers : request.Answers w reply t) :
    t.store.Sound ∧ request.Keeps w.records reply t.records := by
  cases request with
  | query wanted =>
      obtain ⟨rfl, found⟩ := StoreQuery.performs_ok sound answers
      refine ⟨sound, rfl, ?_⟩
      intro m equal
      obtain ⟨held, passes⟩ := found m equal
      exact ⟨held, held.named, passes⟩
  | findOutboundReference recipient reference =>
      obtain ⟨rfl, found⟩ := World.performs_findOutbound sound answers
      refine ⟨sound, rfl, ?_⟩
      intro m i equal
      obtain ⟨held, sent⟩ := found m i equal
      exact ⟨held, held.named, sent⟩
  | list afterId maxRecords =>
      by_cases positive : maxRecords = 0
      · obtain ⟨plan, rfl, rfl⟩ := answers
        subst positive
        refine ⟨sound, rfl, ?_⟩
        rintro listed equal
        cases equal
      · obtain ⟨rfl, each⟩ := World.performs_list sound positive answers
        exact ⟨sound, rfl, each⟩
  | save message =>
      obtain ⟨plan, rfl, rfl⟩ := answers
      have ending := smsStoreSave_end plan sound message
      refine ⟨ending.sound sound, ?_, ?_⟩
      · intro m held
        rcases ending.source held with old | ⟨-, renamed⟩ | ⟨-, rfl⟩
        · exact .inl old
        · exact .inr renamed
        · exact .inr ⟨m.id, rfl⟩
      intro named succeeded
      generalize (smsStoreSave message (plan, w.store)).1 = result at ending succeeded ⊢
      obtain ⟨result, back⟩ := result
      obtain rfl : result = .ok () := succeeded
      obtain ⟨held, ⟨unnamed, -⟩ | ⟨-, same⟩⟩ := ending.stored
      · exact absurd unnamed named
      · subst same
        exact ⟨rfl, held⟩
  | delete id =>
      obtain ⟨plan, rfl, rfl⟩ := answers
      have ending := smsStoreDelete_end plan sound id
      refine ⟨ending.sound sound, ?_⟩
      intro m held
      change (smsStoreDelete id (plan, w.store)).2.2.Holds m at held
      generalize (smsStoreDelete id (plan, w.store)).1 = result at ending
      generalize (smsStoreDelete id (plan, w.store)).2.2 = after at ending held
      cases ending with
      | refused e => exact held
      | erased found returned =>
          exact ((Store.holds_update _ (Store.view_wipe w.store _) m).mp held).1
  | emit event message =>
      obtain rfl : t = w.emit event message := answers
      exact ⟨sound, rfl⟩
  | execute request =>
      obtain rfl : t = w := answers
      exact ⟨sound, rfl⟩
  | isReady | pduModeConfigured | alloc | espRandom =>
      obtain rfl : t = w := answers
      exact ⟨sound, rfl⟩

/-! The system. -/

/-- An operation of the service task, or a call from another task. -/
inductive Operation where
  | task (activity : Activity)
  | client (clientCall : ClientCall)

def Operation.program : Operation → ServiceM Unit
  | .task activity => activity.program
  | .client clientCall => do
      let _ ← clientCall.program
      pure ()

theorem ClientCall.outgoing (call : ClientCall) :
    Safe ServiceCall.Keeps ServiceCall.Outgoing call.program := by
  cases call with
  | send recipient text report =>
      exact (outgoing_smsServiceSend recipient text report).bind fun _ => .pure _
  | retryUncertain id => exact outgoing_smsServiceRetryUncertain id
  | delete id => exact outgoing_smsServiceDelete id

theorem ClientCall.lawful (call : ClientCall) :
    Safe ServiceCall.Keeps ServiceCall.Lawful call.program :=
  lawful_of_outgoing call.outgoing

theorem Operation.lawful (operation : Operation) :
    Safe ServiceCall.Keeps ServiceCall.Lawful operation.program := by
  match operation with
  | .task .outbound => exact lawful_processOneOutbound
  | .task (.inbound pdu index) =>
      refine Safe.bind ?_ fun _ => .pure ()
      exact lawful_processAnyPdu pdu index
  | .client clientCall => exact clientCall.lawful.bind fun _ => .pure ()

/-- The journal and what is left of the operation in progress. -/
structure Serial where
  world : World
  running : ServiceM Unit

namespace Serial

/-- An operation starts when the one before it has returned; a restart may cut off
any of them. -/
inductive Step : Serial → Serial → Prop where
  | call {g : Serial} {request : ServiceCall} {next : request.Reply → ServiceM Unit}
      {reply : request.Reply} {t : World} (waiting : g.running = .call request next)
      (answers : request.Answers g.world reply t) : Step g ⟨t, next reply⟩
  | begin {g : Serial} (idle : g.running = .done ()) (operation : Operation) :
      Step g ⟨g.world, operation.program⟩
  | crash {g : Serial} : Step g ⟨g.world, restartProgram⟩
  | watermark {g : Serial} (protection : Bool) (value : UInt32) :
      Step g { g with world :=
        { g.world with store := smsStoreSetReplayWatermark protection value g.world.store } }

/-- Everything that can happen from an empty journal on. -/
inductive Reached : Serial → Prop where
  | start : Reached ⟨⟨.empty, 0, []⟩, restartProgram⟩
  | step {g g' : Serial} (before : Reached g) (step : Step g g') : Reached g'

/-- The outbound records are well kept, and the running operation saves lawfully. -/
structure Kept (g : Serial) : Prop where
  sound : g.world.store.Sound
  wellKept : ∀ m ∈ g.world.records, m.direction = .outbound → m.WellKept
  lawful : Obeys ServiceCall.Keeps ServiceCall.Lawful (fun _ _ => True) g.running g.world.records

end Serial

theorem SavedFrom.wellKept {records : Set SmsMessage} {message : SmsMessage}
    (saved : SavedFrom records message) (outbound : message.direction = .outbound)
    (kept : ∀ m ∈ records, m.direction = .outbound → m.WellKept) : message.WellKept := by
  cases saved with
  | arrived arrived => cases arrived.inbound.symm.trans outbound
  | queued recipient text report reference encoding some most =>
      exact queuedRecord_wellKept some most
  | part stored inbound deliver => cases inbound.symm.trans outbound
  | evolved stored evolves =>
      exact evolves.wellKept (kept _ stored (evolves.direction_eq.symm.trans outbound))

/-- A saved record is new or replaces a stored one; a delivered one it replaces
stays delivered. -/
theorem SavedFrom.replaces {records : Set SmsMessage} {message : SmsMessage}
    (saved : SavedFrom records message)
    (kept : ∀ m ∈ records, m.direction = .outbound → m.WellKept) :
    message.id = 0 ∨ ∃ m ∈ records, m.id = message.id ∧ m.direction = message.direction ∧
      (m.direction = .outbound → m.status = .delivered → message.status = .delivered) := by
  cases saved with
  | arrived arrived => exact .inl arrived.unnamed
  | queued recipient text report reference encoding some most => exact .inl rfl
  | part stored inbound deliver => exact .inr ⟨_, stored, rfl, rfl, fun _ delivered => delivered⟩
  | evolved stored evolves =>
      refine .inr ⟨_, stored, evolves.id_eq.symm, evolves.direction_eq.symm, ?_⟩
      exact fun outbound => evolves.delivered (kept _ stored outbound)

/-- A lawful call leaves well kept records. -/
theorem ServiceCall.Keeps.wellKept {records after : Set SmsMessage} {request : ServiceCall}
    {reply : request.Reply} (keeps : request.Keeps records reply after)
    (lawful : request.Lawful records)
    (kept : ∀ m ∈ records, m.direction = .outbound → m.WellKept) :
    ∀ m ∈ after, m.direction = .outbound → m.WellKept := by
  cases request with
  | save message =>
      intro m member outbound
      rcases keeps.1 m member with old | ⟨id, rfl⟩
      · exact kept m old outbound
      · exact (SavedFrom.wellKept lawful outbound kept).withId id
  | delete id => exact fun m member => kept m (keeps member)
  | query wanted | findOutboundReference recipient reference | list afterId maxRecords =>
      rw [keeps.1]
      exact kept
  | emit event message | execute request | isReady | pduModeConfigured | alloc | espRandom =>
      rw [show after = records from keeps]
      exact kept

namespace Serial

theorem Step.kept {g g' : Serial} (step : Step g g') (kept : g.Kept) : g'.Kept := by
  cases step with
  | call waiting answers =>
      have obeys := kept.lawful
      rw [waiting] at obeys
      obtain ⟨sound, keeps⟩ := answers.keeps kept.sound
      exact ⟨sound, keeps.wellKept obeys.1 kept.wellKept, obeys.2 _ _ keeps⟩
  | begin idle operation => exact ⟨kept.sound, kept.wellKept, operation.lawful _⟩
  | crash =>
      exact ⟨kept.sound, kept.wellKept, lawful_markInterruptedSendsUncertain _ _⟩
  | watermark protection value => exact ⟨kept.sound.congr rfl, kept.wellKept, kept.lawful⟩

theorem Reached.kept {g : Serial} (reached : g.Reached) : g.Kept := by
  induction reached with
  | start =>
      refine ⟨Store.sound_empty, ?_, lawful_markInterruptedSendsUncertain _ _⟩
      rintro m ⟨slot, stored⟩
      cases stored
  | step before step ih => exact step.kept ih

/-! With fewer than 2^32 - 1 ids given out, an id names one record. -/

theorem Step.issued_le {g g' : Serial} (step : Step g g') : g.world.issued ≤ g'.world.issued := by
  cases step with
  | call waiting answers => exact answers.issued_le
  | begin idle operation => exact Nat.le_refl _
  | crash => exact Nat.le_refl _
  | watermark protection value => exact Nat.le_refl _

theorem Step.numbered {g g' : Serial} (step : Step g g') (kept : g.Kept)
    (numbered : g.world.Numbered) (room : g'.world.issued < idLimit) : g'.world.Numbered := by
  cases step with
  | @call request next reply t waiting answers =>
      have obeys := kept.lawful
      rw [waiting] at obeys
      refine (called_of_answers numbered ?_ answers room).numbered
      rintro message rfl
      rcases SavedFrom.replaces obeys.1 kept.wellKept with unnamed | ⟨m, stored, same, -⟩
      · simp [unnamed]
      · rw [← same]
        exact numbered.holds_known stored
  | begin idle operation => exact numbered
  | crash => exact numbered
  | watermark protection value => exact Store.Numbered.congr numbered rfl rfl

theorem Reached.numbered {g : Serial} (reached : g.Reached) (room : g.world.issued < idLimit) :
    g.world.Numbered := by
  induction reached with
  | start => exact Store.numbered_empty
  | step before step ih =>
      exact step.numbered before.kept (ih (Nat.lt_of_le_of_lt step.issued_le room)) room

/-- Whatever the journal holds under this id is a delivered outbound record. -/
def Delivered (g : Serial) (id : UInt32) : Prop :=
  ∀ m, g.world.Holds m → m.id = id → m.direction = .outbound ∧ m.status = .delivered

theorem Step.delivered {g g' : Serial} {id : UInt32} (step : Step g g') (kept : g.Kept)
    (numbered : g.world.Numbered) (room : g'.world.issued < idLimit)
    (known : id.toNat ≤ g.world.issued) (delivered : g.Delivered id) : g'.Delivered id := by
  cases step with
  | @call request next reply t waiting answers =>
      have obeys := kept.lawful
      rw [waiting] at obeys
      intro m held same
      have source : g.world.Holds m ∨ ∃ message, request = .save message := by
        obtain ⟨-, keeps⟩ := answers.keeps kept.sound
        cases request with
        | save message => exact .inr ⟨message, rfl⟩
        | delete id => exact .inl (keeps held)
        | query wanted | findOutboundReference recipient reference | list afterId maxRecords =>
            exact .inl (keeps.1.subset held)
        | emit event message | execute request | isReady | pduModeConfigured | alloc
        | espRandom =>
            exact .inl ((show t.records = g.world.records from keeps).subset held)
      rcases source with old | ⟨message, rfl⟩
      · exact delivered m old same
      · have replaces := SavedFrom.replaces obeys.1 kept.wellKept
        have low : message.id.toNat ≤ g.world.issued := by
          rcases replaces with unnamed | ⟨old, stored, sameId, -⟩
          · simp [unnamed]
          · rw [← sameId]
            exact numbered.holds_known stored
        obtain ⟨-, effect, -⟩ := World.performs_save numbered low answers room
        rcases effect.source held with old | ⟨-, rfl⟩ | ⟨named, rfl⟩
        · exact delivered m old same
        · -- A fresh id is none of those given out.
          have fresh := Store.Numbered.freshId_toNat numbered
          rw [SmsMessage.withId_id] at same
          rw [same] at fresh
          omega
        · rcases replaces with unnamed | ⟨old, stored, sameId, direction, stays⟩
          · exact absurd unnamed named
          · obtain ⟨outbound, status⟩ := delivered old stored (sameId.trans same)
            exact ⟨direction.symm.trans outbound, stays outbound status⟩
  | begin idle operation => exact delivered
  | crash => exact delivered
  | watermark protection value => exact delivered

variable {g later : Serial}

theorem Reached.steps (reached : g.Reached) (steps : Relation.ReflTransGen Step g later) :
    later.Reached := by
  induction steps with
  | refl => exact reached
  | tail first last ih => exact ih.step last

theorem steps_issued_le (steps : Relation.ReflTransGen Step g later) :
    g.world.issued ≤ later.world.issued := by
  induction steps with
  | refl => exact Nat.le_refl _
  | tail first last ih => exact ih.trans last.issued_le

theorem delivered_after {id : UInt32} (reached : g.Reached)
    (steps : Relation.ReflTransGen Step g later) (room : later.world.issued < idLimit)
    (known : id.toNat ≤ g.world.issued) (delivered : g.Delivered id) : later.Delivered id := by
  induction steps with
  | refl => exact delivered
  | tail first last ih =>
      have before : _ < idLimit := Nat.lt_of_le_of_lt last.issued_le room
      have between := reached.steps first
      exact last.delivered between.kept (between.numbered before) room
        (known.trans (steps_issued_le first)) (ih before)

end Serial

/-- Every outbound record is well kept, and as long as ids are not given out twice a
delivered one stays delivered. -/
theorem outbound_records_kept {g : Serial} (reached : g.Reached) :
    (∀ m, g.world.Holds m → m.direction = .outbound → m.WellKept) ∧
      ∀ later, Relation.ReflTransGen Serial.Step g later → later.world.issued < idLimit →
        ∀ m m', g.world.Holds m → m.direction = .outbound → m.status = .delivered →
          later.world.Holds m' → m'.id = m.id →
            m'.direction = .outbound ∧ m'.status = .delivered := by
  refine ⟨reached.kept.wellKept, ?_⟩
  intro later steps room m m' held outbound delivered heldLater same
  have before : g.world.issued < idLimit := Nat.lt_of_le_of_lt (Serial.steps_issued_le steps) room
  have numbered := reached.numbered before
  have alone : g.Delivered m.id := by
    intro other heldOther sameId
    rw [numbered.id_inj heldOther held sameId]
    exact ⟨outbound, delivered⟩
  exact Serial.delivered_after reached steps room (numbered.holds_known held) alone m' heldLater same

/-! A run in which ids are given out twice. -/

/-- Surroundings that refuse nothing, with a modem that sends every segment under
the reference 7. -/
def ServiceCall.confirm : (request : ServiceCall) → World → request.Reply × World
  | .execute _, w => (.ok ⟨.ok, 0, [.text "+CMGS: 7"]⟩, w)
  | request, w => request.handle w

theorem ServiceCall.confirm_answers (request : ServiceCall) (w : World) :
    request.Answers w (request.confirm w).1 (request.confirm w).2 := by
  cases request <;> first
    | exact rfl
    | exact ⟨Plan.faultless, rfl, rfl⟩

/-- What such a run returns and stores depends on the journal only. -/
theorem run_confirm_store {α : Type} (p : ServiceM α) {w t : World} (same : w.store = t.store) :
    (Prog.run ServiceCall.confirm p w).1 = (Prog.run ServiceCall.confirm p t).1 ∧
      (Prog.run ServiceCall.confirm p w).2.store =
        (Prog.run ServiceCall.confirm p t).2.store := by
  induction p generalizing w t with
  | done value => exact ⟨rfl, same⟩
  | call request next ih =>
      have reply : (request.confirm w).1 = (request.confirm t).1 := by
        cases request <;> simp [ServiceCall.confirm, ServiceCall.handle, same]
      have store : (request.confirm w).2.store = (request.confirm t).2.store := by
        cases request <;> simp [ServiceCall.confirm, ServiceCall.handle, same, World.withStore,
          World.emit]
      simp only [Prog.run]
      rw [reply]
      exact ih _ store

namespace Serial

theorem runs (p : ServiceM Unit) (w : World) : Relation.ReflTransGen Step ⟨w, p⟩
    ⟨(Prog.run ServiceCall.confirm p w).2, .done ()⟩ := by
  induction p generalizing w with
  | done value => exact .refl
  | call request next ih => exact .head (.call rfl (request.confirm_answers w)) (ih _ _)

/-- The operation in a journal where nothing else is going on. -/
theorem performs (operation : Operation) (w : World) : Relation.ReflTransGen Step ⟨w, .done ()⟩
    ⟨(Prog.run ServiceCall.confirm operation.program w).2, .done ()⟩ :=
  .head (.begin rfl operation) (runs _ _)

end Serial

/-- A message to `+123` with the text `A`. -/
def sendShort : Operation := .client (.send (.text "+123") (.text "A") true)

/-- The message with the reference 7 reached `+123`. -/
def reportShort : Operation :=
  .task (.inbound (.text "000607039121F3421041214365004210412143650000") (-1))

def afterDelivered : World :=
  [sendShort, .task .outbound, reportShort].foldl
    (fun w operation => (Prog.run ServiceCall.confirm operation.program w).2)
    (Prog.run ServiceCall.confirm restartProgram ⟨.empty, 0, []⟩).2

theorem reached_afterDelivered : Serial.Reached ⟨afterDelivered, .done ()⟩ := by
  have booted := Serial.Reached.start.steps (Serial.runs restartProgram _)
  have queued := booted.steps (Serial.performs sendShort _)
  have sent := queued.steps (Serial.performs (.task .outbound) _)
  exact sent.steps (Serial.performs reportShort _)

/-- The first slot of the journal. -/
def firstSlot : Slot := 0

def afterSecond : World := (Prog.run ServiceCall.confirm sendShort.program afterDelivered).2

/-- A delivered record stays so while another message is queued. -/
theorem outbound_records_kept_delivered :
    ∃ g later m m', g.Reached ∧ Relation.ReflTransGen Serial.Step g later ∧
      later.world.issued < idLimit ∧ g.world.Holds m ∧ m.status = .delivered ∧ m.WellKept ∧
        later.world.Holds m' ∧ m'.id = m.id ∧ m'.status = .delivered := by
  -- One evaluation, since the second journal is computed from the first.
  obtain ⟨before, after, few⟩ :
      (afterDelivered.store.view firstSlot).any (fun m => m.direction == .outbound &&
        m.status == .delivered && m.id == 1) = true ∧
      (afterSecond.store.view firstSlot).any (fun m => m.id == 1) = true ∧
      afterSecond.issued < idLimit := by
    decide +kernel
  rw [Option.any_eq_true] at before after
  obtain ⟨m, stored, fits⟩ := before
  obtain ⟨m', storedAfter, same⟩ := after
  simp only [Bool.and_eq_true, beq_iff_eq] at fits same
  have held : afterDelivered.Holds m := ⟨firstSlot, stored⟩
  have heldAfter : afterSecond.Holds m' := ⟨firstSlot, storedAfter⟩
  have sameId : m'.id = m.id := same.trans fits.2.symm
  have steps : Relation.ReflTransGen Serial.Step ⟨afterDelivered, .done ()⟩
      ⟨afterSecond, .done ()⟩ := Serial.performs sendShort afterDelivered
  obtain ⟨kept, still⟩ := outbound_records_kept reached_afterDelivered
  have stays := still ⟨afterSecond, .done ()⟩ steps
  dsimp only at kept stays
  have delivered := (stays few m m' held fits.1.1 fits.1.2 heldAfter sameId).2
  refine ⟨_, _, m, m', reached_afterDelivered, steps, ?_⟩
  dsimp only
  exact ⟨few, held, fits.1.2, kept m held fits.1.1, heldAfter, sameId, delivered⟩

/-- A message from `+1234` with the text `A`. -/
def arriveShort : Operation := .task (.inbound (.text "00040491214300004210412143650001C1") (-1))

/-- The record of that message. -/
def arrivedShort : SmsMessage :=
  deliverRecord (smsDeliverDecode (.text "00040491214300004210412143650001C1")).2

theorem arrivedShort_storable : arrivedShort.storable = true := by
  decide +kernel

theorem arrivedShort_inbound (id : UInt32) : (arrivedShort.withId id).direction = .inbound := by
  simp only [SmsMessage.withId, arrivedShort, deliverRecord]

/-- The message is stored under the next id. -/
theorem run_arriveShort {w : World} {slot : Slot} (sound : w.store.Sound)
    (absent : w.store.recordWhere (isInboundIdentity arrivedShort.sender.str
      arrivedShort.serviceCenterTimestamp.str arrivedShort.encoding arrivedShort.text.str) = none)
    (free : w.store.freeSlot = some slot) :
    (Prog.run ServiceCall.confirm arriveShort.program w).2.store =
      w.store.countId.put slot (arrivedShort.withId w.store.freshId) := by
  have detected : smsPduTypeDetect (.text "00040491214300004210412143650001C1") = .deliver := by
    decide +kernel
  have decoded : (smsDeliverDecode (.text "00040491214300004210412143650001C1")).1 = .ok := by
    decide +kernel
  have single : (smsDeliverDecode (.text "00040491214300004210412143650001C1")).2.concat.present =
      false := by
    decide +kernel
  have storable := arrivedShort_storable
  have unnamed : arrivedShort.id = 0 := rfl
  have search := (findRecord_reads sound (isInboundIdentity arrivedShort.sender.str
      arrivedShort.serviceCenterTimestamp.str arrivedShort.encoding arrivedShort.text.str)).faultless
  rw [absent] at search
  have saved : smsStoreSave arrivedShort (Plan.faultless, w.store) =
      ((.ok (), arrivedShort.withId w.store.freshId),
        (Plan.faultless, w.store.countId.put slot (arrivedShort.withId w.store.freshId))) := by
    simp only [smsStoreSave, storable, unnamed, ↓reduceIte, saveNew_faultless sound, free]
  have persisted : Prog.run ServiceCall.confirm (persistSingle arrivedShort) w =
      (.ok (arrivedShort.withId w.store.freshId),
        (w.withStore (w.store.countId.put slot (arrivedShort.withId w.store.freshId))).emit
          .received (arrivedShort.withId w.store.freshId)) := by
    simp only [persistSingle, storeFind, ServiceCall.confirm, ServiceCall.handle, StoreQuery.run,
      smsStoreFindInboundIdentity, search, Store.orError, saveRecord, storeSave,
      run_bind, run_send, World.withStore_self, saved, emitEvent, pure_eq, run_done]
  simp only [arriveShort, Operation.program, Activity.program, processAnyPdu, detected,
    processDeliverPdu, processDecoded, decoded, persistDeliver, single, allocate, run_bind,
    run_send, ServiceCall.confirm, ServiceCall.handle, Bool.not_true, Bool.or_self,
    Bool.false_eq_true, ↓reduceIte, reduceCtorEq, false_and, ne_eq, not_true_eq_false]
  rw [show deliverRecord (smsDeliverDecode (.text "00040491214300004210412143650001C1")).2 =
    arrivedShort from rfl, persisted]
  rfl

/-- The record with this id, in a slot of its own, is removed. -/
theorem run_delete {w : World} {id : UInt32} {slot : Slot} {m : SmsMessage} (sound : w.store.Sound)
    (named : id ≠ 0) (place : w.store.slotOf id = some slot) (stored : w.store.view slot = some m)
    (inbound : m.direction = .inbound) :
    (Prog.run ServiceCall.confirm (Operation.client (.delete id)).program w).2.store =
      w.store.wipe slot := by
  have found := (smsStoreGet_reads sound id named).faultless
  simp only [place, Option.bind_some, stored, Store.orError] at found
  simp only [Operation.program, ClientCall.program, smsServiceDelete, allocate, storeFind, run_bind,
    run_send, ServiceCall.confirm, ServiceCall.handle, StoreQuery.run, found, inbound,
    storeDelete, World.withStore_self, Bool.not_true, Bool.false_eq_true, ↓reduceIte,
    reduceCtorEq, false_and, smsStoreDelete_faultless sound id named, place]
  rfl

/-- A message arrives and is deleted: only the id counter has moved. -/
theorem cycle_reached {s : Store} {slot : Slot} {value : UInt32} {w : World}
    (free : s.freeSlot = some slot) (empty : s.blob slot = none)
    (absent : s.recordWhere (isInboundIdentity arrivedShort.sender.str
      arrivedShort.serviceCenterTimestamp.str arrivedShort.encoding arrivedShort.text.str) = none)
    (positive : value ≠ 0) (new : ∀ slot m, s.view slot = some m → m.id ≠ value)
    (store : w.store = s.withNext value) (reached : Serial.Reached ⟨w, .done ()⟩) :
    ∃ t, t.store = s.withNext (nextOf value) ∧ Serial.Reached ⟨t, .done ()⟩ := by
  have arrived := reached.steps (Serial.performs arriveShort w)
  have stored := @run_arriveShort w slot reached.kept.sound (by rw [store]; exact absent)
    (by rw [store]; exact free)
  rw [store, Store.freshId_withNext s positive] at stored
  generalize (Prog.run ServiceCall.confirm arriveShort.program w).2 = between at stored arrived
  have storable : (arrivedShort.withId value).storable = true := by
    rw [SmsMessage.storable_withId]
    exact arrivedShort_storable
  have view : between.store.view =
      Function.update s.view slot (some (arrivedShort.withId value)) := by
    rw [stored, Store.view_put _ _ storable positive]
    rfl
  have here : between.store.view slot = some (arrivedShort.withId value) := by
    rw [view, Function.update_self]
  have place : between.store.slotOf value = some slot := by
    cases found : between.store.slotOf value with
    | none => exact absurd rfl (Store.slotOf_none found slot here)
    | some other =>
        obtain ⟨m, here, same⟩ := Store.slotOf_some found
        rw [view, Function.update_apply] at here
        split at here
        · rename_i equal
          rw [equal]
        · exact absurd same (new other m here)
  have removed := run_delete arrived.kept.sound positive place here (arrivedShort_inbound value)
  refine ⟨_, ?_, arrived.steps (Serial.performs (.client (.delete value)) between)⟩
  have fresh := Store.freshId_withNext s positive
  simp only [Store.withNext] at fresh
  rw [removed, stored]
  simp only [Store.withNext, Store.wipe, Store.put, Store.countId, Function.update_idem, ← empty,
    Function.update_eq_self, fresh]

/-- Such cycles use up all ids from the next one on. -/
theorem wrap_reached {s : Store} {slot : Slot} {start : Nat} {w : World}
    (free : s.freeSlot = some slot) (empty : s.blob slot = none)
    (absent : s.recordWhere (isInboundIdentity arrivedShort.sender.str
      arrivedShort.serviceCenterTimestamp.str arrivedShort.encoding arrivedShort.text.str) = none)
    (positive : 0 < start) (small : start < 2 ^ 32)
    (old : ∀ slot m, s.view slot = some m → m.id.toNat < start)
    (store : w.store = s.withNext (UInt32.ofNat start)) (reached : Serial.Reached ⟨w, .done ()⟩) :
    ∃ t, t.store = s.withNext 1 ∧ Serial.Reached ⟨t, .done ()⟩ := by
  have one (count : Nat) (below : start + count < 2 ^ 32) {w : World}
      (store : w.store = s.withNext (UInt32.ofNat (start + count)))
      (reached : Serial.Reached ⟨w, .done ()⟩) :
      ∃ t, t.store = s.withNext (nextOf (UInt32.ofNat (start + count))) ∧
        Serial.Reached ⟨t, .done ()⟩ := by
    have size : (UInt32.ofNat (start + count)).toNat = start + count := by
      rw [UInt32.toNat_ofNat']
      omega
    refine cycle_reached free empty absent ?_ ?_ store reached
    · intro zero
      rw [zero] at size
      simp only [UInt32.reduceToNat] at size
      omega
    · intro slot m stored same
      have bound := old slot m stored
      rw [same, size] at bound
      omega
  have advance (count : Nat) (below : start + count < 2 ^ 32) :
      ∃ w, w.store = s.withNext (UInt32.ofNat (start + count)) ∧
        Serial.Reached ⟨w, .done ()⟩ := by
    induction count with
    | zero => exact ⟨w, store, reached⟩
    | succ count ih =>
        obtain ⟨w, store, reached⟩ := ih (by omega)
        have next := one count (by omega) store reached
        rw [Store.nextOf_ofNat (show start + count + 1 < 2 ^ 32 by omega)] at next
        exact next
  obtain ⟨w, store, reached⟩ := advance (2 ^ 32 - 1 - start) (by omega)
  have last := one (2 ^ 32 - 1 - start) (by omega) store reached
  rw [show start + (2 ^ 32 - 1 - start) = 2 ^ 32 - 1 by omega] at last
  exact last

/-- A journal in which a cycle can start: slot 1 is free, the next id is this one
and larger than all stored ones, and the message of the cycle is not stored. -/
def Store.cyclable (s : Store) (start : Nat) : Bool :=
  s.freeSlot == some ⟨1, by decide⟩ && (s.blob ⟨1, by decide⟩).isNone &&
    (s.recordWhere (isInboundIdentity arrivedShort.sender.str
      arrivedShort.serviceCenterTimestamp.str arrivedShort.encoding
      arrivedShort.text.str)).isNone &&
    s.nextId == some (UInt32.ofNat start) &&
    allSlots.all fun slot => (s.view slot).all fun m => m.id.toNat < start

theorem wrap_cyclable {w : World} {start : Nat} (cyclable : w.store.cyclable start = true)
    (positive : 0 < start) (small : start < 2 ^ 32) (reached : Serial.Reached ⟨w, .done ()⟩) :
    ∃ t, t.store = w.store.withNext 1 ∧ Serial.Reached ⟨t, .done ()⟩ := by
  simp only [Store.cyclable, Bool.and_eq_true, beq_iff_eq, Option.isNone_iff_eq_none,
    List.all_eq_true] at cyclable
  obtain ⟨⟨⟨⟨free, empty⟩, absent⟩, counter⟩, old⟩ := cyclable
  refine wrap_reached free empty absent positive small ?_ ?_ reached
  · intro slot m stored
    have bound := old slot (Store.mem_allSlots slot)
    simp only [stored, Option.all_some, decide_eq_true_eq] at bound
    exact bound
  · simp only [Store.withNext, ← counter]

/-- The delivered record is there, and all other ids have been given out. -/
theorem reached_wrapped :
    ∃ w, w.store = afterDelivered.store.withNext 1 ∧ Serial.Reached ⟨w, .done ()⟩ := by
  have cyclable : afterDelivered.store.cyclable 2 = true := by decide +kernel
  exact wrap_cyclable cyclable (by decide) (by decide) reached_afterDelivered

/-- Under an id given out twice, a delivered record is overwritten by another
message that is being sent. -/
theorem delivered_record_overwritten :
    ¬ ∀ g later : Serial, g.Reached → Relation.ReflTransGen Serial.Step g later →
      ∀ slot m m', g.world.store.view slot = some m → m.direction = .outbound →
        m.status = .delivered → later.world.store.view slot = some m' → m'.id = m.id →
          m'.status = .delivered := by
  intro claim
  obtain ⟨w, store, reached⟩ := reached_wrapped
  have again := reached.steps (Serial.performs sendShort w)
  have queued := (run_confirm_store sendShort.program
    (show w.store = (World.mk (afterDelivered.store.withNext 1) 0 []).store from store)).2
  generalize (Prog.run ServiceCall.confirm sendShort.program w).2 = t at again queued
  have sent := (run_confirm_store (Operation.task .outbound).program (w := t)
    (t := (Prog.run ServiceCall.confirm sendShort.program ⟨afterDelivered.store.withNext 1, 0, []⟩).2)
    queued).2
  have before : (t.store.view firstSlot).any (fun m => m.direction == .outbound &&
      m.status == .delivered && m.id == 1) = true := by
    rw [queued]
    decide +kernel
  have after : ((Prog.run ServiceCall.confirm (Operation.task .outbound).program t).2.store.view
      firstSlot).any (fun m => m.status == .sent && m.id == 1) = true := by
    rw [sent]
    decide +kernel
  rw [Option.any_eq_true] at before after
  obtain ⟨m, stored, fits⟩ := before
  obtain ⟨m', storedAfter, fitsAfter⟩ := after
  simp only [Bool.and_eq_true, beq_iff_eq] at fits fitsAfter
  have still := claim ⟨t, .done ()⟩ _ again (Serial.performs (.task .outbound) t) firstSlot m m'
    stored fits.1.1 fits.1.2 storedAfter (fitsAfter.2.trans fits.2.symm)
  cases fitsAfter.1.symm.trans still

end SmsGateway
