import Mathlib.Logic.Relation
import SmsGateway.Service.Gateway
import SmsGateway.Service.Deliveries

/-! A segment goes to the modem at most once for every time its message was queued. -/

namespace SmsGateway

open Lib Prog

theorem holds_segmentCount {s : Store} {m : SmsMessage} (held : s.Holds m) :
    m.segmentCount.toNat ≤ smsMaxSegments := by
  obtain ⟨slot, stored⟩ := held
  simp only [Store.view] at stored
  split at stored
  · cases stored
  · split at stored
    · simp only [recordDecode] at stored
      split at stored
      · cases stored
      · rename_i fits
        simp only [not_or, Nat.not_lt] at fits
        cases stored
        exact fits.2.2.2.2.2.2.2.1
    · cases stored

/-- The ids in a task's knowledge have been given out. -/
def Knowledge.Known (k : Knowledge) (issued : Nat) : Prop := ∀ id ∈ k.seen, id.toNat ≤ issued

/-- The record in custody is one that was read. -/
def Knowledge.Sound (k : Knowledge) : Prop := ∀ id sent, k.holding.Covers id sent → id ∈ k.seen

theorem Knowledge.sound_empty : Knowledge.empty.Sound := by
  rintro id sent (equal | equal) <;> cases equal

theorem Holding.Covers.saved {holding : Holding} {message : SmsMessage} {succeeded : Bool}
    {id : UInt32} {sent : BitVec 16} (covers : (holding.saved message succeeded).Covers id sent) :
    holding.Covers id sent := by
  cases holding with
  | none =>
      cases status : message.status <;> simp [Holding.saved, status, Covers] at covers
  | shared id' sent' =>
      cases status : message.status <;> simp only [Holding.saved, status] at covers <;> first
        | exact covers
        | (rcases covers with equal | equal <;> cases equal)
        | (split at covers
           · rcases covers with equal | equal <;> cases equal
             exact .inl rfl
           · exact covers)
  | own id' sent' =>
      cases status : message.status <;> simp only [Holding.saved, status] at covers <;> first
        | exact covers
        | (rcases covers with equal | equal <;> cases equal)

/-- A save that neither queues nor marks the record in custody. -/
theorem Holding.saved_eq {holding : Holding} {message : SmsMessage} {succeeded : Bool}
    (other : message.status ≠ .queued)
    (unmarked : message.status = .sending → succeeded = true →
      holding ≠ .shared message.id message.segmentSentMask) :
    holding.saved message succeeded = holding := by
  cases holding with
  | none => cases status : message.status <;> simp [Holding.saved, status]
  | own id sent =>
      cases status : message.status <;> simp only [Holding.saved, status]
      exact absurd status other
  | shared id sent =>
      cases status : message.status <;> simp only [Holding.saved, status]
      · exact absurd status other
      · rw [if_neg]
        rintro ⟨fine, rfl, rfl⟩
        exact unmarked status fine rfl

theorem Knowledge.Sound.learn {k : Knowledge} (sound : k.Sound) (request : ServiceCall)
    (reply : request.Reply) : (k.learn request reply).Sound := by
  have saw (m : SmsMessage) : (k.saw m).Sound := by
    intro id sent covers
    simp only [Knowledge.saw] at covers ⊢
    split at covers
    · rcases covers with equal | equal
      · cases equal
        exact List.mem_cons_self
      · cases equal
    · exact List.mem_cons_of_mem _ (sound id sent covers)
  cases request with
  | query wanted =>
      cases reply with
      | error e => exact sound
      | ok m => exact saw m
  | findOutboundReference recipient reference =>
      cases reply with
      | error e => exact sound
      | ok found => exact saw found.1
  | list afterId maxRecords =>
      cases reply with
      | error e => exact sound
      | ok records =>
          intro id sent covers
          exact List.mem_append_right _ (sound id sent covers)
  | save message =>
      intro id sent covers
      exact sound id sent covers.saved
  | execute request =>
      simp only [Knowledge.learn]
      split
      · intro id sent covers
        simp only [Holding.submitted] at covers
        split at covers
        · rename_i held
          rcases covers with equal | equal
          · cases equal
          · cases equal
            exact sound _ _ (.inr held)
        · exact sound id sent covers
      · exact sound
  | _ => exact sound

section

variable {w t : World} {request : ServiceCall} {reply : request.Reply}

/-- What a call leaves: numbered records, and a reply that tells the truth. -/
structure Called (w : World) (request : ServiceCall) (reply : request.Reply) (t : World) : Prop where
  numbered : t.Numbered
  issued : w.issued ≤ t.issued
  truthful : request.Truthful reply
  learns : ∀ k : Knowledge, k.Known w.issued → (k.learn request reply).Known t.issued

theorem Knowledge.Known.mono {k : Knowledge} {n n' : Nat} (known : k.Known n) (more : n ≤ n') :
    k.Known n' := fun id member => (known id member).trans more

theorem called_of_answers (numbered : w.Numbered)
    (known : ∀ message, request = .save message → message.id.toNat ≤ w.issued)
    (answers : request.Answers w reply t) (room : t.issued < idLimit) :
    Called w request reply t := by
  have saw (k : Knowledge) (before : k.Known w.issued) (m : SmsMessage) (held : w.Holds m) :
      (k.saw m).Known w.issued := by
    intro id member
    rcases List.mem_cons.mp member with rfl | member
    · exact numbered.holds_known held
    · exact before id member
  cases request with
  | query wanted =>
      obtain ⟨rfl, found⟩ := StoreQuery.performs_find numbered answers
      refine ⟨numbered, Nat.le_refl _, ?_, ?_⟩
      · rintro m rfl
        exact ⟨numbered.holds_named found.1, holds_segmentCount found.1, found.2.1⟩
      · intro k before
        cases reply with
        | error e => exact before
        | ok m => exact saw k before m found.1
  | findOutboundReference recipient reference =>
      obtain ⟨rfl, found⟩ := World.performs_findOutbound numbered.sound answers
      refine ⟨numbered, Nat.le_refl _, ?_, ?_⟩
      · rintro m i rfl
        exact numbered.holds_named (found m i rfl).1
      · intro k before
        cases reply with
        | error e => exact before
        | ok place => exact saw k before place.1 (found place.1 place.2 rfl).1
  | list afterId maxRecords =>
      by_cases positive : maxRecords = 0
      · obtain ⟨plan, rfl, rfl⟩ := answers
        subst positive
        refine ⟨?_, Nat.le_add_right _ _, trivial, ?_⟩
        · rw [show (smsStoreList afterId 0 (plan, w.store)).2.2 = w.store from rfl,
            World.withStore_self]
          exact numbered
        · intro k before
          exact before.mono (Nat.le_add_right _ _)
      · obtain ⟨rfl, each⟩ := World.performs_list numbered.sound positive answers
        refine ⟨numbered, Nat.le_refl _, trivial, ?_⟩
        intro k before
        cases reply with
        | error e => exact before
        | ok records =>
            intro id member
            rcases List.mem_append.mp member with listed | member
            · obtain ⟨m, inside, rfl⟩ := List.mem_map.mp listed
              exact numbered.holds_known (each records rfl m inside)
            · exact before id member
  | save message =>
      obtain ⟨wrote, effect, -⟩ := World.performs_save numbered (known message rfl) answers room
      refine ⟨wrote.numbered, wrote.issued, ?_, fun k before => before.mono wrote.issued⟩
      intro named succeeded
      obtain ⟨result, back⟩ := reply
      cases effect with
      | kept same returned => cases succeeded
      | lost unnamed full prunable rest returned => cases succeeded
      | added unnamed storable prunable rest returned => exact absurd unnamed named
      | replaced named storable rest first returned => rfl
  | delete id =>
      obtain ⟨wrote, effect⟩ := World.performs_delete numbered answers
      exact ⟨wrote.numbered, wrote.issued, trivial, fun k before => before.mono wrote.issued⟩
  | emit event message =>
      obtain rfl : t = w.emit event message := answers
      exact ⟨numbered, Nat.le_refl _, trivial, fun k before => before⟩
  | execute request =>
      obtain rfl : t = w := answers
      refine ⟨numbered, Nat.le_refl _, trivial, ?_⟩
      intro k before
      simp only [Knowledge.learn]
      split <;> exact before
  | isReady | pduModeConfigured | alloc | espRandom =>
      obtain rfl : t = w := answers
      exact ⟨numbered, Nat.le_refl _, trivial, fun k before => before⟩

end

/-! The submissions that may still come. -/

/-- Segment `i` of the record can be submitted by whoever takes it up: it is
queued, or the service has read it as queued. -/
def Opens (w : World) (holding : Holding) (id : UInt32) (i : Nat) : Prop :=
  (∃ m, w.Holds m ∧ m.id = id ∧ m.status = .queued ∧ segmentBit m.segmentSentMask i = false) ∨
    ∃ sent, holding = .shared id sent ∧ segmentBit sent i = false

/-- The service is about to submit segment `i` of the record it marked. -/
def Owns (holding : Holding) (id : UInt32) (i : Nat) : Prop :=
  ∃ sent, holding = .own id sent ∧ segmentBit sent i = false

open Classical in
/-- How many submissions of the segment may come without a new retry. -/
noncomputable def pending (w : World) (holding : Holding) (id : UInt32) (i : Nat) : Nat :=
  (if Opens w holding id i then 1 else 0) + (if Owns holding id i then 1 else 0)

section

variable {w t : World} {holding holding' : Holding} {id : UInt32} {i : Nat}

theorem pending_mono (opens : Opens t holding' id i → Opens w holding id i)
    (owns : Owns holding' id i → Owns holding id i) :
    pending t holding' id i ≤ pending w holding id i := by
  simp only [pending]
  split_ifs <;> first | omega | tauto

/-- Custody that only changes hands. -/
theorem pending_moves (opens : Opens t holding' id i → Opens w holding id i ∨ Owns holding id i)
    (owns : Owns holding' id i → Opens w holding id i ∨ Owns holding id i)
    (one : Opens t holding' id i → ¬ Owns holding' id i) :
    pending t holding' id i ≤ pending w holding id i := by
  simp only [pending]
  split_ifs <;> first | omega | tauto

theorem pending_le_succ (owns : Owns holding' id i → Owns holding id i) :
    pending t holding' id i ≤ pending w holding id i + 1 := by
  simp only [pending]
  split_ifs <;> first | omega | tauto

/-- Fewer queued records, and the same custody. -/
theorem Opens.of_source (opens : Opens t holding id i)
    (source : ∀ m, t.Holds m → m.id = id → m.status = .queued → w.Holds m) :
    Opens w holding id i := by
  rcases opens with ⟨m, held, same, queued, clear⟩ | shared
  · exact .inl ⟨m, source m held same queued, same, queued, clear⟩
  · exact .inr shared

theorem Opens.of_saw {k : Knowledge} {m : SmsMessage} (held : w.Holds m)
    (opens : Opens w (k.saw m).holding id i) : Opens w k.holding id i := by
  simp only [Knowledge.saw] at opens
  split at opens
  · rename_i queued
    rcases opens with stored | ⟨sent, equal, clear⟩
    · exact .inl stored
    · cases equal
      exact .inl ⟨m, held, rfl, queued, clear⟩
  · exact opens

theorem Owns.of_saw {k : Knowledge} {m : SmsMessage} (owns : Owns (k.saw m).holding id i) :
    Owns k.holding id i := by
  simp only [Knowledge.saw] at owns
  split at owns
  · obtain ⟨sent, equal, -⟩ := owns
    cases equal
  · exact owns

/-- A save by the service moves custody and adds nothing. -/
theorem save_pending {k : Knowledge} {message : SmsMessage}
    {reply : Except EspErr Unit × SmsMessage} (numbered : t.Numbered)
    (effect : Store.SaveEffect w.store t.store message reply)
    (allows : k.Allows (.save message)) :
    pending t (k.holding.saved message reply.1.isOk) id i ≤ pending w k.holding id i := by
  -- A queued record of `t` was there before, or is the one saved from custody.
  have source (m : SmsMessage) (held : t.Holds m) (queued : m.status = .queued) :
      w.Holds m ∨ message = m := by
    rcases effect.source held with before | ⟨unnamed, rfl⟩ | ⟨-, rfl⟩
    · exact .inl before
    · exact absurd unnamed (allows.2 queued).1
    · exact .inr rfl
  by_cases queued : message.status = .queued
  · have none : k.holding.saved message reply.1.isOk = .none := by
      simp [Holding.saved, queued]
    rw [none]
    apply pending_moves
    · rintro (⟨m, held, same, status, clear⟩ | ⟨sent, equal, -⟩)
      · rcases source m held status with before | rfl
        · exact .inl (.inl ⟨m, before, same, status, clear⟩)
        · rcases (allows.2 queued).2 with shared | own
          · exact .inl (.inr ⟨_, same ▸ shared, clear⟩)
          · exact .inr ⟨_, same ▸ own, clear⟩
      · cases equal
    · rintro ⟨sent, equal, -⟩
      cases equal
    · rintro - ⟨sent, equal, -⟩
      cases equal
  · have others (m : SmsMessage) (held : t.Holds m) (status : m.status = .queued) : w.Holds m := by
      rcases source m held status with before | rfl
      · exact before
      · exact absurd status queued
    have kept (same : k.holding.saved message reply.1.isOk = k.holding) :
        pending t (k.holding.saved message reply.1.isOk) id i ≤ pending w k.holding id i := by
      rw [same]
      apply pending_mono
      · intro opens
        exact opens.of_source fun m held _ status => others m held status
      · exact fun owns => owns
    by_cases marks : message.status = .sending ∧ reply.1.isOk = true ∧
        k.holding = .shared message.id message.segmentSentMask
    · -- The record is now marked as being sent: nobody else may take it up.
      obtain ⟨sending, succeeded, shared⟩ := marks
      have own : k.holding.saved message reply.1.isOk =
          .own message.id message.segmentSentMask := by
        simp [Holding.saved, sending, shared, succeeded]
      rw [own]
      have alone (m : SmsMessage) (held : t.Holds m) (same : m.id = message.id) : m = message := by
        obtain ⟨result, back⟩ := reply
        cases result with
        | error e => cases succeeded
        | ok _ =>
            obtain ⟨stored, ⟨unnamed, rfl⟩ | ⟨-, rfl⟩⟩ := effect.stored
            · exact absurd (same.trans unnamed) (numbered.holds_named held)
            · exact numbered.id_inj held stored same
      apply pending_moves
      · rintro (⟨m, held, same, status, clear⟩ | ⟨sent, equal, -⟩)
        · exact .inl (.inl ⟨m, others m held status, same, status, clear⟩)
        · cases equal
      · rintro ⟨sent, equal, clear⟩
        cases equal
        exact .inl (.inr ⟨_, shared, clear⟩)
      · rintro (⟨m, held, same, status, clear⟩ | ⟨sent, equal, -⟩) ⟨sent', equal', -⟩
        · cases equal'
          rw [alone m held same, sending] at status
          cases status
        · cases equal
    · apply kept
      refine Holding.saved_eq queued ?_
      rintro sending succeeded
      exact fun shared => marks ⟨sending, succeeded, shared⟩

/-- A submission uses up what the service was about to submit. -/
theorem submit_pending {sent : BitVec 16} {index : Nat} (inside : index < smsMaxSegments)
    (clear : segmentBit sent index = false) (j : Nat) (id' : UInt32) :
    [(id, index)].count (id', j) + pending w (.own id (sent ||| segmentMask index)) id' j ≤
      pending w (.own id sent) id' j := by
  have bit (j : Nat) : segmentBit (sent ||| segmentMask index) j =
      (segmentBit sent j || decide (j = index)) := by
    simp only [smsMaxSegments] at inside
    by_cases same : j = index
    · subst same
      simp [segmentBit, segmentMask, inside]
    · have differs : index ≠ j := fun equal => same equal.symm
      simp [segmentBit, segmentMask, BitVec.getLsbD_twoPow, same, differs]
  have owns : Owns (.own id (sent ||| segmentMask index)) id' j → Owns (.own id sent) id' j := by
    rintro ⟨_, equal, free⟩
    cases equal
    rw [bit, Bool.or_eq_false_iff] at free
    exact ⟨sent, rfl, free.1⟩
  have opens : Opens w (.own id (sent ||| segmentMask index)) id' j → Opens w (.own id sent) id' j := by
    rintro (stored | ⟨_, equal, -⟩)
    · exact .inl stored
    · cases equal
  by_cases target : (id, index) = (id', j)
  · cases target
    have spent : ¬ Owns (.own id (sent ||| segmentMask index)) id index := by
      rintro ⟨_, equal, free⟩
      cases equal
      simp [bit] at free
    have due : Owns (.own id sent) id index := ⟨sent, rfl, clear⟩
    simp only [List.count_singleton_self, pending, spent, due, ↓reduceIte]
    split_ifs <;> first | omega | tauto
  · rw [List.count_eq_zero_of_not_mem (by simpa using fun same => target (Eq.symm same)), Nat.zero_add]
    exact pending_mono opens owns

/-- A call of the service: what it submits was pending. -/
theorem service_pending {k : Knowledge} {request : ServiceCall} {reply : request.Reply}
    (numbered : w.Numbered) (known : ∀ message, request = .save message → message.id.toNat ≤ w.issued)
    (allows : k.Allows request) (answers : request.Answers w reply t) (room : t.issued < idLimit) :
    request.payloads.count (id, i) + pending t (k.learn request reply).holding id i ≤
      pending w k.holding id i := by
  have nothing : ([] : List (UInt32 × Nat)).count (id, i) = 0 := rfl
  cases request with
  | query wanted =>
      obtain ⟨rfl, found⟩ := StoreQuery.performs_find numbered answers
      simp only [ServiceCall.payloads, nothing, Nat.zero_add]
      cases reply with
      | error e => exact Nat.le_refl _
      | ok m => exact pending_mono (fun opens => opens.of_saw found.1) fun owns => owns.of_saw
  | findOutboundReference recipient reference =>
      obtain ⟨rfl, found⟩ := World.performs_findOutbound numbered.sound answers
      simp only [ServiceCall.payloads, nothing, Nat.zero_add]
      cases reply with
      | error e => exact Nat.le_refl _
      | ok place =>
          have held := (found place.1 place.2 rfl).1
          exact pending_mono (fun opens => opens.of_saw held) fun owns => owns.of_saw
  | list afterId maxRecords =>
      have same : t.store = w.store := by
        by_cases positive : maxRecords = 0
        · obtain ⟨plan, -, rfl⟩ := answers
          subst positive
          rfl
        · rw [(World.performs_list numbered.sound positive answers).1]
      simp only [ServiceCall.payloads, nothing, Nat.zero_add]
      have holding : (k.learn (.list afterId maxRecords) reply).holding = k.holding := by
        cases reply <;> rfl
      rw [holding]
      refine pending_mono (fun opens => opens.of_source ?_) fun owns => owns
      intro m held _ _
      rwa [World.Holds, same] at held
  | save message =>
      obtain ⟨wrote, effect, -⟩ := World.performs_save numbered (known message rfl) answers room
      simp only [ServiceCall.payloads, nothing, Nat.zero_add]
      exact save_pending wrote.numbered effect allows
  | delete id =>
      obtain ⟨-, effect⟩ := World.performs_delete numbered answers
      simp only [ServiceCall.payloads, nothing, Nat.zero_add]
      refine pending_mono (fun opens => opens.of_source ?_) fun owns => owns
      intro m held _ _
      exact effect.source held
  | execute request =>
      obtain rfl : t = w := answers
      cases origin : request.origin with
      | none => simp [ServiceCall.payloads, Knowledge.learn, origin]
      | some place =>
          obtain ⟨id', index⟩ := place
          obtain ⟨inside, sent, own, clear⟩ := allows id' index origin
          simp only [ServiceCall.payloads, Knowledge.learn, origin, own, Holding.submitted,
            Option.toList_some]
          exact submit_pending inside clear i id
  | emit event message =>
      obtain rfl : t = w.emit event message := answers
      simp only [ServiceCall.payloads, nothing, Nat.zero_add]
      exact pending_mono (fun opens => opens.of_source fun m held _ _ => held) fun owns => owns
  | isReady | pduModeConfigured | alloc | espRandom =>
      obtain rfl : t = w := answers
      simp only [ServiceCall.payloads, nothing, Nat.zero_add]
      exact Nat.le_refl _

end

namespace Gateway

/-- Every segment was submitted, and may still be submitted, at most once more than
retries of its message changed the journal. -/
def Within (g : Gateway) (holding : Holding) : Prop :=
  ∀ id i, g.submitted.count (id, i) + pending g.world holding id i ≤ 1 + g.rewritten.count id

structure Invariant (g : Gateway) : Prop where
  numbered : g.world.Numbered
  submitted : ∀ entry ∈ g.submitted, entry.1.toNat ≤ g.world.issued
  service : ∃ k : Knowledge, k.Sound ∧ k.Known g.world.issued ∧
    Obeys Knowledge.Step Knowledge.Allows (fun _ _ => True) g.service k ∧ g.Within k.holding
  clients : ∀ client ∈ g.clients, ∃ k : Knowledge, k.Known g.world.issued ∧
    Obeys Knowledge.Step client.1.Allows (fun _ _ => True) client.2 k

variable {g g' : Gateway}

/-- Nothing is pending of an id that was not given out. -/
theorem pending_fresh {w : World} {k : Knowledge} {id : UInt32} {i : Nat} (numbered : w.Numbered)
    (sound : k.Sound) (known : k.Known w.issued) (later : w.issued < id.toNat) :
    pending w k.holding id i = 0 := by
  have custody (sent : BitVec 16) (covers : k.holding.Covers id sent) : False := by
    have bound := known id (sound id sent covers)
    omega
  have opens : ¬ Opens w k.holding id i := by
    rintro (⟨m, held, rfl, -⟩ | ⟨sent, equal, -⟩)
    · have bound := numbered.holds_known held
      omega
    · exact custody sent (.inl equal)
  have owns : ¬ Owns k.holding id i := by
    rintro ⟨sent, equal, -⟩
    exact custody sent (.inr equal)
  simp [pending, opens, owns]

theorem Invariant.serviceCall {request : ServiceCall} {next : request.Reply → ServiceM Unit}
    {reply : request.Reply} {t : World} (invariant : g.Invariant)
    (waiting : g.service = .call request next) (answers : request.Answers g.world reply t)
    (room : t.issued < idLimit) :
    Invariant { g with
      world := t, service := next reply, submitted := request.payloads ++ g.submitted } := by
  obtain ⟨k, sound, seen, obeys, within⟩ := invariant.service
  rw [waiting] at obeys
  obtain ⟨allows, continues⟩ := obeys
  have known (message : SmsMessage) (equal : request = .save message) :
      message.id.toNat ≤ g.world.issued := by
    subst equal
    rcases allows.1 with unnamed | member
    · rw [unnamed]
      exact Nat.zero_le _
    · exact seen _ member
  have called := called_of_answers invariant.numbered known answers room
  refine ⟨called.numbered, ?_, ⟨k.learn request reply, sound.learn request reply,
    called.learns k seen, continues _ _ ⟨called.truthful, rfl⟩, ?_⟩, ?_⟩
  · intro entry member
    rcases List.mem_append.mp member with here | before
    · cases request with
      | execute request =>
          obtain ⟨id, index⟩ := entry
          have origin : request.origin = some (id, index) := Option.mem_toList.mp here
          obtain ⟨-, sent, own, -⟩ := allows id index origin
          exact (seen id (sound id sent (.inr own))).trans called.issued
      | _ => cases here
    · exact (invariant.submitted entry before).trans called.issued
  · intro id i
    have spent : request.payloads.count (id, i) + pending t (k.learn request reply).holding id i ≤
        pending g.world k.holding id i :=
      service_pending invariant.numbered known allows answers room
    have before := within id i
    rw [List.count_append]
    simp only
    omega
  · intro client member
    obtain ⟨k', seen', obeys'⟩ := invariant.clients client member
    exact ⟨k', seen'.mono called.issued, obeys'⟩

/-- What another task opens to the service without a retry is a new message. -/
theorem client_opens {call : ClientCall} {k k' : Knowledge} {request : ServiceCall}
    {reply : request.Reply} {w t : World} {id : UInt32} {i : Nat} (numbered : w.Numbered)
    (known : ∀ message, request = .save message → message.id.toNat ≤ w.issued)
    (allows : call.Allows k' request) (answers : request.Answers w reply t)
    (room : t.issued < idLimit) (quiet : ¬ call.Rewrites w t request)
    (opens : Opens t k.holding id i) : Opens w k.holding id i ∨ w.issued < id.toNat := by
  have same (equal : t.store = w.store) : Opens w k.holding id i ∨ w.issued < id.toNat := by
    refine .inl (opens.of_source fun m held _ _ => ?_)
    rwa [World.Holds, equal] at held
  cases request with
  | save message =>
      obtain ⟨-, effect, -⟩ := World.performs_save numbered (known message rfl) answers room
      cases call with
      | send recipient text report =>
          have unnamed : message.id = 0 := allows
          rcases opens with ⟨m, held, rfl, status, clear⟩ | shared
          · rcases effect.source held with before | ⟨-, rfl⟩ | ⟨named, -⟩
            · exact .inl (.inl ⟨m, before, rfl, status, clear⟩)
            · refine .inr ?_
              have fresh := numbered.freshId_toNat
              simp only [SmsMessage.withId_id]
              omega
            · exact absurd unnamed named
          · exact .inl (.inr shared)
      | retryUncertain id => exact same (not_not.mp quiet)
      | delete id => exact False.elim allows
  | delete id =>
      obtain ⟨-, effect⟩ := World.performs_delete numbered answers
      exact .inl (opens.of_source fun m held _ _ => effect.source held)
  | execute request => cases call <;> exact False.elim allows
  | query wanted =>
      refine same ?_
      rw [(StoreQuery.performs_find numbered answers).1]
  | findOutboundReference recipient reference =>
      refine same ?_
      rw [(World.performs_findOutbound numbered.sound answers).1]
  | list afterId maxRecords =>
      by_cases positive : maxRecords = 0
      · obtain ⟨plan, -, rfl⟩ := answers
        subst positive
        exact same rfl
      · refine same ?_
        rw [(World.performs_list numbered.sound positive answers).1]
  | emit event message =>
      obtain rfl : t = w.emit event message := answers
      exact same rfl
  | isReady | pduModeConfigured | alloc | espRandom =>
      obtain rfl : t = w := answers
      exact same rfl

/-- A call of another task, with what it adds. -/
theorem Invariant.clientCall {before after : List (ClientCall × ServiceM (Except EspErr Unit))}
    {call : ClientCall} {request : ServiceCall}
    {next : request.Reply → ServiceM (Except EspErr Unit)} {reply : request.Reply} {t : World}
    {rewritten : List UInt32} (invariant : g.Invariant)
    (waiting : g.clients = before ++ (call, .call request next) :: after)
    (answers : request.Answers g.world reply t) (room : t.issued < idLimit)
    (within : ∀ k k' : Knowledge, call.Allows k' request →
      (∀ message, request = .save message → message.id.toNat ≤ g.world.issued) → k.Sound →
      k.Known g.world.issued → g.Within k.holding →
      ∀ id i, g.submitted.count (id, i) + pending t k.holding id i ≤ 1 + rewritten.count id) :
    Invariant { g with
      world := t, clients := before ++ (call, next reply) :: after, rewritten := rewritten } := by
  obtain ⟨k, seen, obeys⟩ := invariant.clients (call, .call request next) (by rw [waiting]; simp)
  obtain ⟨allows, continues⟩ := obeys
  have known (message : SmsMessage) (equal : request = .save message) :
      message.id.toNat ≤ g.world.issued := by
    subst equal
    cases call with
    | send recipient text report =>
        rw [show message.id = 0 from allows]
        exact Nat.zero_le _
    | retryUncertain id =>
        rw [allows.1]
        exact seen _ allows.2.2
    | delete id => exact False.elim allows
  have called := called_of_answers invariant.numbered known answers room
  refine ⟨called.numbered, ?_, ?_, ?_⟩
  · intro entry member
    exact (invariant.submitted entry member).trans called.issued
  · obtain ⟨k', sound, seen', obeys', within'⟩ := invariant.service
    exact ⟨k', sound, seen'.mono called.issued, obeys',
      within k' k allows known sound seen' within'⟩
  · refine forall_moved (fun client member => ?_) waiting
      ⟨k.learn request reply, called.learns k seen, continues _ _ ⟨called.truthful, rfl⟩⟩
    obtain ⟨k', seen', obeys'⟩ := invariant.clients client member
    exact ⟨k', seen'.mono called.issued, obeys'⟩

theorem Invariant.clientQuiet {before after : List (ClientCall × ServiceM (Except EspErr Unit))}
    {call : ClientCall} {request : ServiceCall}
    {next : request.Reply → ServiceM (Except EspErr Unit)} {reply : request.Reply} {t : World}
    (invariant : g.Invariant)
    (waiting : g.clients = before ++ (call, .call request next) :: after)
    (answers : request.Answers g.world reply t) (room : t.issued < idLimit)
    (quiet : ¬ call.Rewrites g.world t request) :
    Invariant { g with world := t, clients := before ++ (call, next reply) :: after } := by
  refine invariant.clientCall waiting answers room ?_
  intro k k' allows known sound seen within id i
  have opens (opens : Opens t k.holding id i) :=
    client_opens invariant.numbered known allows answers room quiet opens
  by_cases later : g.world.issued < id.toNat
  · -- A new id: nothing of it was submitted or is in custody.
    have none : g.submitted.count (id, i) = 0 := by
      refine List.count_eq_zero_of_not_mem fun member => ?_
      have bound := invariant.submitted _ member
      simp only at bound
      omega
    have nothing := pending_fresh (i := i) invariant.numbered sound seen later
    have one : pending t k.holding id i ≤ pending g.world k.holding id i + 1 :=
      pending_le_succ fun owns => owns
    omega
  · have fewer : pending t k.holding id i ≤ pending g.world k.holding id i :=
      pending_mono (fun here => (opens here).resolve_right later) fun owns => owns
    have bound := within id i
    omega

theorem Invariant.retryWrites {before after : List (ClientCall × ServiceM (Except EspErr Unit))}
    {target : UInt32} {request : ServiceCall}
    {next : request.Reply → ServiceM (Except EspErr Unit)} {reply : request.Reply} {t : World}
    (invariant : g.Invariant)
    (waiting : g.clients = before ++ (.retryUncertain target, .call request next) :: after)
    (answers : request.Answers g.world reply t) (room : t.issued < idLimit)
    (changes : ClientCall.Rewrites g.world t (.retryUncertain target) request) :
    Invariant { g with
      world := t
      clients := before ++ (.retryUncertain target, next reply) :: after
      rewritten := target :: g.rewritten } := by
  refine invariant.clientCall waiting answers room ?_
  intro k k' allows known sound seen within id i
  have bound := within id i
  cases request with
  | save message =>
      obtain ⟨-, effect, -⟩ := World.performs_save invariant.numbered (known message rfl) answers
        room
      obtain ⟨same, named, -⟩ := allows
      by_cases mine : id = target
      · subst mine
        have one : pending t k.holding id i ≤ pending g.world k.holding id i + 1 :=
          pending_le_succ fun owns => owns
        rw [List.count_cons_self]
        omega
      · have fewer : pending t k.holding id i ≤ pending g.world k.holding id i := by
          refine pending_mono (fun opens => opens.of_source ?_) fun owns => owns
          intro m held its _
          rcases effect.source held with before | ⟨unnamed, -⟩ | ⟨-, rfl⟩
          · exact before
          · exact absurd (same.symm.trans unnamed) named
          · exact absurd (its.symm.trans same) mine
        rw [List.count_cons_of_ne (Ne.symm mine)]
        omega
  | _ => exact False.elim changes

theorem Step.issued_le (step : Step g g') : g.world.issued ≤ g'.world.issued := by
  cases step with
  | serviceCall waiting answers => exact answers.issued_le
  | clientCall waiting answers quiet => exact answers.issued_le
  | retryWrites waiting answers changes => exact answers.issued_le
  | serviceNext | clientStart | clientReturn | crash | watermark => exact Nat.le_refl _

/-- Custody that is dropped leaves less pending. -/
theorem Within.dropped {holding : Holding} (within : g.Within holding) : g.Within .none := by
  intro id i
  have fewer : pending g.world .none id i ≤ pending g.world holding id i := by
    apply pending_mono
    · rintro (stored | ⟨sent, equal, -⟩)
      · exact .inl stored
      · cases equal
    · rintro ⟨sent, equal, -⟩
      cases equal
  have bound := within id i
  omega

theorem known_empty (n : Nat) : Knowledge.empty.Known n := by
  intro id member
  cases member

theorem Invariant.step (invariant : g.Invariant) (step : Step g g')
    (room : g'.world.issued < idLimit) : g'.Invariant := by
  obtain ⟨k, sound, seen, obeys, within⟩ := invariant.service
  cases step with
  | serviceCall waiting answers => exact invariant.serviceCall waiting answers room
  | serviceNext idle activity =>
      exact ⟨invariant.numbered, invariant.submitted, ⟨.empty, Knowledge.sound_empty, known_empty _,
        activity.careful _, within.dropped⟩, invariant.clients⟩
  | clientStart call =>
      refine ⟨invariant.numbered, invariant.submitted, invariant.service, ?_⟩
      intro client member
      rcases List.mem_cons.mp member with rfl | member
      · exact ⟨.empty, known_empty _, call.program_obeys _⟩
      · exact invariant.clients client member
  | clientCall waiting answers quiet => exact invariant.clientQuiet waiting answers room quiet
  | retryWrites waiting answers changes =>
      exact invariant.retryWrites waiting answers room changes
  | clientReturn finished =>
      exact ⟨invariant.numbered, invariant.submitted, invariant.service,
        forall_remaining invariant.clients finished⟩
  | crash =>
      refine ⟨invariant.numbered, invariant.submitted, ⟨.empty, Knowledge.sound_empty,
        known_empty _, careful_markInterruptedSendsUncertain _ _, within.dropped⟩, ?_⟩
      intro client member
      cases member
  | watermark protection value =>
      exact ⟨invariant.numbered.congr rfl rfl, invariant.submitted,
        ⟨k, sound, seen, obeys, within⟩, invariant.clients⟩

theorem Reached.invariant (reached : g.Reached) (room : g.world.issued < idLimit) :
    g.Invariant := by
  induction reached with
  | start reached =>
      refine ⟨reached.numbered room, ?_, ⟨.empty, Knowledge.sound_empty, known_empty _,
        careful_markInterruptedSendsUncertain _ _, ?_⟩, ?_⟩
      · intro entry member
        cases member
      · intro id i
        have none : ¬ Owns Knowledge.empty.holding id i := by
          rintro ⟨sent, equal, -⟩
          cases equal
        simp only [pending, none, ↓reduceIte, List.count_nil]
        split_ifs <;> omega
      · intro client member
        cases member
  | step before step ih => exact (ih (by have grows := step.issued_le; omega)).step step room

end Gateway

/-- At-most-once submission: in every run, whatever calls fail and wherever the
service is cut off, the payload of a segment goes to the modem at most once more
than retries of its message changed the journal. -/
theorem submitted_at_most_once {g : Gateway} (reached : g.Reached)
    (few : g.world.issued < idLimit) (id : UInt32) (i : Nat) :
    g.submitted.count (id, i) ≤ 1 + g.rewritten.count id := by
  obtain ⟨k, -, -, -, within⟩ := (reached.invariant few).service
  have bound := within id i
  omega

/-! A run in which a retry is cut off after its save: it returns nothing, and the
payload goes to the modem a second time. -/

/-- The payloads of a run against surroundings that refuse nothing, after those
handed out before. -/
def payloadsOf {α : Type} : ServiceM α → World → List (UInt32 × Nat) → List (UInt32 × Nat)
  | .done _, _, before => before
  | .call request next, w, before =>
      payloadsOf (next (request.handle w).1) (request.handle w).2 (request.payloads ++ before)

namespace Gateway

variable {g g' : Gateway}

theorem Reached.steps (reached : g.Reached) (steps : Relation.ReflTransGen Step g g') :
    g'.Reached := by
  induction steps with
  | refl => exact reached
  | tail first last ih => exact ih.step last

theorem serviceRun (p : ServiceM Unit) (w : World)
    (clients : List (ClientCall × ServiceM (Except EspErr Unit))) (submitted : List (UInt32 × Nat))
    (rewritten retried : List UInt32) :
    Relation.ReflTransGen Step ⟨w, p, clients, submitted, rewritten, retried⟩
      ⟨(Prog.run ServiceCall.handle p w).2, .done (), clients, payloadsOf p w submitted,
        rewritten, retried⟩ := by
  induction p generalizing w submitted with
  | done value => exact .refl
  | call request next ih =>
      exact (ih _ _ _).head (.serviceCall rfl (request.handle_answers w))

theorem clientRun (call : ClientCall) (p : ServiceM (Except EspErr Unit)) (w : World)
    (service : ServiceM Unit) (submitted : List (UInt32 × Nat)) (rewritten retried : List UInt32) :
    ∃ more, Relation.ReflTransGen Step ⟨w, service, [(call, p)], submitted, rewritten, retried⟩
      ⟨(Prog.run ServiceCall.handle p w).2, service,
        [(call, .done (Prog.run ServiceCall.handle p w).1)], submitted, more, retried⟩ := by
  induction p generalizing w rewritten with
  | done value => exact ⟨rewritten, .refl⟩
  | call request next ih =>
      by_cases changes : call.Rewrites w (request.handle w).2 request
      · cases call with
        | retryUncertain id =>
            obtain ⟨more, rest⟩ := ih (request.handle w).1 (request.handle w).2 (id :: rewritten)
            exact ⟨more, rest.head (@Step.retryWrites _ [] [] id request next _ _ rfl
              (request.handle_answers w) changes)⟩
        | send recipient text report => exact False.elim changes
        | delete id => exact False.elim changes
      · obtain ⟨more, rest⟩ := ih (request.handle w).1 (request.handle w).2 rewritten
        exact ⟨more, rest.head (@Step.clientCall _ [] [] call request next _ _ rfl
          (request.handle_answers w) changes)⟩

/-- A call of another task, up to its return. -/
theorem callRun (call : ClientCall) (w : World) (submitted : List (UInt32 × Nat))
    (rewritten retried : List UInt32) :
    ∃ more, Relation.ReflTransGen Step ⟨w, .done (), [], submitted, rewritten, retried⟩
      ⟨(Prog.run ServiceCall.handle call.program w).2, .done (),
        [(call, .done (Prog.run ServiceCall.handle call.program w).1)], submitted, more,
        retried⟩ := by
  obtain ⟨more, run⟩ := clientRun call call.program w (.done ()) submitted rewritten retried
  exact ⟨more, run.head (.clientStart call)⟩

/-- An activity of the service while no other task calls it. -/
theorem Reached.activity (activity : Activity) {w t : World} {before after : List (UInt32 × Nat)}
    {rewritten retried : List UInt32}
    (reached : Reached ⟨w, .done (), [], before, rewritten, retried⟩)
    (world : (Prog.run ServiceCall.handle activity.program w).2 = t)
    (payloads : payloadsOf activity.program w before = after) :
    Reached ⟨t, .done (), [], after, rewritten, retried⟩ := by
  rw [← world, ← payloads]
  exact (reached.step (.serviceNext rfl activity)).steps (serviceRun _ _ _ _ _ _)

/-- A message is queued. -/
theorem Reached.sends {recipient text : CStr} {report : Bool} {w t : World}
    {submitted : List (UInt32 × Nat)} {rewritten retried : List UInt32}
    (reached : Reached ⟨w, .done (), [], submitted, rewritten, retried⟩)
    (world : (Prog.run ServiceCall.handle
      (ClientCall.send recipient text report).program w).2 = t) :
    ∃ more, Reached ⟨t, .done (), [], submitted, more, retried⟩ := by
  obtain ⟨more, queues⟩ := callRun (.send recipient text report) w submitted rewritten retried
  rw [← world]
  have returned := (reached.steps queues).step
    (@Step.clientReturn _ [] [] (.send recipient text report) _ rfl)
  exact ⟨more, returned⟩

/-- A retry that a restart cuts off before it returns. -/
theorem Reached.retryCutOff {id : UInt32} {w t u : World} {before after : List (UInt32 × Nat)}
    {rewritten retried : List UInt32}
    (reached : Reached ⟨w, .done (), [], before, rewritten, retried⟩)
    (world : (Prog.run ServiceCall.handle (ClientCall.retryUncertain id).program w).2 = t)
    (restarted : (Prog.run ServiceCall.handle restartProgram t).2 = u)
    (payloads : payloadsOf restartProgram t before = after) :
    ∃ more, Reached ⟨u, .done (), [], after, more, retried⟩ := by
  obtain ⟨more, requeues⟩ := callRun (.retryUncertain id) w before rewritten retried
  rw [← restarted, ← payloads, ← world]
  exact ⟨more, ((reached.steps requeues).step .crash).steps (serviceRun _ _ _ _ _ _)⟩

end Gateway

def afterBoot : World := (Prog.run ServiceCall.handle restartProgram ⟨.empty, 0, []⟩).2

/-- A message to `+123` with the text `A`. -/
def shortSend : ClientCall :=
  .send ⟨[0x2B, 0x31, 0x32, 0x33], by decide⟩ ⟨[0x41], by decide⟩ false

def afterShortSend : World := (Prog.run ServiceCall.handle shortSend.program afterBoot).2

/-- The modem's answer carries no reference: the message is uncertain. -/
def afterUncertain : World :=
  (Prog.run ServiceCall.handle Activity.outbound.program afterShortSend).2

def afterRetry : World :=
  (Prog.run ServiceCall.handle (ClientCall.retryUncertain 1).program afterUncertain).2

def afterCutOff : World := (Prog.run ServiceCall.handle restartProgram afterRetry).2

theorem retry_cut_off : ∃ g : Gateway, g.Reached ∧ g.world.issued < idLimit ∧
    g.submitted.count (1, 0) = 2 ∧ g.retried = [] := by
  have noPayload : payloadsOf restartProgram ⟨.empty, 0, []⟩ [] = [] := by decide +kernel
  have firstPayload : payloadsOf Activity.outbound.program afterShortSend [] = [(1, 0)] := by
    decide +kernel
  have samePayload : payloadsOf restartProgram afterRetry [(1, 0)] = [(1, 0)] := by
    decide +kernel
  have secondPayload : payloadsOf Activity.outbound.program afterCutOff [(1, 0)] =
      [(1, 0), (1, 0)] := by
    decide +kernel
  have few : (Prog.run ServiceCall.handle Activity.outbound.program afterCutOff).2.issued <
      idLimit := by
    decide +kernel
  have booted : Gateway.Reached ⟨afterBoot, .done (), [], [], [], []⟩ := by
    have started := (Gateway.Reached.start Store.Reached.empty).steps
      (Gateway.serviceRun restartProgram _ [] [] [] [])
    rw [noPayload] at started
    exact started
  obtain ⟨some_, queued⟩ := booted.sends (t := afterShortSend) rfl
  have first := queued.activity .outbound (t := afterUncertain) rfl firstPayload
  obtain ⟨more, restarted⟩ := first.retryCutOff (t := afterRetry) (u := afterCutOff) rfl rfl
    samePayload
  have second := restarted.activity .outbound rfl secondPayload
  refine ⟨_, second, ?_, rfl, rfl⟩
  dsimp only
  exact few

theorem submitted_at_most_once_cut_off :
    ∃ g : Gateway, g.Reached ∧ g.submitted.count (1, 0) = 2 ∧
      g.submitted.count (1, 0) ≤ 1 + g.rewritten.count 1 := by
  obtain ⟨g, reached, few, twice, -⟩ := retry_cut_off
  exact ⟨g, reached, twice, submitted_at_most_once reached few 1 0⟩

theorem resubmitted_without_successful_retry :
    ¬ ∀ g : Gateway, g.Reached → g.world.issued < idLimit → ∀ id i,
      g.submitted.count (id, i) ≤ 1 + g.retried.count id := by
  intro claim
  obtain ⟨g, reached, few, twice, none⟩ := retry_cut_off
  have bound := claim g reached few 1 0
  rw [twice, none] at bound
  simp at bound

end SmsGateway
