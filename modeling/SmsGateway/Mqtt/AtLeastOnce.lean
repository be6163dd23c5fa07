import SmsGateway.Lib.Interference
import SmsGateway.Mqtt.Replay

/-! The replay cursor passes a received message only after a client has reported the
publish that carried it. -/

namespace SmsGateway.Mqtt

open Lib Prog

/-- The message that the replay has to publish next. -/
structure State.Due (s : State) (id : UInt32) : Prop where
  ahead : s.replayCursor < id
  durable : s.persisted ≤ id
  given : id.toNat ≤ s.highest
  first : ∀ m, s.journal.Holds m → Received m → s.replayCursor < m.id → id ≤ m.id

/-- The active client has published the message under this packet id. -/
def State.Sent (s : State) (id : UInt32) (packetId : Int) : Prop :=
  ∃ client, s.client = some client ∧ ⟨client, packetId, some id⟩ ∈ s.packets

/-- What the cursor has passed is acknowledged. -/
structure State.Durable (s : State) : Prop where
  sound : s.journal.Sound
  bounded : ∀ m, s.journal.Holds m → m.id.toNat ≤ s.highest
  distinct : ∀ m r, s.journal.Holds m → s.journal.Holds r → m.id = r.id → m = r
  cursor : s.replayCursor ≤ s.persisted
  given : s.persisted.toNat ≤ s.highest
  passed : ∀ m, s.journal.Holds m → Received m → m.id ≤ s.persisted → m.id ∈ s.acknowledged
  ahead : ∀ m, s.journal.Holds m → Received m → s.replayCursor < m.id → s.persisted ≤ m.id

/-- The attempt in flight, if there is one, has been reported. -/
def State.Settled (s : State) : Prop :=
  s.replayMessageId ≠ 0 → s.replayMessageId ∈ s.acknowledged

/-- A report that the handler has before it was made by the active client, and the
message that it is about is acknowledged. -/
structure State.Told (s : State) (packet : Packet) : Prop where
  client : s.client = none ∨ s.client = some packet.client
  acknowledged : ∀ id, packet.carried = some id → id ∈ s.acknowledged

structure State.Kept (s : State) : Prop where
  durable : s.Durable
  attempt : s.replayMessageId ≠ 0 → s.Due s.replayMessageId ∧
    (s.replayMessageId ∈ s.acknowledged ∨ s.Sent s.replayMessageId s.replayPacketId)
  checked : ∀ packet, s.handler = .checked (.published packet) → s.Told packet
  answering : ∀ id, s.handler = .answering id → id ∈ s.acknowledged
  queued : ∀ id, .replayAck id ∈ s.queue → id ∈ s.acknowledged
  replacing : s.runtime = some .replacing ∨ s.runtime = some .installing → s.Settled

/-- While an attempt waits for its report, the client does not report another publish of
its own that has the packet id of the attempt. -/
def State.Distinct (s : State) : Handler → Prop
  | .checked (.published packet) =>
      s.replayMessageId ∉ s.acknowledged → packet.packetId = s.replayPacketId →
        ⟨packet.client, packet.packetId, some s.replayMessageId⟩ ∈ s.packets →
          packet.carried = some s.replayMessageId
  | _ => True

instance (s : State) : (handler : Handler) → Decidable (s.Distinct handler)
  | .checked (.published _) => inferInstanceAs (Decidable (_ → _ → _ → _ = _))
  | .checked .connected | .checked .disconnected | .idle | .connecting | .clearing
  | .answering _ => inferInstanceAs (Decidable True)

/-- The client is not replaced while an attempt waits for its report, and its reports are
not mistaken for those of the attempt. -/
def Calm (s : State) : Event → Prop
  | .retire => s.Settled
  | .handle => s.Distinct s.handler
  | _ => True

instance (s : State) : Decidable s.Settled :=
  inferInstanceAs (Decidable (s.replayMessageId ≠ 0 → _ ∈ s.acknowledged))

instance (s : State) : (event : Event) → Decidable (Calm s event)
  | .retire => inferInstanceAs (Decidable s.Settled)
  | .handle => inferInstanceAs (Decidable (s.Distinct s.handler))
  | .notify _ | .cleared | .queued _ | .enqueue _ | .reconfigure | .farewell _ | .configure _
  | .install | .abandon | .release => inferInstanceAs (Decidable True)

/-- What goes on next to the worker. -/
def Others (s t : State) : Prop := (∃ event, Calm s event ∧ event.apply s = some t) ∨ s.Grows t

/-- What the worker's calls need. -/
def Allowed (s : State) : MqttCall → Prop
  | .setAttempt messageId packetId =>
      s.Due messageId ∧ s.Sent messageId packetId ∧ s.runtime = some .worker
  | .setU32 messageId =>
      s.Due messageId ∧ messageId ∈ s.acknowledged ∧ s.replayMessageId = 0
  | .setCursor messageId =>
      s.persisted = messageId ∧ s.replayCursor < messageId ∧ s.replayMessageId = 0
  | _ => True

/-! What the others leave as it is. -/

section

variable {s t : State}

theorem State.Due.grows {id : UInt32} (due : s.Due id) (grows : s.Grows t) : t.Due id := by
  obtain ⟨ahead, durable, given, first⟩ := due
  have rest := grows.rest
  have cursor : t.replayCursor = s.replayCursor := by rw [rest]
  have persisted : t.persisted = s.persisted := by rw [rest]
  refine ⟨cursor ▸ ahead, persisted ▸ durable, given.trans grows.higher, ?_⟩
  intro m held received larger
  rw [cursor] at larger
  rcases grows.received m held received with new | ⟨old, heldOld, receivedOld, same⟩
  · exact UInt32.le_iff_toNat_le.mpr (given.trans new.le)
  · rw [← same] at larger ⊢
    exact first old heldOld receivedOld larger

theorem State.Durable.grows (durable : s.Durable) (grows : s.Grows t) : t.Durable := by
  have rest := grows.rest
  have cursor : t.replayCursor = s.replayCursor := by rw [rest]
  have persisted : t.persisted = s.persisted := by rw [rest]
  have acknowledged : t.acknowledged = s.acknowledged := by rw [rest]
  refine ⟨grows.sound, grows.bounded, grows.distinct, by rw [cursor, persisted]; exact durable.cursor,
    by rw [persisted]; exact durable.given.trans grows.higher, ?_, ?_⟩
  · intro m held received passed
    rw [persisted] at passed
    rcases grows.received m held received with new | ⟨old, heldOld, receivedOld, same⟩
    · have bound := UInt32.le_iff_toNat_le.mp passed
      have small := durable.given
      omega
    · rw [← same, acknowledged]
      exact durable.passed old heldOld receivedOld (same ▸ passed)
  · intro m held received larger
    rw [cursor] at larger
    rw [persisted]
    rcases grows.received m held received with new | ⟨old, heldOld, receivedOld, same⟩
    · exact UInt32.le_iff_toNat_le.mpr (durable.given.trans new.le)
    · rw [← same] at larger ⊢
      exact durable.ahead old heldOld receivedOld larger

theorem State.Kept.grows (kept : s.Kept) (grows : s.Grows t) : t.Kept := by
  have durable := kept.durable.grows grows
  have due (id : UInt32) (due : s.Due id) := due.grows grows
  have rest := grows.rest
  generalize t.journal = journal at rest
  generalize t.highest = highest at rest
  subst rest
  refine ⟨durable, ?_, fun packet before => ?_, kept.answering, kept.queued, kept.replacing⟩
  · intro inflight
    exact (kept.attempt inflight).imp_left (due _)
  · exact ⟨(kept.checked packet before).client, (kept.checked packet before).acknowledged⟩

theorem State.Durable.same (durable : s.Durable) (same : s.Same t) : t.Durable := by
  obtain ⟨journal, highest, persisted, cursor, acknowledged⟩ := same
  have held := Store.holds_congr journal
  constructor
  · exact durable.sound.congr journal
  · intro m here
    rw [highest]
    exact durable.bounded m ((held m).mp here)
  · intro m r here there
    exact durable.distinct m r ((held m).mp here) ((held r).mp there)
  · rw [cursor, persisted]
    exact durable.cursor
  · rw [persisted, highest]
    exact durable.given
  · intro m here received passed
    rw [persisted] at passed
    exact acknowledged (durable.passed m ((held m).mp here) received passed)
  · intro m here received larger
    rw [cursor] at larger
    rw [persisted]
    exact durable.ahead m ((held m).mp here) received larger

theorem State.Due.same {id : UInt32} (due : s.Due id) (same : s.Same t) : t.Due id := by
  obtain ⟨journal, highest, persisted, cursor, -⟩ := same
  constructor
  · rw [cursor]
    exact due.ahead
  · rw [persisted]
    exact due.durable
  · rw [highest]
    exact due.given
  · intro m here received larger
    rw [cursor] at larger
    exact due.first m ((Store.holds_congr journal m).mp here) received larger

/-- A packet more. -/
theorem State.Kept.withPacket (kept : s.Kept) (packet : Packet) : (s.withPacket packet).Kept := by
  have same : s.Same (s.withPacket packet) := ⟨rfl, rfl, rfl, rfl, List.Subset.refl _⟩
  refine ⟨kept.durable.same same, ?_, fun reported before => ?_, kept.answering, kept.queued,
    kept.replacing⟩
  · intro inflight
    obtain ⟨due, sent⟩ := kept.attempt inflight
    refine ⟨due.same same, sent.imp_right ?_⟩
    rintro ⟨active, here, member⟩
    exact ⟨active, here, List.mem_cons_of_mem _ member⟩
  · exact ⟨(kept.checked reported before).client, (kept.checked reported before).acknowledged⟩

/-- No attempt is in flight. -/
theorem State.Kept.cleared (kept : s.Kept) : s.clearAttempt.Kept :=
  ⟨kept.durable.same ⟨rfl, rfl, rfl, rfl, List.Subset.refl _⟩,
    fun inflight => absurd rfl inflight,
    fun packet before => ⟨(kept.checked packet before).client, (kept.checked packet before).acknowledged⟩,
    kept.answering, kept.queued, fun _ inflight => absurd rfl inflight⟩

/-- Another handler, queue, mutex and connection, and an unchanged attempt. -/
theorem State.Kept.moved (kept : s.Kept) {connected : Bool} {handler : Handler} {queue : List Work}
    {held : Option Work} {runtime : Option Holder}
    (checked : ∀ packet, handler = .checked (.published packet) → s.Told packet)
    (answering : ∀ id, handler = .answering id → id ∈ s.acknowledged)
    (queued : ∀ id, .replayAck id ∈ queue → id ∈ s.acknowledged)
    (replacing : runtime = some .replacing ∨ runtime = some .installing → s.Settled) :
    State.Kept { s with
      connected := connected, handler := handler, queue := queue, held := held
      runtime := runtime } := by
  have same : s.Same { s with
      connected := connected, handler := handler, queue := queue, held := held
      runtime := runtime } :=
    ⟨rfl, rfl, rfl, rfl, List.Subset.refl _⟩
  refine ⟨kept.durable.same same, ?_, fun packet before => ?_, answering, queued, replacing⟩
  · intro inflight
    exact (kept.attempt inflight).imp_left fun due => due.same same
  · exact ⟨(checked packet before).client, (checked packet before).acknowledged⟩

/-- The client's task is through with its event: nothing is left to compare or to answer. -/
theorem State.Kept.idle (kept : s.Kept) {queue : List Work}
    (queued : ∀ id, .replayAck id ∈ queue → id ∈ s.acknowledged) :
    State.Kept { s with handler := .idle, queue := queue } := by
  refine kept.moved ?_ ?_ queued kept.replacing
  · intro packet checked
    cases checked
  · intro id answering
    cases answering

/-- Another client and configuration, while no attempt waits for its report. -/
theorem State.Kept.replaced (kept : s.Kept) (settled : s.Settled)
    {journal : Store} {client : Option Nat} {clients : Nat} {connected : Bool}
    {runtime : Option Holder} {enabled configured : Bool} (same : journal.blob = s.journal.blob)
    (stops : client = none ∨ client = s.client ∨ s.handler = .idle) :
    State.Kept { s with
      journal := journal, client := client, clients := clients, connected := connected
      runtime := runtime, enabled := enabled, configured := configured } := by
  have unmoved : s.Same { s with
      journal := journal, client := client, clients := clients, connected := connected
      runtime := runtime, enabled := enabled, configured := configured } :=
    ⟨same, rfl, rfl, rfl, List.Subset.refl _⟩
  refine ⟨kept.durable.same unmoved, ?_, ?_, kept.answering, kept.queued, fun _ => settled⟩
  · intro inflight
    exact ⟨(kept.attempt inflight).1.same unmoved, .inl (settled inflight)⟩
  · intro packet before
    have told := kept.checked packet before
    refine ⟨?_, told.acknowledged⟩
    rcases stops with gone | stays | idle
    · exact .inl gone
    · rw [stays]
      exact told.client
    · cases idle.symm.trans before

/-- The active client reports. -/
theorem State.Kept.notify (kept : s.Kept) {notice : Notice} (reports : notice.From s) :
    State.Kept { s with
      handler := .checked notice, acknowledged := notice.carried ++ s.acknowledged } := by
  have more : s.acknowledged ⊆ notice.carried ++ s.acknowledged := List.subset_append_right _ _
  have same : s.Same { s with
      handler := .checked notice, acknowledged := notice.carried ++ s.acknowledged } :=
    ⟨rfl, rfl, rfl, rfl, more⟩
  refine ⟨kept.durable.same same, ?_, ?_, nofun, fun id member => more (kept.queued id member),
    fun replacing inflight => more (kept.replacing replacing inflight)⟩
  · intro inflight
    obtain ⟨due, sent⟩ := kept.attempt inflight
    exact ⟨due.same same, sent.imp_left fun old => more old⟩
  · intro packet before
    cases before
    refine ⟨.inr reports.1, ?_⟩
    intro id carries
    exact List.mem_append_left _ (by simp [Notice.carried, carries])

/-- The handler takes a report for the one of the attempt in flight only when the message
of the attempt is acknowledged. -/
theorem State.Kept.answers (kept : s.Kept) {packet : Packet}
    (before : s.handler = .checked (.published packet)) (distinct : s.Distinct s.handler)
    (matched : packet.packetId = s.replayPacketId) (inflight : s.replayMessageId ≠ 0) :
    s.replayMessageId ∈ s.acknowledged := by
  by_contra waits
  have told := kept.checked packet before
  obtain ⟨client, active, sent⟩ := (kept.attempt inflight).2.resolve_left waits
  -- The attempt was published by the active client, and so was the reported packet.
  have own : packet.client = client := by
    rcases told.client with gone | here
    · cases gone.symm.trans active
    · exact Option.some.inj (here.symm.trans active)
  rw [before] at distinct
  have carries : packet.carried = some s.replayMessageId := by
    apply distinct waits matched
    rw [own, matched]
    exact sent
  exact waits (told.acknowledged _ carries)

theorem State.Kept.handle (kept : s.Kept) {notice : Notice} (before : s.handler = .checked notice)
    (distinct : s.Distinct s.handler) : (s.handle notice).Kept := by
  cases notice with
  | connected => exact kept.moved nofun nofun kept.queued kept.replacing
  | disconnected => exact kept.moved nofun nofun kept.queued kept.replacing
  | published packet =>
      refine kept.moved ?_ ?_ kept.queued kept.replacing
      · intro other checked
        split at checked <;> cases checked
      · intro id answers
        split at answers
        · rename_i matched
          cases answers
          exact kept.answers before distinct matched.1 matched.2
        · cases answers

theorem Event.apply_kept {event : Event} (kept : s.Kept) (calm : Calm s event)
    (applied : event.apply s = some t) : t.Kept := by
  cases Event.apply_happens applied with
  | notify reports => exact kept.notify reports
  | handle checked => exact kept.handle checked calm
  | cleared => exact kept.cleared.idle kept.queued
  | announced =>
      refine kept.idle ?_
      intro id member
      split at member
      · exact kept.queued id (by simpa using member)
      · exact kept.queued id member
  | answered answering =>
      refine kept.idle ?_
      intro id member
      split at member
      · rcases List.mem_append.mp member with old | new
        · exact kept.queued id old
        · cases List.mem_singleton.mp new
          exact kept.answering _ answering
      · exact kept.queued id member
  | enqueue other =>
      refine kept.moved kept.checked kept.answering ?_ kept.replacing
      intro id member
      rcases List.mem_append.mp member with old | new
      · exact kept.queued id old
      · exact absurd (List.mem_singleton.mp new).symm (other id)
  | reconfigure => exact kept.moved kept.checked kept.answering kept.queued (by simp)
  | farewell => exact kept.withPacket _
  | retire => exact kept.replaced calm rfl (.inl rfl)
  | configure mine => exact kept.replaced (kept.replacing (.inl mine)) rfl (.inr (.inl rfl))
  | install mine _ idle =>
      exact kept.replaced (kept.replacing (.inr mine)) rfl (.inr (.inr idle))
  | abandon mine => exact kept.replaced (kept.replacing (.inr mine)) rfl (.inl rfl)
  | release => exact kept.moved kept.checked kept.answering kept.queued (by simp)

theorem Others.kept (others : Others s t) (kept : s.Kept) : t.Kept := by
  rcases others with ⟨event, calm, happens⟩ | grows
  · exact event.apply_kept kept calm happens
  · exact kept.grows grows

/-- The cursor in the flash moves to the message that was due. -/
theorem State.Kept.persist (kept : s.Kept) {id : UInt32} (due : s.Due id)
    (acknowledged : id ∈ s.acknowledged) (idle : s.replayMessageId = 0) :
    State.Kept { s with persisted := id } := by
  have durable := kept.durable
  refine ⟨⟨durable.sound, durable.bounded, durable.distinct, UInt32.le_of_lt due.ahead, due.given,
    ?_, due.first⟩, fun inflight => absurd idle inflight,
    fun packet before => ⟨(kept.checked packet before).client, (kept.checked packet before).acknowledged⟩,
    kept.answering, kept.queued, kept.replacing⟩
  intro m held received passed
  rcases UInt32.le_total m.id s.replayCursor with before | after
  · exact durable.passed m held received (UInt32.le_trans before durable.cursor)
  · rcases UInt32.lt_or_eq_of_le after with larger | equal
    · have same := UInt32.le_antisymm passed (due.first m held received larger)
      rw [same]
      exact acknowledged
    · exact durable.passed m held received (equal ▸ durable.cursor)

theorem State.Kept.moveCursor (kept : s.Kept) {id : UInt32} (persisted : s.persisted = id)
    (idle : s.replayMessageId = 0) :
    State.Kept { s with
      replayCursor := id, journal := smsStoreSetReplayWatermark true id s.journal } := by
  have durable := kept.durable
  have held : ∀ m, (smsStoreSetReplayWatermark true id s.journal).Holds m ↔ s.journal.Holds m :=
    Store.holds_congr rfl
  subst persisted
  refine ⟨⟨durable.sound.congr rfl, ?_, ?_, UInt32.le_refl _, durable.given, ?_, ?_⟩,
    fun inflight => absurd idle inflight,
    fun packet before => ⟨(kept.checked packet before).client, (kept.checked packet before).acknowledged⟩,
    kept.answering, kept.queued, kept.replacing⟩
  · exact fun m here => durable.bounded m ((held m).mp here)
  · exact fun m r here there => durable.distinct m r ((held m).mp here) ((held r).mp there)
  · exact fun m here => durable.passed m ((held m).mp here)
  · exact fun m _ _ larger => UInt32.le_of_lt larger

/-- An allowed call of the worker keeps what holds. -/
theorem MqttCall.Answers.kept {request : MqttCall} {reply : request.Reply} (kept : s.Kept)
    (answers : request.Answers s reply t) (allowed : Allowed s request) : t.Kept := by
  cases request with
  | receive =>
      cases reply with
      | none =>
          obtain ⟨-, rfl⟩ := answers
          exact kept
      | some work =>
          obtain ⟨rest, queue, rfl⟩ := answers
          refine kept.moved kept.checked kept.answering ?_ kept.replacing
          intro id member
          exact kept.queued id (queue ▸ List.mem_cons_of_mem _ member)
  | takeRuntime =>
      cases reply with
      | false =>
          obtain rfl : t = { s with held := none } := answers
          exact kept.moved kept.checked kept.answering kept.queued kept.replacing
      | true =>
          obtain ⟨-, rfl⟩ := answers
          exact kept.moved kept.checked kept.answering kept.queued (by simp)
  | giveRuntime =>
      obtain rfl : t = { s with runtime := none, held := none } := answers
      exact kept.moved kept.checked kept.answering kept.queued (by simp)
  | connected | attempt | list afterId =>
      obtain ⟨-, rfl⟩ := answers
      exact kept
  | alloc | encode | publishes | commit =>
      obtain rfl : t = s := answers
      exact kept
  | publish carried =>
      rcases answers with ⟨-, rfl⟩ | ⟨client, -, -, -, rfl⟩
      · exact kept
      · exact kept.withPacket _
  | setAttempt messageId packetId =>
      obtain rfl : t = { s with replayMessageId := messageId, replayPacketId := packetId } := answers
      obtain ⟨due, sent, worker⟩ := allowed
      have same : s.Same { s with replayMessageId := messageId, replayPacketId := packetId } :=
        ⟨rfl, rfl, rfl, rfl, List.Subset.refl _⟩
      refine ⟨kept.durable.same same, fun _ => ⟨due.same same, .inr sent⟩,
        fun packet before =>
          ⟨(kept.checked packet before).client, (kept.checked packet before).acknowledged⟩,
        kept.answering, kept.queued, ?_⟩
      rintro (replacing | installing)
      · cases worker.symm.trans replacing
      · cases worker.symm.trans installing
  | finishAttempt messageId =>
      obtain ⟨-, rfl⟩ := answers
      split
      · exact kept.cleared
      · exact kept
  | expireAttempt =>
      obtain ⟨-, rfl⟩ := answers
      split
      · exact kept.cleared
      · exact kept
  | setU32 messageId =>
      obtain ⟨due, acknowledged, idle⟩ := allowed
      cases reply with
      | error e =>
          obtain rfl : t = s := answers
          exact kept
      | ok _ =>
          obtain rfl : t = { s with persisted := messageId } := answers
          exact kept.persist due acknowledged idle
  | setCursor messageId =>
      obtain ⟨persisted, -, idle⟩ := allowed
      obtain rfl : t = _ := answers
      exact kept.moveCursor persisted idle

end

/-! What the worker knows between its calls. -/

theorem Others.steady {s t : State} (others : Others s t) (worker : s.runtime = some .worker) :
    s.Steady t := by
  rcases others with ⟨event, -, happens⟩ | grows
  · exact Event.apply_steady happens worker
  · exact grows.steady

/-- The worker handles an item. -/
def Working (s : State) : Prop := s.Kept ∧ s.runtime = some .worker

/-- All received messages beyond the cursor are beyond this id. -/
structure Scanning (scan : UInt32) (s : State) : Prop where
  working : Working s
  idle : s.replayMessageId = 0
  from_ : s.replayCursor ≤ scan
  given : scan.toNat ≤ s.highest
  beyond : ∀ m, s.journal.Holds m → Received m → s.replayCursor < m.id → scan < m.id

structure Publishing (id : UInt32) (s : State) : Prop where
  working : Working s
  idle : s.replayMessageId = 0
  due : s.Due id

structure Storing (id : UInt32) (s : State) : Prop where
  working : Working s
  idle : s.replayMessageId = 0
  due : s.Due id
  acknowledged : id ∈ s.acknowledged

structure Stored (id : UInt32) (s : State) : Prop where
  working : Working s
  idle : s.replayMessageId = 0
  persisted : s.persisted = id
  ahead : s.replayCursor < id

theorem stable_kept : Stable Others State.Kept := fun _ _ kept others => others.kept kept

theorem stable_working : Stable Others Working := by
  rintro s t ⟨kept, worker⟩ others
  exact ⟨others.kept kept, (others.steady worker).runtime.trans worker⟩

theorem Others.due {s t : State} {id : UInt32} (others : Others s t) (due : s.Due id) : t.Due id := by
  rcases others with ⟨event, -, happens⟩ | grows
  · exact due.same (Event.apply_same happens)
  · exact due.grows grows

theorem stable_scanning (scan : UInt32) : Stable Others (Scanning scan) := by
  intro s t scanning others
  obtain ⟨working, idle, from_, given, beyond⟩ := scanning
  have steady := others.steady working.2
  refine ⟨stable_working s t working others, steady.idle idle, steady.cursor ▸ from_, ?_, ?_⟩
  · rcases others with ⟨event, -, happens⟩ | grows
    · rw [(Event.apply_same happens).highest]
      exact given
    · exact given.trans grows.higher
  · intro m held received larger
    rw [steady.cursor] at larger
    rcases others with ⟨event, -, happens⟩ | grows
    · exact beyond m ((Store.holds_congr (Event.apply_same happens).journal m).mp held) received
        larger
    · rcases grows.received m held received with new | ⟨old, heldOld, receivedOld, same⟩
      · exact UInt32.lt_iff_toNat_lt.mpr (Nat.lt_of_le_of_lt given new)
      · rw [← same] at larger ⊢
        exact beyond old heldOld receivedOld larger

theorem stable_publishing (id : UInt32) : Stable Others (Publishing id) := by
  intro s t publishing others
  have steady := others.steady publishing.working.2
  exact ⟨stable_working s t publishing.working others, steady.idle publishing.idle,
    others.due publishing.due⟩

theorem stable_published (id : UInt32) (packetId : Int) :
    Stable Others fun s => Publishing id s ∧ s.Sent id packetId := by
  rintro s t ⟨publishing, client, active, member⟩ others
  have steady := others.steady publishing.working.2
  refine ⟨stable_publishing id s t publishing others, client, ?_, ?_⟩
  · rw [steady.client, active]
  · rw [steady.packets]
    exact member

theorem stable_acknowledged (id : UInt32) :
    Stable Others fun s => Working s ∧ id ∈ s.acknowledged := by
  rintro s t ⟨working, member⟩ others
  exact ⟨stable_working s t working others, (others.steady working.2).acknowledged member⟩

theorem stable_storing (id : UInt32) : Stable Others (Storing id) := by
  intro s t storing others
  have steady := others.steady storing.working.2
  exact ⟨stable_working s t storing.working others, steady.idle storing.idle,
    others.due storing.due, steady.acknowledged storing.acknowledged⟩

theorem stable_stored (id : UInt32) : Stable Others (Stored id) := by
  intro s t stored others
  have steady := others.steady stored.working.2
  exact ⟨stable_working s t stored.working others, steady.idle stored.idle,
    steady.persisted.trans stored.persisted, steady.cursor ▸ stored.ahead⟩

/-! The worker's own steps. -/

/-- The worker's calls are allowed, and afterwards this holds. -/
abbrev Keeps {α : Type} (post : State → Prop) (task : MqttM α) (s : State) : Prop :=
  Guards Others MqttCall.Answers Allowed (fun _ => post) task s

theorem keeps_publishOthers (count : Nat) {s : State} (working : Working s) :
    Keeps Working (publishOthers count) s := by
  induction count generalizing s with
  | zero => exact .done stable_working working
  | succ count ih =>
      apply Guards.send Working stable_working working (fun _ _ => trivial)
      intro t packetId u here answers
      apply ih
      refine ⟨MqttCall.Answers.kept here.1 answers trivial, ?_⟩
      rcases answers with ⟨-, rfl⟩ | ⟨client, -, -, -, rfl⟩
      · exact here.2
      · exact here.2

theorem keeps_announce {s : State} (working : Working s) : Keeps Working announce s := by
  apply Guards.send Working stable_working working (fun _ _ => trivial)
  rintro t count u here (rfl : u = t)
  exact keeps_publishOthers count here

theorem keeps_publishInboundReplay (message : SmsMessage) {s : State}
    (publishing : Publishing message.id s) :
    Keeps Working (publishInboundReplay message) s := by
  have stop (t : State) (working : Working t) (sent : Bool) :
      Keeps Working (pure sent : MqttM Bool) t := .done stable_working working
  apply Guards.send (Publishing message.id) (stable_publishing _) publishing (fun _ _ => trivial)
  rintro t encoded u here (rfl : u = t)
  cases encoded with
  | false => exact stop u here.working false
  | true =>
      apply Guards.send (Publishing message.id) (stable_publishing _) here (fun _ _ => trivial)
      intro t packetId v here answers
      have kept := MqttCall.Answers.kept here.working.1 answers trivial
      rcases answers with ⟨refused, rfl⟩ | ⟨client, given, -, active, rfl⟩
      · rw [if_pos refused]
        exact stop v here.working false
      · rw [if_neg (Int.not_lt.mpr given)]
        apply Guards.send _ (stable_published message.id packetId)
        · refine ⟨⟨⟨kept, here.working.2⟩, here.idle, here.due.same ⟨rfl, rfl, rfl, rfl, ?_⟩⟩, ?_⟩
          · exact List.Subset.refl _
          · exact ⟨client, active, List.mem_cons_self⟩
        · exact fun w published => ⟨published.1.due, published.2, published.1.working.2⟩
        · intro w _ x published answers
          refine stop x ⟨MqttCall.Answers.kept published.1.working.1 answers ?_, ?_⟩ true
          · exact ⟨published.1.due, published.2, published.1.working.2⟩
          · obtain rfl : x = _ := answers
            exact published.1.working.2

/-- The first received message beyond the cursor is due. -/
theorem Scanning.due {scan : UInt32} {s : State} (scanning : Scanning scan s) {m : SmsMessage}
    (held : s.journal.Holds m) (above : scan < m.id)
    (least : ∀ r, s.journal.Holds r → scan < r.id → m.id ≤ r.id) (received : Received m) :
    s.Due m.id := by
  have durable := scanning.working.1.durable
  have larger := UInt32.lt_of_le_of_lt scanning.from_ above
  refine ⟨larger, durable.ahead m held received larger, durable.bounded m held, ?_⟩
  intro r there other beyond
  exact least r there (scanning.beyond r there other beyond)

/-- A record that is no received message is skipped. -/
theorem Scanning.next {scan : UInt32} {s : State} (scanning : Scanning scan s) {m : SmsMessage}
    (held : s.journal.Holds m) (above : scan < m.id)
    (least : ∀ r, s.journal.Holds r → scan < r.id → m.id ≤ r.id) (other : ¬Received m) :
    Scanning m.id s := by
  have durable := scanning.working.1.durable
  refine ⟨scanning.working, scanning.idle, ?_, durable.bounded m held, ?_⟩
  · exact UInt32.le_trans scanning.from_ (UInt32.le_of_lt above)
  · intro r there received beyond
    rcases UInt32.lt_or_eq_of_le (least r there (scanning.beyond r there received beyond)) with
      less | same
    · exact less
    · rw [durable.distinct m r held there same] at other
      exact absurd received other

theorem keeps_replayScan (rounds : Nat) (scan : UInt32) {s : State} (scanning : Scanning scan s) :
    Keeps Working (replayScan rounds scan) s := by
  induction rounds generalizing scan s with
  | zero => exact .done stable_working scanning.working
  | succ rounds ih =>
      have stop (t : State) (working : Working t) : Keeps Working (pure () : MqttM Unit) t :=
        .done stable_working working
      apply Guards.send (Scanning scan) (stable_scanning scan) scanning (fun _ _ => trivial)
      rintro t allocated u here (rfl : u = t)
      cases allocated with
      | false => exact stop u here.working
      | true =>
          apply Guards.send (Scanning scan) (stable_scanning scan) here (fun _ _ => trivial)
          rintro t listed v here ⟨⟨plan, answer⟩, rfl⟩
          cases listed with
          | error e => exact stop v here.working
          | ok found =>
              cases Store.smsStoreList_one here.working.1.durable.sound answer with
              | none absent => exact stop v here.working
              | @some m held above least =>
                  dsimp only
                  split
                  · rename_i received
                    apply Guards.bind
                    apply Guards.mono _ (keeps_publishInboundReplay m
                      ⟨here.working, here.idle, here.due held above least received⟩)
                    exact fun _ w working => stop w working
                  · rename_i other
                    exact ih m.id (here.next held above least other)

theorem keeps_replayNextInbound {s : State} (working : Working s) :
    Keeps Working replayNextInbound s := by
  have stop (t : State) (working : Working t) : Keeps Working (pure () : MqttM Unit) t :=
    .done stable_working working
  apply Guards.send Working stable_working working (fun _ _ => trivial)
  rintro t connected u here ⟨-, rfl⟩
  cases connected with
  | false => exact stop u here
  | true =>
      apply Guards.send Working stable_working here (fun _ _ => trivial)
      rintro t reply v here ⟨rfl, rfl⟩
      dsimp only
      split
      · exact stop v here
      · rename_i idle
        have durable := here.1.durable
        apply keeps_replayScan
        refine ⟨here, by simpa using idle, UInt32.le_refl _, ?_, fun _ _ _ larger => larger⟩
        exact (UInt32.le_iff_toNat_le.mp durable.cursor).trans durable.given

theorem keeps_replayCursorStore (id : UInt32) {s : State} (storing : Storing id s) :
    Keeps Working (replayCursorStore id) s := by
  have stop (t : State) (working : Working t) (result : Except EspErr Unit) :
      Keeps Working (pure result : MqttM (Except EspErr Unit)) t := .done stable_working working
  apply Guards.send (Storing id) (stable_storing id) storing
    (fun t here => ⟨here.due, here.acknowledged, here.idle⟩)
  intro t reply u here answers
  have kept := MqttCall.Answers.kept here.working.1 answers ⟨here.due, here.acknowledged, here.idle⟩
  cases reply with
  | error e =>
      obtain rfl : u = t := answers
      exact stop u here.working (.error e)
  | ok _ =>
      obtain rfl : u = { t with persisted := id } := answers
      apply Guards.send (Stored id) (stable_stored id)
        ⟨⟨kept, here.working.2⟩, here.idle, rfl, here.due.ahead⟩ (fun _ _ => trivial)
      rintro v committed w stored (rfl : w = v)
      cases committed with
      | error e => exact stop w stored.working (.error e)
      | ok _ =>
          apply Guards.send (Stored id) (stable_stored id) stored
            (fun t here => ⟨here.persisted, here.ahead, here.idle⟩)
          intro v _ x stored answers
          refine stop x ⟨MqttCall.Answers.kept stored.working.1 answers ?_, ?_⟩ (.ok ())
          · exact ⟨stored.persisted, stored.ahead, stored.idle⟩
          · obtain rfl : x = _ := answers
            exact stored.working.2

theorem keeps_handleReplayAck (id : UInt32) {s : State} (working : Working s)
    (acknowledged : id ∈ s.acknowledged) : Keeps Working (handleReplayAck id) s := by
  apply Guards.send _ (stable_acknowledged id) ⟨working, acknowledged⟩ (fun _ _ => trivial)
  intro t current u here answers
  have kept := MqttCall.Answers.kept here.1.1 answers trivial
  obtain ⟨matched, rfl⟩ := answers
  cases current with
  | false => exact .done stable_working here.1
  | true =>
      simp only [if_true] at kept ⊢
      have matched := Bool.and_eq_true_iff.mp matched.symm
      have same : t.replayMessageId = id := beq_iff_eq.mp matched.1
      have inflight : t.replayMessageId ≠ 0 := by
        rw [same]
        exact bne_iff_ne.mp matched.2
      have due := (here.1.1.attempt inflight).1
      rw [same] at due
      apply Guards.bind
      apply Guards.mono _ (keeps_replayCursorStore id ⟨⟨kept, here.1.2⟩, rfl,
        due.same ⟨rfl, rfl, rfl, rfl, List.Subset.refl _⟩, here.2⟩)
      intro result v working
      cases result with
      | error e => exact .done stable_working working
      | ok _ => exact keeps_replayNextInbound working

theorem keeps_replayWatchdog {s : State} (working : Working s) : Keeps Working replayWatchdog s := by
  apply Guards.send Working stable_working working (fun _ _ => trivial)
  intro t expired u here answers
  have kept := MqttCall.Answers.kept here.1 answers trivial
  obtain ⟨-, rfl⟩ := answers
  cases expired with
  | false => exact .done stable_working here
  | true => exact keeps_replayNextInbound ⟨kept, here.2⟩

theorem keeps_handleWork (work : Work) {s : State} (working : Working s)
    (acknowledged : ∀ id, work = .replayAck id → id ∈ s.acknowledged) :
    Keeps Working (handleWork work) s := by
  cases work with
  | connected =>
      apply Guards.bind
      exact Guards.mono (fun _ _ => keeps_replayNextInbound) (keeps_announce working)
  | data => exact keeps_announce working
  | smsEvent => exact keeps_announce working
  | replay => exact keeps_replayNextInbound working
  | replayAck id => exact keeps_handleReplayAck id working (acknowledged id rfl)

theorem keeps_giveRuntime {s : State} (working : Working s) :
    Keeps State.Kept (ask .giveRuntime) s := by
  apply Guards.call Working stable_working working (fun _ _ => trivial)
  intro t _ u here answers
  exact .done stable_kept (MqttCall.Answers.kept here.1 answers trivial)

/-- The received work is not taken from the queue twice. -/
theorem stable_received (work : Work) : Stable Others fun s =>
    s.Kept ∧ ∀ id, work = .replayAck id → id ∈ s.acknowledged := by
  rintro s t ⟨kept, acknowledged⟩ others
  refine ⟨others.kept kept, fun id same => ?_⟩
  rcases others with ⟨event, -, happens⟩ | grows
  · exact (Event.apply_same happens).acknowledged (acknowledged id same)
  · rw [grows.rest]
    exact acknowledged id same

theorem keeps_workerTask {s : State} (kept : s.Kept) : Keeps State.Kept workerTask s := by
  apply Guards.send State.Kept stable_kept kept (fun _ _ => trivial)
  intro t received u here answers
  have keptU := MqttCall.Answers.kept here answers trivial
  cases received with
  | some work =>
      obtain ⟨rest, queue, rfl⟩ := answers
      apply Guards.send _ (stable_received work) ⟨keptU, ?_⟩ (fun _ _ => trivial)
      · intro v taken w here answers
        have keptW := MqttCall.Answers.kept here.1 answers trivial
        cases taken with
        | false => exact .done stable_kept keptW
        | true =>
            obtain ⟨-, rfl⟩ := answers
            apply Guards.bind
            exact Guards.mono (fun _ _ => keeps_giveRuntime)
              (keeps_handleWork work ⟨keptW, rfl⟩ here.2)
      · rintro id rfl
        exact here.queued id (queue ▸ List.mem_cons_self)
  | none =>
      apply Guards.send State.Kept stable_kept keptU (fun _ _ => trivial)
      rintro v connected w here ⟨-, rfl⟩
      cases connected with
      | false => exact .done stable_kept here
      | true =>
          apply Guards.send State.Kept stable_kept here (fun _ _ => trivial)
          intro v taken w here answers
          have keptW := MqttCall.Answers.kept here answers trivial
          cases taken with
          | false => exact .done stable_kept keptW
          | true =>
              obtain ⟨-, rfl⟩ := answers
              apply Guards.bind
              apply Guards.mono _ (keeps_replayWatchdog ⟨keptW, rfl⟩)
              intro _ x working
              apply Guards.bind
              apply Guards.mono _ (keeps_replayNextInbound working)
              intro _ x working
              apply Guards.bind
              exact Guards.mono (fun _ _ => keeps_giveRuntime) (keeps_announce working)

/-! Whole runs. -/

theorem State.Kept.restart {s : State} (kept : s.Kept) : s.restart.Kept := by
  have durable := kept.durable
  have held : ∀ m, s.restart.journal.Holds m ↔ s.journal.Holds m := Store.holds_congr rfl
  refine ⟨⟨durable.sound.congr rfl, ?_, ?_, UInt32.le_refl _, durable.given, ?_, ?_⟩,
    fun inflight => absurd rfl inflight, nofun, nofun, nofun,
    fun _ inflight => absurd rfl inflight⟩
  · exact fun m here => durable.bounded m ((held m).mp here)
  · exact fun m r here there => durable.distinct m r ((held m).mp here) ((held r).mp there)
  · exact fun m here => durable.passed m ((held m).mp here)
  · exact fun m _ _ larger => UInt32.le_of_lt larger

theorem initial_kept : State.initial.Kept := by
  have vacant (m : SmsMessage) : ¬State.initial.journal.Holds m := by
    rintro ⟨slot, held⟩
    cases held
  refine ⟨⟨Store.sound_empty, ?_, ?_, UInt32.le_refl _, Nat.le_refl _, ?_, ?_⟩,
    fun inflight => absurd rfl inflight, nofun, nofun, nofun,
    fun _ inflight => absurd rfl inflight⟩
  · exact fun m held => absurd held (vacant m)
  · exact fun m _ held => absurd held (vacant m)
  · exact fun m held => absurd held (vacant m)
  · exact fun m held => absurd held (vacant m)

/-- What every calm run keeps. -/
def Gateway.Kept (g : Gateway) : Prop := g.state.Kept ∧ Keeps State.Kept g.rest g.state

theorem Step.kept {replies : (request : MqttCall) → request.Reply → Prop} {g g' : Gateway}
    (step : Step replies Calm g g') (kept : g.Kept) : g'.Kept := by
  cases step with
  | call meets answered =>
      obtain ⟨may, later⟩ := kept.2 _ .refl
      exact ⟨MqttCall.Answers.kept kept.1 answered may, later _ _ answered⟩
  | turn => exact ⟨kept.1, keeps_workerTask kept.1⟩
  | event may happens =>
      exact ⟨Event.apply_kept kept.1 may happens, kept.2.after (.inl ⟨_, may, happens⟩)⟩
  | journal grows => exact ⟨kept.1.grows grows, kept.2.after (.inr grows)⟩
  | restart => exact ⟨kept.1.restart, .done stable_kept kept.1.restart⟩

theorem Reached.kept {replies : (request : MqttCall) → request.Reply → Prop} {g : Gateway}
    (reached : Reached replies Calm g) : g.Kept := by
  induction reached with
  | start => exact ⟨initial_kept, .done stable_kept initial_kept⟩
  | step _ step ih => exact step.kept ih

/-- No call takes the cursor back. -/
theorem MqttCall.Answers.advances {s t : State} {request : MqttCall} {reply : request.Reply}
    (answers : request.Answers s reply t) (allowed : Allowed s request) :
    s.persisted ≤ t.persisted ∧ s.replayCursor ≤ t.replayCursor := by
  cases request with
  | setU32 messageId =>
      cases reply with
      | error e =>
          obtain rfl : t = s := answers
          exact ⟨UInt32.le_refl _, UInt32.le_refl _⟩
      | ok _ =>
          obtain rfl : t = { s with persisted := messageId } := answers
          exact ⟨allowed.1.durable, UInt32.le_refl _⟩
  | setCursor messageId =>
      obtain rfl : t = _ := answers
      exact ⟨UInt32.le_refl _, UInt32.le_of_lt allowed.2.1⟩
  | receive =>
      cases reply with
      | none =>
          obtain ⟨-, rfl⟩ := answers
          exact ⟨UInt32.le_refl _, UInt32.le_refl _⟩
      | some work =>
          obtain ⟨rest, -, rfl⟩ := answers
          exact ⟨UInt32.le_refl _, UInt32.le_refl _⟩
  | takeRuntime =>
      cases reply with
      | false =>
          obtain rfl : t = { s with held := none } := answers
          exact ⟨UInt32.le_refl _, UInt32.le_refl _⟩
      | true =>
          obtain ⟨-, rfl⟩ := answers
          exact ⟨UInt32.le_refl _, UInt32.le_refl _⟩
  | publish carried =>
      rcases answers with ⟨-, rfl⟩ | ⟨client, -, -, -, rfl⟩ <;>
        exact ⟨UInt32.le_refl _, UInt32.le_refl _⟩
  | connected | attempt | list _ =>
      obtain ⟨-, rfl⟩ := answers
      exact ⟨UInt32.le_refl _, UInt32.le_refl _⟩
  | finishAttempt _ | expireAttempt =>
      obtain ⟨-, rfl⟩ := answers
      split <;> exact ⟨UInt32.le_refl _, UInt32.le_refl _⟩
  | giveRuntime | alloc | encode | publishes | commit | setAttempt _ _ =>
      obtain rfl : t = _ := answers
      exact ⟨UInt32.le_refl _, UInt32.le_refl _⟩

theorem Step.advances {replies : (request : MqttCall) → request.Reply → Prop} {g g' : Gateway}
    (step : Step replies Calm g g') (kept : g.Kept) :
    g.state.persisted ≤ g'.state.persisted ∧ g.state.replayCursor ≤ g'.state.replayCursor := by
  cases step with
  | call meets answered => exact answered.advances (kept.2 _ .refl).1
  | turn => exact ⟨UInt32.le_refl _, UInt32.le_refl _⟩
  | event may happens =>
      have same := Event.apply_same happens
      exact ⟨UInt32.le_of_eq same.persisted.symm, UInt32.le_of_eq same.cursor.symm⟩
  | journal grows =>
      rw [grows.rest]
      exact ⟨UInt32.le_refl _, UInt32.le_refl _⟩
  | restart => exact ⟨UInt32.le_refl _, kept.1.durable.cursor⟩

/-- In every run in which no client is replaced while an attempt waits for its report, and
none reports another publish under the packet id of the attempt, the cursor is moved only
to a message that a client has reported, never goes back, and all received messages up to
it have been reported. -/
theorem cursor_acknowledged {g : Gateway} (reached : Reached (fun _ _ => True) Calm g) :
    (∀ id next, g.rest = .call (.setU32 id) next → id ∈ g.state.acknowledged) ∧
    (∀ g', Step (fun _ _ => True) Calm g g' →
      g.state.persisted ≤ g'.state.persisted ∧ g.state.replayCursor ≤ g'.state.replayCursor) ∧
    ∀ m, g.state.journal.Holds m → Received m →
      m.id ≤ g.state.persisted ∨ m.id ≤ g.state.replayCursor → m.id ∈ g.state.acknowledged := by
  have kept := reached.kept
  refine ⟨?_, fun g' step => step.advances kept, ?_⟩
  · intro id next asks
    have guards := kept.2
    rw [asks] at guards
    exact (guards _ .refl).1.2.1
  · intro m held received passed
    apply kept.1.durable.passed m held received
    rcases passed with persisted | cursor
    · exact persisted
    · exact UInt32.le_trans cursor kept.1.durable.cursor

/-- The client reports the received message, and the worker is about to move the
cursor to it. -/
theorem cursor_acknowledged_first : ∃ g next, Reached (fun _ _ => True) Calm g ∧
    g.rest = .call (.setU32 1) next ∧ 1 ∈ g.state.acknowledged := by
  let moves := attempting ++ acknowledging ++ [.turn] ++ List.replicate 3 (.work 3)
  have played : ((⟨arrived, .done ()⟩ : Gateway).play (fun s event => decide (Calm s event))
      moves).bind Gateway.storing = some 1 := by decide +kernel
  obtain ⟨g, played, storing⟩ := Option.bind_eq_some_iff.mp played
  have reached : Reached (fun _ _ => True) Calm g :=
    Gateway.play_reached (fun _ _ _ => trivial) (fun _ _ => of_decide_eq_true)
      (reached_arrived _ _) moves played
  simp only [Gateway.storing] at storing
  split at storing
  · rename_i id next asks
    cases storing
    exact ⟨g, next, reached, asks, (cursor_acknowledged reached).1 1 next asks⟩
  · cases storing

/-- The client is replaced while the received message is in flight; the new client
announces itself with the packet id of the attempt. -/
theorem cursor_skips_unacknowledged : ∃ g, Reached (fun _ _ => True) (fun _ _ => True) g ∧
    g.state.persisted = 1 ∧ g.state.acknowledged = [] ∧
    ∃ m, g.state.journal.Holds m ∧ Received m ∧ m.id = 1 := by
  let moves := attempting ++ enabling ++ connecting ++ List.replicate 8 (.work 2) ++
    [.event (.notify (.published ⟨1, 2, none⟩)), .event .handle, .event (.queued true), .turn] ++
    List.replicate 4 (.work 3)
  let facts (g : Gateway) := (g.state.persisted, g.state.acknowledged,
    (g.state.journal.view ⟨0, by decide⟩).map fun m => (m.direction, m.status, m.id))
  have played : ((⟨arrived, .done ()⟩ : Gateway).play (fun _ _ => true) moves).map facts =
      some (1, [], some (.inbound, .received, 1)) := by decide +kernel
  obtain ⟨g, played, same⟩ := Option.map_eq_some_iff.mp played
  obtain ⟨persisted, acknowledged, stored⟩ :
      g.state.persisted = 1 ∧ g.state.acknowledged = [] ∧
        (g.state.journal.view ⟨0, by decide⟩).map (fun m => (m.direction, m.status, m.id)) =
          some (.inbound, .received, 1) := by
    simpa only [facts, Prod.mk.injEq] using same
  obtain ⟨m, held, named⟩ := Option.map_eq_some_iff.mp stored
  simp only [Prod.mk.injEq] at named
  refine ⟨g, ?_, persisted, acknowledged, m, ⟨_, held⟩, ⟨named.1, named.2.1⟩, named.2.2⟩
  exact Gateway.play_reached (fun _ _ _ => trivial) (fun _ _ _ => trivial) (reached_arrived _ _)
    moves played

end SmsGateway.Mqtt
