import SmsGateway.Lib.Program
import SmsGateway.Store.Holds

/-! The replay of received messages over MQTT (`mqtt_service.c`): the worker task
call by call, next to the client's task and `mqtt_service_reconfigure`. -/

namespace SmsGateway.Mqtt

open Lib

/-- `mqtt_work_t`, without the payloads of the work that replays nothing. -/
inductive Work where
  | connected
  | data
  | smsEvent
  | replay
  | replayAck (messageId : UInt32)
  deriving DecidableEq, Repr

/-- A QoS 1 publish of a client: its packet id and, for a replay, the message. A client
may give one id to several of its publishes. -/
structure Packet where
  client : Nat
  packetId : Int
  carried : Option UInt32
  deriving DecidableEq, Repr

/-- What a client reports. -/
inductive Notice where
  | connected
  | disconnected
  | published (packet : Packet)
  deriving DecidableEq, Repr

/-- How far the client's task has come in `mqtt_event_handler`; `checked` is behind the
comparison with the active client. -/
inductive Handler where
  | idle
  | checked (notice : Notice)
  | connecting
  | clearing
  | answering (replayId : UInt32)
  deriving DecidableEq, Repr

/-- Who holds `s_runtime_mutex`; `replacing` is `mqtt_service_reconfigure` once it
has made the old client's callbacks stale, `installing` once the new configuration
is in place. -/
inductive Holder where
  | worker
  | reconfigure
  | replacing
  | installing
  deriving DecidableEq, Repr

/-- The journal, the static variables of `mqtt_service.c` and the flash entry of
the replay cursor. `enabled` is the flag of `s_config`, and `configured` tells whether a
configuration was installed since the start. `highest` bounds the ids given out so far,
`packets` are all publishes, `acknowledged` are the messages whose publish a client has reported
`PUBLISHED`, and `held` is the item that the worker has taken from the queue. -/
structure State where
  journal : Store
  highest : Nat
  persisted : UInt32
  replayCursor : UInt32
  replayMessageId : UInt32
  replayPacketId : Int
  connected : Bool
  client : Option Nat
  clients : Nat
  handler : Handler
  queue : List Work
  held : Option Work
  runtime : Option Holder
  enabled : Bool
  configured : Bool
  packets : List Packet
  acknowledged : List UInt32

inductive MqttCall where
  | receive
  | takeRuntime
  | giveRuntime
  | connected
  | attempt
  | alloc
  | list (afterId : UInt32)
  | encode
  | publish (carried : Option UInt32)
  | publishes
  | setAttempt (messageId : UInt32) (packetId : Int)
  | finishAttempt (messageId : UInt32)
  | expireAttempt
  | setU32 (messageId : UInt32)
  | commit
  | setCursor (messageId : UInt32)

/-- What a call returns. `attempt` is `inflight` and `cursor`, `publishes` how many
other messages an announcement has. -/
@[reducible] def MqttCall.Reply : MqttCall → Type
  | .receive => Option Work
  | .takeRuntime | .connected | .alloc | .encode | .finishAttempt _ | .expireAttempt => Bool
  | .giveRuntime | .setAttempt _ _ | .setCursor _ => Unit
  | .attempt => Bool × UInt32
  | .list _ => Except EspErr (List SmsMessage)
  | .publish _ => Int
  | .publishes => Nat
  | .setU32 _ | .commit => Except EspErr Unit

abbrev MqttM := Prog MqttCall MqttCall.Reply

def ask (request : MqttCall) : MqttM request.Reply := Prog.send request

def replayCursorStore (messageId : UInt32) : MqttM (Except EspErr Unit) := do
  match ← ask (.setU32 messageId) with
  | .error e => pure (.error e)
  | .ok () => do
      match ← ask .commit with
      | .error e => pure (.error e)
      | .ok () => do
          ask (.setCursor messageId)
          pure (.ok ())

def publishInboundReplay (message : SmsMessage) : MqttM Bool := do
  if ← ask .encode then do
    let packetId ← ask (.publish (some message.id))
    if packetId < 0 then pure false
    else do
      ask (.setAttempt message.id packetId)
      pure true
  else pure false

/-- The loop of `replay_next_inbound`, with this many iterations left. -/
def replayScan : Nat → UInt32 → MqttM Unit
  | 0, _ => pure ()
  | rounds + 1, scan => do
      if ← ask .alloc then do
        match ← ask (.list scan) with
        | .error _ => pure ()
        | .ok [] => pure ()
        | .ok (message :: _) =>
            if message.direction = .inbound ∧ message.status = .received then do
              let _ ← publishInboundReplay message
              pure ()
            else replayScan rounds message.id
      else pure ()

def replayNextInbound : MqttM Unit := do
  if ← ask .connected then do
    let (inflight, cursor) ← ask .attempt
    if inflight then pure () else replayScan smsStoreMaxRecords cursor
  else pure ()

def handleReplayAck (messageId : UInt32) : MqttM Unit := do
  if ← ask (.finishAttempt messageId) then do
    match ← replayCursorStore messageId with
    | .error _ => pure ()
    | .ok () => replayNextInbound
  else pure ()

def replayWatchdog : MqttM Unit := do
  if ← ask .expireAttempt then replayNextInbound else pure ()

/-- This many publishes that carry no received message. -/
def publishOthers : Nat → MqttM Unit
  | 0 => pure ()
  | count + 1 => do
      let _ ← ask (.publish none)
      publishOthers count

/-- `subscribe_and_announce`, `handle_data_work`, `publish_sms_event` and
`publish_status`, as far as the replay is concerned. -/
def announce : MqttM Unit := do
  let count ← ask .publishes
  publishOthers count

def handleWork : Work → MqttM Unit
  | .connected => do
      announce
      replayNextInbound
  | .data | .smsEvent => announce
  | .replay => replayNextInbound
  | .replayAck messageId => handleReplayAck messageId

/-- One pass of the loop of `worker_task`. -/
def workerTask : MqttM Unit := do
  match ← ask .receive with
  | some work =>
      if ← ask .takeRuntime then do
        handleWork work
        ask .giveRuntime
      else pure ()
  | none =>
      if ← ask .connected then do
        if ← ask .takeRuntime then do
          replayWatchdog
          replayNextInbound
          announce
          ask .giveRuntime
        else pure ()
      else pure ()

namespace State

/-- `replay_inflight_clear`. -/
def clearAttempt (s : State) : State := { s with replayMessageId := 0, replayPacketId := 0 }

def withPacket (s : State) (packet : Packet) : State := { s with packets := packet :: s.packets }

end State

/-- What the worker's calls answer and do. The allocator, the flash and the client
may refuse, and `publish_raw` reaches the active client only while it is connected. -/
def MqttCall.Answers (s : State) : (request : MqttCall) → request.Reply → State → Prop
  | .receive, none, t => s.queue = [] ∧ t = s
  | .receive, some work, t =>
      ∃ rest, s.queue = work :: rest ∧ t = { s with queue := rest, held := some work }
  | .takeRuntime, false, t => t = { s with held := none }
  | .takeRuntime, true, t => s.runtime = none ∧ t = { s with runtime := some .worker }
  | .giveRuntime, _, t => t = { s with runtime := none, held := none }
  | .connected, reply, t => reply = s.connected ∧ t = s
  | .attempt, reply, t => reply = (s.replayMessageId != 0, s.replayCursor) ∧ t = s
  | .alloc, _, t | .encode, _, t | .publishes, _, t | .commit, _, t => t = s
  | .list afterId, reply, t =>
      (∃ plan, (smsStoreList afterId 1 (plan, s.journal)).1 = reply) ∧ t = s
  | .publish carried, packetId, t =>
      (packetId < 0 ∧ t = s) ∨
        ∃ client, 0 ≤ packetId ∧ s.connected = true ∧ s.client = some client ∧
          t = s.withPacket ⟨client, packetId, carried⟩
  | .setAttempt messageId packetId, _, t =>
      t = { s with replayMessageId := messageId, replayPacketId := packetId }
  | .finishAttempt messageId, current, t =>
      current = (s.replayMessageId == messageId && messageId != 0) ∧
        t = if current then s.clearAttempt else s
  | .expireAttempt, expired, t =>
      (expired = true → s.replayMessageId ≠ 0) ∧ t = if expired then s.clearAttempt else s
  | .setU32 messageId, reply, t =>
      t = match reply with
        | .ok () => { s with persisted := messageId }
        | .error _ => s
  | .setCursor messageId, _, t =>
      t = { s with
        replayCursor := messageId
        journal := smsStoreSetReplayWatermark true messageId s.journal }

/-- What the client's task, other tasks and `mqtt_service_reconfigure` do. -/
inductive Event where
  | notify (notice : Notice)
  | handle
  | cleared
  | queued (accepted : Bool)
  | enqueue (work : Work)
  | reconfigure
  | farewell (packetId : Int)
  | retire
  | configure (enabled : Bool)
  | install
  | abandon
  | release
  deriving DecidableEq, Repr

/-- The messages that a report is about. -/
def Notice.carried : Notice → List UInt32
  | .connected | .disconnected => []
  | .published packet => packet.carried.toList

/-- The active client can report this. A publish can be reported at any time, and more
than once. -/
def Notice.From (s : State) : Notice → Prop
  | .connected | .disconnected => s.client.isSome
  | .published packet => s.client = some packet.client ∧ packet ∈ s.packets

instance (s : State) : (notice : Notice) → Decidable (notice.From s)
  | .connected | .disconnected => inferInstanceAs (Decidable (_ = true))
  | .published _ => inferInstanceAs (Decidable (_ ∧ _))

/-- What `mqtt_event_handler` does behind the comparison with the active client, which may
have been replaced in between. -/
def State.handle (s : State) : Notice → State
  | .connected => { s with connected := true, handler := .connecting }
  | .disconnected => { s with connected := false, handler := .clearing }
  | .published packet =>
      { s with handler :=
          if packet.packetId = s.replayPacketId ∧ s.replayMessageId ≠ 0 then
            .answering s.replayMessageId
          else .idle }

/-- The state after an event, if it can happen. The events of a client other than
the active one are ignored and left out, and a client's task handles one event at a
time; `esp_mqtt_client_stop` waits for it. -/
def Event.apply (s : State) : Event → Option State
  | .notify notice =>
      if notice.From s ∧ s.handler = .idle then
        some { s with
          handler := .checked notice
          acknowledged := notice.carried ++ s.acknowledged }
      else none
  | .handle =>
      match s.handler with
      | .checked notice => some (s.handle notice)
      | _ => none
  | .cleared =>
      if s.handler = .clearing then some { s.clearAttempt with handler := .idle } else none
  | .queued accepted =>
      match s.handler with
      | .connecting =>
          some { s with
            handler := .idle
            queue := if accepted then s.queue ++ [.connected] else s.queue }
      | .answering replayId =>
          some { s with
            handler := .idle
            queue := if accepted then s.queue ++ [.replayAck replayId] else s.queue }
      | _ => none
  | .enqueue work =>
      match work with
      | .connected | .replayAck _ => none
      | .data | .smsEvent | .replay => some { s with queue := s.queue ++ [work] }
  | .reconfigure => if s.runtime = none then some { s with runtime := some .reconfigure } else none
  | .farewell packetId =>
      match s.client with
      | some client =>
          if s.runtime = some .reconfigure then
            some (s.withPacket ⟨client, packetId, none⟩)
          else none
      | none => none
  | .retire =>
      if s.runtime = some .reconfigure then
        some { s with client := none, connected := false, runtime := some .replacing }
      else none
  | .configure enabled =>
      if s.runtime = some .replacing ∧ s.handler = .idle then
        some { s with
          enabled := enabled
          configured := true
          journal := smsStoreSetReplayWatermark enabled
            (if enabled then s.replayCursor else uint32Max) s.journal
          runtime := some .installing }
      else none
  | .install =>
      if s.runtime = some .installing ∧ s.enabled = true ∧ s.client = none ∧ s.handler = .idle then
        some { s with client := some s.clients, clients := s.clients + 1 }
      else none
  | .abandon =>
      if s.runtime = some .installing then some { s with client := none } else none
  | .release =>
      match s.runtime with
      | some .worker | none => none
      | _ => some { s with runtime := none }

/-- A received message. -/
def Received (m : SmsMessage) : Prop := m.direction = .inbound ∧ m.status = .received

/-- Other tasks change the journal, but not what it protects from pruning; no two
records share an id, and a message that becomes a received one has an id larger than
all before. -/
structure State.Grows (s t : State) : Prop where
  sound : t.journal.Sound
  policy : s.journal.SamePolicy t.journal
  higher : s.highest ≤ t.highest
  bounded : ∀ m, t.journal.Holds m → m.id.toNat ≤ t.highest
  distinct : ∀ m r, t.journal.Holds m → t.journal.Holds r → m.id = r.id → m = r
  received : ∀ m, t.journal.Holds m → Received m →
    s.highest < m.id.toNat ∨ ∃ old, s.journal.Holds old ∧ Received old ∧ old.id = m.id
  rest : t = { s with journal := t.journal, highest := t.highest }

/-- After a restart the cursor is the one in the flash, and `s_config` is zeroed. -/
def State.restart (s : State) : State :=
  { s with
    journal := smsStoreSetReplayWatermark true s.persisted s.journal
    replayCursor := s.persisted
    replayMessageId := 0
    replayPacketId := 0
    connected := false
    client := none
    handler := .idle
    queue := []
    held := none
    runtime := none
    enabled := false
    configured := false }

/-- The gateway with what its worker has still to do. -/
structure Gateway where
  state : State
  rest : MqttM Unit

/-- One step of any task, where only some replies and events occur. -/
inductive Step (replies : (request : MqttCall) → request.Reply → Prop)
    (allowed : State → Event → Prop) : Gateway → Gateway → Prop where
  | call {s t : State} {request : MqttCall} {next : request.Reply → MqttM Unit}
      {reply : request.Reply} (meets : replies request reply)
      (answered : request.Answers s reply t) :
      Step replies allowed ⟨s, .call request next⟩ ⟨t, next reply⟩
  | turn {s : State} : Step replies allowed ⟨s, .done ()⟩ ⟨s, workerTask⟩
  | event {s t : State} {rest : MqttM Unit} {event : Event} (may : allowed s event)
      (happens : event.apply s = some t) : Step replies allowed ⟨s, rest⟩ ⟨t, rest⟩
  | journal {s t : State} {rest : MqttM Unit} (grows : s.Grows t) :
      Step replies allowed ⟨s, rest⟩ ⟨t, rest⟩
  | restart {s : State} {rest : MqttM Unit} : Step replies allowed ⟨s, rest⟩ ⟨s.restart, .done ()⟩

/-- A gateway that has never been connected. -/
def State.initial : State :=
  ⟨.empty, 0, 0, 0, 0, 0, false, none, 0, .idle, [], none, none, false, false, [], []⟩

inductive Reached (replies : (request : MqttCall) → request.Reply → Prop)
    (allowed : State → Event → Prop) : Gateway → Prop where
  | start : Reached replies allowed ⟨.initial, .done ()⟩
  | step {g g' : Gateway} (before : Reached replies allowed g) (step : Step replies allowed g g') :
      Reached replies allowed g'

/-! What goes on next to the worker leaves the cursor as it is. -/

section

variable {s t : State}

/-- The cursor and the journal stay, and acknowledgements are only added. -/
structure State.Same (s t : State) : Prop where
  journal : t.journal.blob = s.journal.blob
  highest : t.highest = s.highest
  persisted : t.persisted = s.persisted
  cursor : t.replayCursor = s.replayCursor
  acknowledged : s.acknowledged ⊆ t.acknowledged

/-- The handler changes the connection and itself. -/
theorem State.handle_eq (notice : Notice) :
    ∃ connected handler, s.handle notice = { s with connected := connected, handler := handler } := by
  cases notice with
  | connected => exact ⟨true, .connecting, rfl⟩
  | disconnected => exact ⟨false, .clearing, rfl⟩
  | published packet => exact ⟨s.connected, _, rfl⟩

/-- What each event needs, and the state that it leads to. -/
inductive Event.Happens (s : State) : Event → State → Prop where
  | notify {notice : Notice} (reports : notice.From s) (idle : s.handler = .idle) :
      Happens s (.notify notice) { s with
        handler := .checked notice, acknowledged := notice.carried ++ s.acknowledged }
  | handle {notice : Notice} (checked : s.handler = .checked notice) :
      Happens s .handle (s.handle notice)
  | cleared (clearing : s.handler = .clearing) :
      Happens s .cleared { s.clearAttempt with handler := .idle }
  | announced {accepted : Bool} (connecting : s.handler = .connecting) :
      Happens s (.queued accepted) { s with
        handler := .idle, queue := if accepted then s.queue ++ [.connected] else s.queue }
  | answered {accepted : Bool} {id : UInt32} (answering : s.handler = .answering id) :
      Happens s (.queued accepted) { s with
        handler := .idle, queue := if accepted then s.queue ++ [.replayAck id] else s.queue }
  | enqueue {work : Work} (other : ∀ id, work ≠ .replayAck id) :
      Happens s (.enqueue work) { s with queue := s.queue ++ [work] }
  | reconfigure (free : s.runtime = none) :
      Happens s .reconfigure { s with runtime := some .reconfigure }
  | farewell {packetId : Int} {client : Nat} (active : s.client = some client)
      (mine : s.runtime = some .reconfigure) :
      Happens s (.farewell packetId) (s.withPacket ⟨client, packetId, none⟩)
  | retire (mine : s.runtime = some .reconfigure) :
      Happens s .retire { s with client := none, connected := false, runtime := some .replacing }
  | configure {enabled : Bool} (mine : s.runtime = some .replacing) (idle : s.handler = .idle) :
      Happens s (.configure enabled) { s with
        enabled := enabled
        configured := true
        journal := smsStoreSetReplayWatermark enabled
          (if enabled then s.replayCursor else uint32Max) s.journal
        runtime := some .installing }
  | install (mine : s.runtime = some .installing) (enabled : s.enabled = true)
      (idle : s.handler = .idle) :
      Happens s .install { s with client := some s.clients, clients := s.clients + 1 }
  | abandon (mine : s.runtime = some .installing) : Happens s .abandon { s with client := none }
  | release (others : s.runtime ≠ some .worker) : Happens s .release { s with runtime := none }

theorem Event.apply_happens {event : Event} (applied : event.apply s = some t) :
    event.Happens s t := by
  cases event with
  | notify notice =>
      obtain ⟨may, ⟨⟩⟩ := Option.ite_none_right_eq_some.mp applied
      exact .notify may.1 may.2
  | handle =>
      simp only [Event.apply] at applied
      split at applied
      · rename_i notice checked
        cases applied
        exact .handle checked
      · cases applied
  | cleared =>
      obtain ⟨clearing, ⟨⟩⟩ := Option.ite_none_right_eq_some.mp applied
      exact .cleared clearing
  | queued accepted =>
      simp only [Event.apply] at applied
      split at applied
      · rename_i connecting
        cases applied
        exact .announced connecting
      · rename_i id answering
        cases applied
        exact .answered answering
      · cases applied
  | enqueue work =>
      cases work with
      | connected | replayAck _ => cases applied
      | data | smsEvent | replay =>
          cases applied
          refine .enqueue ?_
          intro id same
          cases same
  | reconfigure =>
      obtain ⟨free, ⟨⟩⟩ := Option.ite_none_right_eq_some.mp applied
      exact .reconfigure free
  | farewell packetId =>
      simp only [Event.apply] at applied
      split at applied
      · rename_i client active
        obtain ⟨mine, ⟨⟩⟩ := Option.ite_none_right_eq_some.mp applied
        exact .farewell active mine
      · cases applied
  | retire =>
      obtain ⟨mine, ⟨⟩⟩ := Option.ite_none_right_eq_some.mp applied
      exact .retire mine
  | configure enabled =>
      obtain ⟨may, ⟨⟩⟩ := Option.ite_none_right_eq_some.mp applied
      exact .configure may.1 may.2
  | install =>
      obtain ⟨may, ⟨⟩⟩ := Option.ite_none_right_eq_some.mp applied
      exact .install may.1 may.2.1 may.2.2.2
  | abandon =>
      obtain ⟨mine, ⟨⟩⟩ := Option.ite_none_right_eq_some.mp applied
      exact .abandon mine
  | release =>
      simp only [Event.apply] at applied
      split at applied
      · cases applied
      · cases applied
      · rename_i others _
        cases applied
        exact .release others

theorem Event.apply_same {event : Event} (applied : event.apply s = some t) : s.Same t := by
  cases Event.apply_happens applied with
  | notify => exact ⟨rfl, rfl, rfl, rfl, List.subset_append_right _ _⟩
  | @handle notice _ =>
      obtain ⟨connected, handler, equal⟩ := State.handle_eq (s := s) notice
      rw [equal]
      exact ⟨rfl, rfl, rfl, rfl, List.Subset.refl _⟩
  | _ => exact ⟨rfl, rfl, rfl, rfl, List.Subset.refl _⟩

/-- What the others leave while the worker holds the mutex. -/
structure State.Steady (s t : State) : Prop where
  runtime : t.runtime = s.runtime
  client : t.client = s.client
  enabled : t.enabled = s.enabled
  held : t.held = s.held
  packets : t.packets = s.packets
  idle : s.replayMessageId = 0 → t.replayMessageId = 0
  cursor : t.replayCursor = s.replayCursor
  persisted : t.persisted = s.persisted
  acknowledged : s.acknowledged ⊆ t.acknowledged

theorem Event.apply_steady {event : Event} (applied : event.apply s = some t)
    (worker : s.runtime = some .worker) : s.Steady t := by
  have same := Event.apply_same applied
  -- The events of a reconfiguration need the mutex.
  have elsewhere {holder : Holder} (other : holder ≠ .worker) : s.runtime ≠ some holder := by
    rw [worker]
    exact fun equal => other (Option.some.inj equal).symm
  have rest : t.runtime = s.runtime ∧ t.client = s.client ∧ t.enabled = s.enabled ∧
      t.held = s.held ∧ t.packets = s.packets ∧
      (s.replayMessageId = 0 → t.replayMessageId = 0) := by
    cases Event.apply_happens applied with
    | @handle notice _ =>
        obtain ⟨connected, handler, equal⟩ := State.handle_eq (s := s) notice
        rw [equal]
        exact ⟨rfl, rfl, rfl, rfl, rfl, id⟩
    | cleared => exact ⟨rfl, rfl, rfl, rfl, rfl, fun _ => rfl⟩
    | reconfigure free => cases free.symm.trans worker
    | farewell _ mine | retire mine | configure mine _ | install mine _ _ | abandon mine =>
        exact absurd mine (elsewhere (by decide))
    | release others => exact absurd worker others
    | _ => exact ⟨rfl, rfl, rfl, rfl, rfl, id⟩
  obtain ⟨runtime, client, enabled, held, packets, idle⟩ := rest
  exact ⟨runtime, client, enabled, held, packets, idle, same.cursor, same.persisted,
    same.acknowledged⟩

/-- Only the worker takes items from the queue. -/
theorem Event.apply_held {event : Event} (applied : event.apply s = some t) : t.held = s.held := by
  cases Event.apply_happens applied with
  | @handle notice _ =>
      obtain ⟨connected, handler, equal⟩ := State.handle_eq (s := s) notice
      rw [equal]
  | _ => rfl

theorem State.Grows.steady (grows : s.Grows t) : s.Steady t := by
  rw [grows.rest]
  exact ⟨rfl, rfl, rfl, rfl, rfl, id, rfl, rfl, List.Subset.refl _⟩

end

/-! Runs in which every call succeeds. -/

/-- The answer to a call that succeeds, where a publish gets this packet id. -/
def MqttCall.answer (s : State) (packetId : Int) : (request : MqttCall) → request.Reply × State
  | .receive =>
      match s.queue with
      | [] => (none, s)
      | work :: rest => (some work, { s with queue := rest, held := some work })
  | .takeRuntime =>
      if s.runtime = none then (true, { s with runtime := some .worker })
      else (false, { s with held := none })
  | .giveRuntime => ((), { s with runtime := none, held := none })
  | .connected => (s.connected, s)
  | .attempt => ((s.replayMessageId != 0, s.replayCursor), s)
  | .alloc => (true, s)
  | .list afterId => ((smsStoreList afterId 1 (Plan.faultless, s.journal)).1, s)
  | .encode => (true, s)
  | .publish carried =>
      match s.client with
      | some client =>
          if 0 ≤ packetId ∧ s.connected = true then
            (packetId, s.withPacket ⟨client, packetId, carried⟩)
          else (-1, s)
      | none => (-1, s)
  | .publishes => (1, s)
  | .setAttempt messageId packetId =>
      ((), { s with replayMessageId := messageId, replayPacketId := packetId })
  | .finishAttempt messageId =>
      let current := s.replayMessageId == messageId && messageId != 0
      (current, if current then s.clearAttempt else s)
  | .expireAttempt => (false, s)
  | .setU32 messageId => (.ok (), { s with persisted := messageId })
  | .commit => (.ok (), s)
  | .setCursor messageId =>
      ((), { s with
        replayCursor := messageId
        journal := smsStoreSetReplayWatermark true messageId s.journal })

theorem MqttCall.answer_answers (s : State) (packetId : Int) (request : MqttCall) :
    request.Answers s (request.answer s packetId).1 (request.answer s packetId).2 := by
  cases request with
  | receive =>
      cases queue : s.queue with
      | nil => simp [answer, Answers, queue]
      | cons work rest => simp [answer, Answers, queue]
  | takeRuntime =>
      by_cases free : s.runtime = none
      · simp [answer, Answers, free]
      · simp [answer, Answers, free]
  | list afterId => exact ⟨⟨Plan.faultless, rfl⟩, rfl⟩
  | publish carried =>
      cases active : s.client with
      | none => simp [answer, Answers, active]
      | some client =>
          by_cases may : 0 ≤ packetId ∧ s.connected = true
          · simp only [answer, active, if_pos may]
            exact .inr ⟨client, may.1, may.2, active, rfl⟩
          · simp only [answer, active, if_neg may]
            exact .inl ⟨Int.negSucc_lt_zero 0, rfl⟩
  | connected | attempt | finishAttempt _ => exact ⟨rfl, rfl⟩
  | expireAttempt => exact ⟨nofun, rfl⟩
  | giveRuntime | alloc | encode | publishes | setAttempt _ _ | setU32 _ | commit | setCursor _ => rfl

inductive Move where
  | work (packetId : Int)
  | turn
  | event (event : Event)
  deriving DecidableEq, Repr

/-- The gateway after a move; a worker without work has nothing to do. -/
def Gateway.move (may : State → Event → Bool) (g : Gateway) : Move → Option Gateway
  | .work packetId =>
      match g.rest with
      | .call request next =>
          some ⟨(request.answer g.state packetId).2, next (request.answer g.state packetId).1⟩
      | .done _ => some g
  | .turn =>
      match g.rest with
      | .call _ _ => none
      | .done _ => some ⟨g.state, workerTask⟩
  | .event event =>
      if may g.state event then (event.apply g.state).map fun s => ⟨s, g.rest⟩ else none

def Gateway.play (may : State → Event → Bool) (g : Gateway) (moves : List Move) : Option Gateway :=
  moves.foldlM (Gateway.move may) g

theorem Gateway.move_reached {replies : (request : MqttCall) → request.Reply → Prop}
    {allowed : State → Event → Prop} {may : State → Event → Bool}
    (meets : ∀ s packetId request, replies request (request.answer s packetId).1)
    (permits : ∀ s event, may s event = true → allowed s event)
    {g g' : Gateway} (reached : Reached replies allowed g) {move : Move}
    (moved : g.move may move = some g') : Reached replies allowed g' := by
  obtain ⟨s, rest⟩ := g
  cases move with
  | work packetId =>
      cases rest with
      | call request next =>
          cases moved
          exact .step reached (.call (meets s packetId request) (request.answer_answers s packetId))
      | done _ =>
          cases moved
          exact reached
  | turn =>
      cases rest with
      | call request next => cases moved
      | done _ =>
          cases moved
          exact .step reached .turn
  | event event =>
      simp only [Gateway.move] at moved
      split at moved
      · rename_i permitted
        obtain ⟨t, happens, rfl⟩ := Option.map_eq_some_iff.mp moved
        exact .step reached (.event (permits s event permitted) happens)
      · cases moved

theorem Gateway.play_reached {replies : (request : MqttCall) → request.Reply → Prop}
    {allowed : State → Event → Prop} {may : State → Event → Bool}
    (meets : ∀ s packetId request, replies request (request.answer s packetId).1)
    (permits : ∀ s event, may s event = true → allowed s event)
    {g g' : Gateway} (reached : Reached replies allowed g) (moves : List Move)
    (played : g.play may moves = some g') : Reached replies allowed g' := by
  induction moves generalizing g with
  | nil =>
      cases played
      exact reached
  | cons move moves ih =>
      obtain ⟨next, moved, later⟩ := Option.bind_eq_some_iff.mp played
      exact ih (Gateway.move_reached meets permits reached moved) later

/-- The id that the worker is about to write to the flash. -/
def Gateway.storing (g : Gateway) : Option UInt32 :=
  match g.rest with
  | .call (.setU32 messageId) _ => some messageId
  | _ => none

/-- The worker has no item. -/
def Gateway.finished (g : Gateway) : Bool :=
  match g.rest with
  | .call _ _ => false
  | .done _ => true

theorem Gateway.rest_of_finished (g : Gateway) (finished : g.finished = true) :
    g.rest = .done () := by
  simp only [Gateway.finished] at finished
  split at finished
  · cases finished
  · assumption

def firstReceived : SmsMessage := { SmsMessage.zero with id := 1, status := .received }

/-- The gateway with one received message. -/
def arrived : State :=
  { State.initial with
    journal := Store.empty.put ⟨0, by decide⟩ firstReceived
    highest := 1 }

theorem initial_grows : State.initial.Grows arrived := by
  have storable : firstReceived.storable = true := by decide +kernel
  have named : firstReceived.id ≠ 0 := by decide
  have holds (m : SmsMessage) (held : arrived.journal.Holds m) : m = firstReceived := by
    obtain ⟨slot, stored⟩ := held
    simp only [arrived, Store.view_put _ _ storable named, Function.update_apply] at stored
    split at stored
    · exact (Option.some.inj stored).symm
    · cases stored
  refine ⟨Store.sound_empty.put _ storable named, ⟨rfl, rfl⟩, Nat.zero_le _, ?_, ?_, ?_, rfl⟩
  · intro m held
    rw [holds m held]
    decide
  · intro m r here there _
    rw [holds m here, holds r there]
  · intro m held _
    rw [holds m held]
    exact .inl (by decide)

theorem reached_arrived (replies : (request : MqttCall) → request.Reply → Prop)
    (allowed : State → Event → Prop) : Reached replies allowed ⟨arrived, .done ()⟩ :=
  .step .start (.journal initial_grows)

/-- `mqtt_service_reconfigure` with MQTT enabled. -/
def enabling : List Move :=
  [.event .reconfigure, .event .retire, .event (.configure true), .event .install, .event .release]

/-- `mqtt_service_reconfigure` with MQTT disabled. -/
def disabling : List Move :=
  [.event .reconfigure, .event .retire, .event (.configure false), .event .release]

/-- The client connects, and the worker takes up the work. -/
def connecting : List Move :=
  [.event (.notify .connected), .event .handle, .event (.queued true), .turn]

/-- The received message is published as packet 2 of the first client. -/
def attempting : List Move :=
  enabling ++ connecting ++ List.replicate 4 (.work 1) ++ List.replicate 8 (.work 2)

/-- The client reports that publish. -/
def acknowledging : List Move :=
  [.event (.notify (.published ⟨0, 2, some 1⟩)), .event .handle, .event (.queued true)]

end SmsGateway.Mqtt
