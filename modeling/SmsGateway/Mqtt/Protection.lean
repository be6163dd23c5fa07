import SmsGateway.Lib.Interference
import SmsGateway.Mqtt.Replay

/-! The journal protects received messages as the MQTT configuration says, unless a
configuration disables MQTT while the acknowledgement of an attempt is on its way. -/

namespace SmsGateway.Mqtt

open Lib Prog

/-- The acknowledgement of the attempt in flight waits for the worker. -/
def State.Confirming (s : State) : Prop :=
  s.replayMessageId ≠ 0 ∧ .replayAck s.replayMessageId ∈ s.held.toList ++ s.queue

instance (s : State) : Decidable s.Confirming :=
  inferInstanceAs (Decidable (s.replayMessageId ≠ 0 ∧ _ ∈ s.held.toList ++ s.queue))

/-- MQTT is not disabled while an acknowledgement waits. -/
def Quiet (s : State) (event : Event) : Prop := event = .configure false → ¬s.Confirming

instance (s : State) (event : Event) : Decidable (Quiet s event) :=
  inferInstanceAs (Decidable (event = .configure false → ¬s.Confirming))

/-- The journal follows the configuration; before the first one MQTT is off. -/
structure State.Follows (s : State) : Prop where
  flag : s.configured = true → s.journal.replayProtectionEnabled = s.enabled
  watermark : s.enabled = true → s.journal.replayWatermark = s.replayCursor
  off : s.enabled = false → s.client = none ∧ s.handler = .idle ∧ ¬s.Confirming
  replacing : s.runtime = some .replacing → s.client = none

/-- Every commit of the run succeeds. -/
def Commits (replies : (request : MqttCall) → request.Reply → Prop) : Prop :=
  ∀ code, ¬replies .commit (.error code)

namespace Protection

/-- What goes on next to the worker. -/
def Others (s t : State) : Prop := (∃ event, Quiet s event ∧ event.apply s = some t) ∨ s.Grows t

/-- What the worker's calls need. -/
def Allowed (s : State) : MqttCall → Prop
  | .setAttempt _ _ | .setCursor _ => s.enabled = true
  | _ => True

variable {s t : State}

theorem follows_grows (follows : s.Follows) (grows : s.Grows t) : t.Follows := by
  obtain ⟨watermark, flag⟩ := grows.policy
  have rest := grows.rest
  generalize t.journal = journal at *
  generalize t.highest = highest at *
  subst rest
  refine ⟨?_, ?_, follows.off, follows.replacing⟩
  · intro configured
    exact flag.symm.trans (follows.flag configured)
  · intro enabled
    exact watermark.symm.trans (follows.watermark enabled)

/-- While there is a client, MQTT is enabled. -/
theorem active (follows : s.Follows) {client : Nat} (here : s.client = some client) :
    s.enabled = true := by
  cases enabled : s.enabled with
  | true => rfl
  | false =>
      rw [(follows.off enabled).1] at here
      cases here

/-- While the client's task is in its handler, MQTT is enabled. -/
theorem busy (follows : s.Follows) (handling : s.handler ≠ .idle) : s.enabled = true := by
  cases enabled : s.enabled with
  | true => rfl
  | false => exact absurd (follows.off enabled).2.1 handling

/-- A change of the variables that an enabled MQTT has. -/
theorem follows_active (follows : s.Follows) (enabled : s.enabled = true) {connected : Bool}
    {handler : Handler} {queue : List Work} {packetId : Int} {messageId : UInt32}
    {acknowledged : List UInt32} :
    State.Follows { s with
      connected := connected, handler := handler, queue := queue
      replayMessageId := messageId, replayPacketId := packetId, acknowledged := acknowledged } :=
  ⟨follows.flag, follows.watermark, fun disabled => absurd (enabled.symm.trans disabled) nofun,
    follows.replacing⟩

theorem event_follows {event : Event} (follows : s.Follows) (quiet : Quiet s event)
    (applied : event.apply s = some t) : t.Follows := by
  cases Event.apply_happens applied with
  | @notify notice reports =>
      refine follows_active follows ?_
      cases notice with
      | connected | disconnected =>
          obtain ⟨client, here⟩ := Option.isSome_iff_exists.mp reports
          exact active follows here
      | published packet => exact active follows reports.1
  | @handle notice checked =>
      obtain ⟨connected, handler, equal⟩ := State.handle_eq (s := s) notice
      rw [equal]
      exact follows_active follows (busy follows (by simp [checked]))
  | cleared clearing => exact follows_active follows (busy follows (by simp [clearing]))
  | announced connecting => exact follows_active follows (busy follows (by simp [connecting]))
  | answered answering => exact follows_active follows (busy follows (by simp [answering]))
  | enqueue other =>
      refine ⟨follows.flag, follows.watermark, ?_, follows.replacing⟩
      intro disabled
      obtain ⟨client, idle, settled⟩ := follows.off disabled
      refine ⟨client, idle, ?_⟩
      rintro ⟨inflight, waiting⟩
      refine settled ⟨inflight, ?_⟩
      simpa [(other s.replayMessageId).symm] using waiting
  | reconfigure => exact ⟨follows.flag, follows.watermark, follows.off, by simp⟩
  | farewell => exact ⟨follows.flag, follows.watermark, follows.off, follows.replacing⟩
  | retire =>
      refine ⟨follows.flag, follows.watermark, ?_, fun _ => rfl⟩
      exact fun disabled => ⟨rfl, (follows.off disabled).2⟩
  | configure mine idle =>
      refine ⟨?_, ?_, ?_, by simp⟩
      · exact fun _ => rfl
      · rintro rfl
        rfl
      · rintro rfl
        exact ⟨follows.replacing mine, idle, quiet rfl⟩
  | install mine enabled =>
      refine ⟨follows.flag, follows.watermark, ?_, ?_⟩
      · intro disabled
        cases enabled.symm.trans disabled
      · intro replacing
        cases mine.symm.trans replacing
  | abandon =>
      exact ⟨follows.flag, follows.watermark, fun disabled => ⟨rfl, (follows.off disabled).2⟩,
        fun _ => rfl⟩
  | release => exact ⟨follows.flag, follows.watermark, follows.off, by simp⟩

/-- No more acknowledgement waits than before, and a client stays if there was none. -/
theorem follows_fewer (follows : s.Follows) {persisted : UInt32} {packetId : Int}
    {messageId : UInt32} {queue : List Work} {held : Option Work} {packets : List Packet}
    {runtime : Option Holder} (replacing : runtime ≠ some .replacing ∨ runtime = s.runtime)
    (fewer : messageId ≠ 0 → .replayAck messageId ∈ held.toList ++ queue → s.Confirming) :
    State.Follows { s with
      persisted := persisted, replayPacketId := packetId, replayMessageId := messageId
      queue := queue, held := held, packets := packets, runtime := runtime } := by
  refine ⟨follows.flag, follows.watermark, ?_, ?_⟩
  · intro disabled
    obtain ⟨client, idle, quiet⟩ := follows.off disabled
    refine ⟨client, idle, ?_⟩
    rintro ⟨inflight, waiting⟩
    exact quiet (fewer inflight waiting)
  · rcases replacing with other | same
    · exact fun here => absurd here other
    · exact fun here => follows.replacing (same ▸ here)

/-- An allowed call of the worker keeps what holds. -/
theorem call_follows {request : MqttCall} {reply : request.Reply} (follows : s.Follows)
    (answers : request.Answers s reply t) (allowed : Allowed s request) : t.Follows := by
  cases request with
  | receive =>
      cases reply with
      | none =>
          obtain ⟨-, rfl⟩ := answers
          exact follows
      | some work =>
          obtain ⟨rest, queue, rfl⟩ := answers
          refine follows_fewer follows (.inr rfl) ?_
          intro inflight waiting
          refine ⟨inflight, List.mem_append_right _ ?_⟩
          rw [queue]
          exact waiting
  | takeRuntime =>
      cases reply with
      | false =>
          obtain rfl : t = { s with held := none } := answers
          exact follows_fewer follows (.inr rfl) fun inflight waiting =>
            ⟨inflight, List.mem_append_right _ waiting⟩
      | true =>
          obtain ⟨-, rfl⟩ := answers
          exact follows_fewer follows (.inl nofun) fun inflight waiting => ⟨inflight, waiting⟩
  | giveRuntime =>
      obtain rfl : t = { s with runtime := none, held := none } := answers
      exact follows_fewer follows (.inl nofun) fun inflight waiting =>
        ⟨inflight, List.mem_append_right _ waiting⟩
  | connected | attempt | list afterId =>
      obtain ⟨-, rfl⟩ := answers
      exact follows
  | alloc | encode | publishes | commit =>
      obtain rfl : t = s := answers
      exact follows
  | publish carried =>
      rcases answers with ⟨-, rfl⟩ | ⟨client, -, -, -, rfl⟩
      · exact follows
      · exact follows_fewer follows (.inr rfl) fun inflight waiting => ⟨inflight, waiting⟩
  | setAttempt messageId packetId =>
      obtain rfl : t = _ := answers
      exact follows_active follows allowed
  | finishAttempt messageId =>
      obtain ⟨-, rfl⟩ := answers
      split
      · exact follows_fewer follows (.inr rfl) fun inflight => absurd rfl inflight
      · exact follows
  | expireAttempt =>
      obtain ⟨-, rfl⟩ := answers
      split
      · exact follows_fewer follows (.inr rfl) fun inflight => absurd rfl inflight
      · exact follows
  | setU32 messageId =>
      cases reply with
      | error e =>
          obtain rfl : t = s := answers
          exact follows
      | ok _ =>
          obtain rfl : t = { s with persisted := messageId } := answers
          exact follows_fewer follows (.inr rfl) fun inflight waiting => ⟨inflight, waiting⟩
  | setCursor messageId =>
      obtain rfl : t = _ := answers
      refine ⟨fun _ => ?_, fun _ => rfl, ?_, follows.replacing⟩
      · exact (show s.enabled = true from allowed).symm
      · exact fun disabled => absurd (allowed.symm.trans disabled) nofun

/-! The worker's own steps. -/

section

variable (replies : (request : MqttCall) → request.Reply → Prop)

/-- What holds while the worker has no item. -/
structure Resting (s : State) : Prop where
  follows : s.Follows
  agrees : Commits replies → s.persisted = s.replayCursor

/-- The worker handles an item. -/
structure Handling (s : State) : Prop where
  resting : Resting replies s
  worker : s.runtime = some .worker

/-- The flash has this cursor, and the journal is about to be told. -/
structure Storing (id : UInt32) (s : State) : Prop where
  follows : s.Follows
  worker : s.runtime = some .worker
  enabled : s.enabled = true
  persisted : s.persisted = id

/-- A call is answered as the run allows. -/
def Answered (s : State) (request : MqttCall) (reply : request.Reply) (t : State) : Prop :=
  replies request reply ∧ request.Answers s reply t

/-- The worker's calls are allowed, and afterwards this holds. -/
abbrev Keeps {α : Type} (post : State → Prop) (task : MqttM α) (s : State) : Prop :=
  Guards Others (Answered replies) Allowed (fun _ => post) task s

end

theorem others_follows (others : Others s t) (follows : s.Follows) : t.Follows := by
  rcases others with ⟨event, quiet, happens⟩ | grows
  · exact event_follows follows quiet happens
  · exact follows_grows follows grows

theorem others_steady (others : Others s t) (worker : s.runtime = some .worker) : s.Steady t := by
  rcases others with ⟨event, -, happens⟩ | grows
  · exact Event.apply_steady happens worker
  · exact grows.steady

variable {replies : (request : MqttCall) → request.Reply → Prop}

theorem stable_resting : Stable Others (Resting replies) := by
  intro s t resting others
  refine ⟨others_follows others resting.follows, fun commits => ?_⟩
  have agrees := resting.agrees commits
  rcases others with ⟨event, -, happens⟩ | grows
  · have same := Event.apply_same happens
    exact same.persisted.trans (agrees.trans same.cursor.symm)
  · rw [grows.rest]
    exact agrees

theorem stable_handling : Stable Others (Handling replies) := by
  intro s t handling others
  exact ⟨stable_resting s t handling.resting others,
    (others_steady others handling.worker).runtime.trans handling.worker⟩

/-- The worker handles an item, and MQTT is enabled. -/
theorem stable_enabled : Stable Others fun s => Handling replies s ∧ s.enabled = true := by
  rintro s t ⟨handling, enabled⟩ others
  refine ⟨stable_handling s t handling others, ?_⟩
  rw [(others_steady others handling.worker).enabled]
  exact enabled

theorem stable_storing (id : UInt32) : Stable Others (Storing id) := by
  intro s t storing others
  have steady := others_steady others storing.worker
  refine ⟨others_follows others storing.follows, steady.runtime.trans storing.worker, ?_,
    steady.persisted.trans storing.persisted⟩
  rw [steady.enabled]
  exact storing.enabled

/-- The worker has taken this item. -/
theorem stable_taken (work : Work) :
    Stable Others fun s => Handling replies s ∧ s.held = some work := by
  rintro s t ⟨handling, held⟩ others
  exact ⟨stable_handling s t handling others,
    (others_steady others handling.worker).held.trans held⟩

/-- A call that moves no cursor and leaves the mutex with the worker. -/
def Plain : MqttCall → Prop
  | .receive | .takeRuntime | .giveRuntime | .setU32 _ | .setCursor _ => False
  | _ => True

theorem plain_handling {request : MqttCall} {reply : request.Reply}
    (handling : Handling replies s) (answers : request.Answers s reply t) (plain : Plain request)
    (allowed : Allowed s request) : Handling replies t := by
  have follows := call_follows handling.resting.follows answers allowed
  have rest : t.persisted = s.persisted ∧ t.replayCursor = s.replayCursor ∧
      t.runtime = s.runtime := by
    cases request with
    | receive | takeRuntime | giveRuntime | setU32 _ | setCursor _ => exact plain.elim
    | publish carried =>
        rcases answers with ⟨-, rfl⟩ | ⟨client, -, -, -, rfl⟩ <;> exact ⟨rfl, rfl, rfl⟩
    | connected | attempt | list _ =>
        obtain ⟨-, rfl⟩ := answers
        exact ⟨rfl, rfl, rfl⟩
    | finishAttempt _ | expireAttempt =>
        obtain ⟨-, rfl⟩ := answers
        split <;> exact ⟨rfl, rfl, rfl⟩
    | alloc | encode | publishes | commit | setAttempt _ _ =>
        obtain rfl : t = _ := answers
        exact ⟨rfl, rfl, rfl⟩
  obtain ⟨persisted, cursor, runtime⟩ := rest
  refine ⟨⟨follows, fun commits => ?_⟩, runtime.trans handling.worker⟩
  rw [persisted, cursor]
  exact handling.resting.agrees commits

/-- The rule for a call that needs nothing. -/
theorem keeps_plain {α : Type} {post : State → Prop} {request : MqttCall}
    {next : request.Reply → MqttM α} (handling : Handling replies s) (plain : Plain request)
    (free : ∀ t, Allowed t request)
    (later : ∀ t reply u, Handling replies u → request.Answers t reply u →
      Keeps replies post (next reply) u) :
    Keeps replies post (ask request >>= next) s := by
  apply Guards.send (Handling replies) stable_handling handling (fun t _ => free t)
  rintro t reply u here ⟨-, answers⟩
  exact later t reply u (plain_handling here answers plain (free t)) answers

theorem keeps_publishOthers (count : Nat) (handling : Handling replies s) :
    Keeps replies (Handling replies) (publishOthers count) s := by
  induction count generalizing s with
  | zero => exact .done stable_handling handling
  | succ count ih =>
      refine keeps_plain handling trivial (fun _ => trivial) ?_
      exact fun _ _ _ here _ => ih here

theorem keeps_announce (handling : Handling replies s) :
    Keeps replies (Handling replies) announce s := by
  refine keeps_plain handling trivial (fun _ => trivial) ?_
  exact fun _ count _ here _ => keeps_publishOthers count here

theorem keeps_publishInboundReplay (message : SmsMessage) (handling : Handling replies s) :
    Keeps replies (Handling replies) (publishInboundReplay message) s := by
  refine keeps_plain handling trivial (fun _ => trivial) ?_
  intro _ encoded t here _
  cases encoded with
  | false => exact .done stable_handling here
  | true =>
      refine keeps_plain here trivial (fun _ => trivial) ?_
      intro t packetId u here answers
      rcases answers with ⟨refused, rfl⟩ | ⟨client, given, -, present, rfl⟩
      · rw [if_pos refused]
        exact .done stable_handling here
      · rw [if_neg (Int.not_lt.mpr given)]
        refine Guards.send _ stable_enabled ⟨here, ?_⟩ (fun _ now => now.2) ?_
        · exact active here.resting.follows present
        · rintro v _ w ⟨here, enabled⟩ ⟨-, answers⟩
          exact .done stable_handling (plain_handling here answers trivial enabled)

theorem keeps_replayScan (rounds : Nat) (scan : UInt32) (handling : Handling replies s) :
    Keeps replies (Handling replies) (replayScan rounds scan) s := by
  induction rounds generalizing scan s with
  | zero => exact .done stable_handling handling
  | succ rounds ih =>
      refine keeps_plain handling trivial (fun _ => trivial) ?_
      intro _ allocated t here _
      cases allocated with
      | false => exact .done stable_handling here
      | true =>
          refine keeps_plain here trivial (fun _ => trivial) ?_
          intro _ listed u here _
          split
          · exact .done stable_handling here
          · exact .done stable_handling here
          · rename_i message _ _
            split
            · apply Guards.bind
              apply Guards.mono _ (keeps_publishInboundReplay message here)
              exact fun _ v working => .done stable_handling working
            · exact ih message.id here

theorem keeps_replayNextInbound (handling : Handling replies s) :
    Keeps replies (Handling replies) replayNextInbound s := by
  refine keeps_plain handling trivial (fun _ => trivial) ?_
  intro _ connected t here _
  cases connected with
  | false => exact .done stable_handling here
  | true =>
      refine keeps_plain here trivial (fun _ => trivial) ?_
      intro _ reply u here _
      dsimp only
      split
      · exact .done stable_handling here
      · exact keeps_replayScan _ _ here

theorem keeps_replayCursorStore (id : UInt32) (handling : Handling replies s)
    (enabled : s.enabled = true) :
    Keeps replies (Handling replies) (replayCursorStore id) s := by
  apply Guards.send _ stable_enabled ⟨handling, enabled⟩ (fun _ _ => trivial)
  rintro t reply u ⟨here, enabled⟩ ⟨-, answers⟩
  have follows := call_follows here.resting.follows answers trivial
  cases reply with
  | error e =>
      obtain rfl : u = t := answers
      exact .done stable_handling here
  | ok _ =>
      obtain rfl : u = { t with persisted := id } := answers
      apply Guards.send (Storing id) (stable_storing id) ⟨follows, here.worker, enabled, rfl⟩
        (fun _ _ => trivial)
      rintro v committed w storing ⟨meets, (rfl : w = v)⟩
      cases committed with
      | error e =>
          exact .done stable_handling
            ⟨⟨storing.follows, fun commits => absurd meets (commits e)⟩, storing.worker⟩
      | ok _ =>
          refine Guards.send (Storing id) (stable_storing id) storing (fun _ now => now.enabled) ?_
          rintro v _ x storing ⟨-, answers⟩
          have follows := call_follows storing.follows answers storing.enabled
          obtain rfl : x = _ := answers
          exact .done stable_handling ⟨⟨follows, fun _ => storing.persisted⟩, storing.worker⟩

theorem keeps_handleReplayAck (id : UInt32) (handling : Handling replies s)
    (held : s.held = some (.replayAck id)) :
    Keeps replies (Handling replies) (handleReplayAck id) s := by
  apply Guards.send _ (stable_taken (.replayAck id)) ⟨handling, held⟩ (fun _ _ => trivial)
  rintro t current u ⟨here, held⟩ ⟨-, answers⟩
  have next := plain_handling here answers trivial trivial
  obtain ⟨matched, rfl⟩ := answers
  cases current with
  | false => exact .done stable_handling next
  | true =>
      have matched := Bool.and_eq_true_iff.mp matched.symm
      have same : t.replayMessageId = id := beq_iff_eq.mp matched.1
      -- The worker holds an acknowledgement of the attempt, so MQTT is enabled.
      have confirming : t.Confirming := by
        constructor
        · rw [same]
          exact bne_iff_ne.mp matched.2
        · rw [same, held]
          exact List.mem_append_left _ (List.mem_singleton_self _)
      have enabled : t.enabled = true := by
        cases enabled : t.enabled with
        | true => rfl
        | false => exact absurd confirming (here.resting.follows.off enabled).2.2
      apply Guards.bind
      apply Guards.mono _ (keeps_replayCursorStore id next enabled)
      intro result v working
      cases result with
      | error e => exact .done stable_handling working
      | ok _ => exact keeps_replayNextInbound working

theorem keeps_replayWatchdog (handling : Handling replies s) :
    Keeps replies (Handling replies) replayWatchdog s := by
  refine keeps_plain handling trivial (fun _ => trivial) ?_
  intro _ expired t here _
  cases expired with
  | false => exact .done stable_handling here
  | true => exact keeps_replayNextInbound here

theorem keeps_handleWork (work : Work) (handling : Handling replies s)
    (held : s.held = some work) : Keeps replies (Handling replies) (handleWork work) s := by
  cases work with
  | connected =>
      apply Guards.bind
      exact Guards.mono (fun _ _ => keeps_replayNextInbound) (keeps_announce handling)
  | data => exact keeps_announce handling
  | smsEvent => exact keeps_announce handling
  | replay => exact keeps_replayNextInbound handling
  | replayAck id => exact keeps_handleReplayAck id handling held

theorem keeps_giveRuntime (handling : Handling replies s) :
    Keeps replies (Resting replies) (ask .giveRuntime) s := by
  apply Guards.call (Handling replies) stable_handling handling (fun _ _ => trivial)
  rintro t _ u here ⟨-, answers⟩
  have follows := call_follows here.resting.follows answers trivial
  obtain rfl : u = _ := answers
  exact .done stable_resting ⟨follows, here.resting.agrees⟩

/-- Only the worker changes what it holds. -/
theorem stable_received (work : Work) :
    Stable Others fun s => Resting replies s ∧ s.held = some work := by
  rintro s t ⟨resting, held⟩ others
  refine ⟨stable_resting s t resting others, ?_⟩
  rcases others with ⟨event, -, happens⟩ | grows
  · exact (Event.apply_held happens).trans held
  · exact grows.steady.held.trans held

theorem keeps_workerTask (resting : Resting replies s) :
    Keeps replies (Resting replies) workerTask s := by
  apply Guards.send _ stable_resting resting (fun _ _ => trivial)
  rintro t received u here ⟨-, answers⟩
  have follows := call_follows here.follows answers trivial
  cases received with
  | some work =>
      obtain ⟨rest, queue, rfl⟩ := answers
      apply Guards.send _ (stable_received work) ⟨⟨follows, here.agrees⟩, rfl⟩ (fun _ _ => trivial)
      rintro v taken w ⟨here, held⟩ ⟨-, answers⟩
      have follows := call_follows here.follows answers trivial
      cases taken with
      | false =>
          obtain rfl : w = { v with held := none } := answers
          exact .done stable_resting ⟨follows, here.agrees⟩
      | true =>
          obtain ⟨-, rfl⟩ := answers
          apply Guards.bind
          exact Guards.mono (fun _ _ => keeps_giveRuntime)
            (keeps_handleWork work ⟨⟨follows, here.agrees⟩, rfl⟩ held)
  | none =>
      obtain ⟨-, rfl⟩ := answers
      apply Guards.send _ stable_resting here (fun _ _ => trivial)
      rintro v connected w here ⟨-, -, rfl⟩
      cases connected with
      | false => exact .done stable_resting here
      | true =>
          apply Guards.send _ stable_resting here (fun _ _ => trivial)
          rintro v taken w here ⟨-, answers⟩
          have follows := call_follows here.follows answers trivial
          cases taken with
          | false =>
              obtain rfl : w = { v with held := none } := answers
              exact .done stable_resting ⟨follows, here.agrees⟩
          | true =>
              obtain ⟨-, rfl⟩ := answers
              apply Guards.bind
              apply Guards.mono _ (keeps_replayWatchdog ⟨⟨follows, here.agrees⟩, rfl⟩)
              intro _ x working
              apply Guards.bind
              apply Guards.mono _ (keeps_replayNextInbound working)
              intro _ x working
              apply Guards.bind
              exact Guards.mono (fun _ _ => keeps_giveRuntime) (keeps_announce working)

/-! Whole runs. -/

theorem restart_resting (s : State) : Resting replies s.restart :=
  ⟨⟨nofun, nofun, fun _ => ⟨rfl, rfl, fun confirming => confirming.1 rfl⟩, nofun⟩, fun _ => rfl⟩

theorem initial_resting : Resting replies State.initial :=
  ⟨⟨nofun, nofun, fun _ => ⟨rfl, rfl, fun confirming => confirming.1 rfl⟩, nofun⟩, fun _ => rfl⟩

/-- What every quiet run keeps. -/
def Kept (replies : (request : MqttCall) → request.Reply → Prop) (g : Gateway) : Prop :=
  g.state.Follows ∧ Keeps replies (Resting replies) g.rest g.state

theorem step_kept {g g' : Gateway} (step : Step replies Quiet g g') (kept : Kept replies g) :
    Kept replies g' := by
  cases step with
  | call meets answered =>
      obtain ⟨may, later⟩ := kept.2 _ .refl
      exact ⟨call_follows kept.1 answered may, later _ _ ⟨meets, answered⟩⟩
  | turn => exact ⟨kept.1, keeps_workerTask (kept.2 _ .refl)⟩
  | event may happens =>
      exact ⟨event_follows kept.1 may happens, kept.2.after (.inl ⟨_, may, happens⟩)⟩
  | journal grows => exact ⟨follows_grows kept.1 grows, kept.2.after (.inr grows)⟩
  | @restart s _ =>
      have resting := @restart_resting replies s
      exact ⟨resting.follows, .done stable_resting resting⟩

theorem reached_kept {g : Gateway} (reached : Reached replies Quiet g) : Kept replies g := by
  induction reached with
  | start =>
      have resting := @initial_resting replies
      exact ⟨resting.follows, .done stable_resting resting⟩
  | step _ step ih => exact step_kept step ih

end Protection

/-- In every run in which MQTT is not disabled while an acknowledgement waits, once a
configuration is installed, the journal's protection is on if and only if MQTT is, and its
watermark is the replay cursor, between two items of the worker the one in the flash. -/
theorem protection_follows {replies : (request : MqttCall) → request.Reply → Prop} {g : Gateway}
    (reached : Reached replies Quiet g) (configured : g.state.configured = true) :
    g.state.journal.replayProtectionEnabled = g.state.enabled ∧
    (g.state.enabled = true → g.state.journal.replayWatermark = g.state.replayCursor ∧
      (Commits replies → g.rest = .done () →
        g.state.journal.replayWatermark = g.state.persisted)) := by
  obtain ⟨follows, rest⟩ := Protection.reached_kept reached
  refine ⟨follows.flag configured, ?_⟩
  intro enabled
  have watermark := follows.watermark enabled
  refine ⟨watermark, ?_⟩
  intro commits finished
  rw [finished] at rest
  exact watermark.trans ((rest _ .refl).agrees commits).symm

/-- The replies of a flash whose commits succeed. -/
def Committing : (request : MqttCall) → request.Reply → Prop
  | .commit, .error _ => False
  | _, _ => True

/-- The received message is acknowledged while MQTT is enabled. -/
theorem protection_follows_acknowledged : ∃ g, Reached Committing Quiet g ∧
    g.state.enabled = true ∧ g.state.persisted = 1 ∧
    g.state.journal.replayProtectionEnabled = true ∧ g.state.journal.replayWatermark = 1 := by
  let moves := attempting ++ acknowledging ++ [.turn] ++ List.replicate 12 (.work 3)
  let facts (g : Gateway) := (g.state.configured, g.state.enabled, g.state.persisted, g.finished)
  have played : ((⟨arrived, .done ()⟩ : Gateway).play (fun s event => decide (Quiet s event))
      moves).map facts = some (true, true, 1, true) := by decide +kernel
  obtain ⟨g, played, same⟩ := Option.map_eq_some_iff.mp played
  obtain ⟨configured, enabled, persisted, finished⟩ : g.state.configured = true ∧
      g.state.enabled = true ∧ g.state.persisted = 1 ∧ g.finished = true := by
    simpa only [facts, Prod.mk.injEq] using same
  have reached : Reached Committing Quiet g := by
    refine Gateway.play_reached ?_ (fun _ _ => of_decide_eq_true) (reached_arrived _ _) moves played
    intro s packetId request
    cases request <;> trivial
  obtain ⟨protects, follows⟩ := protection_follows reached configured
  have watermark := (follows enabled).2 (fun _ => id) (g.rest_of_finished finished)
  exact ⟨g, reached, enabled, persisted, protects.trans enabled, watermark.trans persisted⟩

/-- MQTT is disabled while the acknowledgement of the received message waits. -/
theorem protection_left_on : ∃ g, Reached (fun _ _ => True) (fun _ _ => True) g ∧
    g.rest = .done () ∧ g.state.configured = true ∧ g.state.enabled = false ∧
    g.state.journal.replayProtectionEnabled = true := by
  let moves := attempting ++ acknowledging ++ disabling ++ [.turn] ++ List.replicate 12 (.work 3)
  let facts (g : Gateway) := (g.finished, g.state.configured, g.state.enabled,
    g.state.journal.replayProtectionEnabled)
  have played : ((⟨arrived, .done ()⟩ : Gateway).play (fun _ _ => true) moves).map facts =
      some (true, true, false, true) := by decide +kernel
  obtain ⟨g, played, same⟩ := Option.map_eq_some_iff.mp played
  obtain ⟨finished, configured, enabled, protects⟩ : g.finished = true ∧
      g.state.configured = true ∧ g.state.enabled = false ∧
        g.state.journal.replayProtectionEnabled = true := by
    simpa only [facts, Prod.mk.injEq] using same
  refine ⟨g, ?_, g.rest_of_finished finished, configured, enabled, protects⟩
  exact Gateway.play_reached (fun _ _ _ => trivial) (fun _ _ _ => trivial) (reached_arrived _ _)
    moves played

end SmsGateway.Mqtt
