import Mathlib.Data.UInt
import SmsGateway.Base
import SmsGateway.Lib.Memory

/-! The payloads that arrive over MQTT in fragments (the data events of
`mqtt_event_handler`): what is queued, and that nothing is written outside `s_rx`. -/

namespace SmsGateway.Mqtt.Fragments

open Lib

def topicMax : Nat := 192

def payloadMax : Nat := 4608

/-- A data event of the client: its topic and data are what the pointers lead to. -/
structure DataEvent where
  topic : List UInt8
  topicLen : Int
  data : List UInt8
  dataLen : Int
  totalDataLen : Int
  currentDataOffset : Int
  retain : Bool
  dup : Bool
  qos : Int
  topicThere : topicLen ≤ topic.length
  dataThere : dataLen ≤ data.length

/-- `mqtt_rx_accumulator_t`. -/
structure Rx where
  topic : List UInt8
  total : Nat
  received : Nat
  retained : Bool
  duplicate : Bool
  qos : Int
  data : List UInt8
  deriving DecidableEq, Repr

/-- The accumulator after its `memset`. -/
def Rx.zero : Rx := ⟨padded topicMax [], 0, 0, false, false, 0, padded (payloadMax + 1) []⟩

/-- A work item of the kind `MQTT_WORK_DATA`, with the terminator behind its payload. -/
structure Work where
  topic : List UInt8
  payloadLen : Nat
  retained : Bool
  duplicate : Bool
  qos : Int
  payload : List UInt8
  deriving DecidableEq, Repr

def Rx.work (rx : Rx) : Work :=
  ⟨rx.topic, rx.total, rx.retained, rx.duplicate, rx.qos, rx.data.take rx.total ++ [0]⟩

/-- An event, whether `work_new` gets its memory and whether the queue has room. -/
structure Call where
  event : DataEvent
  allocated : Bool
  room : Bool

/-- The first fragment clears the accumulator and fills in its heading; nothing when the
handler returns there. -/
def begin (rx : Rx) (event : DataEvent) : Access (Option Rx) := do
  if event.currentDataOffset ≠ 0 then .ok (some rx)
  else if event.topicLen ≤ 0 ∨ event.topicLen ≥ topicMax then .ok none
  else
    let topic ← storeAll Rx.zero.topic 0 (event.topic.take event.topicLen.toNat)
    let topic ← store topic event.topicLen.toNat 0
    .ok (some { Rx.zero with
      topic := topic
      total := event.totalDataLen.toNat
      retained := event.retain
      duplicate := event.dup
      qos := event.qos })

/-- The rest of the handler: the accumulator and the work that is queued. -/
def absorb (rx : Rx) (call : Call) : Access (Rx × Option Work) := do
  let event := call.event
  if event.currentDataOffset.toNat ≠ rx.received ∨ rx.total ≠ event.totalDataLen.toNat ∨
      rx.received + event.dataLen.toNat > rx.total then .ok (.zero, none)
  else
    let data ← storeAll rx.data rx.received (event.data.take event.dataLen.toNat)
    let rx := { rx with data := data, received := rx.received + event.dataLen.toNat }
    if rx.received = rx.total then
      .ok (.zero, if call.allocated ∧ call.room then some rx.work else none)
    else .ok (rx, none)

/-- `mqtt_event_handler` on `MQTT_EVENT_DATA`. -/
def mqttEventHandler (rx : Rx) (call : Call) : Access (Rx × Option Work) := do
  let event := call.event
  if event.totalDataLen ≤ 0 ∨ event.totalDataLen > payloadMax ∨ event.currentDataOffset < 0 ∨
      event.dataLen < 0 then .ok (rx, none)
  else
    match ← begin rx event with
    | none => .ok (.zero, none)
    | some rx => absorb rx call

/-- Event after event: the accumulator and all work that was queued. -/
def run (rx : Rx) : List Call → Access (Rx × List Work)
  | [] => .ok (rx, [])
  | call :: calls => do
      let (rx, work) ← mqttEventHandler rx call
      let (rx, later) ← run rx calls
      .ok (rx, work.toList ++ later)

/-! ## The accumulator between two events -/

/-- The accumulator holds this topic and these bytes of the payload. -/
structure Rx.Holds (rx : Rx) (topic received : List UInt8) : Prop where
  topic : rx.topic = padded topicMax topic
  data : rx.data = padded (payloadMax + 1) received
  counted : rx.received = received.length
  bounded : received.length ≤ rx.total
  fits : rx.total ≤ payloadMax

theorem Rx.holds_zero : Rx.zero.Holds [] [] :=
  ⟨rfl, rfl, rfl, Nat.le_refl _, Nat.zero_le _⟩

/-- The accumulator at the first fragment. -/
def Rx.fresh (event : DataEvent) : Rx :=
  { Rx.zero with
    topic := padded topicMax (event.topic.take event.topicLen.toNat)
    total := event.totalDataLen.toNat
    retained := event.retain
    duplicate := event.dup
    qos := event.qos }

theorem begin_first {rx : Rx} {event : DataEvent} (first : event.currentDataOffset = 0)
    (named : 0 < event.topicLen) (short : event.topicLen < topicMax) :
    begin rx event = .ok (some (Rx.fresh event)) := by
  have there := event.topicThere
  have size : (event.topic.take event.topicLen.toNat).length = event.topicLen.toNat := by
    rw [List.length_take]
    omega
  have room : event.topicLen.toNat < topicMax := by omega
  have copied : storeAll Rx.zero.topic 0 (event.topic.take event.topicLen.toNat) =
      .ok (padded topicMax (event.topic.take event.topicLen.toNat)) :=
    @storeAll_padded UInt8 _ topicMax [] _ (by rw [size, List.length_nil]; omega)
  have ended : store (padded topicMax (event.topic.take event.topicLen.toNat))
      event.topicLen.toNat 0 = .ok (padded topicMax (event.topic.take event.topicLen.toNat)) := by
    have terminated := @store_zero UInt8 _ topicMax (event.topic.take event.topicLen.toNat)
      (by rw [size]; exact room)
    rwa [size] at terminated
  rw [begin, if_neg (by simpa using first), if_neg (by omega), copied]
  simp only [Except.bind, bind, ended]
  rfl

theorem begin_refused {rx : Rx} {event : DataEvent} (first : event.currentDataOffset = 0)
    (unnamed : event.topicLen ≤ 0 ∨ event.topicLen ≥ topicMax) : begin rx event = .ok none := by
  rw [begin, if_neg (by simpa using first), if_pos unnamed]

theorem begin_later {rx : Rx} {event : DataEvent} (later : event.currentDataOffset ≠ 0) :
    begin rx event = .ok (some rx) := by
  rw [begin, if_pos later]

theorem Rx.holds_fresh {event : DataEvent} (fits : event.totalDataLen ≤ payloadMax) :
    (Rx.fresh event).Holds (event.topic.take event.topicLen.toNat) [] :=
  ⟨rfl, rfl, rfl, Nat.zero_le _, by simp only [Rx.fresh]; omega⟩

/-- The accumulator behind one more fragment. -/
def Rx.extended (rx : Rx) (received chunk : List UInt8) : Rx :=
  { rx with
    data := padded (payloadMax + 1) (received ++ chunk)
    received := (received ++ chunk).length }

section

variable {rx : Rx} {call : Call} {topic received chunk : List UInt8}

theorem Rx.Holds.extended (held : rx.Holds topic received)
    (bounded : (received ++ chunk).length ≤ rx.total) :
    (rx.extended received chunk).Holds topic (received ++ chunk) :=
  ⟨held.topic, rfl, rfl, bounded, held.fits⟩

/-- The event goes on where the accumulator stands. -/
structure Continues (rx : Rx) (received chunk : List UInt8) (event : DataEvent) : Prop where
  start : event.currentDataOffset.toNat = received.length
  total : event.totalDataLen.toNat = rx.total
  size : event.dataLen.toNat = chunk.length
  bytes : event.data.take chunk.length = chunk
  bounded : (received ++ chunk).length ≤ rx.total

theorem absorb_continues (held : rx.Holds topic received)
    (continues : Continues rx received chunk call.event) :
    absorb rx call =
      if (received ++ chunk).length = rx.total then
        .ok (.zero, if call.allocated ∧ call.room then some (rx.extended received chunk).work
          else none)
      else .ok (rx.extended received chunk, none) := by
  have bounded := continues.bounded
  have fits := held.fits
  rw [List.length_append] at bounded
  have matching : ¬ (call.event.currentDataOffset.toNat ≠ rx.received ∨
      rx.total ≠ call.event.totalDataLen.toNat ∨
      rx.received + call.event.dataLen.toNat > rx.total) := by
    rw [continues.start, continues.total, continues.size, held.counted]
    omega
  have copied : storeAll rx.data rx.received (call.event.data.take call.event.dataLen.toNat) =
      .ok (padded (payloadMax + 1) (received ++ chunk)) := by
    rw [continues.size, continues.bytes, held.data, held.counted]
    exact storeAll_padded chunk (by omega)
  rw [absorb, if_neg matching, copied]
  simp only [Except.bind, bind, held.counted, continues.size, ← List.length_append]
  rfl

end

/-- Where the guard does not hold, the accumulator is cleared. -/
theorem absorb_mismatch {rx : Rx} {call : Call}
    (mismatch : call.event.currentDataOffset.toNat ≠ rx.received) :
    absorb rx call = .ok (.zero, none) := by
  rw [absorb, if_pos (.inl mismatch)]

theorem absorb_step {rx : Rx} {topic received : List UInt8} (held : rx.Holds topic received)
    (call : Call) :
    ∃ after work topic received, absorb rx call = .ok (after, work) ∧ after.Holds topic received := by
  by_cases matching : call.event.currentDataOffset.toNat ≠ rx.received ∨
      rx.total ≠ call.event.totalDataLen.toNat ∨
      rx.received + call.event.dataLen.toNat > rx.total
  · exact ⟨.zero, none, [], [], by rw [absorb, if_pos matching], Rx.holds_zero⟩
  · have there := call.event.dataThere
    have size : (call.event.data.take call.event.dataLen.toNat).length =
        call.event.dataLen.toNat := by
      rw [List.length_take]
      omega
    have continues : Continues rx received (call.event.data.take call.event.dataLen.toNat)
        call.event := by
      have counted := held.counted
      refine ⟨by omega, by omega, size.symm, by rw [size], ?_⟩
      rw [List.length_append, size]
      omega
    rw [absorb_continues held continues]
    split
    · exact ⟨.zero, _, [], [], rfl, Rx.holds_zero⟩
    · exact ⟨_, none, topic, _, rfl, held.extended continues.bounded⟩

/-- Every event leaves a sound accumulator, and its copies stay inside the arrays. -/
theorem handler_step {rx : Rx} {topic received : List UInt8} (held : rx.Holds topic received)
    (call : Call) :
    ∃ after work topic received, mqttEventHandler rx call = .ok (after, work) ∧
      after.Holds topic received := by
  rw [mqttEventHandler]
  split
  · exact ⟨rx, none, topic, received, rfl, held⟩
  · rename_i valid
    by_cases first : call.event.currentDataOffset = 0
    · by_cases unnamed : call.event.topicLen ≤ 0 ∨ call.event.topicLen ≥ topicMax
      · rw [begin_refused first unnamed]
        exact ⟨.zero, none, [], [], rfl, Rx.holds_zero⟩
      · rw [begin_first first (by omega) (by omega)]
        exact absorb_step (Rx.holds_fresh (by omega)) call
    · rw [begin_later first]
      exact absorb_step held call

theorem run_bounded (calls : List Call) {rx : Rx} {topic received : List UInt8}
    (held : rx.Holds topic received) :
    ∃ after works topic received, run rx calls = .ok (after, works) ∧
      after.Holds topic received := by
  induction calls generalizing rx topic received with
  | nil => exact ⟨rx, [], topic, received, rfl, held⟩
  | cons call calls ih =>
      obtain ⟨next, work, topic, received, stepped, sound⟩ := handler_step held call
      obtain ⟨after, works, topic, received, rest, soundAfter⟩ := ih sound
      refine ⟨after, work.toList ++ works, topic, received, ?_, soundAfter⟩
      rw [run, stepped]
      simp only [Except.bind, bind, rest]

/-! ## Messages in fragments -/

/-- A message of the broker. -/
structure Message where
  topic : List UInt8
  payload : List UInt8
  retained : Bool
  duplicate : Bool
  qos : Int
  deriving DecidableEq, Repr

/-- The work item of a message: its topic in the array of the item, and its payload. -/
def Message.work (message : Message) : Work :=
  ⟨padded topicMax message.topic, message.payload.length, message.retained, message.duplicate,
    message.qos, message.payload ++ [0]⟩

/-- A payload and a topic that fit. -/
def Message.Deliverable (message : Message) : Prop :=
  (1 ≤ message.payload.length ∧ message.payload.length ≤ 4608) ∧
    1 ≤ message.topic.length ∧ message.topic.length ≤ 191

instance (message : Message) : Decidable message.Deliverable :=
  inferInstanceAs (Decidable ((_ ∧ _) ∧ _ ∧ _))

/-- The event of one piece of the payload. Its topic and flags count on the first one. -/
structure Fragment (message : Message) (offset : Nat) (chunk : List UInt8) (event : DataEvent) :
    Prop where
  total : event.totalDataLen = message.payload.length
  start : event.currentDataOffset = offset
  size : event.dataLen = chunk.length
  bytes : event.data.take chunk.length = chunk
  heading : offset = 0 → event.topicLen = message.topic.length ∧
    event.topic.take message.topic.length = message.topic ∧ event.retain = message.retained ∧
    event.dup = message.duplicate ∧ event.qos = message.qos

/-- What is left of a message behind the bytes that were sent: pieces in order, none of them
empty, up to the end of the payload. -/
inductive Delivered (message : Message) : List UInt8 → List DataEvent → Prop where
  | done : Delivered message message.payload []
  | next {sent chunk : List UInt8} {event : DataEvent} {rest : List DataEvent} :
      chunk ≠ [] → Fragment message sent.length chunk event →
      Delivered message (sent ++ chunk) rest → Delivered message sent (event :: rest)

/-- A message as the client delivers it; an empty one may also come as one empty event. -/
def Delivery (message : Message) (events : List DataEvent) : Prop :=
  Delivered message [] events ∨
    message.payload = [] ∧ ∃ event, events = [event] ∧ event.totalDataLen = 0

/-- The memory and the queue give what is asked. -/
def served (event : DataEvent) : Call := ⟨event, true, true⟩

theorem handler_outside {rx : Rx} {event : DataEvent}
    (outside : event.totalDataLen ≤ 0 ∨ event.totalDataLen > payloadMax) :
    mqttEventHandler rx (served event) = .ok (rx, none) := by
  rw [mqttEventHandler, if_pos]
  rcases outside with empty | large
  · exact .inl empty
  · exact .inr (.inl large)

section

variable {message : Message} {sent chunk : List UInt8} {event : DataEvent}
  {events : List DataEvent} {rx : Rx}

theorem Delivered.length_le (delivered : Delivered message sent events) :
    sent.length ≤ message.payload.length := by
  induction delivered with
  | done => exact Nat.le_refl _
  | next nonempty fragment rest ih =>
      rw [List.length_append] at ih
      omega

theorem Delivered.cases (delivered : Delivered message sent events) :
    events = [] ∧ sent = message.payload ∨ events ≠ [] ∧ sent.length < message.payload.length := by
  cases delivered with
  | done => exact .inl ⟨rfl, rfl⟩
  | next nonempty fragment rest =>
      have reaches := rest.length_le
      have grows := List.length_pos_iff.mpr nonempty
      rw [List.length_append] at reaches
      exact .inr ⟨List.cons_ne_nil _ _, by omega⟩

/-- Behind the guard of the handler, with the payload in range. -/
theorem handler_inside (fragment : Fragment message sent.length chunk event)
    (fits : message.payload.length ≤ payloadMax) (filled : 1 ≤ message.payload.length) :
    mqttEventHandler rx (served event) = (do
      match ← begin rx event with
      | none => .ok (.zero, none)
      | some rx => absorb rx (served event)) := by
  have total := fragment.total
  have start := fragment.start
  have size := fragment.size
  rw [mqttEventHandler, if_neg]
  · rfl
  · simp only [served]
    omega

/-- A message that does not fit passes without a trace. -/
theorem run_oversize (delivered : Delivered message sent events)
    (large : message.payload.length > payloadMax) : run rx (events.map served) = .ok (rx, []) := by
  induction delivered with
  | done => rfl
  | next nonempty fragment rest ih =>
      have total := fragment.total
      rw [List.map_cons, run, handler_outside (.inr (by omega))]
      simp only [Except.bind, bind, ih]
      rfl

/-- The later pieces of a message that was refused find an empty accumulator. -/
theorem run_refused (delivered : Delivered message sent events) (later : sent ≠ [])
    (fits : message.payload.length ≤ payloadMax) :
    run .zero (events.map served) = .ok (.zero, []) := by
  induction delivered with
  | done => rfl
  | @next sent chunk event rest nonempty fragment after ih =>
      have behind : sent.length ≠ 0 := by simpa using later
      have reaches := after.length_le
      rw [List.length_append] at reaches
      have start := fragment.start
      have stepped : mqttEventHandler .zero (served event) = .ok (.zero, none) := by
        rw [handler_inside fragment fits (by omega), begin_later (by omega)]
        apply absorb_mismatch
        simp only [served, start, Int.toNat_natCast]
        exact behind
      rw [List.map_cons, run, stepped]
      simp only [Except.bind, bind, ih (by simp [later])]
      rfl

/-- The accumulator in the middle of a message. -/
structure Underway (message : Message) (sent : List UInt8) (rx : Rx) : Prop where
  held : rx.Holds message.topic sent
  total : rx.total = message.payload.length
  retained : rx.retained = message.retained
  duplicate : rx.duplicate = message.duplicate
  qos : rx.qos = message.qos

theorem Underway.continues (underway : Underway message sent rx)
    (fragment : Fragment message sent.length chunk event)
    (bounded : (sent ++ chunk).length ≤ message.payload.length) :
    Continues rx sent chunk event := by
  have total := fragment.total
  have start := fragment.start
  have size := fragment.size
  refine ⟨by omega, ?_, by omega, fragment.bytes, ?_⟩
  · rw [underway.total]
    omega
  · rw [underway.total]
    exact bounded

theorem Underway.extended (underway : Underway message sent rx)
    (bounded : (sent ++ chunk).length ≤ message.payload.length) :
    Underway message (sent ++ chunk) (rx.extended sent chunk) where
  held := underway.held.extended (by rw [underway.total]; exact bounded)
  total := underway.total
  retained := underway.retained
  duplicate := underway.duplicate
  qos := underway.qos

theorem Underway.work (underway : Underway message message.payload rx) :
    rx.work = message.work := by
  have payload : rx.data.take rx.total = message.payload := by
    rw [underway.held.data, underway.total, padded, List.take_left]
  rw [Rx.work, Message.work, payload, underway.held.topic, underway.total, underway.retained,
    underway.duplicate, underway.qos]

/-- One piece behind others: the message is complete, or underway. -/
theorem absorb_underway (underway : Underway message sent rx)
    (fragment : Fragment message sent.length chunk event)
    (bounded : (sent ++ chunk).length ≤ message.payload.length) :
    absorb rx (served event) =
      if (sent ++ chunk).length = message.payload.length then
        .ok (.zero, some (rx.extended sent chunk).work)
      else .ok (rx.extended sent chunk, none) := by
  rw [absorb_continues underway.held (underway.continues fragment bounded), underway.total]
  rfl

/-- The rest of a message, from a step that takes its next piece. -/
theorem run_next {before : Rx} (underway : Underway message sent rx)
    (fragment : Fragment message sent.length chunk event)
    (rest : Delivered message (sent ++ chunk) events)
    (stepped : mqttEventHandler before (served event) = absorb rx (served event))
    (later : events ≠ [] → ∀ rx, Underway message (sent ++ chunk) rx →
      run rx (events.map served) = .ok (.zero, [message.work])) :
    run before ((event :: events).map served) = .ok (.zero, [message.work]) := by
  have bounded := rest.length_le
  have extended := underway.extended bounded
  rw [List.map_cons, run, stepped, absorb_underway underway fragment bounded]
  rcases rest.cases with ⟨rfl, whole⟩ | ⟨more, short⟩
  · rw [if_pos (by rw [whole])]
    rw [whole] at extended
    rw [extended.work]
    rfl
  · rw [if_neg (Nat.ne_of_lt short)]
    simp only [Except.bind, bind, later more _ extended]
    rfl

theorem run_underway (delivered : Delivered message sent events)
    (fits : message.payload.length ≤ payloadMax) (later : sent ≠ []) (more : events ≠ [])
    (rx : Rx) (underway : Underway message sent rx) :
    run rx (events.map served) = .ok (.zero, [message.work]) := by
  induction delivered generalizing rx with
  | done => exact absurd rfl more
  | @next sent chunk event rest nonempty fragment after ih =>
      have behind : sent.length ≠ 0 := by simpa using later
      have reaches := after.length_le
      rw [List.length_append] at reaches
      have start := fragment.start
      apply run_next underway fragment after
      · rw [handler_inside fragment fits (by omega), begin_later (by omega)]
        rfl
      · intro more rx underway
        exact ih (by simp [later]) more rx underway

theorem underway_fresh (fragment : Fragment message 0 chunk event)
    (fits : message.payload.length ≤ payloadMax) : Underway message [] (Rx.fresh event) := by
  obtain ⟨named, topic, retained, duplicate, qos⟩ := fragment.heading rfl
  have total := fragment.total
  have held := @Rx.holds_fresh event (by omega)
  rw [named, Int.toNat_natCast, topic] at held
  exact ⟨held, by simp only [Rx.fresh]; omega, retained, duplicate, qos⟩

/-- A message with a payload in range is queued when its topic fits, and forgotten else. -/
theorem run_first (delivered : Delivered message [] (event :: events))
    (fits : message.payload.length ≤ payloadMax) :
    run rx ((event :: events).map served) =
      .ok (.zero, if message.Deliverable then [message.work] else []) := by
  generalize nothing : ([] : List UInt8) = sent at delivered
  cases delivered with
  | @next _ chunk _ _ nonempty fragment rest =>
      subst nothing
      have reaches := rest.length_le
      have grows := List.length_pos_iff.mpr nonempty
      rw [List.nil_append] at reaches
      have filled : 1 ≤ message.payload.length := by omega
      have first : event.currentDataOffset = 0 := fragment.start
      obtain ⟨named, -⟩ := fragment.heading rfl
      by_cases topic : 1 ≤ message.topic.length ∧ message.topic.length ≤ 191
      · rw [if_pos ⟨⟨filled, fits⟩, topic⟩]
        apply run_next (underway_fresh fragment fits) fragment rest
        · have short : event.topicLen < topicMax := by
            simp only [topicMax]
            omega
          rw [handler_inside fragment fits filled, begin_first first (by omega) short]
          rfl
        · intro more rx underway
          exact run_underway rest fits (by simpa using nonempty) more rx underway
      · have unnamed : event.topicLen ≤ 0 ∨ event.topicLen ≥ topicMax := by
          simp only [topicMax]
          omega
        rw [if_neg fun deliverable => topic deliverable.2, List.map_cons, run,
          handler_inside fragment fits filled, begin_refused first unnamed]
        simp only [Except.bind, bind, run_refused rest (by simpa using nonempty) fits]
        rfl

/-- What one message adds to the queue, from any accumulator. -/
theorem run_delivery (delivery : Delivery message events) (rx : Rx) :
    ∃ after, run rx (events.map served) =
      .ok (after, if message.Deliverable then [message.work] else []) := by
  rcases delivery with delivered | ⟨empty, event, rfl, total⟩
  · by_cases large : message.payload.length > payloadMax
    · have refused : ¬ message.Deliverable := fun deliverable =>
        Nat.not_le.mpr large deliverable.1.2
      rw [if_neg refused]
      exact ⟨rx, run_oversize delivered large⟩
    · cases events with
      | cons event rest => exact ⟨.zero, run_first delivered (Nat.le_of_not_gt large)⟩
      | nil =>
          obtain ⟨-, empty⟩ | ⟨more, -⟩ := delivered.cases
          · have refused : ¬ message.Deliverable := by simp [Message.Deliverable, ← empty]
            rw [if_neg refused]
            exact ⟨rx, rfl⟩
          · exact absurd rfl more
  · have refused : ¬ message.Deliverable := by simp [Message.Deliverable, empty]
    rw [if_neg refused, List.map_singleton, run, handler_outside (.inl (by omega))]
    exact ⟨rx, rfl⟩

end

theorem run_append (front back : List Call) {rx middle after : Rx} {early late : List Work}
    (first : run rx front = .ok (middle, early)) (second : run middle back = .ok (after, late)) :
    run rx (front ++ back) = .ok (after, early ++ late) := by
  induction front generalizing rx early with
  | nil =>
      cases first
      exact second
  | cons call front ih =>
      rw [run] at first
      rw [List.cons_append, run]
      cases stepped : mqttEventHandler rx call with
      | error fault =>
          rw [stepped] at first
          cases first
      | ok pair =>
          rw [stepped] at first
          simp only [Except.bind, bind] at first ⊢
          cases ran : run pair.1 front with
          | error fault =>
              rw [ran] at first
              cases first
          | ok rest =>
              rw [ran] at first
              cases first
              rw [ih ran, List.append_assoc]

theorem run_deliveries (deliveries : List (Message × List DataEvent))
    (delivered : ∀ delivery ∈ deliveries, Delivery delivery.1 delivery.2) (rx : Rx) :
    ∃ after, run rx ((deliveries.flatMap (·.2)).map served) =
      .ok (after, ((deliveries.map (·.1)).filter (·.Deliverable)).map Message.work) := by
  induction deliveries generalizing rx with
  | nil => exact ⟨rx, rfl⟩
  | cons delivery deliveries ih =>
      obtain ⟨middle, first⟩ := run_delivery (delivered delivery List.mem_cons_self) rx
      obtain ⟨after, later⟩ :=
        ih (fun other member => delivered other (List.mem_cons_of_mem _ member)) middle
      refine ⟨after, ?_⟩
      rw [List.flatMap_cons, List.map_append, run_append _ _ first later, List.map_cons,
        List.filter_cons]
      by_cases deliverable : delivery.1.Deliverable
      · simp [deliverable]
      · simp [deliverable]

/-- The queue gets the messages that fit, each once, in order and whole, whatever the
accumulator held before; and after any events at all the accumulator has written nothing
outside its arrays and is not past the announced total. -/
theorem mqtt_payloads_reassembled (deliveries : List (Message × List DataEvent))
    (delivered : ∀ delivery ∈ deliveries, Delivery delivery.1 delivery.2) (rx : Rx)
    (calls : List Call) :
    (∃ after, run rx ((deliveries.flatMap (·.2)).map served) =
      .ok (after, ((deliveries.map (·.1)).filter (·.Deliverable)).map Message.work)) ∧
    ∃ after works, run .zero calls = .ok (after, works) ∧ after.received ≤ after.total ∧
      after.total ≤ payloadMax := by
  obtain ⟨after, works, topic, received, ran, held⟩ := run_bounded calls Rx.holds_zero
  refine ⟨run_deliveries deliveries delivered rx, after, works, ran, ?_, held.fits⟩
  rw [held.counted]
  exact held.bounded

/-- Three bytes on the topic `a`. -/
def threeBytes : Message := ⟨[0x61], [1, 2, 3], true, false, 1⟩

def pieceOf (offset : Nat) (chunk : List UInt8) : DataEvent where
  topic := [0x61]
  topicLen := 1
  data := chunk
  dataLen := chunk.length
  totalDataLen := 3
  currentDataOffset := offset
  retain := true
  dup := false
  qos := 1
  topicThere := by decide
  dataThere := Int.le_refl _

def twoPieces : List DataEvent := [pieceOf 0 [1], pieceOf 1 [2, 3]]

theorem twoPieces_delivered : Delivery threeBytes twoPieces := by
  refine .inl (@Delivered.next _ _ [1] _ _ (by decide) ⟨rfl, rfl, rfl, rfl, fun _ => ?_⟩ ?_)
  · exact ⟨rfl, rfl, rfl, rfl, rfl⟩
  · exact @Delivered.next _ _ [2, 3] _ _ (by decide) ⟨rfl, rfl, rfl, rfl, nofun⟩ .done

theorem mqtt_payloads_reassembled_twoPieces :
    Delivery threeBytes twoPieces ∧
    (∃ after, run .zero (([(threeBytes, twoPieces)].flatMap (·.2)).map served) =
      .ok (after, (([(threeBytes, twoPieces)].map (·.1)).filter (·.Deliverable)).map
        Message.work)) ∧
    ∃ after works, run .zero [served (pieceOf 1 [2, 3])] = .ok (after, works) ∧
      after.received ≤ after.total ∧ after.total ≤ payloadMax := by
  refine ⟨twoPieces_delivered, mqtt_payloads_reassembled [(threeBytes, twoPieces)] ?_ .zero _⟩
  intro delivery member
  rw [List.mem_singleton.mp member]
  exact twoPieces_delivered

end SmsGateway.Mqtt.Fragments
