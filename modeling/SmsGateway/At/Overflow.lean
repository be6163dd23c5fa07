import SmsGateway.At.Runs
import SmsGateway.Lib.Interference

/-! The receive queue between the transport and the worker: what an overflow can do
to a running attempt. -/

namespace SmsGateway.At

open Lib

def rxQueueDepth : Nat := 20

def rxChunkSize : Nat := 256

/-- The chunks of one call of `at_engine_feed_rx`. -/
def rxChunks (data : List UInt8) : List (List UInt8) :=
  if _filled : data = [] then [] else data.take rxChunkSize :: rxChunks (data.drop rxChunkSize)
termination_by data.length
decreasing_by
  have positive := List.length_pos_iff.mpr _filled
  rw [List.length_drop, rxChunkSize]
  omega

/-- A chunk and its place among all chunks that were fed, dropped ones included. -/
structure Chunk where
  index : Nat
  bytes : List UInt8
  deriving DecidableEq, Repr

inductive Item where
  | data (chunk : Chunk)
  | transportLost
  | cancel
  deriving DecidableEq, Repr

def Item.event : Item → RxEvent
  | .data chunk => .data chunk.bytes
  | .transportLost => .transportLost
  | .cancel => .cancel

def Item.chunk : Item → Option Chunk
  | .data chunk => some chunk
  | .transportLost | .cancel => none

/-- Where the task is that calls `at_engine_feed_rx`: outside it, with chunks still to
send, or between a refused chunk and the new epoch. -/
inductive Feeder where
  | idle
  | sending (chunk : List UInt8) (rest : List (List UInt8))
  | overflowed
  deriving DecidableEq, Repr

def Feeder.ofChunks : List (List UInt8) → Feeder
  | [] => .idle
  | chunk :: rest => .sending chunk rest

/-- What the tasks share. `rx_overflow_epoch` is the number of overflows that were
recorded, modulo `2 ^ 32`. The last four fields are no variables of the engine: all
chunks fed so far, those the current attempt has received, and the overflows that were
recorded when it sampled the epoch and when the worker last read it. -/
structure Shared where
  queue : List Item
  overflows : Nat
  lostEpoch : UInt32
  cancelEpoch : UInt32
  feeder : Feeder
  stream : List Chunk
  consumed : List Chunk
  sampled : Nat
  lastRead : Nat
  deriving DecidableEq, Repr

namespace Shared

def initial : Shared := ⟨[], 0, 0, 0, .idle, [], [], 0, 0⟩

/-- The chunks in the queue. -/
def queued (s : Shared) : List Chunk := s.queue.filterMap Item.chunk

/-- The chunks numbered from the end of the stream. -/
def number (s : Shared) (chunks : List (List UInt8)) : List Chunk :=
  chunks.mapIdx fun i bytes => ⟨s.stream.length + i, bytes⟩

/-- A step of another task: one of `at_engine_feed_rx`, which is called, has a chunk
accepted, has it refused by a full queue and drops the rest of the call, or records the
overflow; or one half of a transport-lost or cancel notification. -/
inductive Interferes (s : Shared) : Shared → Prop where
  | call (data : List UInt8) (free : s.feeder = .idle) :
      Interferes s { s with feeder := .ofChunks (rxChunks data) }
  | accepted {chunk : List UInt8} {rest : List (List UInt8)} (sends : s.feeder = .sending chunk rest)
      (room : s.queue.length < rxQueueDepth) :
      Interferes s { s with
        queue := s.queue ++ [.data ⟨s.stream.length, chunk⟩]
        stream := s.stream ++ [⟨s.stream.length, chunk⟩]
        feeder := .ofChunks rest }
  | refused {chunk : List UInt8} {rest : List (List UInt8)} (sends : s.feeder = .sending chunk rest)
      (full : rxQueueDepth ≤ s.queue.length) :
      Interferes s { s with
        stream := s.stream ++ s.number (chunk :: rest)
        feeder := .overflowed }
  | recorded (pending : s.feeder = .overflowed) :
      Interferes s { s with overflows := s.overflows + 1, feeder := .idle }
  | lostEpoch : Interferes s { s with lostEpoch := s.lostEpoch + 1 }
  | cancelEpoch : Interferes s { s with cancelEpoch := s.cancelEpoch + 1 }
  | notified {item : Item} (control : item.chunk = none) (room : s.queue.length < rxQueueDepth) :
      Interferes s { s with queue := item :: s.queue }

/-- What the worker is answered, inside an attempt or outside. The read of the
epoch outside one is the sample with which the attempt starts; the command is written
after it and before the first chunk is received. -/
def Answers (inAttempt : Bool) (s : Shared) :
    (request : AtCall) → request.Reply → Shared → Prop
  | .overflowEpoch, reply, t =>
      reply = UInt32.ofNat s.overflows ∧
        t = if inAttempt then { s with lastRead := s.overflows }
          else { s with lastRead := s.overflows, sampled := s.overflows, consumed := [] }
  | .transportLostEpoch, reply, t => reply = s.lostEpoch ∧ t = s
  | .cancelEpoch, reply, t => reply = s.cancelEpoch ∧ t = s
  | .receiveRx _, reply, t =>
      reply = s.queue.head?.map Item.event ∧
        t = { s with
          queue := s.queue.tail
          consumed := if inAttempt then s.consumed ++ (s.queue.head?.bind Item.chunk).toList
            else s.consumed }
  | .token _, _, t | .queueUrc _, _, t | .isReady, _, t | .write _, _, t | .time, _, t
  | .receiveRequest, _, t | .complete _, _, t => t = s

/-- What a call of the worker must find for an attempt to notice every overflow:
no overflow that is not recorded yet when it receives a chunk, no queued chunk that is
older than a dropped one when it samples the epoch, and less than a whole round of the
epoch since it last read it. -/
def Orderly (inAttempt : Bool) (s : Shared) : AtCall → Prop
  | .overflowEpoch =>
      if inAttempt then s.overflows < s.lastRead + 2 ^ 32 else s.queued <:+ s.stream
  | .receiveRx _ => inAttempt = true → s.feeder ≠ .overflowed
  | _ => True

instance (inAttempt : Bool) (s : Shared) : (call : AtCall) → Decidable (Orderly inAttempt s call)
  | .overflowEpoch => by
      unfold Orderly
      infer_instance
  | .receiveRx _ => inferInstanceAs (Decidable (inAttempt = true → s.feeder ≠ .overflowed))
  | .token _ | .queueUrc _ | .isReady | .write _ | .transportLostEpoch | .cancelEpoch | .time
  | .receiveRequest | .complete _ => inferInstanceAs (Decidable True)

/-- Less than a whole round of the epoch since the worker last read it. -/
def Unwrapped (_inAttempt : Bool) (s : Shared) (_call : AtCall) : Prop :=
  s.overflows < s.lastRead + 2 ^ 32

instance (inAttempt : Bool) (s : Shared) (call : AtCall) : Decidable (Unwrapped inAttempt s call) :=
  inferInstanceAs (Decidable (_ < _))

end Shared

def Worker.inAttempt : Worker → Bool
  | .attempting _ _ => true
  | .idle _ | .draining _ _ _ _ => false

/-- The engine: the worker as its pass began, and what is left of the pass. -/
structure System where
  shared : Shared
  worker : Worker
  rest : AtM Worker

def System.initial : System := ⟨.initial, .idle .init, Worker.pass (.idle .init)⟩

/-- `System.Reached allowed s`: steps of the tasks in any order lead to `s`, where each
call of the worker finds what `allowed` says. -/
inductive System.Reached (allowed : Bool → Shared → AtCall → Prop) : System → Prop where
  | start : System.Reached allowed .initial
  | other {s : System} {t : Shared} (before : System.Reached allowed s)
      (interferes : s.shared.Interferes t) : System.Reached allowed { s with shared := t }
  | call {s : System} {request : AtCall} {next : request.Reply → AtM Worker}
      {reply : request.Reply} {t : Shared} (before : System.Reached allowed s)
      (rest : s.rest = .call request next) (may : allowed s.worker.inAttempt s.shared request)
      (answers : Shared.Answers s.worker.inAttempt s.shared request reply t) :
      System.Reached allowed { s with shared := t, rest := next reply }
  | pass {s : System} {w : Worker} (before : System.Reached allowed s) (rest : s.rest = .done w) :
      System.Reached allowed { s with worker := w, rest := w.pass }

/-- `execute_attempt` is about to return this result: its loop ends because the
transaction is done. -/
def System.Returns (s : System) (result : AtResult) : Prop :=
  ∃ number attempt, s.rest = .done (.attempting number attempt) ∧
    attempt.transaction.done = true ∧ attempt.transaction.response.result = result

namespace Shared

/-- No overflow since the attempt sampled the epoch. -/
def Clean (s : Shared) : Prop := s.overflows = s.sampled ∧ s.feeder ≠ .overflowed

/-- The received chunks and the queued ones are one piece of the stream, at its end
unless a full queue has refused a chunk; or nothing is received yet. -/
def Joined (s : Shared) : Prop :=
  (¬ s.Clean ∧ s.consumed = []) ∨
    ∃ before after, s.stream = before ++ s.consumed ++ s.queued ++ after ∧
      (s.Clean → after = []) ∧ (¬ s.Clean → rxQueueDepth ≤ s.queue.length)

/-- The ghosts of an attempt with `n` overflows at its start. -/
structure Sampled (n : Nat) (s : Shared) : Prop where
  fed : ∀ chunk ∈ s.queued, chunk ∈ s.stream
  sample : s.sampled = n
  behind : n ≤ s.overflows
  read : s.lastRead = n

/-- Before the chunk of a pass: the next one is the right one. -/
def Armed (n : Nat) (s : Shared) : Prop := s.Sampled n ∧ s.Joined

/-- After it: what was received is one piece. -/
def Loose (n : Nat) (s : Shared) : Prop :=
  s.Sampled n ∧ s.consumed <:+: s.stream ∧ (s.overflows = n → s.Joined)

def Fed (s : Shared) : Prop := ∀ chunk ∈ s.queued, chunk ∈ s.stream

theorem Joined.piece {s : Shared} (joined : s.Joined) : s.consumed <:+: s.stream := by
  rcases joined with ⟨-, none⟩ | ⟨before, after, equal, -⟩
  · rw [none]
    exact List.nil_infix
  · exact ⟨before, s.queued ++ after, by rw [equal]; simp⟩

theorem Armed.loose {n : Nat} {s : Shared} (armed : s.Armed n) : s.Loose n :=
  ⟨armed.1, armed.2.piece, fun _ => armed.2⟩

theorem queued_control {s : Shared} {item : Item} (control : item.chunk = none) :
    ({ s with queue := item :: s.queue } : Shared).queued = s.queued := by
  simp [queued, control]

theorem queued_accepted (s : Shared) (chunk : Chunk) (stream : List Chunk) (feeder : Feeder) :
    ({ s with queue := s.queue ++ [.data chunk], stream := stream, feeder := feeder } : Shared).queued =
      s.queued ++ [chunk] := by
  simp [queued, Item.chunk]

theorem Fed.interferes {s t : Shared} (fed : s.Fed) (interferes : s.Interferes t) : t.Fed := by
  cases interferes with
  | call | recorded | lostEpoch | cancelEpoch => exact fed
  | accepted sends room =>
      intro chunk member
      rw [queued_accepted, List.mem_append, List.mem_singleton] at member
      rcases member with member | rfl
      · exact List.mem_append_left _ (fed chunk member)
      · exact List.mem_append_right _ List.mem_cons_self
  | refused sends full =>
      intro chunk member
      exact List.mem_append_left _ (fed chunk member)
  | notified control room =>
      intro chunk member
      rw [queued_control control] at member
      exact fed chunk member

theorem Interferes.stream {s t : Shared} (interferes : s.Interferes t) : s.stream <+: t.stream := by
  cases interferes with
  | call | recorded | lostEpoch | cancelEpoch | notified => exact List.prefix_rfl
  | accepted sends room => exact List.prefix_append _ _
  | refused sends full => exact List.prefix_append _ _

/-- The other tasks leave the ghosts of the attempt alone and only record more
overflows. -/
theorem Interferes.ghosts {s t : Shared} (interferes : s.Interferes t) :
    t.consumed = s.consumed ∧ t.sampled = s.sampled ∧ t.lastRead = s.lastRead ∧
      s.overflows ≤ t.overflows := by
  cases interferes <;> simp

theorem Sampled.interferes {n : Nat} {s t : Shared} (sampled : s.Sampled n)
    (interferes : s.Interferes t) : t.Sampled n := by
  obtain ⟨-, sample, read, more⟩ := interferes.ghosts
  exact ⟨Fed.interferes sampled.fed interferes, sample.trans sampled.sample,
    sampled.behind.trans more, read.trans sampled.read⟩

theorem clean_ofChunks {s : Shared} {chunks : List (List UInt8)}
    (sends : s.feeder ≠ .overflowed) :
    ({ s with feeder := .ofChunks chunks } : Shared).Clean ↔ s.Clean := by
  cases chunks <;> simp [Clean, Feeder.ofChunks, sends]

/-- A chunk is only accepted where nothing was refused since the last one received. -/
theorem Joined.accepted {s : Shared} {chunk : List UInt8} {rest : List (List UInt8)}
    (joined : s.Joined) (sends : s.feeder = .sending chunk rest)
    (room : s.queue.length < rxQueueDepth) :
    Joined { s with
      queue := s.queue ++ [.data ⟨s.stream.length, chunk⟩]
      stream := s.stream ++ [⟨s.stream.length, chunk⟩]
      feeder := .ofChunks rest } := by
  have clean : Clean { s with
      queue := s.queue ++ [.data ⟨s.stream.length, chunk⟩]
      stream := s.stream ++ [⟨s.stream.length, chunk⟩]
      feeder := .ofChunks rest } ↔ s.Clean :=
    clean_ofChunks (by simp [sends])
  rcases joined with ⟨unclean, none⟩ | ⟨before, after, equal, tight, full⟩
  · exact .inl ⟨fun now => unclean (clean.mp now), none⟩
  · have now : s.Clean := by
      by_contra unclean
      exact Nat.not_lt.mpr (full unclean) room
    refine .inr ⟨before, [], ?_, fun _ => rfl, fun unclean => absurd (clean.mpr now) unclean⟩
    rw [queued_accepted]
    simp only [equal, tight now, List.append_nil, List.append_assoc]

theorem Joined.refused {s : Shared} (joined : s.Joined) (full : rxQueueDepth ≤ s.queue.length)
    (dropped : List Chunk) :
    Joined { s with stream := s.stream ++ dropped, feeder := .overflowed } := by
  have unclean : ¬ Clean { s with stream := s.stream ++ dropped, feeder := .overflowed } :=
    fun clean => clean.2 rfl
  rcases joined with ⟨-, none⟩ | ⟨before, after, equal, -⟩
  · exact .inl ⟨unclean, none⟩
  · refine .inr ⟨before, after ++ dropped, ?_, fun clean => absurd clean unclean, fun _ => full⟩
    simp only [equal, queued, List.append_assoc]

theorem Joined.recorded {s : Shared} (behind : s.sampled ≤ s.overflows) (joined : s.Joined)
    (pending : s.feeder = .overflowed) :
    Joined { s with overflows := s.overflows + 1, feeder := .idle } := by
  have before : ¬ s.Clean := fun clean => clean.2 pending
  have unclean : ¬ Clean { s with overflows := s.overflows + 1, feeder := .idle } := by
    intro clean
    have same : s.overflows + 1 = s.sampled := clean.1
    omega
  rcases joined with ⟨-, none⟩ | ⟨front, after, equal, -, full⟩
  · exact .inl ⟨unclean, none⟩
  · exact .inr ⟨front, after, equal, fun clean => absurd clean unclean, fun _ => full before⟩

theorem Joined.notified {s : Shared} {item : Item} (joined : s.Joined) (control : item.chunk = none)
    (room : s.queue.length < rxQueueDepth) : Joined { s with queue := item :: s.queue } := by
  rcases joined with first | ⟨before, after, equal, tight, full⟩
  · exact .inl first
  · have now : s.Clean := by
      by_contra unclean
      exact Nat.not_lt.mpr (full unclean) room
    refine .inr ⟨before, after, ?_, tight, fun unclean => absurd now unclean⟩
    rw [queued_control control]
    exact equal

theorem Joined.interferes {s t : Shared} (behind : s.sampled ≤ s.overflows) (joined : s.Joined)
    (interferes : s.Interferes t) : t.Joined := by
  cases interferes with
  | lostEpoch | cancelEpoch => exact joined
  | call data free =>
      have clean : ({ s with feeder := .ofChunks (rxChunks data) } : Shared).Clean ↔ s.Clean :=
        clean_ofChunks (by simp [free])
      simp only [Joined, clean]
      exact joined
  | accepted sends room => exact joined.accepted sends room
  | refused sends full => exact joined.refused full _
  | recorded pending => exact joined.recorded behind pending
  | notified control room => exact joined.notified control room

theorem armed_stable (n : Nat) : Prog.Stable Interferes (Armed n) := by
  intro s t armed interferes
  have behind : s.sampled ≤ s.overflows := armed.1.sample.le.trans armed.1.behind
  exact ⟨armed.1.interferes interferes, armed.2.interferes behind interferes⟩

theorem loose_stable (n : Nat) : Prog.Stable Interferes (Loose n) := by
  intro s t ⟨sampled, one, joined⟩ interferes
  have behind : s.sampled ≤ s.overflows := sampled.sample.le.trans sampled.behind
  obtain ⟨consumed, -, -, more⟩ := interferes.ghosts
  refine ⟨sampled.interferes interferes, ?_, ?_⟩
  · rw [consumed]
    exact one.trans interferes.stream.isInfix
  · intro same
    have before : s.overflows = n := Nat.le_antisymm (more.trans same.le) sampled.behind
    exact (joined before).interferes behind interferes

theorem fed_stable : Prog.Stable Interferes Fed :=
  fun _ _ fed interferes => fed.interferes interferes

/-- A call of the worker that meets the condition. -/
def Step (inAttempt : Bool) (s : Shared) (request : AtCall) (reply : request.Reply) (t : Shared) :
    Prop :=
  Orderly inAttempt s request ∧ Answers inAttempt s request reply t

theorem Fed.receive {s : Shared} (fed : s.Fed) (consumed : List Chunk) :
    Fed { s with queue := s.queue.tail, consumed := consumed } := by
  intro chunk member
  apply fed chunk
  exact (List.Sublist.filterMap _ (List.tail_sublist _)).subset member

/-- The one chunk that a pass receives. -/
theorem Armed.receive {n : Nat} {s t : Shared} {wait : Bool} {reply : Option RxEvent}
    (armed : s.Armed n) (step : s.Step true (.receiveRx wait) reply t) : t.Loose n := by
  obtain ⟨orderly, -, rfl⟩ := step
  obtain ⟨sampled, joined⟩ := armed
  have recorded : s.feeder ≠ .overflowed := orderly rfl
  have kept : Sampled n { s with
      queue := s.queue.tail
      consumed := s.consumed ++ (s.queue.head?.bind Item.chunk).toList } :=
    ⟨Fed.receive sampled.fed _, sampled.sample, sampled.behind, sampled.read⟩
  have split : s.queued = (s.queue.head?.bind Item.chunk).toList ++ s.queue.tail.filterMap Item.chunk := by
    unfold queued
    cases s.queue with
    | nil => rfl
    | cons item items => cases item <;> rfl
  simp only [if_true]
  refine ⟨kept, ?_, ?_⟩
  · rcases joined with ⟨-, none⟩ | ⟨before, after, equal, -⟩
    · rw [none, List.nil_append]
      rcases head : s.queue.head?.bind Item.chunk with _ | chunk
      · exact List.nil_infix
      · have member : chunk ∈ s.stream := by
          apply sampled.fed
          rw [split, head]
          exact List.mem_cons_self
        obtain ⟨before, after, equal⟩ := List.append_of_mem member
        exact ⟨before, after, by simp [equal]⟩
    · refine ⟨before, s.queue.tail.filterMap Item.chunk ++ after, ?_⟩
      rw [equal, split]
      simp
  · intro same
    have clean : s.Clean := ⟨same.trans sampled.sample.symm, recorded⟩
    rcases joined with ⟨unclean, -⟩ | ⟨before, after, equal, tight, -⟩
    · exact absurd clean unclean
    · refine .inr ⟨before, [], ?_, fun _ => rfl, fun unclean => absurd clean unclean⟩
      rw [equal, split, tight clean]
      simp [queued]

/-- The check of the epoch before a chunk is received. -/
theorem Loose.check {n : Nat} {s t : Shared} {reply : UInt32} (loose : s.Loose n)
    (step : s.Step true .overflowEpoch reply t) :
    t.Fed ∧ (reply = UInt32.ofNat n → t.Armed n) := by
  obtain ⟨orderly, rfl, rfl⟩ := step
  obtain ⟨sampled, -, joined⟩ := loose
  refine ⟨sampled.fed, ?_⟩
  intro same
  have near : s.overflows < n + 2 ^ 32 := sampled.read ▸ orderly
  have unchanged : s.overflows = n := by
    have values := congrArg UInt32.toNat same
    simp only [UInt32.toNat_ofNat'] at values
    have behind := sampled.behind
    omega
  exact ⟨⟨sampled.fed, sampled.sample, sampled.behind, unchanged⟩, joined unchanged⟩

/-- The sample of the epoch with which an attempt starts. -/
theorem Fed.sample {s t : Shared} {reply : UInt32} (fed : s.Fed)
    (step : s.Step false .overflowEpoch reply t) :
    reply = UInt32.ofNat t.sampled ∧ t.Armed t.sampled := by
  obtain ⟨⟨before, tail⟩, rfl, rfl⟩ := step
  simp only [Bool.false_eq_true, if_false]
  refine ⟨trivial, ⟨fed, rfl, Nat.le_refl _, rfl⟩, ?_⟩
  by_cases clean : Clean { s with lastRead := s.overflows, sampled := s.overflows, consumed := [] }
  · refine .inr ⟨before, [], ?_, fun _ => rfl, fun unclean => absurd clean unclean⟩
    simpa [queued] using tail.symm
  · exact .inl ⟨clean, rfl⟩

end Shared

/-- Calls that leave the shared state alone. -/
def AtCall.Neutral : AtCall → Prop
  | .overflowEpoch | .receiveRx _ => False
  | _ => True

theorem Shared.Step.neutral {inAttempt : Bool} {s t : Shared} {request : AtCall}
    {reply : request.Reply} (neutral : request.Neutral) (step : s.Step inAttempt request reply t) :
    t = s := by
  obtain ⟨-, answers⟩ := step
  cases request with
  | overflowEpoch | receiveRx => exact neutral.elim
  | transportLostEpoch | cancelEpoch => exact answers.2
  | token | queueUrc | isReady | write | time | receiveRequest | complete => exact answers

abbrev Survives {α : Type} (inAttempt : Bool) (post : α → Shared → Prop) (p : AtM α) (s : Shared) :
    Prop :=
  Prog.Survives Shared.Interferes (fun s request reply t => s.Step inAttempt request reply t) post p s

theorem Survives.neutral {α : Type} {inAttempt : Bool} {post : α → Shared → Prop} {request : AtCall}
    {next : request.Reply → AtM α} {s : Shared} (neutral : request.Neutral)
    (assertion : Shared → Prop) (stable : Prog.Stable Shared.Interferes assertion)
    (holds : assertion s)
    (later : ∀ t reply, assertion t → Survives inAttempt post (next reply) t) :
    Survives inAttempt post (.call request next) s := by
  apply Prog.Survives.call assertion stable holds
  intro t reply u here step
  have same := step.neutral neutral
  subst same
  exact later _ reply here

theorem queueUrc_neutral (line : CStr) : (queueUrc line).Calls AtCall.Neutral := by
  unfold queueUrc
  split
  · trivial
  · exact ⟨trivial, fun _ => trivial⟩

theorem handleToken_neutral (token : Token) (session : Session) :
    (handleToken token session).Calls AtCall.Neutral := by
  obtain ⟨parser, transaction⟩ := session
  cases token with
  | lineOverflow => trivial
  | prompt =>
      cases transaction with
      | none => exact (queueUrc_neutral _).bind fun _ => trivial
      | some transaction =>
          simp only [handleToken]
          split
          · refine ⟨trivial, fun reply => ?_⟩
            cases reply <;> trivial
          · exact (queueUrc_neutral _).bind fun _ => trivial
  | line bytes =>
      simp only [handleToken]
      split
      · exact (queueUrc_neutral _).bind fun _ => trivial
      · trivial

theorem feed_neutral (bytes : List UInt8) (session : Session) :
    (Parser.feed processToken bytes session).Calls AtCall.Neutral := by
  induction bytes generalizing session with
  | nil => trivial
  | cons ch rest ih =>
      rw [Parser.feed_cons]
      refine Prog.Calls.bind ?_ fun between => ih between
      unfold Parser.octet
      split
      · trivial
      · exact Prog.Calls.bind ⟨trivial, fun _ => handleToken_neutral _ _⟩ fun _ => trivial

/-- What the others leave true of the worker between two passes. -/
def Worker.Invariant : Worker → Shared → Prop
  | .idle _, s | .draining _ _ _ _, s => s.Fed
  | .attempting _ attempt, s => ∃ n, attempt.overflowEpoch = UInt32.ofNat n ∧ s.Loose n

theorem Worker.invariant_stable (w : Worker) : Prog.Stable Shared.Interferes w.Invariant := by
  cases w with
  | idle | draining => exact Shared.fed_stable
  | attempting number attempt =>
      rintro s t ⟨n, epoch, loose⟩ interferes
      exact ⟨n, epoch, Shared.loose_stable n s t loose interferes⟩

theorem concludeAttempt_survives {inAttempt : Bool} {s : Shared} (fed : s.Fed) (request : Request)
    (number : UInt8) (response : Response) (parser : Parser) (result : AtResult) :
    Survives inAttempt Worker.Invariant (concludeAttempt request number response parser result) s := by
  unfold concludeAttempt
  simp only
  split
  · apply Survives.neutral (by trivial) Shared.Fed Shared.fed_stable fed
    intro t _ fed
    exact .done Shared.fed_stable fed
  · exact .done Shared.fed_stable fed

theorem feedIdle_survives {s : Shared} (fed : s.Fed) (parser : Parser) (bytes : List UInt8) :
    Survives false (fun _ t => t.Fed) (feedIdle parser bytes) s := by
  have calls : (feedIdle parser bytes).Calls AtCall.Neutral :=
    (feed_neutral bytes (parser, none)).bind fun _ => trivial
  apply Prog.Survives.keeps Shared.fed_stable _ calls fed
  intro s request reply t neutral fed step
  rwa [Shared.Step.neutral neutral step]

/-- What the others leave true once the command of an attempt was written or not. -/
def Begun : Except AtResult Attempt → Shared → Prop
  | .error _, s => s.Fed
  | .ok attempt, s => ∃ n, attempt.overflowEpoch = UInt32.ofNat n ∧ s.Armed n

theorem Shared.Armed.fed {n : Nat} {s : Shared} (armed : s.Armed n) : s.Fed := armed.1.fed

theorem beginAttempt_survives {s : Shared} (fed : s.Fed) (request : Request) (response : Response)
    (parser : Parser) : Survives false Begun (beginAttempt request response parser) s := by
  unfold beginAttempt sendCommand
  apply Prog.Survives.call Shared.Fed Shared.fed_stable fed
  intro t epoch u here step
  obtain ⟨same, armed⟩ := Shared.Fed.sample here step
  generalize u.sampled = n at same armed
  subst same
  have stable := Shared.armed_stable n
  apply Survives.neutral (by trivial) (Shared.Armed n) stable armed
  intro t _ armed
  apply Survives.neutral (by trivial) (Shared.Armed n) stable armed
  intro t _ armed
  apply Survives.neutral (by trivial) (Shared.Armed n) stable armed
  intro t ready armed
  cases ready with
  | false => exact .done Shared.fed_stable armed.fed
  | true =>
      apply Survives.neutral (by trivial) (Shared.Armed n) stable armed
      intro t written armed
      cases written with
      | error e => exact .done Shared.fed_stable armed.fed
      | ok value =>
          apply Survives.neutral (by trivial) (Shared.Armed n) stable armed
          intro t _ armed
          refine .done ?_ ⟨n, rfl, armed⟩
          rintro s t ⟨m, epoch, armed⟩ interferes
          exact ⟨m, epoch, Shared.armed_stable m s t armed interferes⟩

theorem startAttempt_survives {s : Shared} (fed : s.Fed) (request : Request) (number : UInt8)
    (parser : Parser) : Survives false Worker.Invariant (startAttempt request number parser) s := by
  apply Prog.Survives.bind
  refine (beginAttempt_survives fed request _ parser).mono ?_
  intro outcome t begun
  cases outcome with
  | error result => exact concludeAttempt_survives begun _ _ _ _ _
  | ok attempt =>
      obtain ⟨n, epoch, armed⟩ := begun
      exact .done (Worker.invariant_stable (.attempting number attempt)) ⟨n, epoch, armed.loose⟩

/-- What the others leave true after a pass of an attempt. -/
def Passed (n : Nat) : AtResult ⊕ Attempt → Shared → Prop
  | .inl _, s => s.Fed
  | .inr attempt, s => attempt.overflowEpoch = UInt32.ofNat n ∧ s.Loose n

theorem Shared.Loose.fed {n : Nat} {s : Shared} (loose : s.Loose n) : s.Fed := loose.1.fed

theorem passed_stable {n : Nat} {attempt : Attempt} : Prog.Stable Shared.Interferes (Passed n (.inr attempt)) :=
  fun s t passed interferes => ⟨passed.1, Shared.loose_stable n s t passed.2 interferes⟩

theorem Attempt.feed_survives {n : Nat} {s : Shared} (attempt : Attempt) (bytes : List UInt8)
    (epoch : attempt.overflowEpoch = UInt32.ofNat n) (loose : s.Loose n) :
    Survives true (fun after t => Passed n (.inr after) t) (attempt.feed bytes) s := by
  apply Prog.Survives.bind
  have calls := feed_neutral bytes (attempt.parser, some attempt.transaction)
  refine (Prog.Survives.keeps (Shared.loose_stable n) ?_ calls loose).mono ?_
  · intro s request reply t neutral loose step
    rwa [Shared.Step.neutral neutral step]
  · intro after t loose
    exact .done passed_stable ⟨epoch, loose⟩

/-- One pass of the loop of `execute_attempt`. -/
theorem Attempt.pass_survives {n : Nat} {s : Shared} (attempt : Attempt)
    (epoch : attempt.overflowEpoch = UInt32.ofNat n) (loose : s.Loose n) :
    Survives true (Passed n) attempt.pass s := by
  have stable := Shared.armed_stable n
  unfold Attempt.pass
  split
  · exact .done Shared.fed_stable loose.fed
  apply Prog.Survives.call (Shared.Loose n) (Shared.loose_stable n) loose
  intro t reply u loose step
  obtain ⟨fed, check⟩ := loose.check step
  change Survives true (Passed n) (if reply ≠ attempt.overflowEpoch then _ else _) u
  split
  · exact .done Shared.fed_stable fed
  rename_i unchanged
  have armed := check ((not_not.mp unchanged).trans epoch)
  apply Survives.neutral (by trivial) (Shared.Armed n) stable armed
  intro t lost armed
  change Survives true (Passed n) (if lost ≠ attempt.lostEpoch then _ else _) t
  split
  · exact .done Shared.fed_stable armed.fed
  apply Survives.neutral (by trivial) (Shared.Armed n) stable armed
  intro t canceled armed
  change Survives true (Passed n) (if canceled ≠ attempt.cancelEpoch then _ else _) t
  split
  · exact .done Shared.fed_stable armed.fed
  apply Survives.neutral (by trivial) (Shared.Armed n) stable armed
  intro t now armed
  change Survives true (Passed n) (if attempt.deadlineUs - now ≤ 0 then _ else _) t
  split
  · exact .done Shared.fed_stable armed.fed
  apply Prog.Survives.call (Shared.Armed n) stable armed
  intro t event u armed step
  have loose := armed.receive step
  rcases event with _ | bytes | _ | _
  · exact .done passed_stable ⟨epoch, loose⟩
  · have fed : Survives true (Passed n)
        (attempt.feed bytes >>= fun after => pure (.inr after)) u := by
      apply Prog.Survives.bind
      refine (attempt.feed_survives bytes epoch loose).mono ?_
      intro after t passed
      exact .done passed_stable passed
    exact fed
  · exact .done Shared.fed_stable loose.fed
  · exact .done Shared.fed_stable loose.fed

/-- Outside an attempt only the epoch read matters. -/
theorem receive_survives {α : Type} {s : Shared} {wait : Bool} {post : α → Shared → Prop}
    {next : Option RxEvent → AtM α} (fed : s.Fed)
    (later : ∀ t event, t.Fed → Survives false post (next event) t) :
    Survives false post (.call (.receiveRx wait) next) s := by
  apply Prog.Survives.call Shared.Fed Shared.fed_stable fed
  intro t event u fed step
  obtain ⟨-, -, rfl⟩ := step
  exact later _ event (fed.receive _)

theorem Worker.pass_survives {w : Worker} {s : Shared} (invariant : w.Invariant s) :
    Survives w.inAttempt Worker.Invariant w.pass s := by
  cases w with
  | idle parser =>
      apply Survives.neutral (by trivial) Shared.Fed Shared.fed_stable invariant
      intro t request fed
      cases request with
      | some request => exact .done Shared.fed_stable fed
      | none =>
          apply receive_survives fed
          intro t event fed
          rcases event with _ | bytes | _ | _
          · exact .done Shared.fed_stable fed
          · change Survives false Worker.Invariant (if bytes.isEmpty then _ else _) t
            split
            · exact .done Shared.fed_stable fed
            · apply Prog.Survives.bind
              refine (feedIdle_survives fed parser bytes).mono ?_
              intro after t fed
              exact .done Shared.fed_stable fed
          · exact .done Shared.fed_stable fed
          · exact .done Shared.fed_stable fed
  | draining request number again parser =>
      apply receive_survives invariant
      intro t event fed
      rcases event with _ | bytes | _ | _
      · change Survives false Worker.Invariant (if again then _ else _) t
        split
        · exact .done Shared.fed_stable fed
        · exact startAttempt_survives fed request number parser
      · have drained : Survives false Worker.Invariant (feedIdle parser bytes >>= fun after =>
            pure (.draining request number again after)) t := by
          apply Prog.Survives.bind
          refine (feedIdle_survives fed parser bytes).mono ?_
          intro after t fed
          exact .done Shared.fed_stable fed
        exact drained
      · exact .done Shared.fed_stable fed
      · exact .done Shared.fed_stable fed
  | attempting number attempt =>
      obtain ⟨n, epoch, loose⟩ := invariant
      apply Prog.Survives.bind
      refine (attempt.pass_survives epoch loose).mono ?_
      intro outcome t passed
      cases outcome with
      | inl result => exact concludeAttempt_survives passed _ _ _ _ _
      | inr after =>
          exact .done (Worker.invariant_stable (.attempting number after)) ⟨n, passed.1, passed.2⟩

/-- The steps of all tasks keep what the rest of the worker's pass relies on. -/
theorem System.Reached.survives {s : System} (reached : System.Reached Shared.Orderly s) :
    Survives s.worker.inAttempt Worker.Invariant s.rest s.shared := by
  induction reached with
  | start => exact Worker.pass_survives (w := .idle .init) (by simp [Worker.Invariant, Shared.Fed,
      System.initial, Shared.initial, Shared.queued])
  | other _ interferes ih => exact ih.after interferes
  | call _ rest may answers ih =>
      rw [rest] at ih
      exact ih.answered ⟨may, answers⟩
  | pass _ rest ih =>
      rw [rest] at ih
      exact Worker.pass_survives ih.returned

/-- In every run in which an attempt samples the epoch while the queue holds nothing
older than a dropped chunk, receives no chunk between a refused one and its record, and
reads the epoch at least once in a round of it, the chunks of an attempt that returns
`OK` are one piece of what was fed. -/
theorem ok_consumed_one_piece {s : System} (reached : System.Reached Shared.Orderly s)
    (returns : s.Returns .ok) : s.shared.consumed <:+: s.shared.stream := by
  obtain ⟨number, attempt, rest, -, -⟩ := returns
  have survives := reached.survives
  rw [rest] at survives
  obtain ⟨n, -, -, piece, -⟩ := survives.returned
  exact piece

theorem rxChunks_short {data : List UInt8} (filled : data ≠ []) (short : data.length ≤ rxChunkSize) :
    rxChunks data = [data] := by
  have none : data.drop rxChunkSize = [] := List.drop_eq_nil_of_le short
  rw [rxChunks, dif_neg filled, none, rxChunks, dif_pos rfl, List.take_of_length_le short]

/-- One step of a schedule: a short call of `at_engine_feed_rx` starts, its chunk is
sent, its overflow is recorded, or the worker goes on. -/
inductive Turn where
  | feed (data : List UInt8)
  | send
  | record
  | work
  deriving DecidableEq, Repr

/-- The answer to a call of the worker where every write succeeds, time stands still and
the requests are for `request`. -/
def Shared.answer (inAttempt : Bool) (s : Shared) (request : Request) :
    (call : AtCall) → call.Reply × Shared
  | .overflowEpoch =>
      (UInt32.ofNat s.overflows, if inAttempt then { s with lastRead := s.overflows }
        else { s with lastRead := s.overflows, sampled := s.overflows, consumed := [] })
  | .transportLostEpoch => (s.lostEpoch, s)
  | .cancelEpoch => (s.cancelEpoch, s)
  | .receiveRx _ =>
      (s.queue.head?.map Item.event, { s with
        queue := s.queue.tail
        consumed := if inAttempt then s.consumed ++ (s.queue.head?.bind Item.chunk).toList
          else s.consumed })
  | .token _ | .complete _ => ((), s)
  | .queueUrc _ | .isReady => (true, s)
  | .write _ => (.ok (), s)
  | .time => (0, s)
  | .receiveRequest => (some request, s)

def System.turn (request : Request) (s : System) : Turn → System
  | .feed data =>
      if s.shared.feeder = .idle ∧ data ≠ [] ∧ data.length ≤ rxChunkSize then
        { s with shared := { s.shared with feeder := .ofChunks [data] } }
      else s
  | .send =>
      match s.shared.feeder with
      | .sending chunk rest =>
          if s.shared.queue.length < rxQueueDepth then
            { s with shared := { s.shared with
              queue := s.shared.queue ++ [.data ⟨s.shared.stream.length, chunk⟩]
              stream := s.shared.stream ++ [⟨s.shared.stream.length, chunk⟩]
              feeder := .ofChunks rest } }
          else
            { s with shared := { s.shared with
              stream := s.shared.stream ++ s.shared.number (chunk :: rest)
              feeder := .overflowed } }
      | _ => s
  | .record =>
      if s.shared.feeder = .overflowed then
        { s with shared := { s.shared with overflows := s.shared.overflows + 1, feeder := .idle } }
      else s
  | .work =>
      match s.rest with
      | .done w => { s with worker := w, rest := w.pass }
      | .call call next =>
          { s with
            shared := (s.shared.answer s.worker.inAttempt request call).2
            rest := next (s.shared.answer s.worker.inAttempt request call).1 }

/-- Whether the call that the worker makes next finds what is asked for. -/
def System.may (allowed : Bool → Shared → AtCall → Prop)
    [∀ inAttempt s call, Decidable (allowed inAttempt s call)] (s : System) : Bool :=
  match s.rest with
  | .done _ => true
  | .call call _ => decide (allowed s.worker.inAttempt s.shared call)

theorem Shared.answer_answers (inAttempt : Bool) (s : Shared) (request : Request) (call : AtCall) :
    Shared.Answers inAttempt s call (s.answer inAttempt request call).1
      (s.answer inAttempt request call).2 := by
  cases call <;> first | exact rfl | exact ⟨rfl, rfl⟩

section

variable {allowed : Bool → Shared → AtCall → Prop}
  [∀ inAttempt s call, Decidable (allowed inAttempt s call)]

theorem System.Reached.turn {s : System} (reached : System.Reached allowed s) (request : Request)
    (turn : Turn) (may : turn = .work → s.may allowed = true) :
    System.Reached allowed (s.turn request turn) := by
  cases turn with
  | feed data =>
      simp only [System.turn]
      split
      · rename_i free
        have called := Shared.Interferes.call data free.1
        rw [rxChunks_short free.2.1 free.2.2] at called
        exact .other reached called
      · exact reached
  | send =>
      simp only [System.turn]
      split
      · rename_i chunk rest sends
        split
        · exact .other reached (.accepted sends ‹_›)
        · exact .other reached (.refused sends (Nat.not_lt.mp ‹_›))
      · exact reached
  | record =>
      simp only [System.turn]
      split
      · exact .other reached (.recorded ‹_›)
      · exact reached
  | work =>
      have here := may rfl
      simp only [System.turn, System.may] at here ⊢
      split
      · exact .pass reached ‹_›
      · rename_i call next rest
        rw [rest] at here
        exact .call reached rest (of_decide_eq_true here) (Shared.answer_answers _ _ _ _)

/-- A schedule, and whether every call in it finds what is asked for. -/
def System.play (request : Request) (s : System) (turns : List Turn) : System :=
  turns.foldl (fun s turn => s.turn request turn) s

def System.plays (allowed : Bool → Shared → AtCall → Prop)
    [∀ inAttempt s call, Decidable (allowed inAttempt s call)] (request : Request) :
    System → List Turn → Bool
  | _, [] => true
  | s, turn :: turns =>
      (turn != .work || s.may allowed) && System.plays allowed request (s.turn request turn) turns

theorem System.Reached.play {s : System} (reached : System.Reached allowed s) (request : Request)
    {turns : List Turn} (plays : System.plays allowed request s turns = true) :
    System.Reached allowed (s.play request turns) := by
  induction turns generalizing s with
  | nil => exact reached
  | cons turn turns ih =>
      simp only [System.plays, Bool.and_eq_true, Bool.or_eq_true, bne_iff_ne] at plays
      exact ih (reached.turn request turn fun work => plays.1.resolve_left fun other => other work)
        plays.2

end

/-- A request without a prompt. -/
def plainRequest : Request := ⟨.text "AT", [], 0, 0, 0, 0, false, []⟩

/-- The worker has drained the queue and goes on to sample the epoch. -/
def drained : List Turn := List.replicate 3 .work

/-- The command is written and the first pass of the loop begins. -/
def begun : List Turn := List.replicate 7 .work

/-- A chunk of one byte. -/
def oneByte : List Turn := [.feed [0x78], .send]

def okChunk : List Turn := [.feed [0x0D, 0x4F, 0x4B, 0x0D], .send]

/-- An answer in two chunks. -/
def calmRun : List Turn :=
  drained ++ begun ++ oneByte ++ List.replicate 6 .work ++ okChunk ++ List.replicate 7 .work

/-- Twenty-one chunks arrive between the last empty poll and the sample of the epoch; the
last of them is dropped, and the next one completes the attempt. -/
def overflowRun : List Turn :=
  drained ++ (List.replicate 21 oneByte).flatten ++ [.record] ++ begun ++
    List.replicate (20 * 6) .work ++ okChunk ++ List.replicate 7 .work

/-- Whether the worker is about to return `OK`. -/
def System.returnsOk (s : System) : Bool :=
  match s.rest with
  | .done (.attempting _ attempt) =>
      attempt.transaction.done && attempt.transaction.response.result == .ok
  | _ => false

theorem System.returns_of_returnsOk {s : System} (returns : s.returnsOk = true) : s.Returns .ok := by
  unfold System.returnsOk at returns
  split at returns
  · rename_i number attempt rest
    rw [Bool.and_eq_true, beq_iff_eq] at returns
    exact ⟨number, attempt, rest, returns.1, returns.2⟩
  · cases returns

/-- An answer in two chunks without an overflow. -/
theorem ok_consumed_one_piece_calm :
    ∃ s, System.Reached Shared.Orderly s ∧ s.Returns .ok ∧ s.shared.consumed.length = 2 ∧
      s.shared.consumed <:+: s.shared.stream := by
  have reached : System.Reached Shared.Orderly (System.initial.play plainRequest calmRun) :=
    System.Reached.start.play plainRequest (by decide +kernel)
  have returns : (System.initial.play plainRequest calmRun).Returns .ok :=
    System.returns_of_returnsOk (by decide +kernel)
  exact ⟨_, reached, returns, by decide +kernel, ok_consumed_one_piece reached returns⟩

/-- An attempt that starts after an overflow, with the older chunks still in the queue,
does not notice it. -/
theorem ok_across_dropped_chunk :
    ∃ s, System.Reached Shared.Unwrapped s ∧ s.Returns .ok ∧
      ¬ s.shared.consumed <:+: s.shared.stream := by
  have reached : System.Reached Shared.Unwrapped (System.initial.play plainRequest overflowRun) :=
    System.Reached.start.play plainRequest (by decide +kernel)
  exact ⟨_, reached, System.returns_of_returnsOk (by decide +kernel), by decide +kernel⟩

end SmsGateway.At
