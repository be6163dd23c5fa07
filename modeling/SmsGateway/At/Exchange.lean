import SmsGateway.At.Retry
import SmsGateway.Lib.Parallel

/-! The callers of `at_engine_execute` and the worker (`at_engine.c`): the request queue, and the
response and the semaphore of each call. -/

namespace SmsGateway.At

open Lib Prog

inductive Party where
  | worker
  | caller (number : Nat)
  deriving DecidableEq, Repr

/-- `request_message_t`; the response and the semaphore are the ones of this frame. -/
structure Message where
  frame : Nat
  request : Request
  deriving DecidableEq, Repr

/-- A request that the worker has finished, with the calls that it made for it. -/
structure Finished where
  frame : Nat
  request : Request
  trace : Trace
  response : Response

structure Engine where
  nextFrame : Nat
  /-- The frames of the callers so far, and whose they are. -/
  frames : List (Nat × Party)
  /-- The semaphores that exist, in the calls that have not returned. -/
  semaphores : List Nat
  /-- Those that were given and not yet taken. -/
  given : List Nat
  queue : List Message
  responses : Nat → Response
  /-- The variables of the worker between two passes of its loop. -/
  worker : Worker
  /-- The message of the worker, and its calls since it received it. -/
  serving : Option Message
  work : Trace
  finished : List Finished

def Engine.initial : Engine :=
  ⟨0, [], [], [], [], fun _ => .reset, .idle .init, none, [], []⟩

inductive EngineCall where
  /-- A variable for the response. -/
  | enter
  | create (frame : Nat)
  | submit (message : Message)
  | await (frame : Nat)
  /-- `at_engine_execute` returns, and its semaphore is gone. -/
  | leave (frame : Nat)
  /-- The caller reads the response to its request. -/
  | use (frame : Nat) (request : Request)
  | resume
  | keep (worker : Worker)
  | worker (asked : AtCall)

@[reducible] def EngineCall.Reply : EngineCall → Type
  | .enter => Nat
  | .use _ _ => Response
  | .resume => Worker
  | .worker asked => asked.Reply
  | _ => Unit

abbrev EngineM := Prog EngineCall EngineCall.Reply

def ask (request : EngineCall) : EngineM request.Reply := Prog.send request

def requestQueueDepth : Nat := 8

/-- The worker hands out the response: it is in the frame, and the semaphore is given. -/
def Engine.complete (s : Engine) (response : Response) : Engine :=
  match s.serving with
  | none => s
  | some message => { s with
      responses := Function.update s.responses message.frame response
      given := message.frame :: s.given
      serving := none
      finished := ⟨message.frame, message.request, s.work, response⟩ :: s.finished }

/-- What the worker is answered: any traffic of the modem, and the messages in their order. -/
def Engine.Serves (s : Engine) : (asked : AtCall) → asked.Reply → Engine → Prop
  | .receiveRequest, none, t => s.queue = [] ∧ t = s
  | .receiveRequest, some request, t => ∃ message rest, s.queue = message :: rest ∧
      request = message.request ∧
      t = { s with queue := rest, serving := some message, work := [] }
  | .complete response, _, t => t = s.complete response
  | asked, reply, t => t = { s with work := s.work ++ [⟨(), asked, reply⟩] }

/-- Neither the start nor the end of a request. -/
def AtCall.isOrdinary : AtCall → Bool
  | .receiveRequest | .complete _ => false
  | _ => true

theorem serves_ordinary {s t : Engine} {asked : AtCall} {reply : asked.Reply}
    (ordinary : asked.isOrdinary = true) (serves : s.Serves asked reply t) :
    t = { s with work := s.work ++ [⟨(), asked, reply⟩] } := by
  cases asked with
  | receiveRequest | complete _ => cases ordinary
  | _ => exact serves

def EngineCall.Answers (party : Party) (s : Engine) :
    (request : EngineCall) → request.Reply → Engine → Prop
  | .enter, frame, t => frame = s.nextFrame ∧
      t = { s with nextFrame := s.nextFrame + 1, frames := (s.nextFrame, party) :: s.frames }
  | .create frame, _, t => t = { s with semaphores := frame :: s.semaphores }
  | .submit message, _, t =>
      s.queue.length < requestQueueDepth ∧ t = { s with queue := s.queue ++ [message] }
  | .await frame, _, t => frame ∈ s.given ∧ t = { s with given := s.given.erase frame }
  | .leave frame, _, t => t = { s with semaphores := s.semaphores.erase frame }
  | .use frame _, response, t => response = s.responses frame ∧ t = s
  | .resume, found, t => found = s.worker ∧ t = s
  | .keep kept, _, t => t = { s with worker := kept }
  | .worker asked, reply, t => s.Serves asked reply t

def atEngineExecute (request : Request) (response : Nat) : EngineM (Except EspErr Unit) :=
  if !request.valid then pure (.error .invalidArg)
  else do
    ask (.create response)
    ask (.submit ⟨response, request⟩)
    ask (.await response)
    ask (.leave response)
    pure (.ok ())

/-- A task that executes a request and reads the response. -/
def execute (request : Request) : EngineM Unit := do
  let response ← ask .enter
  match ← atEngineExecute request response with
  | .ok () => do
      let _ ← ask (.use response request)
      pure ()
  | .error _ => pure ()

/-- A pass of the loop of `worker_task`. -/
def workerPass : EngineM Unit := do
  let worker ← ask .resume
  let worker ← worker.pass.lift EngineCall.worker fun _ reply => reply
  ask (.keep worker)

inductive Starts : Party → EngineM Unit → Prop where
  | worker : Starts .worker workerPass
  | caller (number : Nat) (request : Request) : Starts (.caller number) (execute request)

def rules : Rules Party Engine EngineCall EngineCall.Reply where
  step party s request reply t := request.Answers party s reply t
  starts := Starts

abbrev Exchange := Crew Party Engine EngineCall EngineCall.Reply

abbrev Exchange.Reached (g : Exchange) : Prop := Crew.Reached rules Engine.initial g

/-! ## What holds in between -/

/-- The messages that are queued or at work, and their frames. -/
def Engine.pending (s : Engine) : List Message := s.serving.toList ++ s.queue

def Engine.submitted (s : Engine) : List Nat :=
  s.pending.map Message.frame ++ s.finished.map Finished.frame

/-- One execution of the request led to the response. -/
def Finished.Sound (entry : Finished) : Prop :=
  ∃ parser, Worker.Reached (.draining entry.request 1 false parser) ∧
    Executes entry.request parser entry.trace entry.response

structure Engine.Sound (s : Engine) : Prop where
  opened : ∀ message ∈ s.pending, message.frame ∈ s.semaphores
  once : s.submitted.Nodup
  below : ∀ frame ∈ s.submitted, frame < s.nextFrame
  frames : ∀ frame party, (frame, party) ∈ s.frames → frame < s.nextFrame
  distinct : (s.frames.map Prod.fst).Nodup
  executed : ∀ entry ∈ s.finished, entry.Sound
  response : ∀ entry ∈ s.finished, s.responses entry.frame = entry.response
  given : ∀ frame ∈ s.given, frame ∈ s.finished.map Finished.frame

/-- What a call asks of the task that makes it. -/
def Respects (party : Party) (s : Engine) : EngineCall → Prop
  | .enter => party ≠ .worker
  | .create frame => (frame, party) ∈ s.frames
  | .submit message => (message.frame, party) ∈ s.frames ∧ message.frame ∉ s.submitted ∧
      message.frame ∈ s.semaphores
  | .await frame => (frame, party) ∈ s.frames ∧
      (frame ∈ s.pending.map Message.frame ∨ frame ∈ s.given)
  | .leave frame => (frame, party) ∈ s.frames ∧ frame ∉ s.pending.map Message.frame
  | .use frame request => (frame, party) ∈ s.frames ∧
      ∃ entry ∈ s.finished, entry.frame = frame ∧ entry.request = request
  | .resume | .keep _ => party = .worker
  | .worker .receiveRequest => party = .worker ∧ s.serving = none
  | .worker (.complete response) => party = .worker ∧ ∃ message, s.serving = some message ∧
      Finished.Sound ⟨message.frame, message.request, s.work, response⟩
  | .worker _ => party = .worker

structure Allowed (party : Party) (s : Engine) (request : EngineCall) : Prop where
  sound : s.Sound
  respects : Respects party s request

/-- Receiving a message moves it from the queue to the worker. -/
theorem pending_receive {s : Engine} {message : Message} {rest : List Message}
    (free : s.serving = none) (queued : s.queue = message :: rest) :
    Engine.pending { s with queue := rest, serving := some message, work := [] } = s.pending := by
  rw [Engine.pending, Engine.pending, free, queued]
  rfl

theorem complete_eq {s : Engine} {message : Message} (serving : s.serving = some message)
    (response : Response) : s.complete response = { s with
      responses := Function.update s.responses message.frame response
      given := message.frame :: s.given
      serving := none
      finished := ⟨message.frame, message.request, s.work, response⟩ :: s.finished } := by
  rw [Engine.complete, serving]

theorem submitted_complete {s : Engine} {message : Message} (serving : s.serving = some message)
    (response : Response) : (s.complete response).submitted.Perm s.submitted := by
  rw [complete_eq serving]
  simp only [Engine.submitted, Engine.pending, serving, Option.toList_none, Option.toList_some,
    List.nil_append, List.map_cons, List.cons_append]
  exact List.perm_middle

theorem Allowed.sound_after {party : Party} {s t : Engine} {request : EngineCall}
    {reply : request.Reply} (allowed : Allowed party s request)
    (answers : request.Answers party s reply t) : t.Sound := by
  obtain ⟨sound, respects⟩ := allowed
  cases request with
  | enter =>
      obtain ⟨-, rfl⟩ := answers
      refine ⟨sound.opened, sound.once, ?_, ?_, ?_, sound.executed, sound.response, sound.given⟩
      · exact fun frame member => Nat.lt_succ_of_lt (sound.below frame member)
      · intro frame owner member
        rcases List.mem_cons.mp member with new | member
        · cases new
          exact Nat.lt_succ_self _
        · exact Nat.lt_succ_of_lt (sound.frames frame owner member)
      · refine List.nodup_cons.mpr ⟨fun member => ?_, sound.distinct⟩
        obtain ⟨⟨_, owner⟩, old, rfl⟩ := List.mem_map.mp member
        exact Nat.lt_irrefl _ (sound.frames _ owner old)
  | create frame =>
      obtain rfl : t = { s with semaphores := frame :: s.semaphores } := answers
      exact ⟨fun message member => List.mem_cons_of_mem _ (sound.opened message member), sound.once,
        sound.below, sound.frames, sound.distinct, sound.executed, sound.response, sound.given⟩
  | submit message =>
      obtain ⟨-, rfl⟩ := answers
      obtain ⟨mine, fresh, here⟩ := respects
      have order : Engine.submitted { s with queue := s.queue ++ [message] } =
          s.pending.map Message.frame ++ message.frame :: s.finished.map Finished.frame := by
        simp [Engine.submitted, Engine.pending]
      refine ⟨?_, ?_, ?_, sound.frames, sound.distinct, sound.executed, sound.response, sound.given⟩
      · intro one member
        simp only [Engine.pending, ← List.append_assoc, List.mem_append, List.mem_singleton] at member
        rcases member with earlier | rfl
        · exact sound.opened one (List.mem_append.mpr earlier)
        · exact here
      · rw [order]
        exact List.perm_middle.nodup_iff.mpr (List.nodup_cons.mpr ⟨fresh, sound.once⟩)
      · rw [order]
        intro frame member
        rcases List.mem_cons.mp (List.perm_middle.mem_iff.mp member) with rfl | member
        · exact sound.frames _ party mine
        · exact sound.below frame member
  | await frame =>
      obtain ⟨-, rfl⟩ := answers
      exact ⟨sound.opened, sound.once, sound.below, sound.frames, sound.distinct, sound.executed,
        sound.response, fun one member => sound.given one (List.mem_of_mem_erase member)⟩
  | leave frame =>
      obtain rfl : t = { s with semaphores := s.semaphores.erase frame } := answers
      refine ⟨?_, sound.once, sound.below, sound.frames, sound.distinct, sound.executed,
        sound.response, sound.given⟩
      intro message member
      refine (List.mem_erase_of_ne ?_).mpr (sound.opened message member)
      intro same
      exact respects.2 (List.mem_map.mpr ⟨message, member, same⟩)
  | use frame request =>
      obtain ⟨-, rfl⟩ := answers
      exact sound
  | resume =>
      obtain ⟨-, rfl⟩ := answers
      exact sound
  | keep worker =>
      obtain rfl : t = { s with worker := worker } := answers
      exact ⟨sound.opened, sound.once, sound.below, sound.frames, sound.distinct, sound.executed,
        sound.response, sound.given⟩
  | worker asked =>
      have serves : s.Serves asked reply t := answers
      cases asked with
      | receiveRequest =>
          cases reply with
          | none =>
              obtain ⟨-, rfl⟩ := answers
              exact sound
          | some request =>
              obtain ⟨message, rest, queued, -, rfl⟩ := answers
              have same := pending_receive respects.2 queued
              have all : Engine.submitted
                  { s with queue := rest, serving := some message, work := [] } = s.submitted := by
                rw [Engine.submitted, same]
                rfl
              refine ⟨?_, ?_, ?_, sound.frames, sound.distinct, sound.executed, sound.response,
                sound.given⟩
              · rw [same]
                exact sound.opened
              · rw [all]
                exact sound.once
              · rw [all]
                exact sound.below
      | complete response =>
          obtain ⟨-, message, serving, executed⟩ := respects
          have order := submitted_complete serving response
          have shape := complete_eq serving response
          obtain rfl : t = s.complete response := answers
          have once := order.nodup_iff.mpr sound.once
          have below : ∀ frame ∈ (s.complete response).submitted, frame < s.nextFrame :=
            fun frame member => sound.below frame (order.mem_iff.mp member)
          have new : message.frame ∉ s.finished.map Finished.frame := by
            have distinct := sound.once
            simp only [Engine.submitted, Engine.pending, serving, Option.toList_some,
              List.map_cons, List.cons_append, List.nodup_cons,
              List.mem_append, not_or] at distinct
            exact distinct.1.2
          rw [shape] at once below ⊢
          refine ⟨?_, once, below, sound.frames, sound.distinct, ?_, ?_, ?_⟩
          · intro one member
            exact sound.opened one (List.mem_append_right _ member)
          · intro entry member
            rcases List.mem_cons.mp member with rfl | member
            · exact executed
            · exact sound.executed entry member
          · intro entry member
            dsimp only
            rcases List.mem_cons.mp member with rfl | member
            · exact Function.update_self ..
            · rw [Function.update_of_ne]
              · exact sound.response entry member
              · intro same
                exact new (List.mem_map.mpr ⟨entry, member, same⟩)
          · intro frame member
            rcases List.mem_cons.mp member with rfl | member
            · exact List.mem_cons_self
            · exact List.mem_cons_of_mem _ (sound.given frame member)
      | token _ | queueUrc _ | isReady | write _ | overflowEpoch | transportLostEpoch | cancelEpoch
      | time | receiveRx _ =>
          obtain rfl := serves_ordinary rfl serves
          exact ⟨sound.opened, sound.once, sound.below, sound.frames, sound.distinct, sound.executed,
            sound.response, sound.given⟩

end SmsGateway.At
