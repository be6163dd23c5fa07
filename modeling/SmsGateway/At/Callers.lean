import Mathlib.Data.List.Nodup
import SmsGateway.At.Exchange

/-! Every caller gets the response to its own request, and the worker touches no frame of a call
that has returned. -/

namespace SmsGateway.At

open Lib Prog

/-! ## What the worker's functions ask -/

abbrev Ordinary {α : Type} (p : AtM α) : Prop := p.Calls fun asked => asked.isOrdinary = true

theorem ordinary_queueUrc (line : CStr) : Ordinary (queueUrc line) := by
  unfold queueUrc
  split
  · trivial
  · exact .send rfl fun _ => trivial

theorem ordinary_processToken (token : Token) (session : Session) :
    Ordinary (processToken token session) := by
  obtain ⟨parser, transaction⟩ := session
  refine .send rfl fun _ => ?_
  cases token with
  | lineOverflow => trivial
  | prompt =>
      cases transaction with
      | none => exact .bind (ordinary_queueUrc _) fun _ => trivial
      | some transaction =>
          simp only [handleToken]
          split
          · exact .send rfl fun reply => by cases reply <;> trivial
          · exact .bind (ordinary_queueUrc _) fun _ => trivial
  | line bytes =>
      simp only [handleToken]
      rcases handleLine (CStr.ofBytes bytes) transaction with ⟨handling, after⟩
      cases handling with
      | queued => exact .bind (ordinary_queueUrc _) fun _ => trivial
      | echo | completed | captured => trivial

theorem ordinary_feed (bytes : List UInt8) (session : Session) :
    Ordinary (Parser.feed processToken bytes session) := by
  induction bytes generalizing session with
  | nil => trivial
  | cons ch bytes ih =>
      rw [Parser.feed_cons]
      refine .bind ?_ fun between => ih between
      unfold Parser.octet
      split
      · trivial
      · exact .bind (ordinary_processToken _ _) fun _ => trivial

theorem ordinary_feedIdle (parser : Parser) (bytes : List UInt8) : Ordinary (feedIdle parser bytes) :=
  .bind (ordinary_feed _ _) fun _ => trivial

theorem ordinary_beginAttempt (request : Request) (response : Response) (parser : Parser) :
    Ordinary (beginAttempt request response parser) := by
  refine .send rfl fun _ => .send rfl fun _ => .send rfl fun _ => .bind ?_ fun outcome => ?_
  · refine .send rfl fun ready => ?_
    cases ready with
    | false => trivial
    | true => exact ⟨rfl, fun _ => trivial⟩
  · cases outcome with
    | error e => trivial
    | ok _ => exact .send rfl fun _ => trivial

theorem ordinary_pass (attempt : Attempt) : Ordinary attempt.pass := by
  unfold Attempt.pass
  split
  · trivial
  · refine .send rfl fun overflow => ?_
    split
    · trivial
    · refine .send rfl fun lost => ?_
      split
      · trivial
      · refine .send rfl fun canceled => ?_
        split
        · trivial
        · refine .send rfl fun time => ?_
          split
          · trivial
          · refine .send rfl fun event => ?_
            rcases event with _ | bytes | _ | _
            · trivial
            · exact .bind (.bind (ordinary_feed _ _) fun _ => trivial) fun _ => trivial
            · trivial
            · trivial

/-- The rest of a pass of the worker: it hands out a response only while it is busy, only as its
last call, and is idle then. -/
inductive Ends : Bool → AtM Worker → Prop where
  | stays {busy : Bool} {w : Worker} (same : w.busy = busy) : Ends busy (.done w)
  | handsOut {response : Response} {parser : Parser} {next : Unit → AtM Worker}
      (rests : next () = .done (.idle parser)) : Ends true (.call (.complete response) next)
  | asks {busy : Bool} {asked : AtCall} {next : asked.Reply → AtM Worker}
      (ordinary : asked.isOrdinary = true) (later : ∀ reply, Ends busy (next reply)) :
      Ends busy (.call asked next)

theorem Ends.bind {α : Type} {busy : Bool} {p : AtM α} {f : α → AtM Worker} (first : Ordinary p)
    (later : ∀ value, Ends busy (f value)) : Ends busy (p >>= f) := by
  induction p with
  | done value => exact later value
  | call asked next ih => exact .asks first.1 fun reply => ih reply (first.2 reply)

theorem Ends.send {busy : Bool} {asked : AtCall} {f : asked.Reply → AtM Worker}
    (ordinary : asked.isOrdinary = true) (later : ∀ reply, Ends busy (f reply)) :
    Ends busy (Prog.send asked >>= f) := .asks ordinary later

theorem ends_conclude (request : Request) (number : UInt8) (response : Response) (parser : Parser)
    (result : AtResult) : Ends true (concludeAttempt request number response parser result) := by
  unfold concludeAttempt
  simp only
  split
  · exact .handsOut rfl
  · exact .stays rfl

theorem ends_pass {w : Worker} (busy : w.busy = true) : Ends true w.pass := by
  cases w with
  | idle parser => cases busy
  | draining request number again parser =>
      refine .send rfl fun event => ?_
      rcases event with _ | bytes | _ | _
      · dsimp only
        split
        · exact .stays rfl
        · refine .bind (ordinary_beginAttempt _ _ _) fun outcome => ?_
          cases outcome with
          | error result => exact ends_conclude _ _ _ _ _
          | ok attempt => exact .stays rfl
      · exact .bind (ordinary_feedIdle _ _) fun _ => .stays rfl
      · exact .stays rfl
      · exact .stays rfl
  | attempting number attempt =>
      refine .bind (ordinary_pass attempt) fun outcome => ?_
      cases outcome with
      | inl result => exact ends_conclude _ _ _ _ _
      | inr after => exact .stays rfl

/-- The idle worker takes the next request, or goes on with the idle traffic. -/
theorem idle_pass (parser : Parser) : ∃ next,
    (Worker.idle parser).pass = .call .receiveRequest next ∧
      (∀ request, next (some request) = .done (.draining request 1 false parser)) ∧
      Ends false (next none) := by
  refine ⟨_, rfl, fun _ => rfl, .send rfl fun event => ?_⟩
  rcases event with _ | bytes | _ | _
  · exact .stays rfl
  · dsimp only
    split
    · exact .stays rfl
    · exact .bind (ordinary_feedIdle _ _) fun _ => .stays rfl
  · exact .stays rfl
  · exact .stays rfl

/-! ## What the tasks leave each other -/

variable {party : Party} {s t : Engine}

/-- What a call of another task leaves to this one. -/
structure Beside (party : Party) (s t : Engine) : Prop where
  sound : t.Sound
  frames : ∀ frame, (frame, party) ∈ s.frames → (frame, party) ∈ t.frames
  semaphores : ∀ frame, (frame, party) ∈ s.frames → frame ∈ s.semaphores → frame ∈ t.semaphores
  given : ∀ frame, (frame, party) ∈ s.frames → frame ∈ s.given → frame ∈ t.given
  fresh : ∀ frame, (frame, party) ∈ s.frames → frame ∉ s.submitted → frame ∉ t.submitted
  waits : ∀ message ∈ s.pending, message ∈ t.pending ∨ message.frame ∈ t.given ∧
    ∃ entry ∈ t.finished, entry.frame = message.frame ∧ entry.request = message.request
  finished : ∀ entry ∈ s.finished, entry ∈ t.finished
  worker : party = .worker → t.serving = s.serving ∧ t.work = s.work ∧ t.worker = s.worker

/-- A call that changes neither messages nor frames nor semaphores. -/
theorem Beside.same (sound : t.Sound) (frames : t.frames = s.frames)
    (semaphores : t.semaphores = s.semaphores) (given : t.given = s.given)
    (pending : t.pending = s.pending) (finished : t.finished = s.finished)
    (worker : party = .worker → t.serving = s.serving ∧ t.work = s.work ∧ t.worker = s.worker) :
    Beside party s t := by
  refine ⟨sound, ?_, ?_, ?_, ?_, ?_, ?_, worker⟩
  · rw [frames]
    exact fun _ => id
  · rw [semaphores]
    exact fun _ _ => id
  · rw [given]
    exact fun _ _ => id
  · rw [Engine.submitted, Engine.submitted, pending, finished]
    exact fun _ _ => id
  · rw [pending]
    exact fun _ => .inl
  · rw [finished]
    exact fun _ => id

/-- A frame is one task's. -/
theorem Engine.Sound.owner {frame : Nat} {one other : Party} (sound : s.Sound)
    (first : (frame, one) ∈ s.frames) (second : (frame, other) ∈ s.frames) : one = other :=
  (Prod.mk.inj (List.inj_on_of_nodup_map sound.distinct first second rfl)).2

theorem beside_of_allowed {other : Party} {request : EngineCall} {reply : request.Reply}
    (different : other ≠ party) (allowed : Allowed party s request)
    (answers : request.Answers party s reply t) : Beside other s t := by
  have sound := allowed.sound_after answers
  have respects := allowed.respects
  have apart : ∀ {frame mine : Nat}, (frame, party) ∈ s.frames → (mine, other) ∈ s.frames →
      mine ≠ frame := by
    rintro frame mine theirs own rfl
    exact different (allowed.sound.owner own theirs)
  cases request with
  | enter =>
      obtain ⟨-, rfl⟩ := answers
      exact ⟨sound, fun frame mine => List.mem_cons_of_mem _ mine, fun _ _ => id, fun _ _ => id,
        fun _ _ => id, fun _ => .inl, fun _ => id, fun _ => ⟨rfl, rfl, rfl⟩⟩
  | create frame =>
      obtain rfl : t = { s with semaphores := frame :: s.semaphores } := answers
      exact ⟨sound, fun _ => id, fun _ _ made => List.mem_cons_of_mem _ made, fun _ _ => id,
        fun _ _ => id, fun _ => .inl, fun _ => id, fun _ => ⟨rfl, rfl, rfl⟩⟩
  | submit message =>
      obtain ⟨-, rfl⟩ := answers
      refine ⟨sound, fun _ => id, fun _ _ => id, fun _ _ => id, ?_, ?_, fun _ => id,
        fun _ => ⟨rfl, rfl, rfl⟩⟩
      · intro frame mine absent member
        simp only [Engine.submitted, Engine.pending, List.map_append, List.map_cons, List.map_nil,
          List.mem_append, List.mem_singleton] at member absent
        rcases member with (serving | queued | same) | finished
        · exact absent (.inl (.inl serving))
        · exact absent (.inl (.inr queued))
        · exact apart respects.1 mine same
        · exact absent (.inr finished)
      · intro one member
        refine .inl ?_
        rw [Engine.pending, ← List.append_assoc]
        exact List.mem_append_left _ member
  | await frame =>
      obtain ⟨-, rfl⟩ := answers
      refine ⟨sound, fun _ => id, fun _ _ => id, ?_, fun _ _ => id, fun _ => .inl, fun _ => id,
        fun _ => ⟨rfl, rfl, rfl⟩⟩
      exact fun one mine there => (List.mem_erase_of_ne (apart respects.1 mine)).mpr there
  | leave frame =>
      obtain rfl : t = { s with semaphores := s.semaphores.erase frame } := answers
      refine ⟨sound, fun _ => id, ?_, fun _ _ => id, fun _ _ => id, fun _ => .inl, fun _ => id,
        fun _ => ⟨rfl, rfl, rfl⟩⟩
      exact fun one mine there => (List.mem_erase_of_ne (apart respects.1 mine)).mpr there
  | use frame request =>
      obtain ⟨-, rfl⟩ := answers
      exact .same sound rfl rfl rfl rfl rfl fun _ => ⟨rfl, rfl, rfl⟩
  | resume =>
      obtain ⟨-, rfl⟩ := answers
      exact .same sound rfl rfl rfl rfl rfl fun _ => ⟨rfl, rfl, rfl⟩
  | keep worker =>
      obtain rfl : t = { s with worker := worker } := answers
      exact .same sound rfl rfl rfl rfl rfl fun self => absurd (self.trans respects.symm) different
  | worker asked =>
      have serves : s.Serves asked reply t := answers
      have mine : party = .worker := by
        cases asked with
        | receiveRequest | complete _ => exact respects.1
        | _ => exact respects
      have others : other ≠ .worker := fun self => different (self.trans mine.symm)
      cases asked with
      | receiveRequest =>
          cases reply with
          | none =>
              obtain ⟨-, rfl⟩ := serves
              exact .same sound rfl rfl rfl rfl rfl fun self => absurd self others
          | some request =>
              obtain ⟨message, rest, queued, -, rfl⟩ := serves
              exact .same sound rfl rfl rfl (pending_receive respects.2 queued) rfl
                fun self => absurd self others
      | complete response =>
          obtain ⟨-, message, serving, -⟩ := respects
          have order := submitted_complete serving response
          obtain rfl : t = s.complete response := serves
          rw [complete_eq serving] at order sound ⊢
          refine ⟨sound, fun _ => id, fun _ _ => id, fun _ _ there => List.mem_cons_of_mem _ there,
            ?_, ?_, ?_, fun self => absurd self others⟩
          · exact fun frame _ absent member => absent (order.mem_iff.mp member)
          · intro one member
            rw [Engine.pending, serving] at member
            rcases List.mem_cons.mp member with rfl | queued
            · exact .inr ⟨List.mem_cons_self, _, List.mem_cons_self, rfl, rfl⟩
            · exact .inl queued
          · exact fun entry member => List.mem_cons_of_mem _ member
      | token _ | queueUrc _ | isReady | write _ | overflowEpoch | transportLostEpoch | cancelEpoch
      | time | receiveRx _ =>
          obtain rfl := serves_ordinary rfl serves
          exact .same sound rfl rfl rfl rfl rfl fun self => absurd self others

/-- The task makes allowed calls, and afterwards this holds. -/
abbrev Keeps {α : Type} (party : Party) (post : α → Engine → Prop) (program : EngineM α)
    (s : Engine) : Prop :=
  Guards (Beside party) (fun s request reply t => request.Answers party s reply t) (Allowed party)
    post program s

/-! ## A caller -/

variable {frame : Nat} {request : Request}

/-- The caller has the frame and has not submitted it. -/
structure Fresh (party : Party) (frame : Nat) (s : Engine) : Prop where
  sound : s.Sound
  mine : (frame, party) ∈ s.frames
  fresh : frame ∉ s.submitted

/-- The request is under way, or its response is there. -/
structure Waits (party : Party) (frame : Nat) (request : Request) (s : Engine) : Prop where
  sound : s.Sound
  mine : (frame, party) ∈ s.frames
  served : ⟨frame, request⟩ ∈ s.pending ∨ frame ∈ s.given ∧
    ∃ entry ∈ s.finished, entry.frame = frame ∧ entry.request = request

/-- The response is there. -/
structure Served (party : Party) (frame : Nat) (request : Request) (s : Engine) : Prop where
  sound : s.Sound
  mine : (frame, party) ∈ s.frames
  served : ∃ entry ∈ s.finished, entry.frame = frame ∧ entry.request = request

theorem fresh_stable : Stable (Beside party) (Fresh party frame) := by
  intro s t holds beside
  exact ⟨beside.sound, beside.frames _ holds.mine, beside.fresh _ holds.mine holds.fresh⟩

theorem waits_stable : Stable (Beside party) (Waits party frame request) := by
  intro s t holds beside
  refine ⟨beside.sound, beside.frames _ holds.mine, ?_⟩
  rcases holds.served with waiting | ⟨given, entry, member, same⟩
  · exact beside.waits _ waiting
  · exact .inr ⟨beside.given _ holds.mine given, entry, beside.finished _ member, same⟩

theorem served_stable : Stable (Beside party) (Served party frame request) := by
  intro s t holds beside
  obtain ⟨entry, member, same⟩ := holds.served
  exact ⟨beside.sound, beside.frames _ holds.mine, entry, beside.finished _ member, same⟩

theorem sound_stable : Stable (Beside party) Engine.Sound := fun _ _ _ beside => beside.sound

/-- A finished request is not under way. -/
theorem Engine.Sound.notPending (sound : s.Sound) {entry : Finished} (member : entry ∈ s.finished) :
    entry.frame ∉ s.pending.map Message.frame := by
  have apart := (List.nodup_append.mp sound.once).2.2
  intro waiting
  exact apart _ waiting _ (List.mem_map_of_mem member) rfl

/-- Whoever takes its semaphore finds the response. -/
theorem Waits.taken (waits : Waits party frame request s) (given : frame ∈ s.given) :
    ∃ entry ∈ s.finished, entry.frame = frame ∧ entry.request = request := by
  rcases waits.served with waiting | ⟨-, finished⟩
  · obtain ⟨entry, member, same⟩ := List.mem_map.mp (waits.sound.given frame given)
    refine absurd ?_ (waits.sound.notPending member)
    rw [same]
    exact List.mem_map_of_mem waiting
  · exact finished

theorem keeps_atEngineExecute (holds : Fresh party frame s) :
    Keeps party (fun outcome t => t.Sound ∧ (outcome = .ok () → Served party frame request t))
      (atEngineExecute request frame) s := by
  unfold atEngineExecute
  split
  · refine Guards.done ?_ ⟨holds.sound, nofun⟩
    exact fun u v holds beside => ⟨beside.sound, nofun⟩
  refine Guards.send _ fresh_stable holds (fun u here => ⟨here.sound, here.mine⟩) ?_
  intro u reply v here answers
  have allowed : Allowed party u (.create frame) := ⟨here.sound, here.mine⟩
  have created := allowed.sound_after answers
  obtain rfl : v = { u with semaphores := frame :: u.semaphores } := answers
  refine Guards.send (fun s => Fresh party frame s ∧ frame ∈ s.semaphores) ?_
    ⟨⟨created, here.mine, here.fresh⟩, List.mem_cons_self⟩
    (fun u here => ⟨here.1.sound, here.1.mine, here.1.fresh, here.2⟩) ?_
  · exact fun u v here beside =>
      ⟨fresh_stable u v here.1 beside, beside.semaphores _ here.1.mine here.2⟩
  intro u reply v here answers
  have allowed : Allowed party u (.submit ⟨frame, request⟩) :=
    ⟨here.1.sound, here.1.mine, here.1.fresh, here.2⟩
  have submitted := allowed.sound_after answers
  obtain ⟨-, rfl⟩ := answers
  refine Guards.send (Waits party frame request) waits_stable ⟨submitted, here.1.mine, .inl ?_⟩
    (fun u here => ⟨here.sound, here.mine, ?_⟩) ?_
  · simp [Engine.pending]
  · rcases here.served with waiting | ⟨given, -⟩
    · exact .inl (List.mem_map_of_mem waiting)
    · exact .inr given
  intro u reply v waits answers
  have taken := waits.taken answers.1
  have allowed : Allowed party u (.await frame) := ⟨waits.sound, waits.mine, .inr answers.1⟩
  have sound := allowed.sound_after answers
  obtain ⟨-, rfl⟩ := answers
  refine Guards.send (Served party frame request) served_stable ⟨sound, waits.mine, taken⟩
    (fun u here => ⟨here.sound, here.mine, ?_⟩) ?_
  · obtain ⟨entry, member, rfl, -⟩ := here.served
    exact here.sound.notPending member
  intro u reply v here answers
  obtain ⟨entry, member, rfl, same⟩ := here.served
  have allowed : Allowed party u (.leave entry.frame) :=
    ⟨here.sound, here.mine, here.sound.notPending member⟩
  have left := allowed.sound_after answers
  obtain rfl : v = { u with semaphores := u.semaphores.erase entry.frame } := answers
  refine Guards.done ?_ ⟨left, fun _ => ⟨left, here.mine, entry, member, rfl, same⟩⟩
  exact fun u v holds beside => ⟨beside.sound, fun ok => served_stable u v (holds.2 ok) beside⟩

theorem keeps_execute (sound : s.Sound) (other : party ≠ .worker) :
    Keeps party (fun _ => Engine.Sound) (execute request) s := by
  refine Guards.send _ sound_stable sound (fun u here => ⟨here, other⟩) ?_
  intro u frame v here answers
  have allowed : Allowed party u .enter := ⟨here, other⟩
  have entered := allowed.sound_after answers
  obtain ⟨rfl, rfl⟩ := answers
  have fresh : u.nextFrame ∉ u.submitted := fun member => Nat.lt_irrefl _ (here.below _ member)
  refine Guards.bind (Guards.mono ?_
    (keeps_atEngineExecute ⟨entered, List.mem_cons_self, fresh⟩))
  rintro (e | ⟨⟩) v ⟨sound, served⟩
  · exact Guards.done sound_stable sound
  · refine Guards.send _ served_stable (served rfl)
      (fun u here => ⟨here.sound, here.mine, here.served⟩) ?_
    rintro u reply v here ⟨-, rfl⟩
    exact Guards.done sound_stable here.sound

/-! ## The worker -/

/-- Between two passes of the worker: it serves nobody, or has begun to execute the request. -/
structure Carries (w : Worker) (s : Engine) : Prop where
  sound : s.Sound
  reached : w.Reached
  idle : s.serving = none → w.busy = false
  busy : ∀ message, s.serving = some message → ∃ parser,
    Worker.Reached (.draining message.request 1 false parser) ∧
      Worker.Passes (.draining message.request 1 false parser) s.work w

/-- In a pass of the worker, after these calls of it, with this message. -/
structure Midway (w : Worker) (last : Trace) (serving : Option Message) (s : Engine) : Prop where
  sound : s.Sound
  same : s.serving = serving
  busy : ∀ message, serving = some message → ∃ parser first,
    Worker.Reached (.draining message.request 1 false parser) ∧
      Worker.Passes (.draining message.request 1 false parser) first w ∧ s.work = first ++ last

theorem Worker.Passes.busy {w v : Worker} {trace : Trace} (passes : Worker.Passes w trace v)
    (busy : w.busy = true) : v.busy = true := by
  cases passes with
  | here => exact busy
  | pass _ _ after => exact after

theorem carries_stable {w : Worker} : Stable (Beside .worker) (Carries w) := by
  intro s t holds beside
  obtain ⟨serving, work, -⟩ := beside.worker rfl
  refine ⟨beside.sound, holds.reached, ?_, ?_⟩
  · rw [serving]
    exact holds.idle
  · rw [serving, work]
    exact holds.busy

theorem midway_stable {w : Worker} {last : Trace} {serving : Option Message} :
    Stable (Beside .worker) (Midway w last serving) := by
  intro s t holds beside
  obtain ⟨same, work, -⟩ := beside.worker rfl
  refine ⟨beside.sound, same.trans holds.same, ?_⟩
  rw [work]
  exact holds.busy

abbrev embed {α : Type} (p : AtM α) : EngineM α := p.lift EngineCall.worker fun _ reply => reply

theorem keeps_ends {w : Worker} {last : Trace} {p : AtM Worker} {busy : Bool}
    {serving : Option Message} (ends : Ends busy p) (begins : w.pass.Begins last p)
    (reached : w.Reached) (midway : Midway w last serving s) (serves : serving.isSome = busy) :
    Keeps .worker Carries (embed p) s := by
  induction ends generalizing s last with
  | @stays busy v same =>
      have can := begins.can .done
      rw [List.append_nil] at can
      refine Guards.done carries_stable ⟨midway.sound, .pass reached can, ?_, ?_⟩
      · intro none
        rw [same, ← serves, ← midway.same, none]
        rfl
      · intro message some
        rw [midway.same] at some
        obtain ⟨parser, first, received, passes, work⟩ := midway.busy message some
        have busy : v.busy = true := by
          rw [same, ← serves, some]
          rfl
        rw [work]
        exact ⟨parser, received, .pass passes can busy⟩
  | @handsOut response parser next rests =>
      obtain ⟨message, rfl⟩ := Option.isSome_iff_exists.mp serves
      have may : ∀ u, Midway w last (some message) u →
          Allowed .worker u (.worker (.complete response)) := by
        intro u here
        obtain ⟨parser, first, received, passes, work⟩ := here.busy message rfl
        refine ⟨here.sound, rfl, message, here.same, parser, received, ?_⟩
        exact ⟨w, first, last, next, passes, begins, work⟩
      refine Guards.call _ midway_stable midway may ?_
      intro u reply v here answers
      have sound := (may u here).sound_after answers
      obtain rfl : v = u.complete response := answers
      have rest : (next ()).Can [] (.idle parser) := by
        rw [rests]
        exact .done
      rw [complete_eq here.same] at sound ⊢
      change Keeps .worker Carries (embed (next ())) _
      rw [rests]
      exact Guards.done carries_stable
        ⟨sound, .pass reached ((begins.next ()).can rest), fun _ => rfl, nofun⟩
  | @asks busy asked next ordinary later ih =>
      have may : ∀ u, Midway w last serving u → Allowed .worker u (.worker asked) := by
        intro u here
        refine ⟨here.sound, ?_⟩
        cases asked with
        | receiveRequest | complete _ => cases ordinary
        | _ => rfl
      refine Guards.call _ midway_stable midway may ?_
      intro u reply v here answers
      have sound := (may u here).sound_after answers
      obtain rfl := serves_ordinary ordinary answers
      refine ih reply (begins.next reply) ⟨sound, here.same, ?_⟩ serves
      intro message some
      obtain ⟨parser, first, received, passes, work⟩ := here.busy message some
      exact ⟨parser, first, received, passes, by rw [work, List.append_assoc]⟩

theorem keeps_pass {w : Worker} (carries : Carries w s) : Keeps .worker Carries (embed w.pass) s := by
  cases busy : w.busy with
  | true =>
      refine keeps_ends (ends_pass busy) .here carries.reached ⟨carries.sound, rfl, ?_⟩ ?_
      · intro message some
        obtain ⟨parser, received, passes⟩ := carries.busy message some
        exact ⟨parser, s.work, received, passes, (List.append_nil _).symm⟩
      · cases serving : s.serving with
        | none =>
            rw [carries.idle serving] at busy
            cases busy
        | some message => rfl
  | false =>
      cases w with
      | draining _ _ _ _ | attempting _ _ => cases busy
      | idle parser =>
          have free : s.serving = none := by
            cases serving : s.serving with
            | none => rfl
            | some message =>
                obtain ⟨_, -, passes⟩ := carries.busy message serving
                rw [passes.busy rfl] at busy
                cases busy
          obtain ⟨next, shape, takes, ends⟩ := idle_pass parser
          rw [shape]
          refine Guards.call (fun t => t.Sound ∧ t.serving = none) ?_ ⟨carries.sound, free⟩
            (fun t here => ⟨here.1, rfl, here.2⟩) ?_
          · intro u v here beside
            exact ⟨beside.sound, (beside.worker rfl).1.trans here.2⟩
          intro u reply v here answers
          have allowed : Allowed .worker u (.worker .receiveRequest) := ⟨here.1, rfl, here.2⟩
          have sound := allowed.sound_after answers
          cases reply with
          | none =>
              obtain ⟨-, rfl⟩ := answers
              have begins : (Worker.idle parser).pass.Begins [⟨(), .receiveRequest, none⟩]
                  (next none) := by
                rw [shape]
                exact .call .here
              exact keeps_ends ends begins carries.reached ⟨sound, here.2, nofun⟩ rfl
          | some request =>
              obtain ⟨message, rest, queued, rfl, rfl⟩ := answers
              have begins : (Worker.idle parser).pass.Begins
                  [⟨(), .receiveRequest, some message.request⟩]
                  (.done (.draining message.request 1 false parser)) := by
                rw [shape, ← takes]
                exact .call .here
              change Keeps .worker Carries (embed (next (some message.request))) _
              rw [takes]
              have received := Worker.Reached.pass carries.reached (begins.can .done)
              refine Guards.done carries_stable ⟨sound, received, nofun, ?_⟩
              rintro _ ⟨⟩
              exact ⟨parser, received, .here⟩

theorem resting_stable : Stable (Beside .worker) fun s => Carries s.worker s := by
  intro s t holds beside
  obtain ⟨-, -, same⟩ := beside.worker rfl
  have carries := carries_stable s t holds beside
  rwa [← same] at carries

theorem keeps_workerPass (carries : Carries s.worker s) :
    Keeps .worker (fun _ t => Carries t.worker t) workerPass s := by
  refine Guards.send _ resting_stable carries (fun u here => ⟨here.sound, rfl⟩) ?_
  rintro u w v here ⟨rfl, rfl⟩
  refine Guards.bind (Guards.mono ?_ (keeps_pass here))
  intro w t after
  refine Guards.send (Carries w) carries_stable after (fun u here => ⟨here.sound, rfl⟩) ?_
  intro u reply x here answers
  have allowed : Allowed .worker u (.keep w) := ⟨here.sound, rfl⟩
  have sound := allowed.sound_after answers
  obtain rfl : x = { u with worker := w } := answers
  exact Guards.done resting_stable ⟨sound, here.reached, here.idle, here.busy⟩

/-! ## Every run -/

def contract : Contract Party Engine EngineCall where
  rely := Beside
  allowed := Allowed
  idle party s := s.Sound ∧ (party = .worker → Carries s.worker s)

theorem contract_stable (party : Party) : Stable (contract.rely party) (contract.idle party) := by
  intro s t holds beside
  refine ⟨beside.sound, ?_⟩
  rintro rfl
  exact resting_stable s t (holds.2 rfl) beside

theorem contract_kept : contract.Kept rules where
  others different allowed answers := beside_of_allowed different allowed answers
  programs := by
    intro party program s starts idle
    cases starts with
    | worker =>
        exact Guards.mono (fun _ t carries => ⟨carries.sound, fun _ => carries⟩)
          (keeps_workerPass (idle.2 rfl))
    | caller number request =>
        exact Guards.mono (fun _ t sound => ⟨sound, fun other => by cases other⟩)
          (keeps_execute idle.1 (by simp))

theorem initial_sound : Engine.initial.Sound :=
  ⟨by simp [Engine.initial, Engine.pending], by simp [Engine.initial, Engine.submitted, Engine.pending],
    by simp [Engine.initial, Engine.submitted, Engine.pending], by simp [Engine.initial],
    by simp [Engine.initial], by simp [Engine.initial], by simp [Engine.initial],
    by simp [Engine.initial]⟩

theorem reached_holds {g : Exchange} (reached : g.Reached) : contract.Holds rules g := by
  refine contract_kept.reached (fun party => ⟨initial_sound, fun _ => ?_⟩) contract_stable reached
  exact ⟨initial_sound, .start, fun _ => rfl, nofun⟩

theorem reached_sound {g : Exchange} (reached : g.Reached) : g.state.Sound := by
  have holds := reached_holds reached
  cases rest : g.rest .worker with
  | done _ => exact (holds.idle rest).1
  | call request next => exact (holds.allowed rest).sound

/-- Whichever callers there are, and in every order of their calls and the worker's: what a caller
reads is the response to its own request, of one execution of it that was for this call alone. -/
theorem response_is_own {g : Exchange} (reached : g.Reached) {number frame : Nat} {request : Request}
    {next : Response → EngineM Unit}
    (reads : g.rest (.caller number) = .call (.use frame request) next) :
    (∃ entry ∈ g.state.finished, entry.frame = frame ∧ entry.request = request ∧
        entry.response = g.state.responses frame ∧ entry.Sound) ∧
      (g.state.finished.map Finished.frame).Nodup ∧
      ∀ party, (frame, party) ∈ g.state.frames ↔ party = .caller number := by
  have holds := reached_holds reached
  obtain ⟨sound, mine, entry, member, rfl, rfl⟩ := holds.allowed reads
  refine ⟨⟨entry, member, rfl, rfl, ?_, sound.executed entry member⟩, ?_, fun party => ⟨?_, ?_⟩⟩
  · exact (sound.response entry member).symm
  · exact (List.nodup_append.mp sound.once).2.1
  · exact fun theirs => sound.owner theirs mine
  · rintro rfl
    exact mine

/-- No semaphore that the worker will give is gone: the call with it has not returned. And no caller
waits for nothing: its request is under way, or its semaphore was given. -/
theorem semaphore_awaited {g : Exchange} (reached : g.Reached) :
    (∀ message ∈ g.state.pending, message.frame ∈ g.state.semaphores) ∧
      (g.state.pending.map Message.frame).Nodup ∧
      ∀ party frame next, g.rest party = .call (.await frame) next →
        frame ∈ g.state.pending.map Message.frame ∨ frame ∈ g.state.given := by
  have sound := reached_sound reached
  refine ⟨sound.opened, (List.nodup_append.mp sound.once).1, ?_⟩
  intro party frame next waits
  exact ((reached_holds reached).allowed waits).respects.2

/-! Two callers, and a transport that is not ready. -/

/-- `AT`, twice if the transport fails. -/
def probeRequest : Request := ⟨.text "AT", [], 0, 2, 0, retryOnTransportError, false, []⟩

/-- A transport that is not ready, and a modem that says nothing. -/
def unready : (request : AtCall) → Unit → request.Reply × Unit
  | .token _, _ | .complete _, _ => ((), ())
  | .queueUrc _, _ => (true, ())
  | .isReady, _ => (false, ())
  | .write _, _ => (.ok (), ())
  | .overflowEpoch, _ | .transportLostEpoch, _ | .cancelEpoch, _ => (0, ())
  | .time, _ => (0, ())
  | .receiveRx _, _ => (none, ())
  | .receiveRequest, _ => (some probeRequest, ())

def Engine.serve (s : Engine) : (asked : AtCall) → asked.Reply × Engine
  | .receiveRequest =>
      match s.queue with
      | [] => (none, s)
      | message :: rest =>
          (some message.request, { s with queue := rest, serving := some message, work := [] })
  | .complete response => ((), s.complete response)
  | asked =>
      let reply := (unready asked ()).1
      (reply, { s with work := s.work ++ [⟨(), asked, reply⟩] })

theorem serve_serves (s : Engine) (asked : AtCall) :
    s.Serves asked (s.serve asked).1 (s.serve asked).2 := by
  cases asked with
  | receiveRequest =>
      rw [Engine.serve]
      cases queued : s.queue with
      | nil => exact ⟨queued, rfl⟩
      | cons message rest => exact ⟨message, rest, queued, rfl, rfl⟩
  | _ => rfl

def EngineCall.answer (party : Party) :
    (request : EngineCall) → Engine → Option (request.Reply × Engine)
  | .enter, s => some (s.nextFrame,
      { s with nextFrame := s.nextFrame + 1, frames := (s.nextFrame, party) :: s.frames })
  | .create frame, s => some ((), { s with semaphores := frame :: s.semaphores })
  | .submit message, s =>
      if s.queue.length < requestQueueDepth then some ((), { s with queue := s.queue ++ [message] })
      else none
  | .await frame, s =>
      if frame ∈ s.given then some ((), { s with given := s.given.erase frame }) else none
  | .leave frame, s => some ((), { s with semaphores := s.semaphores.erase frame })
  | .use frame _, s => some (s.responses frame, s)
  | .resume, s => some (s.worker, s)
  | .keep kept, s => some ((), { s with worker := kept })
  | .worker asked, s => some (s.serve asked)

theorem EngineCall.answer_answers {request : EngineCall} {reply : request.Reply}
    (answered : request.answer party s = some (reply, t)) : request.Answers party s reply t := by
  cases request with
  | submit message =>
      simp only [answer] at answered
      split at answered
      · rename_i room
        cases answered
        exact ⟨room, rfl⟩
      · cases answered
  | await frame =>
      simp only [answer] at answered
      split at answered
      · rename_i given
        cases answered
        exact ⟨given, rfl⟩
      · cases answered
  | worker asked =>
      have served := serve_serves s asked
      rw [Option.some.inj answered] at served
      exact served
  | enter | use _ _ | resume =>
      cases answered
      exact ⟨rfl, rfl⟩
  | create _ | leave _ | keep _ =>
      cases answered
      rfl

abbrev Schedule := List (Crew.Move Party EngineCall EngineCall.Reply)

def play (schedule : Schedule) : Option Exchange :=
  Crew.play (fun _ party request s => request.answer party s) schedule
    ⟨Engine.initial, fun _ => .done ()⟩

theorem reached_of_play {schedule : Schedule}
    (may : ∀ move ∈ schedule, Crew.Startable rules move) {g : Exchange}
    (played : play schedule = some g) : g.Reached := by
  refine Crew.play_steps ?_ may played
  intro _ party request s reply t answered
  exact EngineCall.answer_answers answered

/-- Both callers submit their requests, and the worker takes the first one. -/
def bothSubmit : Schedule :=
  [.start (.caller 0) (execute probeRequest), .start (.caller 1) (execute cmgsRequest)] ++
    List.flatten (List.replicate 3 [.call (.caller 1) 0, .call (.caller 0) 0]) ++
    [.start .worker workerPass] ++ List.replicate 3 (.call .worker 0)

/-- The worker executes it, and its caller takes the semaphore and returns. -/
def oneReturns : Schedule :=
  bothSubmit ++ [.start .worker workerPass] ++ List.replicate 8 (.call .worker 0) ++
    [.call (.caller 1) 0, .call (.caller 1) 0]

theorem startable_oneReturns : ∀ move ∈ oneReturns, Crew.Startable rules move := by
  intro move member
  simp only [oneReturns, bothSubmit, List.mem_append, List.mem_flatten, List.mem_replicate,
    List.mem_cons, List.not_mem_nil, or_false] at member
  rcases member with ((((((rfl | rfl) | ⟨part, ⟨-, rfl⟩, member⟩) | rfl) | ⟨-, rfl⟩) | rfl) |
    ⟨-, rfl⟩) | rfl | rfl
  · exact .caller 0 probeRequest
  · exact .caller 1 cmgsRequest
  · simp only [List.mem_cons, List.not_mem_nil, or_false] at member
    rcases member with rfl | rfl <;> trivial
  · exact .worker
  · trivial
  · exact .worker
  · trivial
  · trivial
  · trivial

/-- The response that the caller is about to read. -/
def reading : EngineM Unit → Option (Nat × Request)
  | .call (.use frame request) _ => some (frame, request)
  | _ => none

theorem reading_eq {p : EngineM Unit} {frame : Nat} {request : Request}
    (reads : reading p = some (frame, request)) : ∃ next, p = .call (.use frame request) next := by
  unfold reading at reads
  split at reads
  · cases reads
    exact ⟨_, rfl⟩
  · cases reads

theorem response_is_own_returned : ∃ g : Exchange, g.Reached ∧
    ∃ entry ∈ g.state.finished, entry.request = cmgsRequest ∧ entry.response = g.state.responses 0 ∧
      (g.state.responses 0).result = .transportUnavailable := by
  have played : (play oneReturns).map (fun g =>
      (reading (g.rest (.caller 1)), (g.state.responses 0).result)) =
        some (some (0, cmgsRequest), .transportUnavailable) := by decide +kernel
  obtain ⟨g, played, facts⟩ := Option.map_eq_some_iff.mp played
  have reached := reached_of_play startable_oneReturns played
  obtain ⟨reads, result⟩ := Prod.mk.inj facts
  obtain ⟨next, reads⟩ := reading_eq reads
  obtain ⟨⟨entry, member, -, request, response, -⟩, -⟩ := response_is_own reached reads
  exact ⟨g, reached, entry, member, request, response, result⟩

theorem semaphore_awaited_both : ∃ g : Exchange, g.Reached ∧
    g.state.pending = [⟨0, cmgsRequest⟩, ⟨1, probeRequest⟩] ∧
      0 ∈ g.state.semaphores ∧ 1 ∈ g.state.semaphores := by
  have played : (play bothSubmit).map (fun g => g.state.pending) =
      some [⟨0, cmgsRequest⟩, ⟨1, probeRequest⟩] := by decide +kernel
  obtain ⟨g, played, pending⟩ := Option.map_eq_some_iff.mp played
  have reached : g.Reached := by
    refine reached_of_play (fun move member => startable_oneReturns move ?_) played
    rw [oneReturns, List.append_assoc, List.append_assoc]
    exact List.mem_append_left _ member
  have opened := (semaphore_awaited reached).1
  rw [pending] at opened
  exact ⟨g, reached, pending, opened _ List.mem_cons_self,
    opened _ (List.mem_cons_of_mem _ List.mem_cons_self)⟩

end SmsGateway.At
