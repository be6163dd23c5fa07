import Mathlib.Data.List.Nodup
import SmsGateway.Usb.Worker

/-! The runs of the USB transport: handles are used while they are open, and an
announced modem has one. -/

namespace SmsGateway.Usb

open Lib Prog

variable {admits : State → WorkEvent → Prop} {s t : State}

/-! The other tasks. -/

/-- Between the calls of a task that has no mutex. -/
def Aloof (task : Task) (s : State) : Prop := s.Sound ∧ s.ioMutex ≠ some task

/-- A task besides the worker makes allowed calls, and afterwards this holds. -/
abbrev Serves {α : Type} (admits : State → WorkEvent → Prop) (task : Task)
    (post : α → State → Prop) (program : UsbM α) (s : State) : Prop :=
  Guards (State.Beside task) (Performs admits task) (Allowed task) post program s

variable {task : Task}

theorem stable_aloof : Stable (State.Beside task) (Aloof task) := by
  rintro s t ⟨sound, free⟩ beside
  exact ⟨beside.sound sound, fun holding => free (beside.mutex.mp holding)⟩

theorem serves_plain {α : Type} {program : UsbM α} (calls : program.Calls Plain)
    (aloof : Aloof task s) : Serves admits task (fun _ => Aloof task) program s := by
  refine Guards.keeps stable_aloof ?_ ?_ calls aloof
  · intro t request plain _
    cases request with
    | critical update => exact .inr plain
    | post _ _ | setBits _ | clearBits _ | waitBits _ | getBits | hostInstall | cdcInstall
    | eventCallback _ _ | rxCallback _ | delay => trivial
    | receive | takeMutex _ | giveMutex | loadHandle | storeHandle _ | cdcOpen _ _ | cdcClose _
    | cdcTransmit _ _ | cdcPrint _ => exact plain.elim
  · rintro t request reply u plain ⟨sound, free⟩ answered
    obtain ⟨aside, still⟩ := plain_moves plain answered.1
    exact ⟨sound.aside aside, still.mutex ▸ free⟩

/-- The task has the mutex and knows the current handle. -/
def Writing (task : Task) (handle : Option Handle) (s : State) : Prop :=
  s.Sound ∧ s.ioMutex = some task ∧ (∀ h, handle = some h → h ∈ s.opened)

theorem stable_writing {handle : Option Handle} :
    Stable (State.Beside task) (Writing task handle) := by
  rintro s t ⟨sound, holding, opened⟩ beside
  exact ⟨beside.sound sound, beside.mutex.mpr holding,
    fun h current => (beside.holding holding).2 (opened h current)⟩

theorem serves_giveMutex {α : Type} {handle : Option Handle} {result : α}
    (writing : Writing task handle s) :
    Serves admits task (fun _ => Aloof task) (ask .giveMutex >>= fun _ => pure result) s := by
  refine Guards.send _ stable_writing writing (fun t here => here.2.1) ?_
  rintro t _ u ⟨sound, -, -⟩ ⟨answers, -⟩
  obtain rfl : u = { t with ioMutex := none } := answers
  exact .done stable_aloof ⟨⟨sound.current, sound.once⟩, nofun⟩

theorem serves_writeOpenHandle {data : List UInt8} (aloof : Aloof task s) :
    Serves admits task (fun _ => Aloof task) (writeOpenHandle data) s := by
  rw [writeOpenHandle]
  split
  · exact .done stable_aloof aloof
  · refine Guards.send _ stable_aloof aloof (fun _ _ => trivial) ?_
    rintro t taken u aloof ⟨answers, -⟩
    cases taken with
    | false =>
        obtain ⟨-, rfl⟩ := answers
        exact .done stable_aloof aloof
    | true =>
        obtain ⟨-, rfl⟩ := answers
        have writing : Writing task none { t with ioMutex := some task } := by
          refine ⟨⟨aloof.1.current, aloof.1.once⟩, rfl, ?_⟩
          intro h same
          cases same
        refine Guards.send (Writing task none) stable_writing writing (fun _ _ => trivial) ?_
        rintro t current u ⟨sound, holding, -⟩ ⟨⟨rfl, rfl⟩, -⟩
        cases loaded : u.cdcHandle with
        | none =>
            have writing : Writing task none u := by
              refine ⟨sound, holding, ?_⟩
              intro h same
              cases same
            exact serves_giveMutex writing
        | some handle =>
            have writing : Writing task (some handle) u := by
              refine ⟨sound, holding, ?_⟩
              rintro h ⟨⟩
              exact sound.current handle loaded
            refine Guards.send _ stable_writing writing ?_ ?_
            · rintro t ⟨-, holding, opened⟩
              exact ⟨holding, opened handle rfl⟩
            · rintro t result u writing ⟨answers, -⟩
              obtain rfl : u = t := answers
              exact serves_giveMutex writing

theorem plain_newUsbDeviceCallback (device : Option (UInt16 × UInt16))
    (config : Option (List UInt8)) : (newUsbDeviceCallback device config).Calls Plain := by
  unfold newUsbDeviceCallback
  split
  · trivial
  · split
    · trivial
    · split
      · trivial
      · split
        · trivial
        · exact .send trivial fun _ => trivial

theorem plain_cdcRxCallback (data : List UInt8) (generation : UInt32) :
    (cdcRxCallback data generation).Calls Plain := by
  refine .send (fun _ => ⟨rfl, rfl, id⟩) ?_
  intro found
  split
  · refine .send ?_ ?_
    · intro l
      dsimp only
      split
      · exact ⟨rfl, rfl, id⟩
      · exact ⟨rfl, rfl, id⟩
    · have forwards : Prog.Calls Plain (do
          let found ← ask (.critical id)
          if ¬found.probing ∧ found.diagnostics.atReady ∧ found.rxCallback then
            ask (.rxCallback data)) := by
        refine .send (fun _ => ⟨rfl, rfl, id⟩) ?_
        intro found
        split
        · exact plain_ask trivial
        · trivial
      intro found
      split
      · exact .send trivial fun _ => forwards
      · exact forwards
  · trivial

theorem plain_cdcDeviceEventCallback (event : CdcEvent) (generation : UInt32) :
    (cdcDeviceEventCallback event generation).Calls Plain := by
  refine .send (fun _ => ⟨rfl, rfl, id⟩) ?_
  intro found
  split
  · cases event with
    | disconnected handle | error =>
        refine .bind (plain_updateDiagnostics nofun) fun _ => ?_
        exact .send trivial fun _ => .send trivial fun _ => trivial
    | serialState | networkConnection | other => trivial
  · trivial

theorem plain_usbHostLibraryTask : usbHostLibraryTask.Calls Plain := by
  refine .send trivial ?_
  intro host
  cases host with
  | error err => exact .send trivial fun _ => trivial
  | ok _ =>
      refine .send trivial ?_
      intro cdc
      cases cdc with
      | error err => exact .send trivial fun _ => trivial
      | ok _ => exact .send trivial fun _ => trivial

theorem plain_modeSwitchCount (success : Bool) : (modeSwitchCount success).Calls Plain := by
  apply plain_updateDiagnostics
  intro d
  cases success with
  | true => exact id
  | false => exact id

theorem serves_modemUsbTransportWrite {data : List UInt8} (aloof : Aloof task s) :
    Serves admits task (fun _ => Aloof task) (modemUsbTransportWrite data) s := by
  refine Guards.send _ stable_aloof aloof (fun _ _ => .inr fun _ => ⟨rfl, rfl, id⟩) ?_
  rintro t found u aloof ⟨⟨-, rfl⟩, -⟩
  split
  · exact serves_writeOpenHandle aloof
  · exact .done stable_aloof aloof

/-- Whatever a task besides the worker starts. -/
theorem serves_starts {retries : Nat} {program : UsbM Unit} (starts : Starts retries task program)
    (other : task ≠ .worker) (aloof : Aloof task s) :
    Serves admits task (fun _ => Aloof task) program s := by
  have asks : Tame id := fun _ => ⟨rfl, rfl, id⟩
  cases starts with
  | worker => exact absurd rfl other
  | host => exact serves_plain plain_usbHostLibraryTask aloof
  | device device config => exact serves_plain (plain_newUsbDeviceCallback device config) aloof
  | received data generation => exact serves_plain (plain_cdcRxCallback data generation) aloof
  | event event generation => exact serves_plain (plain_cdcDeviceEventCallback event generation) aloof
  | counted success => exact serves_plain (plain_modeSwitchCount success) aloof
  | write number data =>
      refine Guards.bind (Guards.mono ?_ (serves_modemUsbTransportWrite aloof))
      intro _ t aloof
      exact .done stable_aloof aloof
  | setRxCallback number present =>
      exact serves_plain (.send (fun _ => ⟨rfl, rfl, id⟩) fun _ => trivial) aloof
  | isReady number | getDiagnostics number =>
      exact serves_plain (.bind (.send asks fun _ => trivial) fun _ => trivial) aloof

/-! All tasks together. -/

def contract (admits : State → WorkEvent → Prop) : Contract Task State UsbCall where
  rely := Relies
  allowed := Allowed
  idle task := if task = .worker then Resting admits else Aloof task

theorem contract_kept (retries : Nat) (admits : State → WorkEvent → Prop) :
    (contract admits).Kept (rules retries admits) := by
  refine ⟨?_, ?_⟩
  · intro task other s request reply t different allowed performs
    exact call_relies different allowed performs.1
  · intro task program s starts idle
    by_cases worker : task = .worker
    · subst worker
      cases starts
      exact works_modemUsbWorkerTask idle
    · simp only [contract, Relies, if_neg worker] at idle ⊢
      exact serves_starts starts worker idle

theorem reached_holds {retries : Nat} {g : Transport} (reached : Reached retries admits g) :
    (contract admits).Holds (rules retries admits) g := by
  refine (contract_kept retries admits).reached ?_ ?_ reached
  · intro task
    have sound : State.initial.Sound := ⟨nofun, List.nodup_nil⟩
    simp only [contract]
    split
    · exact ⟨sound, nofun, fun active => absurd rfl active, fun _ => rfl, nofun⟩
    · exact ⟨sound, nofun⟩
  · intro task
    by_cases worker : task = .worker
    · subst worker
      exact stable_resting
    · simp only [contract, Relies, if_neg worker]
      exact stable_aloof

theorem answers_once {request : UsbCall} {reply : request.Reply} (once : s.opened.Nodup)
    (answers : request.Answers task s reply t) : t.opened.Nodup := by
  cases request with
  | receive =>
      rw [answers.2]
      exact once
  | takeMutex forever =>
      simp only [UsbCall.Answers] at answers
      split at answers
      · rw [answers.2]
        exact once
      · rw [answers.2]
        exact once
  | cdcOpen _ _ =>
      cases reply with
      | error err =>
          obtain rfl : t = s := answers
          exact once
      | ok handle =>
          obtain ⟨new, rfl⟩ := answers
          exact List.nodup_cons.mpr ⟨new, once⟩
  | cdcClose handle =>
      obtain rfl : t = { s with opened := s.opened.erase handle } := answers
      exact once.erase handle
  | loadHandle =>
      obtain ⟨-, rfl⟩ := answers
      exact once
  | giveMutex | storeHandle _ | cdcTransmit _ _ | cdcPrint _ =>
      obtain rfl : t = _ := answers
      exact once
  | critical update =>
      obtain ⟨-, rfl⟩ := answers
      exact once
  | post _ _ | setBits _ | clearBits _ | getBits | waitBits _ | hostInstall | cdcInstall
  | eventCallback _ _ | rxCallback _ | delay =>
      rw [(plain_moves (by trivial) answers).2.opened]
      exact once

/-- The driver opens no handle twice. -/
theorem reached_once {retries : Nat} {g : Transport} (reached : Reached retries admits g) :
    g.state.opened.Nodup := by
  induction reached with
  | refl => exact List.nodup_nil
  | tail _ step ih =>
      cases step with
      | start idle starts => exact ih
      | call pending answered => exact answers_once ih answered.1

/-! A stick with two serial interfaces. -/

def stickDescriptor : List UInt8 :=
  [9, 4, 0, 0, 2, 0xFF, 2, 0x12, 0] ++ [7, 5, 0x81, 2, 0, 2, 0] ++ [7, 5, 0x01, 2, 0, 2, 0] ++
  [9, 4, 1, 0, 2, 0xFF, 2, 0x01, 0] ++ [7, 5, 0x82, 2, 0, 2, 0] ++ [7, 5, 0x02, 2, 0, 2, 0]

abbrev Schedule := List (Crew.Move Task UsbCall UsbCall.Reply)

/-- A task starts a program and makes some calls of it. -/
def turn (task : Task) (program : UsbM Unit) (calls : Nat) : Schedule :=
  .start task program :: List.replicate calls (.call task 7)

/-- The stick is found, and the worker waits for the answer to its first probe. -/
def probingStick : Schedule :=
  turn .driver (newUsbDeviceCallback (some (0x12D1, 0x1506)) (some stickDescriptor)) 1 ++
    turn .worker (modemUsbWorkerTask 3) 20

/-- The modem answers the probe of this generation. -/
def answered (generation : UInt32) : Schedule :=
  turn .driver (cdcRxCallback [0x0D, 0x0A, 0x4F, 0x4B, 0x0D, 0x0A] generation) 4 ++
    List.replicate 6 (.call .worker 7)

theorem startable_turn {retries : Nat} {program : UsbM Unit} {calls : Nat}
    (starts : Starts retries task program) :
    ∀ move ∈ turn task program calls, Crew.Startable (rules retries admits) move := by
  intro move member
  rcases List.mem_cons.mp member with rfl | member
  · exact starts
  · rw [List.eq_of_mem_replicate member]
    trivial

theorem startable_probingStick :
    ∀ move ∈ probingStick, Crew.Startable (rules 3 admits) move := by
  intro move member
  rcases List.mem_append.mp member with member | member
  · exact startable_turn (.device _ _) move member
  · exact startable_turn .worker move member

theorem startable_answered (generation : UInt32) :
    ∀ move ∈ answered generation, Crew.Startable (rules 3 admits) move := by
  intro move member
  rcases List.mem_append.mp member with member | member
  · exact startable_turn (.received _ _) move member
  · rw [List.eq_of_mem_replicate member]
    trivial

/-- The handles, whether the modem is announced and whether the worker rests. -/
def Transport.facts (g : Transport) : Option Handle × List Handle × Bool × Bool :=
  (g.state.cdcHandle, g.state.opened, g.state.locked.diagnostics.atReady,
    match g.rest .worker with
    | .done _ => true
    | .call _ _ => false)

theorem Transport.rests_of_facts {g : Transport} {current : Option Handle} {opened : List Handle}
    {ready : Bool} (facts : g.facts = (current, opened, ready, true)) :
    g.rest .worker = .done () ∧ g.state.cdcHandle = current ∧ g.state.opened = opened ∧
      g.state.locked.diagnostics.atReady = ready := by
  simp only [Transport.facts, Prod.mk.injEq] at facts
  obtain ⟨handle, opened, ready, finished⟩ := facts
  refine ⟨?_, handle, opened, ready⟩
  split at finished
  · assumption
  · cases finished

/-- The handle that a call hands to the driver. -/
def UsbCall.usedHandle : UsbCall → Option Handle
  | .cdcClose handle | .cdcTransmit handle _ | .cdcPrint handle => some handle
  | _ => none

/-- In every order of the tasks, whatever the driver answers and whenever it calls
back, a task writes to, prints or closes a handle only while the driver has it open,
once: nothing is used after it was closed, and nothing is closed twice. -/
theorem handle_used_while_open {retries : Nat} {g : Transport} (reached : Reached retries admits g)
    {task : Task} {request : UsbCall} {next : request.Reply → UsbM Unit}
    (pending : g.rest task = .call request next) {handle : Handle}
    (used : request.usedHandle = some handle) : g.state.opened.count handle = 1 := by
  have allowed : Allowed task g.state request := (reached_holds reached).allowed pending
  apply List.count_eq_one_of_mem (reached_once reached)
  cases request with
  | cdcClose _ =>
      cases used
      exact allowed.2.2.1
  | cdcTransmit _ _ | cdcPrint _ =>
      cases used
      exact allowed.2
  | receive | post _ _ | critical _ | setBits _ | clearBits _ | getBits | waitBits _ | takeMutex _
  | giveMutex | loadHandle | storeHandle _ | hostInstall | cdcInstall | cdcOpen _ _
  | eventCallback _ _ | rxCallback _ | delay => cases used

/-- The worker writes a probe to handle 7. -/
def Transport.probes (g : Transport) : Bool :=
  match g.rest .worker with
  | .call (.cdcTransmit handle data) _ => handle = 7 ∧ data = atCommand
  | _ => false

theorem handle_used_while_open_probe : ∃ g next, Reached 3 (fun _ _ => True) g ∧
    g.rest .worker = .call (.cdcTransmit 7 atCommand) next ∧ g.state.opened.count 7 = 1 := by
  let schedule := turn .driver
      (newUsbDeviceCallback (some (0x12D1, 0x1506)) (some stickDescriptor)) 1 ++
    turn .worker (modemUsbWorkerTask 3) 18
  have played : (Crew.play (UsbCall.answer fun _ _ => true) schedule
      ⟨State.initial, fun _ => .done ()⟩).map Transport.probes = some true := by decide +kernel
  obtain ⟨g, played, writes⟩ := Option.map_eq_some_iff.mp played
  have reached : Reached 3 (fun _ _ => True) g := by
    refine reached_of_play (fun _ _ _ => trivial) ?_ played
    intro move member
    rcases List.mem_append.mp member with member | member
    · exact startable_turn (.device _ _) move member
    · exact startable_turn .worker move member
  simp only [Transport.probes] at writes
  split at writes
  · rename_i handle data next pending
    obtain ⟨rfl, rfl⟩ := of_decide_eq_true writes
    exact ⟨g, next, reached, pending, handle_used_while_open reached pending rfl⟩
  · cases writes

/-- No device is found while a handle is open, and no error is an old one. -/
def Orderly (s : State) : WorkEvent → Prop
  | .deviceFound _ => s.cdcHandle = none
  | .error _ generation => generation = 0 ∨ generation = s.locked.activeGeneration
  | _ => True

instance (s : State) (event : WorkEvent) : Decidable (Orderly s event) := by
  cases event <;> simp only [Orderly] <;> infer_instance

/-- The stick answers the first probe. -/
theorem reached_answered : ∃ g, Reached 3 Orderly g ∧ g.rest .worker = .done () ∧
    g.state.opened = [7] ∧ g.state.locked.diagnostics.atReady = true := by
  have played : (Crew.play (UsbCall.answer fun s event => decide (Orderly s event))
      (probingStick ++ answered 1) ⟨State.initial, fun _ => .done ()⟩).map Transport.facts =
        some (some 7, [7], true, true) := by decide +kernel
  obtain ⟨g, played, facts⟩ := Option.map_eq_some_iff.mp played
  obtain ⟨rests, -, opened, ready⟩ := Transport.rests_of_facts facts
  refine ⟨g, ?_, rests, opened, ready⟩
  refine reached_of_play (fun _ _ => of_decide_eq_true) ?_ played
  intro move member
  rcases List.mem_append.mp member with member | member
  · exact startable_probingStick move member
  · exact startable_answered 1 move member

/-- If no device is found while a handle is open, the driver has no handle open
between two events of the worker but the current one. -/
theorem opened_is_current {retries : Nat} (orderly : NoOverlap admits) {g : Transport}
    (reached : Reached retries admits g) (rests : g.rest .worker = .done ()) :
    g.state.opened = g.state.cdcHandle.toList := by
  have resting : Resting admits g.state := (reached_holds reached).idle rests
  exact resting.tidy orderly

theorem opened_is_current_answered : NoOverlap Orderly ∧ ∃ g, Reached 3 Orderly g ∧
    g.rest .worker = .done () ∧ g.state.opened = [7] ∧ g.state.cdcHandle.toList = [7] := by
  have orderly : NoOverlap Orderly := fun _ _ admitted => admitted
  obtain ⟨g, reached, rests, opened, -⟩ := reached_answered
  exact ⟨orderly, g, reached, rests, opened, (opened_is_current orderly reached rests).symm.trans opened⟩

/-- If the worker takes no error of an earlier generation, then between two of its
events a modem that is announced has an open handle. -/
theorem ready_while_open {retries : Nat} (fresh : NoStale admits) {g : Transport}
    (reached : Reached retries admits g) (rests : g.rest .worker = .done ())
    (ready : g.state.locked.diagnostics.atReady = true) :
    ∃ handle, g.state.cdcHandle = some handle ∧ handle ∈ g.state.opened := by
  have resting : Resting admits g.state := (reached_holds reached).idle rests
  obtain ⟨handle, current⟩ := Option.ne_none_iff_exists'.mp (resting.ready fresh ready)
  exact ⟨handle, current, resting.sound.current handle current⟩

theorem ready_while_open_answered : NoStale Orderly ∧ ∃ g, Reached 3 Orderly g ∧
    g.rest .worker = .done () ∧ g.state.locked.diagnostics.atReady = true ∧
    ∃ handle, g.state.cdcHandle = some handle ∧ handle ∈ g.state.opened := by
  have fresh : NoStale Orderly := fun _ _ _ admitted => admitted
  obtain ⟨g, reached, rests, -, ready⟩ := reached_answered
  exact ⟨fresh, g, reached, rests, ready, ready_while_open fresh reached rests ready⟩

/-- An error of the first probe is taken after the second one succeeded: the worker
closes the handle that answered, and the modem stays announced. -/
theorem ready_without_handle : ∃ g, Reached 3 (fun _ _ => True) g ∧ g.rest .worker = .done () ∧
    g.state.locked.diagnostics.atReady = true ∧ g.state.cdcHandle = none := by
  have played : (Crew.play (UsbCall.answer fun _ _ => true)
      (probingStick ++ (turn .driver (cdcDeviceEventCallback .error 1) 4 ++
        (List.replicate 24 (.call .worker 7) ++ (answered 2 ++
          turn .worker (modemUsbWorkerTask 3) 11)))) ⟨State.initial, fun _ => .done ()⟩).map
            Transport.facts = some (none, [], true, true) := by decide +kernel
  obtain ⟨g, played, facts⟩ := Option.map_eq_some_iff.mp played
  obtain ⟨rests, handle, -, ready⟩ := Transport.rests_of_facts facts
  refine ⟨g, ?_, rests, ready, handle⟩
  refine reached_of_play (fun _ _ _ => trivial) ?_ played
  simp only [List.mem_append]
  rintro move (member | member | member | member | member)
  · exact startable_probingStick move member
  · exact startable_turn (.event _ _) move member
  · rw [List.eq_of_mem_replicate member]
    trivial
  · exact startable_answered 2 move member
  · exact startable_turn .worker move member

end SmsGateway.Usb
