import SmsGateway.Usb.Transport

/-! The handles of the USB transport: in every order of its tasks a handle is used
only while the driver has it open. -/

namespace SmsGateway.Usb

open Lib Prog

/-- A section that leaves the generation and the saved device, and does not announce
the modem. -/
def Tame (update : Locked → Locked) : Prop :=
  ∀ l, (update l).activeGeneration = l.activeGeneration ∧
    (update l).lastDeviceValid = l.lastDeviceValid ∧
    ((update l).diagnostics.atReady = true → l.diagnostics.atReady = true)

/-- A call that moves no handle and no mutex. -/
def Plain : UsbCall → Prop
  | .critical update => Tame update
  | .post _ _ | .setBits _ | .clearBits _ | .getBits | .waitBits _ | .hostInstall | .cdcInstall
  | .eventCallback _ _ | .rxCallback _ | .delay => True
  | _ => False

/-- The current handle is open, and no handle is open twice. -/
structure State.Sound (s : State) : Prop where
  current : ∀ handle, s.cdcHandle = some handle → handle ∈ s.opened
  once : s.opened.Nodup

/-- What a call of a task needs. -/
def Allowed (task : Task) (s : State) : UsbCall → Prop
  | .receive | .cdcOpen _ _ => task = .worker
  | .critical update => task = .worker ∨ Tame update
  | .giveMutex => s.ioMutex = some task
  | .storeHandle handle =>
      task = .worker ∧ s.ioMutex = some .worker ∧ ∀ h, handle = some h → h ∈ s.opened
  | .cdcClose handle =>
      task = .worker ∧ s.ioMutex = some .worker ∧ handle ∈ s.opened ∧ s.cdcHandle = none
  | .cdcTransmit handle _ => s.ioMutex = some task ∧ handle ∈ s.opened
  | .cdcPrint handle => task = .worker ∧ handle ∈ s.opened
  | _ => True

/-- What the tasks besides the worker do to the state. -/
structure State.Aside (s t : State) : Prop where
  handle : t.cdcHandle = s.cdcHandle
  opened : t.opened = s.opened
  mutex : t.ioMutex = some .worker ↔ s.ioMutex = some .worker
  active : t.locked.activeGeneration = s.locked.activeGeneration
  valid : t.locked.lastDeviceValid = s.locked.lastDeviceValid
  ready : t.locked.diagnostics.atReady = true → s.locked.diagnostics.atReady = true

/-- No handle and no mutex moves. -/
structure State.Still (s t : State) : Prop where
  handle : t.cdcHandle = s.cdcHandle
  opened : t.opened = s.opened
  mutex : t.ioMutex = s.ioMutex

theorem State.Aside.refl (s : State) : s.Aside s := ⟨rfl, rfl, .rfl, rfl, rfl, id⟩

theorem State.Sound.aside {s t : State} (sound : s.Sound) (aside : s.Aside t) : t.Sound := by
  refine ⟨?_, aside.opened ▸ sound.once⟩
  intro handle current
  rw [aside.opened]
  exact sound.current handle (aside.handle ▸ current)

/-- What another task sees of a step: the state stays sound, and while the task has
the mutex the current handle stays and stays open. -/
structure State.Beside (task : Task) (s t : State) : Prop where
  sound : s.Sound → t.Sound
  mutex : t.ioMutex = some task ↔ s.ioMutex = some task
  holding : s.ioMutex = some task → t.cdcHandle = s.cdcHandle ∧ s.opened ⊆ t.opened

/-- What a task relies on besides its own calls. -/
def Relies (task : Task) : State → State → Prop :=
  if task = .worker then State.Aside else State.Beside task

variable {s t : State}

theorem State.Still.beside (still : s.Still t) (task : Task) : s.Beside task t := by
  refine ⟨fun sound => ⟨?_, still.opened ▸ sound.once⟩, by rw [still.mutex], fun _ => ⟨still.handle, ?_⟩⟩
  · intro handle current
    rw [still.opened]
    exact sound.current handle (still.handle ▸ current)
  · rw [still.opened]
    exact fun _ member => member

theorem plain_moves {task : Task} {request : UsbCall} {reply : request.Reply} (plain : Plain request)
    (answers : request.Answers task s reply t) : s.Aside t ∧ s.Still t := by
  cases request with
  | critical update =>
      obtain ⟨-, rfl⟩ := answers
      obtain ⟨active, valid, ready⟩ := plain s.locked
      exact ⟨⟨rfl, rfl, .rfl, active, valid, ready⟩, ⟨rfl, rfl, rfl⟩⟩
  | post event forever =>
      simp only [UsbCall.Answers] at answers
      split at answers
      · rw [answers.2]
        exact ⟨⟨rfl, rfl, .rfl, rfl, rfl, id⟩, ⟨rfl, rfl, rfl⟩⟩
      · rw [answers.2.2]
        exact ⟨.refl s, ⟨rfl, rfl, rfl⟩⟩
  | setBits mask | clearBits mask =>
      obtain rfl : t = _ := answers
      exact ⟨⟨rfl, rfl, .rfl, rfl, rfl, id⟩, ⟨rfl, rfl, rfl⟩⟩
  | waitBits mask =>
      obtain ⟨-, rfl⟩ := answers
      exact ⟨⟨rfl, rfl, .rfl, rfl, rfl, id⟩, ⟨rfl, rfl, rfl⟩⟩
  | getBits =>
      obtain ⟨-, rfl⟩ := answers
      exact ⟨.refl t, ⟨rfl, rfl, rfl⟩⟩
  | hostInstall | cdcInstall | eventCallback _ _ | rxCallback _ | delay =>
      obtain rfl : t = s := answers
      exact ⟨.refl t, ⟨rfl, rfl, rfl⟩⟩
  | receive | takeMutex _ | giveMutex | loadHandle | storeHandle _ | cdcOpen _ _ | cdcClose _
  | cdcTransmit _ _ | cdcPrint _ => exact plain.elim

/-- A call of another task, as the worker sees it. -/
theorem call_aside {task : Task} {request : UsbCall} {reply : request.Reply} (other : task ≠ .worker)
    (allowed : Allowed task s request) (answers : request.Answers task s reply t) : s.Aside t := by
  cases request with
  | critical update =>
      have plain : Plain (.critical update) := allowed.resolve_left other
      exact (plain_moves plain answers).1
  | post _ _ | setBits _ | clearBits _ | waitBits _ | getBits | hostInstall | cdcInstall
  | eventCallback _ _ | rxCallback _ | delay => exact (plain_moves (by trivial) answers).1
  | takeMutex forever =>
      simp only [UsbCall.Answers] at answers
      split at answers
      · obtain ⟨free, rfl⟩ := answers
        refine ⟨rfl, rfl, ?_, rfl, rfl, id⟩
        simp [free, other]
      · rw [answers.2]
        exact .refl s
  | giveMutex =>
      have mine : s.ioMutex = some task := allowed
      obtain rfl : t = { s with ioMutex := none } := answers
      refine ⟨rfl, rfl, ?_, rfl, rfl, id⟩
      simp [mine, other]
  | loadHandle =>
      obtain ⟨-, rfl⟩ := answers
      exact .refl t
  | cdcTransmit _ _ =>
      obtain rfl : t = s := answers
      exact .refl t
  | receive | cdcOpen _ _ => exact absurd allowed other
  | storeHandle _ | cdcClose _ | cdcPrint _ => exact absurd allowed.1 other

/-- An allowed call, as a task besides the worker sees it. -/
theorem call_beside {task other : Task} {request : UsbCall} {reply : request.Reply}
    (different : other ≠ task) (allowed : Allowed task s request)
    (answers : request.Answers task s reply t) : s.Beside other t := by
  -- While the worker moves a handle it has the mutex, and the other task has not.
  have away (worker : task = .worker) (holding : s.ioMutex = some .worker) :
      s.ioMutex ≠ some other := by
    rw [holding]
    rintro ⟨⟩
    exact different worker.symm
  cases request with
  | critical update =>
      obtain ⟨-, rfl⟩ := answers
      apply State.Still.beside
      exact ⟨rfl, rfl, rfl⟩
  | post _ _ | setBits _ | clearBits _ | waitBits _ | getBits | hostInstall | cdcInstall
  | eventCallback _ _ | rxCallback _ | delay => exact (plain_moves (by trivial) answers).2.beside other
  | receive =>
      obtain ⟨-, rest⟩ := answers
      rw [rest]
      apply State.Still.beside
      exact ⟨rfl, rfl, rfl⟩
  | loadHandle =>
      obtain ⟨-, rfl⟩ := answers
      apply State.Still.beside
      exact ⟨rfl, rfl, rfl⟩
  | cdcTransmit _ _ | cdcPrint _ =>
      obtain rfl : t = s := answers
      apply State.Still.beside
      exact ⟨rfl, rfl, rfl⟩
  | takeMutex forever =>
      simp only [UsbCall.Answers] at answers
      split at answers
      · obtain ⟨free, rfl⟩ := answers
        refine ⟨fun sound => ⟨sound.current, sound.once⟩, ?_, ?_⟩
        · simp [free, different.symm]
        · intro holding
          rw [free] at holding
          cases holding
      · rw [answers.2]
        apply State.Still.beside
        exact ⟨rfl, rfl, rfl⟩
  | giveMutex =>
      have mine : s.ioMutex = some task := allowed
      obtain rfl : t = { s with ioMutex := none } := answers
      refine ⟨fun sound => ⟨sound.current, sound.once⟩, ?_, fun _ => ⟨rfl, fun _ => id⟩⟩
      simp [mine, different.symm]
  | storeHandle handle =>
      obtain ⟨worker, mine, opened⟩ := allowed
      obtain rfl : t = { s with cdcHandle := handle } := answers
      exact ⟨fun sound => ⟨opened, sound.once⟩, .rfl, fun holding => absurd holding (away worker mine)⟩
  | cdcOpen interfaceNumber generation =>
      cases reply with
      | error err =>
          obtain rfl : t = s := answers
          apply State.Still.beside
          exact ⟨rfl, rfl, rfl⟩
      | ok handle =>
          obtain ⟨new, rfl⟩ := answers
          refine ⟨fun sound => ⟨?_, List.nodup_cons.mpr ⟨new, sound.once⟩⟩, .rfl,
            fun _ => ⟨rfl, List.subset_cons_self handle s.opened⟩⟩
          exact fun h current => List.mem_cons_of_mem handle (sound.current h current)
  | cdcClose handle =>
      obtain ⟨worker, mine, -, nothing⟩ := allowed
      obtain rfl : t = { s with opened := s.opened.erase handle } := answers
      refine ⟨fun sound => ⟨?_, sound.once.erase handle⟩, .rfl,
        fun holding => absurd holding (away worker mine)⟩
      intro h current
      cases nothing.symm.trans current

theorem call_relies {task other : Task} {request : UsbCall} {reply : request.Reply}
    (different : other ≠ task) (allowed : Allowed task s request)
    (answers : request.Answers task s reply t) : Relies other s t := by
  by_cases worker : other = .worker
  · subst worker
    exact call_aside different.symm allowed answers
  · rw [Relies, if_neg worker]
    exact call_beside different allowed answers

end SmsGateway.Usb
