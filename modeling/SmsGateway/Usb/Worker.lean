import SmsGateway.Usb.Handles

/-! The worker of the USB transport next to the other tasks: what it knows of the
handles after each of its functions. -/

namespace SmsGateway.Usb

open Lib Prog

variable {s t : State}

/-- What only the worker changes. -/
structure View where
  cdcHandle : Option Handle
  opened : List Handle
  holding : Bool
  activeGeneration : UInt32
  lastDeviceValid : Bool

/-- The current handle is open, and the worker has no mutex. -/
structure View.Sound (v : View) : Prop where
  current : ∀ handle, v.cdcHandle = some handle → handle ∈ v.opened
  once : v.opened.Nodup
  free : v.holding = false

/-- The state as the worker knows it; the modem can be announced only if `ready`. -/
structure Seen (v : View) (ready : Prop) (s : State) : Prop where
  handle : s.cdcHandle = v.cdcHandle
  opened : s.opened = v.opened
  mutex : s.ioMutex = some .worker ↔ v.holding = true
  active : s.locked.activeGeneration = v.activeGeneration
  valid : s.locked.lastDeviceValid = v.lastDeviceValid
  ready : s.locked.diagnostics.atReady = true → ready

/-- The view after `close_current_handle`. -/
def View.closed (v : View) (expected : Option Handle) : View :=
  match v.cdcHandle with
  | some handle =>
      if expected = none ∨ expected = some handle then
        { v with cdcHandle := none, opened := v.opened.erase handle, activeGeneration := 0 }
      else v
  | none => v

theorem View.Sound.closed {v : View} (sound : v.Sound) (expected : Option Handle) :
    (v.closed expected).Sound := by
  rw [View.closed]
  split
  · split
    · exact ⟨nofun, sound.once.erase _, sound.free⟩
    · exact sound
  · exact sound

/-- The worker's calls are allowed, and afterwards this holds. -/
abbrev Works {α : Type} (admits : State → WorkEvent → Prop) (post : α → State → Prop)
    (program : UsbM α) (s : State) : Prop :=
  Guards State.Aside (Performs admits .worker) (Allowed .worker) post program s

variable {admits : State → WorkEvent → Prop} {v : View} {ready : Prop}

theorem stable_seen : Stable State.Aside (Seen v ready) := by
  intro s t seen aside
  exact ⟨aside.handle.trans seen.handle, aside.opened.trans seen.opened,
    aside.mutex.trans seen.mutex, aside.active.trans seen.active, aside.valid.trans seen.valid,
    fun announced => seen.ready (aside.ready announced)⟩

theorem works_plain {α : Type} {program : UsbM α} (calls : program.Calls Plain)
    (seen : Seen v ready s) : Works admits (fun _ => Seen v ready) program s := by
  refine Guards.keeps stable_seen ?_ ?_ calls seen
  · intro t request plain _
    cases request with
    | critical update => exact .inl rfl
    | post _ _ | setBits _ | clearBits _ | waitBits _ | getBits | hostInstall | cdcInstall
    | eventCallback _ _ | rxCallback _ | delay => trivial
    | receive | takeMutex _ | giveMutex | loadHandle | storeHandle _ | cdcOpen _ _ | cdcClose _
    | cdcTransmit _ _ | cdcPrint _ => exact plain.elim
  · intro t request reply u plain seen answered
    exact stable_seen t u seen (plain_moves plain answered.1).1

theorem works_after {α β : Type} {program : UsbM α} {next : α → UsbM β} {post : β → State → Prop}
    (calls : program.Calls Plain) (seen : Seen v ready s)
    (rest : ∀ value t, Seen v ready t → Works admits post (next value) t) :
    Works admits post (program >>= next) s :=
  Guards.bind (Guards.mono rest (works_plain calls seen))

theorem works_then {α β : Type} {program : UsbM α} {next : α → UsbM β} {between : α → State → Prop}
    {post : β → State → Prop} (first : Works admits between program s)
    (rest : ∀ value t, between value t → Works admits post (next value) t) :
    Works admits post (program >>= next) s :=
  Guards.bind (Guards.mono rest first)

/-- The worker returns this value. -/
theorem works_done {α : Type} {value : α} {post : α → State → Prop} (seen : Seen v ready s)
    (holds : ∀ t, Seen v ready t → post value t) :
    Works admits post (.done value) s :=
  fun _ others => holds _ (stable_seen.many seen others)

/-- The rule for a section of the worker. -/
theorem works_critical (w : View) (later : Prop) {update : Locked → Locked} (seen : Seen v ready s)
    (same : w.cdcHandle = v.cdcHandle ∧ w.opened = v.opened ∧ w.holding = v.holding)
    (moves : ∀ l : Locked, l.activeGeneration = v.activeGeneration →
      l.lastDeviceValid = v.lastDeviceValid → (l.diagnostics.atReady = true → ready) →
      (update l).activeGeneration = w.activeGeneration ∧
        (update l).lastDeviceValid = w.lastDeviceValid ∧
        ((update l).diagnostics.atReady = true → later)) :
    Works admits (fun _ => Seen w later) (critical update) s := by
  refine Guards.send (Seen v ready) stable_seen seen (fun _ _ => .inl rfl) ?_
  rintro t found u seen ⟨⟨-, rfl⟩, -⟩
  obtain ⟨active, valid, announced⟩ := moves t.locked seen.active seen.valid seen.ready
  obtain ⟨handle, opened, holding⟩ := same
  exact .done stable_seen ⟨handle ▸ seen.handle, opened ▸ seen.opened, holding ▸ seen.mutex,
    active, valid, announced⟩

/-- The rule for taking the mutex. -/
theorem works_takeMutex {α : Type} {forever : Bool} {next : Bool → UsbM α}
    {post : α → State → Prop} (seen : Seen v ready s)
    (taken : ∀ t, Seen { v with holding := true } ready t → Works admits post (next true) t)
    (failed : forever = false → ∀ t, Seen v ready t → Works admits post (next false) t) :
    Works admits post (ask (.takeMutex forever) >>= next) s := by
  refine Guards.send (Seen v ready) stable_seen seen (fun _ _ => trivial) ?_
  rintro t reply u seen ⟨answers, -⟩
  cases reply with
  | true =>
      obtain ⟨-, rfl⟩ := answers
      exact taken _ ⟨seen.handle, seen.opened, by simp, seen.active, seen.valid, seen.ready⟩
  | false =>
      obtain ⟨once, rfl⟩ := answers
      exact failed once _ seen

theorem works_giveMutex (seen : Seen v ready s) (holding : v.holding = true) :
    Works admits (fun _ => Seen { v with holding := false } ready) (ask .giveMutex) s := by
  refine Guards.call (Seen v ready) stable_seen seen (fun t here => here.mutex.mpr holding) ?_
  rintro t ⟨⟩ u seen ⟨answers, -⟩
  obtain rfl : u = { t with ioMutex := none } := answers
  exact .done stable_seen ⟨seen.handle, seen.opened, by simp, seen.active, seen.valid, seen.ready⟩

theorem works_loadHandle {α : Type} {next : Option Handle → UsbM α} {post : α → State → Prop}
    (seen : Seen v ready s)
    (loaded : ∀ t, Seen v ready t → Works admits post (next v.cdcHandle) t) :
    Works admits post (ask .loadHandle >>= next) s := by
  refine Guards.send (Seen v ready) stable_seen seen (fun _ _ => trivial) ?_
  rintro t reply u seen ⟨⟨rfl, rfl⟩, -⟩
  rw [seen.handle]
  exact loaded _ seen

theorem works_storeHandle {handle : Option Handle} (seen : Seen v ready s)
    (holding : v.holding = true) (opened : ∀ h, handle = some h → h ∈ v.opened) :
    Works admits (fun _ => Seen { v with cdcHandle := handle } ready) (ask (.storeHandle handle)) s := by
  refine Guards.call (Seen v ready) stable_seen seen ?_ ?_
  · intro t here
    refine ⟨rfl, here.mutex.mpr holding, ?_⟩
    rw [here.opened]
    exact opened
  · rintro t ⟨⟩ u seen ⟨answers, -⟩
    obtain rfl : u = { t with cdcHandle := handle } := answers
    exact .done stable_seen ⟨rfl, seen.opened, seen.mutex, seen.active, seen.valid, seen.ready⟩

theorem works_cdcClose {handle : Handle} (seen : Seen v ready s) (holding : v.holding = true)
    (opened : handle ∈ v.opened) (nothing : v.cdcHandle = none) :
    Works admits (fun _ => Seen { v with opened := v.opened.erase handle } ready)
      (ask (.cdcClose handle)) s := by
  refine Guards.call (Seen v ready) stable_seen seen ?_ ?_
  · intro t here
    exact ⟨rfl, here.mutex.mpr holding, here.opened ▸ opened, here.handle.trans nothing⟩
  · rintro t reply u seen ⟨answers, -⟩
    obtain rfl : u = { t with opened := t.opened.erase handle } := answers
    refine .done stable_seen ⟨seen.handle, ?_, seen.mutex, seen.active, seen.valid, seen.ready⟩
    rw [← seen.opened]

/-! What the worker's functions leave. -/

theorem works_closeCurrentHandle {expected : Option Handle} (seen : Seen v ready s)
    (sound : v.Sound) :
    Works admits (fun _ => Seen (v.closed expected) ready) (closeCurrentHandle expected) s := by
  have back : ({ v with holding := false } : View) = v := by rw [← sound.free]
  apply works_takeMutex seen
  · intro t seen
    apply works_loadHandle seen
    intro t seen
    rw [View.closed]
    cases current : v.cdcHandle with
    | none =>
        apply Guards.mono _ (works_giveMutex seen rfl)
        intro _ u seen
        rwa [back] at seen
    | some handle =>
        simp only
        by_cases meant : expected = none ∨ expected = some handle
        · rw [if_pos meant, if_pos meant]
          refine works_then (works_storeHandle seen rfl (by simp)) ?_
          intro _ t seen
          refine works_then (works_critical ⟨none, v.opened, true, 0, v.lastDeviceValid⟩ ready seen
            ⟨rfl, rfl, rfl⟩ fun l _ valid announced => ⟨rfl, valid, announced⟩) ?_
          intro _ t seen
          refine works_then (works_cdcClose seen rfl (sound.current handle current) rfl) ?_
          intro _ t seen
          apply Guards.mono _ (works_giveMutex seen rfl)
          intro _ u seen
          rw [sound.free]
          exact seen
        · rw [if_neg meant, if_neg meant]
          apply Guards.mono _ (works_giveMutex seen rfl)
          intro _ u seen
          rwa [back] at seen
  · nofun

theorem works_writeOpenHandle {data : List UInt8} (seen : Seen v ready s) (sound : v.Sound) :
    Works admits (fun _ => Seen v ready) (writeOpenHandle data) s := by
  have back : ({ v with holding := false } : View) = v := by rw [← sound.free]
  have gives {result : Except EspErr Unit} {t : State} (seen : Seen { v with holding := true } ready t) :
      Works admits (fun _ => Seen v ready) (ask .giveMutex >>= fun _ => pure result) t := by
    refine works_then (works_giveMutex seen rfl) ?_
    intro _ u seen
    rw [back] at seen
    exact .done stable_seen seen
  rw [writeOpenHandle]
  split
  · exact .done stable_seen seen
  · apply works_takeMutex seen
    · intro t seen
      apply works_loadHandle seen
      intro t seen
      cases current : v.cdcHandle with
      | none => exact gives seen
      | some handle =>
          refine Guards.send _ stable_seen seen ?_ ?_
          · intro t here
            exact ⟨here.mutex.mpr rfl, here.opened ▸ sound.current handle current⟩
          · rintro t result u seen ⟨answers, -⟩
            obtain rfl : u = t := answers
            exact gives seen
    · intro _ t seen
      exact .done stable_seen seen

theorem plain_updateDiagnostics {update : ModemUsbDiagnostics → ModemUsbDiagnostics}
    (tame : ∀ d, (update d).atReady = true → d.atReady = true) :
    (updateDiagnostics update).Calls Plain :=
  .send (fun l => ⟨rfl, rfl, tame l.diagnostics⟩) fun _ => trivial

theorem plain_setError (error : EspErr) : (diagnosticsSetError error).Calls Plain :=
  plain_updateDiagnostics fun _ => id

theorem plain_emitEvent (event : ModemUsbEvent) : (emitEvent event).Calls Plain :=
  .send (fun _ => ⟨rfl, rfl, id⟩) fun _ => .send trivial fun _ => trivial

theorem plain_resetProbeParser : resetProbeParser.Calls Plain :=
  .bind (.send (fun _ => ⟨rfl, rfl, id⟩) fun _ => trivial) fun _ => .send trivial fun _ => trivial

theorem plain_stopProbeParser : stopProbeParser.Calls Plain :=
  .send (fun _ => ⟨rfl, rfl, id⟩) fun _ => trivial

theorem plain_ask {request : UsbCall} (plain : Plain request) : (ask request).Calls Plain :=
  ⟨plain, fun _ => trivial⟩

/-- The probe succeeded with the same view, or its handle is closed. -/
def Probed (v : View) (ready : Prop) (handle : Handle) (answered : Bool) (s : State) : Prop :=
  Seen (if answered then v else v.closed (some handle)) ready s

theorem works_giveUpProbe {handle : Handle} (seen : Seen v ready s) (sound : v.Sound) :
    Works admits (Probed v ready handle) (giveUpProbe handle) s := by
  refine works_after plain_stopProbeParser seen ?_
  intro _ t seen
  refine works_then (works_closeCurrentHandle seen sound) ?_
  intro _ t seen
  exact works_done seen fun _ => id

theorem works_probeAttempts {handle : Handle} (left : Nat) (seen : Seen v ready s) (sound : v.Sound)
    (current : v.cdcHandle = some handle) :
    Works admits (Probed v ready handle) (probeAttempts handle left) s := by
  induction left generalizing s with
  | zero => exact works_giveUpProbe seen sound
  | succ left ih =>
      refine works_after (plain_updateDiagnostics fun _ => id) seen ?_
      intro _ t seen
      refine works_after plain_resetProbeParser seen ?_
      intro _ t seen
      refine works_then (works_writeOpenHandle seen sound) ?_
      intro written t seen
      cases written with
      | error err =>
          refine works_after (plain_setError err) seen ?_
          intro _ t seen
          refine works_after (plain_ask trivial) seen ?_
          intro bits t seen
          split
          · exact works_giveUpProbe seen sound
          · exact ih seen
      | ok _ =>
          refine works_after (plain_ask trivial) seen ?_
          intro bits t seen
          split
          · exact works_giveUpProbe seen sound
          · split
            · exact works_giveUpProbe seen sound
            · split
              · refine works_after plain_stopProbeParser seen ?_
                intro _ t seen
                refine Guards.send (Seen v ready) stable_seen seen ?_ ?_
                · intro t here
                  exact ⟨rfl, here.opened ▸ sound.current handle current⟩
                · rintro t _ u seen ⟨answers, -⟩
                  obtain rfl : u = t := answers
                  exact works_done seen fun _ => id
              · refine works_after (plain_setError .timeout) seen ?_
                intro _ t seen
                exact ih seen

/-- What `probe_candidate` leaves: a new current handle, or no more open handles than
before. -/
structure View.Tried (v : View) (answered : Bool) (w : View) : Prop where
  sound : w.Sound
  valid : w.lastDeviceValid = v.lastDeviceValid
  handle : if answered then ∃ handle, w.cdcHandle = some handle ∧ w.opened = handle :: v.opened
    else (w.cdcHandle = v.cdcHandle ∨ w.cdcHandle = none) ∧ w.opened = v.opened

theorem works_probeCandidate {retries : Nat} {candidate : ModemUsbCandidate} (seen : Seen v ready s)
    (sound : v.Sound) :
    Works admits (fun answered t => ∃ w, v.Tried answered w ∧ Seen w ready t)
      (probeCandidate retries candidate) s := by
  refine Guards.send (Seen v ready) stable_seen seen (fun _ _ => .inl rfl) ?_
  rintro t found u seen ⟨⟨rfl, rfl⟩, -⟩
  let generation := followingGeneration t.locked.nextGeneration
  let probing : View := { v with activeGeneration := generation }
  refine Guards.send (Seen probing ready) stable_seen ?_ (fun _ _ => rfl) ?_
  · exact ⟨seen.handle, seen.opened, seen.mutex, rfl, seen.valid, seen.ready⟩
  rintro t result u seen ⟨answers, -⟩
  cases result with
  | error err =>
      obtain rfl : u = t := answers
      refine works_then (works_critical { v with activeGeneration := 0 } ready seen
        ⟨rfl, rfl, rfl⟩ fun l active valid announced => ⟨if_pos active, valid, announced⟩) ?_
      intro _ t seen
      exact works_done seen fun t seen =>
        ⟨{ v with activeGeneration := 0 },
          ⟨⟨sound.current, sound.once, sound.free⟩, rfl, .inl rfl, rfl⟩, seen⟩
  | ok handle =>
      obtain ⟨new, rfl⟩ := answers
      rw [seen.opened] at new
      let opening : View := { probing with opened := handle :: v.opened }
      have here : Seen opening ready { t with opened := handle :: t.opened } :=
        ⟨seen.handle, congrArg _ seen.opened, seen.mutex, seen.active, seen.valid, seen.ready⟩
      let current : View := { opening with cdcHandle := some handle, holding := false }
      have kept : current.Sound := by
        refine ⟨?_, List.nodup_cons.mpr ⟨new, sound.once⟩, rfl⟩
        rintro _ ⟨⟩
        exact List.mem_cons_self
      apply works_takeMutex here
      · intro t seen
        refine works_then (works_storeHandle seen rfl ?_) ?_
        · rintro _ ⟨⟩
          exact List.mem_cons_self
        intro _ t seen
        refine works_then (works_giveMutex seen rfl) ?_
        intro _ t seen
        refine Guards.mono ?_ (works_probeAttempts (v := current) retries seen kept rfl)
        intro answered t seen
        refine ⟨_, ?_, seen⟩
        cases answered with
        | true => exact ⟨kept, rfl, handle, rfl, rfl⟩
        | false =>
            have closed : current.closed (some handle) =
                { current with cdcHandle := none, opened := v.opened, activeGeneration := 0 } := by
              simp [View.closed, current, opening]
            rw [if_neg Bool.false_ne_true]
            refine ⟨kept.closed _, ?_, ?_⟩
            · rw [closed]
            · rw [closed]
              exact ⟨.inr rfl, rfl⟩
      · nofun

/-! What holds between two events of the worker. -/

/-- A device is not found while a handle is open. -/
def NoOverlap (admits : State → WorkEvent → Prop) : Prop :=
  ∀ s device, admits s (.deviceFound device) → s.cdcHandle = none

/-- An error that the driver reported is of the current generation. -/
def NoStale (admits : State → WorkEvent → Prop) : Prop :=
  ∀ s error generation, admits s (.error error generation) →
    generation = 0 ∨ generation = s.locked.activeGeneration

structure Resting (admits : State → WorkEvent → Prop) (s : State) : Prop where
  sound : s.Sound
  free : s.ioMutex ≠ some .worker
  saved : s.locked.activeGeneration ≠ 0 → s.locked.lastDeviceValid = true
  tidy : NoOverlap admits → s.opened = s.cdcHandle.toList
  ready : NoStale admits → s.locked.diagnostics.atReady = true → s.cdcHandle ≠ none

theorem stable_resting : Stable State.Aside (Resting admits) := by
  intro s t resting aside
  refine ⟨resting.sound.aside aside, ?_, ?_, ?_, ?_⟩
  · exact fun holding => resting.free (aside.mutex.mp holding)
  · rw [aside.active, aside.valid]
    exact resting.saved
  · rw [aside.opened, aside.handle]
    exact resting.tidy
  · rw [aside.handle]
    exact fun current announced => resting.ready current (aside.ready announced)

/-- What rests in the view. -/
structure View.Rests (admits : State → WorkEvent → Prop) (v : View) (ready : Prop) : Prop where
  sound : v.Sound
  saved : v.activeGeneration ≠ 0 → v.lastDeviceValid = true
  tidy : NoOverlap admits → v.opened = v.cdcHandle.toList
  ready : NoStale admits → ready → v.cdcHandle ≠ none

theorem View.Rests.seen (resting : v.Rests admits ready) (seen : Seen v ready s) :
    Resting admits s := by
  refine ⟨⟨?_, seen.opened ▸ resting.sound.once⟩, ?_, ?_, ?_, ?_⟩
  · intro handle current
    rw [seen.opened]
    exact resting.sound.current handle (seen.handle ▸ current)
  · intro holding
    rw [seen.mutex, resting.sound.free] at holding
    cases holding
  · rw [seen.active, seen.valid]
    exact resting.saved
  · rw [seen.opened, seen.handle]
    exact resting.tidy
  · rw [seen.handle]
    exact fun current announced => resting.ready current (seen.ready announced)

theorem Resting.view (resting : Resting admits s) : ∃ v : View,
    v.Rests admits (s.locked.diagnostics.atReady = true) ∧
      Seen v (s.locked.diagnostics.atReady = true) s ∧ v.cdcHandle = s.cdcHandle ∧
      v.activeGeneration = s.locked.activeGeneration := by
  refine ⟨⟨s.cdcHandle, s.opened, false, s.locked.activeGeneration, s.locked.lastDeviceValid⟩,
    ⟨⟨resting.sound.current, resting.sound.once, rfl⟩, resting.saved, resting.tidy, resting.ready⟩,
    ⟨rfl, rfl, ?_, rfl, rfl, id⟩, rfl, rfl⟩
  simp [resting.free]

/-- The worker is done and the view rests. -/
theorem works_rests {program : UsbM Unit} (resting : v.Rests admits ready)
    (works : Works admits (fun _ => Seen v ready) program s) :
    Works admits (fun _ => Resting admits) program s :=
  Guards.mono (fun _ _ seen => resting.seen seen) works

/-- The candidates are tried while nothing is announced. -/
structure View.Trying (admits : State → WorkEvent → Prop) (v : View) : Prop where
  sound : v.Sound
  valid : v.lastDeviceValid = true
  tidy : NoOverlap admits → v.cdcHandle = none ∧ v.opened = []

theorem View.Trying.resting (trying : v.Trying admits) : v.Rests admits False := by
  refine ⟨trying.sound, fun _ => trying.valid, ?_, fun _ => False.elim⟩
  intro orderly
  obtain ⟨handle, opened⟩ := trying.tidy orderly
  rw [handle, opened]
  rfl

theorem works_tryCandidates {retries : Nat} {event : FoundDevice}
    (candidates : List ModemUsbCandidate) (seen : Seen v False s) (trying : v.Trying admits) :
    Works admits (fun _ => Resting admits) (tryCandidates retries event candidates) s := by
  induction candidates generalizing s v with
  | nil =>
      refine works_after (plain_setError .notFound) seen ?_
      intro _ t seen
      exact works_rests trying.resting (works_plain (plain_emitEvent .error) seen)
  | cons candidate rest ih =>
      refine works_after (plain_updateDiagnostics fun _ => id) seen ?_
      intro _ t seen
      refine works_after (plain_emitEvent .probing) seen ?_
      intro _ t seen
      refine works_then (works_probeCandidate seen trying.sound) ?_
      rintro answered t ⟨w, tried, seen⟩
      have valid := tried.valid.trans trying.valid
      cases answered with
      | true =>
          obtain ⟨handle, current, opened⟩ := tried.handle
          refine works_then (works_critical w True seen ⟨rfl, rfl, rfl⟩
            fun l active valid _ => ⟨active, valid, fun _ => trivial⟩) ?_
          intro _ t seen
          refine works_rests ⟨tried.sound, fun _ => valid, ?_, ?_⟩
            (works_plain (plain_emitEvent .atReady) seen)
          · intro orderly
            rw [current, opened, (trying.tidy orderly).2]
            rfl
          · intro _ _ nothing
            cases current.symm.trans nothing
      | false =>
          obtain ⟨current, opened⟩ := tried.handle
          have again : w.Trying admits := by
            refine ⟨tried.sound, valid, ?_⟩
            intro orderly
            obtain ⟨nothing, closed⟩ := trying.tidy orderly
            refine ⟨?_, opened.trans closed⟩
            rcases current with same | gone
            · exact same.trans nothing
            · exact gone
          refine works_after (plain_ask fun _ => ⟨rfl, rfl, id⟩) seen ?_
          intro found t seen
          split
          · exact ih seen again
          · exact works_done seen fun _ seen => again.resting.seen seen

theorem works_handleDeviceFound {retries : Nat} {event : FoundDevice} {newConnection : Bool}
    (seen : Seen v ready s) (sound : v.Sound)
    (tidy : NoOverlap admits → v.cdcHandle = none ∧ v.opened = []) :
    Works admits (fun _ => Resting admits) (handleDeviceFound retries event newConnection) s := by
  refine works_after (plain_ask trivial) seen ?_
  intro _ t seen
  refine works_then (works_critical { v with lastDeviceValid := true } False seen ⟨rfl, rfl, rfl⟩
    fun l active _ _ => ⟨active, rfl, nofun⟩) ?_
  intro _ t seen
  have trying : View.Trying admits { v with lastDeviceValid := true } :=
    ⟨⟨sound.current, sound.once, sound.free⟩, rfl, tidy⟩
  cases newConnection with
  | true =>
      refine works_after (plain_emitEvent .deviceFound) seen ?_
      intro _ t seen
      exact works_tryCandidates event.candidates seen trying
  | false => exact works_tryCandidates event.candidates seen trying

/-- A view that rests does so without the handle that the worker closes, if nothing
is announced afterwards. -/
theorem View.Rests.closed (resting : v.Rests admits ready) (expected : Option Handle) :
    (v.closed expected).Rests admits False := by
  refine ⟨resting.sound.closed expected, ?_, ?_, fun _ => False.elim⟩
  · rw [View.closed]
    split
    · split
      · exact fun active => absurd rfl active
      · exact resting.saved
    · exact resting.saved
  · intro orderly
    have tidy := resting.tidy orderly
    rw [View.closed]
    cases current : v.cdcHandle with
    | none => exact tidy
    | some handle =>
        simp only
        split
        · rw [tidy, current]
          simp
        · exact tidy

theorem works_handleDisconnect {handle : Handle} (seen : Seen v ready s)
    (resting : v.Rests admits ready) :
    Works admits (fun _ => Resting admits) (handleDisconnect handle) s := by
  refine works_after plain_stopProbeParser seen ?_
  intro _ t seen
  refine works_then (works_closeCurrentHandle seen resting.sound) ?_
  intro _ t seen
  have closed := resting.closed (some handle)
  generalize v.closed (some handle) = w at seen closed
  refine works_then (works_critical { w with activeGeneration := 0, lastDeviceValid := false } False
    seen ⟨rfl, rfl, rfl⟩ fun l _ _ _ => ⟨rfl, rfl, nofun⟩) ?_
  intro _ t seen
  refine works_rests ?_ (works_plain (plain_emitEvent .disconnected) seen)
  exact ⟨⟨closed.sound.current, closed.sound.once, closed.sound.free⟩, fun active => absurd rfl active,
    closed.tidy, fun _ => False.elim⟩

theorem View.closed_any (v : View) : (v.closed none).cdcHandle = none := by
  rw [View.closed]
  split
  · rfl
  · assumption

theorem works_handleError {retries : Nat} {error : EspErr} {generation : UInt32}
    (seen : Seen v ready s) (resting : v.Rests admits ready)
    (current : NoStale admits → generation = 0 ∨ generation = v.activeGeneration) :
    Works admits (fun _ => Resting admits) (handleError retries error generation) s := by
  refine works_after (plain_setError error) seen ?_
  intro _ t seen
  refine Guards.send (Seen v ready) stable_seen seen (fun _ _ => .inl rfl) ?_
  rintro t found u seen ⟨⟨rfl, rfl⟩, -⟩
  have here : Seen v ready { t with locked := id t.locked } := seen
  by_cases own : generation = 0
  · subst own
    have without : ¬ (t.locked.isCurrent 0 = true ∧ t.locked.lastDeviceValid = true) := by
      simp [Locked.isCurrent]
    simp only [ne_eq, not_true_eq_false, if_false, without]
    refine works_after (plain_emitEvent .error) here ?_
    intro _ t seen
    exact works_done seen fun _ seen => resting.seen seen
  · simp only [ne_eq, own, not_false_eq_true, if_true]
    refine works_then (works_closeCurrentHandle here resting.sound) ?_
    intro _ u closed
    have rests := resting.closed none
    refine works_after (plain_emitEvent .error) closed ?_
    intro _ u closed
    by_cases retry : t.locked.isCurrent generation = true ∧ t.locked.lastDeviceValid = true
    · rw [if_pos retry]
      refine works_after (plain_ask trivial) closed ?_
      intro _ u closed
      refine works_handleDeviceFound closed rests.sound ?_
      intro orderly
      refine ⟨v.closed_any, ?_⟩
      rw [rests.tidy orderly, v.closed_any]
      rfl
    · rw [if_neg retry]
      -- An error of the current generation is always retried.
      have stale : ¬NoStale admits := by
        intro fresh
        have active := (current fresh).resolve_left own
        apply retry
        refine ⟨?_, seen.valid.trans (resting.saved (active ▸ own))⟩
        rw [Locked.isCurrent, decide_eq_true_eq]
        exact ⟨own, active.trans seen.active.symm⟩
      have kept : (v.closed none).Rests admits ready :=
        ⟨rests.sound, rests.saved, rests.tidy, fun fresh => absurd fresh stale⟩
      exact works_done closed fun _ seen => kept.seen seen

theorem works_modemUsbWorkerTask {retries : Nat} (resting : Resting admits s) :
    Works admits (fun _ => Resting admits) (modemUsbWorkerTask retries) s := by
  refine Guards.send (Resting admits) stable_resting resting (fun _ _ => rfl) ?_
  rintro t event u resting ⟨⟨-, taken⟩, admitted⟩
  obtain ⟨v, rests, seen, handle, active⟩ := resting.view
  have here : Seen v (t.locked.diagnostics.atReady = true) u := by
    rw [taken]
    exact ⟨seen.handle, seen.opened, seen.mutex, seen.active, seen.valid, seen.ready⟩
  cases event with
  | hostReady =>
      refine works_after (plain_updateDiagnostics fun _ => id) here ?_
      intro _ t seen
      exact works_rests rests (works_plain (plain_emitEvent .hostReady) seen)
  | deviceFound device =>
      refine works_handleDeviceFound here rests.sound ?_
      intro orderly
      have nothing := handle.trans (orderly t device admitted)
      refine ⟨nothing, ?_⟩
      rw [rests.tidy orderly, nothing]
      rfl
  | disconnected handle => exact works_handleDisconnect here rests
  | error error generation =>
      refine works_handleError here rests ?_
      intro fresh
      rw [active]
      exact fresh t error generation admitted

end SmsGateway.Usb
