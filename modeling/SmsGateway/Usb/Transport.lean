import SmsGateway.Lib.Parallel
import SmsGateway.Usb.Descriptor
import SmsGateway.Usb.Probe

/-! The USB transport of the modem (`usb_modem_transport.c`): its worker, the
callbacks of the CDC driver and the tasks that write to the modem. -/

namespace SmsGateway.Usb

open Lib Prog

/-- `modem_usb_event_t`. -/
inductive ModemUsbEvent where
  | hostReady
  | deviceFound
  | probing
  | atReady
  | disconnected
  | error
  deriving DecidableEq, Repr

/-- `modem_usb_diagnostics_t`; `ESP_OK` is `none`. -/
structure ModemUsbDiagnostics where
  hostReady : Bool
  devicePresent : Bool
  atReady : Bool
  vid : UInt16
  pid : UInt16
  interfaceNumber : UInt8
  interfaceClass : UInt8
  interfaceSubclass : UInt8
  interfaceProtocol : UInt8
  bulkInEp : UInt8
  bulkOutEp : UInt8
  interruptInEp : UInt8
  connectCount : UInt32
  disconnectCount : UInt32
  probeAttempts : UInt32
  openFailures : UInt32
  modeSwitchAttempts : UInt32
  modeSwitchSuccesses : UInt32
  modeSwitchFailures : UInt32
  lastError : Option EspErr
  deriving DecidableEq, Repr

def ModemUsbDiagnostics.zero : ModemUsbDiagnostics :=
  ⟨false, false, false, 0, 0, 0, 0, 0, 0, 0, 0, 0, 0, 0, 0, 0, 0, 0, 0, none⟩

/-- A handle of the CDC driver. The driver may give the same handle again once it
was closed. -/
abbrev Handle := Nat

/-- The device of `WORK_EVENT_DEVICE_FOUND`. -/
structure FoundDevice where
  vid : UInt16
  pid : UInt16
  candidates : List ModemUsbCandidate
  deriving DecidableEq, Repr

/-- `work_event_t`. -/
inductive WorkEvent where
  | hostReady
  | deviceFound (device : FoundDevice)
  | disconnected (handle : Handle)
  | error (error : EspErr) (generation : UInt32)
  deriving DecidableEq, Repr

/-- The variables that `s_lock` protects. -/
structure Locked where
  probing : Bool
  rxCallback : Bool
  diagnostics : ModemUsbDiagnostics
  probeLine : ProbeLine
  nextGeneration : UInt32
  activeGeneration : UInt32
  lastDeviceEvent : FoundDevice
  lastDeviceValid : Bool
  deriving DecidableEq, Repr

def Locked.zero : Locked := ⟨false, false, .zero, .empty, 0, 0, ⟨0, 0, []⟩, false⟩

/-- The bits of `probe_events`. -/
structure ProbeBits where
  atOk : Bool
  deviceGone : Bool
  transportError : Bool
  deriving DecidableEq, Repr

namespace ProbeBits

def none : ProbeBits := ⟨false, false, false⟩

def set (bits mask : ProbeBits) : ProbeBits :=
  ⟨bits.atOk || mask.atOk, bits.deviceGone || mask.deviceGone,
    bits.transportError || mask.transportError⟩

def clear (bits mask : ProbeBits) : ProbeBits :=
  ⟨bits.atOk && !mask.atOk, bits.deviceGone && !mask.deviceGone,
    bits.transportError && !mask.transportError⟩

end ProbeBits

/-- The tasks that call into the transport. The driver's task makes the callbacks. -/
inductive Task where
  | worker
  | host
  | driver
  | modeSwitch
  | client (number : Nat)
  deriving DecidableEq, Repr

structure State where
  locked : Locked
  cdcHandle : Option Handle
  ioMutex : Option Task
  workQueue : List WorkEvent
  probeEvents : ProbeBits
  /-- The handles that the driver has opened and not yet been asked to close. -/
  opened : List Handle

def State.initial : State := ⟨.zero, none, none, [], .none, []⟩

inductive UsbCall where
  /-- `xQueueReceive(s_usb.work_queue, ..., portMAX_DELAY)`. -/
  | receive
  /-- `xQueueSend`, with `portMAX_DELAY` or without waiting. -/
  | post (event : WorkEvent) (forever : Bool)
  /-- A section between `portENTER_CRITICAL` and `portEXIT_CRITICAL`; it is told
  what it found. -/
  | critical (update : Locked → Locked)
  | setBits (mask : ProbeBits)
  | clearBits (mask : ProbeBits)
  | getBits
  /-- `xEventGroupWaitBits` for any of the bits, which are cleared on exit. -/
  | waitBits (mask : ProbeBits)
  | takeMutex (forever : Bool)
  | giveMutex
  | loadHandle
  | storeHandle (handle : Option Handle)
  | hostInstall
  | cdcInstall
  | cdcOpen (interfaceNumber : UInt8) (generation : UInt32)
  | cdcClose (handle : Handle)
  | cdcTransmit (handle : Handle) (data : List UInt8)
  | cdcPrint (handle : Handle)
  | eventCallback (event : ModemUsbEvent) (diagnostics : ModemUsbDiagnostics)
  | rxCallback (data : List UInt8)
  | delay

@[reducible] def UsbCall.Reply : UsbCall → Type
  | .receive => WorkEvent
  | .post _ _ | .takeMutex _ => Bool
  | .critical _ => Locked
  | .getBits | .waitBits _ => ProbeBits
  | .loadHandle => Option Handle
  | .hostInstall | .cdcInstall | .cdcClose _ | .cdcTransmit _ _ => Except EspErr Unit
  | .cdcOpen _ _ => Except EspErr Handle
  | _ => Unit

abbrev UsbM := Prog UsbCall UsbCall.Reply

def ask (request : UsbCall) : UsbM request.Reply := Prog.send request

def modemUsbQueueDepth : Nat := 8

/-- What a call of a task does. -/
def UsbCall.Answers (task : Task) (s : State) : (request : UsbCall) → request.Reply → State → Prop
  | .receive, event, t => s.workQueue = event :: t.workQueue ∧ t = { s with workQueue := t.workQueue }
  | .post event forever, sent, t =>
      if sent then s.workQueue.length < modemUsbQueueDepth ∧
        t = { s with workQueue := s.workQueue ++ [event] }
      else forever = false ∧ modemUsbQueueDepth ≤ s.workQueue.length ∧ t = s
  | .critical update, found, t => found = s.locked ∧ t = { s with locked := update s.locked }
  | .setBits mask, _, t => t = { s with probeEvents := s.probeEvents.set mask }
  | .clearBits mask, _, t => t = { s with probeEvents := s.probeEvents.clear mask }
  | .getBits, bits, t => bits = s.probeEvents ∧ t = s
  | .waitBits mask, bits, t =>
      bits = s.probeEvents ∧ t = { s with probeEvents := s.probeEvents.clear mask }
  | .takeMutex forever, taken, t =>
      if taken then s.ioMutex = none ∧ t = { s with ioMutex := some task }
      else forever = false ∧ t = s
  | .giveMutex, _, t => t = { s with ioMutex := none }
  | .loadHandle, handle, t => handle = s.cdcHandle ∧ t = s
  | .storeHandle handle, _, t => t = { s with cdcHandle := handle }
  | .cdcOpen _ _, .error _, t => t = s
  | .cdcOpen _ _, .ok handle, t =>
      handle ∉ s.opened ∧ t = { s with opened := handle :: s.opened }
  | .cdcClose handle, _, t => t = { s with opened := s.opened.erase handle }
  | .hostInstall, _, t | .cdcInstall, _, t | .cdcTransmit _ _, _, t | .cdcPrint _, _, t
  | .eventCallback _ _, _, t | .rxCallback _, _, t | .delay, _, t => t = s

def critical (update : Locked → Locked) : UsbM Unit := do
  let _ ← ask (.critical update)
  pure ()

def updateDiagnostics (update : ModemUsbDiagnostics → ModemUsbDiagnostics) : UsbM Unit :=
  critical fun l => { l with diagnostics := update l.diagnostics }

def diagnosticsSetError (error : EspErr) : UsbM Unit :=
  updateDiagnostics fun d => { d with lastError := some error }

def emitEvent (event : ModemUsbEvent) : UsbM Unit := do
  let found ← ask (.critical id)
  ask (.eventCallback event found.diagnostics)

/-! The callbacks of the driver. -/

def modeSwitchCount (success : Bool) : UsbM Unit :=
  updateDiagnostics fun d =>
    let counted := { d with modeSwitchAttempts := d.modeSwitchAttempts + 1 }
    if success then { counted with modeSwitchSuccesses := d.modeSwitchSuccesses + 1 }
    else { counted with modeSwitchFailures := d.modeSwitchFailures + 1 }

def modemUsbVid : UInt16 := 0x12D1
def modemUsbPid : UInt16 := 0x1506
def modemUsbMaxCandidates : Nat := 4

def huaweiModemPidSupported (pid configuredPid : UInt16) : Bool :=
  pid = configuredPid ∨ pid = 0x1506 ∨ pid = 0x1442

/-- `new_usb_device_callback`, with the vendor and product of the device and its
configuration descriptor, where they can be read. -/
def newUsbDeviceCallback (device : Option (UInt16 × UInt16)) (config : Option (List UInt8)) :
    UsbM Unit :=
  match device with
  | none => pure ()
  | some (vid, pid) =>
      if vid ≠ modemUsbVid ∨ ¬huaweiModemPidSupported pid modemUsbPid then pure ()
      else
        match config with
        | none => pure ()
        | some descriptor =>
            match modemUsbFindSerialCandidates descriptor modemUsbMaxCandidates with
            | .error _ => pure ()
            | .ok candidates => do
                let _ ← ask (.post (.deviceFound ⟨vid, pid, candidates⟩) false)
                pure ()

/-- The generation a callback was registered with is the current one. -/
def Locked.isCurrent (l : Locked) (generation : UInt32) : Bool :=
  generation ≠ 0 ∧ generation = l.activeGeneration

def cdcRxCallback (data : List UInt8) (generation : UInt32) : UsbM Unit := do
  let found ← ask (.critical id)
  if found.isCurrent generation then
    let found ← ask (.critical fun l =>
      if l.probing then { l with probeLine := (probeData l.probeLine data).1 } else l)
    if found.probing ∧ (probeData found.probeLine data).2 then
      ask (.setBits ⟨true, false, false⟩)
    let found ← ask (.critical id)
    if ¬found.probing ∧ found.diagnostics.atReady ∧ found.rxCallback then
      ask (.rxCallback data)
  else pure ()

/-- `cdc_acm_host_dev_event_data_t`. -/
inductive CdcEvent where
  | disconnected (handle : Handle)
  | error
  | serialState
  | networkConnection
  | other
  deriving DecidableEq, Repr

def cdcDeviceEventCallback (event : CdcEvent) (generation : UInt32) : UsbM Unit := do
  let found ← ask (.critical id)
  if found.isCurrent generation then
    match event with
    | .disconnected handle =>
        updateDiagnostics fun d => { d with atReady := false, devicePresent := false }
        ask (.setBits ⟨false, true, false⟩)
        let _ ← ask (.post (.disconnected handle) false)
        pure ()
    | .error =>
        updateDiagnostics fun d => { d with atReady := false, lastError := some .fail }
        ask (.setBits ⟨false, false, true⟩)
        let _ ← ask (.post (.error .fail generation) false)
        pure ()
    | .serialState | .networkConnection | .other => pure ()
  else pure ()

/-! The worker. -/

def resetProbeParser : UsbM Unit := do
  critical fun l => { l with probeLine := .empty, probing := true }
  ask (.clearBits ⟨true, false, false⟩)

def stopProbeParser : UsbM Unit :=
  critical fun l => { l with probing := false, probeLine := .empty }

def writeOpenHandle (data : List UInt8) : UsbM (Except EspErr Unit) :=
  if data = [] then pure (.error .invalidArg)
  else do
    let taken ← ask (.takeMutex false)
    if taken then
      let current ← ask .loadHandle
      let result ← match current with
        | some handle => ask (.cdcTransmit handle data)
        | none => pure (.error .invalidState)
      ask .giveMutex
      pure result
    else pure (.error .timeout)

/-- `close_current_handle`; no expected handle is NULL. -/
def closeCurrentHandle (expected : Option Handle) : UsbM Unit := do
  let _ ← ask (.takeMutex true)
  let current ← ask .loadHandle
  match current with
  | some handle =>
      if expected = none ∨ expected = some handle then
        ask (.storeHandle none)
        critical fun l => { l with activeGeneration := 0 }
        let _ ← ask (.cdcClose handle)
        ask .giveMutex
      else ask .giveMutex
  | none => ask .giveMutex

/-- The generation after this one; zero is left out. -/
def followingGeneration (generation : UInt32) : UInt32 :=
  if generation + 1 = 0 then generation + 2 else generation + 1

def giveUpProbe (handle : Handle) : UsbM Bool := do
  stopProbeParser
  closeCurrentHandle (some handle)
  pure false

def atCommand : List UInt8 := [0x41, 0x54, 0x0D]

/-- The attempts that are left. -/
def probeAttempts (handle : Handle) : Nat → UsbM Bool
  | 0 => giveUpProbe handle
  | left + 1 => do
      updateDiagnostics fun d => { d with probeAttempts := d.probeAttempts + 1 }
      resetProbeParser
      let written ← writeOpenHandle atCommand
      match written with
      | .error err =>
          diagnosticsSetError err
          let bits ← ask .getBits
          if bits.deviceGone then giveUpProbe handle else probeAttempts handle left
      | .ok () =>
          let bits ← ask (.waitBits ⟨true, true, true⟩)
          if bits.deviceGone then giveUpProbe handle
          else if bits.transportError then giveUpProbe handle
          else if bits.atOk then
            stopProbeParser
            ask (.cdcPrint handle)
            pure true
          else
            diagnosticsSetError .timeout
            probeAttempts handle left

/-- `probe_candidate`, with `CONFIG_GATEWAY_MODEM_USB_PROBE_RETRIES` attempts. -/
def probeCandidate (retries : Nat) (candidate : ModemUsbCandidate) : UsbM Bool := do
  let found ← ask (.critical fun l =>
    { l with
      nextGeneration := followingGeneration l.nextGeneration
      activeGeneration := followingGeneration l.nextGeneration })
  let generation := followingGeneration found.nextGeneration
  let result ← ask (.cdcOpen candidate.interfaceNumber generation)
  match result with
  | .error err =>
      critical fun l =>
        { l with
          diagnostics := { l.diagnostics with
            openFailures := l.diagnostics.openFailures + 1, lastError := some err }
          activeGeneration := if l.activeGeneration = generation then 0 else l.activeGeneration }
      pure false
  | .ok handle =>
      let _ ← ask (.takeMutex true)
      ask (.storeHandle (some handle))
      ask .giveMutex
      probeAttempts handle retries

/-- The interface that is shown. -/
def ModemUsbDiagnostics.withCandidate (d : ModemUsbDiagnostics) (event : FoundDevice)
    (candidate : ModemUsbCandidate) : ModemUsbDiagnostics :=
  { d with
    vid := event.vid, pid := event.pid
    interfaceNumber := candidate.interfaceNumber
    interfaceClass := candidate.interfaceClass
    interfaceSubclass := candidate.interfaceSubclass
    interfaceProtocol := candidate.interfaceProtocol
    bulkInEp := candidate.bulkInEp
    bulkOutEp := candidate.bulkOutEp
    interruptInEp := candidate.interruptInEp }

def updateSelectedCandidate (event : FoundDevice) (candidate : ModemUsbCandidate) : UsbM Unit :=
  updateDiagnostics fun d =>
    { d.withCandidate event candidate with devicePresent := true, atReady := true, lastError := none }

def updateProbeCandidate (event : FoundDevice) (candidate : ModemUsbCandidate) : UsbM Unit :=
  updateDiagnostics fun d => d.withCandidate event candidate

/-- The candidates that are left. -/
def tryCandidates (retries : Nat) (event : FoundDevice) : List ModemUsbCandidate → UsbM Unit
  | [] => do
      diagnosticsSetError .notFound
      emitEvent .error
  | candidate :: rest => do
      updateProbeCandidate event candidate
      emitEvent .probing
      let answered ← probeCandidate retries candidate
      if answered then
        updateSelectedCandidate event candidate
        emitEvent .atReady
      else
        let found ← ask (.critical id)
        if found.diagnostics.devicePresent then tryCandidates retries event rest else pure ()

/-- What the device changes before its candidates are tried. -/
def Locked.found (l : Locked) (event : FoundDevice) (newConnection : Bool) : Locked :=
  { l with
    diagnostics := { l.diagnostics with
      devicePresent := true, atReady := false, vid := event.vid, pid := event.pid
      connectCount :=
        if newConnection then l.diagnostics.connectCount + 1 else l.diagnostics.connectCount }
    lastDeviceEvent := event
    lastDeviceValid := true }

def handleDeviceFound (retries : Nat) (event : FoundDevice) (newConnection : Bool) : UsbM Unit := do
  ask (.clearBits ⟨false, true, false⟩)
  critical fun l => l.found event newConnection
  if newConnection then emitEvent .deviceFound
  -- Without candidates the loop ends at once, with the same error.
  tryCandidates retries event event.candidates

/-- What a disconnection changes. -/
def Locked.lost (l : Locked) : Locked :=
  { l with
    diagnostics := { l.diagnostics with
      devicePresent := false, atReady := false
      disconnectCount := l.diagnostics.disconnectCount + 1
      interfaceNumber := 0, interfaceClass := 0, interfaceSubclass := 0, interfaceProtocol := 0
      bulkInEp := 0, bulkOutEp := 0, interruptInEp := 0 }
    lastDeviceValid := false
    activeGeneration := 0 }

def handleDisconnect (handle : Handle) : UsbM Unit := do
  stopProbeParser
  closeCurrentHandle (some handle)
  critical Locked.lost
  emitEvent .disconnected

/-- `WORK_EVENT_ERROR`. -/
def handleError (retries : Nat) (error : EspErr) (generation : UInt32) : UsbM Unit := do
  diagnosticsSetError error
  let found ← ask (.critical id)
  let retry := found.isCurrent generation ∧ found.lastDeviceValid
  if generation ≠ 0 then closeCurrentHandle none
  emitEvent .error
  if retry then
    ask .delay
    handleDeviceFound retries found.lastDeviceEvent false
  else pure ()

/-- One turn of `modem_usb_worker_task`. -/
def modemUsbWorkerTask (retries : Nat) : UsbM Unit := do
  let event ← ask .receive
  match event with
  | .hostReady =>
      updateDiagnostics fun d => { d with hostReady := true, lastError := none }
      emitEvent .hostReady
  | .deviceFound device => handleDeviceFound retries device true
  | .disconnected handle => handleDisconnect handle
  | .error error generation => handleError retries error generation

/-! The other tasks. -/

/-- `usb_host_library_task` up to its event loop. -/
def usbHostLibraryTask : UsbM Unit := do
  let host ← ask .hostInstall
  match host with
  | .error err =>
      let _ ← ask (.post (.error err 0) false)
      pure ()
  | .ok () =>
      let cdc ← ask .cdcInstall
      match cdc with
      | .error err =>
          let _ ← ask (.post (.error err 0) false)
          pure ()
      | .ok () =>
          let _ ← ask (.post .hostReady true)
          pure ()

def modemUsbTransportWrite (data : List UInt8) : UsbM (Except EspErr Unit) := do
  let found ← ask (.critical id)
  if found.diagnostics.atReady then writeOpenHandle data else pure (.error .invalidState)

def modemUsbTransportSetRxCallback (present : Bool) : UsbM Unit :=
  critical fun l => { l with rxCallback := present }

def modemUsbTransportGetDiagnostics : UsbM ModemUsbDiagnostics := do
  let found ← ask (.critical id)
  pure found.diagnostics

def modemUsbTransportIsReady : UsbM Bool := do
  let found ← ask (.critical id)
  pure found.diagnostics.atReady

/-- What the tasks start. -/
inductive Starts (retries : Nat) : Task → UsbM Unit → Prop where
  | worker : Starts retries .worker (modemUsbWorkerTask retries)
  | host : Starts retries .host usbHostLibraryTask
  | device (device : Option (UInt16 × UInt16)) (config : Option (List UInt8)) :
      Starts retries .driver (newUsbDeviceCallback device config)
  | received (data : List UInt8) (generation : UInt32) :
      Starts retries .driver (cdcRxCallback data generation)
  | event (event : CdcEvent) (generation : UInt32) :
      Starts retries .driver (cdcDeviceEventCallback event generation)
  | counted (success : Bool) : Starts retries .modeSwitch (modeSwitchCount success)
  | write (number : Nat) (data : List UInt8) :
      Starts retries (.client number) (modemUsbTransportWrite data >>= fun _ => pure ())
  | setRxCallback (number : Nat) (present : Bool) :
      Starts retries (.client number) (modemUsbTransportSetRxCallback present)
  | isReady (number : Nat) :
      Starts retries (.client number) (modemUsbTransportIsReady >>= fun _ => pure ())
  | getDiagnostics (number : Nat) :
      Starts retries (.client number) (modemUsbTransportGetDiagnostics >>= fun _ => pure ())

/-- A call of a task, where the worker takes only work that is admitted. -/
def Performs (admits : State → WorkEvent → Prop) (task : Task) (s : State) (request : UsbCall)
    (reply : request.Reply) (t : State) : Prop :=
  request.Answers task s reply t ∧
    match request, reply with
    | .receive, event => admits s event
    | _, _ => True

def rules (retries : Nat) (admits : State → WorkEvent → Prop) :
    Rules Task State UsbCall UsbCall.Reply :=
  ⟨Performs admits, Starts retries⟩

abbrev Transport := Crew Task State UsbCall UsbCall.Reply

/-- In a run from the start of the transport. -/
def Reached (retries : Nat) (admits : State → WorkEvent → Prop) (g : Transport) : Prop :=
  Crew.Reached (rules retries admits) State.initial g

/-! Runs by a schedule. -/

/-- An answer to a call, with `choice` for a handle that the driver opens. Sections
that wait are not answered before they may go on. -/
def UsbCall.answer (test : State → WorkEvent → Bool) (choice : Nat) (task : Task) :
    (request : UsbCall) → State → Option (request.Reply × State)
  | .receive, s =>
      match s.workQueue with
      | [] => none
      | event :: rest => if test s event then some (event, { s with workQueue := rest }) else none
  | .post event _, s =>
      if s.workQueue.length < modemUsbQueueDepth then
        some (true, { s with workQueue := s.workQueue ++ [event] })
      else none
  | .critical update, s => some (s.locked, { s with locked := update s.locked })
  | .setBits mask, s => some ((), { s with probeEvents := s.probeEvents.set mask })
  | .clearBits mask, s => some ((), { s with probeEvents := s.probeEvents.clear mask })
  | .getBits, s => some (s.probeEvents, s)
  | .waitBits mask, s => some (s.probeEvents, { s with probeEvents := s.probeEvents.clear mask })
  | .takeMutex _, s =>
      if s.ioMutex = none then some (true, { s with ioMutex := some task }) else none
  | .giveMutex, s => some ((), { s with ioMutex := none })
  | .loadHandle, s => some (s.cdcHandle, s)
  | .storeHandle handle, s => some ((), { s with cdcHandle := handle })
  | .cdcOpen _ _, s =>
      if choice ∉ s.opened then some (.ok choice, { s with opened := choice :: s.opened }) else none
  | .cdcClose handle, s => some (.ok (), { s with opened := s.opened.erase handle })
  | .hostInstall, s | .cdcInstall, s | .cdcTransmit _ _, s => some (.ok (), s)
  | .cdcPrint _, s | .eventCallback _ _, s | .rxCallback _, s | .delay, s => some ((), s)

theorem UsbCall.answer_performs {admits : State → WorkEvent → Prop} {test : State → WorkEvent → Bool}
    (tested : ∀ s event, test s event = true → admits s event) {choice : Nat} {task : Task}
    {request : UsbCall} {s t : State} {reply : request.Reply}
    (answered : request.answer test choice task s = some (reply, t)) :
    Performs admits task s request reply t := by
  cases request with
  | receive =>
      simp only [UsbCall.answer] at answered
      split at answered
      · cases answered
      · split at answered
        · rename_i queued passes
          cases answered
          exact ⟨⟨queued, rfl⟩, tested s _ passes⟩
        · cases answered
  | post event forever =>
      simp only [UsbCall.answer] at answered
      split at answered
      · rename_i room
        cases answered
        exact ⟨⟨room, rfl⟩, trivial⟩
      · cases answered
  | takeMutex forever =>
      simp only [UsbCall.answer] at answered
      split at answered
      · rename_i free
        cases answered
        exact ⟨⟨free, rfl⟩, trivial⟩
      · cases answered
  | cdcOpen interfaceNumber generation =>
      simp only [UsbCall.answer] at answered
      split at answered
      · rename_i new
        cases answered
        exact ⟨⟨new, rfl⟩, trivial⟩
      · cases answered
  | critical _ | getBits | waitBits _ | loadHandle =>
      cases answered
      exact ⟨⟨rfl, rfl⟩, trivial⟩
  | setBits _ | clearBits _ | giveMutex | storeHandle _ | hostInstall | cdcInstall | cdcClose _
  | cdcTransmit _ _ | cdcPrint _ | eventCallback _ _ | rxCallback _ | delay =>
      cases answered
      exact ⟨rfl, trivial⟩

theorem reached_of_play {retries : Nat} {admits : State → WorkEvent → Prop}
    {test : State → WorkEvent → Bool} (tested : ∀ s event, test s event = true → admits s event)
    {schedule : List (Crew.Move Task UsbCall UsbCall.Reply)}
    (may : ∀ move ∈ schedule, Crew.Startable (rules retries admits) move) {g : Transport}
    (played : Crew.play (UsbCall.answer test) schedule ⟨State.initial, fun _ => .done ()⟩ = some g) :
    Reached retries admits g := by
  apply Crew.play_steps _ may played
  intro choice task request s reply t answered
  exact UsbCall.answer_performs tested answered

end SmsGateway.Usb
