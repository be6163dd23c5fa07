import Mathlib.Data.UInt
import SmsGateway.Base
import SmsGateway.Lib.Parallel

/-! The power of the USB host socket (`gateway_board.c`): the tasks that ask for it, and the
monitor that cuts it off at an over-current. -/

namespace SmsGateway.Board

open Lib Prog

/-- The choice `GATEWAY_USB_HOST_POWER_SOURCE`. -/
inductive Source where
  | usbDev
  | battery
  | external
  deriving DecidableEq, Repr

/-- The outputs of the board. -/
inductive Pin where
  | usbSel
  | usbLimitEn
  | devVbusEn
  | boostEn
  | ledGreen
  | ledYellow
  deriving DecidableEq, Repr

/-- The pin that switches the socket on. -/
def Source.pin : Source → Option Pin
  | .usbDev => some .devVbusEn
  | .battery => some .boostEn
  | .external => none

def gatewayBoardUsbHostPowerControlAvailable (source : Source) : Bool := source.pin.isSome

/-- The variables that `s_power_mutex` protects. -/
structure Power where
  requested : Bool
  latched : Bool
  overcurrentEvents : UInt32
  cutoffs : UInt32
  deriving DecidableEq, Repr

def Power.initial : Power := ⟨true, false, 0, 0⟩

inductive Task where
  | monitor
  | clock
  | caller (number : Nat)
  deriving DecidableEq, Repr

structure State where
  /-- `s_power_mutex` is there. -/
  created : Bool
  holder : Option Task
  power : Power
  level : Pin → Bool
  /-- The ticks since the start, without the wrap of `TickType_t`. -/
  now : Nat
  /-- When the monitor took the mutex with an over-current. -/
  overcurrentAt : List Nat

def State.reset : State := ⟨false, none, .initial, fun _ => false, 0, []⟩

/-- What comes of taking the mutex. -/
inductive Lock where
  | missing
  | timeout
  | taken
  deriving DecidableEq, Repr

inductive BoardCall where
  | createMutex
  /-- `xSemaphoreTake`, if there is a mutex; the monitor is told whether over-current is
  asserted in this pass. -/
  | take (asserted : Bool)
  | give
  | load
  | store (update : Power → Power)
  | setDirection (pin : Pin)
  | setLevel (pin : Pin) (level : Bool)
  | gpioConfig
  | createTask
  /-- `gateway_board_usb_overcurrent`. -/
  | overcurrent
  | tickCount
  | delay
  /-- `at_engine_notify_transport_lost`. -/
  | transportLost
  | tick

@[reducible] def BoardCall.Reply : BoardCall → Type
  | .createMutex | .createTask | .overcurrent => Bool
  | .take _ => Lock
  | .load => Power
  | .setDirection _ | .setLevel _ _ | .gpioConfig => Except EspErr Unit
  | .tickCount => UInt32
  | _ => Unit

abbrev BoardM := Prog BoardCall BoardCall.Reply

def ask (request : BoardCall) : BoardM request.Reply := Prog.send request

/-- What a call of a task does. `gpio_set_level` refuses only a number that is no output. -/
def BoardCall.Answers (task : Task) (s : State) : (request : BoardCall) → request.Reply → State → Prop
  | .createMutex, made, t => t = { s with created := made }
  | .take asserted, lock, t =>
      match lock with
      | .missing => s.created = false ∧ t = s
      | .timeout => s.created = true ∧ t = s
      | .taken => s.created = true ∧ s.holder = none ∧ t = { s with
          holder := some task
          overcurrentAt := if asserted then s.now :: s.overcurrentAt else s.overcurrentAt }
  | .give, _, t => t = { s with holder := none }
  | .load, power, t => power = s.power ∧ t = s
  | .store update, _, t => t = { s with power := update s.power }
  | .setLevel pin level, result, t =>
      result = .ok () ∧ t = { s with level := Function.update s.level pin level }
  | .tickCount, ticks, t => ticks = UInt32.ofNat s.now ∧ t = s
  | .tick, _, t => t = { s with now := s.now + 1 }
  | .setDirection _, _, t | .gpioConfig, _, t | .createTask, _, t | .overcurrent, _, t
  | .delay, _, t | .transportLost, _, t => t = s

/-- `ESP_RETURN_ON_ERROR`. -/
def orReturn (first rest : BoardM (Except EspErr Unit)) : BoardM (Except EspErr Unit) := do
  match ← first with
  | .error err => pure (.error err)
  | .ok () => rest

variable (source : Source)

def powerApply (enabled : Bool) : BoardM (Except EspErr Unit) :=
  orReturn (ask (.setLevel .devVbusEn false)) <|
  orReturn (ask (.setLevel .boostEn false)) <|
  if !enabled then pure (.ok ())
  else
    match source.pin with
    | some pin => ask (.setLevel pin true)
    | none => pure (.ok ())

def gatewayBoardUsbHostPowerSet (enabled : Bool) : BoardM (Except EspErr Unit) := do
  let lock ← ask (.take false)
  if lock = .timeout then pure (.error .timeout)
  else
    ask (.store fun p => { p with requested := enabled })
    let power ← ask .load
    let err ← if enabled && power.latched then pure (.error .invalidState)
      else powerApply source enabled
    ask .give
    pure err

/-- `gateway_board_power_diagnostics_t`. -/
structure PowerDiagnostics where
  overcurrent : Bool
  power : Power
  deriving DecidableEq, Repr

def gatewayBoardPowerDiagnostics : BoardM (Except EspErr PowerDiagnostics) := do
  let lock ← ask (.take false)
  if lock = .timeout then pure (.error .timeout)
  else
    let overcurrent ← ask .overcurrent
    let power ← ask .load
    ask .give
    pure (.ok ⟨overcurrent, power⟩)

/-- `manager_hard_reset` of `modem_core.c`. -/
def managerHardReset : BoardM (Except EspErr Unit) :=
  if !gatewayBoardUsbHostPowerControlAvailable source then pure (.error .notSupported)
  else do
    ask .transportLost
    orReturn (gatewayBoardUsbHostPowerSet source false) do
      ask .delay
      gatewayBoardUsbHostPowerSet source true

/-! ## The monitor -/

/-- The variables of `power_monitor_task`. -/
structure Monitor where
  clearSince : UInt32
  assertedPolls : UInt32
  deriving DecidableEq, Repr

variable (rate : Nat)

/-- `pdMS_TO_TICKS(USB_OC_CLEAR_COOLDOWN_MS)`, with this many ticks in a second. -/
def cooldown : UInt32 := UInt32.ofNat (5000 * rate / 1000)

/-- Over-current is asserted. -/
def cutOff (m : Monitor) : BoardM Monitor := do
  let power ← ask .load
  if !power.latched then
    ask (.store fun p => { p with latched := true, overcurrentEvents := p.overcurrentEvents + 1 })
    if gatewayBoardUsbHostPowerControlAvailable source then
      match ← powerApply source false with
      | .ok () => ask (.store fun p => { p with cutoffs := p.cutoffs + 1 })
      | .error _ => pure ()
  ask .give
  pure { m with clearSince := 0 }

/-- The cooldown is over. -/
def restore (m : Monitor) : BoardM Monitor := do
  ask (.store fun p => { p with latched := false })
  let power ← ask .load
  if power.requested && gatewayBoardUsbHostPowerControlAvailable source then
    let _ ← powerApply source true
  ask .give
  pure { m with clearSince := 0 }

/-- Over-current is not asserted. -/
def watchClear (m : Monitor) : BoardM Monitor := do
  let power ← ask .load
  if power.latched then
    let since ← if m.clearSince = 0 then ask .tickCount else pure m.clearSince
    let now ← ask .tickCount
    if cooldown rate ≤ now - since then restore source m
    else
      ask .give
      pure { m with clearSince := since }
  else
    ask .give
    pure m

/-- `USB_OC_ASSERT_POLLS`. -/
def assertPolls : UInt32 := 3

/-- One pass of the loop of `power_monitor_task`. -/
def powerMonitorPass (m : Monitor) : BoardM Monitor := do
  let low ← ask .overcurrent
  let polled : Monitor := { m with assertedPolls := if low then m.assertedPolls + 1 else 0 }
  let asserted := decide (assertPolls ≤ polled.assertedPolls)
  let lock ← ask (.take asserted)
  let m ← if lock = .taken then
      if asserted then cutOff source polled else watchClear source rate polled
    else pure polled
  ask .delay
  pure m

/-- So many passes of `power_monitor_task`. -/
def powerMonitorTask : Nat → Monitor → BoardM Unit
  | 0, _ => pure ()
  | passes + 1, m => do
      let m ← powerMonitorPass source rate m
      powerMonitorTask passes m

/-! ## The start -/

def setOutput (pin : Pin) (level : Bool) : BoardM (Except EspErr Unit) :=
  orReturn (ask (.setDirection pin)) (ask (.setLevel pin level))

def gatewayBoardInit : BoardM (Except EspErr Unit) := do
  let created ← ask .createMutex
  if !created then pure (.error .noMem)
  else
    orReturn (setOutput .devVbusEn false) <|
    orReturn (setOutput .boostEn false) <|
    orReturn (setOutput .usbLimitEn false) <|
    orReturn (setOutput .usbSel true) <|
    orReturn (setOutput .ledGreen false) <|
    orReturn (setOutput .ledYellow false) <|
    orReturn (ask .gpioConfig) <|
    orReturn (ask .gpioConfig) <|
    orReturn (ask (.setLevel .usbLimitEn true)) <|
    orReturn (gatewayBoardUsbHostPowerSet source true) <|
    orReturn (ask (.setLevel .ledGreen true)) do
      let started ← ask .createTask
      if started then pure (.ok ()) else pure (.error .noMem)

/-! ## All tasks together -/

/-- The programs that the tasks start once the board is set up. -/
inductive Starts : Task → BoardM Unit → Prop where
  | monitor (passes : Nat) : Starts .monitor (powerMonitorTask source rate passes ⟨0, 0⟩)
  | clock : Starts .clock (ask .tick)
  | powerSet (number : Nat) (enabled : Bool) : Starts (.caller number) (do
      let _ ← gatewayBoardUsbHostPowerSet source enabled)
  | hardReset (number : Nat) : Starts (.caller number) (do let _ ← managerHardReset source)
  | diagnostics (number : Nat) : Starts (.caller number) (do let _ ← gatewayBoardPowerDiagnostics)
  | statusLed (number : Nat) (on : Bool) : Starts (.caller number) (do
      let _ ← ask (.setLevel .ledGreen on))

def rules : Rules Task State BoardCall BoardCall.Reply where
  step task s request reply t := request.Answers task s reply t
  starts := Starts source rate

/-- From the state that the start of the board leaves. -/
def Reached (g : Crew Task State BoardCall BoardCall.Reply) : Prop :=
  ∃ trace s, Runs (fun s request reply t => request.Answers (.caller 0) s reply t)
    (gatewayBoardInit source) .reset trace (.ok ()) s ∧ g.Reached (rules source rate) s

end SmsGateway.Board
