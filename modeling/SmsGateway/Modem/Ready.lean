import SmsGateway.Modem.Manager
import SmsGateway.Lib.Runs

/-! When the modem manager reports READY. -/

namespace SmsGateway.Modem

namespace Manager

/-- Some domain is HOME or ROAMING. -/
def AnyRegistered (m : Manager) : Prop :=
  modemRegistrationIsRegistered m.epsRegistration.status = true ∨
    modemRegistrationIsRegistered m.packetRegistration.status = true ∨
    modemRegistrationIsRegistered m.circuitRegistration.status = true

/-- READY is only reported with a transport, a SIM and a network. -/
def Truthful (m : Manager) : Prop :=
  m.state = .ready → m.transportReady = true ∧ m.sim = .ready ∧ m.AnyRegistered

/-- The flag follows the three domains. -/
def Consistent (m : Manager) : Prop := m.registered = true ↔ m.AnyRegistered

end Manager

/-- What the requests behind the SIM query keep. -/
structure Keeps (m after : Manager) : Prop where
  state : after.state = m.state
  transport : after.transportReady = m.transportReady
  sim : after.sim = m.sim
  consistent : m.Consistent → after.Consistent

theorem Keeps.trans {m between after : Manager} (first : Keeps m between)
    (second : Keeps between after) : Keeps m after :=
  ⟨second.state.trans first.state, second.transport.trans first.transport,
    second.sim.trans first.sim, fun before => second.consistent (first.consistent before)⟩

theorem executeCommand_spec (m : Manager) (a : Answers) (command : String) :
    ∃ failures, (executeCommand m a command).2 = { m with consecutiveFailures := failures } := by
  unfold executeCommand
  split <;> exact ⟨_, rfl⟩

theorem executeOptional_spec (m : Manager) (a : Answers) (command : String) :
    ∃ failures, (executeOptional m a command).2 = { m with consecutiveFailures := failures } := by
  obtain ⟨failures, same⟩ := executeCommand_spec m a command
  unfold executeOptional
  split
  · rename_i executed
    rw [executed] at same
    exact ⟨failures, same⟩
  · rename_i executed
    rw [executed] at same
    dsimp only at same ⊢
    rw [same]
    exact ⟨_, rfl⟩

theorem executeCommand_keeps (m : Manager) (a : Answers) (command : String) :
    Keeps m (executeCommand m a command).2 := by
  obtain ⟨failures, same⟩ := executeCommand_spec m a command
  rw [same]
  exact ⟨rfl, rfl, rfl, id⟩

theorem executeOptional_keeps (m : Manager) (a : Answers) (command : String) :
    Keeps m (executeOptional m a command).2 := by
  obtain ⟨failures, same⟩ := executeOptional_spec m a command
  rw [same]
  exact ⟨rfl, rfl, rfl, id⟩

theorem configureRegistrationUrc_keeps (m : Manager) (a : Answers) (extended basic : String) :
    Keeps m (configureRegistrationUrc m a extended basic) := by
  have first := executeOptional_keeps m a extended
  unfold configureRegistrationUrc
  split
  · rename_i executed
    rwa [executed] at first
  · rename_i executed
    rw [executed] at first
    exact first.trans (executeOptional_keeps _ a basic)

theorem querySignal_keeps (m : Manager) (a : Answers) : Keeps m (querySignal m a).2 := by
  have first := executeCommand_keeps m a "AT+CSQ"
  unfold querySignal
  split
  · rename_i executed
    rw [executed] at first
    unfold responseParseSignal
    split
    · exact first.trans ⟨rfl, rfl, rfl, id⟩
    · exact first
  · rename_i executed
    rwa [executed] at first

theorem queryOperator_keeps (m : Manager) (a : Answers) : Keeps m (queryOperator m a).2 := by
  have first := executeOptional_keeps m a "AT+COPS?"
  unfold queryOperator
  split
  · rename_i executed
    rw [executed] at first
    unfold responseParseOperator
    split
    · exact first.trans ⟨rfl, rfl, rfl, id⟩
    · exact first
  · rename_i executed
    rwa [executed] at first

theorem recomputeRegistration_consistent (m : Manager) : (recomputeRegistration m).Consistent := by
  unfold recomputeRegistration
  dsimp only
  split
  · rename_i status found
    have member := List.mem_of_find?_eq_some found
    have registered := List.find?_some found
    simp only [List.mem_cons, List.not_mem_nil, or_false] at member
    refine ⟨fun _ => ?_, fun _ => rfl⟩
    rcases member with rfl | rfl | rfl
    · exact .inl registered
    · exact .inr (.inl registered)
    · exact .inr (.inr registered)
  · rename_i none
    have all := List.find?_eq_none.mp none
    simp only [List.mem_cons, List.not_mem_nil, or_false, forall_eq_or_imp, forall_eq] at all
    refine ⟨nofun, fun some => ?_⟩
    rcases some with eps | packet | circuit
    · exact absurd eps all.1
    · exact absurd packet all.2.1
    · exact absurd circuit all.2.2

/-- Only the two flags change. -/
theorem recomputeRegistration_spec (m : Manager) : ∃ registered roaming,
    recomputeRegistration m = { m with registered := registered, roaming := roaming } := by
  unfold recomputeRegistration
  dsimp only
  split <;> exact ⟨_, _, rfl⟩

/-- The fields that a registration query leaves alone. -/
theorem queryRegistrationOne_fields (m : Manager) (a : Answers) (command : String)
    (target : Domain) (optional : Bool) :
    (queryRegistrationOne m a command target optional).2.state = m.state ∧
      (queryRegistrationOne m a command target optional).2.transportReady = m.transportReady ∧
      (queryRegistrationOne m a command target optional).2.sim = m.sim := by
  have executed : Keeps m
      (if optional then executeOptional m a command else executeCommand m a command).2 := by
    split
    · exact executeOptional_keeps m a command
    · exact executeCommand_keeps m a command
  unfold queryRegistrationOne
  generalize (if optional then executeOptional m a command else executeCommand m a command)
    = result at executed
  obtain ⟨lines, between⟩ := result
  cases lines with
  | none => exact ⟨executed.state, executed.transport, executed.sim⟩
  | some lines =>
      dsimp only
      split
      · cases target <;> exact ⟨executed.state, executed.transport, executed.sim⟩
      · exact ⟨executed.state, executed.transport, executed.sim⟩

theorem queryRegistration_keeps (m : Manager) (a : Answers) :
    Keeps m (queryRegistration m a).2 ∧ (queryRegistration m a).2.Consistent := by
  unfold queryRegistration
  dsimp only
  obtain ⟨state, transport, sim⟩ := queryRegistrationOne_fields m a "AT+CREG?" .circuit false
  generalize queryRegistrationOne m a "AT+CREG?" .circuit false = first at state transport sim ⊢
  obtain ⟨state', transport', sim'⟩ := queryRegistrationOne_fields first.2 a "AT+CGREG?" .packet true
  generalize queryRegistrationOne first.2 a "AT+CGREG?" .packet true = second
    at state' transport' sim' ⊢
  obtain ⟨state'', transport'', sim''⟩ :=
    queryRegistrationOne_fields second.2 a "AT+CEREG?" .eps true
  generalize queryRegistrationOne second.2 a "AT+CEREG?" .eps true = third
    at state'' transport'' sim'' ⊢
  have consistent := recomputeRegistration_consistent third.2
  obtain ⟨registered, roaming, same⟩ := recomputeRegistration_spec third.2
  rw [same] at consistent ⊢
  refine ⟨⟨?_, ?_, ?_, fun _ => consistent⟩, consistent⟩
  · exact state''.trans (state'.trans state)
  · exact transport''.trans (transport'.trans transport)
  · exact sim''.trans (sim'.trans sim)

theorem querySim_spec (m : Manager) (a : Answers) : ∃ failures sim,
    (querySim m a).2 = { m with consecutiveFailures := failures, sim := sim } := by
  obtain ⟨failures, same⟩ := executeCommand_spec m a "AT+CPIN?"
  unfold querySim
  split
  · rename_i executed
    rw [executed] at same
    dsimp only at same
    rw [same]
    unfold responseParseSim
    split
    · exact ⟨_, _, rfl⟩
    · exact ⟨_, m.sim, rfl⟩
  · rename_i executed
    rw [executed] at same
    exact ⟨failures, m.sim, same⟩

/-- What holds between the handlers. -/
structure Sound (m : Manager) : Prop where
  consistent : m.Consistent
  truthful : m.Truthful

theorem modemManagerInit_sound : Sound modemManagerInit := by
  refine ⟨⟨nofun, fun some => ?_⟩, nofun⟩
  rcases some with eps | packet | circuit <;> contradiction

/-- Any state but READY is fine. -/
theorem Sound.of_not_ready {m : Manager} (consistent : m.Consistent) (other : m.state ≠ .ready) :
    Sound m :=
  ⟨consistent, fun ready => absurd ready other⟩

theorem updateStateAfterPoll_sound {m : Manager} (consistent : m.Consistent)
    (transport : m.transportReady = true) : Sound (updateStateAfterPoll m) := by
  refine ⟨consistent, fun ready => ⟨transport, ?_⟩⟩
  simp only [updateStateAfterPoll] at ready ⊢
  split at ready
  · cases ready
  · rename_i sim
    split at ready
    · rename_i registered
      exact ⟨not_not.mp sim, consistent.mp registered⟩
    · cases ready

theorem initializeNetwork_sound (config : Config) {m : Manager} (a : Answers)
    (transport : m.transportReady = true) (consistent : m.Consistent) :
    Sound (initializeNetwork config m a) := by
  unfold initializeNetwork
  have configured := ((configureRegistrationUrc_keeps m a "AT+CREG=2" "AT+CREG=1").trans
    (configureRegistrationUrc_keeps _ a "AT+CGREG=2" "AT+CGREG=1")).trans
    (configureRegistrationUrc_keeps _ a "AT+CEREG=2" "AT+CEREG=1")
  dsimp only
  generalize configureRegistrationUrc (configureRegistrationUrc (configureRegistrationUrc m a
    "AT+CREG=2" "AT+CREG=1") a "AT+CGREG=2" "AT+CGREG=1") a "AT+CEREG=2" "AT+CEREG=1" = first
    at configured ⊢
  split
  · exact .of_not_ready (configured.consistent consistent) (by simp)
  · rename_i sim
    have queried := ((queryRegistration_keeps { first with initialized := true } a).1.trans
      (querySignal_keeps _ a)).trans (queryOperator_keeps _ a)
    generalize (queryOperator (querySignal (queryRegistration
      { first with initialized := true } a).2 a).2 a).2 = last at queried ⊢
    have recomputed := recomputeRegistration_consistent
      { last with nextOperatorPollMs := a.later + 300000 }
    obtain ⟨registered, roaming, same⟩ := recomputeRegistration_spec
      { last with nextOperatorPollMs := a.later + 300000 }
    rw [same] at recomputed ⊢
    refine ⟨recomputed, fun ready => ?_⟩
    refine ⟨?_, ?_, ?_⟩
    · exact queried.transport.trans (configured.transport.trans transport)
    · exact queried.sim.trans (not_not.mp sim)
    · cases registered with
      | false => cases ready
      | true => exact recomputed.mp rfl

/-- While the session is initialized, READY is only its result. -/
theorem initializeSession_sound (config : Config) {m : Manager} (a : Answers)
    (transport : m.transportReady = true) (consistent : m.Consistent) :
    Sound (initializeSession config m a).2 := by
  unfold initializeSession
  dsimp only
  generalize begun : ({ m with state := .initializing, initialized := false } : Manager) = start
  have opening : start.state ≠ .ready ∧ start.transportReady = true ∧ start.Consistent := by
    subst begun
    exact ⟨by simp, transport, consistent⟩
  have stopped {after : Manager} (kept : Keeps start after) : Sound after :=
    .of_not_ready (kept.consistent opening.2.2) (kept.state ▸ opening.1)
  have echo := executeCommand_keeps start a "ATE0"
  split
  · rename_i executed
    rw [executed] at echo
    exact stopped echo
  · rename_i between executed
    rw [executed] at echo
    have errors := echo.trans (executeCommand_keeps between a "AT+CMEE=2")
    split
    · rename_i executed
      rw [executed] at errors
      exact stopped errors
    · rename_i between executed
      rw [executed] at errors
      have identified := (((((errors.trans (executeOptional_keeps _ a "AT^CURC=0")).trans
        (executeOptional_keeps _ a "AT^PORTSEL=1")).trans (executeOptional_keeps _ a "AT+CGMI")).trans
        (executeOptional_keeps _ a "AT+CGMM")).trans (executeOptional_keeps _ a "AT+CGMR")).trans
        (executeOptional_keeps _ a "AT+CGSN")
      simp only [ignored]
      generalize (executeOptional _ a "AT+CGSN").2 = known at identified ⊢
      obtain ⟨failures, sim, same⟩ := querySim_spec known a
      have asked : (querySim known a).2.Consistent := by
        rw [same]
        exact identified.consistent opening.2.2
      split
      · rename_i queried
        rw [queried] at asked same
        refine .of_not_ready asked ?_
        dsimp only at same ⊢
        rw [same]
        exact identified.state ▸ opening.1
      · rename_i queried
        rw [queried] at asked same
        refine initializeNetwork_sound config a ?_ asked
        dsimp only at same ⊢
        rw [same]
        exact identified.transport.trans opening.2.1

theorem pollStatus_sound {m : Manager} (a : Answers) (transport : m.transportReady = true)
    (consistent : m.Consistent) : Sound (pollStatus m a).2 := by
  unfold pollStatus
  split
  · obtain ⟨failures, sim, same⟩ := querySim_spec m a
    dsimp only
    rw [same]
    split
    · exact updateStateAfterPoll_sound consistent transport
    · exact updateStateAfterPoll_sound consistent transport
  · dsimp only
    have queried := (queryRegistration_keeps m a).1.trans (querySignal_keeps _ a)
    generalize (querySignal (queryRegistration m a).2 a).2 = polled at queried ⊢
    split
    · have asked := queried.trans (queryOperator_keeps polled a)
      exact updateStateAfterPoll_sound (asked.consistent consistent)
        (asked.transport.trans transport)
    · exact updateStateAfterPoll_sound (queried.consistent consistent)
        (queried.transport.trans transport)

theorem scheduleRecovery_sound (config : Config) {m : Manager} (a : Answers) (sound : Sound m) :
    Sound (scheduleRecovery config m a) := by
  unfold scheduleRecovery
  dsimp only
  split
  · exact ⟨sound.consistent, sound.truthful⟩
  · exact .of_not_ready sound.consistent (by simp)
  · have reset := executeOptional_keeps { m with recoveriesSinceHardReset :=
      (modemRecoveryPolicyNext m.consecutiveFailures config.failuresBeforeRecovery
        config.hardResetAfterRecoveries m.recoveriesSinceHardReset).2, state := .recovery } a
      "AT+CFUN=1,1"
    refine .of_not_ready (reset.consistent sound.consistent) ?_
    simp only [ignored]
    rw [reset.state]
    simp
  · split
    · exact .of_not_ready sound.consistent (by simp)
    · exact .of_not_ready sound.consistent (by simp)

theorem managerPoll_sound (config : Config) {m : Manager} (a : Answers) (sound : Sound m) :
    Sound (managerPoll config m a) := by
  unfold managerPoll
  split
  · exact sound
  · rename_i present
    have transport : m.transportReady = true := by simpa using present
    split
    · have initialized := initializeSession_sound config a
        (show ({ m with reinitializePending := false } : Manager).transportReady = true
          from transport) sound.consistent
      split
      · rename_i result
        rwa [result] at initialized
      · rename_i result
        rw [result] at initialized
        have scheduled := scheduleRecovery_sound config a initialized
        exact ⟨scheduled.consistent, scheduled.truthful⟩
    · split
      · have polled := pollStatus_sound a transport sound.consistent
        dsimp only
        generalize pollStatus m a = result at polled ⊢
        split
        · have scheduled := scheduleRecovery_sound config a
            (show Sound { result.2 with successfulPollCycles := 0 } from
              ⟨polled.consistent, polled.truthful⟩)
          exact ⟨scheduled.consistent, scheduled.truthful⟩
        · split
          · exact ⟨polled.consistent, polled.truthful⟩
          · exact ⟨polled.consistent, polled.truthful⟩
      · exact sound

/-- With the value of this line, the SIM is ready and a domain is registered. -/
def Readies (m : Manager) (line : CStr) : Prop :=
  ∃ status, statusLine line = some status ∧ (m.put status).sim = .ready ∧
    (m.put status).AnyRegistered

theorem schedule_fields (m : Manager) (now : Int) (status : StatusLine) :
    (m.schedule now status).transportReady = m.transportReady ∧
      (m.schedule now status).sim = m.sim ∧
      ((m.schedule now status).AnyRegistered ↔ m.AnyRegistered) := by
  cases status with
  | sim sim =>
      dsimp only [Manager.schedule]
      split <;> exact ⟨rfl, rfl, Iff.rfl⟩
  | signal signal => exact ⟨rfl, rfl, Iff.rfl⟩
  | registration target registration => exact ⟨rfl, rfl, Iff.rfl⟩

theorem put_transportReady (m : Manager) (status : StatusLine) :
    (m.put status).transportReady = m.transportReady := by
  cases status with
  | sim sim => rfl
  | signal signal => rfl
  | registration target registration => cases target <;> rfl

/-- A status line makes the manager READY without a look at the transport. -/
theorem handleUrcLine_spec {m : Manager} (sound : Sound m) (line : CStr) (now : Int) :
    (handleUrcLine m line now).Consistent ∧
      ((handleUrcLine m line now).Truthful ↔ m.transportReady = true ∨ ¬ Readies m line) := by
  unfold handleUrcLine
  cases parsed : statusLine line with
  | none =>
      refine ⟨sound.consistent, fun _ => .inr ?_, fun _ => sound.truthful⟩
      rintro ⟨status, found, -⟩
      cases parsed.symm.trans found
  | some status =>
      dsimp only
      have fields := schedule_fields (m.put status) now status
      have transport := put_transportReady m status
      generalize (m.put status).schedule now status = between at fields ⊢
      rw [transport] at fields
      have consistent := recomputeRegistration_consistent between
      obtain ⟨registered, roaming, same⟩ := recomputeRegistration_spec between
      rw [same] at consistent ⊢
      refine ⟨consistent, fun truthful => ?_, fun fine ready => ?_⟩
      · by_cases readies : Readies m line
        · obtain ⟨status', found, sim, domain⟩ := readies
          cases parsed.symm.trans found
          have flag : registered = true := consistent.mpr (fields.2.2.mpr domain)
          have ready := truthful (by
            simp only [updateStateAfterPoll, fields.2.1, sim, flag, ne_eq, not_true_eq_false,
              ↓reduceIte])
          exact .inl (fields.1 ▸ ready.1)
        · exact .inr readies
      · -- READY was chosen for the SIM and the flag, which follows the domains.
        simp only [updateStateAfterPoll] at ready ⊢
        split at ready
        · cases ready
        · rename_i sim
          split at ready
          · rename_i flag
            have domain : between.AnyRegistered := consistent.mp flag
            refine ⟨?_, not_not.mp sim, domain⟩
            rcases fine with present | other
            · exact fields.1.trans present
            · exact absurd ⟨status, parsed, fields.2.1 ▸ not_not.mp sim, fields.2.2.mp domain⟩ other
          · cases ready

theorem handleManualRestart_sound (config : Config) {m : Manager} (a : Answers) (sound : Sound m) :
    Sound (handleManualRestart config m a) := by
  unfold handleManualRestart
  split
  · exact sound
  · dsimp only
    split
    · exact .of_not_ready sound.consistent (by simp)
    · have reset := executeOptional_keeps { m with state := .recovery } a "AT+CFUN=1,1"
      generalize executeOptional { m with state := .recovery } a "AT+CFUN=1,1" = result at reset ⊢
      split
      · exact .of_not_ready (reset.consistent sound.consistent) (by simp)
      · refine .of_not_ready (reset.consistent sound.consistent) ?_
        dsimp only
        rw [reset.state]
        simp

theorem handleSimPin_sound {m : Manager} (pin : CString 9) (a : Answers) (sound : Sound m) :
    Sound (handleSimPin m pin a) := by
  unfold handleSimPin
  dsimp only
  split
  · exact sound
  · split
    · exact ⟨sound.consistent, sound.truthful⟩
    · exact sound

theorem handleTransportLost_sound (m : Manager) : Sound (handleTransportLost m) := by
  refine .of_not_ready ⟨nofun, fun some => ?_⟩ (by simp [handleTransportLost])
  rcases some with eps | packet | circuit <;> contradiction

/-- The manager and its queue. -/
structure System where
  manager : Manager
  queue : List Event
  deriving DecidableEq, Repr

inductive Input where
  | post (call : Post)
  | event (a : Answers)
  | poll (a : Answers)

/-- Another task posts, the manager handles the front of the queue, or it polls. -/
inductive Step (config : Config) : System → Input → System → Prop where
  | post {s : System} (call : Post) :
      Step config s (.post call) ⟨s.manager, Modem.post s.queue call⟩
  | event {m : Manager} {event : Event} {rest : List Event} (a : Answers) :
      Step config ⟨m, event :: rest⟩ (.event a) ⟨handleEvent config m a event, rest⟩
  | poll {s : System} (a : Answers) :
      Step config s (.poll a) ⟨managerPoll config s.manager a, s.queue⟩

/-- A status line that is handled without a transport does not complete a ready SIM
and a registered domain. -/
def Safe (s : System) : Input → Prop
  | .event _ => ∀ line rest, s.queue = .urc line :: rest → s.manager.transportReady = false →
      ¬ Readies s.manager line.str
  | _ => True

theorem Step.consistent {config : Config} {s t : System} {input : Input}
    (step : Step config s input t) (sound : Sound s.manager) : t.manager.Consistent := by
  cases step with
  | post call => exact sound.consistent
  | @event m event rest a =>
      cases event with
      | transportReady => exact sound.consistent
      | transportLost => exact (handleTransportLost_sound m).consistent
      | urc line => exact (handleUrcLine_spec sound line.str a.now).1
      | simPin pin => exact (handleSimPin_sound pin a sound).consistent
      | manualRestart => exact (handleManualRestart_sound config a sound).consistent
  | poll a => exact (managerPoll_sound config a sound).consistent

/-- From a truthful state, exactly the safe steps lead to a truthful one. -/
theorem Step.truthful_iff {config : Config} {s t : System} {input : Input}
    (step : Step config s input t) (sound : Sound s.manager) :
    t.manager.Truthful ↔ Safe s input := by
  cases step with
  | post call => exact ⟨fun _ => trivial, fun _ => sound.truthful⟩
  | @event m event rest a =>
      cases event with
      | transportReady =>
          exact ⟨fun _ _ _ => nofun, fun _ => nofun⟩
      | transportLost =>
          exact ⟨fun _ _ _ => nofun, fun _ => (handleTransportLost_sound m).truthful⟩
      | urc line =>
          dsimp only [handleEvent]
          rw [(handleUrcLine_spec sound line.str a.now).2]
          constructor
          · rintro (present | other) line' rest' same absent
            · cases present.symm.trans absent
            · cases same
              exact other
          · intro safe
            cases present : m.transportReady with
            | true => exact .inl rfl
            | false => exact .inr (safe line rest rfl present)
      | simPin pin => exact ⟨fun _ _ _ => nofun, fun _ => (handleSimPin_sound pin a sound).truthful⟩
      | manualRestart =>
          exact ⟨fun _ _ _ => nofun, fun _ => (handleManualRestart_sound config a sound).truthful⟩
  | poll a => exact ⟨fun _ => trivial, fun _ => (managerPoll_sound config a sound).truthful⟩

/-- One iteration of the task is an event, if there is one, and a poll. -/
theorem managerTask_steps (config : Config) (m : Manager) (event : Event) (rest : List Event)
    (a b : Answers) :
    Step config ⟨m, event :: rest⟩ (.event a) ⟨handleEvent config m a event, rest⟩ ∧
      Step config ⟨handleEvent config m a event, rest⟩ (.poll b)
        ⟨(managerTask config m (event :: rest) a b).1,
          (managerTask config m (event :: rest) a b).2⟩ :=
  ⟨.event a, .poll b⟩

def SafeStep (config : Config) (s : System) (input : Input) (t : System) : Prop :=
  Step config s input t ∧ Safe s input

/-- In every run of safe steps, READY is true. -/
theorem ready_truthful {config : Config} {trace : List Input} {s : System}
    (runs : Lib.Runs (SafeStep config) ⟨modemManagerInit, []⟩ trace s) : s.manager.Truthful := by
  have sound : Sound s.manager := by
    refine Lib.Runs.invariant (fun _ s => Sound s.manager) modemManagerInit_sound ?_ runs
    rintro trace s input t - sound ⟨step, safe⟩
    exact ⟨step.consistent sound, (step.truthful_iff sound).mpr safe⟩
  exact sound.truthful

/-- The default values of `Kconfig`. -/
def defaults : Config := ⟨30000, 5000, 3, 2, 5000⟩

/-- A modem that is registered at home. -/
def registeredModem : Answers where
  now := 1000
  later := 1000
  execute := fun command =>
    if command = .text "AT+CPIN?" then some [.text "+CPIN: READY"]
    else if command = .text "AT+CREG?" then some [.text "+CREG: 0,1"]
    else some []
  hardReset := false

/-- A modem that does not answer. -/
def silentModem : Answers := ⟨1000, 1000, fun _ => none, false⟩

theorem ready_truthful_registered :
    ∃ s, Lib.Runs (SafeStep defaults) ⟨modemManagerInit, []⟩
        [.post .notifyTransportReady, .event registeredModem, .poll registeredModem] s ∧
      s.manager.state = .ready ∧ s.manager.transportReady = true ∧ s.manager.sim = .ready ∧
      s.manager.AnyRegistered := by
  have runs : Lib.Runs (SafeStep defaults) ⟨modemManagerInit, []⟩
      [.post .notifyTransportReady, .event registeredModem, .poll registeredModem] _ :=
    .step (.step (.step .start ⟨.post .notifyTransportReady, trivial⟩)
      ⟨.event registeredModem, fun _ _ => nofun⟩) ⟨.poll registeredModem, trivial⟩
  have ready : (managerPoll defaults (handleEvent defaults modemManagerInit registeredModem
      .transportReady) registeredModem).state = .ready := by
    decide +kernel
  exact ⟨_, runs, ready, ready_truthful runs ready⟩

/-- Two status lines are queued, the transport is lost and overtakes them, and the
lines make the manager READY. -/
theorem ready_without_transport :
    ∃ s, Lib.Runs (Step defaults) ⟨modemManagerInit, []⟩
        [.post .notifyTransportReady, .event silentModem, .poll silentModem,
          .post (.handleUrc (.text "+CPIN: READY")), .post (.handleUrc (.text "+CREG: 1")),
          .post .notifyTransportLost, .event silentModem, .poll silentModem, .event silentModem,
          .poll silentModem, .event silentModem, .poll silentModem] s ∧
      s.manager.state = .ready ∧ s.manager.transportReady = false := by
  refine ⟨_, .step (.step (.step (.step (.step (.step (.step (.step (.step (.step (.step (.step .start
    (.post .notifyTransportReady)) (.event silentModem)) (.poll silentModem))
    (.post (.handleUrc (.text "+CPIN: READY")))) (.post (.handleUrc (.text "+CREG: 1"))))
    (.post .notifyTransportLost)) (.event silentModem)) (.poll silentModem)) (.event silentModem))
    (.poll silentModem)) (.event silentModem)) (.poll silentModem), ?_⟩
  decide +kernel

end SmsGateway.Modem
