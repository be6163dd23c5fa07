import SmsGateway.Network.Task
import SmsGateway.Lib.Runs

/-! When the station is left offline without a further attempt. -/

namespace SmsGateway.Network

/-- A credential test is running, or its restart is. -/
def State.Testing (s : State) : Prop := s.setupState = .connecting ∨ s.setupState = .connected

/-- With credentials and offline, an attempt is outstanding or something leads to one. -/
def State.Attended (s : State) : Prop :=
  s.provisioned = true → s.connected = false →
    s.staConnecting = true ∨ s.nextConnectMs ≠ 0 ∨ s.setupState = .connecting ∨
      s.setupState = .connected ∧ s.restartAtMs ≠ 0

inductive Input where
  | command (command : Command) (a : Answers)
  | tick (a : Answers)

/-- The steps of the task after `network_service_init` found credentials or not: a
command that was posted, or a tick that does not restart the device. -/
inductive Step (config : Config) (provisioned : Bool) : State → Input → State → Prop where
  | command {s : State} {command : Command} (a : Answers) (posted : Posted provisioned command) :
      Step config provisioned s (.command command a) (handleCommand s a command)
  | tick {s t : State} (a : Answers) (running : handleTick config s a = some t) :
      Step config provisioned s (.tick a) t

/-- A connect request fails only while a credential test runs or the station is
connected, and new credentials are refused only while connected, without credentials
or with a reconnect scheduled. -/
def Safe (s : State) : Input → Prop
  | .command .staStart a =>
      s.provisioned = true → s.portalReason ≠ .firstSetup → s.connected = false →
        ¬ s.Testing → a.connect = .ok
  | .command (.setupSubmitted _) a =>
      s.provisioned = true → s.connected = false → s.nextConnectMs = 0 →
        applyStaCredentials a.setConfig = .ok
  | .tick a =>
      s.nextConnectMs ≠ 0 → a.now ≥ s.nextConnectMs → s.provisioned = true →
        s.connected = false → ¬ s.Testing → a.connect = .ok
  | _ => True

/-- The delay is positive, and a restart is scheduled for credentials that work. -/
structure Sound (provisioned : Bool) (s : State) : Prop where
  delay : 0 < s.reconnectDelayMs
  restart : s.setupState = .connected → s.restartAtMs ≠ 0
  portal : provisioned = true → s.portalReason ≠ .firstSetup

theorem reconnectMinMs_pos : 0 < reconnectMinMs := by decide

theorem scheduleReconnect_spec {s : State} (positive : 0 < s.reconnectDelayMs) (now : Int) :
    ∃ wait delay : Nat, 0 < wait ∧ 0 < delay ∧
      scheduleReconnect s now = { s with
        reconnects := s.reconnects + 1
        nextConnectMs := now + wait
        reconnectDelayMs := delay } := by
  unfold scheduleReconnect
  dsimp only
  generalize chosen : (if s.provisioning ∧ s.reconnectDelayMs < reconnectWithPortalMs then
    reconnectWithPortalMs else s.reconnectDelayMs) = wait
  have waits : 0 < wait := by
    rw [← chosen]
    split
    · decide
    · exact positive
  split
  · refine ⟨wait, _, waits, ?_, rfl⟩
    split
    · decide
    · omega
  · exact ⟨wait, s.reconnectDelayMs, waits, positive, rfl⟩

/-- What the portal changes; `provisioned` is whether there were credentials at the
start. -/
def PortalOnly (provisioned : Bool) (s t : State) : Prop :=
  ∃ provisioning reason opened offline,
    (reason = .firstSetup → s.portalReason = .firstSetup ∨ provisioned = false) ∧
    t = { s with
      provisioning := provisioning
      portalReason := reason
      portalOpenedMs := opened
      offlineSinceMs := offline }

section

variable {provisioned : Bool}

theorem PortalOnly.refl (s : State) : PortalOnly provisioned s s :=
  ⟨_, _, _, _, fun same => .inl same, rfl⟩

theorem PortalOnly.trans {s t u : State} (first : PortalOnly provisioned s t)
    (second : PortalOnly provisioned t u) : PortalOnly provisioned s u := by
  obtain ⟨_, _, _, _, kept, rfl⟩ := first
  obtain ⟨_, _, _, _, kept', rfl⟩ := second
  refine ⟨_, _, _, _, fun same => ?_, rfl⟩
  rcases kept' same with before | without
  · exact kept before
  · exact .inr without

theorem openPortal_portalOnly (s : State) {reason : PortalReason}
    (posted : Posted provisioned (.openPortal reason) ∨ reason = .fallback) (portal : EspErr)
    (now : Int) : PortalOnly provisioned s (openPortal s reason portal now).2 := by
  unfold openPortal
  split
  · refine ⟨_, _, _, _, fun same => ?_, rfl⟩
    split at same
    · rename_i manual
      cases manual.symm.trans same
    · exact .inl same
  · split
    · exact .refl s
    · refine ⟨_, _, _, _, fun same => ?_, rfl⟩
      cases same
      rcases posted with (manual | ⟨-, without⟩) | fallback
      · cases manual
      · exact .inr without
      · cases fallback

theorem closePortal_portalOnly (s : State) : PortalOnly provisioned s (closePortal s) := by
  unfold closePortal
  split
  · exact .refl s
  · exact ⟨false, .closed, _, _, nofun, rfl⟩

theorem tickFallback_portalOnly (config : Config) (snap s : State) (a : Answers) :
    PortalOnly provisioned s (tickFallback config snap s a) := by
  unfold tickFallback
  split
  · have opened : PortalOnly provisioned s (openPortal s .fallback a.portal a.later).2 :=
      openPortal_portalOnly s (.inr rfl) a.portal a.later
    split
    · rename_i same
      rwa [same] at opened
    · rename_i same
      rw [same] at opened
      exact opened.trans ⟨_, _, _, _, fun same => .inl same, rfl⟩
  · exact .refl s

theorem tickManual_portalOnly (config : Config) (snap s : State) (a : Answers) :
    PortalOnly provisioned s (tickManual config snap s a) := by
  unfold tickManual
  dsimp only
  split
  · split
    · exact (closePortal_portalOnly s).trans ⟨_, _, _, _, fun same => .inl same, rfl⟩
    · exact closePortal_portalOnly s
  · exact .refl s

theorem PortalOnly.sound {s t : State} (only : PortalOnly provisioned s t)
    (sound : Sound provisioned s) : Sound provisioned t := by
  obtain ⟨_, _, _, _, kept, rfl⟩ := only
  refine ⟨sound.delay, sound.restart, fun credentials first => ?_⟩
  rcases kept first with before | without
  · exact sound.portal credentials before
  · cases credentials.symm.trans without

theorem PortalOnly.attended_iff {s t : State} (only : PortalOnly provisioned s t) :
    t.Attended ↔ s.Attended := by
  obtain ⟨_, _, _, _, -, rfl⟩ := only
  exact Iff.rfl

/-! The handlers, one by one. -/

theorem staConnectNow_sound {s : State} (sound : Sound provisioned s) (err : EspErr) :
    Sound provisioned (staConnectNow s err) := by
  unfold staConnectNow
  dsimp only
  split <;> exact ⟨sound.delay, sound.restart, sound.portal⟩

/-- A connect request leaves the station attended when it is accepted, and otherwise
only while there is nothing to attend to. -/
theorem staConnectNow_attended_iff {s : State} (sound : Sound provisioned s) (err : EspErr) :
    (staConnectNow s err).Attended ↔
      (s.provisioned = true → s.connected = false → ¬ s.Testing → err = .ok) := by
  unfold staConnectNow
  dsimp only
  by_cases accepted : err = .ok
  · simp only [accepted, ne_eq, not_true_eq_false, ↓reduceIte]
    exact ⟨fun _ _ _ _ => trivial, fun _ _ _ => .inl rfl⟩
  · simp only [accepted, ne_eq, not_false_eq_true, ↓reduceIte]
    constructor
    · intro attended credentials offline idle
      rcases attended credentials offline with outstanding | scheduled | testing | ⟨testing, -⟩
      · cases outstanding
      · exact scheduled rfl
      · exact idle (.inl testing)
      · exact idle (.inr testing)
    · intro only credentials offline
      by_cases testing : s.Testing
      · rcases testing with connecting | connected
        · exact .inr (.inr (.inl connecting))
        · exact .inr (.inr (.inr ⟨connected, sound.restart connected⟩))
      · exact (only credentials offline testing).elim

theorem scheduled_attended {s : State} (scheduled : s.nextConnectMs ≠ 0) : s.Attended :=
  fun _ _ => .inr (.inl scheduled)

theorem scheduleReconnect_attended {s : State} (positive : 0 < s.reconnectDelayMs) {now : Int}
    (nonnegative : 0 ≤ now) : (scheduleReconnect s now).Attended := by
  obtain ⟨wait, delay, waits, -, same⟩ := scheduleReconnect_spec positive now
  rw [same]
  apply scheduled_attended
  dsimp only
  omega

theorem scheduleReconnect_sound {s : State} (sound : Sound provisioned s) (now : Int) :
    Sound provisioned (scheduleReconnect s now) := by
  obtain ⟨wait, delay, -, positive, same⟩ := scheduleReconnect_spec sound.delay now
  rw [same]
  exact ⟨positive, sound.restart, sound.portal⟩

theorem handleDisconnected_spec {s : State} (sound : Sound provisioned s) (reason : Int)
    (a : Answers) :
    Sound provisioned (handleDisconnected s reason a) ∧
      (handleDisconnected s reason a).Attended := by
  have nonnegative : 0 ≤ a.later := Int.le_trans a.positive a.monotone
  unfold handleDisconnected
  dsimp only
  generalize lost : (if s.connected = true then _ else _ : State) = t
  have soundT : Sound provisioned t := by
    rw [← lost]
    split
    · exact ⟨reconnectMinMs_pos, sound.restart, sound.portal⟩
    · exact ⟨sound.delay, sound.restart, sound.portal⟩
  by_cases testing : t.setupState = .connecting
  · rw [if_pos testing]
    by_cases leave : reason = wifiReasonAssocLeave
    · rw [if_pos leave]
      exact ⟨soundT, fun _ _ => .inr (.inr (.inl testing))⟩
    · rw [if_neg leave]
      split
      · have failed : Sound provisioned
            { t with setupFailures := t.setupFailures + 1, setupState := .failed } :=
          ⟨soundT.delay, nofun, soundT.portal⟩
        exact ⟨scheduleReconnect_sound failed _, scheduleReconnect_attended failed.delay nonnegative⟩
      · refine ⟨⟨soundT.delay, soundT.restart, soundT.portal⟩, scheduled_attended ?_⟩
        dsimp only
        omega
  · rw [if_neg testing]
    by_cases works : t.setupState = .connected
    · rw [if_pos works]
      exact ⟨soundT, fun _ _ => .inr (.inr (.inr ⟨works, soundT.restart works⟩))⟩
    · rw [if_neg works]
      split
      · exact ⟨scheduleReconnect_sound soundT _, scheduleReconnect_attended soundT.delay nonnegative⟩
      · rename_i without
        exact ⟨soundT, fun credentials => absurd credentials without⟩

theorem handleGotIp_spec {s : State} (sound : Sound provisioned s) (ip : CString 16)
    (savedSsid : CString 33) {now : Int} (nonnegative : 0 ≤ now) :
    Sound provisioned (handleGotIp s ip savedSsid now) ∧
      (handleGotIp s ip savedSsid now).connected = true := by
  unfold handleGotIp
  dsimp only
  generalize chosen : (if s.setupState = .failed then SetupState.idle else s.setupState) = setup
  have restart : setup = .connected → s.restartAtMs ≠ 0 := by
    rw [← chosen]
    split
    · nofun
    · exact sound.restart
  generalize (if s.provisioning = true then s.portalReason else PortalReason.closed) = portal
  split
  · refine ⟨⟨reconnectMinMs_pos, fun _ => ?_, sound.portal⟩, rfl⟩
    simp only [setupRestartDelayMs]
    omega
  · split
    · refine ⟨(closePortal_portalOnly _).sound ⟨reconnectMinMs_pos, restart, sound.portal⟩, ?_⟩
      unfold closePortal
      split <;> rfl
    · exact ⟨⟨reconnectMinMs_pos, restart, sound.portal⟩, rfl⟩

theorem handleSetupSubmitted_sound {s : State} (sound : Sound provisioned s) (ssid : CString 33)
    (a : Answers) : Sound provisioned (handleSetupSubmitted s ssid a) := by
  unfold handleSetupSubmitted
  dsimp only
  split
  · exact ⟨sound.delay, nofun, sound.portal⟩
  · exact ⟨reconnectMinMs_pos, nofun, sound.portal⟩

theorem handleSetupSubmitted_attended_iff (s : State) (ssid : CString 33) (a : Answers) :
    (handleSetupSubmitted s ssid a).Attended ↔ Safe s (.command (.setupSubmitted ssid) a) := by
  unfold handleSetupSubmitted
  dsimp only [Safe]
  by_cases accepted : applyStaCredentials a.setConfig = .ok
  · simp only [accepted, ne_eq, not_true_eq_false, ↓reduceIte]
    exact ⟨fun _ _ _ _ => trivial, fun _ _ _ => .inr (.inr (.inl rfl))⟩
  · simp only [accepted, ne_eq, not_false_eq_true, ↓reduceIte]
    constructor
    · intro attended credentials offline unscheduled
      rcases attended credentials offline with outstanding | scheduled | testing | ⟨testing, -⟩
      · cases outstanding
      · exact scheduled unscheduled
      · cases testing
      · cases testing
    · intro only credentials offline
      exact .inr (.inl fun unscheduled => only credentials offline unscheduled)

theorem handleCommand_sound {s : State} (sound : Sound provisioned s) (a : Answers)
    {command : Command} (posted : Posted provisioned command) :
    Sound provisioned (handleCommand s a command) := by
  cases command with
  | staStart =>
      dsimp only [handleCommand]
      split
      · exact staConnectNow_sound sound _
      · exact sound
  | disconnected reason => exact (handleDisconnected_spec sound reason a).1
  | gotIp ip => exact (handleGotIp_spec sound ip a.savedSsid a.positive).1
  | openPortal reason => exact (openPortal_portalOnly s (.inl posted) _ _).sound sound
  | setupSubmitted ssid => exact handleSetupSubmitted_sound sound ssid a
  | tick => exact sound

/-- A command leaves the station attended exactly when the command is safe. -/
theorem handleCommand_attended_iff {s : State} (sound : Sound provisioned s) (a : Answers)
    {command : Command} (posted : Posted provisioned command) (attended : s.Attended) :
    (handleCommand s a command).Attended ↔ Safe s (.command command a) := by
  cases command with
  | staStart =>
      dsimp only [handleCommand]
      by_cases starts : s.provisioned ∧ s.portalReason ≠ .firstSetup
      · rw [if_pos starts, staConnectNow_attended_iff sound]
        exact ⟨fun only credentials _ => only credentials,
          fun only credentials => only credentials starts.2⟩
      · rw [if_neg starts]
        exact ⟨fun _ credentials first => absurd ⟨credentials, first⟩ starts, fun _ => attended⟩
  | disconnected reason =>
      exact ⟨fun _ => trivial, fun _ => (handleDisconnected_spec sound reason a).2⟩
  | gotIp ip =>
      refine ⟨fun _ => trivial, fun _ _ offline => ?_⟩
      cases (handleGotIp_spec sound ip a.savedSsid a.positive).2.symm.trans offline
  | openPortal reason =>
      have only := openPortal_portalOnly s (.inl posted) a.portal a.now
      exact ⟨fun _ => trivial, fun _ => only.attended_iff.mpr attended⟩
  | setupSubmitted ssid => exact handleSetupSubmitted_attended_iff s ssid a
  | tick => exact ⟨fun _ => trivial, fun _ => attended⟩

theorem staStart_attended {s : State} (sound : Sound provisioned s) {a : Answers}
    (known : s.portalReason ≠ .firstSetup) (safe : Safe s (.command .staStart a)) :
    (handleCommand s a .staStart).Attended := by
  dsimp only [handleCommand]
  by_cases starts : s.provisioned ∧ s.portalReason ≠ .firstSetup
  · rw [if_pos starts, staConnectNow_attended_iff sound]
    exact fun credentials => safe credentials known
  · rw [if_neg starts]
    exact fun credentials => absurd ⟨credentials, known⟩ starts

/-- A test that is over schedules a reconnect behind this tick. -/
theorem tickDeadline_over {s : State} (sound : Sound provisioned s) {a : Answers}
    (testing : s.setupState = .connecting) (beyond : s.setupDeadlineMs ≤ a.now) :
    Sound provisioned (tickDeadline s a) ∧ (tickDeadline s a).setupState = .failed ∧
      a.now < (tickDeadline s a).nextConnectMs := by
  have failed : Sound provisioned { s with setupState := .failed } :=
    ⟨sound.delay, nofun, sound.portal⟩
  obtain ⟨wait, delay, waits, -, same⟩ := scheduleReconnect_spec failed.delay a.later
  rw [tickDeadline, if_pos ⟨testing, beyond⟩]
  refine ⟨scheduleReconnect_sound failed _, ?_⟩
  rw [same]
  refine ⟨rfl, ?_⟩
  have monotone := a.monotone
  dsimp only
  omega

theorem tickConnect_later (snap : State) {s : State} {a : Answers} (later : a.now < s.nextConnectMs) :
    tickConnect snap s a = s := by
  rw [tickConnect, if_neg]
  rintro ⟨-, due, -⟩
  omega

/-- Behind the deadline and the connect request, a tick changes only the portal. -/
theorem handleTick_portalOnly {config : Config} {s t : State} {a : Answers}
    (running : handleTick config s a = some t) :
    PortalOnly provisioned (tickConnect s (tickDeadline s a) a) t := by
  unfold handleTick at running
  split at running
  · cases running
  · cases running
    exact (tickFallback_portalOnly config s _ a).trans (tickManual_portalOnly config s _ a)

theorem handleTick_over {config : Config} {s t : State} (sound : Sound provisioned s) {a : Answers}
    (running : handleTick config s a = some t) (testing : s.setupState = .connecting)
    (beyond : s.setupDeadlineMs ≤ a.now) : t.setupState = .failed ∧ t.nextConnectMs ≠ 0 := by
  obtain ⟨-, failed, later⟩ := tickDeadline_over sound testing beyond
  have only : PortalOnly provisioned _ t := handleTick_portalOnly running
  rw [tickConnect_later s later] at only
  obtain ⟨_, _, _, _, -, rfl⟩ := only
  have positive := a.positive
  refine ⟨failed, ?_⟩
  dsimp only
  omega

/-- A tick leaves the station attended exactly when it is safe. -/
theorem handleTick_spec {config : Config} {s t : State} (sound : Sound provisioned s) {a : Answers}
    (running : handleTick config s a = some t) :
    Sound provisioned t ∧ (s.Attended → (t.Attended ↔ Safe s (.tick a))) := by
  have only : PortalOnly provisioned _ t := handleTick_portalOnly running
  by_cases beyond : s.setupState = .connecting ∧ a.now ≥ s.setupDeadlineMs
  · obtain ⟨soundD, -, later⟩ := tickDeadline_over sound beyond.1 beyond.2
    rw [tickConnect_later s later] at only
    have positive := a.positive
    refine ⟨only.sound soundD,
      fun _ => ⟨fun _ _ _ _ _ idle => absurd (.inl beyond.1) idle, fun _ => ?_⟩⟩
    apply only.attended_iff.mpr (scheduled_attended ?_)
    omega
  · rw [tickDeadline, if_neg beyond] at only
    unfold tickConnect at only
    by_cases due : s.nextConnectMs ≠ 0 ∧ a.now ≥ s.nextConnectMs ∧ !s.connected ∧ s.provisioned
    · rw [if_pos due] at only
      refine ⟨only.sound (staConnectNow_sound sound _), fun _ => ?_⟩
      rw [only.attended_iff, staConnectNow_attended_iff sound]
      exact ⟨fun requested _ _ => requested, fun safe => safe due.1 due.2.1⟩
    · rw [if_neg due] at only
      refine ⟨only.sound sound, fun attended => ⟨fun _ scheduled reached credentials offline => ?_,
        fun _ => only.attended_iff.mpr attended⟩⟩
      exact absurd ⟨scheduled, reached, by simp [offline], credentials⟩ due

theorem Step.sound {config : Config} {s t : State} {input : Input}
    (step : Step config provisioned s input t) (sound : Sound provisioned s) :
    Sound provisioned t := by
  cases step with
  | command a posted => exact handleCommand_sound sound a posted
  | tick a running => exact (handleTick_spec sound running).1

/-- From an attended state, exactly the safe steps lead to an attended one. -/
theorem Step.attended_iff {config : Config} {s t : State} {input : Input}
    (step : Step config provisioned s input t) (sound : Sound provisioned s)
    (attended : s.Attended) : t.Attended ↔ Safe s input := by
  cases step with
  | command a posted => exact handleCommand_attended_iff sound a posted attended
  | tick a running => exact (handleTick_spec sound running).2 attended

end

theorem networkServiceInit_sound (provisioned : Bool) (ssid : CString 33) (now : Int) :
    Sound provisioned (networkServiceInit provisioned ssid now) :=
  ⟨reconnectMinMs_pos, nofun, fun _ => nofun⟩

/-- One iteration of the task is a command and a tick. -/
theorem networkTask_steps {config : Config} {provisioned : Bool} {s t : State} {command : Command}
    {a b : Answers} (posted : Posted provisioned command)
    (iteration : networkTask config s command a b = some t) :
    Step config provisioned s (.command command a) (handleCommand s a command) ∧
      Step config provisioned (handleCommand s a command) (.tick b) t :=
  ⟨.command a posted, .tick b iteration⟩

/-- The steps that meet the condition. -/
def SafeStep (config : Config) (provisioned : Bool) (s : State) (input : Input) (t : State) : Prop :=
  Step config provisioned s input t ∧ Safe s input

/-- With credentials at the start, nothing is attempted before the station has started. -/
theorem safeRun_attended {config : Config} {provisioned : Bool} {ssid : CString 33} {boot : Int}
    {trace : List Input} {s : State}
    (runs : Lib.Runs (SafeStep config provisioned) (networkServiceInit provisioned ssid boot)
      trace s) :
    Sound provisioned s ∧
      ((provisioned = false ∨ ∃ a, Input.command .staStart a ∈ trace) → s.Attended) := by
  refine Lib.Runs.invariant
    (fun trace s => Sound provisioned s ∧
      ((provisioned = false ∨ ∃ a, Input.command .staStart a ∈ trace) → s.Attended))
    ⟨networkServiceInit_sound provisioned ssid boot, ?_⟩ ?_ runs
  · rintro (without | ⟨a, member⟩)
    · exact fun credentials => absurd credentials (by simp [networkServiceInit, without])
    · cases member
  · rintro trace s input t - ⟨sound, before⟩ ⟨step, safe⟩
    refine ⟨step.sound sound, fun started => ?_⟩
    by_cases earlier : provisioned = false ∨ ∃ a, Input.command .staStart a ∈ trace
    · exact (step.attended_iff sound (before earlier)).mpr safe
    · -- This step is the start of the station, and there were credentials.
      rw [not_or] at earlier
      obtain ⟨a, member⟩ := started.resolve_left earlier.1
      rcases List.mem_append.mp member with old | new
      · exact absurd ⟨a, old⟩ earlier.2
      · cases List.mem_singleton.mp new
        cases step
        exact staStart_attended sound (sound.portal (by simpa using earlier.1)) safe

/-- In every run of safe steps, the station is attended from its start on, and a test of
credentials ends with its deadline. -/
theorem station_attended {config : Config} {provisioned : Bool} {ssid : CString 33} {boot : Int}
    {trace : List Input} {s : State} {a : Answers}
    (runs : Lib.Runs (SafeStep config provisioned) (networkServiceInit provisioned ssid boot)
      trace s)
    (started : Input.command .staStart a ∈ trace) :
    s.Attended ∧
      ∀ b t, s.setupState = .connecting → s.setupDeadlineMs ≤ b.now →
        handleTick config s b = some t → t.setupState = .failed ∧ t.nextConnectMs ≠ 0 := by
  obtain ⟨sound, attended⟩ := safeRun_attended runs
  exact ⟨attended (.inr ⟨a, started⟩), fun b t testing beyond running =>
    handleTick_over sound running testing beyond⟩

/-- The driver accepts the requests for which the flag is set. -/
def answers (connects configures : Bool) : Answers where
  now := 1000
  later := 1000
  positive := by decide
  monotone := by decide
  connect := if connects then .ok else .fail
  setConfig := fun _ => if configures then .ok else .fail
  portal := .ok
  savedSsid := .zero

/-- The same driver, four seconds later. -/
def answersLater : Answers :=
  { answers true true with now := 5000, later := 5000, positive := by decide, monotone := by decide }

theorem station_attended_disconnected :
    ∃ s, Lib.Runs (SafeStep ⟨180, 600⟩ true) (networkServiceInit true .zero 0)
        [.command .staStart (answers true true), .command (.gotIp .zero) (answers true true),
          .command (.disconnected 200) (answers true true), .tick (answers true true),
          .tick answersLater] s ∧
      s.provisioned = true ∧ s.connected = false ∧ s.reconnects = 1 ∧ s.Attended := by
  have connected : Lib.Runs (SafeStep ⟨180, 600⟩ true) (networkServiceInit true .zero 0)
      [.command .staStart (answers true true), .command (.gotIp .zero) (answers true true)] _ :=
    .step (.step .start ⟨.command (answers true true) trivial, fun _ _ _ _ => rfl⟩)
      ⟨.command (answers true true) trivial, trivial⟩
  have lost : Lib.Runs (SafeStep ⟨180, 600⟩ true) (networkServiceInit true .zero 0)
      [.command .staStart (answers true true), .command (.gotIp .zero) (answers true true),
        .command (.disconnected 200) (answers true true)] _ :=
    .step connected ⟨.command (answers true true) trivial, trivial⟩
  -- The reconnect is due at 2000: not in the first tick, but in the second one.
  have runs : Lib.Runs (SafeStep ⟨180, 600⟩ true) (networkServiceInit true .zero 0)
      [.command .staStart (answers true true), .command (.gotIp .zero) (answers true true),
        .command (.disconnected 200) (answers true true), .tick (answers true true),
        .tick answersLater] _ :=
    .step (.step lost ⟨.tick (answers true true) rfl, fun _ _ _ _ _ => rfl⟩)
      ⟨.tick answersLater rfl, fun _ _ _ _ _ => rfl⟩
  exact ⟨_, runs, rfl, rfl, rfl, (station_attended runs (.head _)).1⟩

instance (s : State) : Decidable s.Attended :=
  inferInstanceAs (Decidable (_ = true → _ = false → _ ∨ _ ≠ (0 : Int) ∨ _ ∨ _ ∧ _ ≠ (0 : Int)))

/-- The station is left alone when its first connect request fails, and when new
credentials are refused while an attempt is outstanding. -/
theorem station_abandoned :
    (∃ s, Lib.Runs (Step ⟨180, 600⟩ true) (networkServiceInit true .zero 0)
        [.command .staStart (answers false true), .tick (answers true true)] s ∧ ¬ s.Attended) ∧
    (∃ s, Lib.Runs (Step ⟨180, 600⟩ true) (networkServiceInit true .zero 0)
        [.command .staStart (answers true true), .tick (answers true true),
          .command (.setupSubmitted .zero) (answers true false), .tick (answers true true)] s ∧
      ¬ s.Attended) := by
  constructor
  · refine ⟨_, .step (.step .start (.command (answers false true) trivial))
      (.tick (answers true true) rfl), ?_⟩
    decide +kernel
  · refine ⟨_, .step (.step (.step (.step .start (.command (answers true true) trivial))
      (.tick (answers true true) rfl)) (.command (answers true false) trivial))
      (.tick (answers true true) rfl), ?_⟩
    decide +kernel

end SmsGateway.Network
