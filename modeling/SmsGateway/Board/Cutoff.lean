import SmsGateway.Board.Power

/-! The socket has power when it was asked for and no over-current stands against it. -/

namespace SmsGateway.Board

open Lib Prog

variable {source : Source} {rate : Nat} {s t : State} {task : Task}

/-- The board feeds the socket. -/
def State.on (s : State) : Bool := s.level .devVbusEn || s.level .boostEn

/-- Whether it should. -/
def Power.wanted (source : Source) (p : Power) : Bool :=
  gatewayBoardUsbHostPowerControlAvailable source && p.requested && !p.latched

/-- What holds between any two calls. While the monitor has the mutex it may have found an
over-current that it has yet to act on. -/
structure State.Sound (source : Source) (rate : Nat) (s : State) : Prop where
  created : s.created = true
  limiter : s.level .usbLimitEn = true
  routed : s.level .usbSel = true
  dev : s.level .devVbusEn = true → source.pin = some .devVbusEn
  boost : s.level .boostEn = true → source.pin = some .boostEn
  past : ∀ found ∈ s.overcurrentAt, found ≤ s.now
  rest : s.holder = none → s.on = s.power.wanted source
  cut : s.holder ≠ some .monitor → s.power.latched = true → s.on = false
  cooled : s.holder ≠ some .monitor → s.power.latched = false →
    ∀ found ∈ s.overcurrentAt, found + (cooldown rate).toNat ≤ s.now

/-- What a call asks of the task that makes it. -/
def Respects (task : Task) (s : State) : BoardCall → Prop
  | .take asserted => asserted = true → task = .monitor
  | .give | .store _ => s.holder = some task
  | .setLevel pin _ => pin = .ledGreen ∨ s.holder = some task
  | .createMutex => False
  | .tick => task = .clock
  | _ => True

structure Allowed (source : Source) (rate : Nat) (task : Task) (s : State) (request : BoardCall) :
    Prop where
  respects : Respects task s request
  sound : ∀ reply t, request.Answers task s reply t → t.Sound source rate

/-- What a call of another task leaves to this one. -/
structure Beside (source : Source) (rate : Nat) (task : Task) (s t : State) : Prop where
  sound : t.Sound source rate
  holder : t.holder = some task ↔ s.holder = some task
  power : s.holder = some task → t.power = s.power
  dev : s.holder = some task → t.level .devVbusEn = s.level .devVbusEn
  boost : s.holder = some task → t.level .boostEn = s.level .boostEn
  found : s.holder = some task ∨ task = .monitor → t.overcurrentAt = s.overcurrentAt
  now : s.now ≤ t.now

theorem beside_of_allowed {other : Task} {request : BoardCall} {reply : request.Reply}
    (different : other ≠ task) (allowed : Allowed source rate task s request)
    (answers : request.Answers task s reply t) : Beside source rate other s t := by
  have sound := allowed.sound reply t answers
  have mine := allowed.respects
  have free : s.holder = some task → s.holder ≠ some other := by
    intro holding held
    rw [holding] at held
    exact different (Option.some.inj held).symm
  cases request with
  | createMutex => exact mine.elim
  | take asserted =>
      cases reply with
      | missing | timeout =>
          obtain ⟨-, rfl⟩ := answers
          exact ⟨sound, .rfl, fun _ => rfl, fun _ => rfl, fun _ => rfl, fun _ => rfl, le_rfl⟩
      | taken =>
          obtain ⟨-, none, rfl⟩ := answers
          have others : some task ≠ some other := fun same => different (Option.some.inj same).symm
          refine ⟨sound, ?_, ?_, ?_, ?_, ?_, le_rfl⟩
          · simp [none, others]
          · simp
          · simp
          · simp
          · rintro (held | rfl)
            · rw [none] at held
              cases held
            · cases asserted with
              | false => rfl
              | true => exact absurd (mine rfl).symm different
  | give =>
      obtain rfl : t = { s with holder := none } := answers
      refine ⟨sound, ?_, fun _ => rfl, fun _ => rfl, fun _ => rfl, fun _ => rfl, le_rfl⟩
      exact ⟨nofun, fun held => absurd held (free mine)⟩
  | store update =>
      obtain rfl : t = { s with power := update s.power } := answers
      exact ⟨sound, .rfl, fun held => absurd held (free mine), fun _ => rfl, fun _ => rfl,
        fun _ => rfl, le_rfl⟩
  | setLevel pin level =>
      obtain ⟨-, rfl⟩ := answers
      rcases mine with rfl | holding
      · exact ⟨sound, .rfl, fun _ => rfl, fun _ => rfl, fun _ => rfl, fun _ => rfl, le_rfl⟩
      · exact ⟨sound, .rfl, fun _ => rfl, fun held => absurd held (free holding),
          fun held => absurd held (free holding), fun _ => rfl, le_rfl⟩
  | load | tickCount =>
      obtain ⟨-, rfl⟩ := answers
      exact ⟨sound, .rfl, fun _ => rfl, fun _ => rfl, fun _ => rfl, fun _ => rfl, le_rfl⟩
  | tick =>
      obtain rfl : t = { s with now := s.now + 1 } := answers
      exact ⟨sound, .rfl, fun _ => rfl, fun _ => rfl, fun _ => rfl, fun _ => rfl, Nat.le_succ _⟩
  | setDirection _ | gpioConfig | createTask | overcurrent | delay | transportLost =>
      obtain rfl : t = s := answers
      exact ⟨sound, .rfl, fun _ => rfl, fun _ => rfl, fun _ => rfl, fun _ => rfl, le_rfl⟩

/-- The task makes allowed calls, and afterwards this holds. -/
abbrev Keeps {α : Type} (source : Source) (rate : Nat) (task : Task) (post : α → State → Prop)
    (program : BoardM α) (s : State) : Prop :=
  Guards (Beside source rate task) (fun s request reply t => request.Answers task s reply t)
    (Allowed source rate task) post program s

/-! ## Without the mutex -/

/-- The task does not have the mutex; the monitor knows what it has found, and the time. -/
structure Away (source : Source) (rate : Nat) (task : Task) (found : List Nat) (since : Nat)
    (s : State) : Prop where
  sound : s.Sound source rate
  free : s.holder ≠ some task
  found : task = .monitor → s.overcurrentAt = found
  since : since ≤ s.now

variable {found : List Nat} {since : Nat}

theorem stable_away : Stable (Beside source rate task) (Away source rate task found since) := by
  intro s t away beside
  refine ⟨beside.sound, fun held => away.free (beside.holder.mp held), ?_, ?_⟩
  · intro monitor
    rw [beside.found (.inr monitor), away.found monitor]
  · exact away.since.trans beside.now

/-- A call that leaves the state is allowed without the mutex. -/
theorem keeps_still {α : Type} {request : BoardCall} {next : request.Reply → BoardM α}
    {post : α → State → Prop} (respects : ∀ s, Respects task s request)
    (still : ∀ s reply t, request.Answers task s reply t → t = s)
    (away : Away source rate task found since s)
    (later : ∀ reply t, Away source rate task found since t →
      Keeps source rate task post (next reply) t) :
    Keeps source rate task post (ask request >>= next) s := by
  refine Guards.send _ stable_away away ?_ ?_
  · intro t away
    refine ⟨respects t, fun reply u answers => ?_⟩
    rw [still t reply u answers]
    exact away.sound
  · intro t reply u away answers
    rw [still t reply u answers]
    exact later reply t away

/-! ## With the mutex -/

/-- The task has the mutex, and these are the variables and the two paths. -/
structure Holding (source : Source) (rate : Nat) (task : Task) (p : Power) (dev boost : Bool)
    (found : List Nat) (since : Nat) (s : State) : Prop where
  sound : s.Sound source rate
  holder : s.holder = some task
  power : s.power = p
  dev : s.level .devVbusEn = dev
  boost : s.level .boostEn = boost
  found : s.overcurrentAt = found
  since : since ≤ s.now

variable {p : Power} {dev boost : Bool}

theorem stable_holding :
    Stable (Beside source rate task) (Holding source rate task p dev boost found since) := by
  intro s t held beside
  refine ⟨beside.sound, beside.holder.mpr held.holder, ?_, ?_, ?_, ?_, ?_⟩
  · rw [beside.power held.holder, held.power]
  · rw [beside.dev held.holder, held.dev]
  · rw [beside.boost held.holder, held.boost]
  · rw [beside.found (.inl held.holder), held.found]
  · exact held.since.trans beside.now

/-- Nothing that the monitor finds stands against these variables and paths. -/
structure Fit (source : Source) (rate : Nat) (p : Power) (dev boost : Bool) (found : List Nat)
    (since : Nat) : Prop where
  rest : (dev || boost) = p.wanted source
  cooled : p.latched = false → ∀ time ∈ found, time + (cooldown rate).toNat ≤ since

theorem Fit.off (fit : Fit source rate p dev boost found since) (latched : p.latched = true) :
    (dev || boost) = false := by
  rw [fit.rest, Power.wanted, latched]
  simp

/-- Taking the mutex: what is found there fits, if the monitor has found nothing new. -/
theorem keeps_take {α : Type} {asserted : Bool} {next : Lock → BoardM α} {post : α → State → Prop}
    (mine : asserted = true → task = .monitor) (away : Away source rate task found since s)
    (timeout : ∀ t, Away source rate task found since t →
      Keeps source rate task post (next .timeout) t)
    (taken : ∀ t p dev boost before, Fit source rate p dev boost before t.now →
      (task = .monitor → before = found) → (∀ time ∈ before, time ≤ t.now) → since ≤ t.now →
      Holding source rate task p dev boost (if asserted then t.now :: before else before) t.now t →
      Keeps source rate task post (next .taken) t) :
    Keeps source rate task post (ask (.take asserted) >>= next) s := by
  have sound : ∀ t, Away source rate task found since t → ∀ reply u,
      BoardCall.Answers task t (.take asserted) reply u → u.Sound source rate := by
    intro t away reply u answers
    cases reply with
    | missing | timeout =>
        obtain ⟨-, rfl⟩ := answers
        exact away.sound
    | taken =>
        obtain ⟨-, none, rfl⟩ := answers
        have free : t.holder ≠ some .monitor := by
          rw [none]
          nofun
        have here := away.sound
        refine ⟨here.created, here.limiter, here.routed, here.dev, here.boost, ?_, nofun,
          fun _ => here.cut free, ?_⟩
        · dsimp only
          intro time member
          split at member
          · rcases List.mem_cons.mp member with rfl | member
            · exact le_rfl
            · exact here.past time member
          · exact here.past time member
        · intro others latched time member
          dsimp only at member
          split at member
          · rename_i found
            exact absurd (congrArg some (mine found)) others
          · exact here.cooled free latched time member
  refine Guards.send _ stable_away away ?_ ?_
  · exact fun t away => ⟨mine, sound t away⟩
  · intro t reply u away answers
    have after := sound t away reply u answers
    cases reply with
    | missing =>
        obtain ⟨missing, -⟩ := answers
        rw [away.sound.created] at missing
        cases missing
    | timeout =>
        obtain ⟨-, rfl⟩ := answers
        exact timeout u away
    | taken =>
        obtain ⟨-, none, rfl⟩ := answers
        have free : t.holder ≠ some .monitor := by
          rw [none]
          nofun
        refine taken _ t.power (t.level .devVbusEn) (t.level .boostEn) t.overcurrentAt ?_
          away.found away.sound.past away.since ⟨after, rfl, rfl, rfl, rfl, rfl, le_rfl⟩
        exact ⟨away.sound.rest none, away.sound.cooled free⟩

/-- Giving the mutex back, with everything in order. -/
theorem keeps_give {α : Type} {next : Unit → BoardM α} {post : α → State → Prop}
    (fit : Fit source rate p dev boost found since)
    (held : Holding source rate task p dev boost found since s)
    (later : ∀ t, Away source rate task found since t → Keeps source rate task post (next ()) t) :
    Keeps source rate task post (ask .give >>= next) s := by
  have sound : ∀ t, Holding source rate task p dev boost found since t →
      State.Sound source rate { t with holder := none } := by
    intro t held
    have here := held.sound
    have on : t.on = (dev || boost) := by rw [State.on, held.dev, held.boost]
    refine ⟨here.created, here.limiter, here.routed, here.dev, here.boost, here.past, ?_, ?_, ?_⟩
    · intro _
      rw [← held.power] at fit
      exact on.trans fit.rest
    · intro _ latched
      rw [← held.power] at fit
      exact on.trans (fit.off latched)
    · intro _ latched time member
      rw [← held.power, ← held.found] at fit
      exact (fit.cooled latched time member).trans held.since
  refine Guards.send _ stable_holding held ?_ ?_
  · intro t held
    refine ⟨held.holder, fun _ u answers => ?_⟩
    obtain rfl : u = { t with holder := none } := answers
    exact sound t held
  · intro t reply u held answers
    obtain rfl : u = { t with holder := none } := answers
    exact later _ ⟨sound t held, nofun, fun _ => held.found, held.since⟩

theorem keeps_load {α : Type} {next : Power → BoardM α} {post : α → State → Prop}
    (held : Holding source rate task p dev boost found since s)
    (later : ∀ t, Holding source rate task p dev boost found since t →
      Keeps source rate task post (next p) t) :
    Keeps source rate task post (ask .load >>= next) s := by
  refine Guards.send _ stable_holding held ?_ ?_
  · intro t held
    refine ⟨trivial, fun _ u answers => ?_⟩
    obtain ⟨-, rfl⟩ := answers
    exact held.sound
  · rintro t _ u held ⟨rfl, rfl⟩
    rw [held.power]
    exact later u held

/-- Changing the variables; the monitor may set the latch, and take it back. -/
theorem keeps_store {α : Type} {update : Power → Power} {next : Unit → BoardM α}
    {post : α → State → Prop} (latch : task ≠ .monitor → (update p).latched = p.latched)
    (held : Holding source rate task p dev boost found since s)
    (later : ∀ t, Holding source rate task (update p) dev boost found since t →
      Keeps source rate task post (next ()) t) :
    Keeps source rate task post (ask (.store update) >>= next) s := by
  have sound : ∀ t, Holding source rate task p dev boost found since t →
      State.Sound source rate { t with power := update t.power } := by
    intro t held
    have here := held.sound
    have mine : t.holder ≠ some .monitor → (update t.power).latched = t.power.latched := by
      intro others
      rw [held.power]
      exact latch fun same => others (by rw [held.holder, same])
    refine ⟨here.created, here.limiter, here.routed, here.dev, here.boost, here.past, ?_, ?_, ?_⟩
    · intro none
      rw [held.holder] at none
      cases none
    · intro others latched
      exact here.cut others ((mine others).symm.trans latched)
    · intro others latched
      exact here.cooled others ((mine others).symm.trans latched)
  refine Guards.send _ stable_holding held ?_ ?_
  · intro t held
    refine ⟨held.holder, fun _ u answers => ?_⟩
    obtain rfl : u = { t with power := update t.power } := answers
    exact sound t held
  · intro t reply u held answers
    obtain rfl : u = { t with power := update t.power } := answers
    refine later _ ⟨sound t held, held.holder, ?_, held.dev, held.boost, held.found, held.since⟩
    exact congrArg update held.power

theorem keeps_tickCount {α : Type} {next : UInt32 → BoardM α} {post : α → State → Prop}
    (held : Holding source rate task p dev boost found since s)
    (later : ∀ t, since ≤ t.now → Holding source rate task p dev boost found t.now t →
      Keeps source rate task post (next (UInt32.ofNat t.now)) t) :
    Keeps source rate task post (ask .tickCount >>= next) s := by
  refine Guards.send _ stable_holding held ?_ ?_
  · intro t held
    refine ⟨trivial, fun _ u answers => ?_⟩
    obtain ⟨-, rfl⟩ := answers
    exact held.sound
  · rintro t _ u held ⟨rfl, rfl⟩
    exact later u held.since ⟨held.sound, held.holder, held.power, held.dev, held.boost,
      held.found, le_rfl⟩

/-- Setting one of the two paths. -/
theorem keeps_setPath {α : Type} {pin : Pin} {level : Bool}
    {next : Except EspErr Unit → BoardM α} {post : α → State → Prop}
    (path : pin = .devVbusEn ∨ pin = .boostEn)
    (may : level = true → source.pin = some pin ∧ p.latched = false)
    (held : Holding source rate task p dev boost found since s)
    (later : ∀ t, Holding source rate task p (if pin = .devVbusEn then level else dev)
        (if pin = .boostEn then level else boost) found since t →
      Keeps source rate task post (next (.ok ())) t) :
    Keeps source rate task post (ask (.setLevel pin level) >>= next) s := by
  have other : ∀ (t : State) (output : Pin), output ≠ pin →
      Function.update t.level pin level output = t.level output :=
    fun t output different => Function.update_of_ne different _ _
  have devLevel : ∀ t : State, Function.update t.level pin level .devVbusEn =
      if pin = .devVbusEn then level else t.level .devVbusEn := by
    intro t
    rcases path with rfl | rfl <;> rfl
  have boostLevel : ∀ t : State, Function.update t.level pin level .boostEn =
      if pin = .boostEn then level else t.level .boostEn := by
    intro t
    rcases path with rfl | rfl <;> rfl
  have sound : ∀ t, Holding source rate task p dev boost found since t →
      State.Sound source rate { t with level := Function.update t.level pin level } := by
    intro t held
    have here := held.sound
    refine ⟨here.created, ?_, ?_, ?_, ?_, here.past, ?_, ?_, here.cooled⟩
    · refine (other t _ ?_).trans here.limiter
      rcases path with rfl | rfl <;> decide
    · refine (other t _ ?_).trans here.routed
      rcases path with rfl | rfl <;> decide
    · intro on
      dsimp only at on
      rw [devLevel t] at on
      split at on
      · rename_i this
        rw [← this]
        exact (may on).1
      · exact here.dev on
    · intro on
      dsimp only at on
      rw [boostLevel t] at on
      split at on
      · rename_i this
        rw [← this]
        exact (may on).1
      · exact here.boost on
    · intro none
      rw [held.holder] at none
      cases none
    · intro others latched
      have before := here.cut others latched
      rw [State.on, Bool.or_eq_false_iff] at before
      have low : level = false := by
        cases high : level with
        | false => rfl
        | true =>
            have clear := (may high).2
            rw [← held.power, latched] at clear
            cases clear
      dsimp only [State.on]
      rw [devLevel t, boostLevel t, before.1, before.2, low, ite_self, ite_self]
      rfl
  refine Guards.send _ stable_holding held ?_ ?_
  · intro t held
    refine ⟨.inr held.holder, fun _ u answers => ?_⟩
    obtain ⟨-, rfl⟩ := answers
    exact sound t held
  · rintro t _ u held ⟨rfl, rfl⟩
    refine later _ ⟨sound t held, held.holder, held.power, ?_, ?_, held.found, held.since⟩
    · exact (devLevel t).trans (by rw [held.dev])
    · exact (boostLevel t).trans (by rw [held.boost])

theorem keeps_powerApply {α : Type} {enabled : Bool} {next : Except EspErr Unit → BoardM α}
    {post : α → State → Prop} (clear : enabled = true → p.latched = false)
    (held : Holding source rate task p dev boost found since s)
    (later : ∀ t dev boost,
      (dev || boost) = (enabled && gatewayBoardUsbHostPowerControlAvailable source) →
      Holding source rate task p dev boost found since t →
      Keeps source rate task post (next (.ok ())) t) :
    Keeps source rate task post (powerApply source enabled >>= next) s := by
  simp only [powerApply, orReturn, bind_assoc]
  refine keeps_setPath (.inl rfl) nofun held fun t held => ?_
  simp only [if_true, reduceCtorEq, if_false] at held
  refine keeps_setPath (.inr rfl) nofun held fun t held => ?_
  simp only [if_true, reduceCtorEq, if_false] at held
  cases enabled with
  | false => exact later t false false rfl held
  | true =>
      cases source with
      | usbDev =>
          exact keeps_setPath (.inl rfl) (fun _ => ⟨rfl, clear rfl⟩) held
            fun t held => later t true false rfl held
      | battery =>
          exact keeps_setPath (.inr rfl) (fun _ => ⟨rfl, clear rfl⟩) held
            fun t held => later t false true rfl held
      | external => exact later t false false rfl held

/-! ## The callers -/

theorem keeps_powerSet {α : Type} {enabled : Bool} {next : Except EspErr Unit → BoardM α}
    {post : α → State → Prop} (caller : task ≠ .monitor)
    (away : Away source rate task found since s)
    (later : ∀ result t, Away source rate task found since t →
      Keeps source rate task post (next result) t) :
    Keeps source rate task post (gatewayBoardUsbHostPowerSet source enabled >>= next) s := by
  simp only [gatewayBoardUsbHostPowerSet, bind_assoc]
  refine keeps_take nofun away (fun t away => later _ t away) ?_
  intro t p dev boost before fit _ _ earlier held
  simp only [Bool.false_eq_true, if_false] at held
  simp only [reduceCtorEq, if_false, bind_assoc]
  refine keeps_store (fun _ => rfl) held fun t held => ?_
  refine keeps_load held fun t held => ?_
  have back : ∀ {dev boost : Bool} {now : Nat} {result : Except EspErr Unit} {t : State},
      Fit source rate { p with requested := enabled } dev boost before now → since ≤ now →
      Holding source rate task { p with requested := enabled } dev boost before now t →
      Keeps source rate task post (ask .give >>= fun _ => pure result >>= next) t := by
    intro dev boost now result t fit earlier held
    refine keeps_give fit held fun t away => ?_
    exact later _ t ⟨away.sound, away.free, fun monitor => absurd monitor caller,
      earlier.trans away.since⟩
  cases refused : enabled && p.latched with
  | true =>
      obtain ⟨rfl, latched⟩ := Bool.and_eq_true_iff.mp refused
      refine back ⟨?_, fun clear => absurd (latched.symm.trans clear) (by decide)⟩ earlier held
      rw [fit.off latched, Power.wanted, latched]
      simp
  | false =>
      have clear : enabled = true → p.latched = false := by
        rintro rfl
        simpa using refused
      simp only [Bool.false_eq_true, if_false, bind_assoc]
      refine keeps_powerApply (p := { p with requested := enabled }) clear held
        fun t dev boost applied held => ?_
      refine back ⟨?_, fit.cooled⟩ earlier held
      rw [applied, Power.wanted]
      cases enabled with
      | false => simp
      | true =>
          rw [clear rfl]
          simp

theorem keeps_diagnostics {α : Type} {next : Except EspErr PowerDiagnostics → BoardM α}
    {post : α → State → Prop} (caller : task ≠ .monitor)
    (away : Away source rate task found since s)
    (later : ∀ result t, Away source rate task found since t →
      Keeps source rate task post (next result) t) :
    Keeps source rate task post (gatewayBoardPowerDiagnostics >>= next) s := by
  simp only [gatewayBoardPowerDiagnostics, bind_assoc]
  refine keeps_take nofun away (fun t away => later _ t away) ?_
  intro t p dev boost before fit _ _ earlier held
  simp only [Bool.false_eq_true, if_false] at held
  simp only [reduceCtorEq, if_false, bind_assoc]
  refine Guards.send _ stable_holding held ?_ ?_
  · intro t held
    refine ⟨trivial, fun _ u answers => ?_⟩
    obtain rfl : u = t := answers
    exact held.sound
  · intro t low u held answers
    obtain rfl : u = t := answers
    refine keeps_load held fun t held => ?_
    refine keeps_give fit held fun t away => ?_
    exact later _ t ⟨away.sound, away.free, fun monitor => absurd monitor caller,
      earlier.trans away.since⟩

theorem keeps_hardReset {α : Type} {next : Except EspErr Unit → BoardM α}
    {post : α → State → Prop} (caller : task ≠ .monitor)
    (away : Away source rate task found since s)
    (later : ∀ result t, Away source rate task found since t →
      Keeps source rate task post (next result) t) :
    Keeps source rate task post (managerHardReset source >>= next) s := by
  rw [managerHardReset]
  split
  · exact later _ s away
  · simp only [orReturn, bind_assoc]
    refine keeps_still (fun _ => trivial) (fun _ _ _ answers => answers) away fun _ t away => ?_
    refine keeps_powerSet caller away fun result t away => ?_
    cases result with
    | error err => exact later _ t away
    | ok _ =>
        simp only [bind_assoc]
        refine keeps_still (fun _ => trivial) (fun _ _ _ answers => answers) away fun _ t away => ?_
        exact keeps_powerSet caller away later

/-! ## The monitor -/

/-- The time in `clear_since` is one at which nothing was found any more. -/
def Known (m : Monitor) (found : List Nat) (since : Nat) : Prop :=
  m.clearSince ≠ 0 → ∃ begin, begin ≤ since ∧ m.clearSince = UInt32.ofNat begin ∧
    ∀ time ∈ found, time ≤ begin

theorem Known.later {m : Monitor} {later : Nat} (known : Known m found since) (after : since ≤ later) :
    Known m found later := by
  intro some
  obtain ⟨begin, before, clear, past⟩ := known some
  exact ⟨begin, before.trans after, clear, past⟩

/-- A difference of tick counts is never more than the time that has passed. -/
theorem elapsed_of_ticks {begin now : Nat} {ticks : UInt32} (order : begin ≤ now)
    (elapsed : ticks ≤ UInt32.ofNat now - UInt32.ofNat begin) : begin + ticks.toNat ≤ now := by
  obtain ⟨passed, rfl⟩ := Nat.exists_eq_add_of_le order
  have difference : UInt32.ofNat (begin + passed) - UInt32.ofNat begin = UInt32.ofNat passed := by
    rw [UInt32.ofNat_add, add_sub_cancel_left]
  rw [difference, UInt32.le_iff_toNat_le] at elapsed
  have wrapped : (UInt32.ofNat passed).toNat ≤ passed := by
    rw [UInt32.toNat_ofNat']
    exact Nat.mod_le _ _
  omega

/-- What a pass of the monitor leaves. -/
abbrev Passed {α : Type} (source : Source) (rate : Nat) (post : α → State → Prop)
    (next : Monitor → BoardM α) : Prop :=
  ∀ m found since t, Known m found since → Away source rate .monitor found since t →
    Keeps source rate .monitor post (next m) t

section

variable {α : Type} {next : Monitor → BoardM α} {post : α → State → Prop} {m : Monitor}

theorem keeps_cutOff (passed : Passed source rate post next) {before : List Nat} {now : Nat}
    (fit : Fit source rate p dev boost before now)
    (held : Holding source rate .monitor p dev boost found since s) :
    Keeps source rate .monitor post (cutOff source m >>= next) s := by
  simp only [cutOff, bind_assoc]
  refine keeps_load held fun t held => ?_
  have back : ∀ {q : Power} {dev boost : Bool} {t : State}, q.latched = true →
      (dev || boost) = false → Holding source rate .monitor q dev boost found since t →
      Keeps source rate .monitor post
        (ask .give >>= fun _ => pure { m with clearSince := 0 } >>= next) t := by
    intro q dev boost t latched off held
    refine keeps_give ⟨?_, fun clear => absurd (latched.symm.trans clear) (by decide)⟩ held
      fun t away => ?_
    · rw [off, Power.wanted, latched]
      simp
    · exact passed _ _ _ t (fun some => absurd rfl some) away
  cases latched : p.latched with
  | true => exact back latched (fit.off latched) held
  | false =>
      simp only [Bool.not_false, if_true, bind_assoc]
      refine keeps_store (fun others => absurd rfl others) held fun t held => ?_
      cases available : gatewayBoardUsbHostPowerControlAvailable source with
      | false =>
          refine back rfl ?_ held
          rw [fit.rest, Power.wanted, available]
          rfl
      | true =>
          simp only [if_true, bind_assoc]
          refine keeps_powerApply nofun held fun t dev boost off held => ?_
          exact keeps_store (fun others => absurd rfl others) held fun t held => back rfl off held

theorem keeps_restore (passed : Passed source rate post next)
    (off : (dev || boost) = false)
    (cooled : ∀ time ∈ found, time + (cooldown rate).toNat ≤ since)
    (held : Holding source rate .monitor p dev boost found since s) :
    Keeps source rate .monitor post (restore source m >>= next) s := by
  simp only [restore, bind_assoc]
  refine keeps_store (fun others => absurd rfl others) held fun t held => ?_
  refine keeps_load held fun t held => ?_
  have back : ∀ {dev boost : Bool} {t : State},
      (dev || boost) = (gatewayBoardUsbHostPowerControlAvailable source && p.requested) →
      Holding source rate .monitor { p with latched := false } dev boost found since t →
      Keeps source rate .monitor post
        (ask .give >>= fun _ => pure { m with clearSince := 0 } >>= next) t := by
    intro dev boost t on held
    refine keeps_give ⟨?_, fun _ => cooled⟩ held fun t away => ?_
    · rw [on, Power.wanted]
      simp
    · exact passed _ _ _ t (fun some => absurd rfl some) away
  cases wanted : p.requested && gatewayBoardUsbHostPowerControlAvailable source with
  | false =>
      refine back ?_ held
      rw [off, Bool.and_comm, wanted]
  | true =>
      simp only [if_true, bind_assoc]
      refine keeps_powerApply (p := { p with latched := false }) (fun _ => rfl) held
        fun t dev boost on held => back ?_ held
      rw [on, Bool.and_comm _ p.requested, wanted, (Bool.and_eq_true_iff.mp wanted).2]
      rfl

theorem keeps_watchClear (passed : Passed source rate post next)
    (fit : Fit source rate p dev boost found since) (known : Known m found since)
    (past : ∀ time ∈ found, time ≤ since)
    (held : Holding source rate .monitor p dev boost found since s) :
    Keeps source rate .monitor post (watchClear source rate m >>= next) s := by
  simp only [watchClear, bind_assoc]
  refine keeps_load held fun t held => ?_
  cases latched : p.latched with
  | false =>
      exact keeps_give fit held fun t away => passed _ _ _ t known away
  | true =>
      simp only [if_true]
      have fits : ∀ {now : Nat}, Fit source rate p dev boost found now :=
        ⟨fit.rest, fun clear => absurd (latched.symm.trans clear) (by decide)⟩
      have compare : ∀ {begin since : Nat} {t : State}, begin ≤ since →
          (∀ time ∈ found, time ≤ begin) →
          Holding source rate .monitor p dev boost found since t →
          Keeps source rate .monitor post (ask .tickCount >>= fun now =>
            (if cooldown rate ≤ now - UInt32.ofNat begin then restore source m
              else do
                ask .give
                pure { m with clearSince := UInt32.ofNat begin }) >>= next) t := by
        intro begin since t order past held
        refine keeps_tickCount held fun t after held => ?_
        split
        · rename_i elapsed
          refine keeps_restore passed (fit.off latched) ?_ held
          intro time member
          have enough := elapsed_of_ticks (order.trans after) elapsed
          have before := past time member
          omega
        · simp only [bind_assoc]
          refine keeps_give fits held fun t away => passed _ _ _ t ?_ away
          exact fun _ => ⟨begin, order.trans after, rfl, past⟩
      by_cases fresh : m.clearSince = 0
      · simp only [if_pos fresh]
        refine keeps_tickCount held fun t after held => ?_
        exact compare le_rfl (fun time member => (past time member).trans after) held
      · simp only [if_neg fresh]
        obtain ⟨begin, before, clear, past⟩ := known fresh
        rw [clear]
        exact compare before past held

theorem keeps_pass (passed : Passed source rate post next) (known : Known m found since)
    (away : Away source rate .monitor found since s) :
    Keeps source rate .monitor post (powerMonitorPass source rate m >>= next) s := by
  simp only [powerMonitorPass, bind_assoc]
  refine keeps_still (fun _ => trivial) (fun _ _ _ answers => answers) away fun low t away => ?_
  generalize (if low = true then m.assertedPolls + 1 else 0) = polls
  have delayed : Passed source rate post fun m => ask .delay >>= fun _ => pure m >>= next := by
    intro m found since t known away
    refine keeps_still (fun _ => trivial) (fun _ _ _ answers => answers) away fun _ t away => ?_
    exact passed _ _ _ t known away
  refine keeps_take (fun _ => rfl) away ?_ ?_
  · intro t away
    exact delayed _ _ _ t known away
  · intro t p dev boost before fit same past earlier held
    obtain rfl := same rfl
    by_cases asserted : assertPolls ≤ polls
    · simp only [asserted, decide_true, if_true, bind_assoc] at held ⊢
      exact keeps_cutOff delayed fit held
    · simp only [asserted, decide_false, Bool.false_eq_true, if_false, if_true, bind_assoc] at held ⊢
      exact keeps_watchClear delayed fit (known.later earlier) past held

end

/-- Between two runs of the task. -/
def Resting (source : Source) (rate : Nat) (task : Task) (s : State) : Prop :=
  ∃ found since, Away source rate task found since s

theorem stable_resting : Stable (Beside source rate task) (Resting source rate task) := by
  rintro s t ⟨found, since, away⟩ beside
  exact ⟨found, since, stable_away s t away beside⟩

theorem keeps_monitor (passes : Nat) {m : Monitor} (known : Known m found since)
    (away : Away source rate .monitor found since s) :
    Keeps source rate .monitor (fun _ => Resting source rate .monitor)
      (powerMonitorTask source rate passes m) s := by
  induction passes generalizing m found since s with
  | zero => exact .done stable_resting ⟨found, since, away⟩
  | succ passes ih => exact keeps_pass (fun m found since t known away => ih known away) known away

/-! ## The start -/

/-- If the program succeeds, the board is set up. -/
abbrev SetsUp (source : Source) (rate : Nat) (program : BoardM (Except EspErr Unit)) (s : State) :
    Prop :=
  Obeys (fun s request reply t => request.Answers (.caller 0) s reply t) (fun _ _ => True)
    (fun result t => result = .ok () → t.Sound source rate ∧ t.holder = none) program s

theorem obeys_orReturn {first rest : BoardM (Except EspErr Unit)} {P : State → Prop}
    (obeys : Obeys (fun s request reply t => request.Answers (.caller 0) s reply t)
      (fun _ _ => True) (fun result t => result = .ok () → P t) first s)
    (later : ∀ t, P t → SetsUp source rate rest t) : SetsUp source rate (orReturn first rest) s := by
  refine Obeys.bind (obeys.mono ?_)
  intro result t ran
  cases result with
  | error err => exact nofun
  | ok _ => exact later t (ran rfl)

theorem obeys_setLevel {pin : Pin} {level : Bool} {P : State → Prop}
    (set : P { s with level := Function.update s.level pin level }) :
    Obeys (fun s request reply t => request.Answers (.caller 0) s reply t) (fun _ _ => True)
      (fun result t => result = .ok () → P t) (ask (.setLevel pin level)) s := by
  refine ⟨trivial, ?_⟩
  rintro reply t ⟨rfl, rfl⟩ -
  exact set

theorem obeys_setOutput {pin : Pin} {level : Bool} {P : State → Prop}
    (set : P { s with level := Function.update s.level pin level }) :
    Obeys (fun s request reply t => request.Answers (.caller 0) s reply t) (fun _ _ => True)
      (fun result t => result = .ok () → P t) (setOutput pin level) s := by
  refine ⟨trivial, ?_⟩
  intro reply t answers
  obtain rfl : t = s := answers
  cases reply with
  | error err => exact nofun
  | ok _ => exact obeys_setLevel set

theorem obeys_gpioConfig {P : State → Prop} (kept : P s) :
    Obeys (fun s request reply t => request.Answers (.caller 0) s reply t) (fun _ _ => True)
      (fun result t => result = .ok () → P t) (ask .gpioConfig) s := by
  refine ⟨trivial, ?_⟩
  intro reply t answers _
  obtain rfl : t = s := answers
  exact kept

/-- Taking, asking and giving back, with nobody else there. -/
theorem obeys_powerSet {P : State → Prop} (free : s.holder = none) (initial : s.power = .initial)
    (created : s.created = true)
    (set : ∀ level : Pin → Bool, (∀ pin, pin ≠ .devVbusEn → pin ≠ .boostEn → level pin = s.level pin) →
      level .devVbusEn = decide (source.pin = some .devVbusEn) →
      level .boostEn = decide (source.pin = some .boostEn) → P { s with level := level }) :
    Obeys (fun s request reply t => request.Answers (.caller 0) s reply t) (fun _ _ => True)
      (fun result t => result = .ok () → P t) (gatewayBoardUsbHostPowerSet source true) s := by
  obtain ⟨made, holder, power, level, now, found⟩ := s
  obtain rfl : holder = none := free
  obtain rfl : power = .initial := initial
  refine ⟨trivial, ?_⟩
  intro lock t answers
  cases lock with
  | missing =>
      obtain ⟨missing, -⟩ := answers
      rw [created] at missing
      cases missing
  | timeout => exact nofun
  | taken =>
      obtain ⟨-, -, rfl⟩ := answers
      refine ⟨trivial, ?_⟩
      rintro _ t ⟨⟩
      refine ⟨trivial, ?_⟩
      rintro power t ⟨rfl, rfl⟩
      refine ⟨trivial, ?_⟩
      rintro _ t ⟨rfl, rfl⟩
      refine ⟨trivial, ?_⟩
      rintro _ t ⟨rfl, rfl⟩
      have others : ∀ pin : Pin, pin ≠ .devVbusEn → pin ≠ .boostEn →
          Function.update (Function.update level .devVbusEn false) .boostEn false pin = level pin := by
        intro pin dev boost
        rw [Function.update_of_ne boost, Function.update_of_ne dev]
      cases source with
      | external =>
          refine ⟨trivial, ?_⟩
          rintro _ t ⟨⟩ -
          exact set _ others rfl rfl
      | usbDev =>
          refine ⟨trivial, ?_⟩
          rintro _ t ⟨rfl, rfl⟩
          refine ⟨trivial, ?_⟩
          rintro _ t ⟨⟩ -
          refine set _ (fun pin dev boost => ?_) rfl rfl
          exact (Function.update_of_ne dev _ _).trans (others pin dev boost)
      | battery =>
          refine ⟨trivial, ?_⟩
          rintro _ t ⟨rfl, rfl⟩
          refine ⟨trivial, ?_⟩
          rintro _ t ⟨⟩ -
          refine set _ (fun pin dev boost => ?_) rfl rfl
          exact (Function.update_of_ne boost _ _).trans (others pin dev boost)

/-- The outputs are set up, and the socket is still off. -/
structure Prepared (s : State) : Prop where
  created : s.created = true
  free : s.holder = none
  power : s.power = .initial
  found : s.overcurrentAt = []
  limiter : s.level .usbLimitEn = true
  routed : s.level .usbSel = true

theorem Prepared.sound (prepared : Prepared s) {level : Pin → Bool}
    (others : ∀ pin, pin ≠ .devVbusEn → pin ≠ .boostEn → level pin = s.level pin)
    (dev : level .devVbusEn = decide (source.pin = some .devVbusEn))
    (boost : level .boostEn = decide (source.pin = some .boostEn)) :
    State.Sound source rate { s with level := level } ∧ s.holder = none := by
  refine ⟨⟨prepared.created, ?_, ?_, ?_, ?_, ?_, fun _ => ?_, ?_, ?_⟩, prepared.free⟩
  · exact (others _ (by decide) (by decide)).trans prepared.limiter
  · exact (others _ (by decide) (by decide)).trans prepared.routed
  · exact fun on => of_decide_eq_true (dev.symm.trans on)
  · exact fun on => of_decide_eq_true (boost.symm.trans on)
  · simp [prepared.found]
  · simp only [State.on, dev, boost, prepared.power]
    cases source <;> rfl
  · intro _ latched
    simp only [prepared.power] at latched
    cases latched
  · simp [prepared.found]

/-- The socket has power at the start, through the limiter and to the host side. -/
theorem setsUp_gatewayBoardInit : SetsUp source rate (gatewayBoardInit source) .reset := by
  refine ⟨trivial, ?_⟩
  rintro created t ⟨⟩
  cases created with
  | false => exact nofun
  | true =>
      refine obeys_orReturn (obeys_setOutput rfl) ?_
      rintro t rfl
      refine obeys_orReturn (obeys_setOutput rfl) ?_
      rintro t rfl
      refine obeys_orReturn (obeys_setOutput rfl) ?_
      rintro t rfl
      refine obeys_orReturn (obeys_setOutput rfl) ?_
      rintro t rfl
      refine obeys_orReturn (obeys_setOutput rfl) ?_
      rintro t rfl
      refine obeys_orReturn (obeys_setOutput rfl) ?_
      rintro t rfl
      refine obeys_orReturn (obeys_gpioConfig rfl) ?_
      rintro t rfl
      refine obeys_orReturn (obeys_gpioConfig rfl) ?_
      rintro t rfl
      refine obeys_orReturn (P := Prepared) (obeys_setLevel ⟨rfl, rfl, rfl, rfl, rfl, rfl⟩) ?_
      intro t prepared
      refine obeys_orReturn (P := fun t => t.Sound source rate ∧ t.holder = none)
        (obeys_powerSet prepared.free prepared.power prepared.created ?_) ?_
      · exact fun level => prepared.sound
      · rintro t ⟨sound, free⟩
        refine obeys_orReturn (P := fun t => t.Sound source rate ∧ t.holder = none)
          (obeys_setLevel ⟨⟨sound.created, sound.limiter, sound.routed, sound.dev, sound.boost,
            sound.past, sound.rest, sound.cut, sound.cooled⟩, free⟩) ?_
        rintro t ⟨sound, free⟩
        refine ⟨trivial, ?_⟩
        intro started u answers
        obtain rfl : u = t := answers
        cases started with
        | false => exact nofun
        | true => exact fun _ => ⟨sound, free⟩

/-! ## All tasks together -/

def contract (source : Source) (rate : Nat) : Contract Task State BoardCall where
  rely := Beside source rate
  allowed := Allowed source rate
  idle := Resting source rate

theorem keeps_starts {program : BoardM Unit} (starts : Starts source rate task program)
    (resting : Resting source rate task s) :
    Keeps source rate task (fun _ => Resting source rate task) program s := by
  obtain ⟨found, since, away⟩ := resting
  have done : ∀ {found : List Nat} {since : Nat} {t : State},
      Away source rate task found since t →
      Keeps source rate task (fun _ => Resting source rate task) (pure ()) t :=
    fun away => .done stable_resting ⟨_, _, away⟩
  cases starts with
  | monitor passes => exact keeps_monitor passes (fun some => absurd rfl some) away
  | clock =>
      refine Guards.send _ stable_away away ?_ ?_
      · intro t away
        refine ⟨rfl, fun _ u answers => ?_⟩
        obtain rfl : u = { t with now := t.now + 1 } := answers
        have here := away.sound
        exact ⟨here.created, here.limiter, here.routed, here.dev, here.boost,
          fun time member => Nat.le_succ_of_le (here.past time member), here.rest, here.cut,
          fun others latched time member => Nat.le_succ_of_le (here.cooled others latched time member)⟩
      · intro t _ u away answers
        obtain rfl : u = { t with now := t.now + 1 } := answers
        have here := away.sound
        exact .done stable_resting ⟨found, since, ⟨⟨here.created, here.limiter, here.routed, here.dev,
          here.boost, fun time member => Nat.le_succ_of_le (here.past time member), here.rest, here.cut,
          fun others latched time member => Nat.le_succ_of_le (here.cooled others latched time member)⟩,
          away.free, away.found, Nat.le_succ_of_le away.since⟩⟩
  | powerSet number enabled => exact keeps_powerSet nofun away fun _ t away => done away
  | hardReset number => exact keeps_hardReset nofun away fun _ t away => done away
  | diagnostics number => exact keeps_diagnostics nofun away fun _ t away => done away
  | statusLed number on =>
      have lit : ∀ t : State, t.Sound source rate → State.Sound source rate
          { t with level := Function.update t.level .ledGreen on } := fun t here =>
        ⟨here.created, here.limiter, here.routed, here.dev, here.boost, here.past, here.rest,
          here.cut, here.cooled⟩
      refine Guards.send _ stable_away away ?_ ?_
      · intro t away
        refine ⟨.inl rfl, fun _ u answers => ?_⟩
        obtain ⟨-, rfl⟩ := answers
        exact lit t away.sound
      · rintro t _ u away ⟨-, rfl⟩
        exact done ⟨lit t away.sound, away.free, away.found, away.since⟩

theorem contract_kept : (contract source rate).Kept (rules source rate) where
  others different allowed answers := beside_of_allowed different allowed answers
  programs starts resting := keeps_starts starts resting

theorem reached_sound {g : Crew Task State BoardCall BoardCall.Reply}
    (reached : Reached source rate g) : g.state.Sound source rate := by
  obtain ⟨trace, s, runs, reached⟩ := reached
  obtain ⟨sound, free⟩ := (setsUp_gatewayBoardInit.runs runs).1 rfl
  have resting : ∀ task, Resting source rate task s := by
    intro task
    refine ⟨s.overcurrentAt, s.now, sound, ?_, fun _ => rfl, le_rfl⟩
    rw [free]
    nofun
  have every : ∀ {g : Crew Task State BoardCall BoardCall.Reply}, g.Reached (rules source rate) s →
      (contract source rate).Holds (rules source rate) g :=
    fun reached => contract_kept.reached resting (fun _ => stable_resting) reached
  induction reached with
  | refl => exact sound
  | @tail between last earlier step ih =>
      cases step with
      | start idle starts => exact ih
      | call pending answered => exact ((every earlier).allowed pending).sound _ _ answered

/-- In every order of the tasks: at most the path that the board is built for is on, and only
through the current limiter to the host side. While an over-current is latched the socket is off,
unless the monitor is about to switch it; and whenever nobody has the mutex, it is on just when it
was last asked for and no over-current is latched. -/
theorem vbus_follows_request {g : Crew Task State BoardCall BoardCall.Reply}
    (reached : Reached source rate g) :
    (g.state.level .devVbusEn = true → source = .usbDev) ∧
      (g.state.level .boostEn = true → source = .battery) ∧
      g.state.level .usbLimitEn = true ∧ g.state.level .usbSel = true ∧
      (g.state.holder ≠ some .monitor → g.state.power.latched = true → g.state.on = false) ∧
      (g.state.holder = none → g.state.on = g.state.power.wanted source) := by
  have sound := reached_sound reached
  refine ⟨fun on => ?_, fun on => ?_, sound.limiter, sound.routed, sound.cut, sound.rest⟩
  · have path := sound.dev on
    cases source with
    | usbDev => rfl
    | battery | external => cases path
  · have path := sound.boost on
    cases source with
    | battery => rfl
    | usbDev | external => cases path

/-- Whenever the socket has power and the monitor is not about to act, every over-current that it
found lies the whole cooldown back. -/
theorem powered_after_cooldown {g : Crew Task State BoardCall BoardCall.Reply}
    (reached : Reached source rate g) (outside : g.state.holder ≠ some .monitor)
    (on : g.state.on = true) :
    ∀ found ∈ g.state.overcurrentAt, found + (cooldown rate).toNat ≤ g.state.now := by
  have sound := reached_sound reached
  cases latched : g.state.power.latched with
  | false => exact sound.cooled outside latched
  | true =>
      rw [sound.cut outside latched] at on
      cases on

/-! An over-current, and its end. -/

/-- The answers of a board whose pin is low for the choice 1. -/
def BoardCall.answer (choice : Nat) (task : Task) :
    (request : BoardCall) → State → request.Reply × State
  | .createMutex, s => (true, { s with created := true })
  | .take asserted, s =>
      if s.created = false then (.missing, s)
      else if s.holder = none then
        (.taken, { s with
          holder := some task
          overcurrentAt := if asserted then s.now :: s.overcurrentAt else s.overcurrentAt })
      else (.timeout, s)
  | .give, s => ((), { s with holder := none })
  | .load, s => (s.power, s)
  | .store update, s => ((), { s with power := update s.power })
  | .setLevel pin level, s => (.ok (), { s with level := Function.update s.level pin level })
  | .setDirection _, s | .gpioConfig, s => (.ok (), s)
  | .createTask, s => (true, s)
  | .overcurrent, s => (decide (choice = 1), s)
  | .tickCount, s => (UInt32.ofNat s.now, s)
  | .delay, s | .transportLost, s => ((), s)
  | .tick, s => ((), { s with now := s.now + 1 })

theorem BoardCall.answer_answers (choice : Nat) (request : BoardCall) (s : State) :
    request.Answers task s (request.answer choice task s).1 (request.answer choice task s).2 := by
  cases request with
  | take asserted =>
      simp only [answer]
      split
      · rename_i missing
        exact ⟨missing, rfl⟩
      · rename_i made
        have created : s.created = true := by simpa using made
        split
        · rename_i free
          exact ⟨created, free, rfl⟩
        · exact ⟨created, rfl⟩
  | load | setLevel _ _ | tickCount => exact ⟨rfl, rfl⟩
  | createMutex | give | store _ | setDirection _ | gpioConfig | createTask | overcurrent | delay
  | transportLost | tick => rfl

abbrev Schedule := List (Crew.Move Task BoardCall BoardCall.Reply)

/-- The state that the board starts with. -/
def State.started (source : Source) : State :=
  (run (BoardCall.answer 0 (.caller 0)) (gatewayBoardInit source) .reset).2

def play (source : Source) (schedule : Schedule) :
    Option (Crew Task State BoardCall BoardCall.Reply) :=
  Crew.play (fun choice task request s => some (request.answer choice task s)) schedule
    ⟨.started source, fun _ => .done ()⟩

theorem reached_of_play {schedule : Schedule}
    (may : ∀ move ∈ schedule, Crew.Startable (rules source rate) move)
    {g : Crew Task State BoardCall BoardCall.Reply} (played : play source schedule = some g) :
    Reached source rate g := by
  have succeeds : (run (BoardCall.answer 0 (.caller 0)) (gatewayBoardInit source) .reset).1 =
      .ok () := by
    cases source <;> rfl
  have runs : Runs (fun s (request : BoardCall) reply t => request.Answers (.caller 0) s reply t)
      (gatewayBoardInit source) .reset _ _ (State.started source) :=
    runs_of_run (BoardCall.answer 0 (.caller 0)) (BoardCall.answer_answers 0) _ _
  rw [succeeds] at runs
  refine ⟨_, _, runs, ?_⟩
  refine Crew.play_steps ?_ may played
  intro choice task request s reply t answered
  have answers := @BoardCall.answer_answers task choice request s
  rw [Option.some.inj answered] at answers
  exact answers

/-- The monitor finds an over-current in its third pass and cuts the socket off; five ticks of a
second after the pin is high again it switches it on. -/
def faultAndReturn : Schedule :=
  [.start .clock (ask .tick), .call .clock 0,
      .start .monitor (powerMonitorTask .usbDev 1 5 ⟨0, 0⟩)] ++
    List.replicate 19 (.call .monitor 1) ++ List.replicate 7 (.call .monitor 0) ++
      List.flatten (List.replicate 5 [.start .clock (ask .tick), .call .clock 0]) ++
      List.replicate 11 (.call .monitor 0)

/-- Whether the socket is on, the variables, what was found and the time, with nobody at work. -/
def facts (g : Crew Task State BoardCall BoardCall.Reply) :
    Option (Bool × Power × List Nat × Nat) :=
  if g.state.holder = none then
    some (g.state.on, g.state.power, g.state.overcurrentAt, g.state.now)
  else none

theorem startable_faultAndReturn :
    ∀ move ∈ faultAndReturn, Crew.Startable (rules .usbDev 1) move := by
  intro move member
  simp only [faultAndReturn, List.mem_append, List.mem_flatten, List.mem_replicate] at member
  rcases member with (((member | ⟨-, rfl⟩) | ⟨-, rfl⟩) | ⟨part, ⟨-, rfl⟩, member⟩) | ⟨-, rfl⟩
  · simp only [List.mem_cons, List.not_mem_nil, or_false] at member
    rcases member with rfl | rfl | rfl
    · exact .clock
    · trivial
    · exact .monitor 5
  · trivial
  · trivial
  · simp only [List.mem_cons, List.not_mem_nil, or_false] at member
    rcases member with rfl | rfl
    · exact .clock
    · trivial
  · trivial

theorem vbus_follows_request_fault : ∃ g, Reached .usbDev 1 g ∧ g.state.holder = none ∧
    g.state.power = ⟨true, true, 1, 1⟩ ∧ g.state.on = g.state.power.wanted .usbDev := by
  have played : (play .usbDev (faultAndReturn.take 22)).map facts =
      some (some (false, ⟨true, true, 1, 1⟩, [1], 1)) := by decide +kernel
  obtain ⟨g, played, facts⟩ := Option.map_eq_some_iff.mp played
  have reached : Reached .usbDev 1 g := reached_of_play
    (fun move member => startable_faultAndReturn move (List.mem_of_mem_take member)) played
  simp only [Board.facts] at facts
  split at facts
  · rename_i free
    simp only [Option.some.injEq, Prod.mk.injEq] at facts
    exact ⟨g, reached, free, facts.2.1, (vbus_follows_request reached).2.2.2.2.2 free⟩
  · cases facts

theorem powered_after_cooldown_return : ∃ g, Reached .usbDev 1 g ∧ g.state.on = true ∧
    g.state.overcurrentAt = [1] ∧ 1 + (cooldown 1).toNat ≤ g.state.now := by
  have played : (play .usbDev faultAndReturn).map facts =
      some (some (true, ⟨true, false, 1, 1⟩, [1], 6)) := by decide +kernel
  obtain ⟨g, played, facts⟩ := Option.map_eq_some_iff.mp played
  have reached : Reached .usbDev 1 g := reached_of_play startable_faultAndReturn played
  simp only [Board.facts] at facts
  split at facts
  · rename_i free
    simp only [Option.some.injEq, Prod.mk.injEq] at facts
    obtain ⟨on, -, found, -⟩ := facts
    have outside : g.state.holder ≠ some .monitor := by
      rw [free]
      nofun
    refine ⟨g, reached, on, found, ?_⟩
    apply powered_after_cooldown reached outside on 1
    rw [found]
    exact List.mem_singleton_self 1
  · cases facts

end SmsGateway.Board
