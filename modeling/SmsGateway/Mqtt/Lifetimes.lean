import SmsGateway.Mqtt.Ownership

/-! What a task of the MQTT service knows of the client, the certificates and the mutexes
while it runs: every call of `mqtt_service_reconfigure` and of the worker is allowed. -/

namespace SmsGateway.Mqtt.Runtime

open Lib Prog Settings

/-- What a task knows between its calls. -/
structure View where
  holding : List Mutex
  vars : Vars
  config : MqttConfig
  held : List Block
  copies : Nat

structure Knows (task : Task) (v : View) (s : State) : Prop where
  sound : s.Sound
  mutexes : ∀ mutex, s.holder mutex = some task ↔ mutex ∈ v.holding
  vars : .client ∈ v.holding → s.vars = v.vars
  config : .runtime ∈ v.holding → s.config = v.config
  held : s.held task = v.held
  copies : s.copies task = v.copies

abbrev Goes {α : Type} (task : Task) (post : α → State → Prop) (program : RuntimeM α) (s : State) :
    Prop :=
  Guards (State.Beside task) (fun s request reply t => RuntimeCall.Answers task s request reply t)
    (Allowed task) post program s

/-- The task knows a view that goes with the value. -/
def Learns {α : Type} (task : Task) (result : α → View → Prop) (value : α) (s : State) : Prop :=
  ∃ v, result value v ∧ Knows task v s

variable {s t : State} {task : Task} {v : View}

theorem stable_knows : Stable (State.Beside task) (Knows task v) := by
  intro s t knows beside
  have holding (mutex : Mutex) : t.holder mutex = some task ↔ mutex ∈ v.holding :=
    (beside.mutex mutex).trans (knows.mutexes mutex)
  refine ⟨beside.sound knows.sound, holding, ?_, ?_, beside.held.trans knows.held,
    beside.copies.trans knows.copies⟩
  · intro client
    exact (beside.vars ((knows.mutexes .client).mpr client)).trans (knows.vars client)
  · intro runtime
    exact (beside.config ((knows.mutexes .runtime).mpr runtime)).trans (knows.config runtime)

theorem stable_learns {α : Type} {result : α → View → Prop} (value : α) :
    Stable (State.Beside task) (Learns task result value) := by
  rintro s t ⟨w, learnt, knows⟩ beside
  exact ⟨w, learnt, stable_knows s t knows beside⟩

/-- Without the client mutex the task knows nothing of the client. -/
theorem Knows.forget (knows : Knows task v s) (away : .client ∉ v.holding) (vars : Vars) :
    Knows task { v with vars := vars } s :=
  ⟨knows.sound, knows.mutexes, fun holding => absurd holding away, knows.config, knows.held,
    knows.copies⟩

/-! The rules. -/

theorem goes_ask {request : RuntimeCall} {result : request.Reply → View → Prop}
    (knows : Knows task v s) (needs : ∀ t, Knows task v t → Needs task t request)
    (later : ∀ t reply u, Knows task v t → request.Answers task t reply u → u.Sound →
      Learns task result reply u) :
    Goes task (Learns task result) (ask request) s := by
  refine Guards.call (Knows task v) stable_knows knows ?_ ?_
  · exact fun t here => ⟨here.sound, needs t here⟩
  · intro t reply u here answers
    have sound := call_sound ⟨here.sound, needs t here⟩ answers
    exact .done (stable_learns reply) (later t reply u here answers sound)

theorem goes_then {α β : Type} {program : RuntimeM α} {next : α → RuntimeM β}
    {result : α → View → Prop} {post : β → State → Prop}
    (first : Goes task (Learns task result) program s)
    (rest : ∀ value w t, result value w → Knows task w t → Goes task post (next value) t) :
    Goes task post (program >>= next) s := by
  refine Guards.bind (Guards.mono ?_ first)
  rintro value t ⟨w, learnt, knows⟩
  exact rest value w t learnt knows

theorem goes_done {α : Type} {value : α} {result : α → View → Prop} (knows : Knows task v s)
    (learnt : result value v) : Goes task (Learns task result) (.done value) s :=
  .done (stable_learns value) ⟨v, learnt, knows⟩

/-- Calls that leave the state. -/
def Quiet : RuntimeCall → Prop
  | .getMqtt | .publish _ _ _ _ _ | .subscribe _ _ _ | .stop _ | .registerEvent _ | .start _
  | .setReplayProtection _ | .inquire _ | .printUnformatted | .dispatch _ _ | .connected
  | .getClient | .getActiveCaPem | .readConfig => True
  | _ => False

theorem quiet_unmoved {request : RuntimeCall} {reply : request.Reply} (quiet : Quiet request)
    (answers : request.Answers task s reply t) : t = s := by
  cases request with
  | getMqtt | publish | subscribe | stop | registerEvent | start | setReplayProtection | inquire
  | printUnformatted | dispatch =>
      exact answers
  | connected | getClient | getActiveCaPem | readConfig => exact answers.2
  | _ => exact quiet.elim

theorem goes_quiet {request : RuntimeCall} (quiet : Quiet request) (knows : Knows task v s)
    (needs : ∀ t, Knows task v t → Needs task t request) :
    Goes task (Learns task fun _ w => w = v) (ask request) s := by
  refine goes_ask knows needs ?_
  intro t reply u here answers _
  rw [quiet_unmoved quiet answers]
  exact ⟨v, rfl, here⟩

/-- The rule for taking a mutex. -/
theorem goes_take (mutex : Mutex) (knows : Knows task v s)
    (order : ∀ held ∈ v.holding, held.rank < mutex.rank) :
    Goes task (Learns task fun taken w =>
      if taken then w.holding = mutex :: v.holding ∧ w.held = v.held ∧ w.copies = v.copies ∧
        (mutex ≠ .client → w.vars = v.vars) ∧ (mutex ≠ .runtime → w.config = v.config) ∧
        (mutex = .client → w.vars.Consistent)
      else w = v) (ask (.take mutex)) s := by
  refine goes_ask knows ?_ ?_
  · exact fun t here held mine => order held ((here.mutexes held).mp mine)
  · intro t taken u here answers sound
    cases taken with
    | false =>
        obtain rfl : u = t := answers
        exact ⟨v, rfl, here⟩
    | true =>
        obtain ⟨free, rfl⟩ := answers
        refine ⟨⟨mutex :: v.holding, if mutex = .client then t.vars else v.vars,
          if mutex = .runtime then t.config else v.config, v.held, v.copies⟩, ?_, ?_⟩
        · refine ⟨rfl, rfl, rfl, fun other => if_neg other, fun other => if_neg other, ?_⟩
          rintro rfl
          exact here.sound.settled free
        · refine ⟨sound, ?_, ?_, ?_, here.held, here.copies⟩
          · intro held
            by_cases same : held = mutex
            · simp [same]
            · simpa [same] using here.mutexes held
          · intro holding
            by_cases same : mutex = .client
            · exact (if_pos same).symm
            · have before := (List.mem_cons.mp holding).resolve_left (Ne.symm same)
              exact (here.vars before).trans (if_neg same).symm
          · intro holding
            by_cases same : mutex = .runtime
            · exact (if_pos same).symm
            · have before := (List.mem_cons.mp holding).resolve_left (Ne.symm same)
              exact (here.config before).trans (if_neg same).symm

/-- The rule for giving back the mutex taken last. -/
theorem goes_give {mutex : Mutex} {rest : List Mutex} (knows : Knows task v s)
    (last : v.holding = mutex :: rest) (once : mutex ∉ rest)
    (consistent : mutex = .client → v.vars.Consistent) :
    Goes task (Learns task fun _ w => w = { v with holding := rest }) (ask (.give mutex)) s := by
  refine goes_ask knows ?_ ?_
  · intro t here
    have mine : mutex ∈ v.holding := by simp [last]
    refine ⟨(here.mutexes mutex).mpr mine, ?_⟩
    rintro rfl
    rw [here.vars mine]
    exact consistent rfl
  · intro t _ u here answers sound
    obtain rfl : u = _ := answers
    refine ⟨_, rfl, sound, ?_, ?_, ?_, here.held, here.copies⟩
    · intro held
      by_cases same : held = mutex
      · simp [same, once]
      · simpa [same, last] using here.mutexes held
    · intro client
      exact here.vars (last ▸ List.mem_cons_of_mem mutex client)
    · intro runtime
      exact here.config (last ▸ List.mem_cons_of_mem mutex runtime)

theorem goes_getClient (knows : Knows task v s) :
    Goes task (Learns task fun client w => w = v ∧ (.client ∈ v.holding → client = v.vars.client))
      (ask .getClient) s := by
  refine goes_ask knows (fun _ _ => trivial) ?_
  rintro t client u here ⟨rfl, rfl⟩ _
  exact ⟨v, ⟨rfl, fun holding => by rw [here.vars holding]⟩, here⟩

theorem goes_getActiveCaPem (knows : Knows task v s) (holding : .client ∈ v.holding) :
    Goes task (Learns task fun pem w => w = v ∧ pem = v.vars.activeCaPem) (ask .getActiveCaPem) s := by
  refine goes_ask knows (fun t here => (here.mutexes _).mpr holding) ?_
  rintro t pem u here ⟨rfl, rfl⟩ _
  exact ⟨v, ⟨rfl, by rw [here.vars holding]⟩, here⟩

theorem goes_readConfig (knows : Knows task v s)
    (holding : .config ∈ v.holding ∨ .runtime ∈ v.holding) :
    Goes task (Learns task fun config w => w = v ∧ (.runtime ∈ v.holding → config = v.config))
      (ask .readConfig) s := by
  refine goes_ask knows ?_ ?_
  · exact fun t here => holding.imp (here.mutexes _).mpr (here.mutexes _).mpr
  · rintro t config u here ⟨rfl, rfl⟩ _
    exact ⟨v, ⟨rfl, fun runtime => here.config runtime⟩, here⟩

theorem goes_writeConfig {next : MqttConfig} (knows : Knows task v s)
    (config : .config ∈ v.holding) (runtime : .runtime ∈ v.holding) :
    Goes task (Learns task fun _ w => w = { v with config := next }) (ask (.writeConfig next)) s := by
  refine goes_ask knows ?_ ?_
  · exact fun t here => ⟨(here.mutexes _).mpr config, (here.mutexes _).mpr runtime⟩
  · rintro t _ u here answers sound
    obtain rfl : u = _ := answers
    exact ⟨_, rfl, sound, here.mutexes, here.vars, fun _ => rfl, here.held, here.copies⟩

theorem goes_setConnected {up : Bool} (knows : Knows task v s) :
    Goes task (Learns task fun _ w => w = v) (ask (.setConnected up)) s := by
  refine goes_ask knows (fun _ _ => trivial) ?_
  rintro t _ u here answers sound
  obtain rfl : u = _ := answers
  exact ⟨v, rfl, sound, here.mutexes, here.vars, here.config, here.held, here.copies⟩

theorem goes_setClient {client : Option Client} (knows : Knows task v s)
    (holding : .client ∈ v.holding) :
    Goes task (Learns task fun _ w => w = { v with vars := { v.vars with client := client } })
      (ask (.setClient client)) s := by
  refine goes_ask knows (fun t here => (here.mutexes _).mpr holding) ?_
  rintro t _ u here answers sound
  obtain rfl : u = _ := answers
  refine ⟨_, rfl, sound, here.mutexes, ?_, here.config, here.held, here.copies⟩
  intro _
  rw [← here.vars holding]

/-- The rule for a call of a client that exists. -/
theorem goes_client {request : RuntimeCall} {client : Client} (quiet : Quiet request)
    (needs : ∀ t, t.holder .client = some task ∧ t.Live client → Needs task t request)
    (knows : Knows task v s) (holding : .client ∈ v.holding) {pem : Option Block}
    (lives : (client, pem) ∈ v.vars.clients) :
    Goes task (Learns task fun _ w => w = v) (ask request) s := by
  refine goes_quiet quiet knows ?_
  intro t here
  apply needs
  exact ⟨(here.mutexes _).mpr holding, pem, here.vars holding ▸ lives⟩

theorem goes_destroy {client : Client} (knows : Knows task v s) (holding : .client ∈ v.holding)
    {pem : Option Block} (lives : (client, pem) ∈ v.vars.clients)
    (other : v.vars.client ≠ some client) :
    Goes task (Learns task fun _ w => w = { v with
      vars := { v.vars with clients := v.vars.clients.filter (·.1 ≠ client) } })
      (ask (.destroy client)) s := by
  refine goes_ask knows ?_ ?_
  · intro t here
    have vars := here.vars holding
    exact ⟨(here.mutexes _).mpr holding, ⟨pem, vars ▸ lives⟩, vars ▸ other⟩
  · rintro t _ u here answers sound
    obtain rfl : u = _ := answers
    refine ⟨_, rfl, sound, here.mutexes, ?_, here.config, here.held, here.copies⟩
    intro _
    rw [← here.vars holding]

theorem goes_init {config : ClientConfig} (knows : Knows task v s) (holding : .client ∈ v.holding)
    (mine : ∀ block, config.certificate = some block → block ∈ v.held) :
    Goes task (Learns task fun created w =>
      match created with
      | none => w = v
      | some client => w = { v with
          vars := { v.vars with clients := (client, config.certificate) :: v.vars.clients } })
      (ask (.init config)) s := by
  refine goes_ask knows ?_ ?_
  · exact fun t here => ⟨(here.mutexes _).mpr holding, by rw [here.held]; exact mine⟩
  · rintro t created u here answers sound
    cases created with
    | none =>
        obtain rfl : u = t := answers
        exact ⟨v, rfl, here⟩
    | some client =>
        obtain ⟨-, rfl⟩ := answers
        refine ⟨_, rfl, sound, here.mutexes, ?_, here.config, here.held, here.copies⟩
        intro _
        rw [← here.vars holding]

theorem goes_setActiveCaPem {block : Option Block} (knows : Knows task v s)
    (holding : .client ∈ v.holding) (mine : ∀ own, block = some own → own ∈ v.held) :
    Goes task (Learns task fun _ w => w = { v with
      vars := { v.vars with activeCaPem := block, owned := block.toList ++ v.vars.owned }
      held := v.held.filter fun own => block ≠ some own }) (ask (.setActiveCaPem block)) s := by
  refine goes_ask knows ?_ ?_
  · exact fun t here => ⟨(here.mutexes _).mpr holding, by rw [here.held]; exact mine⟩
  · rintro t _ u here answers sound
    obtain rfl : u = _ := answers
    refine ⟨_, rfl, sound, here.mutexes, ?_, here.config, ?_, here.copies⟩
    · intro _
      rw [← here.vars holding]
    · simp only [Function.update_self, here.held]

theorem goes_duplicate {pem : CStr} (knows : Knows task v s) :
    Goes task (Learns task fun copy w =>
      match copy with
      | none => w = v
      | some block => w = { v with held := block :: v.held }) (ask (.duplicate pem)) s := by
  refine goes_ask knows (fun _ _ => trivial) ?_
  rintro t copy u here answers sound
  cases copy with
  | none =>
      obtain rfl : u = t := answers
      exact ⟨v, rfl, here⟩
  | some block =>
      obtain ⟨-, rfl⟩ := answers
      refine ⟨_, rfl, sound, here.mutexes, here.vars, here.config, ?_, here.copies⟩
      simp only [Function.update_self, here.held]

/-- A block that the task holds is freed. -/
theorem goes_freeHeld {block : Block} (knows : Knows task v s) (mine : v.held = [block])
    (unused : .client ∈ v.holding → ∀ entry ∈ v.vars.clients, entry.2 ≠ some block) :
    Goes task (Learns task fun _ w => w = { v with held := [] }) (ask (.free block)) s := by
  have held (t : State) (here : Knows task v t) : block ∈ t.held task := by simp [here.held, mine]
  refine goes_ask knows ?_ ?_
  · intro t here
    refine ⟨.inl (held t here), ?_⟩
    intro entry member points
    by_cases holding : .client ∈ v.holding
    · rw [here.vars holding] at member
      exact unused holding entry member points
    · -- The certificates of the clients belong to others.
      rcases here.sound.alive entry member block points with owned | ⟨other, holder, theirs⟩
      · exact here.sound.away task block (held t here) owned
      · have different : task ≠ other := by
          rintro rfl
          exact holding ((here.mutexes _).mp holder)
        exact here.sound.apart task other different block (held t here) theirs
  · rintro t _ u here answers sound
    obtain rfl : u = _ := answers
    refine ⟨_, rfl, sound, here.mutexes, ?_, here.config, ?_, here.copies⟩
    · intro client
      rw [← here.vars client]
      simp only [filter_unaffected (here.sound.away task block (held t here))]
    · simp [here.held, mine]

/-- The active certificate is freed. -/
theorem goes_freeOwned {block : Block} (knows : Knows task v s) (holding : .client ∈ v.holding)
    (owned : block ∈ v.vars.owned) (unused : ∀ entry ∈ v.vars.clients, entry.2 ≠ some block) :
    Goes task (Learns task fun _ w => w = { v with
      vars := { v.vars with owned := v.vars.owned.filter (· ≠ block) } }) (ask (.free block)) s := by
  refine goes_ask knows ?_ ?_
  · intro t here
    have vars := here.vars holding
    exact ⟨.inr ⟨(here.mutexes _).mpr holding, vars ▸ owned⟩, vars ▸ unused⟩
  · rintro t _ u here answers sound
    obtain rfl : u = _ := answers
    have unheld : block ∉ t.held task := fun mine =>
      here.sound.away task block mine (here.vars holding ▸ owned)
    refine ⟨_, rfl, sound, here.mutexes, ?_, here.config, ?_, here.copies⟩
    · intro _
      rw [← here.vars holding]
    · rw [← here.held]
      exact filter_unaffected unheld

theorem goes_callocConfigs (knows : Knows task v s) :
    Goes task (Learns task fun allocated w =>
      w = if allocated then { v with copies := v.copies + 1 } else v) (ask .callocConfigs) s := by
  refine goes_ask knows (fun _ _ => trivial) ?_
  rintro t allocated u here answers sound
  obtain rfl : u = _ := answers
  cases allocated with
  | false => exact ⟨v, rfl, here⟩
  | true =>
      refine ⟨_, rfl, sound, here.mutexes, here.vars, here.config, here.held, ?_⟩
      simp [here.copies]

theorem goes_freeConfigs (knows : Knows task v s) (held : 0 < v.copies) :
    Goes task (Learns task fun _ w => w = { v with copies := v.copies - 1 }) (ask .freeConfigs) s := by
  refine goes_ask knows ?_ ?_
  · intro t here
    have copies : 0 < t.copies task := here.copies ▸ held
    exact copies
  · rintro t _ u here answers sound
    obtain rfl : u = _ := answers
    refine ⟨_, rfl, sound, here.mutexes, here.vars, here.config, here.held, ?_⟩
    simp [here.copies]

/-! The functions. -/

/-- The configuration mutex is the last in the order. -/
theorem config_untaken {holding : List Mutex} (order : ∀ held ∈ holding, held.rank < Mutex.config.rank) :
    .config ∉ holding := fun member => lt_irrefl _ (order .config member)

theorem goes_takeConfig {α : Type} {next : Bool → RuntimeM α} {post : α → State → Prop}
    (knows : Knows task v s) (order : ∀ held ∈ v.holding, held.rank < Mutex.config.rank)
    (taken : ∀ t, Knows task { v with holding := .config :: v.holding } t → Goes task post (next true) t)
    (failed : ∀ t, Knows task v t → Goes task post (next false) t) :
    Goes task post (ask (.take .config) >>= next) s := by
  refine goes_then (goes_take .config knows order) ?_
  intro answer w t learnt knows
  cases answer with
  | false =>
      rw [show w = v from learnt] at knows
      exact failed t knows
  | true =>
      obtain ⟨_, _, _, _, _⟩ := w
      obtain ⟨rfl, rfl, rfl, vars, config, -⟩ := learnt
      obtain rfl := vars nofun
      obtain rfl := config nofun
      exact taken t knows

theorem goes_takeClient {α : Type} {next : Bool → RuntimeM α} {post : α → State → Prop}
    (knows : Knows task v s) (order : ∀ held ∈ v.holding, held.rank < Mutex.client.rank)
    (taken : ∀ t vars, vars.Consistent →
      Knows task { v with holding := .client :: v.holding, vars := vars } t → Goes task post (next true) t)
    (failed : ∀ t, Knows task v t → Goes task post (next false) t) :
    Goes task post (ask (.take .client) >>= next) s := by
  refine goes_then (goes_take .client knows order) ?_
  intro answer w t learnt knows
  cases answer with
  | false =>
      rw [show w = v from learnt] at knows
      exact failed t knows
  | true =>
      obtain ⟨_, vars, _, _, _⟩ := w
      obtain ⟨rfl, rfl, rfl, -, config, consistent⟩ := learnt
      obtain rfl := config nofun
      exact taken t vars (consistent rfl) knows

theorem goes_takeRuntime {α : Type} {next : Bool → RuntimeM α} {post : α → State → Prop}
    (knows : Knows task v s) (order : ∀ held ∈ v.holding, held.rank < Mutex.runtime.rank)
    (taken : ∀ t config, Knows task { v with holding := .runtime :: v.holding, config := config } t →
      Goes task post (next true) t)
    (failed : ∀ t, Knows task v t → Goes task post (next false) t) :
    Goes task post (ask (.take .runtime) >>= next) s := by
  refine goes_then (goes_take .runtime knows order) ?_
  intro answer w t learnt knows
  cases answer with
  | false =>
      rw [show w = v from learnt] at knows
      exact failed t knows
  | true =>
      obtain ⟨_, _, config, _, _⟩ := w
      obtain ⟨rfl, rfl, rfl, vars, -, -⟩ := learnt
      obtain rfl := vars nofun
      exact taken t config knows

/-- With the runtime mutex the topic is that of the configuration in force, or empty. -/
theorem goes_topicOf {suffix : CStr} (knows : Knows task v s)
    (order : ∀ held ∈ v.holding, held.rank < Mutex.config.rank) :
    Goes task (Learns task fun name w => w = v ∧ (.runtime ∈ v.holding → name = .empty ∨
      name = printTopic v.config.baseTopic.text suffix)) (topic suffix) s := by
  refine goes_takeConfig knows order ?_ fun t knows => goes_done knows ⟨rfl, fun _ => .inl rfl⟩
  intro t knows
  refine goes_then (goes_readConfig knows (.inl (List.mem_cons_self ..))) ?_
  rintro config w t ⟨rfl, same⟩ knows
  refine goes_then (goes_give knows rfl (config_untaken order) nofun) ?_
  rintro _ w t rfl knows
  refine goes_done knows ⟨rfl, ?_⟩
  intro runtime
  rw [same (List.mem_cons_of_mem _ runtime)]
  exact .inr rfl

theorem goes_topic {suffix : CStr} (knows : Knows task v s)
    (order : ∀ held ∈ v.holding, held.rank < Mutex.config.rank) :
    Goes task (Learns task fun _ w => w = v) (topic suffix) s := by
  refine Guards.mono ?_ (goes_topicOf knows order)
  rintro name t ⟨w, ⟨same, -⟩, knows⟩
  exact ⟨w, same, knows⟩

theorem goes_configViewOf (knows : Knows task v s)
    (order : ∀ held ∈ v.holding, held.rank < Mutex.config.rank) :
    Goes task (Learns task fun found w => w = v ∧ ∀ view, found = some view →
      .runtime ∈ v.holding → view = .of v.config) configView s := by
  refine goes_takeConfig knows order ?_ fun t knows => goes_done knows ⟨rfl, nofun⟩
  intro t knows
  refine goes_then (goes_readConfig knows (.inl (List.mem_cons_self ..))) ?_
  rintro config w t ⟨rfl, same⟩ knows
  refine goes_then (goes_give knows rfl (config_untaken order) nofun) ?_
  rintro _ w t rfl knows
  refine goes_done knows ⟨rfl, ?_⟩
  rintro _ ⟨⟩ runtime
  rw [same (List.mem_cons_of_mem _ runtime)]

theorem goes_configView (knows : Knows task v s)
    (order : ∀ held ∈ v.holding, held.rank < Mutex.config.rank) :
    Goes task (Learns task fun _ w => w = v) configView s := by
  refine Guards.mono ?_ (goes_configViewOf knows order)
  rintro found t ⟨w, ⟨same, -⟩, knows⟩
  exact ⟨w, same, knows⟩

/-- Before the client mutex. -/
def Outside (v : View) : Prop := ∀ held ∈ v.holding, held.rank < Mutex.client.rank

theorem Outside.away (outside : Outside v) : .client ∉ v.holding :=
  fun member => lt_irrefl _ (outside .client member)

theorem Outside.early (outside : Outside v) :
    ∀ held ∈ v.holding, held.rank < Mutex.config.rank :=
  fun held member => (outside held member).trans (by decide)

/-- With the client mutex, and consistent variables. -/
def Inside (v : View) (vars : Vars) : View :=
  { v with holding := .client :: v.holding, vars := vars }

theorem Outside.inside (outside : Outside v) (vars : Vars) :
    ∀ held ∈ (Inside v vars).holding, held.rank < Mutex.config.rank :=
  List.forall_mem_cons.mpr ⟨by decide, outside.early⟩

theorem inside_holds {vars : Vars} : .client ∈ (Inside v vars).holding := List.mem_cons_self ..

theorem goes_giveClient {vars : Vars} (outside : Outside v) (consistent : vars.Consistent)
    (knows : Knows task (Inside v vars) s) :
    Goes task (Learns task fun _ w => w = v) (ask (.give .client)) s := by
  refine Guards.mono ?_ (goes_give knows rfl outside.away fun _ => consistent)
  rintro _ t ⟨w, rfl, knows⟩
  exact ⟨v, rfl, knows.forget outside.away v.vars⟩

theorem goes_publishRaw {name payload : CStr} {qos : Nat} {retain : Bool} (knows : Knows task v s)
    (outside : Outside v) :
    Goes task (Learns task fun _ w => w = v) (publishRaw name payload qos retain) s := by
  refine goes_takeClient knows outside ?_ fun t knows => goes_done knows rfl
  intro t vars consistent knows
  have returns (id : Int) (t : State) (knows : Knows task (Inside v vars) t) :
      Goes task (Learns task fun _ w => w = v) (ask (.give .client) >>= fun _ => pure id) t := by
    refine goes_then (goes_giveClient outside consistent knows) ?_
    rintro _ w t rfl knows
    exact goes_done knows rfl
  refine goes_then (goes_getClient (v := Inside v vars) knows) ?_
  rintro client w t ⟨rfl, current⟩ knows
  obtain rfl := current inside_holds
  rcases consistent.cases with rfl | ⟨client, pem, rfl⟩
  · exact returns (-1) t knows
  · refine goes_then (goes_quiet trivial knows fun _ _ => trivial) ?_
    rintro connected w t rfl knows
    cases connected with
    | false => exact returns (-1) t knows
    | true =>
        refine goes_then (goes_client trivial (fun t lives => lives) knows inside_holds
          (List.mem_cons_self ..)) ?_
        rintro id w t rfl knows
        exact returns id t knows

theorem goes_subscribeAll {client : Client} {pem : Option Block} (outside : Outside v)
    (topics : List (CStr × Nat)) {vars : Vars} (lives : (client, pem) ∈ vars.clients)
    (knows : Knows task (Inside v vars) s) :
    Goes task (Learns task fun _ w => w = Inside v vars) (subscribeAll client topics) s := by
  induction topics generalizing s with
  | nil => exact goes_done knows rfl
  | cons first rest ih =>
      refine goes_then (goes_topic knows (outside.inside vars)) ?_
      rintro name w t rfl knows
      refine goes_then (goes_client trivial (fun t lives => lives) knows inside_holds lives) ?_
      rintro id w t rfl knows
      exact ih knows

theorem goes_subscribe {view : MqttConfigView} (outside : Outside v) {vars : Vars}
    (consistent : vars.Consistent) (knows : Knows task (Inside v vars) s) :
    Goes task (Learns task fun _ w => w = v) (subscribe view) s := by
  refine goes_then (goes_getClient knows) ?_
  rintro client w t ⟨rfl, current⟩ knows
  obtain rfl := current inside_holds
  rcases consistent.cases with rfl | ⟨client, pem, rfl⟩
  · exact goes_giveClient outside consistent knows
  · refine goes_then (goes_subscribeAll outside _ (List.mem_cons_self ..) knows) ?_
    rintro _ w t rfl knows
    split
    · refine goes_then (goes_client trivial (fun t lives => lives) knows inside_holds
        (List.mem_cons_self ..)) ?_
      rintro id w t rfl knows
      exact goes_giveClient outside consistent knows
    · exact goes_giveClient outside consistent knows

/-- A function of the worker leaves what the task knows. -/
abbrev Returns {α : Type} (task : Task) (v : View) (program : RuntimeM α) (s : State) : Prop :=
  Goes task (Learns task fun _ w => w = v) program s

/-- After a function of the worker. -/
theorem Returns.next {α β : Type} {program : RuntimeM α} {next : α → RuntimeM β}
    (first : Returns task v program s)
    (rest : ∀ value t, Knows task v t → Returns task v (next value) t) :
    Returns task v (program >>= next) s := by
  refine goes_then first ?_
  rintro value w t rfl knows
  exact rest value t knows

theorem returns_inquire {inquiry : Inquiry} (knows : Knows task v s) :
    Returns task v (ask (.inquire inquiry)) s :=
  goes_quiet trivial knows fun _ _ => trivial

theorem returns_connected (knows : Knows task v s) : Returns task v (ask .connected) s :=
  goes_quiet trivial knows fun _ _ => trivial

theorem returns_publishJsonObject {name : CStr} {qos : Nat} {retain : Bool}
    (knows : Knows task v s) (outside : Outside v) :
    Returns task v (publishJsonObject name qos retain) s := by
  refine Returns.next (goes_quiet trivial knows fun _ _ => trivial) ?_
  intro encoded t knows
  cases encoded with
  | none => exact goes_done knows rfl
  | some printed =>
      refine Returns.next (goes_publishRaw knows outside) ?_
      intro id t knows
      exact goes_done knows rfl

theorem returns_publishStatus (knows : Knows task v s) (outside : Outside v) :
    Returns task v publishStatus s := by
  refine Returns.next (returns_inquire knows) ?_
  intro known t knows
  cases known with
  | false => exact goes_done knows rfl
  | true =>
      refine Returns.next (goes_topic knows outside.early) ?_
      intro statusTopic t knows
      refine Returns.next (returns_inquire knows) ?_
      intro created t knows
      cases created with
      | false => exact goes_done knows rfl
      | true => exact returns_publishJsonObject knows outside

theorem returns_nameTopics (suffixes : List CStr) (knows : Knows task v s) (outside : Outside v) :
    Returns task v (nameTopics suffixes) s := by
  induction suffixes generalizing s with
  | nil => exact goes_done knows rfl
  | cons suffix rest ih =>
      refine Returns.next (goes_topic knows outside.early) ?_
      intro name t knows
      exact ih knows

theorem returns_publishCommandResult (knows : Knows task v s) (outside : Outside v) :
    Returns task v publishCommandResult s := by
  refine Returns.next (goes_topic knows outside.early) ?_
  intro resultTopic t knows
  exact returns_publishJsonObject knows outside

theorem returns_publishSmsEvent {received : Bool} (knows : Knows task v s) (outside : Outside v) :
    Returns task v (publishSmsEvent received) s := by
  refine Returns.next (returns_inquire knows) ?_
  intro created t knows
  cases created with
  | false => exact goes_done knows rfl
  | true =>
      refine Returns.next (goes_topic knows outside.early) ?_
      intro outTopic t knows
      refine Returns.next (returns_publishJsonObject knows outside) ?_
      intro _ t knows
      exact returns_publishStatus knows outside

theorem returns_publishInboundReplay (knows : Knows task v s) (outside : Outside v) :
    Returns task v publishInboundReplay s := by
  refine Returns.next (goes_topic knows outside.early) ?_
  intro outTopic t knows
  refine Returns.next (returns_inquire knows) ?_
  intro created t knows
  cases created with
  | false => exact goes_done knows rfl
  | true => exact returns_publishJsonObject knows outside

theorem returns_replayNextInbound (knows : Knows task v s) (outside : Outside v) :
    Returns task v replayNextInbound s := by
  refine Returns.next (returns_connected knows) ?_
  intro up t knows
  cases up with
  | false => exact goes_done knows rfl
  | true =>
      refine Returns.next (returns_inquire knows) ?_
      intro found t knows
      cases found with
      | false => exact goes_done knows rfl
      | true => exact returns_publishInboundReplay knows outside

theorem returns_handleReplayAck (knows : Knows task v s) (outside : Outside v) :
    Returns task v handleReplayAck s := by
  refine Returns.next (returns_inquire knows) ?_
  intro stored t knows
  cases stored with
  | false => exact goes_done knows rfl
  | true => exact returns_replayNextInbound knows outside

theorem returns_replayWatchdog (knows : Knows task v s) (outside : Outside v) :
    Returns task v replayWatchdog s := by
  refine Returns.next (returns_inquire knows) ?_
  intro expired t knows
  cases expired with
  | false => exact goes_done knows rfl
  | true => exact returns_replayNextInbound knows outside

section

variable {deviceId : CStr}

theorem returns_publishDiscovery (knows : Knows task v s) (outside : Outside v) :
    Returns task v (publishDiscovery deviceId) s := by
  refine Returns.next (goes_configView knows outside.early) ?_
  intro found t knows
  cases found with
  | none => exact goes_done knows rfl
  | some view =>
      dsimp only
      split
      · refine Returns.next (returns_nameTopics _ knows outside) ?_
        intro _ t knows
        exact returns_publishJsonObject knows outside
      · exact goes_done knows rfl

theorem returns_subscribeAndAnnounce (knows : Knows task v s) (outside : Outside v) :
    Returns task v (subscribeAndAnnounce deviceId) s := by
  refine Returns.next (goes_configView knows outside.early) ?_
  intro found t knows
  cases found with
  | none => exact goes_done knows rfl
  | some view =>
      refine goes_takeClient knows outside ?_ fun t knows => goes_done knows rfl
      intro t vars consistent knows
      refine Returns.next (goes_subscribe outside consistent knows) ?_
      intro _ t knows
      refine Returns.next (goes_topic knows outside.early) ?_
      intro availability t knows
      refine Returns.next (goes_publishRaw knows outside) ?_
      intro id t knows
      refine Returns.next (returns_publishDiscovery knows outside) ?_
      intro _ t knows
      exact returns_publishStatus knows outside

end

/-- The kind that the topic of the work stands for; an empty topic stands for none. -/
theorem goes_commandKind {work : DataWork} (knows : Knows task v s) (outside : Outside v)
    (runtime : .runtime ∈ v.holding) :
    Goes task (Learns task fun kind w => w = v ∧ (kind ≠ .none → CStr.ofBytes work.topic ≠ .empty →
      CStr.ofBytes work.topic = commandTopic v.config kind)) (commandKind work) s := by
  have found {kind : MqttCommandKind} {name : CStr} {t : State} (knows : Knows task v t)
      (learnt : name = .empty ∨ name = commandTopic v.config kind)
      (same : CStr.ofBytes work.topic = name) :
      Goes task (Learns task fun kind w => w = v ∧ (kind ≠ .none →
        CStr.ofBytes work.topic ≠ .empty → CStr.ofBytes work.topic = commandTopic v.config kind))
        (pure kind) t := by
    refine goes_done knows ⟨rfl, ?_⟩
    intro _ named
    exact same.trans (learnt.resolve_left fun empty => named (same.trans empty))
  refine goes_then (goes_topicOf knows outside.early) ?_
  rintro name w t ⟨rfl, learnt⟩ knows
  split
  · exact found knows (learnt runtime) ‹_›
  · refine goes_then (goes_topicOf knows outside.early) ?_
    rintro name w t ⟨rfl, learnt⟩ knows
    split
    · exact found knows (learnt runtime) ‹_›
    · refine goes_then (goes_topicOf knows outside.early) ?_
      rintro name w t ⟨rfl, learnt⟩ knows
      split
      · exact found knows (learnt runtime) ‹_›
      · refine goes_then (goes_topicOf knows outside.early) ?_
        rintro name w t ⟨rfl, learnt⟩ knows
        split
        · exact found knows (learnt runtime) ‹_›
        · refine goes_then (goes_configViewOf knows outside.early) ?_
          rintro read w t ⟨rfl, learnt⟩ knows
          cases read with
          | none => exact goes_done knows ⟨rfl, fun named => absurd rfl named⟩
          | some view =>
              obtain rfl := learnt view rfl runtime
              dsimp only
              split
              · exact @found .haStatus _ _ knows (.inr rfl) ‹_›
              · exact goes_done knows ⟨rfl, fun named => absurd rfl named⟩

theorem goes_dispatch {kind : MqttCommandKind} {work : DataWork} (knows : Knows task v s)
    (runtime : .runtime ∈ v.holding)
    (commands : Commands v.config kind work) :
    Goes task (Learns task fun _ w => w = v) (ask (.dispatch kind work)) s := by
  refine goes_quiet trivial knows ?_
  intro t here
  exact ⟨(here.mutexes _).mpr runtime, by rw [here.config runtime]; exact commands⟩

section

variable {deviceId : CStr} {work : DataWork}

theorem returns_runCommand {kind : MqttCommandKind} (knows : Knows task v s) (outside : Outside v)
    (runtime : .runtime ∈ v.holding)
    (commands : Commands v.config kind work) :
    Returns task v (runCommand deviceId kind work) s := by
  refine Returns.next (goes_dispatch knows runtime commands) ?_
  intro _ t knows
  cases kind with
  | smsSend => exact returns_publishCommandResult knows outside
  | haStatus =>
      refine Returns.next (returns_publishDiscovery knows outside) ?_
      intro _ t knows
      exact returns_publishStatus knows outside
  | none | nativeNotify | modemRestart | systemReboot => exact goes_done knows rfl

theorem returns_handleDataWork (knows : Knows task v s) (outside : Outside v)
    (runtime : .runtime ∈ v.holding) : Returns task v (handleDataWork deviceId work) s := by
  refine goes_then (goes_commandKind knows outside runtime) ?_
  rintro kind w t ⟨rfl, learnt⟩ knows
  split
  · exact goes_done knows rfl
  · rename_i some
    split
    · exact goes_done knows rfl
    · rename_i allowed
      have commands : Commands w.config kind work := ⟨learnt some, by simpa using allowed⟩
      split
      · refine Returns.next (goes_configView knows outside.early) ?_
        intro read t knows
        cases read with
        | none => exact goes_done knows rfl
        | some view =>
            dsimp only
            split
            · exact returns_runCommand knows outside runtime commands
            · exact goes_done knows rfl
      · exact returns_runCommand knows outside runtime commands

theorem returns_perform (work : Work) (knows : Knows task v s) (outside : Outside v)
    (runtime : .runtime ∈ v.holding) : Returns task v (work.perform deviceId) s := by
  cases work with
  | connected =>
      refine Returns.next (returns_subscribeAndAnnounce knows outside) ?_
      intro _ t knows
      exact returns_replayNextInbound knows outside
  | data work => exact returns_handleDataWork knows outside runtime
  | smsEvent received => exact returns_publishSmsEvent knows outside
  | replay => exact returns_replayNextInbound knows outside
  | replayAck => exact returns_handleReplayAck knows outside

end

/-! A task at rest. -/

/-- What a task at rest knows, whatever the client and the configuration are. -/
def View.rest (vars : Vars) (config : MqttConfig) : View := ⟨[], vars, config, [], 0⟩

theorem Resting.knows (resting : Resting task s) (vars : Vars) (config : MqttConfig) :
    Knows task (View.rest vars config) s :=
  ⟨resting.sound, fun mutex => iff_of_false (resting.free mutex) List.not_mem_nil, nofun, nofun,
    resting.held, resting.copies⟩

theorem Knows.resting {vars : Vars} {config : MqttConfig}
    (knows : Knows task (View.rest vars config) s) : Resting task s :=
  ⟨knows.sound, fun mutex mine => List.not_mem_nil ((knows.mutexes mutex).mp mine), knows.held,
    knows.copies⟩

/-- The task rests at the end. -/
def Rests {α : Type} : α → View → Prop := fun _ w => ∃ vars config, w = View.rest vars config

/-- The runtime mutex is the first in the order. -/
theorem outside_runtime {vars : Vars} {config : MqttConfig} :
    Outside ⟨[.runtime], vars, config, [], 0⟩ := by
  rintro held (_ | ⟨_, ⟨⟩⟩)
  decide

theorem goes_giveRuntime {vars : Vars} {config : MqttConfig}
    (knows : Knows task ⟨[.runtime], vars, config, [], 0⟩ s) :
    Goes task (Learns task Rests) (ask (.give .runtime)) s := by
  refine Guards.mono ?_ (goes_give knows rfl List.not_mem_nil nofun)
  rintro _ t ⟨w, rfl, knows⟩
  exact ⟨_, ⟨vars, config, rfl⟩, knows⟩

theorem goes_workerPass {deviceId : CStr} (work : Work) (resting : Resting task s) :
    Goes task (Learns task Rests) (workerPass deviceId work) s := by
  have knows := resting.knows .empty .zero
  refine goes_takeRuntime knows nofun ?_ ?_
  · intro t config knows
    refine goes_then (returns_perform work knows outside_runtime (List.mem_singleton.mpr rfl)) ?_
    rintro _ w t rfl knows
    exact goes_giveRuntime knows
  · intro t knows
    exact goes_done knows ⟨_, _, rfl⟩

theorem goes_statusPass (resting : Resting task s) :
    Goes task (Learns task Rests) statusPass s := by
  have knows := resting.knows .empty .zero
  refine goes_then (returns_connected knows) ?_
  rintro up w t rfl knows
  cases up with
  | false => exact goes_done knows ⟨_, _, rfl⟩
  | true =>
      refine goes_takeRuntime knows nofun ?_ fun t knows => goes_done knows ⟨_, _, rfl⟩
      intro t config knows
      refine goes_then (returns_replayWatchdog knows outside_runtime) ?_
      rintro _ w t rfl knows
      refine goes_then (returns_replayNextInbound knows outside_runtime) ?_
      rintro _ w t rfl knows
      refine goes_then (returns_publishStatus knows outside_runtime) ?_
      rintro _ w t rfl knows
      exact goes_giveRuntime knows

theorem goes_connectionEvent {client : Client} {connected : Bool} (resting : Resting task s) :
    Goes task (Learns task Rests) (connectionEvent client connected) s := by
  have knows := resting.knows .empty .zero
  refine goes_then (goes_getClient knows) ?_
  rintro active w t ⟨rfl, -⟩ knows
  split
  · refine Guards.mono ?_ (goes_setConnected knows)
    rintro _ t ⟨w, rfl, knows⟩
    exact ⟨_, ⟨_, _, rfl⟩, knows⟩
  · exact goes_done knows ⟨_, _, rfl⟩

/-! The change of the configuration. -/

section

variable {deviceId : CStr} {mutexes : List Mutex} {vars : Vars} {config : MqttConfig}
  {held : List Block} {copies : Nat} {pem : Option Block}

theorem goes_reconfigureFinish {result : Except EspErr Unit}
    (knows : Knows task ⟨[], vars, config, [], 1⟩ s) :
    Goes task (Learns task Rests) (reconfigureFinish result) s := by
  refine goes_then (goes_freeConfigs knows Nat.one_pos) ?_
  rintro _ w t rfl knows
  exact goes_done knows ⟨vars, config, rfl⟩

theorem goes_leave {result : Except EspErr Unit} (consistent : vars.Consistent)
    (knows : Knows task ⟨[.client, .runtime], vars, config, [], 1⟩ s) :
    Goes task (Learns task Rests) (leave result) s := by
  refine goes_then (goes_give knows rfl (by decide) fun _ => consistent) ?_
  rintro _ w t rfl knows
  refine goes_then (goes_give knows rfl List.not_mem_nil nofun) ?_
  rintro _ w t rfl knows
  exact goes_reconfigureFinish knows

/-- The next certificate is freed; no client has it. -/
theorem goes_freeNext {next : Option Block} (knows : Knows task v s) (mine : v.held = next.toList)
    (unused : .client ∈ v.holding → v.vars.clients = []) :
    Goes task (Learns task fun _ w => w = { v with held := [] }) (freeNext next) s := by
  cases next with
  | none =>
      refine goes_done knows ?_
      obtain ⟨_, _, _, _, _⟩ := v
      obtain rfl := mine
      rfl
  | some block =>
      refine goes_freeHeld knows mine ?_
      intro holding
      rw [unused holding]
      nofun

/-- The active certificate is freed, after its client. -/
theorem goes_freeActive (knows : Knows task ⟨mutexes, ⟨none, pem, [], pem.toList⟩, config, held, copies⟩ s)
    (holding : .client ∈ mutexes) :
    Goes task (Learns task fun _ w => w = ⟨mutexes, .empty, config, held, copies⟩) freeActive s := by
  refine goes_then (goes_getActiveCaPem knows holding) ?_
  rintro active w t ⟨rfl, rfl⟩ knows
  cases active with
  | none => exact goes_done knows rfl
  | some block =>
      refine goes_then (goes_freeOwned knows holding (List.mem_singleton.mpr rfl) nofun) ?_
      rintro _ w t rfl knows
      refine Guards.mono ?_ (goes_setActiveCaPem knows holding nofun)
      rintro _ u ⟨w, rfl, knows⟩
      refine ⟨_, ?_, knows⟩
      simp [Vars.empty]

theorem goes_farewell {client : Client} {previous : MqttConfig}
    (knows : Knows task v s) (holding : .client ∈ v.holding)
    (lives : (client, pem) ∈ v.vars.clients) :
    Goes task (Learns task fun _ w => w = v) (farewell deviceId client previous) s := by
  refine goes_then (goes_quiet trivial knows fun _ _ => trivial) ?_
  rintro connected w t rfl knows
  cases connected with
  | false => exact goes_done knows rfl
  | true =>
      refine goes_then (goes_client trivial (fun t lives => lives) knows holding lives) ?_
      rintro _ w t rfl knows
      refine goes_then (goes_client trivial (fun t lives => lives) knows holding lives) ?_
      rintro _ w t rfl knows
      split
      · refine goes_then (goes_client trivial (fun t lives => lives) knows holding lives) ?_
        rintro _ w t rfl knows
        exact goes_done knows rfl
      · exact goes_done knows rfl

/-- A client that is no longer the current one is destroyed. -/
theorem goes_destroyRetired {client : Client} (holding : .client ∈ mutexes)
    (knows : Knows task
      ⟨mutexes, ⟨none, pem, [(client, pem)], pem.toList⟩, config, held, copies⟩ s) :
    Goes task (Learns task fun _ w =>
      w = ⟨mutexes, ⟨none, pem, [], pem.toList⟩, config, held, copies⟩) (ask (.destroy client)) s := by
  have destroyed : [(client, pem)].filter (·.1 ≠ client) = [] := by simp
  refine Guards.mono ?_ (goes_destroy knows holding (List.mem_cons_self ..) nofun)
  rintro _ t ⟨w, rfl, knows⟩
  rw [destroyed] at knows
  exact ⟨_, rfl, knows⟩

theorem goes_retire {previous : MqttConfig} (knows : Knows task ⟨mutexes, vars, config, held, copies⟩ s)
    (holding : .client ∈ mutexes) (consistent : vars.Consistent) :
    Goes task (Learns task fun _ w => w = ⟨mutexes, .empty, config, held, copies⟩)
      (retire deviceId previous) s := by
  refine goes_then (goes_getClient knows) ?_
  rintro old w t ⟨rfl, current⟩ knows
  obtain rfl := current holding
  rcases consistent.cases with rfl | ⟨client, pem, rfl⟩
  · refine goes_then (goes_setClient knows holding) ?_
    rintro _ w t rfl knows
    refine goes_then (goes_setConnected knows) ?_
    rintro _ w t rfl knows
    exact goes_freeActive knows holding
  · refine goes_then (goes_farewell knows holding (List.mem_cons_self ..)) ?_
    rintro _ w t rfl knows
    refine goes_then (goes_setClient knows holding) ?_
    rintro _ w t rfl knows
    refine goes_then (goes_setConnected knows) ?_
    rintro _ w t rfl knows
    refine goes_then (goes_client trivial (fun t lives => lives) knows holding
      (List.mem_cons_self ..)) ?_
    rintro _ w t rfl knows
    refine goes_then (goes_destroyRetired holding knows) ?_
    rintro _ w t rfl knows
    exact goes_freeActive knows holding

theorem goes_installClient {next : Option Block}
    (tls : next ≠ none → gatewayMqttUriIsTls config.brokerUri.text)
    (knows : Knows task ⟨[.client, .runtime], .empty, config, next.toList, 1⟩ s) :
    Goes task (Learns task Rests) (installClient config next) s := by
  have order : ∀ held ∈ [Mutex.client, .runtime], held.rank < Mutex.config.rank := by decide
  refine goes_then (goes_topic knows order) ?_
  rintro availability w t rfl knows
  have certificate : (clientConfig config availability next).certificate = next := by
    cases next with
    | none => exact ite_self none
    | some block => exact if_pos (tls nofun)
  refine goes_then (goes_init knows (by simp) ?_) ?_
  · intro block points
    rw [certificate] at points
    exact Option.mem_toList.mpr points
  · intro created w t learnt knows
    cases created with
    | none =>
        obtain rfl := learnt
        refine goes_then (goes_freeNext knows rfl fun _ => rfl) ?_
        rintro _ w t rfl knows
        exact goes_leave Vars.consistent_empty knows
    | some client =>
        obtain rfl := learnt
        rw [certificate] at knows
        refine goes_then (goes_setActiveCaPem knows (by simp) ?_) ?_
        · exact fun own points => Option.mem_toList.mpr points
        · rintro _ w t rfl knows
          have given : next.toList.filter (fun own => next ≠ some own) = [] := by
            cases next <;> simp
          dsimp only at knows
          rw [given] at knows
          refine goes_then (goes_setClient knows (by simp)) ?_
          rintro _ w t rfl knows
          have knows : Knows task ⟨[.client, .runtime], .serving client next, config, [], 1⟩ t := by
            simpa [Vars.serving, Vars.empty] using knows
          have lives : (client, next) ∈ (Vars.serving client next).clients := List.mem_cons_self ..
          refine goes_then (goes_client trivial (fun t lives => lives) knows (by simp) lives) ?_
          rintro _ w t rfl knows
          refine goes_then (goes_client trivial (fun t lives => lives) knows (by simp) lives) ?_
          rintro started w t rfl knows
          cases started with
          | ok _ => exact goes_leave (Vars.consistent_serving client next) knows
          | error err =>
              refine goes_then (goes_setClient knows (by simp)) ?_
              rintro _ w t rfl knows
              refine goes_then (goes_destroyRetired (by simp) knows) ?_
              rintro _ w t rfl knows
              refine goes_then (goes_freeActive knows (by simp)) ?_
              rintro _ w t rfl knows
              exact goes_leave Vars.consistent_empty knows

theorem goes_replaceClient {next : MqttConfig} {pem : Option Block}
    (tls : pem ≠ none → gatewayMqttUriIsTls next.brokerUri.text)
    (knows : Knows task ⟨[], vars, config, pem.toList, 1⟩ s) :
    Goes task (Learns task Rests) (replaceClient deviceId next pem) s := by
  have finishes {t : State} {vars : Vars} {config : MqttConfig}
      (knows : Knows task ⟨[], vars, config, pem.toList, 1⟩ t) :
      Goes task (Learns task Rests)
        (freeNext pem >>= fun _ => reconfigureFinish (.error .timeout)) t := by
    refine goes_then (goes_freeNext knows rfl nofun) ?_
    rintro _ w t rfl knows
    exact goes_reconfigureFinish knows
  have second : ∀ held ∈ [Mutex.runtime], held.rank < Mutex.client.rank := by decide
  have third : ∀ held ∈ [Mutex.client, .runtime], held.rank < Mutex.config.rank := by decide
  refine goes_takeRuntime knows nofun ?_ fun t knows => finishes knows
  intro t config knows
  refine goes_takeClient knows second ?_ ?_
  · intro t vars consistent knows
    refine goes_takeConfig knows third ?_ ?_
    · intro t knows
      refine goes_then (goes_readConfig knows (.inl (List.mem_cons_self ..))) ?_
      rintro previous w t ⟨rfl, -⟩ knows
      refine goes_then (goes_give knows rfl (config_untaken third) nofun) ?_
      rintro _ w t rfl knows
      refine goes_then (goes_retire knows (List.mem_cons_self ..) consistent) ?_
      rintro _ w t rfl knows
      refine goes_takeConfig knows third ?_ ?_
      · intro t knows
        refine goes_then (goes_writeConfig knows (by simp) (by simp)) ?_
        rintro _ w t rfl knows
        refine goes_then (goes_give knows rfl (config_untaken third) nofun) ?_
        rintro _ w t rfl knows
        refine goes_then (goes_readConfig knows (.inr (by simp))) ?_
        rintro current w t ⟨rfl, same⟩ knows
        obtain rfl : current = next := same (by simp)
        refine goes_then (goes_quiet trivial knows fun _ _ => trivial) ?_
        rintro _ w t rfl knows
        split
        · refine goes_then (goes_freeNext knows rfl fun _ => rfl) ?_
          rintro _ w t rfl knows
          exact goes_leave Vars.consistent_empty knows
        · exact goes_installClient tls knows
      · intro t knows
        refine goes_then (goes_freeNext knows rfl fun _ => rfl) ?_
        rintro _ w t rfl knows
        exact goes_leave Vars.consistent_empty knows
    · intro t knows
      have once : .client ∉ [Mutex.runtime] := by decide
      refine goes_then (goes_give knows rfl once fun _ => consistent) ?_
      rintro _ w t rfl knows
      refine goes_then (goes_give knows rfl List.not_mem_nil nofun) ?_
      rintro _ w t rfl knows
      exact finishes knows
  · intro t knows
    refine goes_then (goes_give knows rfl List.not_mem_nil nofun) ?_
    rintro _ w t rfl knows
    exact finishes knows

theorem goes_mqttServiceReconfigure (resting : Resting task s) :
    Goes task (Learns task Rests) (mqttServiceReconfigure deviceId) s := by
  have knows := resting.knows .empty .zero
  refine goes_then (goes_callocConfigs knows) ?_
  rintro allocated w t rfl knows
  cases allocated with
  | false => exact goes_done knows ⟨_, _, rfl⟩
  | true =>
      refine goes_then (goes_quiet trivial knows fun _ _ => trivial) ?_
      rintro read w t rfl knows
      cases read with
      | error err => exact goes_reconfigureFinish knows
      | ok next =>
          simp only
          split
          · exact goes_reconfigureFinish knows
          · split
            · rename_i wanted
              refine goes_then (goes_duplicate knows) ?_
              intro copy w t learnt knows
              cases copy with
              | none =>
                  obtain rfl := learnt
                  exact goes_reconfigureFinish knows
              | some block =>
                  obtain rfl := learnt
                  exact goes_replaceClient (fun _ => wanted.2.1) knows
            · exact goes_replaceClient (fun given => absurd rfl given) knows

end

end SmsGateway.Mqtt.Runtime
