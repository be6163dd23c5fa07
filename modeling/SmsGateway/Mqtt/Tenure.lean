import SmsGateway.Mqtt.Lifetimes

/-! The runs of the MQTT service: a client is called only while it exists, a certificate
is freed once and after its client, nothing stays behind when the tasks rest, and no
tasks wait for each other in a circle. -/

namespace SmsGateway.Mqtt.Runtime

open Lib Prog Settings

variable {s t : State} {task : Task}

theorem learns_rests {α : Type} {value : α} (learns : Learns task Rests value s) : Resting task s := by
  obtain ⟨_, ⟨vars, config, rfl⟩, knows⟩ := learns
  exact knows.resting

theorem goes_starts {deviceId : CStr} {program : RuntimeM Unit} (starts : Starts deviceId task program)
    (resting : Resting task s) : Goes task (fun _ => Resting task) program s := by
  cases starts with
  | worker work => exact Guards.mono (fun _ _ => learns_rests) (goes_workerPass work resting)
  | status => exact Guards.mono (fun _ _ => learns_rests) (goes_statusPass resting)
  | event client connected => exact Guards.mono (fun _ _ => learns_rests) (goes_connectionEvent resting)
  | reconfigure =>
      refine Guards.bind (Guards.mono ?_ (goes_mqttServiceReconfigure resting))
      rintro _ t ⟨w, ⟨vars, config, rfl⟩, knows⟩
      exact Guards.mono (fun _ _ => learns_rests) (goes_done knows ⟨vars, config, rfl⟩)

theorem contract_kept (deviceId : CStr) : contract.Kept (rules deviceId) := by
  constructor
  · intro task other s request reply t different allowed answers
    exact call_beside different allowed answers
  · intro task program s starts resting
    exact goes_starts starts resting

theorem resting_initial (task : Task) : Resting task State.initial := by
  refine ⟨⟨?_, ?_, nofun, fun _ => Vars.consistent_empty, ?_⟩, nofun, rfl, rfl⟩
  · exact fun _ _ _ _ member => absurd member List.not_mem_nil
  · exact fun _ _ member => absurd member List.not_mem_nil
  · simp [State.initial]

theorem reached_holds {deviceId : CStr} {g : System} (reached : Reached deviceId g) :
    contract.Holds (rules deviceId) g := by
  refine (contract_kept deviceId).reached resting_initial ?_ reached
  intro task s t resting beside
  have knows := stable_knows s t (resting.knows .empty .zero) beside
  exact knows.resting

theorem holds_sound {deviceId : CStr} {g : System} (holds : contract.Holds (rules deviceId) g) :
    g.state.Sound := by
  cases rest : g.rest 0 with
  | done _ => exact (holds.idle rest).sound
  | call request next => exact (holds.allowed rest).1

/-! A broker with a certificate of its own. -/

def ownCertificate : MqttConfig :=
  { MqttConfig.zero with
    enabled := true
    brokerUri := .print (.text "mqtts://broker")
    baseTopic := .print (.text "gateway")
    discoveryPrefix := .print (.text "homeassistant")
    caPem := .print (.text "-----BEGIN CERTIFICATE-----") }

abbrev Schedule := List (Crew.Move Task RuntimeCall RuntimeCall.Reply)

/-- A task starts a program and makes some calls of it. -/
def turn (task : Task) (program : RuntimeM Unit) (calls choice : Nat) : Schedule :=
  .start task program :: List.replicate calls (.call task choice)

/-- A change of the configuration. -/
def change (deviceId : CStr) : RuntimeM Unit := mqttServiceReconfigure deviceId >>= fun _ => pure ()

def played (config : MqttConfig) (schedule : Schedule) : Option System :=
  Crew.play (RuntimeCall.answer config) schedule ⟨State.initial, fun _ => .done ()⟩

theorem startable_turn {deviceId : CStr} {program : RuntimeM Unit} {calls choice : Nat}
    (starts : Starts deviceId task program) :
    ∀ move ∈ turn task program calls choice, Crew.Startable (rules deviceId) move := by
  intro move member
  rcases List.mem_cons.mp member with rfl | member
  · exact starts
  · rw [List.eq_of_mem_replicate member]
    trivial

theorem startable_change {deviceId : CStr} {calls choice : Nat} :
    ∀ move ∈ turn task (change deviceId) calls choice, Crew.Startable (rules deviceId) move :=
  startable_turn (.reconfigure task)

/-- The client that a call is made on. -/
def RuntimeCall.usedClient : RuntimeCall → Option Client
  | .publish client _ _ _ _ | .subscribe client _ _ | .stop client | .destroy client
  | .registerEvent client | .start client => some client
  | _ => none

theorem Needs.lives {request : RuntimeCall} {client : Client} (needs : Needs task s request)
    (used : request.usedClient = some client) : s.Live client := by
  cases request with
  | publish | subscribe | stop | registerEvent | start =>
      cases used
      exact needs.2
  | destroy =>
      cases used
      exact needs.2.1
  | _ => cases used

/-- In every order of the tasks a client is called only while it exists, and in every
state that they reach the certificate that a client points to is allocated. -/
theorem client_called_while_live {deviceId : CStr} {g : System} (reached : Reached deviceId g) :
    (∀ task request next client, g.rest task = .call request next →
      request.usedClient = some client → g.state.Live client) ∧
      ∀ entry ∈ g.state.vars.clients, ∀ block, entry.2 = some block → block ∈ g.state.heap := by
  have holds := reached_holds reached
  constructor
  · intro task request next client pending used
    obtain ⟨-, needs⟩ : Allowed task g.state request := holds.allowed pending
    exact needs.lives used
  · intro entry member block points
    have sound := holds_sound holds
    apply (sound.heap block).mpr
    exact (sound.alive entry member block points).imp_right fun ⟨holder, _, held⟩ => ⟨holder, held⟩

def System.startsClient (g : System) : Bool :=
  match g.rest 0 with
  | .call (.start client) _ => client = 7
  | _ => false

theorem client_called_while_live_start : ∃ g next, Reached .empty g ∧
    g.rest 0 = .call (.start 7) next ∧ g.state.Live 7 ∧
      ∀ entry ∈ g.state.vars.clients, ∀ block, entry.2 = some block → block ∈ g.state.heap := by
  have run : (played ownCertificate (turn 0 (change .empty) 24 7)).map System.startsClient =
      some true := by decide +kernel
  obtain ⟨g, run, starts⟩ := Option.map_eq_some_iff.mp run
  have reached : Reached .empty g := reached_of_play .empty startable_change run
  simp only [System.startsClient] at starts
  split at starts
  · rename_i client next pending
    obtain rfl := of_decide_eq_true starts
    obtain ⟨lives, certificates⟩ := client_called_while_live reached
    exact ⟨g, next, reached, pending, lives 0 _ next 7 pending rfl, certificates⟩
  · cases starts

/-- A certificate is freed only while it is allocated, and no client points to it then. -/
theorem certificate_freed_once {deviceId : CStr} {g : System} (reached : Reached deviceId g)
    {block : Block} {next : Unit → RuntimeM Unit} (pending : g.rest task = .call (.free block) next) :
    block ∈ g.state.heap ∧ ∀ entry ∈ g.state.vars.clients, entry.2 ≠ some block := by
  obtain ⟨sound, mine, unused⟩ : Allowed task g.state (.free block) :=
    (reached_holds reached).allowed pending
  refine ⟨(sound.heap block).mpr ?_, unused⟩
  rcases mine with held | ⟨-, owned⟩
  · exact .inr ⟨task, held⟩
  · exact .inl owned

def System.frees (g : System) : Bool :=
  match g.rest 0 with
  | .call (.free block) _ => block = 7
  | _ => false

/-- The second change of the configuration frees the certificate of the first. -/
theorem certificate_freed_once_second : ∃ g next, Reached .empty g ∧
    g.rest 0 = .call (.free 7) next ∧
      7 ∈ g.state.heap ∧ ∀ entry ∈ g.state.vars.clients, entry.2 ≠ some 7 := by
  have run : (played ownCertificate
      (turn 0 (change .empty) 28 7 ++ turn 0 (change .empty) 15 8)).map System.frees = some true := by
    decide +kernel
  obtain ⟨g, run, frees⟩ := Option.map_eq_some_iff.mp run
  have reached : Reached .empty g := by
    refine reached_of_play .empty ?_ run
    intro move member
    exact (List.mem_append.mp member).elim (startable_change move) (startable_change move)
  simp only [System.frees] at frees
  split at frees
  · rename_i block next pending
    obtain rfl := of_decide_eq_true frees
    exact ⟨g, next, reached, pending, certificate_freed_once reached pending⟩
  · cases frees

/-- When no task is at work, every mutex and every copy of a configuration is given
back, and what is left is the current client with its certificate. -/
theorem nothing_left_behind {deviceId : CStr} {g : System} (reached : Reached deviceId g)
    (rest : ∀ task, g.rest task = .done ()) :
    (∀ mutex, g.state.holder mutex = none) ∧ (∀ task, g.state.copies task = 0) ∧
      g.state.vars.clients =
        g.state.vars.client.toList.map (fun client => (client, g.state.vars.activeCaPem)) ∧
      ∀ block, block ∈ g.state.heap ↔ g.state.vars.activeCaPem = some block := by
  have resting (task : Task) : Resting task g.state := (reached_holds reached).idle (rest task)
  have free (mutex : Mutex) : g.state.holder mutex = none := by
    rw [Option.eq_none_iff_forall_ne_some]
    exact fun task => (resting task).free mutex
  have sound := (resting 0).sound
  obtain ⟨clients, owned, -⟩ := sound.settled (free .client)
  refine ⟨free, fun task => (resting task).copies, clients, ?_⟩
  intro block
  have unheld : ¬∃ task, block ∈ g.state.held task := by
    rintro ⟨task, held⟩
    rw [(resting task).held] at held
    exact List.not_mem_nil held
  rw [sound.heap block, owned, Option.mem_toList]
  exact or_iff_left unheld

def System.finished (g : System) : Bool :=
  match g.rest 0 with
  | .done _ => g.state.vars.client = some 7 ∧ g.state.vars.activeCaPem = some 7
  | .call _ _ => false

theorem nothing_left_behind_change : ∃ g, Reached .empty g ∧ g.state.vars.client = some 7 ∧
    g.state.vars.clients = [(7, some 7)] ∧ ∀ block, block ∈ g.state.heap ↔ some 7 = some block := by
  have run : (played ownCertificate (turn 0 (change .empty) 28 7)).map System.finished =
      some true := by decide +kernel
  obtain ⟨g, run, finished⟩ := Option.map_eq_some_iff.mp run
  have reached : Reached .empty g := reached_of_play .empty startable_change run
  simp only [System.finished] at finished
  split at finished
  · rename_i rests
    obtain ⟨client, pem⟩ := of_decide_eq_true finished
    have rest (task : Task) : g.rest task = .done () := by
      by_cases first : 0 = task
      · exact first ▸ rests
      · apply Crew.play_other _ run
        intro move member
        rcases List.mem_cons.mp member with rfl | member
        · exact first
        · rw [List.eq_of_mem_replicate member]
          exact first
    obtain ⟨-, -, clients, heap⟩ := nothing_left_behind reached rest
    rw [pem] at clients heap
    rw [client] at clients
    exact ⟨g, reached, client, clients, heap⟩
  · cases finished

/-- A task waits for a mutex that another one has. -/
def WaitsFor (g : System) (task other : Task) : Prop :=
  ∃ mutex next, g.rest task = .call (.take mutex) next ∧ g.state.holder mutex = some other

/-- In a chain of tasks that wait for each other, the ranks of the mutexes grow. -/
theorem waits_ranks {deviceId : CStr} {g : System} (reached : Reached deviceId g) {first last : Task}
    (waits : Relation.TransGen (WaitsFor g) first last) {mutex : Mutex}
    {next : Bool → RuntimeM Unit} (pending : g.rest first = .call (.take mutex) next) :
    ∃ held, g.state.holder held = some last ∧ mutex.rank ≤ held.rank := by
  induction waits with
  | single waits =>
      obtain ⟨wanted, _, same, holder⟩ := waits
      rw [pending] at same
      cases same
      exact ⟨mutex, holder, le_rfl⟩
  | tail _ waits ih =>
      obtain ⟨held, holder, below⟩ := ih
      obtain ⟨wanted, after, takes, theirs⟩ := waits
      obtain ⟨-, order⟩ := (reached_holds reached).allowed takes
      exact ⟨wanted, theirs, below.trans (order held holder).le⟩

/-- No tasks wait for each other in a circle. -/
theorem waits_acyclic {deviceId : CStr} {g : System} (reached : Reached deviceId g) (task : Task) :
    ¬Relation.TransGen (WaitsFor g) task task := by
  intro waits
  obtain ⟨between, ⟨mutex, next, pending, _⟩, _⟩ := Relation.TransGen.head'_iff.mp waits
  obtain ⟨held, holder, below⟩ := waits_ranks reached waits pending
  obtain ⟨-, order⟩ := (reached_holds reached).allowed pending
  exact absurd (order held holder) (not_lt.mpr below)

/-- The worker wants the mutex that a change of the configuration has. -/
def System.collides (g : System) : Bool :=
  match g.rest 1 with
  | .call (.take mutex) _ => g.state.holder mutex = some 0
  | _ => false

theorem waits_acyclic_worker : ∃ g, Reached .empty g ∧ WaitsFor g 1 0 ∧
    ¬Relation.TransGen (WaitsFor g) 1 1 := by
  have run : (played ownCertificate (turn 0 (change .empty) 10 7 ++
      turn 1 (workerPass .empty .replay) 0 7)).map System.collides =
      some true := by decide +kernel
  obtain ⟨g, run, collides⟩ := Option.map_eq_some_iff.mp run
  have reached : Reached .empty g := by
    refine reached_of_play .empty ?_ run
    intro move member
    exact (List.mem_append.mp member).elim (startable_change move)
      (startable_turn (.worker 1 .replay) move)
  simp only [System.collides] at collides
  split at collides
  · rename_i mutex next pending
    have waits : WaitsFor g 1 0 := ⟨mutex, next, pending, of_decide_eq_true collides⟩
    exact ⟨g, reached, waits, waits_acyclic reached 1⟩
  · cases collides

end SmsGateway.Mqtt.Runtime
