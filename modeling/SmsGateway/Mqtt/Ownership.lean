import Mathlib.Data.List.Basic
import SmsGateway.Mqtt.Runtime

/-! Who owns the MQTT client, its certificate and the mutexes, in every order of the
tasks. -/

namespace SmsGateway.Mqtt.Runtime

open Lib Prog Settings Relation

/-- There is the current client only, and it has the active certificate. -/
structure Vars.Consistent (v : Vars) : Prop where
  clients : v.clients = v.client.toList.map fun client => (client, v.activeCaPem)
  owned : v.owned = v.activeCaPem.toList
  nothing : v.client = none → v.activeCaPem = none

def Vars.empty : Vars := ⟨none, none, [], []⟩

/-- The variables with this client and this certificate. -/
def Vars.serving (client : Client) (pem : Option Block) : Vars :=
  ⟨some client, pem, [(client, pem)], pem.toList⟩

theorem Vars.consistent_empty : Vars.empty.Consistent := ⟨rfl, rfl, fun _ => rfl⟩

theorem Vars.consistent_serving (client : Client) (pem : Option Block) :
    (Vars.serving client pem).Consistent := ⟨rfl, rfl, nofun⟩

theorem Vars.Consistent.cases {v : Vars} (consistent : v.Consistent) :
    v = .empty ∨ ∃ client pem, v = .serving client pem := by
  obtain ⟨client, pem, clients, owned⟩ := v
  obtain ⟨known, mine, nothing⟩ := consistent
  dsimp only at known mine nothing
  subst known mine
  cases client with
  | none =>
      obtain rfl : pem = none := nothing rfl
      exact .inl rfl
  | some client => exact .inr ⟨client, pem, rfl⟩

/-- A block has one owner, the certificates of the clients belong to `s_active_ca_pem` or
to the holder of the client mutex, and between two holders all is consistent. -/
structure State.Sound (s : State) : Prop where
  apart : ∀ task other, task ≠ other → ∀ block ∈ s.held task, block ∉ s.held other
  away : ∀ task, ∀ block ∈ s.held task, block ∉ s.vars.owned
  alive : ∀ entry ∈ s.vars.clients, ∀ block, entry.2 = some block → block ∈ s.vars.owned ∨
    ∃ task, s.holder .client = some task ∧ block ∈ s.held task
  settled : s.holder .client = none → s.vars.Consistent
  heap : ∀ block, block ∈ s.heap ↔ block ∈ s.vars.owned ∨ ∃ task, block ∈ s.held task

/-- The client exists. -/
def State.Live (s : State) (client : Client) : Prop := ∃ pem, (client, pem) ∈ s.vars.clients

/-- The topic of a command. -/
def commandTopic (config : MqttConfig) : MqttCommandKind → CStr
  | .none => .empty
  | .smsSend => printTopic config.baseTopic.text (.text "sms/send")
  | .nativeNotify => printTopic config.baseTopic.text (.text "ha/notify")
  | .modemRestart => printTopic config.baseTopic.text (.text "modem/restart")
  | .systemReboot => printTopic config.baseTopic.text (.text "system/reboot")
  | .haStatus => printTopic config.discoveryPrefix.text (.text "status")

/-- The work is for this command in the configuration. The topic to compare with is empty
when the mutex of the configuration was not free. -/
def Commands (config : MqttConfig) (kind : MqttCommandKind) (work : DataWork) : Prop :=
  (CStr.ofBytes work.topic ≠ .empty → CStr.ofBytes work.topic = commandTopic config kind) ∧
    mqttCommandAllowed kind work.retained (.ofBytes work.payload) = true

/-- What a call of a task needs. -/
def Needs (task : Task) (s : State) : RuntimeCall → Prop
  | .freeConfigs => 0 < s.copies task
  | .free block =>
      (block ∈ s.held task ∨ s.holder .client = some task ∧ block ∈ s.vars.owned) ∧
        ∀ entry ∈ s.vars.clients, entry.2 ≠ some block
  | .take mutex => ∀ other, s.holder other = some task → other.rank < mutex.rank
  | .give mutex => s.holder mutex = some task ∧ (mutex = .client → s.vars.Consistent)
  | .readConfig => s.holder .config = some task ∨ s.holder .runtime = some task
  | .writeConfig _ => s.holder .config = some task ∧ s.holder .runtime = some task
  | .setClient _ | .getActiveCaPem => s.holder .client = some task
  | .setActiveCaPem block =>
      s.holder .client = some task ∧ ∀ own, block = some own → own ∈ s.held task
  | .publish client _ _ _ _ | .subscribe client _ _ | .stop client | .registerEvent client
  | .start client => s.holder .client = some task ∧ s.Live client
  | .destroy client =>
      s.holder .client = some task ∧ s.Live client ∧ s.vars.client ≠ some client
  | .init config =>
      s.holder .client = some task ∧ ∀ block, config.certificate = some block → block ∈ s.held task
  | .dispatch kind work => s.holder .runtime = some task ∧ Commands s.config kind work
  | .callocConfigs | .getMqtt | .duplicate _ | .getClient | .connected | .setConnected _
  | .setReplayProtection _ | .inquire _ | .printUnformatted => True

def Allowed (task : Task) (s : State) (request : RuntimeCall) : Prop :=
  s.Sound ∧ Needs task s request

/-- What a task sees of the steps of the others. -/
structure State.Beside (task : Task) (s t : State) : Prop where
  sound : s.Sound → t.Sound
  mutex : ∀ mutex, t.holder mutex = some task ↔ s.holder mutex = some task
  vars : s.holder .client = some task → t.vars = s.vars
  config : s.holder .runtime = some task → t.config = s.config
  held : t.held task = s.held task
  copies : t.copies task = s.copies task

/-- Between the programs of a task. -/
structure Resting (task : Task) (s : State) : Prop where
  sound : s.Sound
  free : ∀ mutex, s.holder mutex ≠ some task
  held : s.held task = []
  copies : s.copies task = 0

def contract : Contract Task State RuntimeCall := ⟨State.Beside, Allowed, Resting⟩

variable {s t : State} {task other : Task}

theorem State.Sound.congr (sound : s.Sound) (vars : t.vars = s.vars) (held : t.held = s.held)
    (holder : t.holder .client = s.holder .client) (heap : t.heap = s.heap) : t.Sound := by
  obtain ⟨apart, away, alive, settled, allocated⟩ := sound
  refine ⟨?_, ?_, ?_, ?_, ?_⟩
  · rw [held]
    exact apart
  · rw [held, vars]
    exact away
  · rw [held, vars, holder]
    exact alive
  · rw [vars, holder]
    exact settled
  · rw [heap, held, vars]
    exact allocated

/-- Between two holders every certificate belongs to `s_active_ca_pem`. -/
theorem Vars.Consistent.alive {v : Vars} (consistent : v.Consistent) :
    ∀ entry ∈ v.clients, ∀ block, entry.2 = some block → block ∈ v.owned := by
  intro entry member block points
  rw [consistent.clients] at member
  obtain ⟨client, -, rfl⟩ := List.mem_map.mp member
  rw [consistent.owned, Option.mem_toList]
  exact points

theorem State.Sound.take (sound : s.Sound) {mutex : Mutex} (free : s.holder mutex = none) :
    ({ s with holder := Function.update s.holder mutex (some task) } : State).Sound := by
  by_cases same : mutex = .client
  · subst same
    have consistent := sound.settled free
    refine ⟨sound.apart, sound.away, ?_, by simp, sound.heap⟩
    exact fun entry member block points => .inl (consistent.alive entry member block points)
  · exact sound.congr rfl rfl (Function.update_of_ne (Ne.symm same) _ _) rfl

theorem State.Sound.give (sound : s.Sound) {mutex : Mutex}
    (consistent : mutex = .client → s.vars.Consistent) :
    ({ s with holder := Function.update s.holder mutex none } : State).Sound := by
  by_cases same : mutex = .client
  · have settled := consistent same
    refine ⟨sound.apart, sound.away, ?_, fun _ => settled, sound.heap⟩
    exact fun entry member block points => .inl (settled.alive entry member block points)
  · exact sound.congr rfl rfl (Function.update_of_ne (Ne.symm same) _ _) rfl

theorem State.Sound.duplicate (sound : s.Sound) {block : Block} (fresh : block ∉ s.heap) :
    ({ s with
      heap := block :: s.heap
      held := Function.update s.held task (block :: s.held task) } : State).Sound := by
  have unheld (other : Task) : block ∉ s.held other :=
    fun held => fresh ((sound.heap block).mpr (.inr ⟨other, held⟩))
  have unowned : block ∉ s.vars.owned := fun owned => fresh ((sound.heap block).mpr (.inl owned))
  have holds (other : Task) (b : Block) : b ∈ Function.update s.held task (block :: s.held task) other ↔
      b ∈ s.held other ∨ other = task ∧ b = block := by
    by_cases same : other = task
    · subst same
      simp [or_comm]
    · simp [same]
  refine ⟨?_, ?_, ?_, sound.settled, ?_⟩
  · intro a b different x mine theirs
    rw [holds] at mine theirs
    rcases mine with mine | ⟨rfl, rfl⟩
    · rcases theirs with theirs | ⟨rfl, rfl⟩
      · exact sound.apart a b different x mine theirs
      · exact unheld a mine
    · rcases theirs with theirs | ⟨rfl, -⟩
      · exact unheld b theirs
      · exact different rfl
  · intro a x mine
    rcases (holds a x).mp mine with mine | ⟨-, rfl⟩
    · exact sound.away a x mine
    · exact unowned
  · intro entry member x points
    exact (sound.alive entry member x points).imp_right fun ⟨a, holding, held⟩ =>
      ⟨a, holding, (holds a x).mpr (.inl held)⟩
  · intro x
    have known := sound.heap x
    simp only [List.mem_cons, holds]
    constructor
    · rintro (rfl | allocated)
      · exact .inr ⟨task, .inr ⟨rfl, rfl⟩⟩
      · exact (known.mp allocated).imp_right fun ⟨a, held⟩ => ⟨a, .inl held⟩
    · rintro (owned | ⟨a, held | ⟨-, rfl⟩⟩)
      · exact .inr (known.mpr (.inl owned))
      · exact .inr (known.mpr (.inr ⟨a, held⟩))
      · exact .inl rfl

/-- A block that is not there is freed. -/
theorem filter_unaffected {block : Block} {blocks : List Block} (absent : block ∉ blocks) :
    blocks.filter (· ≠ block) = blocks := by
  apply List.filter_eq_self.mpr
  intro x member
  have stays : x ≠ block := fun same => absent (same ▸ member)
  simpa using stays

theorem State.Sound.free (sound : s.Sound) {block : Block}
    (unused : ∀ entry ∈ s.vars.clients, entry.2 ≠ some block)
    (kept : s.holder .client = none → block ∉ s.vars.owned) :
    ({ s with
      heap := s.heap.filter (· ≠ block)
      vars := { s.vars with owned := s.vars.owned.filter (· ≠ block) }
      held := fun other => (s.held other).filter (· ≠ block) } : State).Sound := by
  have other {blocks : List Block} {x : Block} (member : x ∈ blocks.filter (· ≠ block)) :
      x ∈ blocks := List.mem_of_mem_filter member
  refine ⟨?_, ?_, ?_, ?_, ?_⟩
  · intro a b different x mine theirs
    exact sound.apart a b different x (other mine) (other theirs)
  · intro a x mine owned
    exact sound.away a x (other mine) (other owned)
  · intro entry member x points
    have stays : x ≠ block := by
      rintro rfl
      exact unused entry member points
    rcases sound.alive entry member x points with owned | ⟨a, holding, held⟩
    · exact .inl (List.mem_filter.mpr ⟨owned, by simpa using stays⟩)
    · exact .inr ⟨a, holding, List.mem_filter.mpr ⟨held, by simpa using stays⟩⟩
  · intro free
    obtain ⟨clients, owned, nothing⟩ := sound.settled free
    refine ⟨clients, ?_, nothing⟩
    calc
      s.vars.owned.filter (· ≠ block) = s.vars.owned := filter_unaffected (kept free)
      _ = s.vars.activeCaPem.toList := owned
  · intro x
    simp only [List.mem_filter, sound.heap x, ← exists_and_right, or_and_right]

theorem State.Sound.setActiveCaPem (sound : s.Sound) {block : Option Block}
    (mine : ∀ own, block = some own → own ∈ s.held task) (taken : s.holder .client ≠ none) :
    ({ s with
      vars := { s.vars with activeCaPem := block, owned := block.toList ++ s.vars.owned }
      held := Function.update s.held task ((s.held task).filter fun own => block ≠ some own) } :
        State).Sound := by
  have holds (a : Task) (x : Block) :
      x ∈ Function.update s.held task ((s.held task).filter fun own => block ≠ some own) a ↔
        x ∈ s.held a ∧ (a = task → block ≠ some x) := by
    by_cases same : a = task
    · subst same
      simp
    · simp [same]
  refine ⟨?_, ?_, ?_, fun free => absurd free taken, ?_⟩
  · intro a b different x mine theirs
    exact sound.apart a b different x ((holds a x).mp mine).1 ((holds b x).mp theirs).1
  · intro a x held owned
    obtain ⟨before, kept⟩ := (holds a x).mp held
    rcases List.mem_append.mp owned with moved | owned
    · -- The block came from this task, so no other task held it.
      have points : block = some x := by simpa using moved
      by_cases same : a = task
      · exact kept same points
      · exact sound.apart a task same x before (mine x points)
    · exact sound.away a x before owned
  · intro entry member x points
    rcases sound.alive entry member x points with owned | ⟨a, holding, held⟩
    · exact .inl (List.mem_append_right _ owned)
    · by_cases moved : block = some x
      · exact .inl (List.mem_append_left _ (by simp [moved]))
      · exact .inr ⟨a, holding, (holds a x).mpr ⟨held, fun _ => moved⟩⟩
  · intro x
    simp only [sound.heap x, holds, List.mem_append, Option.mem_toList]
    constructor
    · rintro (owned | ⟨a, held⟩)
      · exact .inl (.inr owned)
      · by_cases moved : block = some x
        · exact .inl (.inl moved)
        · exact .inr ⟨a, held, fun _ => moved⟩
    · rintro ((moved | owned) | ⟨a, held, -⟩)
      · exact .inr ⟨task, mine x moved⟩
      · exact .inl owned
      · exact .inr ⟨a, held⟩

/-- A call keeps one owner for every block, and the clients' certificates. -/
theorem call_sound {request : RuntimeCall} {reply : request.Reply} (allowed : Allowed task s request)
    (answers : request.Answers task s reply t) : t.Sound := by
  obtain ⟨sound, needs⟩ := allowed
  have unsettled (holding : s.holder .client = some task) {p : Prop} :
      s.holder .client = none → p := by
    intro free
    rw [free] at holding
    cases holding
  cases request with
  | getMqtt | publish | subscribe | stop | registerEvent | start | setReplayProtection | inquire
  | printUnformatted | dispatch =>
      obtain rfl : t = s := answers
      exact sound
  | readConfig | getClient | connected | getActiveCaPem =>
      obtain ⟨-, rfl⟩ := answers
      exact sound
  | freeConfigs | writeConfig | setConnected =>
      obtain rfl : t = _ := answers
      exact sound.congr rfl rfl rfl rfl
  | callocConfigs =>
      obtain rfl : t = _ := answers
      split
      · exact sound.congr rfl rfl rfl rfl
      · exact sound
  | take mutex =>
      simp only [RuntimeCall.Answers] at answers
      split at answers
      · obtain ⟨free, rfl⟩ := answers
        exact sound.take free
      · obtain rfl : t = s := answers
        exact sound
  | give mutex =>
      obtain rfl : t = _ := answers
      exact sound.give needs.2
  | duplicate pem =>
      cases reply with
      | none =>
          obtain rfl : t = s := answers
          exact sound
      | some block =>
          obtain ⟨fresh, rfl⟩ := answers
          exact sound.duplicate fresh
  | free block =>
      obtain rfl : t = _ := answers
      refine sound.free needs.2 ?_
      intro free owned
      rcases needs.1 with held | ⟨holding, -⟩
      · exact sound.away task block held owned
      · exact unsettled holding free
  | setClient client =>
      obtain rfl : t = _ := answers
      exact ⟨sound.apart, sound.away, sound.alive, unsettled needs, sound.heap⟩
  | setActiveCaPem block =>
      obtain rfl : t = _ := answers
      exact sound.setActiveCaPem needs.2 (unsettled needs.1)
  | destroy client =>
      obtain rfl : t = _ := answers
      refine ⟨sound.apart, sound.away, ?_, unsettled needs.1, sound.heap⟩
      intro entry member
      exact sound.alive entry (List.mem_of_mem_filter member)
  | init config =>
      cases reply with
      | none =>
          obtain rfl : t = s := answers
          exact sound
      | some client =>
          obtain ⟨-, rfl⟩ := answers
          refine ⟨sound.apart, sound.away, ?_, unsettled needs.1, sound.heap⟩
          intro entry member
          rcases List.mem_cons.mp member with rfl | old
          · exact fun block points => .inr ⟨task, needs.1, needs.2 block points⟩
          · exact sound.alive entry old

theorem State.Beside.refl (sound : s.Sound) : s.Beside task s :=
  ⟨fun _ => sound, fun _ => .rfl, fun _ => rfl, fun _ => rfl, rfl, rfl⟩

/-- What another task sees of an allowed call. -/
theorem call_beside {request : RuntimeCall} {reply : request.Reply} (different : other ≠ task)
    (allowed : Allowed task s request) (answers : request.Answers task s reply t) :
    s.Beside other t := by
  have sound := call_sound allowed answers
  obtain ⟨before, needs⟩ := allowed
  -- What only the holder of the client mutex changes.
  have alone (mutex : Mutex) (holding : s.holder mutex = some task) {p : Prop} :
      s.holder mutex = some other → p := by
    intro theirs
    rw [holding] at theirs
    exact absurd (Option.some.inj theirs).symm different
  cases request with
  | getMqtt | publish | subscribe | stop | registerEvent | start | setReplayProtection | inquire
  | printUnformatted | dispatch =>
      obtain rfl : t = s := answers
      exact .refl sound
  | readConfig | getClient | connected | getActiveCaPem =>
      obtain ⟨-, rfl⟩ := answers
      exact .refl sound
  | freeConfigs =>
      obtain rfl : t = _ := answers
      exact ⟨fun _ => sound, fun _ => .rfl, fun _ => rfl, fun _ => rfl, rfl,
        Function.update_of_ne different _ _⟩
  | callocConfigs =>
      obtain rfl : t = _ := answers
      split
      · refine ⟨fun _ => ?_, fun _ => .rfl, fun _ => rfl, fun _ => rfl, rfl,
          Function.update_of_ne different _ _⟩
        exact before.congr rfl rfl rfl rfl
      · exact .refl before
  | setConnected =>
      obtain rfl : t = _ := answers
      exact ⟨fun _ => sound, fun _ => .rfl, fun _ => rfl, fun _ => rfl, rfl, rfl⟩
  | writeConfig =>
      obtain rfl : t = _ := answers
      exact ⟨fun _ => sound, fun _ => .rfl, fun _ => rfl, alone .runtime needs.2, rfl, rfl⟩
  | take mutex =>
      simp only [RuntimeCall.Answers] at answers
      split at answers
      · obtain ⟨free, rfl⟩ := answers
        refine ⟨fun _ => sound, ?_, fun _ => rfl, fun _ => rfl, rfl, rfl⟩
        intro held
        by_cases same : held = mutex
        · subst same
          simp [free, different.symm]
        · simp [same]
      · obtain rfl : t = s := answers
        exact .refl sound
  | give mutex =>
      obtain rfl : t = _ := answers
      refine ⟨fun _ => sound, ?_, fun _ => rfl, fun _ => rfl, rfl, rfl⟩
      intro held
      by_cases same : held = mutex
      · subst same
        simp [needs.1, different.symm]
      · simp [same]
  | duplicate pem =>
      cases reply with
      | none =>
          obtain rfl : t = s := answers
          exact .refl sound
      | some block =>
          obtain ⟨-, rfl⟩ := answers
          exact ⟨fun _ => sound, fun _ => .rfl, fun _ => rfl, fun _ => rfl,
            Function.update_of_ne different _ _, rfl⟩
  | free block =>
      obtain rfl : t = _ := answers
      have unheld : block ∉ s.held other := by
        rcases needs.1 with held | ⟨-, owned⟩
        · exact before.apart task other different.symm block held
        · exact fun theirs => before.away other block theirs owned
      refine ⟨fun _ => sound, fun _ => .rfl, ?_, fun _ => rfl, filter_unaffected unheld, rfl⟩
      intro theirs
      rcases needs.1 with held | ⟨holding, -⟩
      · simp only [filter_unaffected (before.away task block held)]
      · exact alone .client holding theirs
  | setActiveCaPem block =>
      obtain rfl : t = _ := answers
      exact ⟨fun _ => sound, fun _ => .rfl, alone .client needs.1, fun _ => rfl,
        Function.update_of_ne different _ _, rfl⟩
  | setClient client =>
      obtain rfl : t = _ := answers
      exact ⟨fun _ => sound, fun _ => .rfl, alone .client needs, fun _ => rfl, rfl, rfl⟩
  | destroy client =>
      obtain rfl : t = _ := answers
      exact ⟨fun _ => sound, fun _ => .rfl, alone .client needs.1, fun _ => rfl, rfl, rfl⟩
  | init config =>
      cases reply with
      | none =>
          obtain rfl : t = s := answers
          exact .refl sound
      | some client =>
          obtain ⟨-, rfl⟩ := answers
          exact ⟨fun _ => sound, fun _ => .rfl, alone .client needs.1, fun _ => rfl, rfl, rfl⟩

end SmsGateway.Mqtt.Runtime
