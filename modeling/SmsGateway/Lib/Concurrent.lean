import Mathlib.Logic.Function.Basic
import Mathlib.Logic.Relation
import SmsGateway.Lib.Program

/-! Tasks that run operations side by side, one call at a time.

An operation first asks, then writes at most once. As long as what it was told
still holds when it writes, the run is one in which the operations take turns. -/

namespace SmsGateway.Lib

variable {Call : Type} {Reply : Call → Type} {α σ Op Task : Type}

/-- The operations a task has before it, the one it is running, and those that
returned. -/
structure Lane (Call : Type) (Reply : Call → Type) (α Op : Type) where
  waiting : List Op
  current : Option (Op × Prog Call Reply α)
  returned : List (Op × α)

structure Pool (Call : Type) (Reply : Call → Type) (α σ Op Task : Type) where
  state : σ
  lanes : Task → Lane Call Reply α Op

namespace Pool

variable [DecidableEq Task]

/-- The pool with this state and this lane for the task. -/
def move (g : Pool Call Reply α σ Op Task) (task : Task) (s : σ) (lane : Lane Call Reply α Op) :
    Pool Call Reply α σ Op Task :=
  ⟨s, Function.update g.lanes task lane⟩

@[simp] theorem move_state (g : Pool Call Reply α σ Op Task) (task : Task) (s : σ)
    (lane : Lane Call Reply α Op) : (g.move task s lane).state = s := rfl

theorem move_lanes (g : Pool Call Reply α σ Op Task) (task other : Task) (s : σ)
    (lane : Lane Call Reply α Op) :
    (g.move task s lane).lanes other = if other = task then lane else g.lanes other :=
  Function.update_apply _ _ _ _

/-- A task starts its next operation, makes a call, or returns. -/
inductive Step (program : Op → Prog Call Reply α)
    (step : σ → (request : Call) → Reply request → σ → Prop)
    (allowed : Pool Call Reply α σ Op Task → Task → Call → Prop) :
    Pool Call Reply α σ Op Task → Pool Call Reply α σ Op Task → Prop where
  | start {g : Pool Call Reply α σ Op Task} {task : Task} {op : Op} {rest : List Op}
      (idle : (g.lanes task).current = none) (next : (g.lanes task).waiting = op :: rest) :
      Step program step allowed g
        (g.move task g.state ⟨rest, some (op, program op), (g.lanes task).returned⟩)
  | call {g : Pool Call Reply α σ Op Task} {task : Task} {op : Op} {request : Call}
      {next : Reply request → Prog Call Reply α} {reply : Reply request} {t : σ}
      (running : (g.lanes task).current = some (op, .call request next))
      (may : allowed g task request) (answered : step g.state request reply t) :
      Step program step allowed g
        (g.move task t { g.lanes task with current := some (op, next reply) })
  | finish {g : Pool Call Reply α σ Op Task} {task : Task} {op : Op} {value : α}
      (running : (g.lanes task).current = some (op, .done value)) :
      Step program step allowed g (g.move task g.state
        ⟨(g.lanes task).waiting, none, (g.lanes task).returned ++ [(op, value)]⟩)

/-- The operations of the tasks, before any of them runs. -/
def begin (s : σ) (ops : Task → List Op) : Pool Call Reply α σ Op Task :=
  ⟨s, fun task => ⟨ops task, none, []⟩⟩

/-- No task has anything left to do. -/
def Finished (g : Pool Call Reply α σ Op Task) : Prop :=
  ∀ task, (g.lanes task).waiting = [] ∧ (g.lanes task).current = none

end Pool

/-- The operations one after another, each with the task it belongs to and its
result. -/
inductive Serially (program : Op → Prog Call Reply α)
    (step : σ → (request : Call) → Reply request → σ → Prop) (s : σ) :
    List (Task × Op × α) → σ → Prop where
  | nil : Serially program step s [] s
  | snoc {order : List (Task × Op × α)} {t u : σ} {op : Op} {value : α}
      {trace : List (Prog.Entry σ Call Reply)} (before : Serially program step s order t)
      (task : Task) (runs : (program op).Runs step t trace value u) :
      Serially program step s (order ++ [(task, op, value)]) u

/-- What one task did, in its own order. -/
def ofTask [DecidableEq Task] (task : Task) (order : List (Task × Op × α)) : List (Op × α) :=
  (order.filter fun entry => entry.1 = task).map Prod.snd

section

variable [DecidableEq Task] (task other : Task) (order : List (Task × Op × α)) (entry : Op × α)

theorem ofTask_snoc : ofTask task (order ++ [(other, entry)]) =
    if other = task then ofTask task order ++ [entry] else ofTask task order := by
  simp only [ofTask, List.filter_append, List.map_append]
  by_cases same : other = task
  · simp [same]
  · simp [same]

end

namespace Prog

/-- Asking, from and in state `s`, the program can have come to `q`. -/
inductive Asks (step : σ → (request : Call) → Reply request → σ → Prop) (writes : Call → Prop)
    (s : σ) : Prog Call Reply α → Prog Call Reply α → Prop where
  | here {p : Prog Call Reply α} : Asks step writes s p p
  | call {request : Call} {next : Reply request → Prog Call Reply α} {reply : Reply request}
      {q : Prog Call Reply α} (asks : ¬ writes request) (answered : step s request reply s)
      (rest : Asks step writes s (next reply) q) : Asks step writes s (.call request next) q

/-- Nothing the program still does changes the state, or what it returns. -/
def Settles (step : σ → (request : Call) → Reply request → σ → Prop) (value : α) :
    Prog Call Reply α → Prop
  | .done result => result = value
  | .call request next =>
      (∀ s, ∃ reply, step s request reply s) ∧
        ∀ s reply t, step s request reply t → t = s ∧ Settles step value (next reply)

variable {step : σ → (request : Call) → Reply request → σ → Prop} {writes : Call → Prop}

theorem Settles.runs {value : α} {p : Prog Call Reply α} (settles : Settles step value p) (s : σ) :
    ∃ trace, p.Runs step s trace value s := by
  induction p with
  | done result =>
      obtain rfl : result = value := settles
      exact ⟨[], .done⟩
  | call request next ih =>
      obtain ⟨reply, answered⟩ := settles.1 s
      obtain ⟨trace, later⟩ := ih reply (settles.2 s reply s answered).2
      exact ⟨_, .call answered later⟩

theorem Settles.runs_eq {value result : α} {p : Prog Call Reply α} {s t : σ}
    {trace : List (Entry σ Call Reply)} (settles : Settles step value p)
    (runs : p.Runs step s trace result t) : t = s ∧ result = value := by
  induction runs with
  | done => exact ⟨rfl, settles⟩
  | call answered rest ih =>
      obtain ⟨same, later⟩ := settles.2 _ _ _ answered
      obtain ⟨still, returned⟩ := ih later
      exact ⟨still.trans same, returned⟩

theorem Asks.runs {p q : Prog Call Reply α} {s t : σ} (asks : Asks step writes s p q) {value : α}
    {trace : List (Entry σ Call Reply)} (runs : q.Runs step s trace value t) :
    ∃ trace, p.Runs step s trace value t := by
  induction asks with
  | here => exact ⟨trace, runs⟩
  | call asks answered rest ih =>
      obtain ⟨later, ran⟩ := ih runs
      exact ⟨_, .call answered ran⟩

theorem Asks.snoc {p : Prog Call Reply α} {request : Call}
    {next : Reply request → Prog Call Reply α} {reply : Reply request} {s : σ}
    (asks : Asks step writes s p (.call request next)) (reads : ¬ writes request)
    (answered : step s request reply s) : Asks step writes s p (next reply) := by
  generalize final : Prog.call request next = q at asks
  induction asks with
  | here =>
      subst final
      exact .call reads answered .here
  | call asks answeredFirst rest ih => exact .call asks answeredFirst (ih final)

end Prog

open Prog

/-- Operations that ask and then write at most once; a calm write leaves standing
what other tasks were told. -/
structure Turns (program : Op → Prog Call Reply α)
    (step : σ → (request : Call) → Reply request → σ → Prop) (writes : Call → Prop)
    (good : σ → Prop) (home : Op → Task) (calm : Prog Call Reply α → Call → Prop) : Prop where
  reads : ∀ {op s request next reply t}, good s →
    Asks step writes s (program op) (.call request next) → ¬ writes request →
      step s request reply t → t = s
  settles : ∀ {op s request next reply t}, good s →
    Asks step writes s (program op) (.call request next) →
      (∀ value, ¬ Settles step value (.call request next)) → writes request →
        step s request reply t → good t ∧ ∃ value, Settles step value (next reply)
  stands : ∀ {op other s rest request next reply t}, good s → home op ≠ home other →
    Asks step writes s (program op) rest → (∀ value, ¬ Settles step value rest) →
      Asks step writes s (program other) (.call request next) →
        (∀ value, ¬ Settles step value (.call request next)) → writes request →
          step s request reply t → calm rest request → Asks step writes t (program op) rest

namespace Pool

variable [DecidableEq Task] {program : Op → Prog Call Reply α}
  {step : σ → (request : Call) → Reply request → σ → Prop} {writes : Call → Prop}
  {good : σ → Prop} {home : Op → Task} {calm : Prog Call Reply α → Call → Prop}

/-- What the other tasks are running stands this call. -/
def Calm (calm : Prog Call Reply α → Call → Prop) (g : Pool Call Reply α σ Op Task) (task : Task)
    (request : Call) : Prop :=
  ∀ other ≠ task, ∀ op rest, (g.lanes other).current = some (op, rest) → calm rest request

/-- A task next to the order found so far: what it returned is in the order, and so
is the operation it is running once that is settled. -/
inductive Fits (program : Op → Prog Call Reply α)
    (step : σ → (request : Call) → Reply request → σ → Prop) (writes : Call → Prop) (s : σ) :
    List (Op × α) → Lane Call Reply α Op → Prop where
  | idle {waiting : List Op} {returned : List (Op × α)} :
      Fits program step writes s returned ⟨waiting, none, returned⟩
  | asking {waiting : List Op} {op : Op} {rest : Prog Call Reply α} {returned : List (Op × α)}
      (asks : Asks step writes s (program op) rest) (open_ : ∀ value, ¬ Settles step value rest) :
      Fits program step writes s returned ⟨waiting, some (op, rest), returned⟩
  | settled {waiting : List Op} {op : Op} {rest : Prog Call Reply α} {returned : List (Op × α)}
      {value : α} (settles : Settles step value rest) :
      Fits program step writes s (returned ++ [(op, value)]) ⟨waiting, some (op, rest), returned⟩

theorem Fits.of_idle {s : σ} {order : List (Op × α)} {lane : Lane Call Reply α Op}
    (fits : Fits program step writes s order lane) (idle : lane.current = none) :
    order = lane.returned := by
  cases fits with
  | idle => rfl
  | asking asks open_ => cases idle
  | settled settles => cases idle

theorem Fits.of_running {s : σ} {order : List (Op × α)} {lane : Lane Call Reply α Op} {op : Op}
    {rest : Prog Call Reply α} (fits : Fits program step writes s order lane)
    (running : lane.current = some (op, rest)) :
    (order = lane.returned ∧ Asks step writes s (program op) rest ∧
        ∀ value, ¬ Settles step value rest) ∨
      ∃ value, order = lane.returned ++ [(op, value)] ∧ Settles step value rest := by
  cases fits with
  | idle => cases running
  | asking asks open_ =>
      cases running
      exact .inl ⟨rfl, asks, open_⟩
  | settled settles =>
      cases running
      exact .inr ⟨_, rfl, settles⟩

/-- Every operation is run by the task it belongs to. -/
def AtHome (home : Op → Task) (g : Pool Call Reply α σ Op Task) : Prop :=
  ∀ task, (∀ op ∈ (g.lanes task).waiting, home op = task) ∧
    ∀ op rest, (g.lanes task).current = some (op, rest) → home op = task

/-- There is an order of the settled operations that leads to the present state. -/
structure Ordered (program : Op → Prog Call Reply α)
    (step : σ → (request : Call) → Reply request → σ → Prop) (writes : Call → Prop)
    (good : σ → Prop) (home : Op → Task) (s : σ) (g : Pool Call Reply α σ Op Task) : Prop where
  good : good g.state
  atHome : g.AtHome home
  order : ∃ order, Serially program step s order g.state ∧
    ∀ task, Fits program step writes g.state (ofTask task order) (g.lanes task)

variable {s : σ} {g g' : Pool Call Reply α σ Op Task}

theorem AtHome.move {task : Task} {t : σ} {lane : Lane Call Reply α Op} (atHome : g.AtHome home)
    (waiting : ∀ op ∈ lane.waiting, home op = task)
    (current : ∀ op rest, lane.current = some (op, rest) → home op = task) :
    (g.move task t lane).AtHome home := by
  intro other
  rw [move_lanes]
  split
  · rename_i same
    subst same
    exact ⟨waiting, current⟩
  · exact atHome other

/-- A task that moves while the others stand where they are. -/
theorem Ordered.move {task : Task} {t : σ} {lane : Lane Call Reply α Op}
    {order : List (Task × Op × α)} (good_ : good t) (atHome : (g.move task t lane).AtHome home)
    (serially : Serially program step s order t)
    (mine : Fits program step writes t (ofTask task order) lane)
    (others : ∀ other ≠ task, Fits program step writes t (ofTask other order) (g.lanes other)) :
    (g.move task t lane).Ordered program step writes good home s := by
  refine ⟨good_, atHome, order, serially, ?_⟩
  intro other
  rw [move_state, move_lanes]
  split
  · rename_i same
    subst same
    exact mine
  · rename_i different
    exact others other different

/-- An operation is settled by the call it makes now: it is the next in the order. -/
theorem Ordered.settle {task : Task} {t : σ} {op : Op} {rest : Prog Call Reply α}
    {waiting : List Op} {returned : List (Op × α)} {order : List (Task × Op × α)} {value : α}
    {trace : List (Entry σ Call Reply)} (good_ : good t)
    (atHome : (g.move task t ⟨waiting, some (op, rest), returned⟩).AtHome home)
    (serially : Serially program step s order g.state) (same : ofTask task order = returned)
    (runs : (program op).Runs step g.state trace value t) (settles : Settles step value rest)
    (others : ∀ other ≠ task, Fits program step writes t (ofTask other order) (g.lanes other)) :
    (g.move task t ⟨waiting, some (op, rest), returned⟩).Ordered program step writes good home s := by
  refine Ordered.move good_ atHome (serially.snoc task runs) ?_ ?_
  · rw [ofTask_snoc, if_pos rfl, same]
    exact .settled settles
  · intro other different
    rw [ofTask_snoc, if_neg (fun equal => different equal.symm)]
    exact others other different

theorem Step.ordered (turns : Turns program step writes good home calm)
    (moves : Step program step (Calm calm) g g') (ordered : g.Ordered program step writes good home s) :
    g'.Ordered program step writes good home s := by
  obtain ⟨good_, atHome, order, serially, fits⟩ := ordered
  cases moves with
  | @start task op rest idle next =>
      obtain ⟨homeWaiting, -⟩ := atHome task
      have home_ : (g.move task g.state
          ⟨rest, some (op, program op), (g.lanes task).returned⟩).AtHome home := by
        rw [next] at homeWaiting
        refine atHome.move (fun op member => homeWaiting op (List.mem_cons_of_mem _ member)) ?_
        rintro op rest ⟨⟩
        exact homeWaiting op List.mem_cons_self
      have returned := (fits task).of_idle idle
      have others (other : Task) (_ : other ≠ task) := fits other
      by_cases settled : ∃ value, Settles step value (program op)
      · obtain ⟨value, settles⟩ := settled
        obtain ⟨trace, runs⟩ := settles.runs g.state
        exact Ordered.settle good_ home_ serially returned runs settles others
      · refine Ordered.move good_ home_ serially ?_ others
        rw [returned]
        exact .asking .here fun value settles => settled ⟨value, settles⟩
  | @call task op request next reply t running may answered =>
      obtain ⟨homeWaiting, homeCurrent⟩ := atHome task
      have home_ : (g.move task t
          { g.lanes task with current := some (op, next reply) }).AtHome home := by
        refine atHome.move homeWaiting ?_
        rintro op rest ⟨⟩
        exact homeCurrent op _ running
      rcases (fits task).of_running running with ⟨returned, asks, unsettled⟩ |
        ⟨value, returned, settles⟩
      · by_cases write : writes request
        · -- The write settles the operation, and the others stand it.
          obtain ⟨goodAfter, value, settles⟩ := turns.settles good_ asks unsettled write answered
          obtain ⟨later, ran⟩ := settles.runs t
          obtain ⟨trace, runs⟩ := asks.runs (.call answered ran)
          refine Ordered.settle goodAfter home_ serially returned runs settles ?_
          intro other different
          have stands (lane : Lane Call Reply α Op) (isLane : g.lanes other = lane)
              (before : Fits program step writes g.state (ofTask other order) lane) :
              Fits program step writes t (ofTask other order) lane := by
            generalize ofTask other order = found at before
            cases before with
            | idle => exact .idle
            | settled settles => exact .settled settles
            | asking asksOther open_ =>
                have here := congrArg Lane.current isLane
                refine .asking ?_ open_
                refine turns.stands good_ ?_ asksOther open_ asks unsettled write answered
                  (may other different _ _ here)
                rw [(atHome other).2 _ _ here, homeCurrent _ _ running]
                exact different
          exact stands _ rfl (fits other)
        · have same := turns.reads good_ asks write answered
          subst same
          have others (other : Task) (_ : other ≠ task) := fits other
          by_cases settled : ∃ value, Settles step value (next reply)
          · obtain ⟨value, settles⟩ := settled
            obtain ⟨later, ran⟩ := settles.runs g.state
            obtain ⟨trace, runs⟩ := asks.runs (.call answered ran)
            exact Ordered.settle good_ home_ serially returned runs settles others
          · refine Ordered.move good_ home_ serially ?_ others
            rw [returned]
            exact .asking (asks.snoc write answered) fun value settles => settled ⟨value, settles⟩
      · obtain ⟨same, still⟩ := settles.2 _ _ _ answered
        subst same
        refine Ordered.move good_ home_ serially ?_ fun other _ => fits other
        rw [returned]
        exact .settled still
  | @finish task op value running =>
      obtain ⟨homeWaiting, -⟩ := atHome task
      have home_ : (g.move task g.state ⟨(g.lanes task).waiting, none,
          (g.lanes task).returned ++ [(op, value)]⟩).AtHome home := by
        refine atHome.move homeWaiting ?_
        rintro op rest ⟨⟩
      refine Ordered.move good_ home_ serially ?_ fun other _ => fits other
      rcases (fits task).of_running running with ⟨-, -, open_⟩ | ⟨result, returned, settles⟩
      · exact absurd rfl (open_ value)
      · obtain rfl : value = result := settles
        rw [returned]
        exact .idle

theorem begin_ordered {ops : Task → List Op} (good_ : good s)
    (own : ∀ task, ∀ op ∈ ops task, home op = task) :
    (begin s ops : Pool Call Reply α σ Op Task).Ordered program step writes good home s := by
  refine ⟨good_, ?_, [], .nil, fun task => .idle⟩
  intro task
  refine ⟨own task, ?_⟩
  rintro op rest ⟨⟩

/-- The operations of a lane, from the first that returned to the last that waits. -/
def operations (lane : Lane Call Reply α Op) : List Op :=
  lane.returned.map Prod.fst ++ lane.current.toList.map Prod.fst ++ lane.waiting

theorem Step.operations_eq {allowed : Pool Call Reply α σ Op Task → Task → Call → Prop}
    (moves : Step program step allowed g g') (task : Task) :
    operations (g'.lanes task) = operations (g.lanes task) := by
  cases moves with
  | @start mover op rest idle next =>
      rw [move_lanes]
      split
      · rename_i same
        subst same
        simp [operations, idle, next]
      · rfl
  | @call mover op request next reply t running may answered =>
      rw [move_lanes]
      split
      · rename_i same
        subst same
        simp [operations, running]
      · rfl
  | @finish mover op value running =>
      rw [move_lanes]
      split
      · rename_i same
        subst same
        simp [operations, running]
      · rfl

/-- A calm run of all operations is one in which they take turns. -/
theorem serializable (turns : Turns program step writes good home calm) {ops : Task → List Op}
    (good_ : good s) (own : ∀ task, ∀ op ∈ ops task, home op = task)
    (steps : Relation.ReflTransGen (Step program step (Calm calm)) (begin s ops) g)
    (finished : g.Finished) : ∃ order, Serially program step s order g.state ∧
      ∀ task, ofTask task order = (g.lanes task).returned ∧
        (g.lanes task).returned.map Prod.fst = ops task := by
  have kept : g.Ordered program step writes good home s ∧
      ∀ task, operations (g.lanes task) = ops task := by
    clear finished
    induction steps with
    | refl => exact ⟨begin_ordered good_ own, fun task => rfl⟩
    | tail first last ih =>
        exact ⟨last.ordered turns ih.1, fun task => (last.operations_eq task).trans (ih.2 task)⟩
  obtain ⟨⟨-, -, order, serially, fits⟩, all⟩ := kept
  refine ⟨order, serially, ?_⟩
  intro task
  obtain ⟨nothing, idle⟩ := finished task
  refine ⟨(fits task).of_idle idle, ?_⟩
  rw [← all task]
  simp [operations, nothing, idle]

/-! Runs by a schedule, against surroundings that answer by a function. -/

section

variable (program) (handle : (request : Call) → σ → Reply request × σ)

def advance (task : Task) (g : Pool Call Reply α σ Op Task) : Pool Call Reply α σ Op Task :=
  match (g.lanes task).current, (g.lanes task).waiting with
  | none, [] => g
  | none, op :: rest => g.move task g.state ⟨rest, some (op, program op), (g.lanes task).returned⟩
  | some (op, .call request next), _ =>
      g.move task (handle request g.state).2
        { g.lanes task with current := some (op, next (handle request g.state).1) }
  | some (op, .done value), waiting =>
      g.move task g.state ⟨waiting, none, (g.lanes task).returned ++ [(op, value)]⟩

def play (schedule : List Task) (g : Pool Call Reply α σ Op Task) : Pool Call Reply α σ Op Task :=
  schedule.foldl (fun g task => advance program handle task g) g

/-- A test of every step of a schedule. -/
def holdsThroughout (test : Pool Call Reply α σ Op Task → Task → Bool) :
    List Task → Pool Call Reply α σ Op Task → Bool
  | [], _ => true
  | task :: rest, g => test g task && holdsThroughout test rest (advance program handle task g)

variable {program} {handle}

theorem advance_steps {allowed : Pool Call Reply α σ Op Task → Task → Call → Prop}
    (answers : ∀ request s, step s request (handle request s).1 (handle request s).2)
    {task : Task} (g : Pool Call Reply α σ Op Task)
    (may : ∀ op request next, (g.lanes task).current = some (op, .call request next) →
      allowed g task request) :
    Relation.ReflTransGen (Step program step allowed) g (advance program handle task g) := by
  simp only [advance]
  split
  · exact .refl
  · rename_i idle next
    exact .single (.start idle next)
  · rename_i running
    exact .single (.call running (may _ _ _ running) (answers _ _))
  · rename_i running
    exact .single (.finish running)

theorem play_steps {allowed : Pool Call Reply α σ Op Task → Task → Call → Prop}
    (answers : ∀ request s, step s request (handle request s).1 (handle request s).2)
    {test : Pool Call Reply α σ Op Task → Task → Bool}
    (tested : ∀ g task op request next, test g task = true →
      (g.lanes task).current = some (op, .call request next) → allowed g task request)
    (schedule : List Task) (g : Pool Call Reply α σ Op Task)
    (fine : holdsThroughout program handle test schedule g = true) :
    Relation.ReflTransGen (Step program step allowed) g (play program handle schedule g) := by
  induction schedule generalizing g with
  | nil => exact .refl
  | cons task rest ih =>
      rw [holdsThroughout, Bool.and_eq_true] at fine
      exact (advance_steps answers g fun op request next => tested g task op request next fine.1).trans
        (ih _ fine.2)

end

end Pool

end SmsGateway.Lib
