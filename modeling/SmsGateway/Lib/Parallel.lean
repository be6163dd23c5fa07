import Mathlib.Logic.Function.Basic
import SmsGateway.Lib.Interference

/-! Tasks side by side on one state.

Each task makes only calls that the others can live with. What it then relies on is
what the others do, and every call is allowed when it is made, in any order of the
tasks. -/

namespace SmsGateway.Lib

open Relation Prog

variable {Task σ Call : Type} {Reply : Call → Type}

/-- The state, and what every task still has to do. -/
structure Crew (Task σ Call : Type) (Reply : Call → Type) where
  state : σ
  rest : Task → Prog Call Reply Unit

/-- What a call of a task does, and which programs a task starts. -/
structure Rules (Task σ Call : Type) (Reply : Call → Type) where
  step : Task → σ → (request : Call) → Reply request → σ → Prop
  starts : Task → Prog Call Reply Unit → Prop

namespace Crew

variable [DecidableEq Task]

/-- The crew with this state and this rest for the task. -/
def move (g : Crew Task σ Call Reply) (task : Task) (s : σ) (rest : Prog Call Reply Unit) :
    Crew Task σ Call Reply :=
  ⟨s, Function.update g.rest task rest⟩

/-- A task makes its next call, or starts over. -/
inductive Step (rules : Rules Task σ Call Reply) :
    Crew Task σ Call Reply → Crew Task σ Call Reply → Prop where
  | call {g : Crew Task σ Call Reply} {task : Task} {request : Call}
      {next : Reply request → Prog Call Reply Unit} {reply : Reply request} {t : σ}
      (pending : g.rest task = .call request next)
      (answered : rules.step task g.state request reply t) :
      Step rules g (g.move task t (next reply))
  | start {g : Crew Task σ Call Reply} {task : Task} {program : Prog Call Reply Unit}
      (idle : g.rest task = .done ()) (starts : rules.starts task program) :
      Step rules g (g.move task g.state program)

/-- From `s`, with no task at work. -/
def Reached (rules : Rules Task σ Call Reply) (s : σ) (g : Crew Task σ Call Reply) : Prop :=
  ReflTransGen (Step rules) ⟨s, fun _ => .done ()⟩ g

/-- If every program that a task starts makes only good calls, so does what every task
has before it. -/
theorem Reached.calls {rules : Rules Task σ Call Reply} {good : Call → Prop}
    (starts : ∀ task program, rules.starts task program → program.Calls good)
    {s : σ} {g : Crew Task σ Call Reply} (reached : g.Reached rules s) (task : Task) :
    (g.rest task).Calls good := by
  induction reached generalizing task with
  | refl => trivial
  | tail _ step ih =>
      cases step with
      | @call mover request next reply t pending answered =>
          have mine := ih mover
          rw [pending] at mine
          by_cases same : task = mover
          · subst same
            simpa only [Crew.move, Function.update_self] using mine.2 reply
          · simpa only [Crew.move, Function.update_of_ne same] using ih task
      | @start mover program idle begins =>
          by_cases same : task = mover
          · subst same
            simpa only [Crew.move, Function.update_self] using starts task program begins
          · simpa only [Crew.move, Function.update_of_ne same] using ih task

/-! Runs by a schedule. -/

/-- A task makes its next call, answered as `choice` says, or starts a program. -/
inductive Move (Task Call : Type) (Reply : Call → Type) where
  | call (task : Task) (choice : Nat)
  | start (task : Task) (program : Prog Call Reply Unit)

def Move.task : Move Task Call Reply → Task
  | .call task _ | .start task _ => task

section

variable (handle : Nat → Task → (request : Call) → σ → Option (Reply request × σ))

def advance (g : Crew Task σ Call Reply) : Move Task Call Reply → Option (Crew Task σ Call Reply)
  | .call task choice =>
      match g.rest task with
      | .done _ => none
      | .call request next =>
          (handle choice task request g.state).map fun answer => g.move task answer.2 (next answer.1)
  | .start task program =>
      match g.rest task with
      | .done _ => some (g.move task g.state program)
      | .call _ _ => none

def play (schedule : List (Move Task Call Reply)) (g : Crew Task σ Call Reply) :
    Option (Crew Task σ Call Reply) :=
  schedule.foldlM (advance handle) g

variable {handle} {rules : Rules Task σ Call Reply}

/-- The programs that a schedule starts are ones that the tasks start. -/
def Startable (rules : Rules Task σ Call Reply) : Move Task Call Reply → Prop
  | .call _ _ => True
  | .start task program => rules.starts task program

theorem advance_step
    (answers : ∀ choice task request s reply t, handle choice task request s = some (reply, t) →
      rules.step task s request reply t)
    {g g' : Crew Task σ Call Reply} {move : Move Task Call Reply} (may : Startable rules move)
    (advanced : advance handle g move = some g') : Step rules g g' := by
  cases move with
  | call task choice =>
      simp only [advance] at advanced
      split at advanced
      · cases advanced
      · rename_i request next pending
        obtain ⟨⟨reply, t⟩, answered, rfl⟩ := Option.map_eq_some_iff.mp advanced
        exact .call pending (answers choice task request g.state reply t answered)
  | start task program =>
      simp only [advance] at advanced
      split at advanced
      · rename_i idle
        cases advanced
        exact .start idle may
      · cases advanced

theorem play_steps
    (answers : ∀ choice task request s reply t, handle choice task request s = some (reply, t) →
      rules.step task s request reply t)
    {schedule : List (Move Task Call Reply)} (may : ∀ move ∈ schedule, Startable rules move)
    {g g' : Crew Task σ Call Reply} (played : play handle schedule g = some g') :
    ReflTransGen (Step rules) g g' := by
  induction schedule generalizing g with
  | nil =>
      cases played
      exact .refl
  | cons move rest ih =>
      rw [play, List.foldlM_cons] at played
      obtain ⟨between, advanced, later⟩ := Option.bind_eq_some_iff.mp played
      obtain ⟨first, others⟩ := List.forall_mem_cons.mp may
      exact .head (advance_step answers first advanced) (ih others later)

/-- A task that does not move keeps its rest. -/
theorem advance_other {g g' : Crew Task σ Call Reply} {move : Move Task Call Reply}
    (advanced : advance handle g move = some g') {task : Task} (other : move.task ≠ task) :
    g'.rest task = g.rest task := by
  cases move with
  | call mover choice =>
      simp only [advance] at advanced
      split at advanced
      · cases advanced
      · obtain ⟨answer, -, rfl⟩ := Option.map_eq_some_iff.mp advanced
        exact Function.update_of_ne (Ne.symm other) _ _
  | start mover program =>
      simp only [advance] at advanced
      split at advanced
      · cases advanced
        exact Function.update_of_ne (Ne.symm other) _ _
      · cases advanced

theorem play_other {schedule : List (Move Task Call Reply)} {task : Task}
    (other : ∀ move ∈ schedule, move.task ≠ task) {g g' : Crew Task σ Call Reply}
    (played : play handle schedule g = some g') : g'.rest task = g.rest task := by
  induction schedule generalizing g with
  | nil =>
      cases played
      rfl
  | cons move rest ih =>
      rw [play, List.foldlM_cons] at played
      obtain ⟨between, advanced, later⟩ := Option.bind_eq_some_iff.mp played
      obtain ⟨first, others⟩ := List.forall_mem_cons.mp other
      calc
        g'.rest task = between.rest task := ih others later
        _ = g.rest task := advance_other advanced first

end

end Crew

/-- What a task relies on, which calls it may make, and what holds between its
programs. -/
structure Contract (Task σ Call : Type) where
  rely : Task → σ → σ → Prop
  allowed : Task → σ → Call → Prop
  idle : Task → σ → Prop

namespace Contract

/-- Every program a task starts makes only allowed calls, and an allowed call does
to the others what they rely on. -/
structure Kept (contract : Contract Task σ Call) (rules : Rules Task σ Call Reply) : Prop where
  others : ∀ {task other s request reply t}, other ≠ task → contract.allowed task s request →
    rules.step task s request reply t → contract.rely other s t
  programs : ∀ {task program s}, rules.starts task program → contract.idle task s →
    Guards (contract.rely task) (rules.step task) (contract.allowed task)
      (fun _ => contract.idle task) program s

variable {contract : Contract Task σ Call} {rules : Rules Task σ Call Reply}

/-- What every task has before it keeps the contract. -/
def Holds (contract : Contract Task σ Call) (rules : Rules Task σ Call Reply)
    (g : Crew Task σ Call Reply) : Prop :=
  ∀ task, Guards (contract.rely task) (rules.step task) (contract.allowed task)
    (fun _ => contract.idle task) (g.rest task) g.state

/-- The call that a task makes next is allowed. -/
theorem Holds.allowed {g : Crew Task σ Call Reply} (holds : contract.Holds rules g) {task : Task}
    {request : Call} {next : Reply request → Prog Call Reply Unit}
    (pending : g.rest task = .call request next) : contract.allowed task g.state request := by
  have mine := holds task
  rw [pending] at mine
  exact (mine g.state .refl).1

/-- Between two programs of a task. -/
theorem Holds.idle {g : Crew Task σ Call Reply} (holds : contract.Holds rules g) {task : Task}
    (rests : g.rest task = .done ()) : contract.idle task g.state := by
  have mine := holds task
  rw [rests] at mine
  exact mine g.state .refl

variable [DecidableEq Task]

theorem Kept.step (kept : contract.Kept rules) {g g' : Crew Task σ Call Reply}
    (step : Crew.Step rules g g') (holds : contract.Holds rules g) : contract.Holds rules g' := by
  intro other
  cases step with
  | @call task request next reply t pending answered =>
      have mine := holds task
      rw [pending] at mine
      obtain ⟨may, later⟩ := mine g.state .refl
      by_cases same : other = task
      · subst same
        simpa only [Crew.move, Function.update_self] using later reply t answered
      · simpa only [Crew.move, Function.update_of_ne same] using
          (holds other).after (kept.others same may answered)
  | @start task program idle starts =>
      by_cases same : other = task
      · subst same
        have mine := holds other
        rw [idle] at mine
        simpa only [Crew.move, Function.update_self] using
          kept.programs starts (mine g.state .refl)
      · simpa only [Crew.move, Function.update_of_ne same] using holds other

/-- In every run each task keeps the contract, if all of them can rest at the start. -/
theorem Kept.reached (kept : contract.Kept rules) {s : σ}
    (rests : ∀ task, contract.idle task s)
    (stable : ∀ task, Stable (contract.rely task) (contract.idle task))
    {g : Crew Task σ Call Reply} (reached : g.Reached rules s) : contract.Holds rules g := by
  induction reached with
  | refl => exact fun task => Guards.done (stable task) (rests task)
  | tail _ step ih => exact kept.step step ih

end Contract

end SmsGateway.Lib
