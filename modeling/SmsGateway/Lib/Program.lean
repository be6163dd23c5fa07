import Mathlib.Init

/-! Programs that act on their surroundings through calls.

A program is a tree of calls and the answers to them, so the same program can be
run alone, run next to others, or stopped between two calls. -/

namespace SmsGateway.Lib

inductive Prog (Call : Type) (Reply : Call → Type) (α : Type) where
  | done (value : α)
  | call (request : Call) (next : Reply request → Prog Call Reply α)

namespace Prog

variable {Call : Type} {Reply : Call → Type} {α β σ : Type}

def bind : Prog Call Reply α → (α → Prog Call Reply β) → Prog Call Reply β
  | .done value, f => f value
  | .call request next, f => .call request fun reply => (next reply).bind f

instance : Monad (Prog Call Reply) where
  pure := .done
  bind := bind

@[simp] theorem pure_eq (value : α) : (pure value : Prog Call Reply α) = .done value := rfl

@[simp] theorem done_bind (value : α) (f : α → Prog Call Reply β) :
    (Prog.done value : Prog Call Reply α) >>= f = f value := rfl

@[simp] theorem call_bind (request : Call) (next : Reply request → Prog Call Reply α)
    (f : α → Prog Call Reply β) :
    Prog.call request next >>= f = .call request fun reply => next reply >>= f := rfl

theorem bind_bind {γ : Type} (p : Prog Call Reply α) (f : α → Prog Call Reply β)
    (g : β → Prog Call Reply γ) : p >>= f >>= g = p >>= fun value => f value >>= g := by
  induction p with
  | done value => rfl
  | call request next ih =>
      simp only [call_bind]
      exact congrArg _ (funext ih)

theorem id_map (p : Prog Call Reply α) : id <$> p = p := by
  induction p with
  | done value => rfl
  | call request next ih => exact congrArg _ (funext ih)

instance : LawfulMonad (Prog Call Reply) :=
  LawfulMonad.mk' _ id_map (fun _ _ => rfl) bind_bind

/-- One call and its answer. -/
def send (request : Call) : Prog Call Reply (Reply request) := .call request .done

/-- One call of a run, with the state it found. -/
structure Entry (σ Call : Type) (Reply : Call → Type) where
  before : σ
  request : Call
  reply : Reply request

/-- `Runs step p s trace a t`: alone from `s`, the program makes these calls,
returns `a` and leaves `t`. -/
inductive Runs (step : σ → (request : Call) → Reply request → σ → Prop) :
    Prog Call Reply α → σ → List (Entry σ Call Reply) → α → σ → Prop where
  | done {value : α} {s : σ} : Runs step (.done value) s [] value s
  | call {request : Call} {next : Reply request → Prog Call Reply α} {reply : Reply request}
      {s t u : σ} {trace : List (Entry σ Call Reply)} {value : α}
      (answered : step s request reply t) (rest : Runs step (next reply) t trace value u) :
      Runs step (.call request next) s (⟨s, request, reply⟩ :: trace) value u

/-- `Reaches step p s t`: started in `s` and stopped after any number of calls, the
program leaves `t`. -/
inductive Reaches (step : σ → (request : Call) → Reply request → σ → Prop) :
    Prog Call Reply α → σ → σ → Prop where
  | here {p : Prog Call Reply α} {s : σ} : Reaches step p s s
  | call {request : Call} {next : Reply request → Prog Call Reply α} {reply : Reply request}
      {s t u : σ} (answered : step s request reply t) (rest : Reaches step (next reply) t u) :
      Reaches step (.call request next) s u

/-- Every call of the program is allowed in the state it finds, and what the
program returns satisfies `post`. -/
def Obeys (step : σ → (request : Call) → Reply request → σ → Prop) (allowed : σ → Call → Prop)
    (post : α → σ → Prop) : Prog Call Reply α → σ → Prop
  | .done value, s => post value s
  | .call request next, s =>
      allowed s request ∧ ∀ reply t, step s request reply t →
        Obeys step allowed post (next reply) t

section

variable {step : σ → (request : Call) → Reply request → σ → Prop} {allowed : σ → Call → Prop}

theorem Obeys.mono {post weaker : α → σ → Prop} (implies : ∀ value s, post value s → weaker value s)
    {p : Prog Call Reply α} {s : σ} (obeys : Obeys step allowed post p s) :
    Obeys step allowed weaker p s := by
  induction p generalizing s with
  | done value => exact implies value s obeys
  | call request next ih =>
      exact ⟨obeys.1, fun reply t answered => ih reply (obeys.2 reply t answered)⟩

/-- With fewer answers and more allowed calls. -/
theorem Obeys.imp {post : α → σ → Prop}
    {strict : σ → (request : Call) → Reply request → σ → Prop} {wider : σ → Call → Prop}
    (answers : ∀ s request reply t, strict s request reply t → step s request reply t)
    (calls : ∀ s request, allowed s request → wider s request) {p : Prog Call Reply α} {s : σ}
    (obeys : Obeys step allowed post p s) : Obeys strict wider post p s := by
  induction p generalizing s with
  | done value => exact obeys
  | call request next ih =>
      refine ⟨calls s request obeys.1, ?_⟩
      intro reply t answered
      exact ih reply (obeys.2 reply t (answers s request reply t answered))

/-- Programs one after another. -/
theorem Obeys.bind {post : β → σ → Prop} {p : Prog Call Reply α} {f : α → Prog Call Reply β} {s : σ}
    (obeys : Obeys step allowed (fun value t => Obeys step allowed post (f value) t) p s) :
    Obeys step allowed post (p >>= f) s := by
  induction p generalizing s with
  | done value => exact obeys
  | call request next ih =>
      exact ⟨obeys.1, fun reply t answered => ih reply (obeys.2 reply t answered)⟩

theorem Obeys.send {post : β → σ → Prop} {request : Call}
    {f : Reply request → Prog Call Reply β} {s : σ} (may : allowed s request)
    (rest : ∀ reply t, step s request reply t → Obeys step allowed post (f reply) t) :
    Obeys step allowed post (Prog.send request >>= f) s :=
  ⟨may, rest⟩

/-- Every call of the program is allowed, wherever it starts. -/
def Safe (step : σ → (request : Call) → Reply request → σ → Prop) (allowed : σ → Call → Prop)
    (p : Prog Call Reply α) : Prop :=
  ∀ s, Obeys step allowed (fun _ _ => True) p s

theorem Safe.pure (value : α) : Safe step allowed (pure value : Prog Call Reply α) :=
  fun _ => trivial

theorem Safe.after {p : Prog Call Reply α} (safe : Safe step allowed p) (s : σ)
    {post : α → σ → Prop} (next : ∀ value t, post value t) : Obeys step allowed post p s :=
  (safe s).mono fun value t _ => next value t

theorem Safe.bind {p : Prog Call Reply α} {f : α → Prog Call Reply β} (first : Safe step allowed p)
    (second : ∀ value, Safe step allowed (f value)) : Safe step allowed (p >>= f) := by
  intro s
  exact Obeys.bind (first.after s fun value t => second value t)

theorem Safe.send {request : Call} (may : ∀ s, allowed s request) :
    Safe step allowed (Prog.send request : Prog Call Reply (Reply request)) :=
  fun s => ⟨may s, fun _ _ _ => trivial⟩

/-- What a program obeys holds of its runs. -/
theorem Obeys.runs {post : α → σ → Prop} {p : Prog Call Reply α} {s t : σ}
    {trace : List (Entry σ Call Reply)} {value : α} (obeys : Obeys step allowed post p s)
    (runs : Runs step p s trace value t) :
    post value t ∧ ∀ entry ∈ trace, allowed entry.before entry.request := by
  induction runs with
  | done => exact ⟨obeys, by simp⟩
  | call answered rest ih =>
      obtain ⟨final, each⟩ := ih (obeys.2 _ _ answered)
      refine ⟨final, ?_⟩
      intro entry member
      rcases List.mem_cons.mp member with rfl | member
      · exact obeys.1
      · exact each entry member

/-- What holds whenever a program makes a call and when it returns holds in every
state it reaches. -/
theorem Obeys.reaches {good : σ → Prop} {p : Prog Call Reply α} {s t : σ}
    (obeys : Obeys step (fun s _ => good s) (fun _ s => good s) p s)
    (reaches : Reaches step p s t) : good t := by
  induction reaches with
  | here =>
      rename_i p s
      cases p with
      | done value => exact obeys
      | call request next => exact obeys.1
  | call answered rest ih => exact ih (obeys.2 _ _ answered)

/-- A run of two programs one after the other is a run of each. -/
theorem Runs.of_bind {p : Prog Call Reply α} {f : α → Prog Call Reply β} {s u : σ}
    {trace : List (Entry σ Call Reply)} {value : β} (runs : Runs step (p >>= f) s trace value u) :
    ∃ first last between t, trace = first ++ last ∧ Runs step p s first between t ∧
      Runs step (f between) t last value u := by
  induction p generalizing s trace with
  | done between => exact ⟨[], trace, between, s, rfl, .done, runs⟩
  | call request next ih =>
      cases runs with
      | call answered rest =>
          obtain ⟨first, last, between, t, rfl, ran, later⟩ := ih _ rest
          exact ⟨_ :: first, last, between, t, rfl, .call answered ran, later⟩

theorem Runs.reaches {p : Prog Call Reply α} {s t : σ} {trace : List (Entry σ Call Reply)}
    {value : α} (runs : Runs step p s trace value t) : Reaches step p s t := by
  induction runs with
  | done => exact .here
  | call answered rest ih => exact .call answered ih

end

theorem Reaches.bounded {step strict : σ → (request : Call) → Reply request → σ → Prop}
    (measure : σ → Nat) {limit : Nat}
    (grows : ∀ s request reply t, step s request reply t → measure s ≤ measure t)
    (strictly : ∀ s request reply t, step s request reply t → measure t < limit →
      strict s request reply t)
    {p : Prog Call Reply α} {s t : σ} (reaches : Reaches step p s t) (small : measure t < limit) :
    Reaches strict p s t ∧ measure s < limit := by
  induction reaches with
  | here => exact ⟨.here, small⟩
  | call answered rest ih =>
      obtain ⟨later, below⟩ := ih small
      exact ⟨.call (strictly _ _ _ _ answered below) later,
        Nat.lt_of_le_of_lt (grows _ _ _ _ answered) below⟩

/-- A measure that only grows stays below its final value: the run meets every
condition that follows from a small measure. -/
theorem Runs.bounded {step strict : σ → (request : Call) → Reply request → σ → Prop}
    (measure : σ → Nat) {limit : Nat}
    (grows : ∀ s request reply t, step s request reply t → measure s ≤ measure t)
    (strictly : ∀ s request reply t, step s request reply t → measure t < limit →
      strict s request reply t)
    {p : Prog Call Reply α} {s t : σ} {trace : List (Entry σ Call Reply)} {value : α}
    (runs : Runs step p s trace value t) (small : measure t < limit) :
    Runs strict p s trace value t ∧ measure s < limit := by
  induction runs with
  | done => exact ⟨.done, small⟩
  | call answered rest ih =>
      obtain ⟨later, below⟩ := ih small
      exact ⟨.call (strictly _ _ _ _ answered below) later,
        Nat.lt_of_le_of_lt (grows _ _ _ _ answered) below⟩

/-- A run whose entries all meet a condition. -/
theorem Runs.meeting {step strict : σ → (request : Call) → Reply request → σ → Prop}
    (good : Entry σ Call Reply → Prop)
    (strictly : ∀ s request reply t, step s request reply t → good ⟨s, request, reply⟩ →
      strict s request reply t)
    {p : Prog Call Reply α} {s t : σ} {trace : List (Entry σ Call Reply)} {value : α}
    (runs : Runs step p s trace value t) (all : ∀ entry ∈ trace, good entry) :
    Runs strict p s trace value t := by
  induction runs with
  | done => exact .done
  | call answered rest ih =>
      refine .call (strictly _ _ _ _ answered (all _ List.mem_cons_self)) (ih ?_)
      intro entry member
      exact all entry (List.mem_cons_of_mem _ member)

/-- The calls a program can make, whatever they are answered, and what it then
returns. -/
abbrev Can (p : Prog Call Reply α) (trace : List (Entry Unit Call Reply)) (value : α) : Prop :=
  Runs (fun _ _ _ _ => True) p () trace value ()

theorem Can.of_bind {p : Prog Call Reply α} {f : α → Prog Call Reply β}
    {trace : List (Entry Unit Call Reply)} {value : β} (can : (p >>= f).Can trace value) :
    ∃ first last between, trace = first ++ last ∧ p.Can first between ∧
      (f between).Can last value := by
  obtain ⟨first, last, between, _, equal, ran, later⟩ := Runs.of_bind can
  exact ⟨first, last, between, equal, ran, later⟩

/-- A run, with its states forgotten. -/
theorem Runs.can {step : σ → (request : Call) → Reply request → σ → Prop} {p : Prog Call Reply α}
    {s t : σ} {trace : List (Entry σ Call Reply)} {value : α} (runs : Runs step p s trace value t) :
    ∃ free, p.Can free value := by
  induction p generalizing s trace with
  | done _ =>
      cases runs
      exact ⟨[], .done⟩
  | call request next ih =>
      cases runs with
      | call answered rest =>
          obtain ⟨free, can⟩ := ih _ rest
          exact ⟨_, .call trivial can⟩

/-- `Loops pass s trace result`: passes of a loop from `s`, until one of them ends
with a result. -/
inductive Loops {ρ : Type} (pass : σ → Prog Call Reply (ρ ⊕ σ)) :
    σ → List (Entry Unit Call Reply) → ρ → Prop where
  | finished {s : σ} {trace : List (Entry Unit Call Reply)} {result : ρ}
      (last : (pass s).Can trace (.inl result)) : Loops pass s trace result
  | again {s t : σ} {trace later : List (Entry Unit Call Reply)} {result : ρ}
      (passed : (pass s).Can trace (.inr t)) (rest : Loops pass t later result) :
      Loops pass s (trace ++ later) result

/-- A run against surroundings that answer by a function. -/
def run (handle : (request : Call) → σ → Reply request × σ) : Prog Call Reply α → σ → α × σ
  | .done value, s => (value, s)
  | .call request next, s =>
      run handle (next (handle request s).1) (handle request s).2

section

variable (handle : (request : Call) → σ → Reply request × σ)

@[simp] theorem run_done (value : α) (s : σ) :
    run handle (.done value : Prog Call Reply α) s = (value, s) := rfl

@[simp] theorem run_send (request : Call) (s : σ) :
    run handle (Prog.send request) s = handle request s := rfl

theorem run_bind (p : Prog Call Reply α) (f : α → Prog Call Reply β) (s : σ) :
    run handle (p >>= f) s = run handle (f (run handle p s).1) (run handle p s).2 := by
  induction p generalizing s with
  | done value => rfl
  | call request next ih => exact ih _ _

/-- The calls of such a run. -/
def trace : Prog Call Reply α → σ → List (Entry σ Call Reply)
  | .done _, _ => []
  | .call request next, s =>
      ⟨s, request, (handle request s).1⟩ :: trace (next (handle request s).1) (handle request s).2

theorem trace_bind (p : Prog Call Reply α) (f : α → Prog Call Reply β) (s : σ) :
    trace handle (p >>= f) s =
      trace handle p s ++ trace handle (f (run handle p s).1) (run handle p s).2 := by
  induction p generalizing s with
  | done value => rfl
  | call request next ih => exact congrArg _ (ih _ _)

/-- Such a run is one of the runs of the program, where each of its calls is a step. -/
theorem runs_of_trace {step : σ → (request : Call) → Reply request → σ → Prop}
    (good : Entry σ Call Reply → Prop)
    (answers : ∀ request s, good ⟨s, request, (handle request s).1⟩ →
      step s request (handle request s).1 (handle request s).2)
    (p : Prog Call Reply α) (s : σ) (all : ∀ entry ∈ trace handle p s, good entry) :
    Runs step p s (trace handle p s) (run handle p s).1 (run handle p s).2 := by
  induction p generalizing s with
  | done value => exact .done
  | call request next ih =>
      refine .call (answers request s (all _ List.mem_cons_self)) (ih _ _ ?_)
      intro entry member
      exact all entry (List.mem_cons_of_mem _ member)

theorem runs_of_run {step : σ → (request : Call) → Reply request → σ → Prop}
    (answers : ∀ request s, step s request (handle request s).1 (handle request s).2)
    (p : Prog Call Reply α) (s : σ) :
    Runs step p s (trace handle p s) (run handle p s).1 (run handle p s).2 :=
  runs_of_trace handle (fun _ => True) (fun request s _ => answers request s) p s
    fun _ _ => trivial

end

end Prog

end SmsGateway.Lib
