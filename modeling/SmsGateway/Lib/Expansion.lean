import SmsGateway.Lib.Program

/-! Programs whose calls are carried out by other programs.

A run of the expanded program is a run of the program in which every call is a run
of what carries it out; each part of it is known by its call. -/

namespace SmsGateway.Lib.Prog

variable {Call Low : Type} {Reply : Call → Type} {LowReply : Low → Type} {α β σ : Type}

/-- The program with every call carried out by its body. -/
def expand (body : (request : Call) → Prog Low LowReply (Reply request)) :
    Prog Call Reply α → Prog Low LowReply α
  | .done value => .done value
  | .call request next => body request >>= fun reply => (next reply).expand body

variable {body : (request : Call) → Prog Low LowReply (Reply request)}

theorem expand_bind (p : Prog Call Reply α) (f : α → Prog Call Reply β) :
    (p >>= f).expand body = p.expand body >>= fun value => (f value).expand body := by
  induction p with
  | done value => rfl
  | call request next ih =>
      simp only [call_bind, expand, bind_assoc]
      exact congrArg _ (funext ih)

theorem expand_send_bind (request : Call) (f : Reply request → Prog Call Reply β) :
    (Prog.send request >>= f).expand body = body request >>= fun reply => (f reply).expand body :=
  rfl

/-- A call of a run, with the calls that carried it out. -/
structure Part (σ Call : Type) (Reply : Call → Type) (Low : Type) (LowReply : Low → Type) where
  before : σ
  request : Call
  reply : Reply request
  calls : List (Entry σ Low LowReply)

variable {step : σ → (request : Low) → LowReply request → σ → Prop}

/-- `Expands step body p s parts value t`: from `s` the program makes these calls, each
carried out by its body, returns `value` and leaves `t`. -/
inductive Expands (step : σ → (request : Low) → LowReply request → σ → Prop)
    (body : (request : Call) → Prog Low LowReply (Reply request)) :
    Prog Call Reply α → σ → List (Part σ Call Reply Low LowReply) → α → σ → Prop where
  | done {value : α} {s : σ} : Expands step body (.done value) s [] value s
  | call {request : Call} {next : Reply request → Prog Call Reply α} {reply : Reply request}
      {calls : List (Entry σ Low LowReply)} {parts : List (Part σ Call Reply Low LowReply)}
      {s t u : σ} {value : α} (carried : Runs step (body request) s calls reply t)
      (rest : Expands step body (next reply) t parts value u) :
      Expands step body (.call request next) s (⟨s, request, reply, calls⟩ :: parts) value u

theorem Runs.append {p : Prog Low LowReply α} {f : α → Prog Low LowReply β} {s t u : σ}
    {first last : List (Entry σ Low LowReply)} {between : α} {value : β}
    (runs : Runs step p s first between t) (later : Runs step (f between) t last value u) :
    Runs step (p >>= f) s (first ++ last) value u := by
  induction runs with
  | done => exact later
  | call answered rest ih => exact .call answered (ih later)

/-- The runs of the expanded program. -/
theorem runs_expand_iff {p : Prog Call Reply α} {s t : σ} {trace : List (Entry σ Low LowReply)}
    {value : α} : Runs step (p.expand body) s trace value t ↔
      ∃ parts, Expands step body p s parts value t ∧ trace = parts.flatMap Part.calls := by
  induction p generalizing s trace with
  | done value =>
      constructor
      · intro runs
        cases runs
        exact ⟨[], .done, rfl⟩
      · rintro ⟨parts, expands, rfl⟩
        cases expands
        exact .done
  | call request next ih =>
      constructor
      · intro runs
        obtain ⟨calls, later, reply, between, rfl, carried, rest⟩ := Runs.of_bind runs
        obtain ⟨parts, expands, rfl⟩ := (ih reply).mp rest
        exact ⟨_ :: parts, .call carried expands, rfl⟩
      · rintro ⟨parts, expands, rfl⟩
        cases expands with
        | call carried rest => exact carried.append ((ih _).mpr ⟨_, rest, rfl⟩)

/-- Where every call is answered, every program has a run. -/
theorem exists_runs (total : ∀ s request, ∃ reply t, step s request reply t)
    (p : Prog Low LowReply α) (s : σ) : ∃ trace value t, Runs step p s trace value t := by
  induction p generalizing s with
  | done value => exact ⟨[], value, s, .done⟩
  | call request next ih =>
      obtain ⟨reply, t, answered⟩ := total s request
      obtain ⟨trace, value, u, rest⟩ := ih reply t
      exact ⟨_, value, u, .call answered rest⟩

theorem exists_expands (total : ∀ s request, ∃ reply t, step s request reply t)
    (p : Prog Call Reply α) (s : σ) : ∃ parts value t, Expands step body p s parts value t := by
  obtain ⟨trace, value, t, runs⟩ := exists_runs total (p.expand body) s
  obtain ⟨parts, expands, -⟩ := runs_expand_iff.mp runs
  exact ⟨parts, value, t, expands⟩

theorem Expands.append {p : Prog Call Reply α} {f : α → Prog Call Reply β} {s t u : σ}
    {first last : List (Part σ Call Reply Low LowReply)} {between : α} {value : β}
    (expands : Expands step body p s first between t)
    (later : Expands step body (f between) t last value u) :
    Expands step body (p >>= f) s (first ++ last) value u := by
  induction expands with
  | done => exact later
  | call carried rest ih => exact .call carried (ih later)

theorem Expands.of_bind {p : Prog Call Reply α} {f : α → Prog Call Reply β} {s u : σ}
    {parts : List (Part σ Call Reply Low LowReply)} {value : β}
    (expands : Expands step body (p >>= f) s parts value u) :
    ∃ first last between t, parts = first ++ last ∧ Expands step body p s first between t ∧
      Expands step body (f between) t last value u := by
  induction p generalizing s parts with
  | done between => exact ⟨[], parts, between, s, rfl, .done, expands⟩
  | call request next ih =>
      cases expands with
      | call carried rest =>
          obtain ⟨first, last, between, t, rfl, ran, later⟩ := ih _ rest
          exact ⟨_ :: first, last, between, t, rfl, .call carried ran, later⟩

end SmsGateway.Lib.Prog
