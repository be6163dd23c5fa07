import Mathlib.Logic.Relation
import SmsGateway.Lib.Program

/-! Programs next to others that act on the same state.

Between two calls of a program the others may take any number of steps. What holds
of the program's result whatever they do is shown call by call, with assertions that
no step of the others breaks. -/

namespace SmsGateway.Lib.Prog

open Relation

variable {Call : Type} {Reply : Call → Type} {α β σ : Type}

/-- Whatever the others do, the program returns in a state that satisfies `post`. -/
def Survives (rely : σ → σ → Prop) (step : σ → (request : Call) → Reply request → σ → Prop)
    (post : α → σ → Prop) : Prog Call Reply α → σ → Prop
  | .done value, s => ∀ t, ReflTransGen rely s t → post value t
  | .call request next, s =>
      ∀ t, ReflTransGen rely s t → ∀ reply u, step t request reply u →
        Survives rely step post (next reply) u

/-- No step of the others breaks the assertion. -/
def Stable (rely : σ → σ → Prop) (assertion : σ → Prop) : Prop :=
  ∀ s t, assertion s → rely s t → assertion t

/-- Every call of the program is one of these. -/
def Calls (good : Call → Prop) : Prog Call Reply α → Prop
  | .done _ => True
  | .call request next => good request ∧ ∀ reply, (next reply).Calls good

theorem Calls.bind {good : Call → Prop} {p : Prog Call Reply α} {f : α → Prog Call Reply β}
    (first : p.Calls good) (later : ∀ value, (f value).Calls good) : (p >>= f).Calls good := by
  induction p with
  | done value => exact later value
  | call request next ih => exact ⟨first.1, fun reply => ih reply (first.2 reply)⟩

theorem Calls.send {good : Call → Prop} {request : Call} {f : Reply request → Prog Call Reply β}
    (may : good request) (rest : ∀ reply, (f reply).Calls good) :
    (Prog.send request >>= f).Calls good :=
  ⟨may, rest⟩

/-- The calls of a run are calls of the program. -/
theorem Calls.runs {good : Call → Prop} {step : σ → (request : Call) → Reply request → σ → Prop}
    {p : Prog Call Reply α} (calls : p.Calls good) {s t : σ} {trace : List (Entry σ Call Reply)}
    {value : α} (runs : Runs step p s trace value t) : ∀ entry ∈ trace, good entry.request := by
  induction p generalizing s trace with
  | done _ =>
      cases runs
      nofun
  | call request next ih =>
      cases runs with
      | call answered rest => exact List.forall_mem_cons.mpr ⟨calls.1, ih _ (calls.2 _) rest⟩

/-- Calls that leave the state leave it in a run. -/
theorem Calls.unmoved {good : Call → Prop} {step : σ → (request : Call) → Reply request → σ → Prop}
    (still : ∀ s request reply t, good request → step s request reply t → t = s)
    {p : Prog Call Reply α} (calls : p.Calls good) {s t : σ} {trace : List (Entry σ Call Reply)}
    {value : α} (runs : Runs step p s trace value t) : t = s := by
  induction p generalizing s trace with
  | done _ =>
      cases runs
      rfl
  | call request next ih =>
      cases runs with
      | call answered rest =>
          rw [ih _ (calls.2 _) rest]
          exact still _ _ _ _ calls.1 answered

variable {rely : σ → σ → Prop} {step : σ → (request : Call) → Reply request → σ → Prop}

theorem Stable.many {assertion : σ → Prop} (stable : Stable rely assertion) {s t : σ}
    (holds : assertion s) (others : ReflTransGen rely s t) : assertion t := by
  induction others with
  | refl => exact holds
  | tail _ next ih => exact stable _ _ ih next

theorem Survives.after {post : α → σ → Prop} {p : Prog Call Reply α} {s t : σ}
    (survives : Survives rely step post p s) (other : rely s t) : Survives rely step post p t := by
  cases p with
  | done value => exact fun u others => survives u (.head other others)
  | call request next => exact fun u others => survives u (.head other others)

theorem Survives.returned {post : α → σ → Prop} {value : α} {s : σ}
    (survives : Survives rely step post (.done value) s) : post value s :=
  survives s .refl

theorem Survives.answered {post : α → σ → Prop} {request : Call}
    {next : Reply request → Prog Call Reply α} {reply : Reply request} {s t : σ}
    (survives : Survives rely step post (.call request next) s) (answer : step s request reply t) :
    Survives rely step post (next reply) t :=
  survives s .refl reply t answer

theorem Survives.done {post : α → σ → Prop} {value : α} {s : σ} (stable : Stable rely (post value))
    (holds : post value s) : Survives rely step post (.done value) s :=
  fun _ others => stable.many holds others

theorem Survives.call {post : α → σ → Prop} {request : Call}
    {next : Reply request → Prog Call Reply α} {s : σ} (assertion : σ → Prop)
    (stable : Stable rely assertion) (holds : assertion s)
    (later : ∀ t reply u, assertion t → step t request reply u →
      Survives rely step post (next reply) u) :
    Survives rely step post (.call request next) s :=
  fun t others reply u answer => later t reply u (stable.many holds others) answer

theorem Survives.bind {post : β → σ → Prop} {p : Prog Call Reply α} {f : α → Prog Call Reply β}
    {s : σ} (survives : Survives rely step (fun value t => Survives rely step post (f value) t) p s) :
    Survives rely step post (p >>= f) s := by
  induction p generalizing s with
  | done value => exact survives s .refl
  | call request next ih =>
      exact fun t others reply u answer => ih reply (survives t others reply u answer)

theorem Survives.mono {post weaker : α → σ → Prop} (implies : ∀ value s, post value s → weaker value s)
    {p : Prog Call Reply α} {s : σ} (survives : Survives rely step post p s) :
    Survives rely step weaker p s := by
  induction p generalizing s with
  | done value => exact fun t others => implies value t (survives t others)
  | call request next ih =>
      exact fun t others reply u answer => ih reply (survives t others reply u answer)

/-- A program all of whose calls keep an assertion. -/
theorem Survives.keeps {assertion : σ → Prop} {good : Call → Prop}
    (stable : Stable rely assertion)
    (kept : ∀ s request reply t, good request → assertion s → step s request reply t → assertion t)
    {p : Prog Call Reply α} (calls : p.Calls good) {s : σ} (holds : assertion s) :
    Survives rely step (fun _ t => assertion t) p s := by
  induction p generalizing s with
  | done value => exact .done stable holds
  | call request next ih =>
      apply Survives.call assertion stable holds
      intro t reply u here answer
      exact ih reply (calls.2 reply) (kept t request reply u calls.1 here answer)

/-- Whatever the others do, every call of the program is allowed when it is made,
and the program returns in a state that satisfies `post`. -/
def Guards (rely : σ → σ → Prop) (step : σ → (request : Call) → Reply request → σ → Prop)
    (allowed : σ → Call → Prop) (post : α → σ → Prop) : Prog Call Reply α → σ → Prop
  | .done value, s => ∀ t, ReflTransGen rely s t → post value t
  | .call request next, s =>
      ∀ t, ReflTransGen rely s t → allowed t request ∧
        ∀ reply u, step t request reply u → Guards rely step allowed post (next reply) u

variable {allowed : σ → Call → Prop}

theorem Guards.after {post : α → σ → Prop} {p : Prog Call Reply α} {s t : σ}
    (guards : Guards rely step allowed post p s) (other : rely s t) :
    Guards rely step allowed post p t := by
  cases p with
  | done value => exact fun u others => guards u (.head other others)
  | call request next => exact fun u others => guards u (.head other others)

theorem Guards.done {post : α → σ → Prop} {value : α} {s : σ} (stable : Stable rely (post value))
    (holds : post value s) : Guards rely step allowed post (.done value) s :=
  fun _ others => stable.many holds others

theorem Guards.call {post : α → σ → Prop} {request : Call}
    {next : Reply request → Prog Call Reply α} {s : σ} (assertion : σ → Prop)
    (stable : Stable rely assertion) (holds : assertion s)
    (may : ∀ t, assertion t → allowed t request)
    (later : ∀ t reply u, assertion t → step t request reply u →
      Guards rely step allowed post (next reply) u) :
    Guards rely step allowed post (.call request next) s := by
  intro t others
  have here := stable.many holds others
  exact ⟨may t here, fun reply u answer => later t reply u here answer⟩

theorem Guards.bind {post : β → σ → Prop} {p : Prog Call Reply α} {f : α → Prog Call Reply β} {s : σ}
    (guards : Guards rely step allowed (fun value t => Guards rely step allowed post (f value) t) p s) :
    Guards rely step allowed post (p >>= f) s := by
  induction p generalizing s with
  | done value => exact guards s .refl
  | call request next ih =>
      intro t others
      obtain ⟨may, later⟩ := guards t others
      exact ⟨may, fun reply u answer => ih reply (later reply u answer)⟩

theorem Guards.send {post : β → σ → Prop} {request : Call} {f : Reply request → Prog Call Reply β}
    {s : σ} (assertion : σ → Prop) (stable : Stable rely assertion) (holds : assertion s)
    (may : ∀ t, assertion t → allowed t request)
    (later : ∀ t reply u, assertion t → step t request reply u →
      Guards rely step allowed post (f reply) u) :
    Guards rely step allowed post (Prog.send request >>= f) s :=
  Guards.call assertion stable holds may later

theorem Guards.mono {post weaker : α → σ → Prop}
    (implies : ∀ value s, post value s → weaker value s) {p : Prog Call Reply α} {s : σ}
    (guards : Guards rely step allowed post p s) : Guards rely step allowed weaker p s := by
  induction p generalizing s with
  | done value => exact fun t others => implies value t (guards t others)
  | call request next ih =>
      intro t others
      obtain ⟨may, later⟩ := guards t others
      exact ⟨may, fun reply u answer => ih reply (later reply u answer)⟩

/-- A program all of whose calls are allowed by an assertion that they keep. -/
theorem Guards.keeps {assertion : σ → Prop} {good : Call → Prop}
    (stable : Stable rely assertion)
    (may : ∀ s request, good request → assertion s → allowed s request)
    (kept : ∀ s request reply t, good request → assertion s → step s request reply t → assertion t)
    {p : Prog Call Reply α} (calls : p.Calls good) {s : σ} (holds : assertion s) :
    Guards rely step allowed (fun _ t => assertion t) p s := by
  induction p generalizing s with
  | done value => exact .done stable holds
  | call request next ih =>
      apply Guards.call assertion stable holds (fun t here => may t request calls.1 here)
      intro t reply u here answer
      exact ih reply (calls.2 reply) (kept t request reply u calls.1 here answer)

end SmsGateway.Lib.Prog
