import Mathlib.Init

/-! Runs of a labelled transition relation. -/

namespace SmsGateway.Lib

variable {σ τ ℓ : Type}

/-- `Runs step start trace s`: from `start`, steps with these labels lead to `s`. -/
inductive Runs (step : σ → ℓ → σ → Prop) (start : σ) : List ℓ → σ → Prop where
  | start : Runs step start [] start
  | step {trace : List ℓ} {s t : σ} {label : ℓ} (before : Runs step start trace s)
      (next : step s label t) : Runs step start (trace ++ [label]) t

/-- What holds at the start and is kept by every step holds in every state reached. -/
theorem Runs.invariant {step : σ → ℓ → σ → Prop} {start s : σ} {trace : List ℓ}
    (invariant : List ℓ → σ → Prop) (initial : invariant [] start)
    (kept : ∀ trace s label t, Runs step start trace s → invariant trace s → step s label t →
      invariant (trace ++ [label]) t)
    (runs : Runs step start trace s) : invariant trace s := by
  induction runs with
  | start => exact initial
  | step before next ih => exact kept _ _ _ _ before ih next

theorem Runs.mono {step weaker : σ → ℓ → σ → Prop} {start s : σ} {trace : List ℓ}
    (implies : ∀ s label t, step s label t → weaker s label t) (runs : Runs step start trace s) :
    Runs weaker start trace s := by
  induction runs with
  | start => exact .start
  | step before next ih => exact .step ih (implies _ _ _ next)

end SmsGateway.Lib
