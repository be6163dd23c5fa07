import Mathlib.Algebra.Order.Monoid.Defs

/-! Runs of a deterministic machine, with a charge for each input it takes. What a run
spends comes out of a potential. -/

namespace SmsGateway.Lib

section

variable {σ ι : Type} {step : σ → ι → σ} {ok : σ → ι → Prop} {s : σ} {inputs : List ι}

/-- Every input is acceptable in the state that it meets. -/
def Along (step : σ → ι → σ) (ok : σ → ι → Prop) : σ → List ι → Prop
  | _, [] => True
  | s, input :: inputs => ok s input ∧ Along step ok (step s input) inputs

theorem Along.append {first second : List ι} (along : Along step ok s (first ++ second)) :
    Along step ok s first ∧ Along step ok (first.foldl step s) second := by
  induction first generalizing s with
  | nil => exact ⟨trivial, along⟩
  | cons input first ih =>
      have rest := ih along.2
      exact ⟨⟨along.1, rest.1⟩, rest.2⟩

theorem Along.invariant {invariant : σ → Prop}
    (kept : ∀ s input, invariant s → ok s input → invariant (step s input))
    (along : Along step ok s inputs) (initial : invariant s) :
    invariant (inputs.foldl step s) := by
  induction inputs generalizing s with
  | nil => exact initial
  | cons input inputs ih => exact ih along.2 (kept s input initial along.1)

end

section

variable {σ ι M : Type} [AddCommMonoid M] [PartialOrder M] [IsOrderedAddMonoid M]
variable {step : σ → ι → σ} {ok : σ → ι → Prop} {s : σ} {inputs : List ι}

/-- The charges of a run, each taken in the state that its input meets. -/
def spent (step : σ → ι → σ) (charge : σ → ι → M) : σ → List ι → M
  | _, [] => 0
  | s, input :: inputs => charge s input + spent step charge (step s input) inputs

theorem Along.spent_le {charge : σ → ι → M} {potential : σ → M}
    (pays : ∀ s input, ok s input → charge s input + potential (step s input) ≤ potential s)
    (along : Along step ok s inputs) :
    spent step charge s inputs + potential (inputs.foldl step s) ≤ potential s := by
  induction inputs generalizing s with
  | nil => exact le_of_eq (zero_add _)
  | cons input inputs ih =>
      calc spent step charge s (input :: inputs) + potential ((input :: inputs).foldl step s)
          = charge s input + (spent step charge (step s input) inputs +
              potential (inputs.foldl step (step s input))) := add_assoc _ _ _
        _ ≤ charge s input + potential (step s input) := add_le_add_right (ih along.2) _
        _ ≤ potential s := pays s input along.1

end

end SmsGateway.Lib
