import Mathlib.Init

/-! Storage that is read at once and kept at a commit.

A write is seen by later reads, but until the next commit a power loss may bring
back any of the contents since the last one. -/

namespace SmsGateway.Lib

variable {σ : Type}

/-- What reads return, and the earlier contents since the last commit. -/
structure Staged (σ : Type) where
  current : σ
  earlier : List σ

namespace Staged

def write (s : Staged σ) (contents : σ) : Staged σ := ⟨contents, s.current :: s.earlier⟩

def commit (s : Staged σ) : Staged σ := ⟨s.current, []⟩

/-- A power loss leaves one of the contents since the last commit. -/
def PowerLoss (s t : Staged σ) : Prop := t.earlier = [] ∧ (t.current = s.current ∨ t.current ∈ s.earlier)

@[simp] theorem write_current (s : Staged σ) (contents : σ) :
    (s.write contents).current = contents := rfl

/-- Whatever a power loss leaves satisfies `P`. -/
structure Throughout (P : σ → Prop) (s : Staged σ) : Prop where
  current : P s.current
  earlier : ∀ contents ∈ s.earlier, P contents

variable {P : σ → Prop} {s t : Staged σ}

theorem Throughout.write (throughout : s.Throughout P) {contents : σ} (holds : P contents) :
    (s.write contents).Throughout P :=
  ⟨holds, List.forall_mem_cons.mpr ⟨throughout.current, throughout.earlier⟩⟩

theorem Throughout.of_current (holds : P s.current) : s.commit.Throughout P :=
  ⟨holds, nofun⟩

theorem Throughout.powerLoss (throughout : s.Throughout P) (lost : s.PowerLoss t) :
    t.Throughout P := by
  obtain ⟨nothing, here | before⟩ := lost
  · refine ⟨?_, by simp [nothing]⟩
    rw [here]
    exact throughout.current
  · exact ⟨throughout.earlier _ before, by simp [nothing]⟩

end Staged

end SmsGateway.Lib
