import Mathlib.Logic.Function.Basic
import Mathlib.Data.List.FinRange
import Mathlib.Data.Fintype.Card

/-! Slot arrays as finite maps.

A journal keeps records in numbered slots in no particular order. The searches
here run over the slots; what they find is described by the records alone. -/

namespace SmsGateway.Lib

variable {ι ρ K : Type}

/-- One step of a search for the passing record with the least key: the slot
found so far and its key, which starts above every key that can be found. -/
def visitLeast [LT K] [DecidableLT K] (pass : ρ → Bool) (key : ρ → K) (best : Option ι × K)
    (slot : ι) : Option ρ → Option ι × K
  | some record => if pass record ∧ key record < best.2 then (some slot, key record) else best
  | none => best

/-- What a search for the least key has established about the slots seen. -/
structure LeastSeen [LT K] (rank : K → Nat) (pass : ρ → Bool) (key : ρ → K) (content : ι → Option ρ)
    (top : K) (seen : List ι) (best : Option ι × K) : Prop where
  found : ∀ slot, best.1 = some slot →
    slot ∈ seen ∧ ∃ record, content slot = some record ∧ pass record = true ∧
      key record = best.2 ∧ key record < top
  least : ∀ slot ∈ seen, ∀ record, content slot = some record → pass record = true →
    key record < top → rank best.2 ≤ rank (key record)
  untouched : best.1 = none → best.2 = top

theorem visitLeast_step [LT K] [DecidableLT K] (rank : K → Nat)
    (lt_iff : ∀ a b : K, a < b ↔ rank a < rank b)
    (pass : ρ → Bool) (key : ρ → K) (content : ι → Option ρ) (top : K) (seen : List ι)
    (best : Option ι × K) (slot : ι)
    (before : LeastSeen rank pass key content top seen best) :
    LeastSeen rank pass key content top (seen ++ [slot])
      (visitLeast pass key best slot (content slot)) := by
  cases stored : content slot with
  | none =>
      refine ⟨?_, ?_, before.untouched⟩
      · intro other chosen
        obtain ⟨member, record, rest⟩ := before.found other chosen
        exact ⟨List.mem_append_left _ member, record, rest⟩
      · intro other member record holds passes below
        rcases List.mem_append.mp member with member | member
        · exact before.least other member record holds passes below
        · simp only [List.mem_singleton] at member
          subst other
          simp [stored] at holds
  | some record =>
      simp only [visitLeast]
      split
      · rename_i better
        obtain ⟨passes, smaller⟩ := better
        have belowTop : key record < top := by
          cases chosen : best.1 with
          | none => simpa [before.untouched chosen] using smaller
          | some other =>
              obtain ⟨-, previous, -, -, same, below⟩ := before.found other chosen
              rw [lt_iff] at smaller below ⊢
              rw [same] at below
              omega
        refine ⟨?_, ?_, by simp⟩
        · rintro other chosen
          cases chosen
          exact ⟨by simp, record, stored, passes, rfl, belowTop⟩
        · intro other member otherRecord holds otherPasses below
          rcases List.mem_append.mp member with member | member
          · have earlier := before.least other member otherRecord holds otherPasses below
            exact Nat.le_of_lt (Nat.lt_of_lt_of_le ((lt_iff _ _).mp smaller) earlier)
          · simp only [List.mem_singleton] at member
            subst other
            rw [stored] at holds
            cases holds
            exact Nat.le_refl _
      · rename_i worse
        refine ⟨?_, ?_, before.untouched⟩
        · intro other chosen
          obtain ⟨member, rest⟩ := before.found other chosen
          exact ⟨List.mem_append_left _ member, rest⟩
        · intro other member otherRecord holds otherPasses below
          rcases List.mem_append.mp member with member | member
          · exact before.least other member otherRecord holds otherPasses below
          · simp only [List.mem_singleton] at member
            subst other
            rw [stored] at holds
            cases holds
            rw [lt_iff] at worse
            simp only [otherPasses, true_and, not_lt] at worse
            exact worse

theorem leastSeen_foldl [LT K] [DecidableLT K] (rank : K → Nat)
    (lt_iff : ∀ a b : K, a < b ↔ rank a < rank b)
    (pass : ρ → Bool) (key : ρ → K) (content : ι → Option ρ) (top : K) (slots : List ι) :
    LeastSeen rank pass key content top slots
      (slots.foldl (fun best slot => visitLeast pass key best slot (content slot))
        (none, top)) := by
  have general (seen rest : List ι) (best : Option ι × K)
      (before : LeastSeen rank pass key content top seen best) :
      LeastSeen rank pass key content top (seen ++ rest)
        (rest.foldl (fun best slot => visitLeast pass key best slot (content slot)) best) := by
    induction rest generalizing seen best with
    | nil => simpa using before
    | cons slot rest ih =>
        have next := ih (seen ++ [slot]) _
          (visitLeast_step rank lt_iff pass key content top seen best slot before)
        simpa using next
  have start : LeastSeen rank pass key content top [] ((none, top) : Option ι × K) :=
    ⟨by simp, by simp, by simp⟩
  simpa using general [] slots (none, top) start

/-- The search finds nothing exactly when no record passes below the top key. -/
theorem leastSeen_none [LT K] (rank : K → Nat) (lt_iff : ∀ a b : K, a < b ↔ rank a < rank b)
    {pass : ρ → Bool} {key : ρ → K} {content : ι → Option ρ} {top : K} {slots : List ι}
    {best : Option ι × K} (seen : LeastSeen rank pass key content top slots best)
    (nothing : best.1 = none) (slot : ι) (member : slot ∈ slots) (record : ρ)
    (holds : content slot = some record) (passes : pass record = true) :
    ¬ key record < top := by
  intro below
  have least := seen.least slot member record holds passes below
  rw [seen.untouched nothing] at least
  have := (lt_iff _ _).mp below
  omega

/-- A slot array with distinct keys determines the slot of a key. -/
def DistinctKeys (key : ρ → K) (content : ι → Option ρ) : Prop :=
  ∀ slot other record otherRecord, content slot = some record →
    content other = some otherRecord → key record = key otherRecord → slot = other

namespace DistinctKeys

variable [DecidableEq ι] {key : ρ → K} {content : ι → Option ρ}

theorem remove (distinct : DistinctKeys key content) (slot : ι) :
    DistinctKeys key (Function.update content slot none) := by
  intro first second record other held otherHeld
  rw [Function.update_apply] at held otherHeld
  split at held
  · cases held
  · split at otherHeld
    · cases otherHeld
    · exact distinct first second record other held otherHeld

/-- A record may take the slot of its own key, or any slot while its key is not
in use. -/
theorem store (distinct : DistinctKeys key content) {slot : ι} {record : ρ}
    (alone : ∀ other held, content other = some held → key held = key record → other = slot) :
    DistinctKeys key (Function.update content slot (some record)) := by
  intro first second stored other held otherHeld same
  rw [Function.update_apply] at held otherHeld
  split at held
  · rename_i here
    cases held
    split at otherHeld
    · rename_i there
      rw [here, there]
    · rw [here, alone second other otherHeld same.symm]
  · split at otherHeld
    · rename_i there
      cases otherHeld
      rw [there, alone first stored held same]
    · exact distinct first second stored other held otherHeld same

end DistinctKeys

/-- Reading out all slots after one of them was written. -/
theorem filterMap_update_perm [DecidableEq ι] (content : ι → Option ρ) {slots : List ι}
    (nodup : slots.Nodup) {slot : ι} (member : slot ∈ slots) (record : ρ) :
    (slots.filterMap (Function.update content slot (some record))).Perm
      (record :: slots.filterMap (Function.update content slot none)) := by
  obtain ⟨before, after, rfl⟩ := List.append_of_mem member
  have apart (part : List ι) (value : Option ρ) (missing : slot ∉ part) :
      part.filterMap (Function.update content slot value) = part.filterMap content := by
    apply List.filterMap_congr
    intro other otherMember
    rw [Function.update_of_ne]
    rintro rfl
    exact missing otherMember
  rw [List.nodup_append, List.nodup_cons] at nodup
  obtain ⟨-, ⟨notAfter, -⟩, disjoint⟩ := nodup
  have notBefore : slot ∉ before := fun early => disjoint slot early slot (by simp) rfl
  simp only [List.filterMap_append, List.filterMap_cons, Function.update_self, apart before _
    notBefore, apart after _ notAfter]
  exact List.perm_middle

end SmsGateway.Lib
