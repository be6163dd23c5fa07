import Mathlib.Logic.Function.Basic
import Mathlib.Data.List.FinRange

/-! Storage calls that may be refused.

A `Plan` decides for every kind of storage call, and for each further call of
that kind, whether the device refuses it and with which code. The loops below
scan a numbered set of slots through such calls, as flash journals do. -/

namespace SmsGateway.Lib

/-- `plan call n` is the error code of the `n`-th call of this kind from now on,
or `none` when the device carries it out. -/
abbrev Plan (κ : Type) := κ → Nat → Option Nat

namespace Plan

variable {κ : Type}

def faultless : Plan κ := fun _ _ => none

@[simp] theorem faultless_apply (call : κ) (n : Nat) : (faultless : Plan κ) call n = none := rfl

variable [DecidableEq κ]

/-- The plan after `count` calls of kind `call`. -/
def skip (plan : Plan κ) (call : κ) (count : Nat) : Plan κ :=
  Function.update plan call (fun n => plan call (n + count))

@[simp] theorem skip_zero (plan : Plan κ) (call : κ) : plan.skip call 0 = plan := by
  simp [skip]

@[simp] theorem skip_same (plan : Plan κ) (call : κ) (count n : Nat) :
    plan.skip call count call n = plan call (n + count) := by
  simp [skip]

@[simp] theorem skip_other (plan : Plan κ) {call other : κ} (count : Nat)
    (different : other ≠ call) : plan.skip call count other = plan other := by
  simp [skip, different]

@[simp] theorem skip_faultless (call : κ) (count : Nat) :
    (faultless : Plan κ).skip call count = faultless := by
  funext other n
  by_cases same : other = call
  · subst same
    simp
  · simp [same]

theorem skip_skip (plan : Plan κ) (call : κ) (first second : Nat) :
    (plan.skip call first).skip call second = plan.skip call (second + first) := by
  funext other n
  by_cases same : other = call
  · subst same
    simp [Nat.add_assoc]
  · simp [same]

end Plan

/-- Programs over a device state and its fault plan. -/
abbrev FaultM (κ σ : Type) := StateM (Plan κ × σ)

section

variable {κ ε σ α ρ ι : Type}

theorem pure_apply (value : α) (device : Plan κ × σ) :
    (pure value : FaultM κ σ α) device = (value, device) := rfl

theorem modify_apply (change : Plan κ × σ → Plan κ × σ) (device : Plan κ × σ) :
    (modify change : FaultM κ σ PUnit) device = (⟨⟩, change device) := rfl

variable [DecidableEq κ]

/-- One storage call: refused with the planned code, or carried out. -/
def attempt (refused : Nat → ε) (call : κ) (act : σ → Except ε α × σ) :
    FaultM κ σ (Except ε α) := fun (plan, s) =>
  match plan call 0 with
  | some code => (.error (refused code), (plan.skip call 1, s))
  | none => ((act s).1, (plan.skip call 1, (act s).2))

theorem attempt_refused (refused : Nat → ε) (call : κ) (act : σ → Except ε α × σ)
    (plan : Plan κ) (s : σ) {code : Nat} (fault : plan call 0 = some code) :
    attempt refused call act (plan, s) = (.error (refused code), (plan.skip call 1, s)) := by
  simp [attempt, fault]

theorem attempt_accepted (refused : Nat → ε) (call : κ) (act : σ → Except ε α × σ)
    (plan : Plan κ) (s : σ) (clear : plan call 0 = none) :
    attempt refused call act (plan, s) = ((act s).1, (plan.skip call 1, (act s).2)) := by
  simp [attempt, clear]

/-- A slot read: refused by the plan, or the view of that slot. -/
def readSlot (refused : Nat → ε) (call : κ) (view : σ → ι → Except ε (Option ρ)) (slot : ι) :
    FaultM κ σ (Except ε (Option ρ)) :=
  attempt refused call (fun s => (view s slot, s))

/-- Scan slots in order and stop at the first whose content passes `hit`.
A failed read ends the scan with its error. -/
def firstSlot (load : ι → FaultM κ σ (Except ε (Option ρ))) (hit : Option ρ → Bool) (absent : ε) :
    List ι → FaultM κ σ (Except ε (ι × Option ρ))
  | [] => pure (.error absent)
  | slot :: rest => do
      match ← load slot with
      | .error e => pure (.error e)
      | .ok content =>
          if hit content then pure (.ok (slot, content)) else firstSlot load hit absent rest

/-- Visit every slot in order, threading an accumulator. -/
def foldSlots (load : ι → FaultM κ σ (Except ε (Option ρ))) (visit : α → ι → Option ρ → α) :
    List ι → α → FaultM κ σ (Except ε α)
  | [], acc => pure (.ok acc)
  | slot :: rest, acc => do
      match ← load slot with
      | .error e => pure (.error e)
      | .ok content => foldSlots load visit rest (visit acc slot content)

/-- The outcome of a scan that stopped at this slot, if at any. -/
def foundOr (absent : ε) (content : ι → Option ρ) : Option ι → Except ε (ι × Option ρ)
  | some slot => .ok (slot, content slot)
  | none => .error absent

/-- Reads a scan makes before it stops. -/
def readsUsed (hit : ι → Bool) : List ι → Nat
  | [] => 0
  | slot :: rest => if hit slot then 1 else readsUsed hit rest + 1

theorem readsUsed_of_absent (hit : ι → Bool) (slots : List ι)
    (absent : slots.find? hit = none) : readsUsed hit slots = slots.length := by
  induction slots with
  | nil => rfl
  | cons slot rest ih =>
      simp only [List.find?_cons] at absent
      split at absent
      · cases absent
      · rename_i miss
        simp [readsUsed, miss, ih absent]

variable (refused : Nat → ε) (call : κ) (view : σ → ι → Except ε (Option ρ))
  (content : ι → Option ρ) (plan : Plan κ) (s : σ)

/-- The reads a scan needs are all carried out: it returns the first hit. -/
theorem firstSlot_clear (hit : Option ρ → Bool) (absent : ε) (slots : List ι)
    (sound : ∀ slot, view s slot = .ok (content slot))
    (clear : ∀ n < readsUsed (fun slot => hit (content slot)) slots, plan call n = none) :
    firstSlot (readSlot refused call view) hit absent slots (plan, s) =
      (foundOr absent content (slots.find? fun slot => hit (content slot)),
       (plan.skip call (readsUsed (fun slot => hit (content slot)) slots), s)) := by
  induction slots generalizing plan with
  | nil => simp [firstSlot, foundOr, readsUsed, pure_apply]
  | cons slot rest ih =>
      have first : plan call 0 = none := by
        apply clear
        simp only [readsUsed]
        split <;> omega
      simp only [firstSlot, bind, StateT.bind, readSlot, attempt_accepted _ _ _ _ _ first, sound]
      by_cases found : hit (content slot)
      · simp [found, foundOr, readsUsed, pure_apply]
      · simp only [found, Bool.false_eq_true, ↓reduceIte, readsUsed, List.find?_cons]
        have later := ih (plan.skip call 1) (by
          intro n bound
          rw [Plan.skip_same]
          apply clear
          simpa [readsUsed, found] using bound)
        rw [Plan.skip_skip] at later
        exact later

/-- One of the reads a scan needs is refused: it returns that error. -/
theorem firstSlot_fault (hit : Option ρ → Bool) (absent : ε) (slots : List ι)
    (sound : ∀ slot, view s slot = .ok (content slot))
    (fault : ∃ n < readsUsed (fun slot => hit (content slot)) slots, plan call n ≠ none) :
    ∃ code reads, firstSlot (readSlot refused call view) hit absent slots (plan, s) =
      (.error (refused code), (plan.skip call reads, s)) := by
  induction slots generalizing plan with
  | nil =>
      obtain ⟨n, bound, -⟩ := fault
      simp [readsUsed] at bound
  | cons slot rest ih =>
      cases first : plan call 0 with
      | some code =>
          refine ⟨code, 1, ?_⟩
          simp [firstSlot, bind, StateT.bind, readSlot, attempt_refused _ _ _ _ _ first, pure_apply]
      | none =>
          obtain ⟨n, bound, faulty⟩ := fault
          have positive : n ≠ 0 := by
            rintro rfl
            exact faulty first
          have miss : hit (content slot) = false := by
            by_contra found
            simp only [readsUsed, Bool.not_eq_false] at bound found
            simp only [found, ↓reduceIte] at bound
            omega
          have later := ih (plan.skip call 1) (by
            refine ⟨n - 1, ?_, ?_⟩
            · simp only [readsUsed, miss, Bool.false_eq_true, ↓reduceIte] at bound
              omega
            · rw [Plan.skip_same, show n - 1 + 1 = n by omega]
              exact faulty)
          obtain ⟨code, reads, run⟩ := later
          refine ⟨code, reads + 1, ?_⟩
          rw [Plan.skip_skip] at run
          simp only [firstSlot, bind, StateT.bind, readSlot,
            attempt_accepted _ _ _ _ _ first, sound, miss, Bool.false_eq_true, ↓reduceIte]
          exact run

/-- A scan that meets no refused read returns the fold over all slots. -/
theorem foldSlots_clear (visit : α → ι → Option ρ → α) (slots : List ι) (acc : α)
    (sound : ∀ slot, view s slot = .ok (content slot))
    (clear : ∀ n < slots.length, plan call n = none) :
    foldSlots (readSlot refused call view) visit slots acc (plan, s) =
      (.ok (slots.foldl (fun a slot => visit a slot (content slot)) acc),
       (plan.skip call slots.length, s)) := by
  induction slots generalizing plan acc with
  | nil => simp [foldSlots, pure_apply]
  | cons slot rest ih =>
      have first : plan call 0 = none := clear 0 (by simp)
      simp only [foldSlots, bind, StateT.bind, readSlot, attempt_accepted _ _ _ _ _ first, sound]
      have later := ih (plan.skip call 1) (visit acc slot (content slot)) (by
        intro n bound
        rw [Plan.skip_same]
        exact clear (n + 1) (by simpa using bound))
      rw [Plan.skip_skip] at later
      exact later

theorem foldSlots_fault (visit : α → ι → Option ρ → α) (slots : List ι) (acc : α)
    (sound : ∀ slot, view s slot = .ok (content slot))
    (fault : ∃ n < slots.length, plan call n ≠ none) :
    ∃ code reads, foldSlots (readSlot refused call view) visit slots acc (plan, s) =
      (.error (refused code), (plan.skip call reads, s)) := by
  induction slots generalizing plan acc with
  | nil =>
      obtain ⟨n, bound, -⟩ := fault
      simp at bound
  | cons slot rest ih =>
      cases first : plan call 0 with
      | some code =>
          refine ⟨code, 1, ?_⟩
          simp [foldSlots, bind, StateT.bind, readSlot, attempt_refused _ _ _ _ _ first, pure_apply]
      | none =>
          obtain ⟨n, bound, faulty⟩ := fault
          have positive : n ≠ 0 := by
            rintro rfl
            exact faulty first
          have later := ih (plan.skip call 1) (visit acc slot (content slot)) (by
            refine ⟨n - 1, ?_, ?_⟩
            · simp only [List.length_cons] at bound
              omega
            · rw [Plan.skip_same, show n - 1 + 1 = n by omega]
              exact faulty)
          obtain ⟨code, reads, run⟩ := later
          refine ⟨code, reads + 1, ?_⟩
          rw [Plan.skip_skip] at run
          simp only [foldSlots, bind, StateT.bind, readSlot, attempt_accepted _ _ _ _ _ first,
            sound]
          exact run

/-- Whatever the plan, a scan ends with the first hit or with a refused read,
and changes nothing. -/
theorem firstSlot_cases (hit : Option ρ → Bool) (absent : ε) (slots : List ι)
    (sound : ∀ slot, view s slot = .ok (content slot)) :
    ∃ reads, firstSlot (readSlot refused call view) hit absent slots (plan, s) =
        (foundOr absent content (slots.find? fun slot => hit (content slot)),
          (plan.skip call reads, s)) ∨
      ∃ code, firstSlot (readSlot refused call view) hit absent slots (plan, s) =
        (.error (refused code), (plan.skip call reads, s)) := by
  by_cases clear : ∀ n < readsUsed (fun slot => hit (content slot)) slots, plan call n = none
  · exact ⟨_, .inl (firstSlot_clear refused call view content plan s hit absent slots sound clear)⟩
  · push Not at clear
    obtain ⟨code, reads, run⟩ :=
      firstSlot_fault refused call view content plan s hit absent slots sound clear
    exact ⟨reads, .inr ⟨code, run⟩⟩

theorem foldSlots_cases (visit : α → ι → Option ρ → α) (slots : List ι) (acc : α)
    (sound : ∀ slot, view s slot = .ok (content slot)) :
    ∃ reads, foldSlots (readSlot refused call view) visit slots acc (plan, s) =
        (.ok (slots.foldl (fun a slot => visit a slot (content slot)) acc),
          (plan.skip call reads, s)) ∨
      ∃ code, foldSlots (readSlot refused call view) visit slots acc (plan, s) =
        (.error (refused code), (plan.skip call reads, s)) := by
  by_cases clear : ∀ n < slots.length, plan call n = none
  · exact ⟨_, .inl (foldSlots_clear refused call view content plan s visit slots acc sound clear)⟩
  · push Not at clear
    obtain ⟨code, reads, run⟩ :=
      foldSlots_fault refused call view content plan s visit slots acc sound clear
    exact ⟨reads, .inr ⟨code, run⟩⟩

end

end SmsGateway.Lib
