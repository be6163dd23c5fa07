import SmsGateway.Lib.Faults

/-! What a program over a device does, with refused calls or without. -/

namespace SmsGateway.Lib

variable {κ ε σ α β ρ ι : Type} {faulty : Prop}

/-- Under every plan, or under the faultless one unless the device is faulty, the
program started in `s` returns a result and leaves a state that satisfy `post`. -/
def Ends (faulty : Prop) (p : FaultM κ σ α) (s : σ) (post : α → σ → Prop) : Prop :=
  ∀ plan, faulty ∨ plan = .faultless →
    (faulty ∨ (p (plan, s)).2.1 = .faultless) ∧ post (p (plan, s)).1 (p (plan, s)).2.2

/-- `Yields faulty p s value t`: started in `s`, the program can return `value` and leave
`t`; without faults unless the device is faulty. -/
def Yields (faulty : Prop) (p : FaultM κ σ α) (s : σ) (value : α) (t : σ) : Prop :=
  ∃ plan, (faulty ∨ plan = .faultless) ∧ (p (plan, s)).1 = value ∧ (p (plan, s)).2.2 = t

theorem Ends.yields {p : FaultM κ σ α} {s t : σ} {value : α} {post : α → σ → Prop}
    (ends : Ends faulty p s post) (yields : Yields faulty p s value t) : post value t := by
  obtain ⟨plan, clear, rfl, rfl⟩ := yields
  exact (ends plan clear).2

theorem Ends.pure {value : α} {s : σ} {post : α → σ → Prop} (holds : post value s) :
    Ends faulty (pure value : FaultM κ σ α) s post :=
  fun _ clear => ⟨clear, holds⟩

theorem Ends.bind {p : FaultM κ σ α} {f : α → FaultM κ σ β} {s : σ} {post : β → σ → Prop}
    (first : Ends faulty p s fun value t => Ends faulty (f value) t post) :
    Ends faulty (p >>= f) s post := by
  intro plan clear
  obtain ⟨still, later⟩ := first plan clear
  exact later _ still

theorem Ends.mono {p : FaultM κ σ α} {s : σ} {post weaker : α → σ → Prop}
    (ends : Ends faulty p s post) (implies : ∀ value t, post value t → weaker value t) :
    Ends faulty p s weaker := by
  intro plan clear
  obtain ⟨still, holds⟩ := ends plan clear
  exact ⟨still, implies _ _ holds⟩

/-- One call: refused, with nothing changed, or carried out. -/
theorem Ends.attempt [DecidableEq κ] {refused : Nat → ε} {call : κ} {act : σ → Except ε α × σ} {s : σ}
    {post : Except ε α → σ → Prop} (fails : faulty → ∀ code, post (.error (refused code)) s)
    (works : post (act s).1 (act s).2) : Ends faulty (attempt refused call act) s post := by
  intro plan clear
  cases planned : plan call 0 with
  | none =>
      rw [attempt_accepted _ _ _ _ _ planned]
      refine ⟨clear.imp_right ?_, works⟩
      rintro rfl
      exact Plan.skip_faultless call 1
  | some code =>
      rw [attempt_refused _ _ _ _ _ planned]
      have fault : faulty := by
        rcases clear with fault | rfl
        · exact fault
        · cases planned
      exact ⟨.inl fault, fails fault code⟩

/-- A scan that reads through `load` stops at a slot it read as a hit, or with an
error. -/
theorem Ends.firstSlot {load : ι → FaultM κ σ (Except ε (Option ρ))} {content : ι → Option ρ}
    {s : σ} (reads : ∀ slot, Ends faulty (load slot) s fun result t =>
      t = s ∧ ∀ found, result = .ok found → found = content slot)
    (hit : Option ρ → Bool) (absent : ε) (slots : List ι) :
    Ends faulty (firstSlot load hit absent slots) s fun result t =>
      t = s ∧ ∀ slot found, result = .ok (slot, found) →
        found = content slot ∧ hit found = true := by
  induction slots with
  | nil => exact .pure ⟨rfl, nofun⟩
  | cons slot rest ih =>
      apply Ends.bind
      refine Ends.mono (reads slot) ?_
      rintro result _ ⟨rfl, read⟩
      cases result with
      | error e => exact .pure ⟨rfl, nofun⟩
      | ok found =>
          by_cases stop : hit found = true
          · simp only [stop, ↓reduceIte]
            refine .pure ⟨rfl, ?_⟩
            rintro _ _ ⟨⟩
            exact ⟨read found rfl, stop⟩
          · simp only [stop]
            exact ih

end SmsGateway.Lib
