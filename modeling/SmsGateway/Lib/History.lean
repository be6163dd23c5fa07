import SmsGateway.Lib.Program

/-! Programs whose calls depend on the calls before them. -/

namespace SmsGateway.Lib.Prog

variable {Call : Type} {Reply : Call → Type} {α : Type}

abbrev History (Call : Type) (Reply : Call → Type) := List (Entry Unit Call Reply)

/-- A call is noted behind the ones before it. -/
def Notes (history : History Call Reply) (request : Call) (reply : Reply request)
    (later : History Call Reply) : Prop :=
  later = history ++ [⟨(), request, reply⟩]

/-- What is allowed by the calls so far holds at every place of a run. -/
theorem Obeys.can {allowed : History Call Reply → Call → Prop} {post : α → History Call Reply → Prop}
    {p : Prog Call Reply α} {history : History Call Reply} (obeys : Obeys Notes allowed post p history)
    {trace : History Call Reply} {value : α} (can : p.Can trace value) :
    post value (history ++ trace) ∧
      ∀ before entry after, trace = before ++ entry :: after →
        allowed (history ++ before) entry.request := by
  induction p generalizing history trace with
  | done result =>
      cases can
      rw [List.append_nil]
      refine ⟨obeys, ?_⟩
      intro before entry after shape
      simp at shape
  | call request next ih =>
      cases can with
      | @call _ _ reply _ _ _ rest _ answered later =>
          obtain ⟨final, each⟩ := ih reply (obeys.2 reply _ rfl) later
          rw [List.append_assoc, List.singleton_append] at final
          refine ⟨final, ?_⟩
          intro before entry after shape
          cases before with
          | nil =>
              obtain ⟨rfl, -⟩ := List.cons.inj shape
              simpa using obeys.1
          | cons first before =>
              obtain ⟨rfl, tail⟩ := List.cons.inj shape
              simpa using each before entry after tail

end SmsGateway.Lib.Prog
