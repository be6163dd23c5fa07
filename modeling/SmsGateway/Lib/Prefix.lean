import SmsGateway.Lib.Program

/-! The beginning of a run, up to one of its calls. -/

namespace SmsGateway.Lib.Prog

variable {Call : Type} {Reply : Call → Type} {α : Type}

/-- After these calls of the program this is left of it. -/
inductive Begins : Prog Call Reply α → List (Entry Unit Call Reply) → Prog Call Reply α → Prop where
  | here {p : Prog Call Reply α} : Begins p [] p
  | call {request : Call} {next : Reply request → Prog Call Reply α} {reply : Reply request}
      {trace : List (Entry Unit Call Reply)} {rest : Prog Call Reply α}
      (later : Begins (next reply) trace rest) :
      Begins (.call request next) (⟨(), request, reply⟩ :: trace) rest

theorem Begins.next {p : Prog Call Reply α} {trace : List (Entry Unit Call Reply)} {request : Call}
    {next : Reply request → Prog Call Reply α} (begins : p.Begins trace (.call request next))
    (reply : Reply request) : p.Begins (trace ++ [⟨(), request, reply⟩]) (next reply) := by
  generalize whole : Prog.call request next = rest at begins
  induction begins with
  | here =>
      subst whole
      exact .call .here
  | call _ ih => exact .call (ih whole)

/-- A beginning and a run of what is left are a run. -/
theorem Begins.can {p rest : Prog Call Reply α} {first last : List (Entry Unit Call Reply)} {value : α}
    (begins : p.Begins first rest) (can : rest.Can last value) : p.Can (first ++ last) value := by
  induction begins with
  | here => exact can
  | call _ ih => exact .call trivial (ih can)

/-- Every program has a run. -/
theorem exists_can [∀ request, Nonempty (Reply request)] (p : Prog Call Reply α) :
    ∃ trace value, p.Can trace value := by
  induction p with
  | done value => exact ⟨[], value, .done⟩
  | call request next ih =>
      obtain ⟨reply⟩ := (inferInstance : Nonempty (Reply request))
      obtain ⟨trace, value, can⟩ := ih reply
      exact ⟨_, value, .call trivial can⟩

/-- A program of one kind of calls as one of another. -/
def lift {Other : Type} {Answer : Other → Type} (embed : Call → Other)
    (back : ∀ request, Answer (embed request) → Reply request) :
    Prog Call Reply α → Prog Other Answer α
  | .done value => .done value
  | .call request next => .call (embed request) fun reply => lift embed back (next (back request reply))

end SmsGateway.Lib.Prog
