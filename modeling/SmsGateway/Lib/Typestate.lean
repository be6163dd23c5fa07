import SmsGateway.Lib.Interference

/-! Programs that follow a protocol.

The protocol is an automaton over calls and their answers: it says in which phase a
call may be made, and which phase its answer leads to. -/

namespace SmsGateway.Lib.Prog

variable {Call : Type} {Reply : Call → Type} {α β φ : Type}

/-- Whatever is answered, every call of the program is one the protocol has in its
phase. -/
def Follows (after : φ → (request : Call) → Reply request → Option φ) :
    φ → Prog Call Reply α → Prop
  | _, .done _ => True
  | phase, .call request next =>
      ∀ reply, ∃ later, after phase request reply = some later ∧ Follows after later (next reply)

variable {after : φ → (request : Call) → Reply request → Option φ}

theorem Follows.send {phase : φ} {request : Call} {f : Reply request → Prog Call Reply β}
    (next : (reply : Reply request) → φ)
    (moves : ∀ reply, after phase request reply = some (next reply))
    (rest : ∀ reply, Follows after (next reply) (f reply)) :
    Follows after phase (Prog.send request >>= f) :=
  fun reply => ⟨next reply, moves reply, rest reply⟩

/-- Calls that leave the phase, and then the rest. -/
theorem Follows.bind {phase : φ} {p : Prog Call Reply α} {f : α → Prog Call Reply β}
    (stays : p.Calls fun request => ∀ reply, after phase request reply = some phase)
    (rest : ∀ value, Follows after phase (f value)) : Follows after phase (p >>= f) := by
  induction p with
  | done value => exact rest value
  | call request next ih => exact fun reply => ⟨phase, stays.1 reply, ih reply (stays.2 reply)⟩

theorem Follows.returning {phase : φ} {p : Prog Call Reply α} (g : α → β)
    (follows : Follows after phase p) : Follows after phase (p >>= fun value => pure (g value)) := by
  induction p generalizing phase with
  | done value => trivial
  | call request next ih =>
      intro reply
      obtain ⟨later, moves, rest⟩ := follows reply
      exact ⟨later, moves, ih reply rest⟩

end SmsGateway.Lib.Prog
