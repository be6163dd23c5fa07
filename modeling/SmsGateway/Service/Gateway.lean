import SmsGateway.Service.Custody

/-! The SMS service as a system: its task, the calls of other tasks, and restarts,
interleaved one call at a time. -/

namespace SmsGateway

open Lib Prog

/-- What the service task does between two events. -/
inductive Activity where
  | outbound
  | inbound (pdu : CStr) (index : Int)

def Activity.program : Activity → ServiceM Unit
  | .outbound => processOneOutbound
  | .inbound pdu index => do
      let _ ← processAnyPdu pdu index
      pure ()

/-- The service task before its loop. -/
def restartProgram : ServiceM Unit := markInterruptedSendsUncertain (2 ^ 32)

/-- A call from another task. -/
inductive ClientCall where
  | send (recipient text : CStr) (requestDeliveryReport : Bool)
  | retryUncertain (id : UInt32)
  | delete (id : UInt32)

def ClientCall.program : ClientCall → ServiceM (Except EspErr Unit)
  | .send recipient text requestDeliveryReport => do
      let result ← smsServiceSend recipient text requestDeliveryReport
      pure (result.map fun _ => ())
  | .retryUncertain id => smsServiceRetryUncertain id
  | .delete id => smsServiceDelete id

/-- The segments whose payload a request carries. -/
def ServiceCall.payloads : ServiceCall → List (UInt32 × Nat)
  | .execute request => request.origin.toList
  | _ => []

/-- A retry has changed the journal. -/
def ClientCall.Rewrites (w t : World) : ClientCall → ServiceCall → Prop
  | .retryUncertain _, .save _ => t.store ≠ w.store
  | _, _ => False

/-- The ids of the retries among these calls. -/
def ClientCall.retried : ClientCall → Except EspErr Unit → List UInt32
  | .retryUncertain id, .ok () => [id]
  | _, _ => []

/-- The journal, what is left of the running programs, the payloads handed to the
modem so far, and the retries that changed the journal or returned success. -/
structure Gateway where
  world : World
  service : ServiceM Unit
  clients : List (ClientCall × ServiceM (Except EspErr Unit))
  submitted : List (UInt32 × Nat)
  rewritten : List UInt32
  retried : List UInt32

namespace Gateway

inductive Step : Gateway → Gateway → Prop where
  | serviceCall {g : Gateway} {request : ServiceCall} {next : request.Reply → ServiceM Unit}
      {reply : request.Reply} {t : World} (waiting : g.service = .call request next)
      (answers : request.Answers g.world reply t) :
      Step g { g with
        world := t
        service := next reply
        submitted := request.payloads ++ g.submitted }
  | serviceNext {g : Gateway} (idle : g.service = .done ()) (activity : Activity) :
      Step g { g with service := activity.program }
  | clientStart {g : Gateway} (call : ClientCall) :
      Step g { g with clients := (call, call.program) :: g.clients }
  | clientCall {g : Gateway} {before after : List (ClientCall × ServiceM (Except EspErr Unit))}
      {call : ClientCall} {request : ServiceCall}
      {next : request.Reply → ServiceM (Except EspErr Unit)} {reply : request.Reply} {t : World}
      (waiting : g.clients = before ++ (call, .call request next) :: after)
      (answers : request.Answers g.world reply t) (quiet : ¬ call.Rewrites g.world t request) :
      Step g { g with world := t, clients := before ++ (call, next reply) :: after }
  | retryWrites {g : Gateway} {before after : List (ClientCall × ServiceM (Except EspErr Unit))}
      {id : UInt32} {request : ServiceCall}
      {next : request.Reply → ServiceM (Except EspErr Unit)} {reply : request.Reply} {t : World}
      (waiting : g.clients = before ++ (.retryUncertain id, .call request next) :: after)
      (answers : request.Answers g.world reply t)
      (changes : ClientCall.Rewrites g.world t (.retryUncertain id) request) :
      Step g { g with
        world := t
        clients := before ++ (.retryUncertain id, next reply) :: after
        rewritten := id :: g.rewritten }
  | clientReturn {g : Gateway} {before after : List (ClientCall × ServiceM (Except EspErr Unit))}
      {call : ClientCall} {result : Except EspErr Unit}
      (finished : g.clients = before ++ (call, .done result) :: after) :
      Step g { g with clients := before ++ after, retried := call.retried result ++ g.retried }
  | crash {g : Gateway} : Step g { g with service := restartProgram, clients := [] }
  | watermark {g : Gateway} (protection : Bool) (value : UInt32) :
      Step g { g with world :=
        { g.world with store := smsStoreSetReplayWatermark protection value g.world.store } }

/-- Everything that can happen to a journal from the start of the service on. -/
inductive Reached : Gateway → Prop where
  | start {s : Store} {issued : Nat} (reached : s.Reached issued) :
      Reached ⟨⟨s, issued, []⟩, restartProgram, [], [], [], []⟩
  | step {g g' : Gateway} (before : Reached g) (step : Step g g') : Reached g'

end Gateway

/-! The calls in progress after one of them went on or returned. -/

section

variable {α : Type} {P : α → Prop} {all before after : List α} {old new : α}

theorem forall_moved (each : ∀ client ∈ all, P client) (waiting : all = before ++ old :: after)
    (moved : P new) : ∀ client ∈ before ++ new :: after, P client := by
  rw [waiting, List.forall_mem_append, List.forall_mem_cons] at each
  rw [List.forall_mem_append, List.forall_mem_cons]
  exact ⟨each.1, moved, each.2.2⟩

theorem forall_remaining (each : ∀ client ∈ all, P client) (finished : all = before ++ old :: after) :
    ∀ client ∈ before ++ after, P client := by
  rw [finished, List.forall_mem_append, List.forall_mem_cons] at each
  rw [List.forall_mem_append]
  exact ⟨each.1, each.2.2⟩

end

/-! What the calls of other tasks may do. -/

/-- The calls a client of each kind makes. -/
def ClientCall.Allows : ClientCall → Knowledge → ServiceCall → Prop
  | .send _ _ _, _, .save message => message.id = 0
  | .retryUncertain id, k, .save message => message.id = id ∧ id ≠ 0 ∧ id ∈ k.seen
  | .delete _, _, .save _ => False
  | _, _, .execute _ => False
  | _, _, _ => True

theorem ClientCall.program_obeys (call : ClientCall) (k : Knowledge) :
    Obeys Knowledge.Step call.Allows (fun _ _ => True) call.program k := by
  cases call with
  | send recipient text report =>
      simp only [program, smsServiceSend]
      split
      · trivial
      · refine Obeys.bind (Obeys.send trivial ?_)
        rintro memory k' -
        cases memory with
        | false => trivial
        | true =>
            refine Obeys.send trivial ?_
            rintro random k' -
            split
            · trivial
            · trivial
            · split
              · trivial
              · refine Obeys.send trivial ?_
                rintro memory k' -
                cases memory with
                | false => trivial
                | true =>
                    refine Obeys.send rfl ?_
                    rintro ⟨result, back⟩ k' -
                    cases result <;> trivial
  | retryUncertain id =>
      refine Obeys.send trivial ?_
      rintro memory k' -
      cases memory with
      | false => trivial
      | true =>
          refine Obeys.send trivial ?_
          rintro reply k' ⟨truthful, learned⟩
          cases reply with
          | error e => trivial
          | ok m =>
              obtain ⟨named, -, same⟩ := truthful m rfl
              simp only [StoreQuery.Matches, beq_iff_eq] at same
              subst same
              dsimp only
              split
              · trivial
              · refine ⟨⟨rfl, named, ?_⟩, fun _ _ _ => trivial⟩
                rw [learned]
                exact List.mem_cons_self
  | delete id =>
      refine Obeys.send trivial ?_
      rintro memory k' -
      cases memory with
      | false => trivial
      | true =>
          refine Obeys.send trivial ?_
          rintro reply k' -
          cases reply with
          | error e => trivial
          | ok m =>
              dsimp only
              split
              · trivial
              · exact ⟨trivial, fun _ _ _ => trivial⟩

theorem Activity.careful (activity : Activity) : Careful activity.program := by
  cases activity with
  | outbound => exact careful_processOneOutbound
  | inbound pdu index => exact Safe.bind (careful_processAnyPdu pdu index) fun _ => Safe.pure ()

end SmsGateway
