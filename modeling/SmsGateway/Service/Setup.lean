import SmsGateway.Service.Arrivals
import SmsGateway.Service.Task

/-! Nothing is submitted to a modem that has not been set up since it was last
announced or lost. -/

namespace SmsGateway

open Lib Prog
open TaskM (ask)

abbrev TaskEntry := Entry Unit TaskCall TaskCall.Reply
abbrev TaskHistory := History TaskCall TaskCall.Reply

/-- The modem confirmed one of these commands. -/
def Confirms (commands : List CStr) : TaskEntry → Prop
  | ⟨_, .setup command, .ok response⟩ => command ∈ commands ∧ response.result = .ok
  | _ => False

/-- The modem was announced or lost. -/
def Changes : TaskEntry → Prop
  | ⟨_, .receive, some .modemReady⟩ | ⟨_, .receive, some .modemLost⟩ => True
  | _ => False

theorem Confirms.of_mem {commands : List CStr} {command : CStr} {entry : TaskEntry}
    (confirms : Confirms [command] entry) (member : command ∈ commands) :
    Confirms commands entry := by
  obtain ⟨_, request, reply⟩ := entry
  cases request with
  | setup other =>
      cases reply with
      | error e => exact confirms.elim
      | ok response =>
          obtain ⟨this, confirmed⟩ := confirms
          rw [List.mem_singleton] at this
          exact ⟨this ▸ member, confirmed⟩
  | receive | tickCount | read _ | service _ => exact confirms.elim

/-- The PDU mode was confirmed, and the modem has not changed since. -/
def InPduMode (history : TaskHistory) : Prop :=
  ∃ before mode after, history = before ++ mode :: after ∧ Confirms [pduModeCommand] mode ∧
    ∀ entry ∈ after, ¬Changes entry

/-- The PDU mode and then an indication were confirmed, and the modem has not changed
since. -/
def SetUp (history : TaskHistory) : Prop :=
  ∃ before mode between indication after,
    history = before ++ mode :: (between ++ indication :: after) ∧
      Confirms [pduModeCommand] mode ∧ Confirms indicationCommands indication ∧
      ∀ entry ∈ between ++ after, ¬Changes entry

/-- The request carries a segment of a message. -/
def Submits : TaskCall → Prop
  | .service request => request.payloads ≠ []
  | _ => False

/-- A submission needs a modem that is set up. -/
def Prepared (history : TaskHistory) (request : TaskCall) : Prop := Submits request → SetUp history

/-- A fact that only a change of the modem ends. -/
def Lasting (fact : TaskHistory → Prop) : Prop :=
  ∀ history entry, fact history → ¬Changes entry → fact (history ++ [entry])

theorem lasting_inPduMode : Lasting InPduMode := by
  rintro history entry ⟨before, mode, after, rfl, confirms, calm⟩ quiet
  refine ⟨before, mode, after ++ [entry], by simp, confirms, ?_⟩
  intro other member
  rcases List.mem_append.mp member with member | member
  · exact calm other member
  · rw [List.mem_singleton.mp member]
    exact quiet

theorem lasting_setUp : Lasting SetUp := by
  rintro history entry ⟨before, mode, between, indication, after, rfl, mode_, indicated, calm⟩ quiet
  refine ⟨before, mode, between, indication, after ++ [entry], by simp, mode_, indicated, ?_⟩
  rw [← List.append_assoc]
  intro other member
  rcases List.mem_append.mp member with member | member
  · exact calm other member
  · rw [List.mem_singleton.mp member]
    exact quiet

/-- An indication is confirmed in PDU mode. -/
theorem InPduMode.setUp {history : TaskHistory} {entry : TaskEntry} (pdu : InPduMode history)
    (confirms : Confirms indicationCommands entry) : SetUp (history ++ [entry]) := by
  obtain ⟨before, mode, after, rfl, mode_, calm⟩ := pdu
  exact ⟨before, mode, after, entry, [], by simp, mode_, confirms, by simpa using calm⟩

/-- What the variable of the task stands for. -/
def TaskState.Knows (s : TaskState) (history : TaskHistory) : Prop :=
  s.pduModeConfigured = true → SetUp history

theorem lasting_knows (s : TaskState) : Lasting s.Knows :=
  fun history entry knows quiet configured => lasting_setUp history entry (knows configured) quiet

/-- The task's calls are prepared, and afterwards this holds. -/
abbrev Acts {α : Type} (post : α → TaskHistory → Prop) (program : TaskM α) (history : TaskHistory) :
    Prop :=
  Obeys Notes Prepared post program history

/-- The program submits nothing. -/
def Unsent {α : Type} (program : ServiceM α) : Prop :=
  Safe (fun (_ : Unit) _ _ _ => True) (fun _ request => request.payloads = []) program

variable {history : TaskHistory} {α : Type}

theorem acts_unsent {program : ServiceM α} (unsent : Unsent program) (configured : Bool)
    {fact : TaskHistory → Prop} (lasting : Lasting fact) (holds : fact history) :
    Acts (fun _ => fact) (inTask configured program) history := by
  induction program generalizing history with
  | done value => exact holds
  | call request next ih =>
      obtain ⟨nothing, later⟩ := unsent ()
      have rest (reply : request.Reply) {history : TaskHistory} (holds : fact history) :=
        ih reply (fun _ => later reply () trivial) holds
      have calls : Acts (fun _ => fact)
          (.call (.service request) fun reply => inTask configured (next reply)) history := by
        refine ⟨fun submits => absurd nothing submits, ?_⟩
        rintro reply _ rfl
        exact rest reply (lasting history _ holds id)
      cases request with
      | pduModeConfigured => exact rest configured holds
      | isReady | alloc | espRandom | execute _ | query _ | findOutboundReference _ _ | list _ _
      | save _ | delete _ | emit _ _ => exact calls

theorem acts_setUp (program : ServiceM α) (configured : Bool) (setUp : SetUp history) :
    Acts (fun _ => SetUp) (inTask configured program) history := by
  induction program generalizing history with
  | done value => exact setUp
  | call request next ih =>
      have calls : Acts (fun _ => SetUp)
          (.call (.service request) fun reply => inTask configured (next reply)) history := by
        refine ⟨fun _ => setUp, ?_⟩
        rintro reply _ rfl
        exact ih reply (lasting_setUp history _ setUp id)
      cases request with
      | pduModeConfigured => exact ih configured setUp
      | isReady | alloc | espRandom | execute _ | query _ | findOutboundReference _ _ | list _ _
      | save _ | delete _ | emit _ _ => exact calls

/-- A call of the task that carries nothing. -/
theorem acts_ask {request : TaskCall} {next : request.Reply → TaskM α}
    {post : α → TaskHistory → Prop} (carries : ¬Submits request)
    (rest : ∀ reply, Acts post (next reply) (history ++ [⟨(), request, reply⟩])) :
    Acts post (ask request >>= next) history := by
  refine Obeys.send (fun submits => absurd submits carries) ?_
  rintro reply _ rfl
  exact rest reply

theorem not_submits_isReady : ¬Submits (.service .isReady) := fun submits => submits rfl

/-! Inbound messages. -/

theorem receives_unsent : Receives
    (fun (_ : Unit) (request : ServiceCall) (_ : request.Reply) _ => True)
    fun _ request => request.payloads = [] where
  plain := by
    intro _ request plain
    cases request with
    | execute request => exact plain.elim
    | isReady | pduModeConfigured | alloc | espRandom | query _ | findOutboundReference _ _
    | list _ _ | save _ | delete _ | emit _ _ => rfl
  arrived := fun _ _ _ _ => rfl
  part := fun _ _ _ _ _ _ _ _ => rfl

theorem payloads_of_origin (_ : Unit) (request : AtRequest) (plain : request.origin = none) :
    (ServiceCall.execute request).payloads = [] := by
  rw [ServiceCall.payloads, plain]
  rfl

theorem unsent_processStatusReportPdu (pdu : CStr) : Unsent (processStatusReportPdu pdu) :=
  receives_unsent.processStatusReportPdu (fun _ _ _ _ _ _ _ _ => rfl) pdu

theorem unsent_processAnyPdu (pdu : CStr) (index : Int) : Unsent (processAnyPdu pdu index) :=
  receives_unsent.processAnyPdu payloads_of_origin unsent_processStatusReportPdu pdu index

theorem unsent_processDirect (pending : DirectUrcPending) (line : CStr) :
    Unsent (processDirect pending line) := by
  cases pending with
  | deliver =>
      exact (receives_unsent.processDeliverPdu payloads_of_origin line (-1)).bind fun _ => .pure _
  | none | statusReport => exact (unsent_processStatusReportPdu line).bind fun _ => .pure _

theorem unsent_markInterruptedLoop (rounds : Nat) (after : UInt32) :
    Unsent (markInterruptedLoop rounds after) := by
  induction rounds generalizing after with
  | zero => exact .pure _
  | succ rounds ih =>
      refine Safe.bind (.send fun _ => rfl) fun reply => ?_
      match reply with
      | .error e => exact .pure _
      | .ok [] => exact .pure _
      | .ok (record :: _) =>
          refine Safe.bind ?_ fun record => ih record.id
          simp only [markInterrupted]
          split
          · refine Safe.bind (.send fun _ => rfl) ?_
            rintro ⟨_, saved⟩
            exact Safe.bind (.send fun _ => rfl) fun _ => .pure _
          · exact .pure _

theorem unsent_restartProgram : Unsent restartProgram := by
  refine Safe.bind (.send fun _ => rfl) fun memory => ?_
  split
  · exact .pure _
  · exact unsent_markInterruptedLoop _ 0

theorem acts_readModemIndex {configured : Bool} {index : Int} {fact : TaskHistory → Prop}
    (lasting : Lasting fact) (holds : fact history) :
    Acts (fun _ => fact) (readModemIndex configured index) history := by
  refine acts_ask not_submits_isReady ?_
  intro ready
  have here := lasting history ⟨(), .service .isReady, ready⟩ holds id
  cases ready with
  | false => exact here
  | true =>
      refine acts_ask id ?_
      intro result
      have here := lasting _ ⟨(), .read index, result⟩ here id
      cases result with
      | error e => exact here
      | ok response =>
          dsimp only
          split
          · exact here
          · split
            · exact here
            · refine Obeys.bind ?_
              refine Obeys.mono ?_ (acts_unsent (unsent_processAnyPdu _ index) configured lasting here)
              exact fun _ _ => id

theorem acts_handleUrcLine {line : CStr} {s : TaskState} (knows : s.Knows history) :
    Acts (fun t history => t.Knows history) (handleUrcLine line s) history := by
  rw [handleUrcLine]
  split
  · split
    · refine Obeys.bind (Obeys.mono ?_ (acts_unsent (unsent_processDirect _ line) _
        (lasting_knows s) knows))
      exact fun _ _ => id
    · exact knows
  · split
    · exact knows
    · split
      · exact knows
      · split
        · exact knows
        · refine Obeys.bind (Obeys.mono ?_ (acts_readModemIndex (lasting_knows s) knows))
          exact fun _ _ => id

/-! The setup. -/

/-- What a setup command leaves: a history that ends with its confirmation, if it was
accepted. -/
def SetupDone (s : TaskState) (command : CStr) (fact : TaskHistory → Prop) :
    Bool × TaskState → TaskHistory → Prop
  | (true, t), history =>
      t.pduModeConfigured = s.pduModeConfigured ∧
        ∃ before entry, history = before ++ [entry] ∧ fact before ∧ Confirms [command] entry
  | (false, t), history => t.pduModeConfigured = s.pduModeConfigured ∧ fact history

theorem acts_setupCommand {command : CStr} {s : TaskState} {fact : TaskHistory → Prop}
    (lasting : Lasting fact) (holds : fact history) :
    Acts (SetupDone s command fact) (setupCommand command s) history := by
  refine acts_ask not_submits_isReady ?_
  intro ready
  have here := lasting history ⟨(), .service .isReady, ready⟩ holds id
  cases ready with
  | false => exact ⟨rfl, here⟩
  | true =>
      refine acts_ask id ?_
      intro result
      have later := lasting _ ⟨(), .setup command, result⟩ here id
      cases result with
      | error e => exact ⟨rfl, later⟩
      | ok response =>
          dsimp only
          split
          · rename_i confirmed
            exact ⟨rfl, _, _, rfl, here, List.mem_singleton_self command, confirmed⟩
          · exact ⟨rfl, later⟩

/-- The indications are tried in PDU mode. -/
def IndicationsDone (s : TaskState) : Bool × TaskState → TaskHistory → Prop
  | (accepted, t), history =>
      t.pduModeConfigured = s.pduModeConfigured ∧ (accepted = true → SetUp history)

theorem acts_setupIndications (commands : List CStr) (known : ∀ command ∈ commands, command ∈ indicationCommands)
    {s : TaskState} (pdu : InPduMode history) :
    Acts (IndicationsDone s) (setupIndications commands s) history := by
  induction commands generalizing history s with
  | nil => exact ⟨rfl, nofun⟩
  | cons command rest ih =>
      obtain ⟨here, later⟩ := List.forall_mem_cons.mp known
      refine Obeys.bind (Obeys.mono ?_ (acts_setupCommand lasting_inPduMode pdu))
      rintro ⟨accepted, t⟩ history done
      cases accepted with
      | true =>
          obtain ⟨same, before, entry, rfl, pdu, confirms⟩ := done
          exact ⟨same, fun _ => pdu.setUp (confirms.of_mem here)⟩
      | false =>
          obtain ⟨same, pdu⟩ := done
          refine Obeys.mono ?_ (ih later pdu)
          intro result history done
          exact ⟨done.1.trans same, done.2⟩

theorem acts_configurePduMode {s : TaskState} (fresh : s.pduModeConfigured = false) :
    Acts (fun t history => t.Knows history) (configurePduMode s) history := by
  have open_ {t : TaskState} {history : TaskHistory} (same : t.pduModeConfigured = s.pduModeConfigured) :
      t.Knows history := by
    intro configured
    cases fresh.symm.trans (same.symm.trans configured)
  have lasting : Lasting fun _ => True := fun _ _ _ _ => trivial
  refine Obeys.bind (Obeys.mono ?_ (acts_setupCommand lasting trivial))
  rintro ⟨accepted, t⟩ history done
  cases accepted with
  | false => exact open_ done.1
  | true =>
      obtain ⟨same, before, entry, rfl, -, confirms⟩ := done
      have pdu : InPduMode (before ++ [entry]) := ⟨before, entry, [], rfl, confirms, by simp⟩
      refine Obeys.bind (Obeys.mono ?_ (acts_setupIndications _ (fun _ member => member) pdu))
      rintro ⟨accepted, u⟩ history ⟨still, setUp⟩
      cases accepted with
      | false => exact open_ (still.trans same)
      | true =>
          refine Obeys.bind (Obeys.mono ?_ (acts_setUp scanStoredMessages _ (setUp rfl)))
          exact fun _ _ setUp _ => setUp

/-! Whole runs. -/

section

variable {hz : UInt32}

theorem acts_handleEvent {s : TaskState} {event : Option ServiceEvent} (knows : s.Knows history) :
    Acts (fun t history => t.Knows history) (handleEvent s event)
      (history ++ [⟨(), .receive, event⟩]) := by
  match event with
  | some .modemReady => exact acts_ask id fun now => acts_configurePduMode rfl
  | some .modemLost => exact nofun
  | some (.urc line) =>
      exact acts_handleUrcLine (lasting_knows s history ⟨(), .receive, some (.urc line)⟩ knows id)
  | some .wake => exact lasting_knows s history ⟨(), .receive, some .wake⟩ knows id
  | none => exact lasting_knows s history ⟨(), .receive, none⟩ knows id

theorem acts_retryPduModeIfNeeded {s : TaskState} (knows : s.Knows history) :
    Acts (fun t history => t.Knows history) (retryPduModeIfNeeded hz s) history := by
  rw [retryPduModeIfNeeded]
  split
  · exact knows
  · rename_i open_
    have fresh : s.pduModeConfigured = false := by simpa using open_
    refine acts_ask not_submits_isReady ?_
    intro ready
    have here := lasting_knows s history ⟨(), .service .isReady, ready⟩ knows id
    cases ready with
    | false => exact here
    | true =>
        refine acts_ask id ?_
        intro now
        split
        · exact lasting_knows s _ ⟨(), .tickCount, now⟩ here id
        · exact acts_configurePduMode fresh

/-- The queue is looked at only when the modem is set up. -/
theorem acts_processOneOutbound {s : TaskState} (knows : s.Knows history) :
    Acts (fun _ => s.Knows) (inTask s.pduModeConfigured processOneOutbound) history := by
  cases configured : s.pduModeConfigured with
  | true =>
      have setUp := knows configured
      exact Obeys.mono (fun _ _ setUp _ => setUp) (acts_setUp processOneOutbound true setUp)
  | false =>
      refine ⟨fun submits => absurd submits not_submits_isReady, ?_⟩
      rintro ready _ rfl
      have here := lasting_knows s history ⟨(), .service .isReady, ready⟩ knows id
      cases ready with
      | false => exact here
      | true => exact here

theorem acts_pollInboxIfDue {s : TaskState} (knows : s.Knows history) :
    Acts (fun t history => t.Knows history) (pollInboxIfDue hz s) history := by
  refine acts_ask id ?_
  intro now
  have here := lasting_knows s history ⟨(), .tickCount, now⟩ knows id
  cases configured : s.pduModeConfigured with
  | false => exact here
  | true =>
      refine acts_ask not_submits_isReady ?_
      intro ready
      have here := lasting_knows s _ ⟨(), .service .isReady, ready⟩ here id
      split
      · exact here
      · refine Obeys.bind (Obeys.mono ?_ (acts_setUp scanStoredMessages _ (here configured)))
        exact fun _ _ setUp _ => setUp

theorem acts_servicePass {s : TaskState} (knows : s.Knows history) :
    Acts (fun t history => t.Knows history) (servicePass hz s) history := by
  refine acts_ask id ?_
  intro event
  refine Obeys.bind (Obeys.mono ?_ (acts_handleEvent knows))
  intro s history knows
  refine Obeys.bind (Obeys.mono ?_ (acts_retryPduModeIfNeeded knows))
  intro s history knows
  refine Obeys.bind (Obeys.mono ?_ (acts_processOneOutbound knows))
  intro _ history knows
  exact acts_pollInboxIfDue knows

theorem acts_servicePasses (passes : Nat) {s : TaskState} (knows : s.Knows history) :
    Acts (fun t history => t.Knows history) (servicePasses hz passes s) history := by
  induction passes generalizing s history with
  | zero => exact knows
  | succ passes ih =>
      refine Obeys.bind (Obeys.mono ?_ (acts_servicePass knows))
      intro s history knows
      exact ih knows

theorem acts_serviceTask (passes : Nat) :
    Acts (fun t history => t.Knows history) (serviceTask hz passes) [] := by
  have lasting : Lasting fun _ => True := fun _ _ _ _ => trivial
  refine Obeys.bind (Obeys.mono ?_ (acts_unsent unsent_restartProgram false lasting trivial))
  intro _ history _
  exact acts_ask id fun now => acts_servicePasses passes nofun

end

/-- In every run of the service task, whatever events it takes and whatever the modem
and the journal answer, a segment is handed to the modem only after `AT+CMGF=0` and
then one of the indication commands were confirmed, with no event in between or since
that announced the modem or reported it lost. -/
theorem submits_only_when_setUp {hz : UInt32} {passes : Nat} {trace : TaskHistory} {s : TaskState}
    (can : (serviceTask hz passes).Can trace s) {before after : TaskHistory} {entry : TaskEntry}
    (shape : trace = before ++ entry :: after) (submits : Submits entry.request) : SetUp before := by
  have prepared := (Obeys.can (acts_serviceTask passes) can).2 before entry after shape
  exact prepared submits

/-! A modem that confirms everything, and one queued message. -/

def setUpShort : SmsMessage :=
  { queuedRecord (.text "+491234") (.text "A") false 0 .gsm7 1 with id := 1 }

def confirming : (request : TaskCall) → Unit → request.Reply × Unit
  | .receive, _ => (some .modemReady, ())
  | .tickCount, _ => (0, ())
  | .setup _, _ | .read _, _ => (.ok ⟨.ok, -1, []⟩, ())
  | .service request, _ =>
      ((match request with
        | .isReady | .pduModeConfigured | .alloc => true
        | .espRandom => (0 : UInt32)
        | .execute _ => .ok ⟨.ok, -1, []⟩
        | .query _ => .ok setUpShort
        | .findOutboundReference _ _ => .error .notFound
        | .list _ _ => .ok []
        | .save message => (.ok (), message)
        | .delete _ => .ok ()
        | .emit _ _ => () : request.Reply), ())

theorem submits_only_when_setUp_short : ∃ trace s before entry after,
    (serviceTask 100 1).Can trace s ∧ trace = before ++ entry :: after ∧ Submits entry.request ∧
      SetUp before := by
  have can : (serviceTask 100 1).Can (Prog.trace confirming (serviceTask 100 1) ())
      (Prog.run confirming (serviceTask 100 1) ()).1 :=
    Prog.runs_of_run confirming (fun _ _ => trivial) _ ()
  have submitted : (Prog.trace confirming (serviceTask 100 1) ()).any
      (fun entry => match entry.request with
        | .service request => !request.payloads.isEmpty
        | _ => false) = true := by
    decide +kernel
  obtain ⟨entry, member, submits⟩ := List.any_eq_true.mp submitted
  obtain ⟨before, after, shape⟩ := List.append_of_mem member
  have carries : Submits entry.request := by
    split at submits
    · rename_i request same
      rw [same]
      intro nothing
      simp [nothing] at submits
    · cases submits
  exact ⟨_, _, before, entry, after, can, shape, carries, submits_only_when_setUp can shape carries⟩

end SmsGateway
