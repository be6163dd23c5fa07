import SmsGateway.Lib.Expansion
import SmsGateway.Lib.Interference
import SmsGateway.Service.Drain

/-! The scan of the modem's inbox deletes the message it has processed, as long as
the lines that the bounded response leaves out do not bring a header next to the PDU
of another message. -/

namespace SmsGateway

open Lib Prog

/-! The scan with its listings and its calls of `process_any_pdu`. -/

inductive ScanCall where
  | list
  | processAnyPdu (line : CStr) (modemIndex : Int)

/-- `list` returns the lines of a response that is OK. -/
@[reducible] def ScanCall.Reply : ScanCall → Type
  | .list => Option (List CStr)
  | .processAnyPdu _ _ => Except EspErr Unit

def ScanCall.body : (request : ScanCall) → ServiceM request.Reply
  | .list => do
      match ← execute ⟨.cmgl, none, none⟩ with
      | .error _ => pure none
      | .ok response => pure (if response.result ≠ .ok then none else some response.lines)
  | .processAnyPdu line modemIndex => SmsGateway.processAnyPdu line modemIndex

abbrev ScanM := Prog ScanCall ScanCall.Reply

namespace Scan

def lines : List CStr → Int → Nat → ScanM Nat
  | [], _, processed => pure processed
  | line :: rest, pendingIndex, processed =>
      match parseCmglIndex line with
      | some index => lines rest index processed
      | none =>
          if pendingIndex ≥ 0 ∧ isHexPduLine line then do
            match ← Prog.send (ScanCall.processAnyPdu line pendingIndex) with
            | .ok () => lines rest (-1) (processed + 1)
            | .error _ => lines rest (-1) processed
          else lines rest pendingIndex processed

def batches : Nat → ScanM Unit
  | 0 => pure ()
  | count + 1 => do
      match ← Prog.send ScanCall.list with
      | none => pure ()
      | some captured => do
          let processed ← lines captured (-1) 0
          if processed = 0 then pure () else batches count

theorem expand_lines (captured : List CStr) (pendingIndex : Int) (processed : Nat) :
    (lines captured pendingIndex processed).expand ScanCall.body =
      scanLines captured pendingIndex processed := by
  induction captured generalizing pendingIndex processed with
  | nil => rfl
  | cons line rest ih =>
      simp only [lines, scanLines]
      cases parseCmglIndex line with
      | some index => exact ih index processed
      | none =>
          dsimp only
          split
          · rw [expand_send_bind]
            refine congrArg _ (funext fun result => ?_)
            cases result with
            | ok _ => exact ih (-1) (processed + 1)
            | error e => exact ih (-1) processed
          · exact ih pendingIndex processed

theorem expand_batches (count : Nat) : (batches count).expand ScanCall.body = scanBatches count := by
  induction count with
  | zero => rfl
  | succ count ih =>
      rw [batches, expand_send_bind, scanBatches, ScanCall.body, bind_assoc]
      refine congrArg _ (funext fun result => ?_)
      cases result with
      | error e => rfl
      | ok response =>
          by_cases failed : response.result = .ok
          · simp only [failed, ne_eq, not_true_eq_false, if_false, Prog.pure_eq, done_bind]
            rw [expand_bind, expand_lines]
            refine congrArg _ (funext fun processed => ?_)
            split
            · rfl
            · exact ih
          · simp only [if_pos failed, Prog.pure_eq, done_bind]
            rfl

/-- `scan_stored_messages`. -/
def storedMessages : ScanM Unit := batches smsStoreMaxRecords

/-- It is the scan of the service. -/
theorem expand_storedMessages : storedMessages.expand ScanCall.body = scanStoredMessages :=
  expand_batches smsStoreMaxRecords

end Scan

/-! Which PDU follows a header among the lines that are kept. -/

/-- A line that the scan takes for a PDU. -/
def PduLine (line : CStr) : Prop := parseCmglIndex line = none ∧ isHexPduLine line = true

/-- The kept ones among these lines are neither headers nor PDUs. -/
def Idle (gap : List (CStr × Bool)) : Prop :=
  ∀ mark ∈ gap, mark.2 = true → parseCmglIndex mark.1 = none ∧ isHexPduLine mark.1 = false

/-- After a kept header of this index the next kept header or PDU is this PDU. -/
def Meets (marked : List (CStr × Bool)) (index : Int) (pdu : CStr) (gap : List (CStr × Bool)) : Prop :=
  ∃ before header after, marked = before ++ (header, true) :: (gap ++ (pdu, true) :: after) ∧
    parseCmglIndex header = some index ∧ PduLine pdu ∧ Idle gap

/-- With this index pending, the next kept header or PDU is this PDU. -/
def Heads (marked : List (CStr × Bool)) (pdu : CStr) : Prop :=
  ∃ gap after, marked = gap ++ (pdu, true) :: after ∧ PduLine pdu ∧ Idle gap

section

variable {marked : List (CStr × Bool)} {pdu : CStr} {index : Int}

theorem idle_cons {mark : CStr × Bool} {gap : List (CStr × Bool)} :
    Idle (mark :: gap) ↔
      (mark.2 = true → parseCmglIndex mark.1 = none ∧ isHexPduLine mark.1 = false) ∧ Idle gap :=
  List.forall_mem_cons

/-- A line before that is neither a kept header nor a kept PDU. -/
theorem heads_skip {mark : CStr × Bool}
    (skipped : mark.2 = true → parseCmglIndex mark.1 = none ∧ isHexPduLine mark.1 = false) :
    Heads (mark :: marked) pdu ↔ Heads marked pdu := by
  constructor
  · rintro ⟨gap, after, equal, line, idle⟩
    cases gap with
    | nil =>
        cases equal
        cases line.2.symm.trans (skipped rfl).2
    | cons first gap =>
        cases equal
        exact ⟨gap, after, rfl, line, (idle_cons.mp idle).2⟩
  · rintro ⟨gap, after, rfl, line, idle⟩
    exact ⟨mark :: gap, after, rfl, line, idle_cons.mpr ⟨skipped, idle⟩⟩

theorem heads_header {header : CStr} (announced : parseCmglIndex header = some index) :
    ¬Heads ((header, true) :: marked) pdu := by
  rintro ⟨gap, after, equal, line, idle⟩
  cases gap with
  | nil =>
      cases equal
      cases line.1.symm.trans announced
  | cons first gap =>
      cases equal
      cases ((idle_cons.mp idle).1 rfl).1.symm.trans announced

theorem heads_pdu {line : CStr} (here : PduLine line) :
    Heads ((line, true) :: marked) pdu ↔ pdu = line := by
  constructor
  · rintro ⟨gap, after, equal, taken, idle⟩
    cases gap with
    | nil =>
        cases equal
        rfl
    | cons first gap =>
        cases equal
        cases here.2.symm.trans ((idle_cons.mp idle).1 rfl).2
  · rintro rfl
    exact ⟨[], marked, rfl, here, nofun⟩

theorem meets_cons {mark : CStr × Bool} :
    (∃ gap, Meets (mark :: marked) index pdu gap) ↔
      (mark.2 = true ∧ parseCmglIndex mark.1 = some index ∧ Heads marked pdu) ∨
        ∃ gap, Meets marked index pdu gap := by
  constructor
  · rintro ⟨gap, before, header, after, equal, announced, line, idle⟩
    cases before with
    | nil =>
        cases equal
        exact .inl ⟨rfl, announced, gap, after, rfl, line, idle⟩
    | cons first before =>
        cases equal
        exact .inr ⟨gap, before, header, after, rfl, announced, line, idle⟩
  · rintro (⟨kept, announced, gap, after, rfl, line, idle⟩ |
      ⟨gap, before, header, after, rfl, announced, line, idle⟩)
    · obtain ⟨header, flag⟩ := mark
      cases (show flag = true from kept)
      exact ⟨gap, [], header, after, rfl, announced, line, idle⟩
    · exact ⟨gap, mark :: before, header, after, rfl, announced, line, idle⟩

theorem meets_skip {mark : CStr × Bool} (skipped : mark.2 = true → parseCmglIndex mark.1 = none) :
    (∃ gap, Meets (mark :: marked) index pdu gap) ↔ ∃ gap, Meets marked index pdu gap := by
  rw [meets_cons]
  constructor
  · rintro (⟨kept, announced, -⟩ | later)
    · cases (skipped kept).symm.trans announced
    · exact later
  · exact .inr

theorem parseCmglIndex_nonneg {line : CStr} (announced : parseCmglIndex line = some index) :
    0 ≤ index := by
  simp only [parseCmglIndex] at announced
  split at announced
  · cases announced
  · split at announced
    · cases announced
    · split at announced
      · cases announced
      · cases announced
        rename_i inside
        exact Int.not_lt.mp fun negative => inside (.inl negative)

/-- What the scan takes up: the next PDU after the pending header, or after a later
one. -/
theorem mem_offered_iff (marked : List (CStr × Bool)) (pendingIndex : Int) :
    (index, pdu) ∈ offered (keptLines marked) pendingIndex ↔
      (pendingIndex = index ∧ 0 ≤ index ∧ Heads marked pdu) ∨ ∃ gap, Meets marked index pdu gap := by
  induction marked generalizing pendingIndex with
  | nil =>
      constructor
      · nofun
      · rintro (⟨-, -, gap, after, equal, -⟩ | ⟨gap, before, header, after, equal, -⟩)
        · cases gap <;> cases equal
        · cases before <;> cases equal
  | cons mark marked ih =>
      obtain ⟨line, flag⟩ := mark
      cases flag with
      | false =>
          have dropped : ¬((line, false) : CStr × Bool).2 = true := Bool.false_ne_true
          rw [heads_skip fun kept => absurd kept dropped, meets_skip fun kept => absurd kept dropped,
            ← ih]
          rfl
      | true =>
          have kept : keptLines ((line, true) :: marked) = line :: keptLines marked := rfl
          rw [kept]
          cases announced : parseCmglIndex line with
          | some other =>
              simp only [offered, announced]
              rw [ih other, meets_cons]
              have nonneg := parseCmglIndex_nonneg announced
              constructor
              · rintro (⟨rfl, -, heads⟩ | later)
                · exact .inr (.inl ⟨rfl, announced, heads⟩)
                · exact .inr (.inr later)
              · rintro (⟨-, -, heads⟩ | ⟨-, same, heads⟩ | later)
                · exact absurd heads (heads_header announced)
                · cases announced.symm.trans same
                  exact .inl ⟨rfl, nonneg, heads⟩
                · exact .inr later
          | none =>
              simp only [offered, announced]
              rw [meets_skip fun _ => announced]
              by_cases pduLine : isHexPduLine line = true
              · rw [heads_pdu ⟨announced, pduLine⟩]
                by_cases pending : pendingIndex ≥ 0
                · rw [if_pos ⟨pending, pduLine⟩, List.mem_cons, ih (-1)]
                  constructor
                  · rintro (taken | ⟨rfl, negative, -⟩ | later)
                    · cases taken
                      exact .inl ⟨rfl, pending, rfl⟩
                    · exact absurd negative (by decide)
                    · exact .inr later
                  · rintro (⟨rfl, -, rfl⟩ | later)
                    · exact .inl rfl
                    · exact .inr (.inr later)
                · rw [if_neg fun both => pending both.1, ih pendingIndex]
                  constructor
                  · rintro (⟨rfl, nonneg, -⟩ | later)
                    · exact absurd nonneg pending
                    · exact .inr later
                  · rintro (⟨rfl, nonneg, -⟩ | later)
                    · exact absurd nonneg pending
                    · exact .inr later
              · rw [if_neg fun both => pduLine both.2, ih pendingIndex,
                  heads_skip fun _ => ⟨announced, Bool.eq_false_iff.mpr pduLine⟩]

end

/-- In the modem's output this line stands right after a header of this index. -/
def Listed (output : List CStr) (index : Int) (line : CStr) : Prop :=
  ∃ before header after, output = before ++ header :: line :: after ∧
    parseCmglIndex header = some index

/-- A header of this index is kept, and the next header or PDU that is kept is a PDU
further down. -/
def Strays (output : List CStr) (index : Int) (pdu : CStr) : Prop :=
  ∃ gap, gap ≠ [] ∧ Meets (At.Response.reset.marks output) index pdu gap

theorem mem_offered_captured (output : List CStr) (index : Int) (pdu : CStr) :
    (index, pdu) ∈ offered (captured output) (-1) ↔
      ∃ gap, Meets (At.Response.reset.marks output) index pdu gap := by
  rw [captured_eq, mem_offered_iff]
  constructor
  · rintro (⟨rfl, negative, -⟩ | later)
    · exact absurd negative (by decide)
    · exact later
  · exact .inr

/-- Without lines between them the PDU is listed under the index. -/
theorem Meets.listed {output : List CStr} {index : Int} {pdu : CStr}
    (meets : Meets (At.Response.reset.marks output) index pdu []) : Listed output index pdu := by
  obtain ⟨before, header, after, equal, announced, -⟩ := meets
  refine ⟨before.map Prod.fst, header, after.map Prod.fst, ?_, announced⟩
  rw [← marks_lines .reset output, equal]
  simp

/-! The scan next to a modem. -/

/-- The modem answers a listing with one of these outputs, and the response keeps what
fits; the other calls are answered in any way. The state is the last output. -/
def Lists (modem : List CStr → Prop) (output : List CStr) :
    (request : ServiceCall) → request.Reply → List CStr → Prop
  | .execute ⟨.cmgl, _, _⟩, reply, next =>
      modem next ∧ ∀ response, reply = .ok response → response.lines = captured next
  | _, _, next => next = output

/-- `process_any_pdu` can accept the line. -/
def Acceptable (line : CStr) : Prop := ∃ calls, (processAnyPdu line (-1)).Can calls (.ok ())

abbrev ScanPart := Part (List CStr) ScanCall ScanCall.Reply ServiceCall ServiceCall.Reply

/-- Every `AT+CMGD` of this part of a scan follows a run of `process_any_pdu` that
accepted the line which the modem listed under the index. -/
def DeletesListed (modem : List CStr → Prop) (part : ScanPart) : Prop :=
  ∀ call ∈ part.calls, ∀ request index, call.request = .execute request →
    request.command = .cmgd index →
    ∃ line, part.request = .processAnyPdu line index ∧ Listed part.before index line ∧
      ∃ taken rest, part.calls = taken ++ rest ∧ call ∈ rest ∧
        Runs (Lists modem) (processAnyPdu line (-1)) part.before taken (.ok ()) part.before

section

variable {modem : List CStr → Prop} {output next : List CStr}

theorem lists_local {request : ServiceCall} {reply : request.Reply} (here : request.Local)
    (answered : Lists modem output request reply next) : next = output := by
  cases request with
  | execute request => exact here.elim
  | _ => exact answered

theorem Offline.calls {α : Type} {p : ServiceM α} (offline : Offline p) :
    p.Calls ServiceCall.Local := by
  induction p with
  | done _ => trivial
  | call request rest ih =>
      obtain ⟨here, later⟩ := offline ()
      exact ⟨here, fun reply => ih reply fun _ => later reply () trivial⟩

theorem Offline.runs {α : Type} {p : ServiceM α} (offline : Offline p)
    {free : List (Entry Unit ServiceCall ServiceCall.Reply)} {value : α} (can : p.Can free value) :
    ∃ calls, Runs (Lists modem) p output calls value output := by
  induction p generalizing free with
  | done result =>
      cases can
      exact ⟨[], .done⟩
  | call request rest ih =>
      cases can with
      | call _ can =>
          obtain ⟨here, later⟩ := offline ()
          obtain ⟨calls, runs⟩ := ih _ (fun _ => later _ () trivial) can
          have answered (reply : request.Reply) : Lists modem output request reply output := by
            cases request with
            | execute request => exact here.elim
            | _ => exact rfl
          exact ⟨_, .call (answered _) runs⟩

/-- The calls of `process_any_pdu`: first the PDU is taken, then the modem's copy goes. -/
theorem runs_processAnyPdu {line : CStr} {index : Int} {result : Except EspErr Unit}
    {calls : List (Entry (List CStr) ServiceCall ServiceCall.Reply)}
    (runs : Runs (Lists modem) (processAnyPdu line index) output calls result next) :
    ∃ taken rest outcome, calls = taken ++ rest ∧ (∀ call ∈ taken, call.request.Local) ∧
      Runs (Lists modem) (processAnyPdu line (-1)) output taken outcome output ∧
      Runs (Lists modem) (thenDelete index outcome) output rest result next := by
  have local_ := (offline_processAnyPdu line).calls
  rw [processAnyPdu_split] at runs
  obtain ⟨taken, rest, outcome, between, rfl, taking, deleting⟩ := Runs.of_bind runs
  obtain rfl := local_.unmoved (fun _ _ _ _ here answered => lists_local here answered) taking
  exact ⟨taken, rest, outcome, rfl, local_.runs taking, taking, deleting⟩

/-- The calls that delete the modem's copy of an accepted PDU. -/
def Deleting (index : Int) (outcome : Except EspErr Unit) (request : ServiceCall) : Prop :=
  request = .isReady ∨ outcome = .ok () ∧ request = .execute ⟨.cmgd index, none, none⟩

theorem calls_thenDelete (index : Int) (outcome : Except EspErr Unit) :
    (thenDelete index outcome).Calls (Deleting index outcome) := by
  cases outcome with
  | error e => trivial
  | ok _ =>
      simp only [thenDelete, deleteModemCopy]
      split
      · refine ⟨.inl rfl, fun ready => ?_⟩
        cases ready with
        | false => trivial
        | true =>
            refine ⟨.inr ⟨rfl, rfl⟩, fun reply => ?_⟩
            cases reply <;> trivial
      · trivial

theorem lists_deleting {index : Int} {outcome : Except EspErr Unit} (output : List CStr)
    (request : ServiceCall) (reply : request.Reply) (next : List CStr)
    (deleting : Deleting index outcome request) (answered : Lists modem output request reply next) :
    next = output := by
  rcases deleting with rfl | ⟨-, rfl⟩
  · exact answered
  · exact answered

/-- The calls of a listing, and what it returns. -/
theorem calls_list : ScanCall.list.body.Calls fun request =>
    request = .isReady ∨ request = .execute ⟨.cmgl, none, none⟩ := by
  refine ⟨.inl rfl, fun ready => ?_⟩
  cases ready with
  | false => trivial
  | true =>
      refine ⟨.inr rfl, fun reply => ?_⟩
      cases reply <;> trivial

theorem runs_list {lines : List CStr}
    {calls : List (Entry (List CStr) ServiceCall ServiceCall.Reply)}
    (runs : Runs (Lists modem) ScanCall.list.body output calls (some lines) next) :
    modem next ∧ lines = captured next := by
  obtain ⟨first, last, result, between, -, executed, decided⟩ := Runs.of_bind runs
  have answered : ∀ response, result = .ok response → modem between ∧
      response.lines = captured between := by
    cases executed with
    | @call _ _ ready _ _ _ _ _ _ rest =>
        cases ready with
        | false =>
            cases rest
            nofun
        | true =>
            cases rest with
            | call listed rest =>
                cases rest
                exact fun response same => ⟨listed.1, listed.2 response same⟩
  cases result with
  | error e => cases decided
  | ok response =>
      by_cases failed : response.result = .ok
      · simp only [failed, ne_eq, not_true_eq_false, if_false] at decided
        cases decided
        exact answered response rfl
      · simp only [if_pos failed] at decided
        cases decided

/-- A part of a scan: a listing, or a PDU that the scan takes up. -/
inductive Taken (modem : List CStr → Prop) (part : ScanPart) : Prop where
  | list (listing : part.request = .list)
      (calls : ∀ call ∈ part.calls, call.request = .isReady ∨
        call.request = .execute ⟨.cmgl, none, none⟩)
  | pdu {line : CStr} {index : Int} {result : Except EspErr Unit} (sent : modem part.before)
      (request : part.request = .processAnyPdu line index)
      (member : (index, line) ∈ offered (captured part.before) (-1))
      (runs : Runs (Lists modem) (processAnyPdu line index) part.before part.calls result
        part.before)

theorem runs_processAnyPdu_same {line : CStr} {index : Int} {result : Except EspErr Unit}
    {calls : List (Entry (List CStr) ServiceCall ServiceCall.Reply)}
    (runs : Runs (Lists modem) (processAnyPdu line index) output calls result next) :
    next = output := by
  obtain ⟨taken, rest, outcome, -, -, -, deleting⟩ := runs_processAnyPdu runs
  exact (calls_thenDelete index outcome).unmoved lists_deleting deleting

theorem taken_lines (sent : modem output) {lines : List CStr} {pendingIndex : Int} {processed : Nat}
    (inside : ∀ pair ∈ offered lines pendingIndex, pair ∈ offered (captured output) (-1))
    {parts : List ScanPart} {count : Nat}
    (expands : Expands (Lists modem) ScanCall.body (Scan.lines lines pendingIndex processed) output
      parts count next) : next = output ∧ ∀ part ∈ parts, Taken modem part := by
  induction lines generalizing pendingIndex processed parts with
  | nil =>
      cases expands
      exact ⟨rfl, nofun⟩
  | cons line rest ih =>
      cases announced : parseCmglIndex line with
      | some index =>
          simp only [Scan.lines, offered, announced] at expands inside
          exact ih inside expands
      | none =>
          simp only [Scan.lines, offered, announced] at expands inside
          by_cases taken : pendingIndex ≥ 0 ∧ isHexPduLine line = true
          · rw [if_pos taken] at expands inside
            obtain ⟨here, later⟩ := List.forall_mem_cons.mp inside
            cases expands with
            | @call _ _ result _ _ _ _ _ _ carried expands =>
                have same := runs_processAnyPdu_same carried
                rw [same] at carried expands
                have first : Taken modem ⟨output, .processAnyPdu line pendingIndex, result, _⟩ :=
                  .pdu sent rfl here carried
                cases result with
                | ok _ =>
                    obtain ⟨ended, taken⟩ := ih later expands
                    exact ⟨ended, List.forall_mem_cons.mpr ⟨first, taken⟩⟩
                | error e =>
                    obtain ⟨ended, taken⟩ := ih later expands
                    exact ⟨ended, List.forall_mem_cons.mpr ⟨first, taken⟩⟩
          · rw [if_neg taken] at expands inside
            exact ih inside expands

theorem taken_batches (count : Nat) {parts : List ScanPart}
    (expands : Expands (Lists modem) ScanCall.body (Scan.batches count) output parts () next) :
    ∀ part ∈ parts, Taken modem part := by
  induction count generalizing output parts with
  | zero =>
      cases expands
      nofun
  | succ count ih =>
      cases expands with
      | @call _ _ listed calls parts _ between _ _ carried expands =>
          refine List.forall_mem_cons.mpr ⟨.list rfl (calls_list.runs carried), ?_⟩
          cases listed with
          | none =>
              cases expands
              nofun
          | some lines =>
              obtain ⟨sent, rfl⟩ := runs_list carried
              replace expands : Expands (Lists modem) ScanCall.body
                  (Scan.lines (captured between) (-1) 0 >>= fun processed =>
                    if processed = 0 then pure () else Scan.batches count)
                  between parts () next := expands
              obtain ⟨first, last, processed, t, rfl, scanned, rest⟩ := Expands.of_bind expands
              obtain ⟨rfl, taken⟩ := taken_lines sent (fun _ member => member) scanned
              refine List.forall_mem_append.mpr ⟨taken, ?_⟩
              split at rest
              · cases rest
                nofun
              · exact ih rest

/-- Every PDU that strays behind the header of another message and could be accepted
is listed under its index as well. -/
def Paired (output : List CStr) : Prop :=
  ∀ index pdu, Strays output index pdu → Acceptable pdu → Listed output index pdu

/-- Of a part that takes up a listed PDU, the modem's copy goes only when it is
accepted. -/
theorem Taken.deletes {part : ScanPart} (taken : Taken modem part)
    (paired : ∀ output, modem output → Paired output) : DeletesListed modem part := by
  intro call member request index executes deletes
  cases taken with
  | list _ calls =>
      rcases calls call member with ready | listing
      · cases executes.symm.trans ready
      · cases executes.symm.trans listing
        cases deletes
  | @pdu line other result sent requested offer runs =>
      obtain ⟨taken, rest, outcome, equal, local_, taking, deleting⟩ := runs_processAnyPdu runs
      have inside : call ∈ rest := by
        rw [equal] at member
        rcases List.mem_append.mp member with early | late
        · have here := local_ call early
          rw [executes] at here
          exact here.elim
        · exact late
      rcases (calls_thenDelete other outcome).runs deleting call inside with ready | ⟨ok, deletion⟩
      · cases executes.symm.trans ready
      · cases executes.symm.trans deletion
        cases deletes
        cases ok
        refine ⟨line, requested, ?_, taken, rest, equal, inside, taking⟩
        obtain ⟨gap, meets⟩ := (mem_offered_captured _ _ _).mp offer
        cases gap with
        | nil => exact meets.listed
        | cons mark gap =>
            exact paired _ sent _ _ ⟨mark :: gap, nofun, meets⟩ taking.can

/-! A scan that takes up a given PDU. -/

theorem lists_total (sent : modem output) (s : List CStr) (request : ServiceCall) :
    ∃ reply t, Lists modem s request reply t := by
  cases request with
  | execute request =>
      obtain ⟨command, payload, origin⟩ := request
      cases command with
      | cmgl => exact ⟨.error .fail, output, sent, nofun⟩
      | cmgd _ | cmgs _ => exact ⟨.error .fail, s, rfl⟩
  | isReady | pduModeConfigured | alloc => exact ⟨true, s, rfl⟩
  | espRandom => exact ⟨0, s, rfl⟩
  | query _ | findOutboundReference _ _ | list _ _ | delete _ => exact ⟨.error .fail, s, rfl⟩
  | save message => exact ⟨(.error .fail, message), s, rfl⟩
  | emit _ _ => exact ⟨(), s, rfl⟩

/-- An accepted PDU is deleted under the index that the scan has for it. -/
theorem runs_deletion {line : CStr} {index : Int} (acceptable : Acceptable line)
    (stored : 0 ≤ index) :
    ∃ calls, Runs (Lists modem) (processAnyPdu line index) output calls (.ok ()) output ∧
      ∃ call ∈ calls, call.request = .execute ⟨.cmgd index, none, none⟩ := by
  obtain ⟨free, can⟩ := acceptable
  obtain ⟨taken, taking⟩ : ∃ taken, Runs (Lists modem) (processAnyPdu line (-1)) output taken (.ok ())
      output := (offline_processAnyPdu line).runs can
  have deleting : Runs (Lists modem) (thenDelete index (.ok ())) output
      [⟨output, .isReady, true⟩, ⟨output, .execute ⟨.cmgd index, none, none⟩, .error .fail⟩]
      (.ok ()) output := by
    simp only [thenDelete, deleteModemCopy, if_pos stored]
    exact .call rfl (.call rfl .done)
  rw [processAnyPdu_split]
  exact ⟨_, taking.append deleting, ⟨output, .execute ⟨.cmgd index, none, none⟩, .error .fail⟩,
    by simp, rfl⟩

/-- The part of a scan in which this PDU is accepted under this index. -/
def DeletesCopy (output : List CStr) (index : Int) (line : CStr) (part : ScanPart) : Prop :=
  part.before = output ∧ part.request = .processAnyPdu line index ∧
    ∃ call ∈ part.calls, call.request = .execute ⟨.cmgd index, none, none⟩

theorem expands_lines (sent : modem output) {line : CStr} {index : Int}
    (acceptable : Acceptable line) {lines : List CStr} {pendingIndex : Int} (processed : Nat)
    (offer : (index, line) ∈ offered lines pendingIndex) (stored : 0 ≤ index) :
    ∃ parts count next, Expands (Lists modem) ScanCall.body
      (Scan.lines lines pendingIndex processed) output parts count next ∧
        ∃ part ∈ parts, DeletesCopy output index line part := by
  induction lines generalizing pendingIndex processed with
  | nil => cases offer
  | cons first rest ih =>
      cases announced : parseCmglIndex first with
      | some other =>
          simp only [Scan.lines, offered, announced] at offer ⊢
          exact ih processed offer
      | none =>
          simp only [Scan.lines, offered, announced] at offer ⊢
          by_cases taken : pendingIndex ≥ 0 ∧ isHexPduLine first = true
          · rw [if_pos taken] at offer ⊢
            rcases List.mem_cons.mp offer with here | later
            · cases here
              obtain ⟨calls, runs, deleted⟩ : ∃ calls, Runs (Lists modem)
                  (processAnyPdu line index) output calls (.ok ()) output ∧
                  ∃ call ∈ calls, call.request = .execute ⟨.cmgd index, none, none⟩ :=
                runs_deletion acceptable stored
              obtain ⟨parts, count, t, expands⟩ : ∃ parts count t, Expands (Lists modem)
                  ScanCall.body (Scan.lines rest (-1) (processed + 1)) output parts count t :=
                exists_expands (lists_total sent) _ _
              exact ⟨_, count, t, .call runs expands, _, List.mem_cons_self, rfl, rfl, deleted⟩
            · obtain ⟨calls, result, t, runs⟩ := exists_runs (lists_total sent)
                (processAnyPdu first pendingIndex) output
              obtain rfl := runs_processAnyPdu_same runs
              cases result with
              | ok _ =>
                  obtain ⟨parts, count, t, expands, part, member, deletes⟩ := ih (processed + 1) later
                  exact ⟨_, count, t, .call runs expands, part, List.mem_cons_of_mem _ member,
                    deletes⟩
              | error e =>
                  obtain ⟨parts, count, t, expands, part, member, deletes⟩ := ih processed later
                  exact ⟨_, count, t, .call runs expands, part, List.mem_cons_of_mem _ member,
                    deletes⟩
          · rw [if_neg taken] at offer ⊢
            exact ih processed offer

/-- A listing with this output, in a modem that is ready. -/
theorem runs_listing (sent : modem output) (s : List CStr) :
    ∃ calls, Runs (Lists modem) ScanCall.list.body s calls (some (captured output)) output := by
  have kept : ∀ response, (.ok ⟨.ok, -1, captured output⟩ : Except EspErr AtResponse) =
      .ok response → response.lines = captured output := by
    intro response same
    cases same
    rfl
  have listing : Runs (Lists modem) ScanCall.list.body s
      [⟨s, .isReady, true⟩,
        ⟨s, .execute ⟨.cmgl, none, none⟩, .ok ⟨.ok, -1, captured output⟩⟩]
      (some (captured output)) output :=
    .call rfl (.call ⟨sent, kept⟩ .done)
  exact ⟨_, listing⟩

/-- A stray PDU that is accepted lets the scan delete another message. -/
theorem paired_of_deletes (sent : modem output)
    (listed : ∀ output parts next, Expands (Lists modem) ScanCall.body Scan.storedMessages output
      parts () next → ∀ part ∈ parts, DeletesListed modem part) : Paired output := by
  intro index pdu strays acceptable
  obtain ⟨gap, -, meets⟩ := strays
  have offer := (mem_offered_captured output index pdu).mpr ⟨gap, meets⟩
  obtain ⟨before, header, after, -, announced, -⟩ := meets
  obtain ⟨parts, count, t, expands, part, member, rfl, request, call, made, deletes⟩ :=
    expands_lines sent acceptable 0 offer (parseCmglIndex_nonneg announced)
  obtain ⟨calls, listing⟩ := runs_listing sent []
  obtain ⟨later, value, u, rest⟩ : ∃ later value u, Expands (Lists modem) ScanCall.body
      (if count = 0 then pure () else Scan.batches (smsStoreMaxRecords - 1)) t later value u :=
    exists_expands (lists_total sent) _ _
  have whole : Expands (Lists modem) ScanCall.body Scan.storedMessages []
      (⟨[], .list, some (captured part.before), calls⟩ :: (parts ++ later)) value u :=
    .call listing (expands.append rest)
  obtain ⟨line, same, here, -⟩ := listed _ _ _ whole part
    (List.mem_cons_of_mem _ (List.mem_append_left _ member)) call made _ index deletes rfl
  cases request.symm.trans same
  exact here

end

/-- The scan deletes a message only after `process_any_pdu` accepted the PDU that the
modem listed under its index, if and only if no line that is left out brings a header
next to an acceptable PDU that is not its own. -/
theorem scan_deletes_listed_iff (modem : List CStr → Prop) :
    (∀ output trace next, Runs (Lists modem) scanStoredMessages output trace () next ↔
      ∃ parts, Expands (Lists modem) ScanCall.body Scan.storedMessages output parts () next ∧
        trace = parts.flatMap Part.calls) ∧
    ((∀ output parts next, Expands (Lists modem) ScanCall.body Scan.storedMessages output
      parts () next → ∀ part ∈ parts, DeletesListed modem part) ↔
      ∀ output, modem output → Paired output) := by
  refine ⟨?_, fun listed output sent => paired_of_deletes sent listed, ?_⟩
  · intro output trace next
    rw [← Scan.expand_storedMessages]
    exact runs_expand_iff
  · intro paired output parts next expands part member
    exact (taken_batches smsStoreMaxRecords expands part member).deletes paired

/-- The lines that stand right after a header, with its index. -/
def listedLines : List CStr → List (Int × CStr)
  | header :: line :: rest =>
      match parseCmglIndex header with
      | some index => (index, line) :: listedLines (line :: rest)
      | none => listedLines (line :: rest)
  | _ => []

theorem Listed.mem {output : List CStr} {index : Int} {line : CStr}
    (listed : Listed output index line) : (index, line) ∈ listedLines output := by
  obtain ⟨before, header, after, rfl, announced⟩ := listed
  induction before with
  | nil => simp [listedLines, announced]
  | cons first before ih =>
      cases before with
      | nil =>
          simp only [List.nil_append, List.cons_append, listedLines] at ih ⊢
          split
          · exact List.mem_cons_of_mem _ ih
          · exact ih
      | cons second before =>
          simp only [List.cons_append, listedLines] at ih ⊢
          split
          · exact List.mem_cons_of_mem _ ih
          · exact ih

/-- A PDU line of this many octets. -/
def longPdu (octets : Nat) : CStr := .ofBytes (List.replicate (2 * octets) 0x30)

/-- The sixth message leaves room for the header of the seventh, but not for its PDU and
not for the header of the eighth, whose PDU fits. -/
def crowdedListing : List CStr :=
  [.text "+CMGL: 1,1,,168", longPdu 176, .text "+CMGL: 2,1,,168", longPdu 176,
    .text "+CMGL: 3,1,,168", longPdu 176, .text "+CMGL: 4,1,,168", longPdu 176,
    .text "+CMGL: 5,1,,168", longPdu 176, .text "+CMGL: 6,1,,42", longPdu 50,
    .text "+CMGL: 7,1,,168", longPdu 176,
    .text "+CMGL: 8,1,\"00410064006D0069006E006900730074007200610074006F00720020004F006E\",16",
    shortPdu]

theorem crowdedListing_strays : Strays crowdedListing 7 shortPdu := by
  let marked := At.Response.reset.marks crowdedListing
  refine ⟨(marked.drop 13).take 2, ?_, marked.take 12, .text "+CMGL: 7,1,,168", [], ?_, ?_, ?_, ?_⟩
  · decide +kernel
  · decide +kernel
  · decide +kernel
  · exact ⟨by decide +kernel, by decide +kernel⟩
  · intro mark member kept
    have dropped : ((marked.drop 13).take 2).all (fun mark => !mark.2) = true := by decide +kernel
    have here := List.all_eq_true.mp dropped mark member
    rw [kept] at here
    cases here

theorem shortPdu_acceptable : Acceptable shortPdu := by
  have runs := runs_of_run ServiceCall.handle ServiceCall.handle_answers
    (processAnyPdu shortPdu (-1)) freshWorld
  have accepts : ((Prog.run ServiceCall.handle (processAnyPdu shortPdu (-1)) freshWorld).1.isOk) =
      true := by decide +kernel
  generalize (Prog.run ServiceCall.handle (processAnyPdu shortPdu (-1)) freshWorld).1 = result
    at runs accepts
  cases result with
  | error e => cases accepts
  | ok _ => exact Runs.can runs

/-- The seventh message is deleted once the PDU of the eighth is accepted. -/
theorem scan_deletes_unread_message : ¬∀ output parts next,
    Expands (Lists fun output => output = crowdedListing) ScanCall.body Scan.storedMessages output
      parts () next →
    ∀ part ∈ parts, DeletesListed (fun output => output = crowdedListing) part := by
  intro listed
  have paired := @paired_of_deletes (fun output => output = crowdedListing) crowdedListing rfl listed
  have here := (paired 7 shortPdu crowdedListing_strays shortPdu_acceptable).mem
  exact absurd here (by decide +kernel)

end SmsGateway
