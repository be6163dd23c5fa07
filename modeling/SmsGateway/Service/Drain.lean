import SmsGateway.Service.Scan
import SmsGateway.Service.Serial

/-! What a scan leaves in the modem's inbox. -/

namespace SmsGateway

open Lib Prog

/-! A PDU is taken into the journal first, then the modem's copy goes. -/

/-- The program does not reach the modem. -/
def Offline {α : Type} (p : ServiceM α) : Prop :=
  Safe (fun (_ : Unit) _ _ _ => True) (fun _ request => request.Local) p

theorem admits_local : Admits (fun (_ : Unit) (request : ServiceCall) (_ : request.Reply) _ => True)
    fun _ request => request.Local where
  plain := by
    intro _ request plain
    cases request with
    | execute request => exact plain.elim
    | _ => trivial
  arrived := fun _ _ _ => trivial
  part := fun _ _ _ _ _ _ _ _ _ => trivial

/-- Once a PDU is taken, the modem's copy goes. -/
def thenDelete (index : Int) : Except EspErr Unit → ServiceM (Except EspErr Unit)
  | .error e => pure (.error e)
  | .ok () => deleteModemCopy index

theorem processAnyPdu_split (pdu : CStr) (index : Int) :
    processAnyPdu pdu index = processAnyPdu pdu (-1) >>= thenDelete index := by
  have decoded : processDecoded pdu index (smsDeliverDecode pdu).1 (smsDeliverDecode pdu).2 =
      processDecoded pdu (-1) (smsDeliverDecode pdu).1 (smsDeliverDecode pdu).2 >>=
        thenDelete index := by
    simp only [processDecoded]
    split
    · rw [bind_assoc]
      congr 1
      funext result
      cases result <;> rfl
    · split
      · rfl
      · rw [bind_assoc]
        congr 1
        funext result
        cases result <;> rfl
  simp only [processAnyPdu]
  split
  · simp only [processDeliverPdu, bind_assoc]
    congr 1
    funext delivered
    congr 1
    funext stored
    split
    · rfl
    · exact decoded
  · rw [bind_assoc]
    congr 1
    funext result
    cases result <;> rfl
  · rfl

theorem offline_processAnyPdu (pdu : CStr) : Offline (processAnyPdu pdu (-1)) := by
  simp only [processAnyPdu]
  split
  · refine admits_local.receives.allocate.bind fun delivered =>
      admits_local.receives.allocate.bind fun stored => ?_
    split
    · exact .pure _
    · simp only [processDecoded]
      split
      · refine Safe.bind (admits_local.receives.persistUnsupportedDeliver pdu) fun result => ?_
        cases result <;> exact .pure _
      · split
        · exact .pure _
        · refine Safe.bind admits_local.receives.persistDeliver fun result => ?_
          cases result <;> exact .pure _
  · refine Safe.bind (admits_local.receives.processStatusReportPdu (fun _ _ _ _ _ _ _ _ => trivial) pdu)
      fun result => ?_
    cases result <;> exact .pure _
  · exact .pure _

/-- The journal once a PDU was taken or refused. -/
def World.takes (w : World) (pdu : CStr) : World :=
  (Prog.run ServiceCall.handle (processAnyPdu pdu (-1)) w).2

/-- The site once a PDU with this index was taken up. -/
def Site.take (site : Site) (index : Int) (pdu : CStr) : Site where
  world := site.world.takes pdu
  inbox := if site.world.accepts pdu then site.inbox.remove index else site.inbox

/-- No new record finds the journal full. -/
def hasRoom {α : Type} (p : ServiceM α) (w : World) : Bool :=
  (trace ServiceCall.handle p w).all fun entry =>
    match entry with
    | ⟨w, .save message, _⟩ => message.id != 0 || w.store.freeSlot.isSome
    | _ => true

theorem hasRoom_bind {α β : Type} {p : ServiceM α} {f : α → ServiceM β} {w : World} :
    hasRoom (p >>= f) w = true ↔ hasRoom p w = true ∧
      hasRoom (f (Prog.run ServiceCall.handle p w).1) (Prog.run ServiceCall.handle p w).2 = true := by
  simp only [hasRoom, trace_bind, List.all_append, Bool.and_eq_true]

/-! The scan, batch by batch. -/

/-- The PDU lines that the loop takes up, each with the index it is paired with. -/
def offered : List CStr → Int → List (Int × CStr)
  | [], _ => []
  | line :: rest, pendingIndex =>
      match parseCmglIndex line with
      | some index => offered rest index
      | none =>
          if pendingIndex ≥ 0 ∧ isHexPduLine line then (pendingIndex, line) :: offered rest (-1)
          else offered rest pendingIndex

namespace Site

/-- The PDUs of one listing. -/
def offers (site : Site) : List (Int × CStr) := offered site.inbox.listed (-1)

/-- The site once these PDUs were taken up, one after another. -/
def takeAll (site : Site) : List (Int × CStr) → Site
  | [] => site
  | (index, pdu) :: rest => (site.take index pdu).takeAll rest

/-- How many of them are accepted. -/
def accepted (site : Site) : List (Int × CStr) → Nat
  | [] => 0
  | (index, pdu) :: rest =>
      (if site.world.accepts pdu then 1 else 0) + (site.take index pdu).accepted rest

/-- The journals in which they are taken up. -/
def turns (site : Site) : List (Int × CStr) → List (World × CStr)
  | [] => []
  | (index, pdu) :: rest => (site.world, pdu) :: (site.take index pdu).turns rest

/-- The site once the scan returned. -/
def scanned (site : Site) : Nat → Site
  | 0 => site
  | batches + 1 =>
      if site.accepted site.offers = 0 then site.takeAll site.offers
      else (site.takeAll site.offers).scanned batches

end Site

/-- `response_capture_line` has room for the line. -/
def At.Response.fits (response : At.Response) (line : CStr) : Bool :=
  !decide (At.maxResponseLines ≤ response.lines.length ∨
    At.maxResponseBytes < response.dataLength + line.length + 1)

/-- The lines, with whether the response keeps them. -/
def At.Response.marks (response : At.Response) : List CStr → List (CStr × Bool)
  | [] => []
  | line :: rest => (line, response.fits line) :: (response.captureLine line).marks rest

/-- The lines that are kept. -/
def keptLines (marked : List (CStr × Bool)) : List CStr := (marked.filter Prod.snd).map Prod.fst

/-- What is left of the modem's output. -/
def captured (output : List CStr) : List CStr :=
  (output.foldl At.Response.captureLine .reset).lines

theorem At.Response.foldl_captureLine (response : At.Response) (output : List CStr) :
    (output.foldl captureLine response).lines =
      response.lines ++ keptLines (response.marks output) := by
  induction output generalizing response with
  | nil => simp [marks, keptLines]
  | cons line rest ih =>
      rw [List.foldl_cons, ih, marks]
      by_cases full : At.maxResponseLines ≤ response.lines.length ∨
          At.maxResponseBytes < response.dataLength + line.length + 1
      · have dropped : response.fits line = false := by rw [fits, decide_eq_true full, Bool.not_true]
        have same : (response.captureLine line).lines = response.lines := by
          rw [captureLine, if_pos full]
        simp [keptLines, dropped, same]
      · have kept : response.fits line = true := by rw [fits, decide_eq_false full, Bool.not_false]
        have longer : (response.captureLine line).lines = response.lines ++ [line] := by
          rw [captureLine, if_neg full]
        simp [keptLines, kept, longer]

theorem captured_eq (output : List CStr) :
    captured output = keptLines (At.Response.reset.marks output) :=
  At.Response.reset.foldl_captureLine output

theorem marks_lines (response : At.Response) (output : List CStr) :
    (response.marks output).map Prod.fst = output := by
  induction output generalizing response with
  | nil => rfl
  | cons line rest ih => simp [At.Response.marks, ih]

/-! Every accepted PDU takes a message off the modem. -/

theorem captured_sublist (lines : List CStr) (response : At.Response) :
    ∃ kept, kept.Sublist lines ∧
      (lines.foldl At.Response.captureLine response).lines = response.lines ++ kept := by
  induction lines generalizing response with
  | nil => exact ⟨[], .slnil, (List.append_nil _).symm⟩
  | cons line rest ih =>
      obtain ⟨kept, sublist, equal⟩ := ih (response.captureLine line)
      rw [List.foldl_cons, equal, At.Response.captureLine]
      split
      · exact ⟨kept, sublist.cons line, rfl⟩
      · exact ⟨line :: kept, sublist.cons_cons line, by simp⟩

theorem Inbox.indices_nodup (inbox : Inbox) : (inbox.messages.map StoredMessage.index).Nodup := by
  refine List.pairwise_map.mpr (inbox.ordered.imp ?_)
  intro first second smaller
  exact Int.ne_of_lt smaller

/-- A message from `+1234` with the text `A`. -/
def shortPdu : CStr := .text "00040491214300004210412143650001C1"

def freshWorld : World := ⟨.empty, 0, []⟩

end SmsGateway
