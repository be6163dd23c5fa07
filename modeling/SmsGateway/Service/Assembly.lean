import Mathlib.Data.UInt
import SmsGateway.Lib.Memory
import SmsGateway.Service.Reencoding

/-! `assemble_if_complete` with its counter of eight bits and its array of ids.

An access outside the array and a loop that does not end are faults. Nothing in the
function excludes them: they do not occur since no part that names more parts than
the array has entries is ever stored. -/

namespace SmsGateway.Assembly

open Lib Prog

/-- What the loops must not come to. -/
inductive Fault where
  | outside (access : OutOfBounds)
  | endless
  deriving DecidableEq, Repr

abbrev CheckedM := ExceptT Fault ServiceM

/-- `part - 1U`. -/
def idIndex (part : UInt8) : Nat := (part.toUInt32 - 1).toNat

/-- A use of `partial_ids`. -/
def access {α : Type} : Access α → CheckedM α
  | .ok value => pure value
  | .error fault => throw (.outside fault)

/-- `for (uint8_t part = 1; part <= total_parts; ++part)` over the parts, from `part` on
and for at most so many rounds. -/
def assembleLoop (deliver : SmsDeliver) :
    Nat → UInt8 → SmsMessage → List UInt32 →
      CheckedM (Except EspErr (SmsMessage × List UInt32))
  | 0, part, assembled, partialIds =>
      if part > deliver.concat.totalParts then pure (.ok (assembled, partialIds))
      else throw .endless
  | rounds + 1, part, assembled, partialIds =>
      if part > deliver.concat.totalParts then pure (.ok (assembled, partialIds))
      else do
        match ← storeFind (.findPartial deliver.sender.str deliver.concat.reference
            deliver.concat.totalParts part) with
        | .error e => pure (.error e)
        | .ok stored =>
            if stored.text.str.length ≥ 4096 ∨
                assembled.text.str.length + stored.text.str.length ≥ 4096 then
              pure (.error .invalidSize)
            else do
              let partialIds ← access (store partialIds (idIndex part) stored.id)
              assembleLoop deliver rounds (part + 1) (appendPart assembled part stored) partialIds

/-- The loop that deletes the parts; a failed delete is only logged. -/
def deleteLoop (totalParts : UInt8) : Nat → UInt8 → List UInt32 → CheckedM Unit
  | 0, part, _ => if part > totalParts then pure () else throw .endless
  | rounds + 1, part, partialIds =>
      if part > totalParts then pure ()
      else do
        let id ← access (load partialIds (idIndex part))
        let _ ← storeDelete id
        deleteLoop totalParts rounds (part + 1) partialIds

def assembleIfComplete (rounds : Nat) (deliver : SmsDeliver) :
    CheckedM (Except EspErr (SmsMessage × Bool)) :=
  if !deliver.concat.present then pure (.error .invalidArg)
  else do
    let memory ← allocate
    if !memory then pure (.error .noMem)
    else
      match ← assembleLoop deliver rounds 1 (assembledStart deliver)
          (List.replicate smsMaxSegments 0) with
      | .error e => pure (.error e)
      | .ok (assembled, partialIds) => do
          let memory ← allocate
          if !memory then pure (.error .noMem)
          else
            match ← storeAssembled assembled with
            | .error e => pure (.error e)
            | .ok result => do
                deleteLoop deliver.concat.totalParts rounds 1 partialIds
                pure (.ok result)

/-- The second half of `persist_deliver` from the result of the assembly on. -/
def finishAssembly (eventMessage : SmsMessage) :
    Except EspErr (SmsMessage × Bool) → ServiceM (Except EspErr SmsMessage)
  | .ok (assembled, true) => do
      emitEvent .received assembled
      pure (.ok assembled)
  | .ok (assembled, false) => pure (.ok assembled)
  | .error .notFound => do
      emitEvent .partialReceived eventMessage
      pure (.ok eventMessage)
  | .error e => pure (.error e)

def persistAssembly (rounds : Nat) (deliver : SmsDeliver) (eventMessage : SmsMessage) :
    CheckedM (Except EspErr SmsMessage) := do
  let result ← assembleIfComplete rounds deliver
  finishAssembly eventMessage result

def persistDeliver (rounds : Nat) (deliver : SmsDeliver) :
    CheckedM (Except EspErr SmsMessage) := do
  let record ← allocate
  if !record then pure (.error .noMem)
  else if deliver.concat.present then do
    let existing ← allocate
    let assembled ← allocate
    if !existing || !assembled then pure (.error .noMem)
    else
      match ← persistPart deliver with
      | .error e => pure (.error e)
      | .ok eventMessage => persistAssembly rounds deliver eventMessage
  else do
    let existing ← allocate
    if !existing then pure (.error .noMem)
    else persistSingle (deliverRecord deliver)

def processDecoded (rounds : Nat) (pdu : CStr) (modemIndex : Int) (decode : DecodeResult)
    (deliver : SmsDeliver) : CheckedM (Except EspErr Unit) :=
  if decode = .unsupported ∧ deliver.encoding = .eightBit then do
    match ← persistUnsupportedDeliver pdu deliver with
    | .error e => pure (.error e)
    | .ok _ => deleteModemCopy modemIndex
  else if decode ≠ .ok then pure (.error .invalidResponse)
  else do
    match ← persistDeliver rounds deliver with
    | .error e => pure (.error e)
    | .ok _ => deleteModemCopy modemIndex

def processDeliverPdu (rounds : Nat) (pdu : CStr) (modemIndex : Int) :
    CheckedM (Except EspErr Unit) := do
  let delivered ← allocate
  let stored ← allocate
  if !delivered || !stored then pure (.error .noMem)
  else processDecoded rounds pdu modemIndex (smsDeliverDecode pdu).1 (smsDeliverDecode pdu).2

def processAnyPdu (rounds : Nat) (pdu : CStr) (modemIndex : Int) : CheckedM (Except EspErr Unit) :=
  match smsPduTypeDetect pdu with
  | .deliver => processDeliverPdu rounds pdu modemIndex
  | .statusReport => do
      match ← processStatusReportPdu pdu with
      | .error e => pure (.error e)
      | .ok () => deleteModemCopy modemIndex
  | .unknown => pure (.error .notSupported)

/-! ## The system -/

def activity (rounds : Nat) : Activity → CheckedM Unit
  | .outbound => processOneOutbound
  | .inbound pdu index => do
      let _ ← processAnyPdu rounds pdu index
      pure ()

/-- The journal, what is left of the service task, and the calls of other tasks. -/
structure System where
  world : World
  service : CheckedM Unit
  clients : List (ClientCall × ServiceM (Except EspErr Unit))

namespace System

/-- The start from an empty journal. -/
def begin : System := ⟨⟨.empty, 0, []⟩, restartProgram, []⟩

/-- The tasks call one at a time; a service task with a fault does not go on. -/
inductive Step (rounds : Nat) : System → System → Prop where
  | serviceCall {g : System} {request : ServiceCall}
      {next : request.Reply → ServiceM (Except Fault Unit)} {reply : request.Reply} {t : World}
      (waiting : g.service = Prog.call request next) (answers : request.Answers g.world reply t) :
      Step rounds g { g with world := t, service := next reply }
  | serviceNext {g : System} (idle : g.service = Prog.done (.ok ())) (next : Activity) :
      Step rounds g { g with service := activity rounds next }
  | clientStart {g : System} (call : ClientCall) :
      Step rounds g { g with clients := (call, call.program) :: g.clients }
  | clientCall {g : System} {before after : List (ClientCall × ServiceM (Except EspErr Unit))}
      {call : ClientCall} {request : ServiceCall}
      {next : request.Reply → ServiceM (Except EspErr Unit)} {reply : request.Reply} {t : World}
      (waiting : g.clients = before ++ (call, .call request next) :: after)
      (answers : request.Answers g.world reply t) :
      Step rounds g { g with world := t, clients := before ++ (call, next reply) :: after }
  | clientReturn {g : System} {before after : List (ClientCall × ServiceM (Except EspErr Unit))}
      {call : ClientCall} {result : Except EspErr Unit}
      (finished : g.clients = before ++ (call, .done result) :: after) :
      Step rounds g { g with clients := before ++ after }
  | crash {g : System} : Step rounds g { g with service := restartProgram, clients := [] }
  | watermark {g : System} (protection : Bool) (value : UInt32) :
      Step rounds g { g with world :=
        { g.world with store := smsStoreSetReplayWatermark protection value g.world.store } }

end System

/-! ## Loops over at most 16 parts -/

/-- Programs without faults one after another. -/
theorem liftM_bind {α β : Type} (p : ServiceM α) {checked : α → CheckedM β} {next : α → ServiceM β}
    (same : ∀ value, checked value = liftM (next value)) :
    (liftM p : CheckedM α) >>= checked = liftM (p >>= next) := by
  induction p with
  | done value => exact same value
  | call request rest ih => exact congrArg _ (funext ih)

section

variable {total : UInt8} {k : Nat}

/-- The loops end behind the last part. -/
theorem part_gt (inside : k ≤ total.toNat) (few : total.toNat ≤ smsMaxSegments) :
    UInt8.ofNat (k + 1) > total ↔ k = total.toNat := by
  rw [gt_iff_lt, UInt8.lt_iff_toNat_lt, UInt8.toNat_ofNat']
  simp only [smsMaxSegments] at few
  omega

theorem idIndex_part (inside : k < total.toNat) : idIndex (UInt8.ofNat (k + 1)) = k := by
  have small := total.toNat_lt
  rw [idIndex, UInt32.toNat_sub, UInt8.toNat_toUInt32, UInt8.toNat_ofNat']
  simp only [UInt32.reduceToNat]
  omega

theorem partNumbers_drop (inside : k < total.toNat) :
    (partNumbers total).drop k = UInt8.ofNat (k + 1) :: (partNumbers total).drop (k + 1) := by
  have here : k < (partNumbers total).length := by
    rw [partNumbers, List.length_map, List.length_range]
    exact inside
  rw [List.drop_eq_getElem_cons here]
  simp [partNumbers]

theorem partNumbers_end : (partNumbers total).drop total.toNat = [] := by
  apply List.drop_of_length_le
  rw [partNumbers, List.length_map, List.length_range]

end

theorem deleteLoop_eq {total : UInt8} (few : total.toNat ≤ smsMaxSegments) {rounds k : Nat}
    (inside : k ≤ total.toNat) (enough : total.toNat ≤ k + rounds) {ids : List UInt32}
    (size : ids.length = total.toNat) :
    deleteLoop total rounds (UInt8.ofNat (k + 1)) (padded smsMaxSegments ids) =
      liftM (deletePartials (ids.drop k)) := by
  induction rounds generalizing k with
  | zero =>
      have ended : k = total.toNat := by omega
      rw [deleteLoop, if_pos ((part_gt inside few).mpr ended), List.drop_of_length_le (by omega)]
      rfl
  | succ rounds ih =>
      by_cases ended : k = total.toNat
      · rw [deleteLoop, if_pos ((part_gt inside few).mpr ended), List.drop_of_length_le (by omega)]
        rfl
      · have more : k < total.toNat := by omega
        have here : k < ids.length := by omega
        have read : load (padded smsMaxSegments ids) k = .ok (ids[k]) := by
          rw [load, padded, List.getElem?_append_left here, List.getElem?_eq_getElem here]
        rw [deleteLoop, if_neg (fun above => ended ((part_gt inside few).mp above)),
          idIndex_part more, read, List.drop_eq_getElem_cons here, deletePartials]
        change Prog.call _ _ = Prog.call _ _
        congr 1
        funext reply
        have rest := @ih (k + 1) (by omega) (by omega)
        rw [UInt8.ofNat_add (k + 1) 1] at rest
        exact rest

/-- The loop over the parts, and what follows it. -/
theorem assembleLoop_bind {β : Type} {deliver : SmsDeliver}
    (few : deliver.concat.totalParts.toNat ≤ smsMaxSegments)
    {checked : Except EspErr (SmsMessage × List UInt32) → CheckedM β}
    {next : Except EspErr (SmsMessage × List UInt32) → ServiceM β}
    (failed : ∀ e, checked (.error e) = liftM (next (.error e)))
    (gathered : ∀ assembled ids, ids.length = deliver.concat.totalParts.toNat →
      checked (.ok (assembled, padded smsMaxSegments ids)) = liftM (next (.ok (assembled, ids))))
    {rounds k : Nat} (enough : deliver.concat.totalParts.toNat ≤ k + rounds)
    (inside : k ≤ deliver.concat.totalParts.toNat) (assembled : SmsMessage) {ids : List UInt32}
    (size : ids.length = k) :
    assembleLoop deliver rounds (UInt8.ofNat (k + 1)) assembled (padded smsMaxSegments ids) >>=
        checked =
      liftM (assembleParts deliver ((partNumbers deliver.concat.totalParts).drop k) assembled ids >>=
        next) := by
  -- Behind the last part both loops hand on what they gathered.
  have ending (assembled : SmsMessage) {ids : List UInt32}
      (whole : ids.length = deliver.concat.totalParts.toNat) :
      (pure (.ok (assembled, padded smsMaxSegments ids)) : CheckedM _) >>= checked =
        liftM (assembleParts deliver ((partNumbers deliver.concat.totalParts).drop
          deliver.concat.totalParts.toNat) assembled ids >>= next) := by
    rw [pure_bind, gathered assembled ids whole, partNumbers_end]
    rfl
  induction rounds generalizing k assembled ids with
  | zero =>
      have ended : k = deliver.concat.totalParts.toNat := by omega
      rw [assembleLoop, if_pos ((part_gt inside few).mpr ended), ended]
      exact ending assembled (size.trans ended)
  | succ rounds ih =>
      by_cases ended : k = deliver.concat.totalParts.toNat
      · rw [assembleLoop, if_pos ((part_gt inside few).mpr ended), ended]
        exact ending assembled (size.trans ended)
      · have more : k < deliver.concat.totalParts.toNat := by omega
        rw [assembleLoop, if_neg (fun above => ended ((part_gt inside few).mp above)),
          partNumbers_drop more, assembleParts]
        change Prog.call _ _ = Prog.call _ _
        congr 1
        funext reply
        cases reply with
        | error e => exact failed e
        | ok stored =>
            change (ite _ _ _ : CheckedM _) >>= checked = liftM ((ite _ _ _) >>= next)
            split
            · exact failed _
            · have written := @store_padded _ _ smsMaxSegments ids stored.id (by omega)
              rw [size] at written
              rw [idIndex_part more, written]
              have rest := @ih (k + 1) (by omega) (by omega)
                (appendPart assembled (UInt8.ofNat (k + 1)) stored) (ids ++ [stored.id])
                (by rw [List.length_append, List.length_singleton, size])
              rw [UInt8.ofNat_add (k + 1) 1] at rest
              exact rest

/-- For at most 16 parts the function is the one that returns lists of ids. -/
theorem assembleIfComplete_eq {deliver : SmsDeliver}
    (few : deliver.concat.totalParts.toNat ≤ smsMaxSegments) {rounds : Nat}
    (enough : smsMaxSegments ≤ rounds) :
    assembleIfComplete rounds deliver = liftM (SmsGateway.assembleIfComplete deliver) := by
  rw [assembleIfComplete, SmsGateway.assembleIfComplete]
  split
  · rfl
  · change Prog.call _ _ = Prog.call _ _
    congr 1
    funext memory
    cases memory with
    | false => rfl
    | true =>
        refine @assembleLoop_bind _ deliver few _ _ (fun e => rfl) ?_ rounds 0 (by omega)
          (Nat.zero_le _) (assembledStart deliver) [] rfl
        intro assembled ids size
        refine liftM_bind allocate ?_
        intro memory
        cases memory with
        | false => rfl
        | true =>
            refine liftM_bind (storeAssembled assembled) ?_
            intro result
            cases result with
            | error e => rfl
            | ok result =>
                have deletes := @deleteLoop_eq _ few rounds 0 (Nat.zero_le _) (by omega) ids size
                rw [List.drop_zero] at deletes
                exact (congrArg (· >>= _) deletes).trans (liftM_bind _ fun _ => rfl)

/-! ## A journal of counted parts -/

def countedRecords : Set SmsMessage := { m | m.Counted }

/-- A save that succeeds has passed the check of its segment count. -/
def SaveChecked : (request : ServiceCall) → request.Reply → Prop
  | .save message, reply => reply.1 = .ok () → message.segmentCount.toNat ≤ smsMaxSegments
  | _, _ => True

/-- What such a journal answers, whatever the other tasks do to it. -/
def Tells (_ : Unit) (request : ServiceCall) (reply : request.Reply) (_ : Unit) : Prop :=
  request.Keeps countedRecords reply countedRecords ∧ request.Truthful reply ∧
    SaveChecked request reply

/-- The calls after which the parts are still counted. -/
def CountedCall (_ : Unit) : ServiceCall → Prop
  | .save message => message.Counted
  | _ => True

theorem applyReport_counted {m : SmsMessage} (counted : m.Counted) (segment : Nat)
    (report : SmsStatusReport) : (applyReport m segment report).Counted := by
  simp only [SmsMessage.Counted, applyReport] at counted ⊢
  repeat' split
  all_goals first
    | exact counted
    | (intro status
       cases status)

theorem evolves_counted {m new : SmsMessage} (counted : m.Counted) 
    (evolves : Evolves m new) : new.Counted := by
  cases evolves with
  | reported report inside sent => exact applyReport_counted counted _ report
  | sent reference running inside => exact counted
  | _ =>
      intro status
      cases status

theorem counted_of_outgoing {α : Type} {p : ServiceM α}
    (outgoing : Obeys ServiceCall.Keeps ServiceCall.Outgoing (fun _ _ => True) p countedRecords) :
    Obeys Tells CountedCall (fun _ _ => True) p () := by
  induction p with
  | done value => trivial
  | call request next ih =>
      refine ⟨?_, fun reply _ told => ih reply (outgoing.2 reply _ told.1)⟩
      cases request with
      | save message =>
          cases outgoing.1 with
          | queued recipient text report reference encoding some most =>
              intro status
              cases status
          | evolved stored evolves encodable => exact evolves_counted stored evolves
      | _ => trivial

theorem receives_counted : Receives Tells CountedCall where
  plain := by
    intro _ request plain
    cases request with
    | save message => exact plain.elim
    | _ => trivial
  arrived := fun _ m _ counted => counted
  part := by
    rintro _ _ sender reference partNumber m deliver ⟨⟨-, found⟩, -⟩
    obtain ⟨counted, -, isPart⟩ := found m rfl
    simp only [StoreQuery.Matches, isPartialOf, Bool.and_eq_true, beq_iff_eq] at isPart
    intro status
    exact isPart.1.1.2.symm.trans (counted status)

/-- Every call is allowed, and the program ends without a fault. -/
def Faultless {α : Type} (p : CheckedM α) : Prop :=
  Obeys Tells CountedCall (fun result _ => ∃ value, result = .ok value) p ()

namespace Faultless

variable {α β : Type}

theorem pure (value : α) : Faultless (pure value) := ⟨value, rfl⟩

/-- A program without loops of its own. -/
theorem lift {p : ServiceM α} (obeys : Obeys Tells CountedCall (fun _ _ => True) p ()) :
    Faultless (liftM p) := by
  induction p with
  | done value => exact ⟨value, rfl⟩
  | call request next ih => exact ⟨obeys.1, fun reply _ told => ih reply (obeys.2 reply () told)⟩

/-- The same, followed by a program for each result that it can have. -/
theorem liftBind {p : ServiceM α} {f : α → CheckedM β}
    (obeys : Obeys Tells CountedCall (fun value _ => Faultless (f value)) p ()) :
    Faultless (liftM p >>= f) := by
  induction p with
  | done value => exact obeys
  | call request next ih => exact ⟨obeys.1, fun reply _ told => ih reply (obeys.2 reply () told)⟩

theorem bind {p : CheckedM α} {f : α → CheckedM β} (first : Faultless p)
    (later : ∀ value, Faultless (f value)) : Faultless (p >>= f) := by
  refine Obeys.bind (first.mono ?_)
  rintro _ _ ⟨value, rfl⟩
  exact later value

theorem allocate {f : Bool → CheckedM β} (later : ∀ memory, Faultless (f memory)) :
    Faultless (liftM SmsGateway.allocate >>= f) :=
  liftBind (receives_counted.allocate.after () fun memory _ => later memory)

end Faultless

/-- A part is stored only if the array of ids has room for its message. -/
theorem persistPart_few {deliver : SmsDeliver} (multipart : deliver.concat.present = true) :
    Obeys Tells CountedCall (fun result _ =>
      ∀ m, result = .ok m → deliver.concat.totalParts.toNat ≤ smsMaxSegments)
      (persistPart deliver) () := by
  refine Obeys.send trivial ?_
  rintro reply _ told
  cases reply with
  | ok m =>
      have few : deliver.concat.totalParts.toNat ≤ smsMaxSegments := by
        obtain ⟨⟨-, found⟩, truthful, -⟩ := told
        obtain ⟨counted, -, isPart⟩ := found m rfl
        obtain ⟨-, small, -⟩ := truthful m rfl
        simp only [StoreQuery.Matches, isPartialOf, Bool.and_eq_true, beq_iff_eq] at isPart
        rw [← isPart.1.1.2, counted isPart.1.1.1.1.1.2]
        exact small
      dsimp only
      split
      · exact fun _ _ => few
      · refine ⟨receives_counted.part _ _ _ _ _ m deliver told, ?_⟩
        rintro ⟨result, back⟩ _ -
        cases result <;> exact fun _ _ => few
  | error e =>
      have failed (e : EspErr) : Obeys Tells CountedCall (fun result _ =>
          ∀ m, result = .ok m → deliver.concat.totalParts.toNat ≤ smsMaxSegments)
          (.done (.error e) : ServiceM (Except EspErr SmsMessage)) () := by
        intro m equal
        cases equal
      cases e with
      | notFound =>
          refine ⟨Receives.deliverRecord_counted, ?_⟩
          rintro ⟨result, back⟩ _ ⟨-, -, checked⟩
          cases result with
          | error e => exact failed e
          | ok _ =>
              have small := checked rfl
              simp only [deliverRecord, multipart, ↓reduceIte] at small
              exact fun _ _ => small
      | _ => exact failed _

theorem faultless_persistAssembly {deliver : SmsDeliver} {rounds : Nat}
    (enough : smsMaxSegments ≤ rounds)
    (few : deliver.concat.totalParts.toNat ≤ smsMaxSegments) (eventMessage : SmsMessage) :
    Faultless (persistAssembly rounds deliver eventMessage) := by
  have same : persistAssembly rounds deliver eventMessage =
      liftM (SmsGateway.persistAssembly deliver eventMessage) := by
    rw [persistAssembly, assembleIfComplete_eq few enough]
    exact liftM_bind _ fun _ => rfl
  rw [same]
  exact .lift (receives_counted.persistAssembly eventMessage ())

theorem faultless_persistDeliver {rounds : Nat} (enough : smsMaxSegments ≤ rounds)
    (deliver : SmsDeliver) : Faultless (persistDeliver rounds deliver) := by
  refine .allocate fun record => ?_
  split
  · exact .pure _
  split
  · rename_i multipart
    refine .allocate fun existing => .allocate fun assembled => ?_
    split
    · exact .pure _
    · refine .liftBind ((persistPart_few multipart).mono ?_)
      intro result _ few
      cases result with
      | error e => exact .pure _
      | ok m => exact faultless_persistAssembly enough (few m rfl) m
  · refine .allocate fun existing => ?_
    split
    · exact .pure _
    · exact .lift (receives_counted.persistSingle Receives.deliverRecord_arrived
        Receives.deliverRecord_counted ())

theorem faultless_deleteModemCopy (modemIndex : Int) :
    Faultless (liftM (deleteModemCopy modemIndex)) :=
  .lift (receives_counted.deleteModemCopy (fun _ _ _ => trivial) modemIndex ())

theorem faultless_processDeliverPdu {rounds : Nat} (enough : smsMaxSegments ≤ rounds) (pdu : CStr)
    (modemIndex : Int) : Faultless (processDeliverPdu rounds pdu modemIndex) := by
  refine .allocate fun delivered => .allocate fun stored => ?_
  split
  · exact .pure _
  rw [processDecoded]
  split
  · refine .liftBind ((receives_counted.persistUnsupportedDeliver pdu ()).mono ?_)
    rintro result _ -
    cases result with
    | error e => exact .pure _
    | ok m => exact faultless_deleteModemCopy modemIndex
  split
  · exact .pure _
  · refine (faultless_persistDeliver enough _).bind fun result => ?_
    cases result with
    | error e => exact .pure _
    | ok m => exact faultless_deleteModemCopy modemIndex

theorem faultless_processAnyPdu {rounds : Nat} (enough : smsMaxSegments ≤ rounds) (pdu : CStr)
    (modemIndex : Int) : Faultless (processAnyPdu rounds pdu modemIndex) := by
  rw [processAnyPdu]
  split
  · exact faultless_processDeliverPdu enough pdu modemIndex
  · have reports : Safe Tells CountedCall (processStatusReportPdu pdu) := by
      refine receives_counted.processStatusReportPdu ?_ pdu
      rintro _ _ recipient reference m i report ⟨⟨-, found⟩, -⟩
      exact applyReport_counted (found m i rfl).1 i report
    refine .liftBind ((reports ()).mono ?_)
    rintro result _ -
    cases result with
    | error e => exact .pure _
    | ok _ => exact faultless_deleteModemCopy modemIndex
  · exact .pure _

theorem faultless_activity {rounds : Nat} (enough : smsMaxSegments ≤ rounds) (next : Activity) :
    Faultless (activity rounds next) := by
  cases next with
  | outbound => exact .lift (counted_of_outgoing (outgoing_processOneOutbound _))
  | inbound pdu index => exact (faultless_processAnyPdu enough pdu index).bind fun _ => .pure ()

theorem faultless_restart : Faultless (liftM restartProgram) :=
  .lift (counted_of_outgoing (outgoing_markInterruptedSendsUncertain _ _))

/-! ## Every run -/

theorem answers_checked {w t : World} {request : ServiceCall} {reply : request.Reply}
    (answers : request.Answers w reply t) : SaveChecked request reply := by
  cases request with
  | save message =>
      intro succeeded
      obtain ⟨plan, rfl, -⟩ := answers
      by_contra many
      have refused : message.storable = false := by
        simp only [SmsMessage.storable, many, decide_false, Bool.and_false]
      rw [smsStoreSave, refused] at succeeded
      cases succeeded
  | _ => trivial

theorem answers_tells {w t : World} {request : ServiceCall} {reply : request.Reply}
    (sound : w.store.Sound) (counted : w.records ⊆ countedRecords) (may : CountedCall () request)
    (answers : request.Answers w reply t) :
    t.store.Sound ∧ t.records ⊆ countedRecords ∧ Tells () request reply () := by
  have saves (message : SmsMessage) (equal : request = .save message) :
      StaysIn countedRecords t message := by
    subst equal
    by_cases named : message.id = 0
    · exact .inr ⟨named, fun _ _ => may⟩
    · exact .inl ⟨named, may⟩
  obtain ⟨after, held, keeps, truthful⟩ := answers.stays sound counted saves
  exact ⟨after, held, keeps, truthful, answers_checked answers⟩

namespace System

/-- The stored parts are counted, and no task is about to change that or to fault. -/
structure Kept (g : System) : Prop where
  sound : g.world.store.Sound
  counted : g.world.records ⊆ countedRecords
  service : Faultless g.service
  clients : ∀ client ∈ g.clients, Obeys Tells CountedCall (fun _ _ => True) client.2 ()

theorem begin_kept : begin.Kept where
  sound := Store.sound_empty
  counted := by
    rintro m ⟨slot, stored⟩
    cases stored
  service := faultless_restart
  clients := nofun

theorem Step.kept {rounds : Nat} (enough : smsMaxSegments ≤ rounds) {g g' : System}
    (step : Step rounds g g') (kept : g.Kept) : g'.Kept := by
  cases step with
  | serviceCall waiting answers =>
      have service := kept.service
      rw [waiting] at service
      obtain ⟨sound, counted, told⟩ := answers_tells kept.sound kept.counted service.1 answers
      exact ⟨sound, counted, service.2 _ () told, kept.clients⟩
  | serviceNext idle next =>
      exact ⟨kept.sound, kept.counted, faultless_activity enough next, kept.clients⟩
  | clientStart call =>
      refine ⟨kept.sound, kept.counted, kept.service, ?_⟩
      intro client member
      rcases List.mem_cons.mp member with rfl | member
      · exact counted_of_outgoing (call.outgoing _)
      · exact kept.clients client member
  | clientCall waiting answers =>
      have client := kept.clients _ (by rw [waiting]; exact List.mem_append_right _ List.mem_cons_self)
      obtain ⟨sound, counted, told⟩ := answers_tells kept.sound kept.counted client.1 answers
      exact ⟨sound, counted, kept.service, forall_moved kept.clients waiting (client.2 _ () told)⟩
  | clientReturn finished =>
      exact ⟨kept.sound, kept.counted, kept.service, forall_remaining kept.clients finished⟩
  | crash => exact ⟨kept.sound, kept.counted, faultless_restart, nofun⟩
  | watermark protection value =>
      exact ⟨kept.sound.congr rfl, kept.counted, kept.service, kept.clients⟩

theorem run_kept {rounds : Nat} (enough : smsMaxSegments ≤ rounds) {g : System}
    (run : Relation.ReflTransGen (Step rounds) begin g) : g.Kept := by
  induction run with
  | refl => exact begin_kept
  | tail _ step kept => exact step.kept enough kept

end System

/-- A run of such a program in a journal of counted parts. -/
theorem Faultless.runs {α : Type} {p : CheckedM α} (faultless : Faultless p) {w t : World}
    {trace : List (Entry World ServiceCall ServiceCall.Reply)} {result : Except Fault α}
    (sound : w.store.Sound) (counted : w.records ⊆ countedRecords)
    (runs : Runs ServiceCall.Answers p w trace result t) : ∃ value, result = .ok value := by
  induction runs with
  | done => exact faultless
  | call answered rest ih =>
      obtain ⟨after, held, told⟩ := answers_tells sound counted faultless.1 answered
      exact ih (faultless.2 _ () told) after held

/-- In every run of the tasks, with refused calls and restarts, a stored part names as
many parts as it has segments, which are at most 16. With 16 rounds for each of its
loops the assembly ends, with every use of `partial_ids` inside the array, in the runs
of the service and whatever part is given to `persist_deliver`. -/
theorem assembly_in_bounds {rounds : Nat} (enough : 16 ≤ rounds) {g : System}
    (run : Relation.ReflTransGen (System.Step rounds) System.begin g) :
    (∀ m, g.world.Holds m → m.status = .partialRecord →
      m.concat.totalParts = m.segmentCount ∧ m.segmentCount.toNat ≤ 16) ∧
    (∀ fault, g.service ≠ Prog.done (.error fault)) ∧
    ∀ deliver trace result t,
      Runs ServiceCall.Answers (persistDeliver rounds deliver) g.world trace result t →
        ∃ value, result = .ok value := by
  have kept := System.run_kept enough run
  refine ⟨?_, ?_, ?_⟩
  · intro m held status
    exact ⟨kept.counted held status, holds_segmentCount held⟩
  · intro fault stopped
    have service := kept.service
    rw [stopped] at service
    obtain ⟨value, equal⟩ := service
    cases equal
  · intro deliver trace result t runs
    exact (faultless_persistDeliver enough deliver).runs kept.sound kept.counted runs

/-- The first of two parts from `+123`, with the text `A`. -/
def firstPart : Activity := .inbound (.text "0044039121F3000862101000000000080500030702010041") 3

def afterFirstPart : World := (Prog.run ServiceCall.handle (activity 16 firstPart) afterBoot).2

theorem run_liftM (p : ServiceM Unit) (w : World) :
    Prog.run ServiceCall.handle (liftM p : CheckedM Unit) w =
      (.ok (), (Prog.run ServiceCall.handle p w).2) := by
  induction p generalizing w with
  | done value => rfl
  | call request next ih => exact ih _ _

namespace System

variable {rounds : Nat} {w t : World}

theorem serviceRun (p : CheckedM Unit) (w : World) :
    Relation.ReflTransGen (Step rounds) ⟨w, p, []⟩
      ⟨(Prog.run ServiceCall.handle p w).2, Prog.done (Prog.run ServiceCall.handle p w).1, []⟩ := by
  induction p generalizing w with
  | done value => exact .refl
  | call request next ih => exact (ih _ _).head (.serviceCall rfl (request.handle_answers w))

theorem liftedRun (p : ServiceM Unit) (w : World) :
    Relation.ReflTransGen (Step rounds) ⟨w, p, []⟩
      ⟨(Prog.run ServiceCall.handle p w).2, Prog.done (.ok ()), []⟩ := by
  have ran := @serviceRun rounds p w
  rw [run_liftM] at ran
  exact ran

theorem activityRun (next : Activity)
    (before : Relation.ReflTransGen (Step rounds) begin ⟨w, Prog.done (.ok ()), []⟩)
    (world : (Prog.run ServiceCall.handle (activity rounds next) w).2 = t) :
    ∃ service, Relation.ReflTransGen (Step rounds) begin ⟨t, service, []⟩ := by
  rw [← world]
  exact ⟨_, (before.tail (.serviceNext rfl next)).trans (serviceRun _ w)⟩

end System

theorem assembly_in_bounds_firstPart :
    ∃ g m, 16 ≤ 16 ∧ Relation.ReflTransGen (System.Step 16) System.begin g ∧ g.world.Holds m ∧
      m.status = .partialRecord ∧ m.concat.totalParts = m.segmentCount ∧
      m.segmentCount.toNat ≤ 16 ∧ ∀ fault, g.service ≠ Prog.done (.error fault) := by
  have booted : Relation.ReflTransGen (System.Step 16) System.begin
      ⟨afterBoot, Prog.done (.ok ()), []⟩ := System.liftedRun restartProgram ⟨.empty, 0, []⟩
  obtain ⟨service, run⟩ := @System.activityRun 16 afterBoot afterFirstPart firstPart booted rfl
  have stored : (afterFirstPart.store.view ⟨0, by decide⟩).map SmsMessage.status =
      some .partialRecord := by
    decide +kernel
  obtain ⟨m, view, status⟩ := Option.map_eq_some_iff.mp stored
  obtain ⟨counted, faultless, -⟩ := assembly_in_bounds (Nat.le_refl 16) run
  obtain ⟨total, few⟩ := counted m ⟨_, view⟩ status
  exact ⟨_, m, Nat.le_refl 16, run, ⟨_, view⟩, status, total, few, faultless⟩

end SmsGateway.Assembly
