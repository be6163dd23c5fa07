import SmsGateway.Lib.Concurrent
import SmsGateway.Service.Correlation

/-! Delivery reports next to retries and deletes, one store call at a time. -/

namespace SmsGateway

open Lib Prog

inductive Task where
  | service
  | api
  deriving DecidableEq, Repr

/-- The operations that meet in the store. -/
inductive Contender where
  | report (pdu : CStr)
  | retryUncertain (id : UInt32)
  | delete (id : UInt32)
  deriving DecidableEq

namespace Contender

def program : Contender → ServiceM (Except EspErr Unit)
  | .report pdu => processStatusReportPdu pdu
  | .retryUncertain id => smsServiceRetryUncertain id
  | .delete id => smsServiceDelete id

/-- The task that runs the operation. -/
def task : Contender → Task
  | .report _ => .service
  | .retryUncertain _ | .delete _ => .api

end Contender

/-- A call with the events it emits left out. -/
def ServiceCall.Acts (w : World) (request : ServiceCall) (reply : request.Reply) (t : World) :
    Prop :=
  ∃ u, request.Answers w reply u ∧ t = { u with events := w.events }

/-- The id of the record that a call writes. -/
def ServiceCall.written : ServiceCall → Option UInt32
  | .save message => some message.id
  | .delete id => some id
  | _ => none

def ServiceCall.Writes (request : ServiceCall) : Prop := request.written ≠ none

/-- The id of the record that an operation has read and is about to save. -/
def aboutToSave : ServiceM (Except EspErr Unit) → Option UInt32
  | .call (.save message) _ => some message.id
  | _ => none

/-- The call does not write a record that the operation is about to save. -/
def Spares (rest : ServiceM (Except EspErr Unit)) (request : ServiceCall) : Prop :=
  ∀ id, request.written = some id → aboutToSave rest ≠ some id

/-! The parts of the operations. -/

/-- `process_status_report_pdu` after its save. -/
def announceReport : Except EspErr Unit × SmsMessage → ServiceM (Except EspErr Unit)
  | (.error e, _) => .done (.error e)
  | (.ok (), saved) => do
      emitReport saved
      pure (.ok ())

/-- From its save on. -/
def saveReport (m : SmsMessage) (segment : Nat) (report : SmsStatusReport) :
    ServiceM (Except EspErr Unit) :=
  .call (.save (applyReport m segment report)) announceReport

/-- From its search on. -/
def searchReport (report : SmsStatusReport) : ServiceM (Except EspErr Unit) :=
  .call (.findOutboundReference report.recipient.str report.messageReference) fun reply =>
    match reply with
    | .error e => .done (.error e)
    | .ok (m, segment) => saveReport m segment report

theorem processStatusReportPdu_eq {pdu : CStr} {report : SmsStatusReport}
    (decoded : smsStatusReportDecode pdu = .ok report) :
    processStatusReportPdu pdu = .call .alloc fun memory =>
      if memory then searchReport report else .done (.error .noMem) := by
  simp only [processStatusReportPdu, decoded]
  change Prog.call _ _ = _
  congr 1
  funext memory
  cases memory with
  | false => rfl
  | true =>
      change Prog.call _ _ = Prog.call _ _
      congr 1
      funext reply
      cases reply with
      | error e => rfl
      | ok found =>
          change Prog.call _ _ = Prog.call _ _
          congr 1
          funext saved
          obtain ⟨result, back⟩ := saved
          cases result <;> rfl

/-- `sms_service_retry_uncertain` from its save on. -/
def saveRetry (m : SmsMessage) : ServiceM (Except EspErr Unit) :=
  .call (.save (requeuedRecord m)) fun reply => .done reply.1

/-- The record can be retried. -/
def Retryable (m : SmsMessage) : Prop := m.direction = .outbound ∧ m.status = .uncertain

/-- The record can be deleted. -/
def Deletable (m : SmsMessage) : Prop :=
  ¬ (m.direction = .outbound ∧ (m.status = .queued ∨ m.status = .sending))

instance (m : SmsMessage) : Decidable (Retryable m) := inferInstanceAs (Decidable (_ ∧ _))

instance (m : SmsMessage) : Decidable (Deletable m) := inferInstanceAs (Decidable (¬ _))

/-- An operation on one record, from its read on. -/
def readThen (id : UInt32) (may : SmsMessage → Prop) [DecidablePred may]
    (next : SmsMessage → ServiceM (Except EspErr Unit)) : ServiceM (Except EspErr Unit) :=
  .call (.query (.get id)) fun reply =>
    match reply with
    | .error e => .done (.error e)
    | .ok m => if may m then next m else .done (.error .invalidState)

theorem smsServiceRetryUncertain_eq (id : UInt32) :
    smsServiceRetryUncertain id = .call .alloc fun memory =>
      if memory then readThen id Retryable saveRetry else .done (.error .noMem) := by
  change Prog.call _ _ = _
  congr 1
  funext memory
  cases memory with
  | false => rfl
  | true =>
      change Prog.call _ _ = Prog.call _ _
      congr 1
      funext reply
      match reply with
      | .error e => rfl
      | .ok m =>
          by_cases may : Retryable m
          · have not : ¬ (m.direction ≠ .outbound ∨ m.status ≠ .uncertain) := by
              simp [may.1, may.2]
            change (if _ then _ else _ : ServiceM (Except EspErr Unit)) = if _ then _ else _
            rw [if_neg not, if_pos may]
            rfl
          · have refused : m.direction ≠ .outbound ∨ m.status ≠ .uncertain :=
              not_and_or.mp may
            change (if _ then _ else _ : ServiceM (Except EspErr Unit)) = if _ then _ else _
            rw [if_pos refused, if_neg may]
            rfl

theorem smsServiceDelete_eq (id : UInt32) :
    smsServiceDelete id = .call .alloc fun memory =>
      if memory then readThen id Deletable fun _ => storeDelete id
      else .done (.error .noMem) := by
  change Prog.call _ _ = _
  congr 1
  funext memory
  cases memory with
  | false => rfl
  | true =>
      change Prog.call _ _ = Prog.call _ _
      congr 1
      funext reply
      match reply with
      | .error e => rfl
      | .ok m =>
          by_cases may : Deletable m
          · change (if _ then _ else _ : ServiceM (Except EspErr Unit)) = if _ then _ else _
            rw [if_neg may, if_pos may]
          · change (if _ then _ else _ : ServiceM (Except EspErr Unit)) = if _ then _ else _
            rw [if_pos (not_not.mp may), if_neg may]
            rfl

/-! What the calls do. -/

section

variable {w t : World}

theorem acts_alloc (memory : Bool) : ServiceCall.Acts w .alloc memory w := ⟨w, rfl, rfl⟩

/-- A call that writes nothing leaves the journal as it is. -/
theorem acts_reads {request : ServiceCall} {reply : request.Reply} (numbered : w.Numbered)
    (reads : ¬ request.Writes) (acts : request.Acts w reply t) : t = w := by
  obtain ⟨u, answers, rfl⟩ := acts
  have kept : u.store = w.store ∧ u.issued = w.issued := by
    cases request with
    | save message => exact absurd (by simp [ServiceCall.Writes, ServiceCall.written]) reads
    | delete id => exact absurd (by simp [ServiceCall.Writes, ServiceCall.written]) reads
    | query wanted =>
        rw [(StoreQuery.performs_ok numbered.sound answers).1]
        exact ⟨rfl, rfl⟩
    | findOutboundReference recipient reference =>
        rw [(World.performs_findOutbound numbered.sound answers).1]
        exact ⟨rfl, rfl⟩
    | list afterId maxRecords =>
        by_cases positive : maxRecords = 0
        · obtain ⟨plan, -, rfl⟩ := answers
          subst positive
          exact ⟨rfl, by simp [World.withStore, smsStoreList, Store.allocations, pure_apply]⟩
        · rw [(World.performs_list numbered.sound positive answers).1]
          exact ⟨rfl, rfl⟩
    | emit event message =>
        obtain rfl : u = w.emit event message := answers
        exact ⟨rfl, rfl⟩
    | isReady | pduModeConfigured | alloc | espRandom | execute request =>
        obtain rfl : u = w := answers
        exact ⟨rfl, rfl⟩
  obtain ⟨store, issued⟩ := kept
  cases u
  cases w
  simp_all

/-- A record is read back by its id. -/
theorem acts_get {m : SmsMessage} (numbered : w.Numbered) (held : w.Holds m) :
    ServiceCall.Acts w (.query (.get m.id)) (.ok m) w := by
  have named := numbered.holds_named held
  have read := (smsStoreGet_reads numbered.sound m.id named).faultless
  obtain ⟨slot, stored⟩ := held
  rw [numbered.slotOf_eq stored, Option.bind_some, stored] at read
  refine ⟨w, ⟨Plan.faultless, ?_, ?_⟩, rfl⟩
  · change (smsStoreGet m.id (Plan.faultless, w.store)).1 = _
    rw [read]
    rfl
  · change w = w.withStore (smsStoreGet m.id (Plan.faultless, w.store)).2.2
    rw [read, World.withStore_self]

theorem acts_find {recipient : CStr} {reference : UInt8} {m : SmsMessage} {i : Nat}
    (numbered : w.Numbered) (newest : w.store.Newest recipient reference m i) :
    ServiceCall.Acts w (.findOutboundReference recipient reference) (.ok (m, i)) w := by
  have read := (smsStoreFindOutboundReference_reads numbered.sound recipient reference).faultless
  cases found : w.store.newestReference recipient reference with
  | none => exact absurd newest.sent (Store.newestReference_none found newest.held i)
  | some place =>
      obtain ⟨slot, index⟩ := place
      obtain ⟨m', stored, other⟩ := Store.newestReference_newest found
      obtain ⟨rfl, rfl⟩ := newest.unique numbered other
      simp only [found, stored, Option.getD_some] at read
      refine ⟨w, ⟨Plan.faultless, ?_, ?_⟩, rfl⟩
      · rw [read]
      · rw [read, World.withStore_self]

theorem acts_save {message : SmsMessage} {reply : Except EspErr Unit × SmsMessage}
    (numbered : w.Numbered) (acts : ServiceCall.Acts w (.save message) reply t)
    (named : message.id ≠ 0) (known : message.id.toNat ≤ w.issued) :
    t.Numbered ∧ Store.SaveEffect w.store t.store message reply := by
  obtain ⟨u, answers, rfl⟩ := acts
  have room : u.issued < idLimit := by
    obtain ⟨plan, -, rfl⟩ := answers
    have ending := smsStoreSave_end plan numbered.sound message
    have counter : (smsStoreSave message (plan, w.store)).2.2.nextId = w.store.nextId := by
      generalize (smsStoreSave message (plan, w.store)).1 = result at ending
      generalize (smsStoreSave message (plan, w.store)).2.2 = after at ending
      cases ending with
      | invalid rejected => rfl
      | new storable unnamed ending => exact absurd unnamed named
      | existing storable _ ending => exact ending.nextId
    simp only [World.withStore, Store.allocations_of_eq counter, Nat.add_zero]
    exact Store.Numbered.inRange numbered
  obtain ⟨wrote, effect, -⟩ := World.performs_save numbered known answers room
  exact ⟨wrote.numbered, effect⟩

theorem acts_delete {id : UInt32} {reply : Except EspErr Unit} (numbered : w.Numbered)
    (acts : ServiceCall.Acts w (.delete id) reply t) :
    t.Numbered ∧ Store.DeleteEffect w.store t.store id reply := by
  obtain ⟨u, answers, rfl⟩ := acts
  obtain ⟨wrote, effect⟩ := World.performs_delete numbered answers
  exact ⟨wrote.numbered, effect⟩

end

/-! How far an operation can have come. -/

section

variable {w : World} {rest : ServiceM (Except EspErr Unit)}

theorem settles_done (result : Except EspErr Unit) :
    Settles ServiceCall.Acts result (.done result) := rfl

/-- The operation has read nothing yet, or it is about to write what it read
allows. -/
inductive Contender.Stage (w : World) : Contender → ServiceM (Except EspErr Unit) → Prop where
  | start {contender : Contender} : Contender.Stage w contender contender.program
  | searching {pdu : CStr} {report : SmsStatusReport}
      (decoded : smsStatusReportDecode pdu = .ok report) :
      Contender.Stage w (.report pdu) (searchReport report)
  | reporting {pdu : CStr} {report : SmsStatusReport} {m : SmsMessage} {i : Nat}
      (decoded : smsStatusReportDecode pdu = .ok report)
      (newest : w.store.Newest report.recipient.str report.messageReference m i) :
      Contender.Stage w (.report pdu) (saveReport m i report)
  | seeking {id : UInt32} : Contender.Stage w (.retryUncertain id) (readThen id Retryable saveRetry)
  | retrying {m : SmsMessage} (held : w.Holds m) (may : Retryable m) :
      Contender.Stage w (.retryUncertain m.id) (saveRetry m)
  | looking {id : UInt32} :
      Contender.Stage w (.delete id) (readThen id Deletable fun _ => storeDelete id)
  | deleting {m : SmsMessage} (held : w.Holds m) (may : Deletable m) :
      Contender.Stage w (.delete m.id) (storeDelete m.id)

/-- An operation on one record has not read it, or has read it as it is. -/
theorem asks_readThen {id : UInt32} {may : SmsMessage → Prop} [DecidablePred may]
    {next : SmsMessage → ServiceM (Except EspErr Unit)} (numbered : w.Numbered)
    (asks : Asks ServiceCall.Acts ServiceCall.Writes w (.call .alloc fun memory =>
      if memory then readThen id may next else .done (.error .noMem)) rest)
    (open_ : ∀ value, ¬ Settles ServiceCall.Acts value rest) :
    rest = (.call .alloc fun memory =>
        if memory then readThen id may next else .done (.error .noMem)) ∨
      rest = readThen id may next ∨
      ∃ m, w.Holds m ∧ m.id = id ∧ may m ∧
        Asks ServiceCall.Acts ServiceCall.Writes w (next m) rest := by
  cases asks with
  | here => exact .inl rfl
  | @call _ _ memory _ reads answered later =>
      cases memory with
      | false =>
          simp only [Bool.false_eq_true, ↓reduceIte] at later
          cases later with
          | here => exact absurd (settles_done _) (open_ _)
      | true =>
          simp only [↓reduceIte] at later
          cases later with
          | here => exact .inr (.inl rfl)
          | @call _ _ reply _ reads answered later =>
              obtain ⟨u, answers, -⟩ := answered
              obtain ⟨-, found⟩ := StoreQuery.performs_ok numbered.sound answers
              cases reply with
              | error e =>
                  cases later with
                  | here => exact absurd (settles_done _) (open_ _)
              | ok m =>
                  obtain ⟨held, same⟩ := found m rfl
                  simp only [StoreQuery.Matches, beq_iff_eq] at same
                  dsimp only at later
                  split at later
                  · rename_i allowed
                    exact .inr (.inr ⟨m, held, same, allowed, later⟩)
                  · cases later with
                    | here => exact absurd (settles_done _) (open_ _)

theorem Contender.stage {contender : Contender} (numbered : w.Numbered)
    (asks : Asks ServiceCall.Acts ServiceCall.Writes w contender.program rest)
    (open_ : ∀ value, ¬ Settles ServiceCall.Acts value rest) : Contender.Stage w contender rest := by
  have writes (message : SmsMessage) : ServiceCall.Writes (.save message) := by
    simp [ServiceCall.Writes, ServiceCall.written]
  cases contender with
  | report pdu =>
      cases decoded : smsStatusReportDecode pdu with
      | error e =>
          have equal : processStatusReportPdu pdu = .done (.error .invalidResponse) := by
            simp only [processStatusReportPdu, decoded, pure_eq]
          rw [program, equal] at asks
          cases asks with
          | here => exact absurd (settles_done _) (open_ _)
      | ok report =>
          have equal := processStatusReportPdu_eq decoded
          rw [program, equal] at asks
          cases asks with
          | here =>
              rw [← equal]
              exact .start
          | @call _ _ memory _ reads answered later =>
              cases memory with
              | false =>
                  simp only [Bool.false_eq_true, ↓reduceIte] at later
                  cases later with
                  | here => exact absurd (settles_done _) (open_ _)
              | true =>
                  simp only [↓reduceIte] at later
                  cases later with
                  | here => exact .searching decoded
                  | @call _ _ reply _ reads answered later =>
                      cases reply with
                      | error e =>
                          cases later with
                          | here => exact absurd (settles_done _) (open_ _)
                      | ok place =>
                          obtain ⟨m, i⟩ := place
                          have newest : w.store.Newest report.recipient.str
                              report.messageReference m i := by
                            obtain ⟨u, answers, -⟩ := answered
                            exact performs_findOutbound_ok numbered.sound answers rfl
                          cases later with
                          | here => exact .reporting decoded newest
                          | call reads => exact absurd (writes _) reads
  | retryUncertain id =>
      rw [program, smsServiceRetryUncertain_eq] at asks
      rcases asks_readThen numbered asks open_ with same | same | ⟨m, held, rfl, may, later⟩
      · rw [same, ← smsServiceRetryUncertain_eq]
        exact .start
      · rw [same]
        exact .seeking
      · cases later with
        | here => exact .retrying held may
        | call reads => exact absurd (writes _) reads
  | delete id =>
      rw [program, smsServiceDelete_eq] at asks
      rcases asks_readThen numbered asks open_ with same | same | ⟨m, held, rfl, may, later⟩
      · rw [same, ← smsServiceDelete_eq]
        exact .start
      · rw [same]
        exact .looking
      · cases later with
        | here => exact .deleting held may
        | call reads => exact absurd (by simp [ServiceCall.Writes, ServiceCall.written]) reads

end

/-! Writes and what they leave standing. -/

theorem Contender.program_head {contender : Contender} {request : ServiceCall}
    {next : request.Reply → ServiceM (Except EspErr Unit)}
    (equal : Prog.call request next = contender.program) : request = .alloc := by
  cases contender with
  | report pdu =>
      rw [program] at equal
      cases decoded : smsStatusReportDecode pdu with
      | error e =>
          simp only [processStatusReportPdu, decoded, pure_eq] at equal
          cases equal
      | ok report =>
          rw [processStatusReportPdu_eq decoded] at equal
          cases equal
          rfl
  | retryUncertain id =>
      rw [program, smsServiceRetryUncertain_eq] at equal
      cases equal
      rfl
  | delete id =>
      rw [program, smsServiceDelete_eq] at equal
      cases equal
      rfl

/-- The writes of the operations: each of a record that is stored. -/
inductive Writing (w : World) : Contender → (request : ServiceCall) →
    (request.Reply → ServiceM (Except EspErr Unit)) → Prop where
  | report {pdu : CStr} {report : SmsStatusReport} {m : SmsMessage} {i : Nat}
      (newest : w.store.Newest report.recipient.str report.messageReference m i) :
      Writing w (.report pdu) (.save (applyReport m i report)) announceReport
  | retry {m : SmsMessage} (held : w.Holds m) (may : Retryable m) :
      Writing w (.retryUncertain m.id) (.save (requeuedRecord m)) fun reply => .done reply.1
  | delete {m : SmsMessage} (held : w.Holds m) (may : Deletable m) :
      Writing w (.delete m.id) (.delete m.id) .done

theorem Contender.writing {w : World} {contender : Contender} {request : ServiceCall}
    {next : request.Reply → ServiceM (Except EspErr Unit)} (numbered : w.Numbered)
    (asks : Asks ServiceCall.Acts ServiceCall.Writes w contender.program (.call request next))
    (open_ : ∀ value, ¬ Settles ServiceCall.Acts value (.call request next))
    (writes : request.Writes) : Writing w contender request next := by
  have stage := Contender.stage numbered asks open_
  generalize equal : Prog.call request next = rest at stage
  cases stage with
  | start =>
      rw [Contender.program_head equal] at writes
      exact absurd rfl writes
  | searching decoded =>
      cases equal
      exact absurd rfl writes
  | reporting decoded newest =>
      cases equal
      exact .report newest
  | seeking =>
      cases equal
      exact absurd rfl writes
  | retrying held may =>
      cases equal
      exact .retry held may
  | looking =>
      cases equal
      exact absurd rfl writes
  | deleting held may =>
      cases equal
      exact .delete held may

theorem announceReport_settles (reply : Except EspErr Unit × SmsMessage) :
    ∃ value, Settles ServiceCall.Acts value (announceReport reply) := by
  obtain ⟨result, saved⟩ := reply
  cases result with
  | error e => exact ⟨_, settles_done _⟩
  | ok _ =>
      have emits (event : SmsServiceEvent) : Settles ServiceCall.Acts (.ok ()) (do
          emitEvent event saved
          pure (.ok ()) : ServiceM (Except EspErr Unit)) := by
        refine ⟨fun w => ⟨(), w.emit event saved, rfl, rfl⟩, ?_⟩
        rintro w reply t ⟨u, rfl, rfl⟩
        exact ⟨rfl, rfl⟩
      refine ⟨.ok (), ?_⟩
      simp only [announceReport, emitReport]
      split
      · exact emits .delivered
      · split
        · exact emits .failed
        · rfl

section

variable {w t : World} {contender : Contender} {request : ServiceCall}
  {next : request.Reply → ServiceM (Except EspErr Unit)} {reply : request.Reply}

theorem Writing.settles (writing : Writing w contender request next) (numbered : w.Numbered)
    (acts : request.Acts w reply t) :
    t.Numbered ∧ ∃ value, Settles ServiceCall.Acts value (next reply) := by
  cases writing with
  | @report pdu report m i newest =>
      have same := (applyReport_keeps m i report).id
      have effect := acts_save numbered acts (same ▸ numbered.holds_named newest.held)
        (same ▸ numbered.holds_known newest.held)
      exact ⟨effect.1, announceReport_settles reply⟩
  | retry held may =>
      have named := numbered.holds_named held
      have known := numbered.holds_known held
      have effect := acts_save numbered acts named known
      exact ⟨effect.1, _, settles_done _⟩
  | delete held may => exact ⟨(acts_delete numbered acts).1, _, settles_done _⟩

/-- A retry or a delete keeps every other record, and adds no sent segment. -/
theorem Writing.api (writing : Writing w contender request next) (numbered : w.Numbered)
    (api : contender.task = .api) (acts : request.Acts w reply t) {id : UInt32}
    (written : request.written = some id) :
    (∀ m, w.Holds m → m.id ≠ id → t.Holds m) ∧
      ∀ m, t.Holds m → ∃ old, w.Holds old ∧ old.id = m.id ∧
        ∀ recipient reference j, SentUnder recipient reference m j →
          SentUnder recipient reference old j := by
  have itself (m : SmsMessage) (held : w.Holds m) : ∃ old, w.Holds old ∧ old.id = m.id ∧
      ∀ recipient reference j, SentUnder recipient reference m j →
        SentUnder recipient reference old j := ⟨m, held, rfl, fun _ _ _ sent => sent⟩
  cases writing with
  | report newest => cases api
  | @retry m held may =>
      cases written
      have named := numbered.holds_named held
      have known := numbered.holds_known held
      have effect := (acts_save numbered acts named known).2
      cases effect with
      | kept same returned =>
          exact ⟨fun m' held' _ => (same m').mpr held', fun m' held' =>
            itself m' ((same m').mp held')⟩
      | lost unnamed full prunable rest returned => exact absurd unnamed named
      | added unnamed storable prunable rest returned => exact absurd unnamed named
      | replaced _ storable rest first returned =>
          refine ⟨fun m' held' other => (rest m').mpr (.inr ⟨held', other⟩), ?_⟩
          intro m' held'
          rcases (rest m').mp held' with rfl | ⟨old, -⟩
          · refine ⟨m, held, rfl, ?_⟩
            rintro recipient reference j ⟨outbound, mine, inside, sent, under⟩
            exact ⟨outbound, mine, inside, sent, under⟩
          · exact itself m' old
  | delete held may =>
      cases written
      have effect := (acts_delete numbered acts).2
      cases effect with
      | kept same =>
          exact ⟨fun m' held' _ => (same m').mpr held', fun m' held' =>
            itself m' ((same m').mp held')⟩
      | erased rest =>
          exact ⟨fun m' held' other => (rest m').mpr ⟨held', other⟩, fun m' held' =>
            itself m' ((rest m').mp held').1⟩

/-- A report keeps every other record, and leaves its own with the masks and the
status that follow from the report. -/
theorem Writing.service (writing : Writing w contender request next) (numbered : w.Numbered)
    (service : contender.task = .service) (acts : request.Acts w reply t) {id : UInt32}
    (written : request.written = some id) {m : SmsMessage} (held : w.Holds m) :
    (m.id ≠ id → t.Holds m) ∧
      (t.Holds m ∨ ∃ i report, t.Holds (applyReport m i report)) := by
  cases writing with
  | retry held may => cases service
  | delete held may => cases service
  | @report pdu report m' i newest =>
      have same := (applyReport_keeps m' i report).id
      have named : (applyReport m' i report).id ≠ 0 := same ▸ numbered.holds_named newest.held
      have effect := (acts_save numbered acts named (same ▸ numbered.holds_known newest.held)).2
      cases written
      cases effect with
      | kept unchanged returned =>
          have still := (unchanged m).mpr held
          exact ⟨fun _ => still, .inl still⟩
      | lost unnamed full prunable rest returned => exact absurd unnamed named
      | added unnamed storable prunable rest returned => exact absurd unnamed named
      | replaced _ storable rest first returned =>
          refine ⟨fun other => (rest m).mpr (.inr ⟨held, other⟩), ?_⟩
          by_cases mine : m.id = (applyReport m' i report).id
          · have equal := numbered.id_inj held newest.held (mine.trans same)
            subst equal
            exact .inr ⟨i, report, (rest _).mpr (.inl rfl)⟩
          · exact .inl ((rest m).mpr (.inr ⟨held, mine⟩))

end

theorem applyReport_deletable {m : SmsMessage} {i : Nat} {report : SmsStatusReport}
    (may : Deletable m) : Deletable (applyReport m i report) := by
  rintro ⟨outbound, status⟩
  rw [(applyReport_keeps m i report).direction] at outbound
  refine may ⟨outbound, ?_⟩
  have decided := applyReport_status m i report
  dsimp only at decided
  split at decided
  · rw [decided] at status
    simp at status
  · split at decided
    · rw [decided] at status
      simp at status
    · rw [decided] at status
      exact status

theorem Store.Newest.stands {s t : Store} {recipient : CStr} {reference : UInt8} {m : SmsMessage}
    {i : Nat} (newest : s.Newest recipient reference m i) (held : t.Holds m)
    (back : ∀ m', t.Holds m' → ∃ old, s.Holds old ∧ old.id = m'.id ∧
      ∀ recipient reference j, SentUnder recipient reference m' j →
        SentUnder recipient reference old j) : t.Newest recipient reference m i := by
  refine ⟨held, newest.sent, ?_, newest.first⟩
  intro m' held' j sent
  obtain ⟨old, heldOld, same, under⟩ := back m' held'
  rw [← same]
  exact newest.newest old heldOld j (under recipient reference j sent)

/-- The operations take turns: each asks, then writes once, and a write that spares
the record another task is about to save leaves standing what that task read. -/
theorem contenders_turns : Turns Contender.program ServiceCall.Acts ServiceCall.Writes
    World.Numbered Contender.task Spares where
  reads := fun numbered _ reads acts => acts_reads numbered reads acts
  settles := fun numbered asks open_ writes acts =>
    (Contender.writing numbered asks open_ writes).settles numbered acts
  stands := by
    intro contender other w rest request next reply t numbered apart asks open_ asksOther openOther
      writes acts spares
    have writing := Contender.writing numbered asksOther openOther writes
    obtain ⟨id, written⟩ := Option.ne_none_iff_exists'.mp writes
    have numberedAfter := (writing.settles numbered acts).1
    have plain (request : ServiceCall) (silent : request.written = none) : ¬ request.Writes :=
      fun write => write silent
    -- The task has read its record, if it has, as it still is.
    cases Contender.stage numbered asks open_ with
    | start => exact .here
    | searching decoded =>
        rw [Contender.program, processStatusReportPdu_eq decoded]
        exact .call (plain _ rfl) (acts_alloc true) .here
    | @reporting pdu report m i decoded newest =>
        have api : other.task = .api := by
          cases other with
          | report pdu => exact absurd rfl apart
          | retryUncertain id => rfl
          | delete id => rfl
        obtain ⟨keeps, back⟩ := writing.api numbered api acts written
        have differs : m.id ≠ id := by
          intro same
          refine spares id written ?_
          simp only [saveReport, aboutToSave, (applyReport_keeps m i report).id, same]
        have newestAfter := newest.stands (keeps m newest.held differs) back
        rw [Contender.program, processStatusReportPdu_eq decoded]
        exact .call (plain _ rfl) (acts_alloc true)
          (.call (plain _ rfl) (acts_find numberedAfter newestAfter) .here)
    | seeking =>
        rw [Contender.program, smsServiceRetryUncertain_eq]
        exact .call (plain _ rfl) (acts_alloc true) .here
    | @retrying m held may =>
        have service : other.task = .service := by
          cases other with
          | report pdu => rfl
          | retryUncertain id => exact absurd rfl apart
          | delete id => exact absurd rfl apart
        have differs : m.id ≠ id := by
          intro same
          refine spares id written ?_
          simp only [saveRetry, aboutToSave, requeuedRecord, same]
        have heldAfter := (writing.service numbered service acts written held).1 differs
        rw [Contender.program, smsServiceRetryUncertain_eq]
        refine .call (plain _ rfl) (acts_alloc true)
          (.call (plain _ rfl) (acts_get numberedAfter heldAfter) ?_)
        dsimp only
        rw [if_pos may]
        exact .here
    | looking =>
        rw [Contender.program, smsServiceDelete_eq]
        exact .call (plain _ rfl) (acts_alloc true) .here
    | @deleting m held may =>
        have service : other.task = .service := by
          cases other with
          | report pdu => rfl
          | retryUncertain id => exact absurd rfl apart
          | delete id => exact absurd rfl apart
        rw [Contender.program, smsServiceDelete_eq]
        refine .call (plain _ rfl) (acts_alloc true) ?_
        rcases (writing.service numbered service acts written held).2 with still | ⟨i, report, new⟩
        · refine .call (plain _ rfl) (acts_get numberedAfter still) ?_
          dsimp only
          rw [if_pos may]
          exact .here
        · have read := acts_get numberedAfter new
          rw [(applyReport_keeps m i report).id] at read
          refine .call (plain _ rfl) read ?_
          dsimp only
          rw [if_pos (applyReport_deletable may)]
          exact .here

/-! What the operations leave, one after another. -/

section

variable {w t : World} {trace : List (Entry World ServiceCall ServiceCall.Reply)}
  {value : Except EspErr Unit}

/-- An operation on one record changes nothing and fails, or goes on with the record
it read. -/
theorem runs_readThen {id : UInt32} {may : SmsMessage → Prop} [DecidablePred may]
    {next : SmsMessage → ServiceM (Except EspErr Unit)} (numbered : w.Numbered)
    (runs : Runs ServiceCall.Acts (.call .alloc fun memory =>
      if memory then readThen id may next else .done (.error .noMem)) w trace value t) :
    (t = w ∧ value ≠ .ok ()) ∨
      ∃ m later, w.Holds m ∧ m.id = id ∧ may m ∧
        Runs ServiceCall.Acts (next m) w later value t := by
  cases runs with
  | @call _ _ memory _ u _ later _ answered rest =>
      obtain rfl := acts_reads numbered (fun writes => writes rfl) answered
      cases memory with
      | false =>
          cases rest with
          | done => exact .inl ⟨rfl, by simp⟩
      | true =>
          cases rest with
          | @call _ _ reply _ u _ later _ answered rest =>
              obtain rfl := acts_reads numbered (fun writes => writes rfl) answered
              obtain ⟨v, answers, -⟩ := answered
              obtain ⟨-, found⟩ := StoreQuery.performs_ok numbered.sound answers
              cases reply with
              | error e =>
                  cases rest with
                  | done => exact .inl ⟨rfl, by simp⟩
              | ok m =>
                  obtain ⟨held, same⟩ := found m rfl
                  simp only [StoreQuery.Matches, beq_iff_eq] at same
                  dsimp only at rest
                  split at rest
                  · rename_i allowed
                    exact .inr ⟨m, _, held, same, allowed, rest⟩
                  · cases rest with
                    | done => exact .inl ⟨rfl, by simp⟩

/-- What one operation makes of a record. -/
inductive Revises (m : SmsMessage) : SmsMessage → Prop where
  | same : Revises m m
  | reported {i : Nat} {report : SmsStatusReport} : Revises m (applyReport m i report)
  | requeued : Revises m (requeuedRecord m)

theorem Store.SaveEffect.revises {s u : Store} {m new : SmsMessage}
    {reply : Except EspErr Unit × SmsMessage} (effect : Store.SaveEffect s u new reply)
    (held : s.Holds m) (revised : Revises m new) (named : new.id ≠ 0) {r : SmsMessage}
    (after : u.Holds r) : ∃ old, s.Holds old ∧ Revises old r := by
  cases effect with
  | kept same returned => exact ⟨r, (same r).mp after, .same⟩
  | lost unnamed full prunable rest returned => exact absurd unnamed named
  | added unnamed storable prunable rest returned => exact absurd unnamed named
  | replaced _ storable rest first returned =>
      rcases (rest r).mp after with rfl | ⟨old, -⟩
      · exact ⟨m, held, revised⟩
      · exact ⟨r, old, .same⟩

theorem runs_report {pdu : CStr} (numbered : w.Numbered)
    (runs : Runs ServiceCall.Acts (processStatusReportPdu pdu) w trace value t) :
    t.Numbered ∧ ∀ r, t.Holds r → ∃ old, w.Holds old ∧ Revises old r := by
  have unchanged : t = w → t.Numbered ∧ ∀ r, t.Holds r → ∃ old, w.Holds old ∧ Revises old r := by
    rintro rfl
    exact ⟨numbered, fun r held => ⟨r, held, .same⟩⟩
  cases decoded : smsStatusReportDecode pdu with
  | error e =>
      simp only [processStatusReportPdu, decoded, pure_eq] at runs
      cases runs with
      | done => exact unchanged rfl
  | ok report =>
      rw [processStatusReportPdu_eq decoded] at runs
      cases runs with
      | @call _ _ memory _ u _ _ _ answered rest =>
          obtain rfl := acts_reads numbered (fun writes => writes rfl) answered
          cases memory with
          | false =>
              cases rest with
              | done => exact unchanged rfl
          | true =>
              cases rest with
              | @call _ _ reply _ v _ _ _ answered rest =>
                  obtain rfl := acts_reads numbered (fun writes => writes rfl) answered
                  obtain ⟨x, answers, -⟩ := answered
                  cases reply with
                  | error e =>
                      cases rest with
                      | done => exact unchanged rfl
                  | ok place =>
                      obtain ⟨m, i⟩ := place
                      have newest := performs_findOutbound_ok numbered.sound answers rfl
                      cases rest with
                      | @call _ _ reply _ after _ _ _ saved rest =>
                          have same := (applyReport_keeps m i report).id
                          have named : (applyReport m i report).id ≠ 0 :=
                            same ▸ numbered.holds_named newest.held
                          obtain ⟨numberedAfter, effect⟩ := acts_save numbered saved named
                            (same ▸ numbered.holds_known newest.held)
                          obtain ⟨_, settles⟩ := announceReport_settles reply
                          obtain ⟨rfl, -⟩ := settles.runs_eq rest
                          exact ⟨numberedAfter, fun r held =>
                            effect.revises newest.held .reported named held⟩

theorem runs_retry {id : UInt32} (numbered : w.Numbered)
    (runs : Runs ServiceCall.Acts (smsServiceRetryUncertain id) w trace value t) :
    t.Numbered ∧ (∀ r, t.Holds r → ∃ old, w.Holds old ∧ Revises old r) ∧
      (value = .ok () → ∀ r, t.Holds r → r.id = id → r.status = .queued) := by
  rw [smsServiceRetryUncertain_eq] at runs
  rcases runs_readThen numbered runs with ⟨rfl, failed⟩ | ⟨m, _, held, rfl, may, rest⟩
  · exact ⟨numbered, fun r held => ⟨r, held, .same⟩, fun done => absurd done failed⟩
  · cases rest with
    | @call _ _ reply _ after _ _ _ saved rest =>
        have named := numbered.holds_named held
        have known := numbered.holds_known held
        obtain ⟨numberedAfter, effect⟩ := acts_save numbered saved named known
        cases rest with
        | done =>
            refine ⟨numberedAfter, fun r after => effect.revises held .requeued named after, ?_⟩
            intro done r after same
            cases effect with
            | kept unchanged returned => cases done
            | lost unnamed full prunable rest returned => exact absurd unnamed named
            | added unnamed storable prunable rest returned => exact absurd unnamed named
            | replaced _ storable rest first returned =>
                rcases (rest r).mp after with rfl | ⟨-, other⟩
                · rfl
                · exact absurd same other

theorem runs_delete {id : UInt32} (numbered : w.Numbered)
    (runs : Runs ServiceCall.Acts (smsServiceDelete id) w trace value t) :
    t.Numbered ∧ (∀ r, t.Holds r → ∃ old, w.Holds old ∧ Revises old r) ∧
      (value = .ok () → ∀ r, t.Holds r → r.id ≠ id) := by
  rw [smsServiceDelete_eq] at runs
  rcases runs_readThen numbered runs with ⟨rfl, failed⟩ | ⟨m, _, held, rfl, may, rest⟩
  · exact ⟨numbered, fun r held => ⟨r, held, .same⟩, fun done => absurd done failed⟩
  · cases rest with
    | @call _ _ reply _ after _ _ _ deleted rest =>
        obtain ⟨numberedAfter, effect⟩ := acts_delete numbered deleted
        cases rest with
        | done =>
            refine ⟨numberedAfter, fun r after => ⟨r, effect.source after, .same⟩, ?_⟩
            rintro rfl r after
            cases effect with
            | erased rest => exact ((rest r).mp after).2

theorem Contender.runs_revise {contender : Contender} (numbered : w.Numbered)
    (runs : Runs ServiceCall.Acts contender.program w trace value t) :
    t.Numbered ∧ ∀ r, t.Holds r → ∃ old, w.Holds old ∧ Revises old r := by
  cases contender with
  | report pdu => exact runs_report numbered runs
  | retryUncertain id =>
      obtain ⟨after, revises, -⟩ := runs_retry numbered runs
      exact ⟨after, revises⟩
  | delete id =>
      obtain ⟨after, revises, -⟩ := runs_delete numbered runs
      exact ⟨after, revises⟩

end

/-- What the operation that returned keeps out of the store from then on. -/
def Contender.Bars : Contender × Except EspErr Unit → SmsMessage → Prop
  | (.delete id, .ok ()), r => r.id = id
  | (.retryUncertain id, .ok ()), r => r.id = id ∧ r.status = .uncertain
  | _, _ => False

theorem Revises.bars {old r : SmsMessage} (revises : Revises old r)
    {done : Contender × Except EspErr Unit} (barred : Contender.Bars done r) :
    Contender.Bars done old := by
  obtain ⟨contender, value⟩ := done
  cases contender with
  | report pdu => exact barred.elim
  | retryUncertain id =>
      cases value with
      | error e => exact barred.elim
      | ok _ =>
          obtain ⟨same, uncertain⟩ := barred
          cases revises with
          | same => exact ⟨same, uncertain⟩
          | requeued => cases uncertain
          | @reported i report =>
              refine ⟨(applyReport_keeps old i report).id.symm.trans same, ?_⟩
              rw [applyReport_status] at uncertain
              dsimp only at uncertain
              split at uncertain
              · cases uncertain
              · split at uncertain
                · cases uncertain
                · exact uncertain
  | delete id =>
      cases value with
      | error e => exact barred.elim
      | ok _ =>
          cases revises with
          | same => exact barred
          | requeued => exact barred
          | @reported i report => exact (applyReport_keeps old i report).id.symm.trans barred

/-- One after another, no operation undoes what an earlier one returned `ESP_OK`
for. -/
theorem serially_bars {w t : World} {order : List (Task × Contender × Except EspErr Unit)}
    (numbered : w.Numbered) (serially : Serially Contender.program ServiceCall.Acts w order t) :
    t.Numbered ∧ ∀ entry ∈ order, ∀ r, t.Holds r → ¬ Contender.Bars entry.2 r := by
  induction serially with
  | nil => exact ⟨numbered, nofun⟩
  | @snoc order u t contender value trace before task runs ih =>
      obtain ⟨between, barred⟩ := ih
      obtain ⟨after, revises⟩ := Contender.runs_revise between runs
      refine ⟨after, ?_⟩
      intro entry member r held bars
      rcases List.mem_append.mp member with earlier | last
      · obtain ⟨old, heldOld, revised⟩ := revises r held
        exact barred entry earlier old heldOld (revised.bars bars)
      · obtain rfl := List.mem_singleton.mp last
        cases contender with
        | report pdu => exact bars
        | retryUncertain id =>
            cases value with
            | error e => exact bars
            | ok _ =>
                obtain ⟨-, -, queued⟩ := runs_retry between runs
                cases bars.2.symm.trans (queued rfl r held bars.1)
        | delete id =>
            cases value with
            | error e => exact bars
            | ok _ =>
                obtain ⟨-, -, gone⟩ := runs_delete between runs
                exact gone rfl r held bars

/-- When no task writes a record that another has read and is about to save, the
store ends as if the operations had run one after another: a deleted record stays
deleted, and a retry stays. -/
theorem contenders_serializable {w : World} {ops : Task → List Contender}
    {g : Pool ServiceCall ServiceCall.Reply (Except EspErr Unit) World Contender Task}
    (reached : w.store.Reached w.issued) (few : w.issued < idLimit)
    (own : ∀ task, ∀ contender ∈ ops task, contender.task = task)
    (steps : Relation.ReflTransGen (Pool.Step Contender.program ServiceCall.Acts
      (Pool.Calm Spares)) (Pool.begin w ops) g) (finished : g.Finished) :
    (∃ order, Serially Contender.program ServiceCall.Acts w order g.state ∧
      ∀ task, ofTask task order = (g.lanes task).returned ∧
        (g.lanes task).returned.map Prod.fst = ops task) ∧
    (∀ id, (.delete id, .ok ()) ∈ (g.lanes .api).returned →
      ∀ r, g.state.Holds r → r.id ≠ id) ∧
    ∀ id, (.retryUncertain id, .ok ()) ∈ (g.lanes .api).returned →
      ∀ r, g.state.Holds r → r.id = id → r.status ≠ .uncertain := by
  have numbered : w.Numbered := reached.numbered few
  obtain ⟨order, serially, parts⟩ := Pool.serializable contenders_turns numbered own steps finished
  obtain ⟨-, barred⟩ := serially_bars numbered serially
  have returned (entry : Contender × Except EspErr Unit)
      (member : entry ∈ (g.lanes .api).returned) (r : SmsMessage) (held : g.state.Holds r) :
      ¬ Contender.Bars entry r := by
    rw [← (parts .api).1] at member
    obtain ⟨placed, inOrder, rfl⟩ := List.mem_map.mp member
    exact barred placed (List.mem_filter.mp inOrder).1 r held
  refine ⟨⟨order, serially, parts⟩, ?_, ?_⟩
  · intro id member r held same
    exact returned _ member r held same
  · intro id member r held same uncertain
    exact returned _ member r held ⟨same, uncertain⟩

/-! A report that meets a delete. -/

/-- Surroundings that refuse nothing, events left out. -/
def ServiceCall.quietly (request : ServiceCall) (w : World) : request.Reply × World :=
  ((request.confirm w).1, { (request.confirm w).2 with events := w.events })

theorem ServiceCall.quietly_acts (request : ServiceCall) (w : World) :
    request.Acts w (request.quietly w).1 (request.quietly w).2 :=
  ⟨_, request.confirm_answers w, rfl⟩

def meeting : Task → List Contender
  | .service => [.report reportPdu]
  | .api => [.delete 1]

def met (schedule : List Task) :
    Pool ServiceCall ServiceCall.Reply (Except EspErr Unit) World Contender Task :=
  Pool.play Contender.program ServiceCall.quietly schedule (Pool.begin sentWorld meeting)

/-- The delete has read the record when the report arrives, and waits for it. -/
def waited : List Task :=
  [.api, .api, .api, .service, .service, .service, .service, .service, .service, .api, .api]

def Task.other : Task → Task
  | .service => .api
  | .api => .service

/-- A test of the condition of `contenders_serializable`. -/
def sparing (g : Pool ServiceCall ServiceCall.Reply (Except EspErr Unit) World Contender Task)
    (task : Task) : Bool :=
  match (g.lanes task).current, (g.lanes task.other).current with
  | some (_, .call request _), some (_, rest) =>
      request.written.isNone || aboutToSave rest != request.written
  | _, _ => true

theorem sparing_calm
    (g : Pool ServiceCall ServiceCall.Reply (Except EspErr Unit) World Contender Task)
    (task : Task) (op : Contender) (request : ServiceCall)
    (next : request.Reply → ServiceM (Except EspErr Unit)) (tested : sparing g task = true)
    (running : (g.lanes task).current = some (op, .call request next)) :
    Pool.Calm Spares g task request := by
  intro other different op' rest here id written about
  have opposite : other = task.other := by
    cases task <;> cases other <;> first | rfl | exact absurd rfl different
  subst opposite
  simp [sparing, running, here, written, about] at tested

theorem meeting_own (task : Task) (contender : Contender) (member : contender ∈ meeting task) :
    contender.task = task := by
  cases task with
  | service =>
      obtain rfl := List.mem_singleton.mp member
      rfl
  | api =>
      obtain rfl := List.mem_singleton.mp member
      rfl

/-- Both operations have returned `ESP_OK`. -/
def Settled (g : Pool ServiceCall ServiceCall.Reply (Except EspErr Unit) World Contender Task) :
    Prop :=
  g.Finished ∧ (Contender.report reportPdu, .ok ()) ∈ (g.lanes .service).returned ∧
    (Contender.delete 1, .ok ()) ∈ (g.lanes .api).returned

/-- A test of this. -/
def settled (g : Pool ServiceCall ServiceCall.Reply (Except EspErr Unit) World Contender Task) :
    Bool :=
  let idle (task : Task) := (g.lanes task).waiting.isEmpty && (g.lanes task).current.isNone
  let succeeds (task : Task) (contender : Contender) :=
    (g.lanes task).returned.any fun entry => entry.1 == contender && entry.2.isOk
  idle .service && idle .api && succeeds .service (.report reportPdu) && succeeds .api (.delete 1)

theorem settled_settled
    {g : Pool ServiceCall ServiceCall.Reply (Except EspErr Unit) World Contender Task}
    (tested : settled g = true) : Settled g := by
  simp only [settled, Bool.and_eq_true, List.isEmpty_iff, Option.isNone_iff_eq_none,
    List.any_eq_true, beq_iff_eq] at tested
  obtain ⟨⟨⟨service, api⟩, ⟨⟨report, value⟩, inService, same, succeeds⟩⟩,
    ⟨⟨delete, result⟩, inApi, equal, deletes⟩⟩ := tested
  have unit {value : Except EspErr Unit} (ok : value.isOk = true) : value = .ok () := by
    cases value with
    | error e => cases ok
    | ok _ => rfl
  dsimp only at same succeeds equal deletes
  rw [same, unit succeeds] at inService
  rw [equal, unit deletes] at inApi
  refine ⟨?_, inService, inApi⟩
  intro task
  cases task with
  | service => exact service
  | api => exact api

theorem contenders_serializable_waited :
    Settled (met waited) ∧ ∀ r, (met waited).state.Holds r → r.id ≠ 1 := by
  have both : Settled (met waited) := settled_settled (by decide +kernel)
  have calm : Pool.holdsThroughout Contender.program ServiceCall.quietly sparing waited
      (Pool.begin sentWorld meeting) = true := by
    decide +kernel
  have steps : Relation.ReflTransGen (Pool.Step Contender.program ServiceCall.Acts
      (Pool.Calm Spares)) (Pool.begin sentWorld meeting) (met waited) :=
    Pool.play_steps ServiceCall.quietly_acts sparing_calm waited _ calm
  have deleted := both.2.2
  obtain ⟨-, gone, -⟩ := contenders_serializable reached_sentWorld (by decide +kernel) meeting_own
    steps both.1
  exact ⟨both, gone 1 deleted⟩

/-- The report has read the record when the delete removes it, and saves it again. -/
def overtaken : List Task :=
  [.service, .service, .service, .api, .api, .api, .api, .api, .service, .service, .service]

theorem deleted_record_resurrected :
    ∃ (w : World) (ops : Task → List Contender)
      (g : Pool ServiceCall ServiceCall.Reply (Except EspErr Unit) World Contender Task),
      w.store.Reached w.issued ∧ w.issued < idLimit ∧
      (∀ task, ∀ contender ∈ ops task, contender.task = task) ∧
      Relation.ReflTransGen (Pool.Step Contender.program ServiceCall.Acts fun _ _ _ => True)
        (Pool.begin w ops) g ∧ g.Finished ∧
      (Contender.delete 1, .ok ()) ∈ (g.lanes .api).returned ∧
      (∃ r, g.state.Holds r ∧ r.id = 1) ∧
      ¬ ∃ order, Serially Contender.program ServiceCall.Acts w order g.state ∧
        ∀ task, ofTask task order = (g.lanes task).returned := by
  have both : Settled (met overtaken) := settled_settled (by decide +kernel)
  have any : Pool.holdsThroughout Contender.program ServiceCall.quietly (fun _ _ => true) overtaken
      (Pool.begin sentWorld meeting) = true := by
    decide +kernel
  have steps : Relation.ReflTransGen (Pool.Step Contender.program ServiceCall.Acts
      fun _ _ _ => True) (Pool.begin sentWorld meeting) (met overtaken) :=
    Pool.play_steps ServiceCall.quietly_acts (fun _ _ _ _ _ _ _ => trivial) overtaken _ any
  have back : ((met overtaken).state.store.view firstSlot).any (fun r => r.id == 1) = true := by
    decide +kernel
  have few : sentWorld.issued < idLimit := by decide +kernel
  generalize met overtaken = g at both steps back
  rw [Option.any_eq_true] at back
  obtain ⟨r, stored, one⟩ := back
  have held : g.state.Holds r := ⟨firstSlot, stored⟩
  rw [beq_iff_eq] at one
  obtain ⟨finished, -, deleted⟩ := both
  refine ⟨sentWorld, meeting, g, reached_sentWorld, few, meeting_own, steps, finished, deleted,
    ⟨r, held, one⟩, ?_⟩
  rintro ⟨order, serially, parts⟩
  obtain ⟨-, barred⟩ := serially_bars (reached_sentWorld.numbered few) serially
  rw [← parts .api] at deleted
  obtain ⟨entry, member, same⟩ := List.mem_map.mp deleted
  refine barred entry (List.mem_filter.mp member).1 r held ?_
  rw [same]
  exact one

end SmsGateway
