import SmsGateway.Service.Assembly
import SmsGateway.Service.Correlation
import SmsGateway.Service.Drain
import SmsGateway.Service.Replay

/-! Which PDUs the journal takes: that depends on the PDU and, for a delivery report, on
the outbound records, and stays as it is while the inbox is scanned. -/

namespace SmsGateway

open Lib Prog

/-- A PDU that finds everything it needs but room: an unsupported message that is
quarantined, a message, a part of at most 16, or a report about a stored segment. -/
def World.admits (w : World) (pdu : CStr) : Bool :=
  match smsPduTypeDetect pdu with
  | .deliver =>
      (smsDeliverDecode pdu).1 == .unsupported && (smsDeliverDecode pdu).2.encoding == .eightBit ||
        (smsDeliverDecode pdu).1 == .ok && (!(smsDeliverDecode pdu).2.concat.present ||
          decide ((smsDeliverDecode pdu).2.concat.totalParts.toNat ≤ smsMaxSegments))
  | .statusReport =>
      match smsStatusReportDecode pdu with
      | .error _ => false
      | .ok report => (smsStoreFindOutboundReference report.recipient.str report.messageReference
          (Plan.faultless, w.store)).1.isOk
  | .unknown => false

/-- The stored records, and those that the listed PDUs would be stored as. -/
def World.candidates (w : World) (pdus : List CStr) : List SmsMessage :=
  allSlots.filterMap w.store.view ++
    (pdus.filter fun pdu => (smsDeliverDecode pdu).1 == .ok).map fun pdu =>
      deliverRecord (smsDeliverDecode pdu).2

/-- The length of the longest text among them for this part of the message. -/
def World.longestPart (w : World) (pdus : List CStr) (deliver : SmsDeliver) (part : UInt8) : Nat :=
  (((w.candidates pdus).filter (isPartialOf deliver.sender.str deliver.concat.reference
    deliver.concat.totalParts part)).map fun m => m.text.str.length).foldr max 0

/-- No message with a part among the PDUs has parts whose texts make 4096 bytes. -/
def World.Light (w : World) (pdus : List CStr) : Prop :=
  ∀ pdu ∈ pdus, (smsDeliverDecode pdu).1 = .ok → (smsDeliverDecode pdu).2.concat.present = true →
    ((partNumbers (smsDeliverDecode pdu).2.concat.totalParts).map
      (w.longestPart pdus (smsDeliverDecode pdu).2)).sum < 4096

instance (w : World) (pdus : List CStr) : Decidable (w.Light pdus) :=
  inferInstanceAs (Decidable (∀ pdu ∈ pdus, _ → _ → _))

/-- The texts of the parts that are stored keep within these lengths. -/
def World.Bounded (w : World) (deliver : SmsDeliver) (longest : UInt8 → Nat) : Prop :=
  ∀ part m, w.Holds m → IsPartOf deliver part m → m.text.str.length ≤ longest part

/-- Every stored part was stored at the start or is listed. -/
def World.Sourced (start : World) (pdus : List CStr) (w : World) : Prop :=
  ∀ deliver part m, w.Holds m → IsPartOf deliver part m → ∃ origin ∈ start.candidates pdus,
    IsPartOf deliver part origin ∧ origin.text.str = m.text.str

/-- What a scan of these PDUs leaves as it was at the start. -/
structure World.Follows (start : World) (pdus : List CStr) (w : World) : Prop where
  numbered : w.Numbered
  counted : w.records ⊆ Assembly.countedRecords
  sourced : start.Sourced pdus w
  matched : ∀ recipient reference, (∃ m i, w.Holds m ∧ SentUnder recipient reference m i) ↔
    ∃ m i, start.Holds m ∧ SentUnder recipient reference m i

theorem le_foldr_max {values : List Nat} {value : Nat} (member : value ∈ values) :
    value ≤ values.foldr max 0 := by
  induction values with
  | nil => cases member
  | cons first rest ih =>
      rcases List.mem_cons.mp member with rfl | later
      · exact Nat.le_max_left _ _
      · exact Nat.le_trans (ih later) (Nat.le_max_right _ _)

section

variable {start w t : World} {pdus : List CStr} {pdu : CStr}

theorem candidates_listed (listed : pdu ∈ pdus) (fine : (smsDeliverDecode pdu).1 = .ok) :
    deliverRecord (smsDeliverDecode pdu).2 ∈ w.candidates pdus := by
  refine List.mem_append_right _ (List.mem_map.mpr ⟨pdu, List.mem_filter.mpr ⟨listed, ?_⟩, rfl⟩)
  exact beq_iff_eq.mpr fine

theorem longestPart_le {deliver : SmsDeliver} {part : UInt8} {origin : SmsMessage}
    (candidate : origin ∈ w.candidates pdus) (isPart : IsPartOf deliver part origin) :
    origin.text.str.length ≤ w.longestPart pdus deliver part :=
  le_foldr_max (List.mem_map.mpr ⟨origin, List.mem_filter.mpr ⟨candidate, isPart⟩, rfl⟩)

theorem World.Sourced.bounded (sourced : start.Sourced pdus w) (deliver : SmsDeliver) :
    w.Bounded deliver (start.longestPart pdus deliver) := by
  intro part m held isPart
  obtain ⟨origin, candidate, same, text⟩ := sourced deliver part m held isPart
  rw [← text]
  exact longestPart_le candidate same

/-- A part is found wherever the PDU that brought it would be. -/
theorem OwnPart.source {deliver other : SmsDeliver} {part : UInt8} {m : SmsMessage}
    (multipart : deliver.concat.present = true) (own : OwnPart deliver m)
    (isPart : IsPartOf other part m) : IsPartOf other part (deliverRecord deliver) := by
  have sender := (deliverRecord_strings deliver).1
  have mine := (isPartOf_iff _ _ _).mp own.part
  have status : (deliverRecord deliver).status = .partialRecord := by
    simp [deliverRecord, multipart]
  rw [isPartOf_iff, own.concat] at isPart
  obtain ⟨-, -, present, reference, total, number, same⟩ := isPart
  rw [isPartOf_iff]
  exact ⟨rfl, status, present, reference, total, number,
    sender.trans (mine.2.2.2.2.2.2.symm.trans same)⟩

/-- One more listed part keeps every part accounted for. -/
theorem World.Sourced.extend (sourced : start.Sourced pdus w) (listed : pdu ∈ pdus)
    (fine : (smsDeliverDecode pdu).1 = .ok)
    (source : ∀ m, t.Holds m → m.status = .partialRecord → w.Holds m ∨
      (smsDeliverDecode pdu).2.concat.present = true ∧ OwnPart (smsDeliverDecode pdu).2 m) :
    start.Sourced pdus t := by
  intro deliver part m held isPart
  rcases source m held isPart.status with before | ⟨multipart, own⟩
  · exact sourced deliver part m before isPart
  · exact ⟨_, candidates_listed listed fine, own.source multipart isPart,
      (deliverRecord_strings _).2.2.trans own.text.symm⟩

end

/-! Calls that nothing refuses. -/

section

variable {w t : World} {α : Type}

theorem run_allocate (f : Bool → ServiceM α) :
    Prog.run ServiceCall.handle (allocate >>= f) w = Prog.run ServiceCall.handle (f true) w := rfl

theorem hasRoom_allocate (f : Bool → ServiceM α) :
    hasRoom (allocate >>= f) w = hasRoom (f true) w := rfl

theorem handle_query {wanted : StoreQuery} {value : Except EspErr SmsMessage}
    (reads : Reads wanted.run w.store value) :
    ServiceCall.handle (.query wanted) w = (value, w) := by
  simp only [ServiceCall.handle, reads.faultless, World.withStore_self]

/-- A search by content, and what follows when it found a record or none. -/
theorem succeeds_find {wanted : StoreQuery}
    {f : Except EspErr SmsMessage → ServiceM (Except EspErr α)}
    (reads : Reads wanted.run w.store
      (Store.orError .notFound (w.store.recordWhere wanted.Matches)))
    (room : hasRoom (storeFind wanted >>= f) w = true)
    (found : ∀ m, w.store.recordWhere wanted.Matches = some m → hasRoom (f (.ok m)) w = true →
      (Prog.run ServiceCall.handle (f (.ok m)) w).1.isOk = true)
    (absent : hasRoom (f (.error .notFound)) w = true →
      (Prog.run ServiceCall.handle (f (.error .notFound)) w).1.isOk = true) :
    (Prog.run ServiceCall.handle (storeFind wanted >>= f) w).1.isOk = true := by
  have later := (hasRoom_bind.mp room).2
  rw [run_bind]
  simp only [storeFind, run_send, handle_query reads] at later ⊢
  cases search : w.store.recordWhere wanted.Matches with
  | none =>
      rw [search] at later
      exact absent later
  | some m =>
      rw [search] at later
      exact found m search later

/-- A new record that finds a free slot is saved. -/
theorem run_storeSave_new (sound : w.store.Sound) {message : SmsMessage}
    (storable : message.storable = true) (unnamed : message.id = 0)
    (room : hasRoom (storeSave message) w = true) :
    (Prog.run ServiceCall.handle (storeSave message) w).1 =
      (.ok (), message.withId w.store.freshId) := by
  obtain ⟨slot, free⟩ : ∃ slot, w.store.freeSlot = some slot := by
    simpa [hasRoom, storeSave, Prog.send, trace, unnamed, Option.isSome_iff_exists] using room
  simp [storeSave, Prog.send, Prog.run, ServiceCall.handle, smsStoreSave, storable, unnamed,
    saveNew_faultless sound, free]

theorem run_saveRecord_new (sound : w.store.Sound) {message : SmsMessage}
    (storable : message.storable = true) (unnamed : message.id = 0)
    (room : hasRoom (saveRecord message) w = true) :
    (Prog.run ServiceCall.handle (saveRecord message) w).1 =
      .ok (message.withId w.store.freshId) := by
  have saved := run_storeSave_new sound storable unnamed (hasRoom_bind.mp room).1
  rw [saveRecord, run_bind, saved]
  rfl

theorem run_saveRecord_existing (numbered : w.Numbered) {message old : SmsMessage}
    (storable : message.storable = true) (held : w.Holds old) (same : message.id = old.id) :
    (Prog.run ServiceCall.handle (saveRecord message) w).1 = .ok message := by
  have named : message.id ≠ 0 := by
    rw [same]
    exact numbered.holds_named held
  obtain ⟨slot, stored⟩ := held
  have found : w.store.slotOf message.id = some slot := by
    rw [same]
    exact Store.Numbered.slotOf_eq numbered stored
  simp [saveRecord, storeSave, Prog.send, Prog.run, ServiceCall.handle, smsStoreSave, storable,
    named, saveExisting_faultless numbered.sound, found]

/-- A record with too many segments is refused. -/
theorem run_saveRecord_refused {message : SmsMessage} (refused : message.storable = false) :
    Prog.run ServiceCall.handle (saveRecord message) w = (.error .invalidArg, w) := by
  simp [saveRecord, storeSave, Prog.send, Prog.run, ServiceCall.handle, smsStoreSave, refused,
    pure_apply, World.withStore_self]

theorem holds_storable {m : SmsMessage} (held : w.Holds m) : m.storable = true := by
  obtain ⟨slot, stored⟩ := held
  simp only [Store.view] at stored
  split at stored
  · cases stored
  · split at stored
    · simp only [recordDecode] at stored
      split at stored
      · cases stored
      · rename_i fits
        simp only [not_or, Nat.not_lt, not_not] at fits
        cases stored
        simp [SmsMessage.storable, fits]
    · cases stored

end

/-! Records that a save does not refuse. -/

theorem strncpy_terminated {capacity : Nat} (positive : 0 < capacity) (source : CStr) :
    (CharArray.strncpy source : CharArray capacity).terminated = true := by
  simp only [CharArray.terminated, CharArray.strncpy, CStr.length, CStr.truncate, List.length_take,
    decide_eq_true_eq]
  omega

theorem deliverRecord_storable {deliver : SmsDeliver}
    (few : deliver.concat.present = true → deliver.concat.totalParts.toNat ≤ smsMaxSegments) :
    (deliverRecord deliver).storable = true := by
  have count : (deliverRecord deliver).segmentCount.toNat ≤ smsMaxSegments := by
    simp only [deliverRecord]
    split
    · rename_i multipart
      exact few multipart
    · decide
  simp only [SmsMessage.storable, decide_eq_true count, Bool.and_true]
  simp only [deliverRecord, strncpy_terminated, Nat.zero_lt_succ, Bool.true_and]
  rfl

theorem unsupportedRecord_storable (pdu : CStr) (deliver : SmsDeliver) :
    (unsupportedRecord pdu deliver).storable = true := by
  simp only [SmsMessage.storable, unsupportedRecord, strncpy_terminated, Nat.zero_lt_succ,
    Bool.and_true]
  rfl

theorem overwritePart_storable {m : SmsMessage} (storable : m.storable = true)
    (deliver : SmsDeliver) : (overwritePart m deliver).storable = true := by
  simp only [SmsMessage.storable, overwritePart, Bool.and_eq_true] at storable ⊢
  simp only [strncpy_terminated, Nat.zero_lt_succ]
  exact ⟨⟨⟨⟨⟨trivial, storable.1.1.1.1.2⟩, storable.1.1.1.2⟩, trivial⟩, storable.1.2⟩, storable.2⟩

theorem appendPart_storable {a : SmsMessage} (storable : a.storable = true) (part : UInt8)
    (stored : SmsMessage) : (appendPart a part stored).storable = true := by
  simp only [SmsMessage.storable, Bool.and_eq_true] at storable ⊢
  obtain ⟨⟨⟨⟨⟨-, sender⟩, recipient⟩, timestamp⟩, raw⟩, count⟩ := storable
  simp only [appendPart]
  split
  · simp only [strncpy_terminated, Nat.zero_lt_succ]
    exact ⟨⟨⟨⟨⟨trivial, sender⟩, recipient⟩, trivial⟩, raw⟩, count⟩
  · simp only [strncpy_terminated, Nat.zero_lt_succ]
    exact ⟨⟨⟨⟨⟨trivial, sender⟩, recipient⟩, timestamp⟩, raw⟩, count⟩

theorem assembledStart_storable {deliver : SmsDeliver}
    (few : deliver.concat.totalParts.toNat ≤ smsMaxSegments) :
    (assembledStart deliver).storable = true := by
  have count : (assembledStart deliver).segmentCount.toNat ≤ smsMaxSegments := few
  simp only [SmsMessage.storable, decide_eq_true count, Bool.and_true]
  simp only [assembledStart, strncpy_terminated, Nat.zero_lt_succ]
  rfl

/-! What the journal takes. -/

section

variable {w : World}

theorem succeeds_persistSingle (sound : w.store.Sound) {record : SmsMessage}
    (storable : record.storable = true) (unnamed : record.id = 0)
    (room : hasRoom (persistSingle record) w = true) :
    (Prog.run ServiceCall.handle (persistSingle record) w).1.isOk = true := by
  refine succeeds_find (findRecord_reads sound _) room (fun _ _ _ => rfl) ?_
  intro later
  have saved := run_saveRecord_new sound storable unnamed (hasRoom_bind.mp later).1
  dsimp only at saved ⊢
  rw [run_bind, saved]
  rfl

theorem succeeds_persistUnsupported (sound : w.store.Sound) {pdu : CStr} {deliver : SmsDeliver}
    (room : hasRoom (persistUnsupportedDeliver pdu deliver) w = true) :
    (Prog.run ServiceCall.handle (persistUnsupportedDeliver pdu deliver) w).1.isOk = true := by
  rw [persistUnsupportedDeliver, hasRoom_allocate] at room
  rw [persistUnsupportedDeliver, run_allocate]
  refine succeeds_find (findRecord_reads sound _) room (fun _ _ _ => rfl) ?_
  intro later
  have saved := run_saveRecord_new sound (unsupportedRecord_storable pdu deliver) rfl
    (hasRoom_bind.mp later).1
  dsimp only at saved ⊢
  rw [run_bind, saved]
  rfl

section

variable {deliver : SmsDeliver} (numbered : w.Numbered) (valid : deliver.concat.Valid)
  (few : deliver.concat.totalParts.toNat ≤ smsMaxSegments)

include numbered valid few

theorem succeeds_persistPart (room : hasRoom (persistPart deliver) w = true) :
    (Prog.run ServiceCall.handle (persistPart deliver) w).1.isOk = true := by
  refine succeeds_find (smsStoreFindPartial_reads numbered.sound _ _ _ _ ⟨valid.1, valid.2.1⟩) room
    ?_ ?_
  · intro existing search later
    have found : PartFound w deliver deliver.concat.partNumber existing := search
    dsimp only at later ⊢
    split
    · rfl
    · rw [run_saveRecord_existing numbered
        (overwritePart_storable (holds_storable found.holds) deliver) found.holds rfl]
      rfl
  · intro later
    have storable := deliverRecord_storable fun _ : deliver.concat.present = true => few
    have saved := run_saveRecord_new numbered.sound storable rfl later
    dsimp only
    rw [saved]
    rfl

end

/-- A run in which no new record finds the journal full. -/
theorem runs_roomy {α : Type} {p : ServiceM α} (room : hasRoom p w = true) :
    Runs roomy.Meets p w (trace ServiceCall.handle p w) (Prog.run ServiceCall.handle p w).1
      (Prog.run ServiceCall.handle p w).2 := by
  refine runs_of_trace ServiceCall.handle (fun entry => ¬ entry.request.FindsFull entry.before) ?_
    p w ?_
  · intro request s free
    exact ⟨request.handle_answers s, fun _ => trivial, free⟩
  · rintro ⟨s, request, reply⟩ member
    have free := List.all_eq_true.mp room _ member
    cases request with
    | save message =>
        rintro ⟨unnamed, full⟩
        simp [unnamed, full] at free
    | _ => exact id

theorem partStep_of_run {deliver : SmsDeliver} (numbered : w.Numbered)
    (room : hasRoom (persistPart deliver) w = true)
    (few : (Prog.run ServiceCall.handle (persistPart deliver) w).2.issued < idLimit) :
    PartStep roomy w deliver (Prog.run ServiceCall.handle (persistPart deliver) w).1
      (Prog.run ServiceCall.handle (persistPart deliver) w).2 := by
  have obeys := @persistPart_obeys roomy (fun _ _ => True) w deliver (PartStep roomy w deliver)
    numbered (fun _ _ => trivial) (fun _ _ step => step)
  exact (obeys.runs (runs_few (runs_roomy room) few).1).1

theorem appendPart_id (a : SmsMessage) (part : UInt8) (stored : SmsMessage) :
    (appendPart a part stored).id = a.id := by
  simp only [appendPart]
  split <;> rfl

section

variable {deliver : SmsDeliver} {longest : UInt8 → Nat}

/-- Parts that fit are gathered as far as they are stored. -/
theorem run_assembleParts (sound : w.store.Sound) (some_ : deliver.concat.totalParts ≠ 0)
    (bounded : w.Bounded deliver longest) {parts : List UInt8} (named : ∀ part ∈ parts, part ≠ 0)
    {a : SmsMessage} (storable : a.storable = true) (unnamed : a.id = 0)
    (fits : a.text.str.length + (parts.map longest).sum < 4096) (ids : List UInt32) :
    Prog.run ServiceCall.handle (assembleParts deliver parts a ids) w = (.error .notFound, w) ∨
      ∃ assembled gathered, assembled.storable = true ∧ assembled.id = 0 ∧
        Prog.run ServiceCall.handle (assembleParts deliver parts a ids) w =
          (.ok (assembled, gathered), w) := by
  induction parts generalizing a ids with
  | nil => exact .inr ⟨a, ids, storable, unnamed, rfl⟩
  | cons part rest ih =>
      have reads := smsStoreFindPartial_reads sound deliver.sender.str deliver.concat.reference
        deliver.concat.totalParts part ⟨some_, named part List.mem_cons_self⟩
      have asked := @handle_query w (.findPartial deliver.sender.str deliver.concat.reference
        deliver.concat.totalParts part) _ reads
      rw [assembleParts, run_bind]
      simp only [storeFind, run_send, asked]
      cases search : w.store.recordWhere (isPartialOf deliver.sender.str deliver.concat.reference
        deliver.concat.totalParts part) with
      | none => exact .inl rfl
      | some m =>
          have found : PartFound w deliver part m := search
          have short := bounded part m found.holds found.isPart
          rw [List.map_cons, List.sum_cons] at fits
          have inside : ¬ (m.text.str.length ≥ 4096 ∨
              a.text.str.length + m.text.str.length ≥ 4096) := by omega
          simp only [Store.orError, if_neg inside]
          have length := @appendPart_length a m part (by omega)
          exact ih (fun other member => named other (List.mem_cons_of_mem _ member))
            (appendPart_storable storable part m) ((appendPart_id a part m).trans unnamed)
            (by omega) _

theorem succeeds_storeAssembled (sound : w.store.Sound) {a : SmsMessage}
    (storable : a.storable = true) (unnamed : a.id = 0)
    (room : hasRoom (storeAssembled a) w = true) :
    (Prog.run ServiceCall.handle (storeAssembled a) w).1.isOk = true := by
  refine succeeds_find (findRecord_reads sound _) room (fun _ _ _ => rfl) ?_
  intro later
  have saved := run_storeSave_new sound storable unnamed (hasRoom_bind.mp later).1
  dsimp only
  rw [run_bind, saved]
  rfl

theorem named_partNumbers {total part : UInt8} (member : part ∈ partNumbers total) : part ≠ 0 := by
  obtain ⟨k, inside, rfl⟩ := List.mem_map.mp member
  have value := toNat_partNumber (List.mem_range.mp inside)
  intro zero
  rw [zero] at value
  cases value

/-- The assembly of parts that fit ends with the message, or misses a part. -/
theorem run_assembleIfComplete (sound : w.store.Sound) (multipart : deliver.concat.present = true)
    (some_ : deliver.concat.totalParts ≠ 0)
    (few : deliver.concat.totalParts.toNat ≤ smsMaxSegments) (bounded : w.Bounded deliver longest)
    (fits : ((partNumbers deliver.concat.totalParts).map longest).sum < 4096)
    (room : hasRoom (assembleIfComplete deliver) w = true) :
    (Prog.run ServiceCall.handle (assembleIfComplete deliver) w).1 = .error .notFound ∨
      (Prog.run ServiceCall.handle (assembleIfComplete deliver) w).1.isOk = true := by
  simp only [assembleIfComplete, multipart, Bool.not_true, Bool.false_eq_true, if_false] at room ⊢
  rw [hasRoom_allocate] at room
  rw [run_allocate]
  have later := (hasRoom_bind.mp room).2
  simp only [Bool.not_true, Bool.false_eq_true, if_false, run_bind] at later ⊢
  have start : (assembledStart deliver).text.str.length +
      ((partNumbers deliver.concat.totalParts).map longest).sum < 4096 := by
    simpa [assembledStart, SmsMessage.zero, CharArray.zero, CStr.length] using fits
  rcases run_assembleParts sound some_ bounded (fun _ => named_partNumbers)
      (assembledStart_storable few) rfl start [] with missing | ⟨a, ids, storable, unnamed, gathered⟩
  · rw [missing]
    exact .inl rfl
  · right
    rw [gathered] at later ⊢
    dsimp only at later ⊢
    rw [hasRoom_allocate] at later
    rw [run_allocate]
    have stored := succeeds_storeAssembled sound storable unnamed (hasRoom_bind.mp later).1
    simp only [Bool.not_true, Bool.false_eq_true, if_false]
    rw [run_bind]
    generalize Prog.run ServiceCall.handle (storeAssembled a) w = result at stored
    obtain ⟨result, t⟩ := result
    cases result with
    | error e => cases stored
    | ok done =>
        dsimp only
        rw [run_bind]
        rfl

theorem succeeds_persistAssembly (sound : w.store.Sound) (multipart : deliver.concat.present = true)
    (some_ : deliver.concat.totalParts ≠ 0)
    (few : deliver.concat.totalParts.toNat ≤ smsMaxSegments) (bounded : w.Bounded deliver longest)
    (fits : ((partNumbers deliver.concat.totalParts).map longest).sum < 4096) (event : SmsMessage)
    (room : hasRoom (persistAssembly deliver event) w = true) :
    (Prog.run ServiceCall.handle (persistAssembly deliver event) w).1.isOk = true := by
  have outcome := run_assembleIfComplete sound multipart some_ few bounded fits
    (hasRoom_bind.mp room).1
  rw [persistAssembly, run_bind]
  generalize Prog.run ServiceCall.handle (assembleIfComplete deliver) w = result at outcome
  obtain ⟨result, t⟩ := result
  rcases outcome with missing | done
  · obtain rfl : result = .error .notFound := missing
    rfl
  · match result with
    | .error e => cases done
    | .ok (assembled, true) => rfl
    | .ok (assembled, false) => rfl

end

end

/-! Every PDU that is admitted is taken, and the others leave the journal as it is. -/

theorem run_issued_le {α : Type} (p : ServiceM α) (w : World) :
    w.issued ≤ (Prog.run ServiceCall.handle p w).2.issued := by
  induction p generalizing w with
  | done value => exact Nat.le_refl _
  | call request next ih => exact (request.handle_answers w).issued_le.trans (ih _ _)

theorem matched_iff {w : World} (sound : w.store.Sound) (recipient : CStr) (reference : UInt8) :
    (smsStoreFindOutboundReference recipient reference (Plan.faultless, w.store)).1.isOk = true ↔
      ∃ m i, w.Holds m ∧ SentUnder recipient reference m i := by
  rw [(smsStoreFindOutboundReference_reads sound recipient reference).faultless]
  cases search : w.store.newestReference recipient reference with
  | none =>
      refine iff_of_false Bool.false_ne_true ?_
      rintro ⟨m, i, held, sent⟩
      exact Store.newestReference_none search held i sent
  | some place =>
      obtain ⟨m, -, newest⟩ := Store.newestReference_newest search
      exact iff_of_true rfl ⟨m, place.2, newest.held, newest.sent⟩

section

variable {start w : World} {pdus : List CStr} {pdu : CStr}

theorem World.Follows.admits_eq (follows : start.Follows pdus w) (sound : start.store.Sound)
    (pdu : CStr) : w.admits pdu = start.admits pdu := by
  simp only [World.admits]
  split
  · rfl
  · split
    · rfl
    · rw [Bool.eq_iff_iff, matched_iff follows.numbered.sound, matched_iff sound]
      exact follows.matched _ _
  · rfl

theorem succeeds_persistDeliver (follows : start.Follows pdus w) (light : start.Light pdus)
    (listed : pdu ∈ pdus) (fine : (smsDeliverDecode pdu).1 = .ok)
    (count : (smsDeliverDecode pdu).2.concat.present = true →
      (smsDeliverDecode pdu).2.concat.totalParts.toNat ≤ smsMaxSegments)
    (room : hasRoom (persistDeliver (smsDeliverDecode pdu).2) w = true)
    (few : (Prog.run ServiceCall.handle (persistDeliver (smsDeliverDecode pdu).2) w).2.issued <
      idLimit) :
    (Prog.run ServiceCall.handle (persistDeliver (smsDeliverDecode pdu).2) w).1.isOk = true := by
  have numbered := follows.numbered
  have valid := smsDeliverDecode_valid fine
  have texts := light pdu listed fine
  have extend (t : World) := @World.Sourced.extend start w t pdus pdu follows.sourced listed fine
  generalize (smsDeliverDecode pdu).2 = deliver at *
  simp only [persistDeliver, hasRoom_allocate, run_allocate, Bool.not_true, Bool.false_eq_true,
    if_false] at room few ⊢
  cases multipart : deliver.concat.present with
  | false =>
      simp only [multipart, Bool.false_eq_true, if_false] at room ⊢
      exact succeeds_persistSingle numbered.sound
        (deliverRecord_storable fun present =>
          absurd (multipart.symm.trans present) Bool.false_ne_true) rfl room
  | true =>
      simp only [multipart, if_true, hasRoom_allocate, run_allocate, Bool.not_true, Bool.or_self,
        Bool.false_eq_true, if_false] at room few ⊢
      obtain ⟨roomPart, roomAssembly⟩ := hasRoom_bind.mp room
      rw [run_bind] at few ⊢
      have step := partStep_of_run numbered roomPart
        ((run_issued_le _ _).trans_lt few)
      have stored := succeeds_persistPart numbered (valid multipart) (count multipart) roomPart
      generalize Prog.run ServiceCall.handle (persistPart deliver) w = outcome
        at stored step roomAssembly
      obtain ⟨result, u⟩ := outcome
      cases result with
      | error e => cases stored
      | ok event =>
          have sourced := extend u fun m held _ =>
            (step.source numbered multipart held).imp_right fun own => ⟨multipart, own⟩
          exact succeeds_persistAssembly (step.wrote numbered).numbered.sound multipart
            (valid multipart).1 (count multipart) (sourced.bounded deliver) (texts multipart) event
            roomAssembly

theorem accepts_deliver (follows : start.Follows pdus w) (light : start.Light pdus)
    (listed : pdu ∈ pdus) (kind : smsPduTypeDetect pdu = .deliver) (admits : w.admits pdu = true)
    (room : hasRoom (processAnyPdu pdu (-1)) w = true) (few : (w.takes pdu).issued < idLimit) :
    w.accepts pdu = true := by
  simp only [World.admits, kind, Bool.or_eq_true, Bool.and_eq_true, beq_iff_eq, Bool.not_eq_true',
    decide_eq_true_eq] at admits
  simp only [World.takes, World.accepts, processAnyPdu, kind, processDeliverPdu, hasRoom_allocate,
    run_allocate, Bool.not_true, Bool.or_self, Bool.false_eq_true, if_false, processDecoded]
    at room few ⊢
  by_cases raw : (smsDeliverDecode pdu).1 = .unsupported ∧
      (smsDeliverDecode pdu).2.encoding = .eightBit
  · rw [if_pos raw] at room ⊢
    have stored := succeeds_persistUnsupported follows.numbered.sound (hasRoom_bind.mp room).1
    rw [run_bind]
    generalize Prog.run ServiceCall.handle
      (persistUnsupportedDeliver pdu (smsDeliverDecode pdu).2) w = outcome at stored
    obtain ⟨result, t⟩ := outcome
    cases result with
    | error e => cases stored
    | ok _ => rfl
  · obtain ⟨fine, count⟩ := admits.resolve_left raw
    rw [if_neg raw, if_neg (not_not.mpr fine)] at room few ⊢
    rw [run_bind] at few ⊢
    have delivered := succeeds_persistDeliver follows light listed fine
      (fun multipart => count.resolve_left fun single =>
        absurd (single.symm.trans multipart) Bool.false_ne_true)
      (hasRoom_bind.mp room).1 ((run_issued_le _ _).trans_lt few)
    generalize Prog.run ServiceCall.handle (persistDeliver (smsDeliverDecode pdu).2) w = outcome
      at delivered
    obtain ⟨result, t⟩ := outcome
    cases result with
    | error e => cases delivered
    | ok _ => rfl

/-- A part of more than 16 is never stored, so it is neither found nor saved. -/
theorem run_persistPart_refused (numbered : w.Numbered)
    (counted : w.records ⊆ Assembly.countedRecords) {deliver : SmsDeliver}
    (multipart : deliver.concat.present = true) (valid : deliver.concat.Valid)
    (many : ¬ deliver.concat.totalParts.toNat ≤ smsMaxSegments) :
    Prog.run ServiceCall.handle (persistPart deliver) w = (.error .invalidArg, w) := by
  have asked := @handle_query w (.findPartial deliver.sender.str deliver.concat.reference
    deliver.concat.totalParts deliver.concat.partNumber) _
    (smsStoreFindPartial_reads numbered.sound _ _ _ _ ⟨valid.1, valid.2.1⟩)
  rw [persistPart, run_bind]
  simp only [storeFind, run_send, asked]
  cases search : w.store.recordWhere (isPartialOf deliver.sender.str deliver.concat.reference
      deliver.concat.totalParts deliver.concat.partNumber) with
  | some m =>
      have found : PartFound w deliver deliver.concat.partNumber m := search
      have fields := (isPartOf_iff _ _ _).mp found.isPart
      have total := counted found.holds fields.2.1
      rw [← fields.2.2.2.2.1, total] at many
      exact absurd (holds_segmentCount found.holds) many
  | none =>
      refine run_saveRecord_refused ?_
      simp [SmsMessage.storable, deliverRecord, multipart, many]

theorem refuses_deliver (follows : start.Follows pdus w) (kind : smsPduTypeDetect pdu = .deliver)
    (refused : w.admits pdu = false) :
    ∃ e, Prog.run ServiceCall.handle (processAnyPdu pdu (-1)) w = (.error e, w) := by
  simp only [World.admits, kind, Bool.or_eq_false_iff, Bool.and_eq_false_iff, beq_eq_false_iff_ne,
    ne_eq, Bool.not_eq_false', decide_eq_false_iff_not] at refused
  simp only [processAnyPdu, kind, processDeliverPdu, run_allocate, Bool.not_true, Bool.or_self,
    Bool.false_eq_true, if_false, processDecoded]
  obtain ⟨other, refused⟩ := refused
  rw [if_neg (not_and_or.mpr other)]
  by_cases fine : (smsDeliverDecode pdu).1 = .ok
  · obtain ⟨multipart, many⟩ : (smsDeliverDecode pdu).2.concat.present = true ∧
        ¬ (smsDeliverDecode pdu).2.concat.totalParts.toNat ≤ smsMaxSegments := by
      simpa using refused.resolve_left (not_not.mpr fine)
    have stopped := run_persistPart_refused follows.numbered follows.counted multipart
      (smsDeliverDecode_valid fine multipart) many
    refine ⟨.invalidArg, ?_⟩
    rw [if_neg (not_not.mpr fine), run_bind]
    simp only [persistDeliver, run_allocate, multipart, Bool.not_true, Bool.or_self,
      Bool.false_eq_true, if_false, if_true]
    rw [run_bind, stopped]
    rfl
  · rw [if_pos fine]
    exact ⟨_, rfl⟩

theorem applyReport_storable {m : SmsMessage} (storable : m.storable = true) (segment : Nat)
    (report : SmsStatusReport) : (applyReport m segment report).storable = true := by
  simp only [applyReport]
  repeat' split
  all_goals exact storable

theorem report_outcome (follows : start.Follows pdus w)
    (kind : smsPduTypeDetect pdu = .statusReport) :
    w.accepts pdu = w.admits pdu ∧ (w.admits pdu = false → w.takes pdu = w) := by
  simp only [World.takes, World.accepts, World.admits, processAnyPdu, kind, processStatusReportPdu]
  cases decoded : smsStatusReportDecode pdu with
  | error e => exact ⟨rfl, fun _ => rfl⟩
  | ok report =>
      have reads := smsStoreFindOutboundReference_reads follows.numbered.sound
        report.recipient.str report.messageReference
      have asked : ServiceCall.handle (.findOutboundReference report.recipient.str
          report.messageReference) w =
            ((smsStoreFindOutboundReference report.recipient.str report.messageReference
              (Plan.faultless, w.store)).1, w) := by
        simp only [ServiceCall.handle, reads.faultless, World.withStore_self]
      have found (m : SmsMessage) (i : Nat)
          (performs : (smsStoreFindOutboundReference report.recipient.str report.messageReference
            (Plan.faultless, w.store)).1 = .ok (m, i)) : w.Holds m :=
        (performs_findOutbound_ok follows.numbered.sound ⟨Plan.faultless, performs, rfl⟩ rfl).held
      simp only [bind_assoc, run_allocate, Bool.not_true, Bool.false_eq_true, if_false]
      rw [run_bind]
      simp only [storeFindOutboundReference, run_send, asked]
      generalize (smsStoreFindOutboundReference report.recipient.str report.messageReference
        (Plan.faultless, w.store)).1 = reply at found ⊢
      cases reply with
      | error e => exact ⟨rfl, fun _ => rfl⟩
      | ok sent =>
          obtain ⟨m, i⟩ := sent
          have held := found m i rfl
          have saved := run_saveRecord_existing follows.numbered
            (applyReport_storable (holds_storable held) i report) held
            (applyReport_keeps m i report).id
          refine ⟨?_, fun refused => absurd refused.symm Bool.false_ne_true⟩
          dsimp only
          rw [bind_assoc, run_bind, saved]
          simp only [emitReport]
          repeat' split
          all_goals rfl

/-- During the scan the journal takes just the PDUs that it admitted at the start, and a
refused one leaves it as it is. -/
theorem accepts_eq (follows : start.Follows pdus w) (sound : start.store.Sound)
    (light : start.Light pdus) (listed : pdu ∈ pdus)
    (room : hasRoom (processAnyPdu pdu (-1)) w = true) (few : (w.takes pdu).issued < idLimit) :
    w.accepts pdu = start.admits pdu ∧ (start.admits pdu = false → w.takes pdu = w) := by
  rw [← follows.admits_eq sound pdu]
  cases kind : smsPduTypeDetect pdu with
  | deliver =>
      cases admits : w.admits pdu with
      | true => exact ⟨accepts_deliver follows light listed kind admits room few, nofun⟩
      | false =>
          obtain ⟨e, ran⟩ := refuses_deliver follows kind admits
          rw [World.accepts, World.takes, ran]
          exact ⟨rfl, fun _ => rfl⟩
  | statusReport => exact report_outcome follows kind
  | unknown =>
      have refused : w.admits pdu = false := by simp only [World.admits, kind]
      rw [World.accepts, World.takes, refused]
      simp only [processAnyPdu, kind]
      exact ⟨rfl, fun _ => rfl⟩

end

/-! A PDU that is taken up leaves all this as it was. -/

/-- The records that a report can leave: one of them changed, or none. -/
def Reported (w t : World) : Prop :=
  (∀ r, t.Holds r ↔ w.Holds r) ∨ ∃ m i report, w.Holds m ∧ m.direction = .outbound ∧
    ∀ r, t.Holds r ↔ r = applyReport m i report ∨ w.Holds r ∧ r.id ≠ m.id

theorem processStatusReportPdu_reported {env : Surroundings} {w : World} (numbered : w.Numbered)
    (pdu : CStr) :
    Obeys env.Step (fun _ _ => True) (fun _ t => t.Numbered ∧ Reported w t)
      (processStatusReportPdu pdu) w := by
  have unchanged : w.Numbered ∧ Reported w w := ⟨numbered, .inl fun _ => .rfl⟩
  simp only [processStatusReportPdu]
  split
  · exact unchanged
  · rename_i report decoded
    refine obeys_allocate trivial ?_ fun _ => unchanged
    refine Obeys.send trivial ?_
    rintro reply t ⟨answers, -⟩
    obtain ⟨rfl, found⟩ := World.performs_findOutbound numbered.sound answers
    cases reply with
    | error e => exact unchanged
    | ok reported =>
        obtain ⟨m, i⟩ := reported
        obtain ⟨held, sent⟩ := found m i rfl
        have same := (applyReport_keeps m i report).id
        have named : (applyReport m i report).id ≠ 0 := by
          rw [same]
          exact numbered.holds_named held
        have known : (applyReport m i report).id.toNat ≤ t.issued := by
          rw [same]
          exact numbered.holds_known held
        refine Obeys.bind (obeys_save numbered known trivial ?_)
        rintro ⟨result, back⟩ after wrote effect - - -
        have outcome : after.Numbered ∧ Reported t after := by
          refine ⟨wrote.numbered, ?_⟩
          cases effect with
          | kept rest returned => exact .inl rest
          | lost unnamed full prunable rest returned => exact absurd unnamed named
          | added unnamed storable prunable rest returned => exact absurd unnamed named
          | replaced _ storable rest first returned =>
              refine .inr ⟨m, i, report, held, sent.outbound, ?_⟩
              intro r
              rw [← same]
              exact rest r
        cases result with
        | error e => exact outcome
        | ok _ =>
            simp only [Obeys, pure_eq, emitReport]
            split
            · exact ⟨trivial, fun _ _ answered => by obtain ⟨rfl, -⟩ := answered; exact outcome⟩
            · split
              · exact ⟨trivial, fun _ _ answered => by obtain ⟨rfl, -⟩ := answered; exact outcome⟩
              · exact outcome

/-- A report changes neither what was sent to whom nor the stored parts. -/
theorem applyReport_sent {m : SmsMessage} {i : Nat} {report : SmsStatusReport} {recipient : CStr}
    {reference : UInt8} {j : Nat} :
    SentUnder recipient reference (applyReport m i report) j ↔ SentUnder recipient reference m j := by
  simp only [applyReport]
  repeat' split
  all_goals exact ⟨fun sent => ⟨sent.1, sent.2, sent.3, sent.4, sent.5⟩,
    fun sent => ⟨sent.1, sent.2, sent.3, sent.4, sent.5⟩⟩

section

variable {start w t : World} {pdus : List CStr} {pdu : CStr}

theorem Reported.matched (numbered : w.Numbered) (reported : Reported w t) (recipient : CStr)
    (reference : UInt8) : (∃ m i, t.Holds m ∧ SentUnder recipient reference m i) ↔
      ∃ m i, w.Holds m ∧ SentUnder recipient reference m i := by
  rcases reported with same | ⟨m, i, report, held, -, rest⟩
  · simp only [same]
  · constructor
    · rintro ⟨r, j, stored, sent⟩
      rcases (rest r).mp stored with rfl | ⟨before, -⟩
      · exact ⟨m, j, held, applyReport_sent.mp sent⟩
      · exact ⟨r, j, before, sent⟩
    · rintro ⟨r, j, stored, sent⟩
      by_cases same : r.id = m.id
      · obtain rfl := numbered.id_inj stored held same
        exact ⟨_, j, (rest _).mpr (.inl rfl), applyReport_sent.mpr sent⟩
      · exact ⟨r, j, (rest r).mpr (.inr ⟨stored, same⟩), sent⟩

theorem Reported.sourced (reported : Reported w t) (sourced : start.Sourced pdus w) :
    start.Sourced pdus t := by
  intro deliver part r stored isPart
  rcases reported with same | ⟨m, i, report, held, outbound, rest⟩
  · exact sourced deliver part r ((same r).mp stored) isPart
  · rcases (rest r).mp stored with rfl | ⟨before, -⟩
    · have inbound := ((isPartOf_iff _ _ _).mp isPart).1
      rw [(applyReport_keeps m i report).direction, outbound] at inbound
      cases inbound
    · exact sourced deliver part r before isPart

/-- What a delivery adds is inbound. -/
theorem Stage.arrived {env : Surroundings} {deliver : SmsDeliver} {m : SmsMessage}
    (numbered : w.Numbered) (stage : Stage env w deliver t) (held : t.Holds m)
    (outbound : m.direction = .outbound) : w.Holds m := by
  have parted (result : Except EspErr SmsMessage) (u : World)
      (multipart : deliver.concat.present = true) (part : PartStep env w deliver result u)
      (held : u.Holds m) : w.Holds m := by
    rcases part.source numbered multipart held with before | own
    · exact before
    · cases ((isPartOf_iff _ _ _).mp own.part).1.symm.trans outbound
  have assembled (u : World) (parts : List SmsMessage)
      (result : Except EspErr (SmsMessage × Bool)) (v : World)
      (stores : StoreStep env u
        (assembledOf deliver (partNumbers deliver.concat.totalParts) parts) result v)
      (held : v.Holds m) : u.Holds m := by
    rcases stores.source (assembledOf_id ..) held with before | rfl
    · exact before
    · have inbound := (assembledOf_fields deliver (partNumbers deliver.concat.totalParts) parts).1
      cases inbound.symm.trans outbound
  cases stage with
  | start => exact held
  | part multipart part => exact parted _ _ multipart part held
  | stored multipart part gathers stores =>
      exact parted _ _ multipart part (assembled _ _ _ _ stores held)
  | deleting multipart part gathers stores first deletes =>
      exact parted _ _ multipart part (assembled _ _ _ _ stores (deletes.source held))
  | single single stores =>
      rcases stores.source rfl held with before | rfl
      · exact before
      · cases outbound

theorem ProcessStep.arrived {env : Surroundings} {result : Except EspErr Unit} {m : SmsMessage}
    (numbered : w.Numbered) (step : ProcessStep env w pdu result t) (held : t.Holds m)
    (outbound : m.direction = .outbound) : w.Holds m := by
  have saved (outcome : Except EspErr SmsMessage) (u : World)
      (saves : Saves env w (unsupportedRecord pdu (smsDeliverDecode pdu).2) outcome u)
      (held : u.Holds m) : w.Holds m := by
    rcases saves.source held with before | ⟨-, rfl⟩ | ⟨named, -⟩
    · exact before
    · cases outbound
    · exact absurd rfl named
  cases step with
  | failed fault => exact held
  | rejected other bad => exact held
  | quarantined raw step =>
      cases step with
      | failed fault => exact held
      | duplicate held' same => exact held
      | unsaved absent saves => exact saved _ _ saves held
      | created absent saves => exact saved _ _ saves held
  | delivered fine step =>
      obtain ⟨u, stage, store, -⟩ := step.stage
      rw [World.Holds, store] at held
      exact stage.arrived numbered held outbound

/-- The parts that a delivery leaves were stored or are its own. -/
theorem ProcessStep.sourced {env : Surroundings} {result : Except EspErr Unit}
    (numbered : w.Numbered) (sourced : start.Sourced pdus w) (listed : pdu ∈ pdus)
    (step : ProcessStep env w pdu result t) : start.Sourced pdus t := by
  have saved (outcome : Except EspErr SmsMessage) (u : World)
      (saves : Saves env w (unsupportedRecord pdu (smsDeliverDecode pdu).2) outcome u) :
      start.Sourced pdus u := by
    intro deliver part m held isPart
    rcases saves.source held with before | ⟨-, rfl⟩ | ⟨named, -⟩
    · exact sourced deliver part m before isPart
    · cases isPart.status
    · exact absurd rfl named
  cases step with
  | failed fault => exact sourced
  | rejected other bad => exact sourced
  | quarantined raw step =>
      cases step with
      | failed fault => exact sourced
      | duplicate held' same => exact sourced
      | unsaved absent saves => exact saved _ _ saves
      | created absent saves =>
          exact fun other part m held isPart => saved _ _ saves other part m held isPart
  | delivered fine step =>
      obtain ⟨u, stage, store, -⟩ := step.stage
      refine sourced.extend listed fine fun m held status => ?_
      rw [World.Holds, store] at held
      exact stage.source numbered held status

/-- While there is room, a delivery leaves the sent messages as they are. -/
theorem ProcessStep.keepsSent {result : Except EspErr Unit} {m : SmsMessage}
    (numbered : w.Numbered) (step : ProcessStep roomy w pdu result t) (held : w.Holds m)
    (outbound : m.direction = .outbound) : t.Holds m := by
  have other : m.id ≠ 0 := numbered.holds_named held
  cases step with
  | failed fault => exact held
  | rejected other bad => exact held
  | quarantined raw step =>
      cases step with
      | failed fault => exact held
      | duplicate held' same => exact held
      | unsaved absent saves => exact saves.keeps held other (.inr id)
      | created absent saves => exact saves.keeps held other (.inr id)
  | delivered fine step =>
      obtain ⟨u, stage, store, -⟩ := step.stage
      rw [World.Holds, store]
      refine stage.keeps numbered held (.inr id) ?_
      intro _ part isPart
      cases ((isPartOf_iff _ _ _).mp isPart).1.symm.trans outbound

theorem ProcessStep.matched {result : Except EspErr Unit} (numbered : w.Numbered)
    (step : ProcessStep roomy w pdu result t) (recipient : CStr) (reference : UInt8) :
    (∃ m i, t.Holds m ∧ SentUnder recipient reference m i) ↔
      ∃ m i, w.Holds m ∧ SentUnder recipient reference m i := by
  constructor
  · rintro ⟨m, i, held, sent⟩
    exact ⟨m, i, step.arrived numbered held sent.outbound, sent⟩
  · rintro ⟨m, i, held, sent⟩
    exact ⟨m, i, step.keepsSent numbered held sent.outbound, sent⟩

theorem counted_processAnyPdu (pdu : CStr) (index : Int) :
    Safe Assembly.Tells Assembly.CountedCall (processAnyPdu pdu index) := by
  refine Assembly.receives_counted.processAnyPdu (fun _ _ _ => trivial) ?_ pdu index
  intro pdu
  refine Assembly.receives_counted.processStatusReportPdu ?_ pdu
  rintro _ _ recipient reference m i report ⟨⟨-, found⟩, -⟩
  exact Assembly.applyReport_counted (found m i rfl).1 i report

theorem run_counted {α : Type} {p : ServiceM α}
    (obeys : Obeys Assembly.Tells Assembly.CountedCall (fun _ _ => True) p ())
    (sound : w.store.Sound) (counted : w.records ⊆ Assembly.countedRecords) :
    (Prog.run ServiceCall.handle p w).2.records ⊆ Assembly.countedRecords := by
  induction p generalizing w with
  | done value => exact counted
  | call request next ih =>
      obtain ⟨after, held, told⟩ :=
        Assembly.answers_tells sound counted obeys.1 (request.handle_answers w)
      exact ih _ (obeys.2 _ () told) after held

theorem runs_takes (pdu : CStr) (room : hasRoom (processAnyPdu pdu (-1)) w = true) :
    Runs roomy.Meets (processAnyPdu pdu (-1)) w
      (trace ServiceCall.handle (processAnyPdu pdu (-1)) w)
      (Prog.run ServiceCall.handle (processAnyPdu pdu (-1)) w).1 (w.takes pdu) :=
  runs_roomy room

/-- The scan goes on from the journal that a listed PDU leaves. -/
theorem follows_take (follows : start.Follows pdus w) (listed : pdu ∈ pdus)
    (room : hasRoom (processAnyPdu pdu (-1)) w = true) (few : (w.takes pdu).issued < idLimit) :
    start.Follows pdus (w.takes pdu) := by
  have numbered := follows.numbered
  have runs := runs_takes pdu room
  have counted := run_counted (counted_processAnyPdu pdu (-1) ()) numbered.sound follows.counted
  cases kind : smsPduTypeDetect pdu with
  | deliver =>
      have same : processAnyPdu pdu (-1) = processDeliverPdu pdu (-1) := by
        simp only [processAnyPdu, kind]
      rw [same] at runs
      have step := processStep_of_runs numbered runs few
      exact ⟨step.numbered numbered, counted, step.sourced numbered follows.sourced listed,
        fun recipient reference => (step.matched numbered recipient reference).trans
          (follows.matched recipient reference)⟩
  | statusReport =>
      have obeys : Obeys roomy.Step (fun _ _ => True) (fun _ t => t.Numbered ∧ Reported w t)
          (processAnyPdu pdu (-1)) w := by
        simp only [processAnyPdu, kind]
        refine Obeys.bind ((processStatusReportPdu_reported numbered pdu).mono ?_)
        intro result t outcome
        cases result <;> exact outcome
      obtain ⟨after, reported⟩ := (obeys.runs (runs_few runs few).1).1
      exact ⟨after, counted, reported.sourced follows.sourced,
        fun recipient reference => (reported.matched numbered recipient reference).trans
          (follows.matched recipient reference)⟩
  | unknown =>
      have same : w.takes pdu = w := by
        simp only [World.takes, processAnyPdu, kind]
        rfl
      rw [same]
      exact follows

end

end SmsGateway
