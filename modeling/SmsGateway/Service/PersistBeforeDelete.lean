import SmsGateway.Service.Processing

/-! A message leaves the modem only once its content is in the journal. -/

namespace SmsGateway

open Lib Prog

/-- The text of a part stands at its place in an assembled message: the other
texts are those of the parts stored at the start. -/
def PartAssembled (start : World) (deliver : SmsDeliver) (m : SmsMessage) : Prop :=
  m.direction = .inbound ∧ m.status = .received ∧ m.sender.str = deliver.sender.str ∧
    ∃ texts : List CStr, m.text.str.bytes = (texts.map CStr.bytes).flatten ∧
      texts.length = deliver.concat.totalParts.toNat ∧
      texts[deliver.concat.partNumber.toNat - 1]? = some deliver.text.str ∧
      ∀ k text, texts[k]? = some text → k + 1 ≠ deliver.concat.partNumber.toNat →
        ∃ part, start.Holds part ∧ IsPartOf deliver (UInt8.ofNat (k + 1)) part ∧
          part.text.str = text

/-- The journal holds a decoded message or part. -/
def DeliverHeld (start now : World) (deliver : SmsDeliver) : Prop :=
  if deliver.concat.present then
    (∃ m, now.Holds m ∧ IsPartOf deliver deliver.concat.partNumber m ∧
      m.text.str = deliver.text.str) ∨
    ∃ m, now.Holds m ∧ PartAssembled start deliver m
  else
    ∃ m, now.Holds m ∧ m.direction = .inbound ∧ m.status = .received ∧
      m.sender.str = deliver.sender.str ∧
      m.serviceCenterTimestamp.str = deliver.serviceCenterTimestamp.str ∧
      m.encoding = deliver.encoding ∧ m.text.str = deliver.text.str

/-- The journal holds what a PDU brought: the message or part, the quarantined
PDU, or the report's status in the outbound record it is about. -/
def ContentHeld (pdu : CStr) (start now : World) : Prop :=
  match smsPduTypeDetect pdu with
  | .deliver =>
      (smsDeliverDecode pdu).1 = .ok ∧ DeliverHeld start now (smsDeliverDecode pdu).2 ∨
      (smsDeliverDecode pdu).1 = .unsupported ∧ (smsDeliverDecode pdu).2.encoding = .eightBit ∧
        ∃ m, now.Holds m ∧ m.direction = .inbound ∧ m.status = .unsupported ∧
          m.rawPdu.str = pdu
  | .statusReport =>
      ∃ report m segment, smsStatusReportDecode pdu = .ok report ∧ now.Holds m ∧
        SentUnder report.recipient.str report.messageReference m segment ∧
        m.deliveryStatus[segment]? = some report.status
  | .unknown => False

/-- A request reaches the modem only to delete the index of a stored message. -/
def DeletesStored (pdu : CStr) (index : Int) (start now : World) : ServiceCall → Prop
  | .execute request => request = ⟨.cmgd index, none, none⟩ ∧ ContentHeld pdu start now
  | _ => True

theorem DeletesStored.of_local {pdu : CStr} {index : Int} {start now : World} {c : ServiceCall}
    (inside : c.Local) : DeletesStored pdu index start now c := by
  cases c <;> first
    | exact trivial
    | exact absurd inside id

/-- Stored parts of a message that `deliver` completes, as its content. -/
theorem partAssembled_of_gathers {env : Surroundings} {w u : World} {deliver : SmsDeliver}
    {stored : List SmsMessage} {event m : SmsMessage} (numbered : w.Numbered)
    (multipart : deliver.concat.present = true) (valid : deliver.concat.Valid)
    (part : PartStep env w deliver (.ok event) u)
    (gathers : Gathers u deliver (partNumbers deliver.concat.totalParts) stored)
    (same : SameMessage (assembledOf deliver (partNumbers deliver.concat.totalParts) stored) m) :
    PartAssembled w deliver m := by
  obtain ⟨own, found, text⟩ := part.found numbered multipart
  obtain ⟨-, -, -, sender⟩ :=
    assembledOf_fields deliver (partNumbers deliver.concat.totalParts) stored
  rw [sameMessage_iff] at same
  obtain ⟨direction, status, -, sameSender, -, sameText⟩ := same
  have length : stored.length = deliver.concat.totalParts.toNat := by
    rw [← gathers.each.length_eq]
    simp [partNumbers]
  have number (k : Nat) (inside : k < stored.length) :
      PartFound u deliver (UInt8.ofNat (k + 1)) stored[k] := by
    have here := gathers.each.get (i := k) (by simpa [partNumbers, ← length] using inside) inside
    simpa [partNumbers] using here
  refine ⟨direction, status, sameSender.trans sender, stored.map fun m => m.text.str, ?_, ?_, ?_,
    ?_⟩
  · rw [sameText, assembledOf_text gathers, joinedText, List.map_map]
    rfl
  · simpa using length
  · obtain ⟨-, positive, most⟩ := valid
    have low : 1 ≤ deliver.concat.partNumber.toNat := by
      have nonzero : deliver.concat.partNumber.toNat ≠ 0 := by
        intro zero
        exact positive (UInt8.toNat_inj.mp (by simpa using zero))
      omega
    have high := UInt8.le_iff_toNat_le.mp most
    have inside : deliver.concat.partNumber.toNat - 1 < stored.length := by omega
    have here := number _ inside
    have restored : UInt8.ofNat (deliver.concat.partNumber.toNat - 1 + 1) =
        deliver.concat.partNumber := by
      rw [Nat.sub_add_cancel low, UInt8.ofNat_toNat]
    rw [restored] at here
    have one : stored[deliver.concat.partNumber.toNat - 1] = own :=
      Option.some.inj (here.symm.trans found)
    simp [inside, one, text]
  · intro k text at_ other
    have inside : k < stored.length := by
      by_contra outside
      simp [List.getElem?_eq_none (Nat.le_of_not_lt outside)] at at_
    have here := number k inside
    simp only [List.getElem?_map, List.getElem?_eq_getElem inside, Option.map_some,
      Option.some.injEq] at at_
    refine ⟨stored[k], ?_, here.isPart, at_⟩
    rcases part.source numbered multipart here.holds with before | ownPart
    · exact before
    · -- The record written by this delivery carries its own part number.
      exfalso
      apply other
      have mine := (isPartOf_iff _ _ _).mp ownPart.part
      have its := (isPartOf_iff _ _ _).mp here.isPart
      rw [← toNat_partNumber (length ▸ inside : k < deliver.concat.totalParts.toNat),
        ← its.2.2.2.2.2.1, mine.2.2.2.2.2.1]

theorem deliverHeld_of_step {env : Surroundings} {w t : World} {deliver : SmsDeliver}
    {m : SmsMessage} (numbered : w.Numbered)
    (valid : deliver.concat.present = true → deliver.concat.Valid)
    (step : DeliverStep env w deliver (.ok m) t) : DeliverHeld w t deliver := by
  cases step with
  | incomplete multipart part inside absent =>
      simp only [DeliverHeld, multipart, ↓reduceIte]
      obtain ⟨stored, found, text⟩ := part.found numbered multipart
      exact .inl ⟨stored, found.holds, found.isPart, text⟩
  | assembled multipart part assembly =>
      simp only [DeliverHeld, multipart, ↓reduceIte]
      cases assembly with
      | stored gathers stores deletes =>
          rename_i parts u
          obtain ⟨direction, status, -, -⟩ :=
            assembledOf_fields deliver (partNumbers deliver.concat.totalParts) parts
          have unnamed := assembledOf_id deliver (partNumbers deliver.concat.totalParts) parts
          obtain ⟨held, same⟩ := stores.held unnamed direction status
          refine .inr ⟨_, ?_, partAssembled_of_gathers numbered multipart (valid multipart) part
            gathers same⟩
          rw [World.Holds, World.announce_store]
          refine deletes.keeps held ?_
          simp only [List.mem_map, not_exists, not_and]
          intro partial_ member equal
          obtain ⟨number, -, found⟩ := gathers.holds member
          exact stores.apart (part.wrote numbered).numbered unnamed found.holds found.isPart.status
            equal.symm
  | single single stores =>
      simp only [DeliverHeld, single, Bool.false_eq_true, ↓reduceIte]
      have status : (deliverRecord deliver).status = .received := by
        simp [deliverRecord, single]
      obtain ⟨held, same⟩ := stores.held rfl rfl status
      obtain ⟨sender, timestamp, text⟩ := deliverRecord_strings deliver
      rw [sameMessage_iff] at same
      obtain ⟨direction, received, encoding, sameSender, sameTimestamp, sameText⟩ := same
      refine ⟨_, ?_, direction, received, sameSender.trans sender,
        sameTimestamp.trans timestamp, encoding, sameText.trans text⟩
      rw [World.Holds, World.announce_store]
      exact held

section

variable {env : Surroundings} {pdu : CStr} {index : Int} {w : World}

/-- A delivery that was processed is in the journal. -/
theorem ProcessStep.content {t : World} (numbered : w.Numbered)
    (kind : smsPduTypeDetect pdu = .deliver) {result : Except EspErr Unit}
    (step : ProcessStep env w pdu result t) (succeeded : result = .ok ()) : ContentHeld pdu w t := by
  simp only [ContentHeld, kind]
  cases step with
  | failed fault => cases succeeded
  | rejected other bad => cases succeeded
  | @quarantined result _ raw step =>
      cases result with
      | error e => cases succeeded
      | ok m =>
          have held : t.Holds m ∧ IsRaw pdu m := by
            cases step with
            | duplicate held same => exact ⟨held, same⟩
            | created absent saves =>
                obtain ⟨held, ⟨-, rfl⟩ | ⟨named, -⟩⟩ := saves.stored
                · exact ⟨held, (isRaw_iff _ _).mpr ⟨rfl, rfl, CharArray.strncpy_str raw.short⟩⟩
                · exact absurd rfl named
          exact .inr ⟨raw.1, raw.2, m, held.1, (isRaw_iff _ _).mp held.2⟩
  | @delivered result _ fine step =>
      cases result with
      | error e => cases succeeded
      | ok m => exact .inl ⟨fine, deliverHeld_of_step numbered (smsDeliverDecode_valid fine) step⟩

/-- A report changes only the status, the masks and the delivery status of its record. -/
theorem applyReport_sentUnder {recipient : CStr} {reference : UInt8} {m : SmsMessage}
    {segment : Nat} (report : SmsStatusReport) (sent : SentUnder recipient reference m segment) :
    SentUnder recipient reference (applyReport m segment report) segment ∧
      (applyReport m segment report).id = m.id ∧
      (applyReport m segment report).deliveryStatus =
        m.deliveryStatus.setIfInBounds segment report.status := by
  obtain ⟨outbound, same, inside, bit, under⟩ := sent
  simp only [applyReport]
  repeat' split
  all_goals exact ⟨⟨outbound, same, inside, bit, under⟩, rfl, rfl⟩

theorem processStatusReportPdu_obeys (numbered : w.Numbered)
    {allowed : World → ServiceCall → Prop} (may : ∀ t (c : ServiceCall), c.Local → allowed t c) :
    Obeys env.Step allowed (fun result t => result = .ok () →
        ∃ report m segment, smsStatusReportDecode pdu = .ok report ∧ t.Holds m ∧
          SentUnder report.recipient.str report.messageReference m segment ∧
          m.deliveryStatus[segment]? = some report.status)
      (processStatusReportPdu pdu) w := by
  simp only [processStatusReportPdu]
  cases decoded : smsStatusReportDecode pdu with
  | error _ =>
      intro equal
      cases equal
  | ok report =>
      refine obeys_allocate (may _ _ trivial) ?_ (fun _ equal => by cases equal)
      refine Obeys.send (may _ _ trivial) ?_
      rintro reply t ⟨answers, -⟩
      obtain ⟨rfl, found⟩ := World.performs_findOutbound numbered.sound answers
      rcases reply with e | ⟨m, segment⟩
      · intro equal
        cases equal
      · obtain ⟨held, sent⟩ := found m segment rfl
        obtain ⟨after, sameId, status⟩ := applyReport_sentUnder report sent
        have known : (applyReport m segment report).id.toNat ≤ t.issued := by
          rw [sameId]
          exact numbered.holds_known held
        refine Obeys.bind (saveRecord_obeys numbered known (may _ _ trivial) ?_)
        intro result u saves
        cases result with
        | error e =>
            intro equal
            cases equal
        | ok saved =>
            have content : u.Holds (applyReport m segment report) := by
              obtain ⟨stored, ⟨unnamed, -⟩ | ⟨-, rfl⟩⟩ := saves.stored
              · rw [sameId] at unnamed
                exact absurd unnamed (numbered.holds_named held)
              · exact stored
            have final : ∃ report' m' segment', .ok report = (.ok report' : Except DecodeResult _) ∧
                u.Holds m' ∧ SentUnder report'.recipient.str report'.messageReference m' segment' ∧
                m'.deliveryStatus[segment']? = some report'.status := by
              refine ⟨report, _, segment, rfl, content, after, ?_⟩
              have bound : segment < 16 := by
                have under := sent.reference
                by_contra outside
                simp [outside] at under
              rw [status]
              simp [bound]
            simp only [emitReport]
            split
            · exact obeys_emit (may _ _ trivial) fun _ => final
            · split
              · exact obeys_emit (may _ _ trivial) fun _ => final
              · exact fun _ => final

theorem processAnyPdu_obeys (numbered : w.Numbered) :
    Obeys env.Step (DeletesStored pdu index w) (fun _ _ => True) (processAnyPdu pdu index) w := by
  have may (t : World) (c : ServiceCall) (inside : c.Local) : DeletesStored pdu index w t c :=
    .of_local inside
  simp only [processAnyPdu]
  cases kind : smsPduTypeDetect pdu with
  | deliver =>
      refine (processDeliverPdu_steps index numbered may ?_).mono fun _ _ _ => trivial
      exact fun t step => ⟨rfl, step.content numbered kind rfl⟩
  | unknown => trivial
  | statusReport =>
      refine Obeys.bind (Obeys.mono ?_ (processStatusReportPdu_obeys numbered may))
      intro result t stored
      cases result with
      | error e => trivial
      | ok _ =>
          refine deleteModemCopy_steps may ⟨rfl, ?_⟩ trivial
          simp only [ContentHeld, kind]
          exact stored rfl

end

/-- Persist before delete: whatever calls fail, every request that processing a
PDU sends to the modem deletes its index, and finds the content of the PDU in
the journal. -/
theorem modem_copy_deleted_after_persist (pdu : CStr) (index : Int) {w t : World}
    {trace : List (Entry World ServiceCall ServiceCall.Reply)} {result : Except EspErr Unit}
    (reached : w.store.Reached w.issued)
    (runs : Runs ServiceCall.Answers (processAnyPdu pdu index) w trace result t)
    (few : t.issued < idLimit) :
    ∀ entry ∈ trace, ∀ request, entry.request = .execute request →
      request = ⟨.cmgd index, none, none⟩ ∧ ContentHeld pdu w entry.before := by
  obtain ⟨bounded, start⟩ := runs_any runs few
  have obeys : Obeys anySurroundings.Step (DeletesStored pdu index w) (fun _ _ => True)
      (processAnyPdu pdu index) w := processAnyPdu_obeys (reached.numbered start)
  intro entry member request equal
  have stored := (obeys.runs bounded).2 entry member
  rw [equal] at stored
  exact stored

/-- A part of a two-part message with reference 7 and the text `A`. -/
def partPdu (part : UInt8) : CStr :=
  pduOf [0x00, 0x40, 0x04, 0x91, 0x21, 0x43, 0x00, 0x00, 0x42, 0x10, 0x10, 0x00, 0x00, 0x00, 0x00,
    0x08, 0x05, 0x00, 0x03, 0x07, 0x02, part, 0x82]

def ServiceCall.isExecute : ServiceCall → Bool
  | .execute _ => true
  | _ => false

theorem modem_copy_deleted_after_persist_first_part :
    let start : World := ⟨.empty, 0, []⟩
    let calls := Prog.trace ServiceCall.handle (processAnyPdu (partPdu 1) 5) start
    (calls.any fun entry => entry.request.isExecute) = true ∧
      ∀ entry ∈ calls, ∀ request, entry.request = .execute request →
        request = ⟨.cmgd 5, none, none⟩ ∧ ContentHeld (partPdu 1) start entry.before := by
  refine ⟨by decide +kernel, ?_⟩
  refine modem_copy_deleted_after_persist (partPdu 1) 5 .empty
    (runs_of_run ServiceCall.handle ServiceCall.handle_answers _ _) ?_
  decide +kernel

/-! Ids that are given out twice: an assembled message takes the id of one of its
own parts, and the deletion of the part removes the message. -/

def saveFaultless (message : SmsMessage) (s : Store) : Store :=
  (smsStoreSave message (Plan.faultless, s)).2.2

def deleteFaultless (id : UInt32) (s : Store) : Store :=
  (smsStoreDelete id (Plan.faultless, s)).2.2

def filledStore : Store :=
  saveFaultless (deliverRecord (smsDeliverDecode (partPdu 1)).2)
    (saveFaultless .zero (saveFaultless .zero .empty))

/-- Part 1 in slot 2 under id 3, with slots 0 and 1 free again. -/
def partStore : Store := deleteFaultless 2 (deleteFaultless 1 filledStore)

theorem Store.Reached.saveFaultless {s : Store} {n : Nat} (reached : s.Reached n)
    (message : SmsMessage) (known : message.id.toNat ≤ n) :
    (saveFaultless message s).Reached (n + Store.allocations s (saveFaultless message s)) :=
  reached.save message known Plan.faultless

theorem Store.Reached.deleteFaultless {s : Store} {n : Nat} (reached : s.Reached n) (id : UInt32) :
    (deleteFaultless id s).Reached n :=
  reached.delete id Plan.faultless

theorem partStore_reached : partStore.Reached 3 := by
  have two := (Store.Reached.empty.saveFaultless .zero (Nat.zero_le _)).saveFaultless .zero
    (Nat.zero_le _)
  have three := two.saveFaultless (deliverRecord (smsDeliverDecode (partPdu 1)).2) (Nat.zero_le _)
  have count : 0 + Store.allocations .empty (saveFaultless .zero .empty) +
      Store.allocations (saveFaultless .zero .empty)
        (saveFaultless .zero (saveFaultless .zero .empty)) +
      Store.allocations (saveFaultless .zero (saveFaultless .zero .empty))
        (saveFaultless (deliverRecord (smsDeliverDecode (partPdu 1)).2)
          (saveFaultless .zero (saveFaultless .zero .empty))) = 3 := by
    decide +kernel
  rw [count] at three
  exact (three.deleteFaultless 1).deleteFaultless 2

/-- The same journal once the id counter has wrapped to 2. -/
theorem partStore_wrapped : (partStore.withNext 2).Reached (2 ^ 32) := by
  have sound : partStore.Sound := (partStore_reached.numbered (by decide)).sound
  have free : partStore.freeSlot = some ⟨0, by decide⟩ := by decide +kernel
  have same : partStore.withNext 4 = partStore := by
    have counter : partStore.nextId = some 4 := by decide +kernel
    rw [Store.withNext, ← counter]
  have reached : (partStore.withNext 4).Reached 3 := by
    rw [same]
    exact partStore_reached
  have last := reached.advance sound free (by decide) (2 ^ 32 - 5) (by decide)
  have first := last.skip (sound.congr rfl) free
  exact first.skip (sound.congr rfl) free

/-- Only part 1 is stored. -/
def onlyFirstPart (w : World) : Bool :=
  allSlots.all fun slot => (w.store.view slot).all fun m =>
    m.status == .partialRecord && m.concat.partNumber == 1

theorem onlyFirstPart_not_content {start w : World} (only : onlyFirstPart w = true) :
    ¬ ContentHeld (partPdu 2) start w := by
  have each (m : SmsMessage) (held : w.Holds m) :
      m.status = .partialRecord ∧ m.concat.partNumber = 1 := by
    obtain ⟨slot, stored⟩ := held
    have here := List.all_eq_true.mp only slot (Store.mem_allSlots slot)
    simpa [stored] using here
  have kind : smsPduTypeDetect (partPdu 2) = .deliver := by decide +kernel
  have decoded : (smsDeliverDecode (partPdu 2)).1 = .ok := by decide +kernel
  have multipart : (smsDeliverDecode (partPdu 2)).2.concat.present = true := by decide +kernel
  have number : (smsDeliverDecode (partPdu 2)).2.concat.partNumber = 2 := by decide +kernel
  simp only [ContentHeld, kind, decoded, DeliverHeld, multipart, ↓reduceIte]
  rintro (⟨-, ⟨m, held, part, -⟩ | ⟨m, held, -, status, -⟩⟩ | ⟨unsupported, -⟩)
  · have same := ((isPartOf_iff _ _ _).mp part).2.2.2.2.2.1
    rw [number, (each m held).2] at same
    cases same
  · rw [(each m held).1] at status
    cases status
  · cases unsupported

theorem wrapped_id_loses_part :
    ¬ ∀ (pdu : CStr) (index : Int) (w t : World)
      (trace : List (Entry World ServiceCall ServiceCall.Reply)) (result : Except EspErr Unit),
      0 ≤ index → w.store.Reached w.issued →
      Runs ServiceCall.Answers (processAnyPdu pdu index) w trace result t →
      ∀ entry ∈ trace, ∀ request, entry.request = .execute request →
        ContentHeld pdu w entry.before := by
  intro claim
  let start : World := ⟨partStore.withNext 2, 2 ^ 32, []⟩
  have lost : ((Prog.trace ServiceCall.handle (processAnyPdu (partPdu 2) 5) start).any fun entry =>
      entry.request.isExecute && onlyFirstPart entry.before) = true := by
    decide +kernel
  obtain ⟨entry, member, both⟩ := List.any_eq_true.mp lost
  simp only [Bool.and_eq_true] at both
  have content := claim (partPdu 2) 5 start _ _ _ (by decide) partStore_wrapped
    (runs_of_run ServiceCall.handle ServiceCall.handle_answers _ _) entry member
  obtain ⟨before, request, reply⟩ := entry
  cases request with
  | execute request => exact onlyFirstPart_not_content both.2 (content request rfl)
  | _ => cases both.1

end SmsGateway
