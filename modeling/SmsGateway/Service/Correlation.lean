import SmsGateway.Codec.RoundTrip
import SmsGateway.Service.Serial

/-! Which record and segment a delivery report is about. -/

namespace SmsGateway

open Lib Prog

/-! The search for the newest message sent under a reference. -/

/-- The segment found by `sms_store_find_outbound_reference`: the first matching
one of the matching record with the highest id. -/
structure Store.Newest (s : Store) (recipient : CStr) (reference : UInt8) (m : SmsMessage)
    (i : Nat) : Prop where
  held : s.Holds m
  sent : SentUnder recipient reference m i
  newest : ∀ m', s.Holds m' → ∀ j, SentUnder recipient reference m' j → m'.id ≤ m.id
  first : ∀ j, SentUnder recipient reference m j → i ≤ j

section

variable {s : Store} {recipient : CStr} {reference : UInt8} {slot : Slot} {m : SmsMessage}

/-- The segment was sent under the reference. -/
def sentAs (reference : UInt8) (m : SmsMessage) (i : Nat) : Bool :=
  segmentBit m.segmentSentMask i && m.modemReference[i]? == some reference

theorem sentUnder_iff (outbound : m.direction = .outbound) (mine : m.recipient.str = recipient)
    (i : Nat) : SentUnder recipient reference m i ↔
      i < m.segmentCount.toNat ∧ sentAs reference m i = true := by
  simp only [sentAs, Bool.and_eq_true, beq_iff_eq]
  constructor
  · exact fun sent => ⟨sent.inside, sent.sent, sent.reference⟩
  · rintro ⟨inside, sent, same⟩
    exact ⟨outbound, mine, inside, sent, same⟩

/-- The inner loop takes the first matching segment of a newer record. -/
theorem visitSegments_eq (indices : List Nat) (best : Option (Slot × Nat) × UInt32) :
    indices.foldl (visitReference reference slot m) best =
      match indices.find? (sentAs reference m) with
      | some i => if best.1 = none ∨ m.id > best.2 then (some (slot, i), m.id) else best
      | none => best := by
  induction indices generalizing best with
  | nil => rfl
  | cons i rest ih =>
      rw [List.foldl_cons, ih, List.find?_cons]
      by_cases hit : sentAs reference m i = true
      · have parts := hit
        simp only [sentAs, Bool.and_eq_true, beq_iff_eq] at parts
        by_cases newer : best.1 = none ∨ m.id > best.2
        · simp only [visitReference, parts.1, parts.2, newer, and_self, ↓reduceIte, hit]
          split <;> simp
        · simp only [visitReference, newer, and_false, ↓reduceIte, hit]
          split <;> rfl
      · have misses : visitReference reference slot m best i = best := by
          simp only [visitReference]
          refine if_neg ?_
          rintro ⟨sent, same, -⟩
          simp [sentAs, sent, same] at hit
        rw [misses]
        simp only [hit]

/-- What the outer loop knows after some of the slots. -/
structure Leads (s : Store) (recipient : CStr) (reference : UInt8) (seen : List Slot)
    (best : Option (Slot × Nat) × UInt32) : Prop where
  empty : best.1 = none → ∀ slot ∈ seen, ∀ m, s.view slot = some m →
    ∀ j, ¬ SentUnder recipient reference m j
  leader : ∀ slot i, best.1 = some (slot, i) → ∃ m, s.view slot = some m ∧ best.2 = m.id ∧
    SentUnder recipient reference m i ∧ (∀ j, SentUnder recipient reference m j → i ≤ j) ∧
      ∀ other ∈ seen, ∀ m', s.view other = some m' →
        ∀ j, SentUnder recipient reference m' j → m'.id ≤ m.id

/-- A slot without a newer match changes nothing. -/
theorem Leads.skip {seen : List Slot} {best : Option (Slot × Nat) × UInt32}
    (leads : Leads s recipient reference seen best)
    (older : ∀ m, s.view slot = some m → ∀ j, SentUnder recipient reference m j →
      best.1 ≠ none ∧ m.id ≤ best.2) : Leads s recipient reference (seen ++ [slot]) best := by
  constructor
  · intro nothing other member m stored j sent
    rcases List.mem_append.mp member with member | member
    · exact leads.empty nothing other member m stored j sent
    · rw [List.mem_singleton.mp member] at stored
      exact (older m stored j sent).1 nothing
  · intro place i found
    obtain ⟨m, stored, sameId, sent, first, newest⟩ := leads.leader place i found
    refine ⟨m, stored, sameId, sent, first, ?_⟩
    intro other member m' stored' j sent'
    rcases List.mem_append.mp member with member | member
    · exact newest other member m' stored' j sent'
    · rw [List.mem_singleton.mp member] at stored'
      rw [← sameId]
      exact (older m' stored' j sent').2

theorem Leads.visit {seen : List Slot} {best : Option (Slot × Nat) × UInt32}
    (leads : Leads s recipient reference seen best) : Leads s recipient reference (seen ++ [slot])
      (visitOutbound recipient reference best slot (s.view slot)) := by
  cases stored : s.view slot with
  | none =>
      refine leads.skip fun m here => ?_
      cases stored.symm.trans here
  | some m =>
      simp only [visitOutbound]
      split
      · rename_i foreign
        refine leads.skip fun m' here j sent => ?_
        cases stored.symm.trans here
        rcases foreign with inbound | other
        · exact absurd sent.outbound inbound
        · exact absurd sent.recipient other
      · rename_i mine
        simp only [ne_eq, not_or, not_not] at mine
        rw [visitSegments_eq]
        cases found : (List.range m.segmentCount.toNat).find? (sentAs reference m) with
        | none =>
            refine leads.skip fun m' here j sent => ?_
            cases stored.symm.trans here
            obtain ⟨inside, hit⟩ := (sentUnder_iff mine.1 mine.2 j).mp sent
            exact absurd hit (List.find?_eq_none.mp found j (List.mem_range.mpr inside))
        | some i =>
            obtain ⟨hit, below, earlier⟩ := List.find?_range_eq_some.mp found
            have first (j : Nat) (sent : SentUnder recipient reference m j) : i ≤ j := by
              obtain ⟨-, hitToo⟩ := (sentUnder_iff mine.1 mine.2 j).mp sent
              rcases Nat.lt_or_ge j i with smaller | larger
              · have miss := earlier j smaller
                rw [hitToo] at miss
                cases miss
              · exact larger
            dsimp only
            split
            · rename_i newer
              constructor
              · intro nothing
                cases nothing
              · intro place index equal
                cases equal
                refine ⟨m, stored, rfl, (sentUnder_iff mine.1 mine.2 i).mpr ⟨?_, hit⟩, first, ?_⟩
                · exact List.mem_range.mp below
                · intro other member m' stored' j sent
                  rcases List.mem_append.mp member with member | member
                  · rcases newer with nothing | newer
                    · exact absurd sent (leads.empty nothing other member m' stored' j)
                    · cases old : best.1 with
                      | none => exact absurd sent (leads.empty old other member m' stored' j)
                      | some found =>
                          obtain ⟨old', -, sameId, -, -, newest⟩ :=
                            leads.leader found.1 found.2 old
                          have bound := newest other member m' stored' j sent
                          rw [sameId] at newer
                          exact UInt32.le_of_lt (UInt32.lt_of_le_of_lt bound newer)
                  · rw [List.mem_singleton.mp member, stored] at stored'
                    cases stored'
                    exact UInt32.le_refl _
            · rename_i older
              simp only [not_or, gt_iff_lt, UInt32.not_lt] at older
              refine leads.skip fun m' here j sent => ?_
              cases stored.symm.trans here
              exact older

theorem leads_newestReference (s : Store) (recipient : CStr) (reference : UInt8) :
    Leads s recipient reference allSlots (allSlots.foldl
      (fun best slot => visitOutbound recipient reference best slot (s.view slot)) (none, 0)) := by
  have scan (rest : List Slot) : ∀ (seen : List Slot) (best : Option (Slot × Nat) × UInt32),
      Leads s recipient reference seen best → Leads s recipient reference (seen ++ rest)
        (rest.foldl (fun best slot => visitOutbound recipient reference best slot (s.view slot))
          best) := by
    induction rest with
    | nil =>
        intro seen best leads
        rw [List.append_nil]
        exact leads
    | cons slot rest ih =>
        intro seen best leads
        rw [List.foldl_cons, List.append_cons]
        exact ih _ _ leads.visit
  have start : Leads s recipient reference [] (none, 0) := by
    constructor
    · intro _ slot member
      cases member
    · intro slot i equal
      cases equal
  exact scan allSlots [] (none, 0) start

/-- The search finds a newest segment if any segment matches. -/
theorem Store.newestReference_newest {i : Nat}
    (found : s.newestReference recipient reference = some (slot, i)) :
    ∃ m, s.view slot = some m ∧ s.Newest recipient reference m i := by
  obtain ⟨m, stored, -, sent, first, newest⟩ :=
    (leads_newestReference s recipient reference).leader slot i found
  refine ⟨m, stored, ⟨slot, stored⟩, sent, ?_, first⟩
  rintro m' ⟨other, stored'⟩ j sent'
  exact newest other (Store.mem_allSlots other) m' stored' j sent'

theorem Store.newestReference_none (nothing : s.newestReference recipient reference = none)
    (held : s.Holds m) (i : Nat) : ¬ SentUnder recipient reference m i := by
  obtain ⟨slot, stored⟩ := held
  exact (leads_newestReference s recipient reference).empty nothing slot (Store.mem_allSlots slot) m
    stored i

theorem Store.Newest.unique {n : Nat} (numbered : s.Numbered n) {m' : SmsMessage} {i j : Nat}
    (newest : s.Newest recipient reference m i) (other : s.Newest recipient reference m' j) :
    m = m' ∧ i = j := by
  have below := other.newest m newest.held i newest.sent
  have above := newest.newest m' other.held j other.sent
  have same : m = m' := numbered.id_inj newest.held other.held (UInt32.le_antisymm below above)
  subst same
  exact ⟨rfl, Nat.le_antisymm (newest.first j other.sent) (other.first i newest.sent)⟩

end

/-! Delivery reports. -/

/-- The octets of an SMS-STATUS-REPORT with this reference and status, about a
message to this recipient. -/
inductive ReportOctets (recipient : CStr) (reference status : UInt8) : List UInt8 → Prop where
  | mk {smsc : List UInt8} {first : UInt8} {address : PduBuffer}
      {serviceCenter discharge rest : List UInt8} (smscLength : smsc.length < 256)
      (kind : first &&& 0x03 = 0x02) (encoded : addressEncode .empty recipient = some address)
      (serviceCenterLength : serviceCenter.length = 7) (dischargeLength : discharge.length = 7)
      (serviceCenterTime : (timestampDecode serviceCenter 40).isSome = true)
      (dischargeTime : (timestampDecode discharge 40).isSome = true) :
      ReportOctets recipient reference status
        ((UInt8.ofNat smsc.length :: smsc) ++ first :: reference :: (address.bytes ++
          (serviceCenter ++ (discharge ++ status :: rest))))

theorem drop_append_length {α : Type} (front back : List α) {n : Nat} (length : n = front.length) :
    (front ++ back).drop n = back := by
  rw [length, List.drop_left]

theorem getD_append_length {α : Type} (front back : List α) (next default : α) {n : Nat}
    (length : n = front.length) : (front ++ next :: back).getD n default = next := by
  subst length
  simp [List.getD_eq_getElem?_getD]

/-- A timestamp is read from its seven octets. -/
theorem timestampDecode_append {data : List UInt8} (rest : List UInt8) (length : data.length = 7)
    (capacity : Nat) : timestampDecode (data ++ rest) capacity = timestampDecode data capacity := by
  have at_ (i : Nat) (inside : i < 7) : (data ++ rest).getD i 0 = data.getD i 0 := by
    rw [List.getD_eq_getElem?_getD, List.getD_eq_getElem?_getD,
      List.getElem?_append_left (by omega)]
  have enough : ¬ ((data ++ rest).length < 7) := by
    rw [List.length_append]
    omega
  have exact_ : ¬ (data.length < 7) := by omega
  simp only [timestampDecode, enough, exact_, at_ 0 (by omega), at_ 1 (by omega), at_ 2 (by omega),
    at_ 3 (by omega), at_ 4 (by omega), at_ 5 (by omega), at_ 6 (by omega)]

/-- The decoder on octets with these fields at their places. -/
theorem smsStatusReportDecode_fields {pdu : CStr} {octets address serviceCenter discharge : List UInt8}
    {smscLength digits : Nat} {first toa : UInt8} (hex : hexDecode pdu smsMaxPduOctets = .ok octets)
    (smsc : (octets.getD 0 0).toNat = smscLength)
    (firstAt : octets.getD (1 + smscLength) 0 = first) (kind : first &&& 0x03 = 0x02)
    (digitsAt : (octets.getD (2 + smscLength + 1) 0).toNat = digits)
    (toaAt : octets.getD (2 + smscLength + 2) 0 = toa)
    (addressAt : addressDecode (octets.drop (2 + smscLength + 3)) digits toa 24 = (true, address))
    (serviceCenterAt : timestampDecode (octets.drop (2 + smscLength + 3 + (digits + 1) / 2)) 40 =
      some serviceCenter)
    (dischargeAt : timestampDecode (octets.drop (2 + smscLength + 3 + (digits + 1) / 2 + 7)) 40 =
      some discharge)
    (long : 2 + smscLength + 3 + (digits + 1) / 2 + 15 ≤ octets.length) :
    smsStatusReportDecode pdu = .ok {
      messageReference := octets.getD (2 + smscLength) 0
      recipient := .ofBytes address
      serviceCenterTimestamp := .ofBytes serviceCenter
      dischargeTimestamp := .ofBytes discharge
      status := octets.getD (2 + smscLength + 3 + (digits + 1) / 2 + 14) 0
      delivered := octets.getD (2 + smscLength + 3 + (digits + 1) / 2 + 14) 0 < 0x20 } := by
  have twoOctets : ¬ octets.length < 2 := by omega
  have smscInside : ¬ 1 + smscLength ≥ octets.length := by omega
  have headInside : ¬ 2 + smscLength + 3 > octets.length := by omega
  have timesInside : ¬ 2 + smscLength + 3 + (digits + 1) / 2 + 15 > octets.length := by omega
  have statusInside : ¬ 2 + smscLength + 3 + (digits + 1) / 2 + 14 ≥ octets.length := by omega
  simp only [smsStatusReportDecode, hex, Bind.bind, Except.bind, twoOctets, smsc, smscInside, firstAt,
    kind, ne_eq, not_true_eq_false, headInside, or_self, digitsAt, toaAt, addressAt, timesInside,
    Bool.not_true, Bool.false_eq_true, serviceCenterAt, dischargeAt, statusInside, ↓reduceIte]

/-- What the decoder reads from such a report. -/
theorem smsStatusReportDecode_octets {pdu recipient : CStr} {reference status : UInt8}
    {octets : List UInt8} (hex : hexDecode pdu smsMaxPduOctets = .ok octets)
    (reports : ReportOctets recipient reference status octets) :
    ∃ report, smsStatusReportDecode pdu = .ok report ∧ report.recipient.str = recipient ∧
      report.messageReference = reference ∧ report.status = status ∧
      report.delivered = decide (status < 0x20) := by
  obtain ⟨smscLength, kind, encoded, serviceCenterLength, dischargeLength, serviceCenterTime,
    dischargeTime⟩ := reports
  rename_i smsc first address serviceCenter discharge rest
  obtain ⟨digits, international, valid, bytes⟩ := addressEncode_bytes encoded
  obtain ⟨split, few, -⟩ := addressValidate_some valid
  obtain ⟨serviceCenterText, readServiceCenter⟩ := Option.isSome_iff_exists.mp serviceCenterTime
  obtain ⟨dischargeText, readDischarge⟩ := Option.isSome_iff_exists.mp dischargeTime
  have digitCount : (UInt8.ofNat digits.length).toNat = digits.length := by
    rw [UInt8.toNat_ofNat']
    omega
  have smscCount : (UInt8.ofNat smsc.length).toNat = smsc.length := by
    rw [UInt8.toNat_ofNat']
    omega
  simp only [PduBuffer.empty, List.nil_append] at bytes
  rw [bytes] at hex
  generalize toaIs : (if international then (0x91 : UInt8) else 0x81) = toa at hex
  generalize frontIs : UInt8.ofNat smsc.length :: smsc = front at hex
  have frontLength : front.length = 1 + smsc.length := by
    rw [← frontIs, List.length_cons, Nat.add_comm]
  have semiLength := semiOctets_length digits
  obtain ⟨octets, octetsEq⟩ : ∃ octets, octets = front ++ first :: reference ::
      (UInt8.ofNat digits.length :: toa :: semiOctets digits ++
        (serviceCenter ++ (discharge ++ status :: rest))) := ⟨_, rfl⟩
  rw [← octetsEq] at hex
  -- Each field stands right after what is before it.
  have smscAt : (octets.getD 0 0).toNat = smsc.length := by
    rw [octetsEq, ← frontIs]
    exact smscCount
  have firstAt : octets.getD (1 + smsc.length) 0 = first := by
    rw [octetsEq]
    exact getD_append_length front _ first 0 frontLength.symm
  have referenceAt : octets.getD (2 + smsc.length) 0 = reference := by
    have same : octets = (front ++ [first]) ++ reference ::
        (UInt8.ofNat digits.length :: toa :: semiOctets digits ++
          (serviceCenter ++ (discharge ++ status :: rest))) := by
      simp [octetsEq]
    rw [same]
    exact getD_append_length _ _ reference 0 (by simp [frontLength]; omega)
  have digitsAt : (octets.getD (2 + smsc.length + 1) 0).toNat = digits.length := by
    have same : octets = (front ++ [first, reference]) ++ UInt8.ofNat digits.length ::
        (toa :: semiOctets digits ++ (serviceCenter ++ (discharge ++ status :: rest))) := by
      simp [octetsEq]
    rw [same, getD_append_length _ _ (UInt8.ofNat digits.length) 0 (by simp [frontLength]; omega)]
    exact digitCount
  have toaAt : octets.getD (2 + smsc.length + 2) 0 = toa := by
    have same : octets = (front ++ [first, reference, UInt8.ofNat digits.length]) ++ toa ::
        (semiOctets digits ++ (serviceCenter ++ (discharge ++ status :: rest))) := by
      simp [octetsEq]
    rw [same]
    exact getD_append_length _ _ toa 0 (by simp [frontLength]; omega)
  have addressFrom : octets.drop (2 + smsc.length + 3) =
      semiOctets digits ++ (serviceCenter ++ (discharge ++ status :: rest)) := by
    have same : octets = (front ++ [first, reference, UInt8.ofNat digits.length, toa]) ++
        (semiOctets digits ++ (serviceCenter ++ (discharge ++ status :: rest))) := by
      simp [octetsEq]
    rw [same]
    exact drop_append_length _ _ (by simp [frontLength]; omega)
  have serviceCenterFrom : octets.drop (2 + smsc.length + 3 + (digits.length + 1) / 2) =
      serviceCenter ++ (discharge ++ status :: rest) := by
    rw [← List.drop_drop, addressFrom]
    exact drop_append_length _ _ semiLength.symm
  have dischargeFrom : octets.drop (2 + smsc.length + 3 + (digits.length + 1) / 2 + 7) =
      discharge ++ status :: rest := by
    rw [← List.drop_drop, serviceCenterFrom]
    exact drop_append_length _ _ serviceCenterLength.symm
  have statusFrom : octets.drop (2 + smsc.length + 3 + (digits.length + 1) / 2 + 14) =
      status :: rest := by
    rw [show 2 + smsc.length + 3 + (digits.length + 1) / 2 + 14 =
      2 + smsc.length + 3 + (digits.length + 1) / 2 + 7 + 7 by omega, ← List.drop_drop,
      dischargeFrom]
    exact drop_append_length _ _ dischargeLength.symm
  have statusAt : octets.getD (2 + smsc.length + 3 + (digits.length + 1) / 2 + 14) 0 = status := by
    have here := congrArg List.head? statusFrom
    rw [List.head?_drop] at here
    rw [List.getD_eq_getElem?_getD, here]
    rfl
  have decoded := smsStatusReportDecode_fields hex smscAt firstAt kind digitsAt toaAt
    (by rw [addressFrom, ← toaIs]; exact addressDecode_semiOctets valid _ (by decide))
    (by rw [serviceCenterFrom, timestampDecode_append _ serviceCenterLength]
        exact readServiceCenter)
    (by rw [dischargeFrom, timestampDecode_append _ dischargeLength]
        exact readDischarge)
    (by
      simp only [octetsEq, List.length_append, List.length_cons, frontLength, semiLength,
        serviceCenterLength, dischargeLength]
      omega)
  rw [referenceAt, statusAt] at decoded
  refine ⟨_, decoded, ?_, rfl, rfl, rfl⟩
  have short : recipient.length < 24 := by
    rw [CStr.length, split]
    split <;> simp <;> omega
  exact CString.ofBytes_str short

/-- A record in which only this segment and the status differ, as a report with
this status octet asks for. -/
structure SegmentUpdated (m new : SmsMessage) (i : Nat) (status : UInt8) : Prop where
  rest : new = { m with
    deliveryStatus := new.deliveryStatus
    segmentDeliveredMask := new.segmentDeliveredMask
    segmentFailedMask := new.segmentFailedMask
    status := new.status }
  deliveryStatus : ∀ j, new.deliveryStatus[j]? = if j = i then some status else m.deliveryStatus[j]?
  delivered : ∀ j, segmentBit new.segmentDeliveredMask j =
    (segmentBit m.segmentDeliveredMask j || decide (j = i ∧ status < 0x20))
  failed : ∀ j, segmentBit new.segmentFailedMask j =
    (segmentBit m.segmentFailedMask j || decide (j = i ∧ 0x40 ≤ status))

theorem applyReport_updates {m : SmsMessage} {i : Nat} (inside : i < 16) {report : SmsStatusReport}
    (kind : report.delivered = decide (report.status < 0x20)) :
    SegmentUpdated m (applyReport m i report) i report.status := by
  constructor
  · simp only [applyReport]
    repeat' split
    all_goals rfl
  · intro j
    have written : (applyReport m i report).deliveryStatus =
        m.deliveryStatus.setIfInBounds i report.status := by
      simp only [applyReport]
      repeat' split
      all_goals rfl
    rw [written, Vector.getElem?_setIfInBounds]
    by_cases same : j = i
    · subst same
      simp [inside]
    · have differs : i ≠ j := fun equal => same equal.symm
      simp [same, differs]
  · intro j
    rw [applyReport_deliveredMask, kind]
    split
    · rename_i low
      rw [segmentBit_or _ inside]
      simp only [decide_eq_true_eq] at low
      simp [low]
    · rename_i high
      simp only [decide_eq_true_eq] at high
      simp [high]
  · intro j
    rw [applyReport_failedMask, kind]
    split
    · rename_i high
      rw [segmentBit_or _ inside]
      simp [show (0x40 : UInt8) ≤ report.status from high.2]
    · rename_i low
      have below : ¬ (0x40 : UInt8) ≤ report.status := by
        intro high
        refine low ⟨?_, high⟩
        simp only [decide_eq_true_eq, UInt8.not_lt]
        exact UInt8.le_trans (by decide) high
      simp [below]

section

variable {env : Surroundings} {w : World} {recipient : CStr} {reference : UInt8} {m : SmsMessage}
  {i : Nat}

/-- What the service's search returns is a newest segment. -/
theorem performs_findOutbound_ok {t : World} {reply : Except EspErr (SmsMessage × Nat)}
    (sound : w.store.Sound)
    (performs : w.Performs (smsStoreFindOutboundReference recipient reference) reply t)
    (found : reply = .ok (m, i)) : w.store.Newest recipient reference m i := by
  obtain ⟨-, outcome⟩ := performs.of_reads
    (smsStoreFindOutboundReference_reads sound recipient reference)
  subst found
  rcases outcome with equal | ⟨code, equal⟩
  · cases search : w.store.newestReference recipient reference with
    | none =>
        rw [search] at equal
        cases equal
    | some place =>
        obtain ⟨slot, index⟩ := place
        obtain ⟨m', stored, newest⟩ := Store.newestReference_newest search
        simp only [search, stored, Option.getD_some] at equal
        cases equal
        exact newest
  · cases equal

/-- The service's search finds a newest segment, unless the flash fails. -/
theorem performs_findOutbound_newest {t : World} {reply : Except EspErr (SmsMessage × Nat)}
    (numbered : w.Numbered) (newest : w.store.Newest recipient reference m i)
    (performs : w.Performs (smsStoreFindOutboundReference recipient reference) reply t) :
    t = w ∧ (reply = .ok (m, i) ∨ ∃ code, reply = .error (.nvs code)) := by
  obtain ⟨same, outcome⟩ := performs.of_reads
    (smsStoreFindOutboundReference_reads numbered.sound recipient reference)
  refine ⟨same, ?_⟩
  rcases outcome with equal | failed
  · left
    cases found : w.store.newestReference recipient reference with
    | none => exact absurd newest.sent (Store.newestReference_none found newest.held i)
    | some place =>
        obtain ⟨slot, index⟩ := place
        obtain ⟨m', stored, other⟩ := Store.newestReference_newest found
        obtain ⟨rfl, rfl⟩ := newest.unique numbered other
        simpa only [found, stored, Option.getD_some] using equal
  · exact .inr failed

/-- The records after a report: one segment of one record is updated, or nothing
changed because a call failed. -/
def ReportOutcome (env : Surroundings) (w : World) (m : SmsMessage) (i : Nat) (status : UInt8)
    (result : Except EspErr Unit) (t : World) : Prop :=
  (∃ new, SegmentUpdated m new i status ∧
    (∀ r, t.Holds r ↔ r = new ∨ w.Holds r ∧ r.id ≠ m.id) ∧ (result = .ok () ∨ env.mayFail)) ∨
  (env.mayFail ∧ ∀ r, t.Holds r ↔ w.Holds r)

theorem processStatusReportPdu_outcome {pdu : CStr} {report : SmsStatusReport}
    (numbered : w.Numbered) (decoded : smsStatusReportDecode pdu = .ok report)
    (kind : report.delivered = decide (report.status < 0x20))
    (newest : w.store.Newest report.recipient.str report.messageReference m i) :
    Obeys env.Step (fun _ _ => True) (ReportOutcome env w m i report.status)
      (processStatusReportPdu pdu) w := by
  have inside : i < 16 :=
    Nat.lt_of_lt_of_le newest.sent.inside (holds_segmentCount newest.held)
  simp only [processStatusReportPdu, decoded]
  refine obeys_allocate trivial ?_ fun mayFail => .inr ⟨mayFail, fun r => .rfl⟩
  refine Obeys.send trivial ?_
  rintro reply t ⟨answers, -, fails, -⟩
  obtain ⟨rfl, rfl | ⟨code, rfl⟩⟩ := performs_findOutbound_newest numbered newest answers
  · have same := (applyReport_keeps m i report).id
    have known : (applyReport m i report).id.toNat ≤ t.issued := by
      rw [same]
      exact numbered.holds_known newest.held
    have named : (applyReport m i report).id ≠ 0 := by
      rw [same]
      exact numbered.holds_named newest.held
    refine Obeys.bind (obeys_save numbered known trivial ?_)
    rintro ⟨result, back⟩ after wrote effect - mayFail -
    have outcome : ReportOutcome env t m i report.status result after := by
      cases effect with
      | kept unchanged returned => exact .inr ⟨mayFail ⟨_, rfl⟩, unchanged⟩
      | lost unnamed full prunable rest returned => exact absurd unnamed named
      | added unnamed storable prunable rest returned => exact absurd unnamed named
      | replaced _ storable rest first returned =>
          refine .inl ⟨_, applyReport_updates inside kind, ?_, ?_⟩
          · intro r
            rw [← same]
            exact rest r
          · rcases returned with rfl | ⟨code, rfl⟩
            · exact .inl rfl
            · exact .inr (mayFail ⟨_, rfl⟩)
    cases result with
    | error e => exact outcome
    | ok _ =>
        simp only [Obeys, pure_eq, emitReport]
        split
        · exact ⟨trivial, fun _ _ answered => by obtain ⟨rfl, -⟩ := answered; exact outcome⟩
        · split
          · exact ⟨trivial, fun _ _ answered => by obtain ⟨rfl, -⟩ := answered; exact outcome⟩
          · exact outcome
  · have mayFail : env.mayFail := fails ⟨_, rfl, by simp⟩
    exact .inr ⟨mayFail, fun r => .rfl⟩

end

/-- A report reaches the segment it is about: the only segment of its message under
the reference, when no newer message to the recipient has one. -/
theorem report_updates_segment {env : Surroundings} {w t : World} {pdu recipient : CStr}
    {reference status : UInt8} {octets : List UInt8} {m : SmsMessage} {i : Nat}
    {trace : List (Entry World ServiceCall ServiceCall.Reply)} {result : Except EspErr Unit}
    (reached : w.store.Reached w.issued) (held : w.Holds m)
    (sent : SentUnder recipient reference m i)
    (alone : ∀ j, SentUnder recipient reference m j → j = i)
    (newest : ∀ newer, w.Holds newer → m.id < newer.id → ∀ j,
      ¬ SentUnder recipient reference newer j)
    (hex : hexDecode pdu smsMaxPduOctets = .ok octets)
    (reports : ReportOctets recipient reference status octets)
    (runs : Runs env.Meets (processStatusReportPdu pdu) w trace result t)
    (few : t.issued < idLimit) : ReportOutcome env w m i status result t := by
  obtain ⟨runsFew, room⟩ := runs_few runs few
  have numbered : w.Numbered := reached.numbered room
  obtain ⟨report, decoded, sameRecipient, sameReference, sameStatus, kind⟩ :=
    smsStatusReportDecode_octets hex reports
  have found : w.store.Newest report.recipient.str report.messageReference m i := by
    rw [sameRecipient, sameReference]
    refine ⟨held, sent, ?_, fun j other => (alone j other).ge⟩
    intro other heldOther j sentOther
    rcases UInt32.lt_or_le m.id other.id with newer | older
    · exact absurd sentOther (newest other heldOther newer j)
    · exact older
  rw [← sameStatus] at kind ⊢
  exact ((processStatusReportPdu_outcome numbered decoded kind found).runs runsFew).1

/-- A message to `+123` was sent under the reference 7. -/
def afterSent : World :=
  [arriveShort, .client (.delete 1), sendShort, .task .outbound].foldl
    (fun w operation => (Prog.run ServiceCall.confirm operation.program w).2)
    (Prog.run ServiceCall.confirm restartProgram ⟨.empty, 0, []⟩).2

/-- The report that `+123` got the message with the reference 7. -/
def reportPdu : CStr := .text "000607039121F3421041214365004210412143650000"

theorem reached_afterSent : Serial.Reached ⟨afterSent, .done ()⟩ := by
  have booted := Serial.Reached.start.steps (Serial.runs restartProgram _)
  have arrived := booted.steps (Serial.performs arriveShort _)
  have deleted := arrived.steps (Serial.performs (.client (.delete 1)) _)
  have queued := deleted.steps (Serial.performs sendShort _)
  exact queued.steps (Serial.performs (.task .outbound) _)

theorem reportPdu_octets : ∃ octets, hexDecode reportPdu smsMaxPduOctets = .ok octets ∧
    ReportOctets (.text "+123") 7 0 octets := by
  have address : (addressEncode .empty (.text "+123")).map PduBuffer.bytes =
      some [0x03, 0x91, 0x21, 0xF3] := by
    decide +kernel
  obtain ⟨buffer, encoded, bytes⟩ := Option.map_eq_some_iff.mp address
  have reports := @ReportOctets.mk (.text "+123") 7 0 [] 0x06 buffer
    [0x42, 0x10, 0x41, 0x21, 0x43, 0x65, 0x00] [0x42, 0x10, 0x41, 0x21, 0x43, 0x65, 0x00] []
    (by decide) (by decide) encoded rfl rfl (by decide +kernel) (by decide +kernel)
  rw [bytes] at reports
  exact ⟨_, by decide +kernel, reports⟩

/-- A message of one segment, sent to `+123` under the reference 7. -/
def sentShort : SmsMessage :=
  { queuedRecord (.text "+123") (.text "A") true 1 .gsm7 1 with
    status := .sent
    sendAttempts := 1
    segmentSentMask := 1
    modemReference := (Vector.replicate 16 0xFF).setIfInBounds 0 7 }

def sentWorld : World := ⟨(smsStoreSave sentShort (Plan.faultless, .empty)).2.2, 1, []⟩

theorem reached_sentWorld : sentWorld.store.Reached sentWorld.issued := by
  have saved := Store.Reached.empty.save sentShort (by decide) Plan.faultless
  have one : Store.allocations .empty (smsStoreSave sentShort (Plan.faultless, .empty)).2.2 =
      1 := by
    decide +kernel
  rw [one] at saved
  exact saved

theorem report_updates_segment_short :
    ∃ (t : World) (new : SmsMessage), SegmentUpdated (sentShort.withId 1) new 0 0 ∧
      ∀ r, t.Holds r ↔ r = new ∨ sentWorld.Holds r ∧ r.id ≠ 1 := by
  have stored : sentWorld.store.view firstSlot = some (sentShort.withId 1) := by decide +kernel
  have others : ∀ slot, slot ≠ firstSlot → sentWorld.store.view slot = none := by decide +kernel
  have single (m : SmsMessage) (held : sentWorld.Holds m) : m = sentShort.withId 1 := by
    obtain ⟨slot, here⟩ := held
    by_cases first : slot = firstSlot
    · subst first
      exact (Option.some.inj (stored.symm.trans here)).symm
    · cases (others slot first).symm.trans here
  have sent : SentUnder (.text "+123") 7 (sentShort.withId 1) 0 :=
    ⟨rfl, by decide +kernel, by decide, by decide, by decide⟩
  have alone (j : Nat) (other : SentUnder (.text "+123") 7 (sentShort.withId 1) j) : j = 0 := by
    have inside := other.inside
    have one : (sentShort.withId 1).segmentCount.toNat = 1 := rfl
    omega
  have newest (newer : SmsMessage) (held : sentWorld.Holds newer)
      (larger : (sentShort.withId 1).id < newer.id) (j : Nat) :
      ¬ SentUnder (.text "+123") 7 newer j := by
    rw [single newer held] at larger
    exact absurd larger (UInt32.lt_irrefl _)
  obtain ⟨octets, hex, reports⟩ := reportPdu_octets
  have runs := runs_undisturbed ⟨False, False⟩ (processStatusReportPdu reportPdu) sentWorld
    (by decide +kernel)
  have few : (Prog.run ServiceCall.handle (processStatusReportPdu reportPdu) sentWorld).2.issued <
      idLimit := by
    decide +kernel
  rcases report_updates_segment reached_sentWorld ⟨firstSlot, stored⟩ sent alone newest hex reports runs few
    with ⟨new, updated, records, -⟩ | ⟨impossible, -⟩
  · exact ⟨_, new, updated, records⟩
  · exact impossible.elim

/-- Another message is sent the same way when the next id is 1. -/
def afterWrapped : World :=
  (Prog.run ServiceCall.confirm (Operation.task .outbound).program
    (Prog.run ServiceCall.confirm sendShort.program ⟨afterSent.store.withNext 1, 0, []⟩).2).2

def secondSlot : Slot := 1

/-- The records around that message: the older one has the id 2, the new one the id 1, and
a report on the reference 7 leaves the new one as it is. -/
theorem afterWrapped_records :
    (allSlots.all fun slot => (afterSent.store.view slot).all fun m => m.id == 2) = true ∧
    (afterSent.store.view firstSlot).any (fun m => m.id == 2) = true ∧
    (afterWrapped.store.view secondSlot).any (fun m => m.id == 1 &&
      m.direction == .outbound && m.recipient.str == .text "+123" && m.segmentCount == 1 &&
      segmentBit m.segmentSentMask 0 && m.modemReference[0]? == some 7) = true ∧
    (allSlots.all fun slot => slot == secondSlot ||
      (afterWrapped.store.view slot).all fun m => m.id == 2) = true ∧
    (allSlots.all fun slot => ((Prog.run ServiceCall.confirm
      (processStatusReportPdu reportPdu) afterWrapped).2.store.view slot).all fun m =>
        m.id == 2 || !segmentBit m.segmentDeliveredMask 0) = true := by
  -- One evaluation, since each journal is computed from the one before.
  decide +kernel

/-- The message sent last is missed: once the ids start again it has a smaller id
than an older message under the same reference. And without memory no message is
found. -/
theorem report_misses_segment :
    (∃ (w t : World) (m : SmsMessage), Serial.Reached ⟨w, .done ()⟩ ∧
      Relation.ReflTransGen Serial.Step ⟨w, .done ()⟩ ⟨t, .done ()⟩ ∧
      (∀ old, w.Holds old → old.id ≠ m.id) ∧ t.Holds m ∧ SentUnder (.text "+123") 7 m 0 ∧
      m.segmentCount = 1 ∧ (∀ r, t.Holds r → r ≠ m → ∃ old, w.Holds old ∧ old.id = r.id) ∧
      ∀ r, (Prog.run ServiceCall.confirm (processStatusReportPdu reportPdu) t).2.Holds r →
        r.id = m.id → segmentBit r.segmentDeliveredMask 0 = false) ∧
    ∃ trace, Runs ServiceCall.Answers (processStatusReportPdu reportPdu) sentWorld trace
      (.error .noMem) sentWorld := by
  constructor
  · have cyclable : afterSent.store.cyclable 3 = true := by decide +kernel
    obtain ⟨w, store, reached⟩ := wrap_cyclable cyclable (by decide) (by decide) reached_afterSent
    have queued := run_confirm_store sendShort.program
      (show w.store = (World.mk (afterSent.store.withNext 1) 0 []).store from store)
    have sent := run_confirm_store (Operation.task .outbound).program queued.2
    have steps := (Serial.performs sendShort w).trans (Serial.performs (.task .outbound) _)
    generalize (Prog.run ServiceCall.confirm (Operation.task .outbound).program
      (Prog.run ServiceCall.confirm sendShort.program w).2).2 = t at sent steps
    have same : t.store = afterWrapped.store := by
      rw [afterWrapped]
      exact sent.2
    have reported := (run_confirm_store (processStatusReportPdu reportPdu) same).2
    obtain ⟨older, first, second, others, missed⟩ := afterWrapped_records
    have view : w.store.view = afterSent.store.view := by
      rw [store, Store.view_withNext]
    generalize (Prog.run ServiceCall.confirm (processStatusReportPdu reportPdu)
      afterWrapped).2.store = last at reported missed
    generalize afterWrapped.store = between at same second others
    generalize afterSent.store = start at view older first
    rw [Option.any_eq_true] at second first
    obtain ⟨m, stored, fits⟩ := second
    obtain ⟨old, storedOld, two⟩ := first
    simp only [Bool.and_eq_true, beq_iff_eq] at fits two
    simp only [List.all_eq_true, Option.all_eq_true, Bool.or_eq_true, beq_iff_eq,
      Bool.not_eq_true'] at older others missed
    obtain ⟨⟨⟨⟨⟨one, outbound⟩, recipient⟩, count⟩, bit⟩, reference⟩ := fits
    refine ⟨w, t, m, reached, steps, ?_, ⟨secondSlot, by rw [same]; exact stored⟩,
      ⟨outbound, recipient, by rw [count]; decide, bit, reference⟩, count, ?_, ?_⟩
    · rintro r ⟨slot, here⟩
      rw [view] at here
      rw [older slot (Store.mem_allSlots slot) r here, one]
      decide
    · rintro r ⟨slot, here⟩ different
      rw [same] at here
      rcases others slot (Store.mem_allSlots slot) with rfl | twos
      · exact absurd (Option.some.inj (here.symm.trans stored)) different
      · exact ⟨old, ⟨firstSlot, by rw [view]; exact storedOld⟩, two.trans (twos r here).symm⟩
    · rintro r ⟨slot, here⟩ sameId
      rw [reported] at here
      rcases missed slot (Store.mem_allSlots slot) r here with two' | clear
      · rw [sameId, one] at two'
        exact absurd two' (by decide)
      · exact clear
  · have decoded : ∃ report, smsStatusReportDecode reportPdu = .ok report := by
      obtain ⟨octets, hex, reports⟩ := reportPdu_octets
      obtain ⟨report, decoded, -⟩ := smsStatusReportDecode_octets hex reports
      exact ⟨report, decoded⟩
    obtain ⟨report, decoded⟩ := decoded
    simp only [processStatusReportPdu, decoded]
    exact ⟨_, .call (show ServiceCall.Answers sentWorld .alloc false sentWorld from rfl) .done⟩

end SmsGateway