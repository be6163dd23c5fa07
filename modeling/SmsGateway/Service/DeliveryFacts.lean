import SmsGateway.Service.Deliveries

/-! What the steps of a delivery keep, remove and add. -/

namespace SmsGateway

open Lib

/-- The texts of these records, one after another. -/
def joinedText (stored : List SmsMessage) : List UInt8 :=
  (stored.map fun m => m.text.str.bytes).flatten

theorem toNat_partNumber {total : UInt8} {k : Nat} (inside : k < total.toNat) :
    (UInt8.ofNat (k + 1)).toNat = k + 1 := by
  have bound := total.toNat_lt
  simp only [UInt8.toNat_ofNat']
  omega

theorem PartFound.holds {w : World} {deliver : SmsDeliver} {part : UInt8} {m : SmsMessage}
    (found : PartFound w deliver part m) : w.Holds m := by
  obtain ⟨slot, stored, -⟩ := Store.recordWhere_some found
  exact ⟨slot, stored⟩

theorem PartFound.isPart {w : World} {deliver : SmsDeliver} {part : UInt8} {m : SmsMessage}
    (found : PartFound w deliver part m) : IsPartOf deliver part m := by
  obtain ⟨slot, stored, passes⟩ := Store.recordWhere_some found
  exact passes

/-- The fields a search for a part compares. -/
theorem isPartOf_iff (deliver : SmsDeliver) (part : UInt8) (m : SmsMessage) :
    IsPartOf deliver part m ↔ m.direction = .inbound ∧ m.status = .partialRecord ∧
      m.concat.present = true ∧ m.concat.reference = deliver.concat.reference ∧
      m.concat.totalParts = deliver.concat.totalParts ∧ m.concat.partNumber = part ∧
      m.sender.str = deliver.sender.str := by
  simp [IsPartOf, isPartialOf, and_assoc]

theorem sameMessage_iff (a m : SmsMessage) :
    SameMessage a m ↔ m.direction = .inbound ∧ m.status = .received ∧ m.encoding = a.encoding ∧
      m.sender.str = a.sender.str ∧
      m.serviceCenterTimestamp.str = a.serviceCenterTimestamp.str ∧
      m.text.str = a.text.str := by
  simp [SameMessage, isInboundIdentity, and_assoc]

/-- The strings of a decoded message fit into a record. -/
theorem deliverRecord_strings (deliver : SmsDeliver) :
    (deliverRecord deliver).sender.str = deliver.sender.str ∧
      (deliverRecord deliver).serviceCenterTimestamp.str = deliver.serviceCenterTimestamp.str ∧
      (deliverRecord deliver).text.str = deliver.text.str := by
  have short : deliver.text.str.length < 4096 := by
    have fits := deliver.text.fits
    omega
  exact ⟨CharArray.strncpy_str deliver.sender.fits,
    CharArray.strncpy_str deliver.serviceCenterTimestamp.fits, CharArray.strncpy_str short⟩

theorem overwritePart_strings (m : SmsMessage) (deliver : SmsDeliver) :
    (overwritePart m deliver).serviceCenterTimestamp.str = deliver.serviceCenterTimestamp.str ∧
      (overwritePart m deliver).text.str = deliver.text.str :=
  (deliverRecord_strings deliver).2

/-- A record of `deliver` itself: its own part, as stored or as overwritten. -/
structure OwnPart (deliver : SmsDeliver) (m : SmsMessage) : Prop where
  part : IsPartOf deliver deliver.concat.partNumber m
  concat : m.concat = deliver.concat
  encoding : m.encoding = deliver.encoding
  timestamp : m.serviceCenterTimestamp.str = deliver.serviceCenterTimestamp.str
  text : m.text.str = deliver.text.str

theorem ownPart_deliverRecord {deliver : SmsDeliver} (multipart : deliver.concat.present = true)
    (id : UInt32) : OwnPart deliver ((deliverRecord deliver).withId id) := by
  obtain ⟨sender, timestamp, text⟩ := deliverRecord_strings deliver
  refine ⟨?_, rfl, rfl, timestamp, text⟩
  rw [isPartOf_iff]
  refine ⟨rfl, ?_, multipart, rfl, rfl, rfl, sender⟩
  simp [deliverRecord, SmsMessage.withId, multipart]

theorem ownPart_overwritePart {deliver : SmsDeliver} {part : UInt8} {m : SmsMessage}
    (multipart : deliver.concat.present = true) (before : IsPartOf deliver part m) :
    OwnPart deliver (overwritePart m deliver) := by
  obtain ⟨timestamp, text⟩ := overwritePart_strings m deliver
  rw [isPartOf_iff] at before
  obtain ⟨direction, status, -, -, -, -, sender⟩ := before
  refine ⟨?_, rfl, rfl, timestamp, text⟩
  rw [isPartOf_iff]
  exact ⟨direction, status, multipart, rfl, rfl, rfl, sender⟩

section

variable {env : Surroundings} {w u t : World}

/-- A record that is never pruned, by its status or because no save finds the
journal full. -/
def Spared (env : Surroundings) (m : SmsMessage) : Prop :=
  (∀ s, recordPrunable s m = false) ∨ ¬ env.mayPrune

theorem Saves.keeps {message m : SmsMessage} {result : Except EspErr SmsMessage}
    (saves : Saves env w message result t) (held : w.Holds m) (other : m.id ≠ message.id)
    (spared : Spared env m) : t.Holds m := by
  obtain ⟨reply, effect, -⟩ := saves.effect
  refine effect.keeps held other ?_
  rcases spared with safe | room
  · exact .inl (safe _)
  · refine .inr ?_
    rintro ⟨unnamed, full⟩
    exact room (saves.full unnamed full)

theorem Saves.source {message m : SmsMessage} {result : Except EspErr SmsMessage}
    (saves : Saves env w message result t) (held : t.Holds m) :
    w.Holds m ∨ message.id = 0 ∧ m = message.withId w.store.freshId ∨
      message.id ≠ 0 ∧ m = message := by
  obtain ⟨reply, effect, -⟩ := saves.effect
  exact effect.source held

theorem Saves.stored {message saved : SmsMessage} (saves : Saves env w message (.ok saved) t) :
    t.Holds saved ∧ (message.id = 0 ∧ saved = message.withId w.store.freshId ∨
      message.id ≠ 0 ∧ saved = message) := by
  obtain ⟨⟨result, back⟩, effect, equal⟩ := saves.effect
  cases result with
  | error e => cases equal
  | ok _ =>
      cases equal
      exact effect.stored

theorem Deletes.source {ids : List UInt32} {m : SmsMessage} (deletes : Deletes env w ids t)
    (held : t.Holds m) : w.Holds m := by
  induction deletes with
  | nil => exact held
  | cons wrote effect fault rest ih =>
      have before := ih held
      cases effect with
      | kept same => exact (same m).mp before
      | erased rest => exact ((rest m).mp before).1

theorem Deletes.keeps {ids : List UInt32} {m : SmsMessage} (deletes : Deletes env w ids t)
    (held : w.Holds m) (other : m.id ∉ ids) : t.Holds m := by
  induction deletes with
  | nil => exact held
  | cons wrote effect fault rest ih =>
      simp only [List.mem_cons, not_or] at other
      refine ih ?_ other.2
      cases effect with
      | kept same => exact (same m).mpr held
      | erased rest => exact (rest m).mpr ⟨held, other.1⟩

/-- Deletes that do not fail leave no record with one of the ids. -/
theorem Deletes.clears {ids : List UInt32} {m : SmsMessage} (deletes : Deletes env w ids t)
    (calm : ¬ env.mayFail) (held : t.Holds m) : m.id ∉ ids := by
  induction deletes with
  | nil => simp
  | cons wrote effect fault rest ih =>
      simp only [List.mem_cons, not_or]
      refine ⟨?_, ih held⟩
      have before := rest.source held
      cases effect with
      | kept same => exact absurd (fault ⟨_, rfl⟩) calm
      | erased rest => exact ((rest m).mp before).2

/-- Partial records are never pruned. -/
theorem partial_spared {m : SmsMessage} (status : m.status = .partialRecord) : Spared env m := by
  refine .inl fun s => ?_
  simp [recordPrunable, status]

theorem IsPartOf.status {deliver : SmsDeliver} {part : UInt8} {m : SmsMessage}
    (isPart : IsPartOf deliver part m) : m.status = .partialRecord :=
  ((isPartOf_iff deliver part m).mp isPart).2.1

theorem PartStep.source {deliver : SmsDeliver} {result : Except EspErr SmsMessage} {m : SmsMessage}
    (numbered : w.Numbered) (multipart : deliver.concat.present = true)
    (step : PartStep env w deliver result t) (held : t.Holds m) :
    w.Holds m ∨ OwnPart deliver m := by
  cases step with
  | failed fault => exact .inl held
  | duplicate found same => exact .inl held
  | overwritten found differs saves =>
      have named := numbered.holds_named found.holds
      rcases saves.source held with before | ⟨unnamed, -⟩ | ⟨-, rfl⟩
      · exact .inl before
      · exact absurd unnamed named
      · exact .inr (ownPart_overwritePart multipart found.isPart)
  | added absent saves =>
      rcases saves.source held with before | ⟨-, rfl⟩ | ⟨named, -⟩
      · exact .inl before
      · exact .inr (ownPart_deliverRecord multipart _)
      · exact absurd rfl named

theorem PartStep.keeps {deliver : SmsDeliver} {result : Except EspErr SmsMessage} {m : SmsMessage}
    (numbered : w.Numbered) (step : PartStep env w deliver result t) (held : w.Holds m)
    (spared : Spared env m)
    (other : ¬ IsPartOf deliver deliver.concat.partNumber m) : t.Holds m := by
  cases step with
  | failed fault => exact held
  | duplicate found same => exact held
  | overwritten found differs saves =>
      refine saves.keeps held ?_ spared
      intro same
      have equal := numbered.id_inj held found.holds same
      rw [equal] at other
      exact other found.isPart
  | added absent saves => exact saves.keeps held (numbered.holds_named held) spared

/-- After a successful step the search for the part returns the text delivered. -/
theorem PartStep.found {deliver : SmsDeliver} {m : SmsMessage} (numbered : w.Numbered)
    (multipart : deliver.concat.present = true) (step : PartStep env w deliver (.ok m) t) :
    ∃ stored, PartFound t deliver deliver.concat.partNumber stored ∧
      stored.text.str = deliver.text.str := by
  cases step with
  | duplicate found same => exact ⟨_, found, same⟩
  | overwritten found differs saves =>
      have own := ownPart_overwritePart multipart found.isPart
      obtain ⟨⟨result, back⟩, effect, equal⟩ := saves.effect
      have named := numbered.holds_named found.holds
      cases effect with
      | kept same returned => cases equal
      | lost unnamed full prunable rest returned => cases equal
      | added unnamed storable prunable rest returned => exact absurd unnamed named
      | replaced named storable rest first returned =>
          exact ⟨_, first _ _ found rfl own.part, own.text⟩
  | added absent saves =>
      obtain ⟨⟨slot, held⟩, saved⟩ := saves.stored
      have own : OwnPart deliver m := by
        rcases saved with ⟨-, rfl⟩ | ⟨named, -⟩
        · exact ownPart_deliverRecord multipart _
        · exact absurd rfl named
      obtain ⟨stored, found⟩ := Store.recordWhere_isSome held own.part
      refine ⟨stored, found, ?_⟩
      have present : PartFound t deliver deliver.concat.partNumber stored := found
      rcases saves.source present.holds with before | ⟨-, rfl⟩ | ⟨named, -⟩
      · exact absurd present.isPart (absent stored before)
      · exact (ownPart_deliverRecord multipart _).text
      · exact absurd rfl named

section

variable {a m : SmsMessage} {done : SmsMessage × Bool}

theorem StoreStep.held (unnamed : a.id = 0) (direction : a.direction = .inbound)
    (status : a.status = .received) (step : StoreStep env w a (.ok done) t) :
    t.Holds done.1 ∧ SameMessage a done.1 := by
  cases step with
  | duplicate held same => exact ⟨held, same⟩
  | created absent saves =>
      obtain ⟨held, ⟨-, rfl⟩ | ⟨named, -⟩⟩ := saves.stored
      · refine ⟨held, ?_⟩
        rw [sameMessage_iff]
        exact ⟨direction, status, rfl, rfl, rfl, rfl⟩
      · exact absurd unnamed named

theorem StoreStep.source {result : Except EspErr (SmsMessage × Bool)} (unnamed : a.id = 0)
    (step : StoreStep env w a result t) (held : t.Holds m) :
    w.Holds m ∨ m = a.withId w.store.freshId := by
  have saved (result : Except EspErr SmsMessage) (saves : Saves env w a result t) :
      w.Holds m ∨ m = a.withId w.store.freshId := by
    rcases saves.source held with before | ⟨-, new⟩ | ⟨named, -⟩
    · exact .inl before
    · exact .inr new
    · exact absurd unnamed named
  cases step with
  | failed fault never => exact .inl held
  | duplicate held' same => exact .inl held
  | unsaved absent saves => exact saved _ saves
  | created absent saves => exact saved _ saves

theorem StoreStep.keeps {result : Except EspErr (SmsMessage × Bool)} (numbered : w.Numbered)
    (unnamed : a.id = 0) (step : StoreStep env w a result t) (held : w.Holds m)
    (spared : Spared env m) : t.Holds m := by
  have other : m.id ≠ a.id := by
    rw [unnamed]
    exact numbered.holds_named held
  cases step with
  | failed fault never => exact held
  | duplicate held' same => exact held
  | unsaved absent saves => exact saves.keeps held other spared
  | created absent saves => exact saves.keeps held other spared

/-- The stored message has an id of its own, apart from those of the partial records. -/
theorem StoreStep.apart (numbered : w.Numbered) (unnamed : a.id = 0)
    (step : StoreStep env w a (.ok done) t) (held : w.Holds m)
    (status : m.status = .partialRecord) : done.1.id ≠ m.id := by
  cases step with
  | duplicate held' same =>
      intro equal
      have one := numbered.id_inj held' held equal
      rw [sameMessage_iff, one, status] at same
      cases same.2.1
  | created absent saves =>
      obtain ⟨-, ⟨-, rfl⟩ | ⟨named, -⟩⟩ := saves.stored
      · exact (numbered.holds_ne_fresh held).symm
      · exact absurd unnamed named

end

section

variable {deliver : SmsDeliver} {parts : List UInt8} {stored : List SmsMessage}

/-- What the loop over the parts keeps of the record it started with. -/
theorem appendParts_fields (pairs : List (UInt8 × SmsMessage)) (a : SmsMessage) :
    (pairs.foldl (fun a (part, m) => appendPart a part m) a).direction = a.direction ∧
      (pairs.foldl (fun a (part, m) => appendPart a part m) a).status = a.status ∧
      (pairs.foldl (fun a (part, m) => appendPart a part m) a).encoding = a.encoding ∧
      (pairs.foldl (fun a (part, m) => appendPart a part m) a).sender = a.sender := by
  induction pairs generalizing a with
  | nil => exact ⟨rfl, rfl, rfl, rfl⟩
  | cons pair rest ih =>
      have kept : (appendPart a pair.1 pair.2).direction = a.direction ∧
          (appendPart a pair.1 pair.2).status = a.status ∧
          (appendPart a pair.1 pair.2).encoding = a.encoding ∧
          (appendPart a pair.1 pair.2).sender = a.sender := by
        simp only [appendPart]
        split <;> exact ⟨rfl, rfl, rfl, rfl⟩
      rw [List.foldl_cons]
      obtain ⟨direction, status, encoding, sender⟩ := ih (appendPart a pair.1 pair.2)
      exact ⟨direction.trans kept.1, status.trans kept.2.1, encoding.trans kept.2.2.1,
        sender.trans kept.2.2.2⟩

theorem assembledOf_fields (deliver : SmsDeliver) (parts : List UInt8) (stored : List SmsMessage) :
    (assembledOf deliver parts stored).direction = .inbound ∧
      (assembledOf deliver parts stored).status = .received ∧
      (assembledOf deliver parts stored).encoding = deliver.encoding ∧
      (assembledOf deliver parts stored).sender.str = deliver.sender.str := by
  obtain ⟨direction, status, encoding, sender⟩ :=
    appendParts_fields (parts.zip stored) (assembledStart deliver)
  refine ⟨direction, status, encoding, ?_⟩
  rw [assembledOf, sender]
  exact CharArray.strncpy_str deliver.sender.fits

theorem appendParts_text (pairs : List (UInt8 × SmsMessage)) (a : SmsMessage)
    (fits : a.text.str.length + textLength (pairs.map Prod.snd) < 4096) :
    (pairs.foldl (fun a (part, m) => appendPart a part m) a).text.str.bytes =
      a.text.str.bytes ++ joinedText (pairs.map Prod.snd) := by
  induction pairs generalizing a with
  | nil => simp [joinedText]
  | cons pair rest ih =>
      simp only [textLength, List.map_cons, List.sum_cons] at fits
      have room : a.text.str.length + pair.2.text.str.length < 4096 := by omega
      rw [List.foldl_cons, ih]
      · rw [appendPart_text pair.1 room]
        simp [joinedText, List.append_assoc]
      · rw [appendPart_length pair.1 room, textLength]
        omega

/-- The assembled text is that of the parts in their order. -/
theorem assembledOf_text (gathers : Gathers w deliver parts stored) :
    (assembledOf deliver parts stored).text.str.bytes = joinedText stored := by
  have all : (parts.zip stored).map Prod.snd = stored :=
    List.map_snd_zip gathers.each.length_eq.ge
  have text := appendParts_text (parts.zip stored) (assembledStart deliver) (by
    rw [all]
    simpa [assembledStart, SmsMessage.zero, CharArray.zero, CStr.length] using gathers.fits)
  rw [all] at text
  simpa [assembledOf, assembledStart, SmsMessage.zero, CharArray.zero] using text

theorem appendParts_timestamp (pairs : List (UInt8 × SmsMessage)) (a : SmsMessage)
    (later : ∀ pair ∈ pairs, pair.1 ≠ 1) :
    (pairs.foldl (fun a (part, m) => appendPart a part m) a).serviceCenterTimestamp =
      a.serviceCenterTimestamp := by
  induction pairs generalizing a with
  | nil => rfl
  | cons pair rest ih =>
      rw [List.foldl_cons, ih _ fun other member => later other (List.mem_cons_of_mem _ member)]
      simp [appendPart, later pair List.mem_cons_self]

theorem partNumbers_cons {total : UInt8} (positive : total ≠ 0) :
    ∃ rest, partNumbers total = 1 :: rest ∧ ∀ part ∈ rest, part ≠ 1 := by
  obtain ⟨count, size⟩ : ∃ count, total.toNat = count + 1 := by
    refine Nat.exists_eq_succ_of_ne_zero ?_
    intro zero
    exact positive (UInt8.toNat_inj.mp (by simpa using zero))
  refine ⟨(List.range count).map fun k => UInt8.ofNat (k + 2), ?_, ?_⟩
  · rw [partNumbers, size, List.range_succ_eq_map, List.map_cons, List.map_map]
    rfl
  · intro part member same
    obtain ⟨k, inside, rfl⟩ := List.mem_map.mp member
    have bound := total.toNat_lt
    have below := List.mem_range.mp inside
    have value := congrArg UInt8.toNat same
    simp only [UInt8.toNat_ofNat', UInt8.reduceToNat] at value
    omega

/-- The assembled timestamp is that of part 1. -/
theorem assembledOf_timestamp {first : SmsMessage} {rest : List SmsMessage}
    (positive : deliver.concat.totalParts ≠ 0)
    (short : first.serviceCenterTimestamp.str.length < 40) :
    (assembledOf deliver (partNumbers deliver.concat.totalParts)
      (first :: rest)).serviceCenterTimestamp.str = first.serviceCenterTimestamp.str := by
  obtain ⟨later, numbers, others⟩ := partNumbers_cons positive
  have tail : ∀ pair ∈ later.zip rest, pair.1 ≠ 1 := by
    rintro ⟨part, m⟩ member
    exact others part (List.of_mem_zip member).1
  rw [assembledOf, numbers, List.zip_cons_cons, List.foldl_cons, appendParts_timestamp _ _ tail]
  simp only [appendPart, ↓reduceIte]
  exact CharArray.strncpy_str short

theorem Gathers.holds (gathers : Gathers w deliver parts stored) {m : SmsMessage}
    (member : m ∈ stored) : ∃ part ∈ parts, PartFound w deliver part m := by
  obtain ⟨index, bound, rfl⟩ := List.getElem_of_mem member
  have length := gathers.each.length_eq
  exact ⟨_, List.getElem_mem (by omega), gathers.each.get (by omega) bound⟩

end

/-- The worlds a delivery passes through, up to the events. -/
inductive Stage (env : Surroundings) (w : World) (deliver : SmsDeliver) : World → Prop where
  | start : Stage env w deliver w
  | part {result : Except EspErr SmsMessage} {u : World}
      (multipart : deliver.concat.present = true) (part : PartStep env w deliver result u) :
      Stage env w deliver u
  | stored {m : SmsMessage} {parts : List SmsMessage} {result : Except EspErr (SmsMessage × Bool)}
      {u v : World} (multipart : deliver.concat.present = true)
      (part : PartStep env w deliver (.ok m) u)
      (gathers : Gathers u deliver (partNumbers deliver.concat.totalParts) parts)
      (stores : StoreStep env u
        (assembledOf deliver (partNumbers deliver.concat.totalParts) parts) result v) :
      Stage env w deliver v
  | deleting {m : SmsMessage} {parts : List SmsMessage}
      {result : Except EspErr (SmsMessage × Bool)} {u v t : World} {ids : List UInt32}
      (multipart : deliver.concat.present = true) (part : PartStep env w deliver (.ok m) u)
      (gathers : Gathers u deliver (partNumbers deliver.concat.totalParts) parts)
      (stores : StoreStep env u
        (assembledOf deliver (partNumbers deliver.concat.totalParts) parts) result v)
      (first : ids <+: parts.map SmsMessage.id) (deletes : Deletes env v ids t) :
      Stage env w deliver t
  | single {result : Except EspErr (SmsMessage × Bool)} {t : World}
      (single : deliver.concat.present = false)
      (stores : StoreStep env w (deliverRecord deliver) result t) : Stage env w deliver t

theorem Visits.stage {deliver : SmsDeliver} (visits : Visits env w deliver t) :
    Stage env w deliver t := by
  cases visits with
  | start => exact .start
  | assembling multipart part assembly =>
      cases assembly with
      | start => exact .part multipart part
      | deleting gathers stores first deletes =>
          exact .deleting multipart part gathers stores first deletes
  | single single stores => exact .single single stores

theorem DeliverStep.stage {deliver : SmsDeliver} {result : Except EspErr SmsMessage}
    (step : DeliverStep env w deliver result t) :
    ∃ u, Stage env w deliver u ∧ t.store = u.store ∧ t.issued = u.issued := by
  have announced (u : World) (done : SmsMessage × Bool) :
      (u.announce done).store = u.store ∧ (u.announce done).issued = u.issued := by
    obtain ⟨m, _ | _⟩ := done <;> exact ⟨rfl, rfl⟩
  cases step with
  | failed fault => exact ⟨_, .start, rfl, rfl⟩
  | unstored multipart part => exact ⟨_, .part multipart part, rfl, rfl⟩
  | unassembled multipart part assembly never =>
      cases assembly with
      | failed fault never => exact ⟨_, .part multipart part, rfl, rfl⟩
      | missing inside absent => exact ⟨_, .part multipart part, rfl, rfl⟩
      | tooLong split each long => exact ⟨_, .part multipart part, rfl, rfl⟩
      | unstored gathers stores => exact ⟨_, .stored multipart part gathers stores, rfl, rfl⟩
  | incomplete multipart part inside absent => exact ⟨_, .part multipart part, rfl, rfl⟩
  | assembled multipart part assembly =>
      cases assembly with
      | stored gathers stores deletes =>
          exact ⟨_, .deleting multipart part gathers stores List.prefix_rfl deletes,
            announced _ _⟩
  | single single stores => exact ⟨_, .single single stores, announced _ _⟩
  | singleFailed single stores => exact ⟨_, .single single stores, rfl, rfl⟩

theorem Stage.wrote {deliver : SmsDeliver} (numbered : w.Numbered)
    (stage : Stage env w deliver t) : w.Wrote t := by
  cases stage with
  | start => exact .refl numbered
  | part multipart part => exact part.wrote numbered
  | stored multipart part gathers stores =>
      have first := part.wrote numbered
      exact first.trans (stores.wrote first.numbered)
  | deleting multipart part gathers stores first deletes =>
      have first := part.wrote numbered
      have second := stores.wrote first.numbered
      exact (first.trans second).trans (deletes.wrote second.numbered)
  | single single stores => exact stores.wrote numbered

/-- A delivery keeps what is neither pruned nor a part of its own message. -/
theorem Stage.keeps {deliver : SmsDeliver} {m : SmsMessage} (numbered : w.Numbered)
    (stage : Stage env w deliver t) (held : w.Holds m) (spared : Spared env m)
    (apart : deliver.concat.present = true → ∀ part, ¬ IsPartOf deliver part m) : t.Holds m := by
  cases stage with
  | start => exact held
  | single single stores => exact stores.keeps numbered rfl held spared
  | part multipart part => exact part.keeps numbered held spared (apart multipart _)
  | stored multipart part gathers stores =>
      have kept := part.keeps numbered held spared (apart multipart _)
      exact stores.keeps (part.wrote numbered).numbered (assembledOf_id ..) kept spared
  | deleting multipart part gathers stores first deletes =>
      have kept := part.keeps numbered held spared (apart multipart _)
      have middle := (part.wrote numbered).numbered
      refine deletes.keeps (stores.keeps middle (assembledOf_id ..) kept spared) ?_
      intro listed
      obtain ⟨stored, member, same⟩ := List.mem_map.mp (first.subset listed)
      obtain ⟨number, -, found⟩ := gathers.holds member
      have equal := middle.id_inj found.holds kept same
      exact apart multipart number (equal ▸ found.isPart)

/-- The only partial record a delivery adds is that of its own part. -/
theorem Stage.source {deliver : SmsDeliver} {m : SmsMessage} (numbered : w.Numbered)
    (stage : Stage env w deliver t) (held : t.Holds m) (status : m.status = .partialRecord) :
    w.Holds m ∨ deliver.concat.present = true ∧ OwnPart deliver m := by
  have assembled (u : World) (parts : List SmsMessage)
      (result : Except EspErr (SmsMessage × Bool)) (v : World)
      (stores : StoreStep env u
        (assembledOf deliver (partNumbers deliver.concat.totalParts) parts) result v)
      (held : v.Holds m) : u.Holds m := by
    rcases stores.source (assembledOf_id ..) held with before | rfl
    · exact before
    · have received := (assembledOf_fields deliver (partNumbers deliver.concat.totalParts) parts).2.1
      cases received.symm.trans status
  have parted (result : Except EspErr SmsMessage) (u : World)
      (multipart : deliver.concat.present = true) (part : PartStep env w deliver result u)
      (held : u.Holds m) : w.Holds m ∨ deliver.concat.present = true ∧ OwnPart deliver m := by
    rcases part.source numbered multipart held with before | own
    · exact .inl before
    · exact .inr ⟨multipart, own⟩
  cases stage with
  | start => exact .inl held
  | part multipart part => exact parted _ _ multipart part held
  | stored multipart part gathers stores =>
      exact parted _ _ multipart part (assembled _ _ _ _ stores held)
  | deleting multipart part gathers stores first deletes =>
      exact parted _ _ multipart part (assembled _ _ _ _ stores (deletes.source held))
  | single single stores =>
      rcases stores.source rfl held with before | rfl
      · exact .inl before
      · have received : (deliverRecord deliver).status = .received := by
          simp [deliverRecord, single]
        cases received.symm.trans status

end

end SmsGateway
