import SmsGateway.Service.Announcements
import SmsGateway.Service.Isolation
import SmsGateway.Service.PersistBeforeDelete

/-! A message sent in parts is put together once, whatever the order of its parts. -/

namespace SmsGateway

open Lib Prog

/-- Deliveries one after another, each given to `persist_deliver`. -/
inductive Delivered (step : World → (request : ServiceCall) → request.Reply → World → Prop) :
    World → List SmsDeliver → World → Prop where
  | nil {w : World} : Delivered step w [] w
  | cons {w u t : World} {deliver : SmsDeliver} {later : List SmsDeliver}
      {trace : List (Entry World ServiceCall ServiceCall.Reply)}
      {result : Except EspErr SmsMessage}
      (runs : Runs step (persistDeliver deliver) w trace result u)
      (rest : Delivered step u later t) : Delivered step w (deliver :: later) t

/-- A message in parts: the parts in their order, with one sender, reference and
total. -/
structure SplitMessage where
  sender : CStr
  reference : UInt16
  parts : List SmsDeliver
  positive : 1 ≤ parts.length
  most : parts.length ≤ smsMaxSegments
  multipart : ∀ d ∈ parts, d.concat.present = true
  senders : ∀ d ∈ parts, d.sender.str = sender
  references : ∀ d ∈ parts, d.concat.reference = reference
  totals : ∀ d ∈ parts, d.concat.totalParts = UInt8.ofNat parts.length
  numbers : parts.map (fun d => d.concat.partNumber) = partNumbers (UInt8.ofNat parts.length)
  fits : (parts.map fun d => d.text.str.length).sum ≤ 4095

namespace SplitMessage

variable (M : SplitMessage)

def total : UInt8 := UInt8.ofNat M.parts.length

/-- The texts of the parts, one after another. -/
def text : CStr := M.parts.foldr (fun d text => d.text.str ++ text) .empty

/-- The timestamp of part 1. -/
def timestamp : CStr :=
  match M.parts with
  | [] => .empty
  | first :: _ => first.serviceCenterTimestamp.str

def identity (encoding : SmsEncoding) : Identity := ⟨M.sender, M.timestamp, encoding, M.text⟩

/-- A partial record under the message's sender, reference and total. -/
def IsPart (m : SmsMessage) : Prop :=
  m.direction = .inbound ∧ m.status = .partialRecord ∧ m.concat.present = true ∧
    m.concat.reference = M.reference ∧ m.concat.totalParts = M.total ∧ m.sender.str = M.sender

/-- A delivery with another sender, reference or total, or without concatenation. -/
def Foreign (d : SmsDeliver) : Prop :=
  d.concat.present = true →
    ¬ (d.sender.str = M.sender ∧ d.concat.reference = M.reference ∧ d.concat.totalParts = M.total)

variable {M}

theorem isPartOf_iff_isPart {d : SmsDeliver} (own : d ∈ M.parts) (part : UInt8) (m : SmsMessage) :
    IsPartOf d part m ↔ M.IsPart m ∧ m.concat.partNumber = part := by
  rw [isPartOf_iff, M.senders d own, M.references d own, M.totals d own, IsPart, total]
  constructor
  · rintro ⟨direction, status, present, reference, total, number, sender⟩
    exact ⟨⟨direction, status, present, reference, total, sender⟩, number⟩
  · rintro ⟨⟨direction, status, present, reference, total, sender⟩, number⟩
    exact ⟨direction, status, present, reference, total, number, sender⟩

theorem Foreign.not_isPartOf {d : SmsDeliver} {m : SmsMessage} (foreign : M.Foreign d)
    (multipart : d.concat.present = true) (isPart : M.IsPart m) (part : UInt8) :
    ¬ IsPartOf d part m := by
  intro mine
  obtain ⟨-, -, -, reference, total, -, sender⟩ := (isPartOf_iff _ _ _).mp mine
  obtain ⟨-, -, -, reference', total', sender'⟩ := isPart
  exact foreign multipart ⟨sender.symm.trans sender', reference.symm.trans reference',
    total.symm.trans total'⟩

theorem numbers_nodup : (M.parts.map fun d => d.concat.partNumber).Nodup := by
  rw [M.numbers, partNumbers]
  refine List.Nodup.map_on ?_ List.nodup_range
  intro i first j second same
  have bound := (UInt8.ofNat M.parts.length).toNat_lt
  have left := toNat_partNumber (List.mem_range.mp first)
  have right := toNat_partNumber (List.mem_range.mp second)
  rw [same] at left
  omega

/-- A part is known by its number. -/
theorem part_unique {d d' : SmsDeliver} (own : d ∈ M.parts) (own' : d' ∈ M.parts)
    (same : d.concat.partNumber = d'.concat.partNumber) : d = d' :=
  List.inj_on_of_nodup_map numbers_nodup own own' same

theorem part_of_number {part : UInt8} (inside : part ∈ partNumbers M.total) :
    ∃ d ∈ M.parts, d.concat.partNumber = part := by
  rw [total, ← M.numbers] at inside
  exact List.mem_map.mp inside

theorem text_bytes : M.text.bytes = (M.parts.map fun d => d.text.str.bytes).flatten := by
  rw [text]
  induction M.parts with
  | nil => rfl
  | cons d rest ih => simp [ih]

end SplitMessage

/-- The parts of `got` are stored, each once and as delivered, and no others. -/
structure Collected (M : SplitMessage) (got : List SmsDeliver) (w : World) : Prop where
  known : ∀ m, w.Holds m → M.IsPart m → ∃ d ∈ M.parts, d ∈ got ∧ OwnPart d m
  present : ∀ d ∈ M.parts, d ∈ got → ∃ m, w.Holds m ∧ OwnPart d m
  once : ∀ m m', w.Holds m → w.Holds m' → M.IsPart m → M.IsPart m' →
    m.concat.partNumber = m'.concat.partNumber → m = m'

section

variable {env : Surroundings} {M : SplitMessage} {got : List SmsDeliver} {deliver : SmsDeliver}
  {w u v t : World}

theorem Collected.congr (collected : Collected M got w)
    (same : ∀ m, M.IsPart m → (t.Holds m ↔ w.Holds m)) : Collected M got t := by
  refine ⟨?_, ?_, ?_⟩
  · intro m held isPart
    exact collected.known m ((same m isPart).mp held) isPart
  · intro d own member
    obtain ⟨m, held, part⟩ := collected.present d own member
    have isPart := ((SplitMessage.isPartOf_iff_isPart own _ m).mp part.part).1
    exact ⟨m, (same m isPart).mpr held, part⟩
  · intro m m' held held' isPart isPart'
    exact collected.once m m' ((same m isPart).mp held) ((same m' isPart').mp held') isPart isPart'

/-- A delivery of another message changes no part of this one. -/
theorem DeliverStep.foreign {result : Except EspErr SmsMessage} (numbered : w.Numbered)
    (foreign : M.Foreign deliver) (step : DeliverStep env w deliver result t) (m : SmsMessage)
    (isPart : M.IsPart m) : t.Holds m ↔ w.Holds m := by
  obtain ⟨u, stage, store, -⟩ := step.stage
  rw [World.Holds, store]
  constructor
  · intro held
    rcases stage.source numbered held isPart.2.1 with before | ⟨multipart, own⟩
    · exact before
    · exact absurd own.part (foreign.not_isPartOf multipart isPart _)
  · intro held
    refine stage.keeps numbered held (partial_spared isPart.2.1) ?_
    intro multipart
    exact foreign.not_isPartOf multipart isPart

theorem PartStep.collected {m : SmsMessage} (numbered : w.Numbered) (own : deliver ∈ M.parts)
    (collected : Collected M got w) (step : PartStep env w deliver (.ok m) u) :
    Collected M (deliver :: got) u := by
  have multipart := M.multipart deliver own
  -- A stored part with this number is this part.
  have mine (stored : SmsMessage) (found : PartFound w deliver deliver.concat.partNumber stored) :
      deliver ∈ got ∧ OwnPart deliver stored := by
    obtain ⟨isPart, number⟩ := (SplitMessage.isPartOf_iff_isPart own _ _).mp found.isPart
    obtain ⟨d, inside, member, part⟩ := collected.known stored found.holds isPart
    have same := ((SplitMessage.isPartOf_iff_isPart inside _ _).mp part.part).2
    have equal := SplitMessage.part_unique inside own (same.symm.trans number)
    exact ⟨equal ▸ member, equal ▸ part⟩
  cases step with
  | duplicate found same =>
      obtain ⟨member, -⟩ := mine _ found
      refine ⟨?_, ?_, collected.once⟩
      · intro stored held isPart
        obtain ⟨d, inside, before, part⟩ := collected.known stored held isPart
        exact ⟨d, inside, List.mem_cons_of_mem _ before, part⟩
      · intro d inside listed
        rcases List.mem_cons.mp listed with rfl | listed
        · exact collected.present d inside member
        · exact collected.present d inside listed
  | overwritten found differs saves => exact absurd (mine _ found).2.text differs
  | added absent saves =>
      obtain ⟨held, new⟩ := saves.stored
      have fresh : m = (deliverRecord deliver).withId w.store.freshId := by
        rcases new with ⟨-, new⟩ | ⟨named, -⟩
        · exact new
        · exact absurd rfl named
      have part : OwnPart deliver m := by
        rw [fresh]
        exact ownPart_deliverRecord multipart _
      have source (stored : SmsMessage) (here : u.Holds stored) : w.Holds stored ∨ stored = m := by
        rcases saves.source here with before | ⟨-, new⟩ | ⟨named, -⟩
        · exact .inl before
        · exact .inr (new.trans fresh.symm)
        · exact absurd rfl named
      have apart (stored : SmsMessage) (before : w.Holds stored) (isPart : M.IsPart stored) :
          stored.concat.partNumber ≠ m.concat.partNumber := by
        intro same
        have number := ((SplitMessage.isPartOf_iff_isPart own _ _).mp part.part).2
        exact absent stored before
          ((SplitMessage.isPartOf_iff_isPart own _ _).mpr ⟨isPart, same.trans number⟩)
      refine ⟨?_, ?_, ?_⟩
      · intro stored here isPart
        rcases source stored here with before | rfl
        · obtain ⟨d, inside, member, its⟩ := collected.known stored before isPart
          exact ⟨d, inside, List.mem_cons_of_mem _ member, its⟩
        · exact ⟨deliver, own, List.mem_cons_self, part⟩
      · intro d inside listed
        rcases List.mem_cons.mp listed with rfl | listed
        · exact ⟨m, held, part⟩
        · obtain ⟨stored, before, its⟩ := collected.present d inside listed
          exact ⟨stored, saves.keeps before (numbered.holds_named before)
            (partial_spared its.part.status), its⟩
      · intro first second here here' isPart isPart' same
        rcases source first here with before | rfl
        · rcases source second here' with before' | rfl
          · exact collected.once first second before before' isPart isPart' same
          · exact absurd same (apart first before isPart)
        · rcases source second here' with before' | rfl
          · exact absurd same.symm (apart second before' isPart')
          · rfl

/-- The stored parts carry the texts and timestamps delivered. -/
theorem Collected.gathered {parts : List UInt8} {stored : List SmsMessage}
    (collected : Collected M got u) (own : deliver ∈ M.parts)
    (each : List.Forall₂ (PartFound u deliver) parts stored) {deliveries : List SmsDeliver}
    (inside : ∀ d ∈ deliveries, d ∈ M.parts)
    (numbers : deliveries.map (fun d => d.concat.partNumber) = parts) :
    List.Forall₂ OwnPart deliveries stored := by
  induction each generalizing deliveries with
  | nil =>
      rw [List.map_eq_nil_iff.mp numbers]
      exact .nil
  | cons found rest ih =>
      obtain ⟨d, later, rfl, number, numbers⟩ := List.map_eq_cons_iff.mp numbers
      refine .cons ?_ (ih (fun d member => inside d (List.mem_cons_of_mem _ member)) numbers)
      obtain ⟨isPart, same⟩ := (SplitMessage.isPartOf_iff_isPart own _ _).mp found.isPart
      obtain ⟨d', inside', -, part⟩ := collected.known _ found.holds isPart
      have same' := ((SplitMessage.isPartOf_iff_isPart inside' _ _).mp part.part).2
      have equal := SplitMessage.part_unique inside' (inside d List.mem_cons_self)
        (same'.symm.trans (same.trans number.symm))
      exact equal ▸ part

theorem textLength_ownParts {deliveries : List SmsDeliver} {stored : List SmsMessage}
    (parts : List.Forall₂ OwnPart deliveries stored) :
    textLength stored = (deliveries.map fun d => d.text.str.length).sum := by
  induction parts with
  | nil => rfl
  | cons part rest ih =>
      simp only [textLength] at ih
      simp [textLength, part.text, ih]

theorem joinedText_ownParts {deliveries : List SmsDeliver} {stored : List SmsMessage}
    (parts : List.Forall₂ OwnPart deliveries stored) :
    joinedText stored = (deliveries.map fun d => d.text.str.bytes).flatten := by
  induction parts with
  | nil => rfl
  | cons part rest ih =>
      simp only [joinedText] at ih
      simp [joinedText, part.text, ih]

theorem SplitMessage.total_ne_zero : M.total ≠ 0 := by
  intro zero
  have low := M.positive
  have high := M.most
  have value := congrArg UInt8.toNat zero
  simp only [SplitMessage.total, UInt8.toNat_ofNat', UInt8.reduceToNat, smsMaxSegments] at value high
  omega

/-- The assembled record has the identity of the message. -/
theorem assembledOf_identity {stored : List SmsMessage} (own : deliver ∈ M.parts)
    (gathers : Gathers u deliver (partNumbers deliver.concat.totalParts) stored)
    (parts : List.Forall₂ OwnPart M.parts stored) (m : SmsMessage)
    (same : SameMessage (assembledOf deliver (partNumbers deliver.concat.totalParts) stored) m) :
    (M.identity deliver.encoding).Of m := by
  obtain ⟨-, -, encoding, sender⟩ :=
    assembledOf_fields deliver (partNumbers deliver.concat.totalParts) stored
  have text : (assembledOf deliver (partNumbers deliver.concat.totalParts) stored).text.str =
      M.text := by
    apply CStr.ext
    rw [assembledOf_text gathers, joinedText_ownParts parts, SplitMessage.text_bytes]
  have timestamp : (assembledOf deliver (partNumbers deliver.concat.totalParts)
      stored).serviceCenterTimestamp.str = M.timestamp := by
    have total : deliver.concat.totalParts ≠ 0 := by
      rw [M.totals deliver own]
      exact M.total_ne_zero
    have nonempty := M.positive
    simp only [SplitMessage.timestamp]
    generalize M.parts = deliveries at parts nonempty ⊢
    cases parts with
    | nil => simp at nonempty
    | cons part rest =>
        rename_i first stored later others
        have short : stored.serviceCenterTimestamp.str.length < 40 := by
          rw [part.timestamp]
          exact first.serviceCenterTimestamp.fits
        rw [assembledOf_timestamp total short, part.timestamp]
  rw [sameMessage_iff] at same
  obtain ⟨direction, status, encoding', sender', timestamp', text'⟩ := same
  rw [Identity.of_iff]
  exact ⟨direction, status, encoding'.trans encoding,
    sender'.trans (sender.trans (M.senders deliver own)), timestamp'.trans timestamp,
    text'.trans text⟩

/-- While a part is missing, a delivery of another part is only collected. -/
theorem DeliverStep.collected {result : Except EspErr SmsMessage} (calm : ¬ env.mayFail)
    (numbered : w.Numbered) (own : deliver ∈ M.parts) (collected : Collected M got w)
    (missing : ∃ d ∈ M.parts, d ∉ deliver :: got) (step : DeliverStep env w deliver result t) :
    Collected M (deliver :: got) t := by
  have multipart := M.multipart deliver own
  cases step with
  | failed fault => exact absurd fault calm
  | unstored _ part =>
      cases part with
      | failed fault => exact absurd fault calm
      | overwritten found differs saves => exact absurd (saves.fault ⟨_, rfl⟩) calm
      | added absent saves => exact absurd (saves.fault ⟨_, rfl⟩) calm
  | unassembled _ part assembly never =>
      have middle := part.collected numbered own collected
      cases assembly with
      | failed fault never => exact absurd fault calm
      | missing inside absent => exact absurd rfl never
      | tooLong split each long => exact middle
      | unstored gathers stores =>
          cases stores with
          | failed fault never => exact absurd fault calm
          | unsaved absent saves => exact absurd (saves.fault ⟨_, rfl⟩) calm
  | incomplete _ part inside absent =>
      exact (part.collected numbered own collected).congr fun m _ => .rfl
  | assembled _ part assembly =>
      have middle := part.collected numbered own collected
      cases assembly with
      | stored gathers stores deletes =>
          exfalso
          obtain ⟨d, inside, absent⟩ := missing
          have total : partNumbers deliver.concat.totalParts = partNumbers M.total := by
            rw [M.totals deliver own]
            rfl
          have parts := middle.gathered own gathers.each (fun d member => member)
            (M.numbers.trans total.symm)
          obtain ⟨k, bound, rfl⟩ := List.getElem_of_mem inside
          have length := parts.length_eq
          have found := gathers.each.get (i := k)
            (by rw [gathers.each.length_eq, ← length]; exact bound) (by omega)
          obtain ⟨isPart, number⟩ := (SplitMessage.isPartOf_iff_isPart own _ _).mp found.isPart
          obtain ⟨d', inside', member', part'⟩ := middle.known _ found.holds isPart
          have same := ((SplitMessage.isPartOf_iff_isPart inside' _ _).mp part'.part).2
          have mine := ((SplitMessage.isPartOf_iff_isPart inside _ _).mp
            (parts.get bound (by omega)).part).2
          exact absent (SplitMessage.part_unique inside' inside
            (same.symm.trans mine) ▸ member')
  | single single stores =>
      rw [multipart] at single
      cases single
  | singleFailed single stores =>
      rw [multipart] at single
      cases single

/-- The delivery of the last missing part stores the message and clears its parts. -/
theorem DeliverStep.completes {result : Except EspErr SmsMessage} (calm : ¬ env.mayFail)
    (numbered : w.Numbered) (own : deliver ∈ M.parts) (collected : Collected M got w)
    (all : ∀ d ∈ M.parts, d ∈ deliver :: got) (step : DeliverStep env w deliver result t) :
    (∃ m, t.Holds m ∧ (M.identity deliver.encoding).Of m) ∧ ∀ m, t.Holds m → ¬ M.IsPart m := by
  have multipart := M.multipart deliver own
  have total : partNumbers deliver.concat.totalParts = partNumbers M.total := by
    rw [M.totals deliver own]
    rfl
  cases step with
  | failed fault => exact absurd fault calm
  | unstored _ part =>
      cases part with
      | failed fault => exact absurd fault calm
      | overwritten found differs saves => exact absurd (saves.fault ⟨_, rfl⟩) calm
      | added absent saves => exact absurd (saves.fault ⟨_, rfl⟩) calm
  | unassembled _ part assembly never =>
      have middle := part.collected numbered own collected
      cases assembly with
      | failed fault never => exact absurd fault calm
      | missing inside absent => exact absurd rfl never
      | tooLong split each long =>
          -- The parts read so far are a beginning of the message, which fits.
          exfalso
          rename_i parts later stored
          have numbers : (M.parts.take parts.length).map (fun d => d.concat.partNumber) = parts := by
            rw [List.map_take, M.numbers]
            rw [total] at split
            rw [show partNumbers (UInt8.ofNat M.parts.length) = parts ++ later from split]
            exact List.take_left
          have beginning := middle.gathered own each
            (fun d member => List.mem_of_mem_take member) numbers
          rw [textLength_ownParts beginning] at long
          have fits := M.fits
          rw [← List.take_append_drop parts.length M.parts, List.map_append,
            List.sum_append] at fits
          omega
      | unstored gathers stores =>
          cases stores with
          | failed fault never => exact absurd fault calm
          | unsaved absent saves => exact absurd (saves.fault ⟨_, rfl⟩) calm
  | incomplete _ part inside absent =>
      exfalso
      have middle := part.collected numbered own collected
      rw [total] at inside
      obtain ⟨d, inside, number⟩ := SplitMessage.part_of_number inside
      obtain ⟨m, held, its⟩ := middle.present d inside (all d inside)
      have isPart := (SplitMessage.isPartOf_iff_isPart inside _ _).mp its.part
      exact absent m held ((SplitMessage.isPartOf_iff_isPart own _ _).mpr
        ⟨isPart.1, isPart.2.trans number⟩)
  | assembled _ part assembly =>
      rename_i u t _
      have middle := part.collected numbered own collected
      have first := (part.wrote numbered).numbered
      cases assembly with
      | stored gathers stores deletes =>
          rename_i stored v
          have parts := middle.gathered own gathers.each (fun d member => member)
            (M.numbers.trans total.symm)
          obtain ⟨direction, status, -, -⟩ :=
            assembledOf_fields deliver (partNumbers deliver.concat.totalParts) stored
          obtain ⟨held, same⟩ := stores.held (assembledOf_id ..) direction status
          refine ⟨⟨_, ?_, assembledOf_identity own gathers parts _ same⟩, ?_⟩
          · rw [World.Holds, World.announce_store]
            refine deletes.keeps held ?_
            simp only [List.mem_map, not_exists, not_and]
            intro m member equal
            obtain ⟨number, -, found⟩ := gathers.holds member
            exact stores.apart first (assembledOf_id ..) found.holds found.isPart.status equal.symm
          · intro m here isPart
            rw [World.Holds, World.announce_store] at here
            have before : u.Holds m := by
              rcases stores.source (assembledOf_id ..) (deletes.source here) with before | rfl
              · exact before
              · cases status.symm.trans isPart.2.1
            -- The record is the one found for its number, and that one was deleted.
            obtain ⟨d, inside, -, its⟩ := middle.known m before isPart
            obtain ⟨k, bound, rfl⟩ := List.getElem_of_mem inside
            have length := parts.length_eq
            have mine := (parts.get bound (by omega))
            have found := gathers.each.get (i := k)
              (by rw [gathers.each.length_eq, ← length]; exact bound) (by omega)
            have isPart' := ((SplitMessage.isPartOf_iff_isPart own _ _).mp found.isPart).1
            have number := ((SplitMessage.isPartOf_iff_isPart inside _ _).mp its.part).2
            have number' := ((SplitMessage.isPartOf_iff_isPart inside _ _).mp mine.part).2
            have equal := middle.once m _ before found.holds isPart isPart'
              (number.trans number'.symm)
            refine deletes.clears calm here (List.mem_map.mpr ⟨m, ?_, rfl⟩)
            rw [equal]
            exact List.get_mem ..
  | single single stores =>
      rw [multipart] at single
      cases single
  | singleFailed single stores =>
      rw [multipart] at single
      cases single

theorem Collected.foreign (collected : Collected M got w) (foreign : M.Foreign deliver) :
    Collected M (deliver :: got) w := by
  refine ⟨?_, ?_, collected.once⟩
  · intro m held isPart
    obtain ⟨d, inside, member, own⟩ := collected.known m held isPart
    exact ⟨d, inside, List.mem_cons_of_mem _ member, own⟩
  · intro d inside listed
    rcases List.mem_cons.mp listed with rfl | listed
    · exact absurd ⟨M.senders d inside, M.references d inside, M.totals d inside⟩
        (foreign (M.multipart d inside))
    · exact collected.present d inside listed

theorem collected_nil (none : ∀ m, w.Holds m → ¬ M.IsPart m) : Collected M [] w := by
  refine ⟨?_, ?_, ?_⟩
  · intro m held isPart
    exact absurd isPart (none m held)
  · intro d _ member
    cases member
  · intro m m' held _ isPart
    exact absurd isPart (none m held)

end

/-- No allocation and no store call fails; new records may take the place of old
ones. -/
def calm : Surroundings := ⟨False, True⟩

/-- Besides, no new record finds the journal full. -/
def steady : Surroundings := ⟨False, False⟩

section

variable {env : Surroundings} {M : SplitMessage} {identity : Identity} {w u t : World}

theorem Delivered.few {deliveries : List SmsDeliver} (run : Delivered env.Meets w deliveries t)
    (few : t.issued < idLimit) : w.issued < idLimit := by
  induction run with
  | nil => exact few
  | cons runs rest ih => exact (runs_few runs (ih few)).2

theorem Delivered.split {first second : List SmsDeliver}
    (run : Delivered env.Meets w (first ++ second) t) :
    ∃ u, Delivered env.Meets w first u ∧ Delivered env.Meets u second t := by
  induction first generalizing w with
  | nil => exact ⟨w, .nil, run⟩
  | cons d rest ih =>
      cases run with
      | cons runs later =>
          obtain ⟨u, left, right⟩ := ih later
          exact ⟨u, .cons runs left, right⟩

/-- A run of `persist_deliver` is a delivery step. -/
theorem deliverStep_of_runs {deliver : SmsDeliver}
    {trace : List (Entry World ServiceCall ServiceCall.Reply)} {result : Except EspErr SmsMessage}
    (numbered : w.Numbered) (runs : Runs env.Meets (persistDeliver deliver) w trace result t)
    (few : t.issued < idLimit) : DeliverStep env w deliver result t ∧ t.Numbered := by
  have obeys : Obeys env.Step (fun _ _ => True) (fun result t => DeliverStep env w deliver result t)
      (persistDeliver deliver) w := by
    apply persistDeliver_obeys numbered
    · intros
      trivial
    · intro result t step
      exact step
  have step := (obeys.runs (runs_few runs few).1).1
  obtain ⟨u, stage, store, issued⟩ := step.stage
  refine ⟨step, ?_⟩
  rw [World.Numbered, store, issued]
  exact (stage.wrote numbered).numbered

/-- What holds before the last missing part arrives. -/
structure Gathering (M : SplitMessage) (identity : Identity) (got : List SmsDeliver) (w : World) :
    Prop where
  numbered : w.Numbered
  collected : Collected M got w
  announced : Announced identity w

theorem Delivered.gathering {last : SmsDeliver} {before got : List SmsDeliver}
    (own : last ∈ M.parts) (known : ∀ d ∈ before, d ∈ M.parts ∨ M.Foreign d)
    (absent : last ∉ before) (absent' : last ∉ got) (gathering : Gathering M identity got w)
    (run : Delivered calm.Meets w before t) (few : t.issued < idLimit) :
    Gathering M identity (before.reverse ++ got) t := by
  induction before generalizing w got with
  | nil =>
      cases run
      exact gathering
  | cons d rest ih =>
      cases run with
      | cons runs later =>
          rename_i u _ _
          obtain ⟨step, numbered⟩ := deliverStep_of_runs gathering.numbered runs (later.few few)
          have missing : last ∉ d :: got := by
            simp only [List.mem_cons, not_or] at absent ⊢
            exact ⟨absent.1, absent'⟩
          have collected : Collected M (d :: got) u := by
            rcases known d List.mem_cons_self with mine | foreign
            · exact step.collected id gathering.numbered mine gathering.collected
                ⟨last, own, missing⟩
            · exact (gathering.collected.congr
                (step.foreign gathering.numbered foreign)).foreign foreign
          have next := ih (fun d member => known d (List.mem_cons_of_mem _ member))
            (fun member => absent (List.mem_cons_of_mem _ member)) missing
            ⟨numbered, collected, step.announced id gathering.numbered gathering.announced⟩ later
          simpa using next

/-- One record has the identity, announced exactly once, and no part is left. -/
structure Reassembled (M : SplitMessage) (identity : Identity) (t : World) : Prop where
  record : ∃ m, t.Holds m ∧ identity.Of m ∧ (∀ m', t.Holds m' → identity.Of m' → m' = m) ∧
    t.announcements m.id = [(.received, m)]
  cleared : ∀ m, t.Holds m → ¬ M.IsPart m

/-- Deliveries of other messages leave the reassembled record as it is. -/
theorem Delivered.leaves {after : List SmsDeliver} (foreign : ∀ d ∈ after, M.Foreign d)
    (numbered : w.Numbered) (announced : Announced identity w)
    (held : ∃ m, w.Holds m ∧ identity.Of m) (cleared : ∀ m, w.Holds m → ¬ M.IsPart m)
    (run : Delivered steady.Meets w after t) (few : t.issued < idLimit) : Reassembled M identity t := by
  induction after generalizing w with
  | nil =>
      cases run
      obtain ⟨m, held, mine⟩ := held
      refine ⟨⟨m, held, mine, ?_, announced.event m held mine⟩, cleared⟩
      intro m' held' mine'
      exact announced.once m' m held' held mine' mine
  | cons d rest ih =>
      cases run with
      | cons runs later =>
          obtain ⟨step, numbered'⟩ := deliverStep_of_runs numbered runs (later.few few)
          refine ih (fun d member => foreign d (List.mem_cons_of_mem _ member)) numbered'
            (step.announced id numbered announced) ?_ ?_ later
          · obtain ⟨m, held, mine⟩ := held
            obtain ⟨u, stage, store, -⟩ := step.stage
            refine ⟨m, ?_, mine⟩
            rw [World.Holds, store]
            refine stage.keeps numbered held (.inr id) ?_
            intro _ part isPart
            have status := isPart.status
            rw [Identity.of_iff, status] at mine
            cases mine.2.1
          · intro m held isPart
            exact cleared m ((step.foreign numbered (foreign d List.mem_cons_self) m isPart).mp held)
              isPart

end

/-- The parts of a message arrive in any order and repeatedly, among deliveries of
other messages: once the last missing one is there, the message is stored and
announced once, and its parts are gone. Later deliveries of other messages keep
it so while the journal has room. -/
theorem parts_reassembled {s : Store} {issued : Nat} {M : SplitMessage}
    {before after : List SmsDeliver} {last : SmsDeliver} {mid t : World}
    (reached : s.Reached issued) (noParts : ∀ m, s.Holds m → ¬ M.IsPart m)
    (noRecord : ∀ m, s.Holds m → ¬ (M.identity last.encoding).Of m)
    (known : ∀ d ∈ before, d ∈ M.parts ∨ M.Foreign d) (own : last ∈ M.parts)
    (missing : last ∉ before) (complete : ∀ d ∈ M.parts, d = last ∨ d ∈ before)
    (run : Delivered calm.Meets ⟨s, issued, []⟩ (before ++ [last]) mid)
    (foreign : ∀ d ∈ after, M.Foreign d) (later : Delivered steady.Meets mid after t)
    (few : t.issued < idLimit) : Reassembled M (M.identity last.encoding) t := by
  have fewer := later.few few
  obtain ⟨u, first, second⟩ := run.split
  cases second with
  | cons runs rest =>
      cases rest
      have enough := (runs_few runs fewer).2
      have start : Gathering M (M.identity last.encoding) [] ⟨s, issued, []⟩ := by
        refine ⟨reached.numbered (first.few enough), collected_nil noParts, ?_, ?_, ?_⟩
        · intro m m' held _ mine
          exact absurd mine (noRecord m held)
        · intro m held mine
          exact absurd mine (noRecord m held)
        · intro entry member
          cases member
      have gathering := first.gathering own known missing List.not_mem_nil start enough
      obtain ⟨step, numbered⟩ := deliverStep_of_runs gathering.numbered runs fewer
      have all : ∀ d ∈ M.parts, d ∈ last :: (before.reverse ++ []) := by
        intro d inside
        simpa using complete d inside
      obtain ⟨held, cleared⟩ := step.completes id gathering.numbered own gathering.collected all
      exact later.leaves foreign numbered
        (step.announced id gathering.numbered gathering.announced) held cleared few

/-- The world after deliveries that nothing disturbs. -/
def afterDeliveries (deliveries : List SmsDeliver) (w : World) : World :=
  deliveries.foldl (fun w deliver => afterDelivery deliver w) w

/-- Whether nothing disturbs these deliveries. -/
def undisturbedDeliveries : List SmsDeliver → World → Bool
  | [], _ => true
  | deliver :: later, w =>
      (Prog.trace ServiceCall.handle (persistDeliver deliver) w).all undisturbed &&
        undisturbedDeliveries later (afterDelivery deliver w)

theorem delivered_undisturbed (env : Surroundings) (deliveries : List SmsDeliver) (w : World)
    (fine : undisturbedDeliveries deliveries w = true) :
    Delivered env.Meets w deliveries (afterDeliveries deliveries w) := by
  induction deliveries generalizing w with
  | nil => exact .nil
  | cons deliver later ih =>
      simp only [undisturbedDeliveries, Bool.and_eq_true] at fine
      exact .cons (runs_undisturbed env _ w fine.1) (ih _ fine.2)

instance (M : SplitMessage) (m : SmsMessage) : Decidable (M.IsPart m) :=
  inferInstanceAs (Decidable (_ ∧ _ ∧ _ ∧ _ ∧ _ ∧ _))

instance (M : SplitMessage) (d : SmsDeliver) : Decidable (M.Foreign d) :=
  inferInstanceAs (Decidable (_ → ¬ _))

/-- Part 1 or 2 of a message with reference 7, each with the text `A`. -/
def halfOf (part : UInt8) : SmsDeliver := (smsDeliverDecode (partPdu part)).2

def twoHalves : SplitMessage where
  sender := (halfOf 1).sender.str
  reference := 7
  parts := [halfOf 1, halfOf 2]
  positive := by decide
  most := by decide
  multipart := by decide +kernel
  senders := by decide +kernel
  references := by decide +kernel
  totals := by decide +kernel
  numbers := by decide +kernel
  fits := by decide +kernel

theorem store_empty_holds (m : SmsMessage) : ¬ Store.empty.Holds m := by
  rintro ⟨slot, stored⟩
  cases stored

theorem parts_reassembled_second_first :
    let start : World := ⟨.empty, 0, []⟩
    Reassembled twoHalves (twoHalves.identity (halfOf 1).encoding)
      (afterDeliveries [narrowPart 9]
        (afterDeliveries ([halfOf 2, narrowPart 8, halfOf 2] ++ [halfOf 1]) start)) := by
  refine parts_reassembled .empty (fun m held => absurd held (store_empty_holds m))
    (fun m held => absurd held (store_empty_holds m)) ?_ ?_ ?_ ?_
    (delivered_undisturbed calm _ _ ?_) ?_ (delivered_undisturbed steady _ _ ?_) ?_
  all_goals decide +kernel

/-! Two ways in which a message is not reassembled although no store call fails: the
id counter has wrapped around, or no memory is left. -/

/-- The only part of a message with reference 7. -/
def wholePart : SmsDeliver :=
  (smsDeliverDecode (pduOf [0x00, 0x40, 0x04, 0x91, 0x21, 0x43, 0x00, 0x00, 0x42, 0x10, 0x10, 0x00,
    0x00, 0x00, 0x00, 0x08, 0x05, 0x00, 0x03, 0x07, 0x01, 0x01, 0x82])).2

def wholeMessage : SplitMessage where
  sender := wholePart.sender.str
  reference := 7
  parts := [wholePart]
  positive := by decide
  most := by decide
  multipart := by decide +kernel
  senders := by decide +kernel
  references := by decide +kernel
  totals := by decide +kernel
  numbers := by decide +kernel
  fits := by decide +kernel

/-- A journal with one record, under id 1. -/
def oneRecord : Store := saveFaultless .zero .empty

/-- The same journal once the id counter has come back to 1. -/
theorem oneRecord_wrapped : (oneRecord.withNext 1).Reached (2 ^ 32 - 1) := by
  have one : oneRecord.Reached 1 := by
    have step := Store.Reached.empty.saveFaultless .zero (Nat.zero_le _)
    have count : 0 + Store.allocations .empty (saveFaultless .zero .empty) = 1 := by
      decide +kernel
    rw [count] at step
    exact step
  have sound : oneRecord.Sound := (one.numbered (by decide)).sound
  have free : oneRecord.freeSlot = some ⟨1, by decide⟩ := by decide +kernel
  have same : oneRecord.withNext 2 = oneRecord := by
    have counter : oneRecord.nextId = some 2 := by decide +kernel
    rw [Store.withNext, ← counter]
  rw [← same] at one
  have last := one.advance sound free (by decide) (2 ^ 32 - 3) (by decide)
  exact last.skip (sound.congr rfl) free

/-- Every store call succeeds; an allocation need not. -/
def storeSucceeds (w : World) (request : ServiceCall) (reply : request.Reply) (t : World) : Prop :=
  request.Answers w reply t ∧ (request.Fails reply → request = .alloc)

/-- What `parts_reassembled` says, for all steps of a kind and ids up to a limit. -/
def ReassemblesUnder (step : World → (request : ServiceCall) → request.Reply → World → Prop)
    (limit : Nat) : Prop :=
  ∀ (s : Store) (issued : Nat) (M : SplitMessage) (before after : List SmsDeliver)
    (last : SmsDeliver) (t : World), s.Reached issued → (∀ m, s.Holds m → ¬ M.IsPart m) →
    (∀ m, s.Holds m → ¬ (M.identity last.encoding).Of m) →
    (∀ d ∈ before, d ∈ M.parts ∨ M.Foreign d) → last ∈ M.parts → last ∉ before →
    (∀ d ∈ M.parts, d = last ∨ d ∈ before) → (∀ d ∈ after, M.Foreign d) →
    Delivered step ⟨s, issued, []⟩ (before ++ last :: after) t → t.issued < limit →
    Reassembled M (M.identity last.encoding) t

theorem not_reassembled_wrapped_or_starved :
    ¬ ReassemblesUnder steady.Meets (2 ^ 32 + 2) ∧ ¬ ReassemblesUnder storeSucceeds idLimit := by
  constructor
  · intro claim
    have none : ∀ m, oneRecord.Holds m → ¬ wholeMessage.IsPart m ∧ m.status ≠ .received := by
      rintro m ⟨slot, stored⟩
      have each : (allSlots.all fun slot => (oneRecord.view slot).all fun m =>
          !decide (wholeMessage.IsPart m) && m.status != .received) = true := by
        decide +kernel
      have here := List.all_eq_true.mp each slot (Store.mem_allSlots slot)
      simpa [stored] using here
    have run := delivered_undisturbed steady [wholePart] ⟨oneRecord.withNext 1, 2 ^ 32 - 1, []⟩
      (by decide +kernel)
    have done := claim _ _ wholeMessage [] [] wholePart _ oneRecord_wrapped
      (fun m held => (none m held).1)
      (fun m held mine => (none m held).2 ((Identity.of_iff _ _).mp mine).2.1)
      (by decide) (by decide +kernel) (by decide) (by decide +kernel) (by decide) run
      (by decide +kernel)
    have left : (allSlots.any fun slot => ((afterDeliveries [wholePart]
        ⟨oneRecord.withNext 1, 2 ^ 32 - 1, []⟩).store.view slot).any fun m =>
          decide (wholeMessage.IsPart m)) = true := by
      decide +kernel
    obtain ⟨slot, -, found⟩ := List.any_eq_true.mp left
    obtain ⟨m, stored, isPart⟩ := Option.any_eq_true _ _ |>.mp found
    exact done.cleared m ⟨slot, stored⟩ (of_decide_eq_true isPart)
  · intro claim
    have run : Runs storeSucceeds (persistDeliver wholePart) ⟨.empty, 0, []⟩
        [⟨_, .alloc, false⟩] (.error .noMem) ⟨.empty, 0, []⟩ :=
      .call ⟨rfl, fun _ => rfl⟩ .done
    have done := claim .empty 0 wholeMessage [] [] wholePart _ .empty
      (fun m held => absurd held (store_empty_holds m))
      (fun m held => absurd held (store_empty_holds m)) (by decide) (by decide +kernel)
      (by decide) (by decide +kernel) (by decide) (.cons run .nil) (by decide)
    obtain ⟨m, held, -⟩ := done.record
    exact store_empty_holds m held

end SmsGateway
