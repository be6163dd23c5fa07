import SmsGateway.Service.Outbound
import SmsGateway.Store.Holds

/-! What each call of the service can do, and the rule for a program that starts
with it. -/

namespace SmsGateway

open Lib Prog

/-- What a run may meet: failing calls, and a full journal at a new record. -/
structure Surroundings where
  mayFail : Prop
  mayPrune : Prop

/-- A failed allocation or store call. A search that finds nothing did not fail. -/
def ServiceCall.Fails : (request : ServiceCall) → request.Reply → Prop
  | .alloc, reply => reply = false
  | .query _, reply => ∃ e, reply = .error e ∧ e ≠ .notFound
  | .findOutboundReference _ _, reply => ∃ e, reply = .error e ∧ e ≠ .notFound
  | .list _ _, reply => ∃ e, reply = .error e
  | .save _, reply => ∃ e, reply.1 = .error e
  | .delete _, reply => ∃ e, reply = .error e
  | .isReady, _ | .pduModeConfigured, _ | .espRandom, _ | .execute _, _ | .emit _ _, _ => False

/-- A new record finds no free slot. -/
def ServiceCall.FindsFull (w : World) : ServiceCall → Prop
  | .save message => message.id = 0 ∧ w.store.freeSlot = none
  | _ => False

/-- A call and its answer, with fewer than 2^32 - 1 ids given out. -/
def Surroundings.Step (env : Surroundings) (w : World) (request : ServiceCall)
    (reply : request.Reply) (t : World) : Prop :=
  request.Answers w reply t ∧ t.issued < idLimit ∧ (request.Fails reply → env.mayFail) ∧
    (request.FindsFull w → env.mayPrune)

/-- A call and its answer, however many ids were given out. -/
def Surroundings.Meets (env : Surroundings) (w : World) (request : ServiceCall)
    (reply : request.Reply) (t : World) : Prop :=
  request.Answers w reply t ∧ (request.Fails reply → env.mayFail) ∧
    (request.FindsFull w → env.mayPrune)

/-- Every call may fail and the journal may be full. -/
def anySurroundings : Surroundings := ⟨True, True⟩

theorem ServiceCall.Answers.issued_le {w t : World} {request : ServiceCall}
    {reply : request.Reply} (answers : request.Answers w reply t) : w.issued ≤ t.issued := by
  cases request <;> first
    | exact (congrArg World.issued (answers : t = _)).ge
    | (obtain ⟨plan, -, rfl⟩ := answers
       exact Nat.le_add_right _ _)

/-- A run with few ids is a run in surroundings where anything may fail. -/
theorem runs_any {α : Type} {p : ServiceM α} {w t : World}
    {trace : List (Entry World ServiceCall ServiceCall.Reply)} {result : α}
    (runs : Runs ServiceCall.Answers p w trace result t) (few : t.issued < idLimit) :
    Runs anySurroundings.Step p w trace result t ∧ w.issued < idLimit := by
  refine Runs.bounded World.issued ?_ ?_ runs few
  · intro s request reply t answers
    exact answers.issued_le
  · intro s request reply t answers small
    exact ⟨answers, small, fun _ => trivial, fun _ => trivial⟩

/-- A run with few ids, in the surroundings given. -/
theorem runs_few {env : Surroundings} {α : Type} {p : ServiceM α} {w t : World}
    {trace : List (Entry World ServiceCall ServiceCall.Reply)} {result : α}
    (runs : Runs env.Meets p w trace result t) (few : t.issued < idLimit) :
    Runs env.Step p w trace result t ∧ w.issued < idLimit := by
  refine Runs.bounded World.issued ?_ ?_ runs few
  · intro s request reply t meets
    exact meets.1.issued_le
  · intro s request reply t meets small
    exact ⟨meets.1, small, meets.2⟩

/-- A call that succeeded, and whose new record, if any, found a free slot. -/
def undisturbed (entry : Entry World ServiceCall ServiceCall.Reply) : Bool :=
  match entry with
  | ⟨_, .alloc, reply⟩ => reply
  | ⟨_, .query _, .error e⟩ => e == .notFound
  | ⟨_, .findOutboundReference _ _, .error e⟩ => e == .notFound
  | ⟨_, .list _ _, reply⟩ => reply.isOk
  | ⟨w, .save message, (reply, _)⟩ => reply.isOk && (message.id != 0 || w.store.freeSlot.isSome)
  | ⟨_, .delete _, reply⟩ => reply.isOk
  | _ => true

theorem undisturbed_fine {entry : Entry World ServiceCall ServiceCall.Reply}
    (fine : undisturbed entry = true) :
    ¬ entry.request.Fails entry.reply ∧ ¬ entry.request.FindsFull entry.before := by
  obtain ⟨w, request, reply⟩ := entry
  cases request with
  | alloc => simpa [undisturbed, ServiceCall.Fails, ServiceCall.FindsFull] using fine
  | query wanted =>
      cases reply with
      | ok m => simp [ServiceCall.Fails, ServiceCall.FindsFull]
      | error e => simpa [undisturbed, ServiceCall.Fails, ServiceCall.FindsFull] using fine
  | findOutboundReference recipient reference =>
      cases reply with
      | ok found => simp [ServiceCall.Fails, ServiceCall.FindsFull]
      | error e => simpa [undisturbed, ServiceCall.Fails, ServiceCall.FindsFull] using fine
  | list afterId maxRecords =>
      cases reply <;> simp [undisturbed, Except.isOk, Except.toBool] at fine
      simp [ServiceCall.Fails, ServiceCall.FindsFull]
  | save message =>
      obtain ⟨reply, back⟩ := reply
      cases reply with
      | error e => simp [undisturbed, Except.isOk, Except.toBool] at fine
      | ok _ =>
          simp only [undisturbed, Except.isOk, Except.toBool, Bool.true_and, Bool.or_eq_true,
            bne_iff_ne, ne_eq] at fine
          refine ⟨by simp [ServiceCall.Fails], ?_⟩
          rintro ⟨unnamed, full⟩
          simp [unnamed, full] at fine
  | delete id =>
      cases reply <;> simp [undisturbed, Except.isOk, Except.toBool] at fine
      simp [ServiceCall.Fails, ServiceCall.FindsFull]
  | _ => exact ⟨id, id⟩

/-- A run that nothing disturbs is a run in all surroundings. -/
theorem runs_undisturbed (env : Surroundings) {α : Type} (p : ServiceM α) (w : World)
    (fine : (trace ServiceCall.handle p w).all undisturbed = true) :
    Runs env.Meets p w (trace ServiceCall.handle p w) (run ServiceCall.handle p w).1
      (run ServiceCall.handle p w).2 := by
  refine runs_of_trace ServiceCall.handle (fun entry => undisturbed entry = true) ?_ p w
    (List.all_eq_true.mp fine)
  intro request s good
  obtain ⟨succeeds, roomy⟩ := undisturbed_fine good
  exact ⟨request.handle_answers s, fun fails => absurd fails succeeds,
    fun full => absurd full roomy⟩

theorem reaches_any {α : Type} {p : ServiceM α} {w t : World}
    (reaches : Reaches ServiceCall.Answers p w t) (few : t.issued < idLimit) :
    Reaches anySurroundings.Step p w t ∧ w.issued < idLimit := by
  refine Reaches.bounded World.issued ?_ ?_ reaches few
  · intro s request reply t answers
    exact answers.issued_le
  · intro s request reply t answers small
    exact ⟨answers, small, fun _ => trivial, fun _ => trivial⟩

namespace World

def Numbered (w : World) : Prop := w.store.Numbered w.issued

def Holds (w : World) (message : SmsMessage) : Prop := w.store.Holds message

theorem withStore_self (w : World) : w.withStore w.store = w := by
  simp [withStore, Store.allocations]

theorem Performs.of_reads {α : Type} {w t : World} {op : StoreM (Except EspErr α)}
    {value reply : Except EspErr α} (reads : Reads op w.store value)
    (performs : w.Performs op reply t) :
    t = w ∧ (reply = value ∨ ∃ code, reply = .error (.nvs code)) := by
  obtain ⟨plan, rfl, rfl⟩ := performs
  refine ⟨?_, reads.outcome plan⟩
  rw [reads.state plan, withStore_self]

/-- A writing call: the events stay, and ids are only added. -/
structure Wrote (w t : World) : Prop where
  numbered : t.Numbered
  events : t.events = w.events
  issued : w.issued ≤ t.issued

theorem performs_save {w t : World} {message : SmsMessage}
    {reply : Except EspErr Unit × SmsMessage} (numbered : w.Numbered)
    (known : message.id.toNat ≤ w.issued) (performs : w.Performs (smsStoreSave message) reply t)
    (room : t.issued < idLimit) :
    w.Wrote t ∧ Store.SaveEffect w.store t.store message reply ∧ reply.1 ≠ .error .notFound := by
  obtain ⟨plan, rfl, rfl⟩ := performs
  have ending := smsStoreSave_end plan numbered.sound message
  exact ⟨⟨ending.numbered numbered known room, rfl, Nat.le_add_right _ _⟩,
    Store.smsStoreSave_effect plan numbered message,
    Store.smsStoreSave_ne_notFound plan numbered.sound message⟩

theorem performs_delete {w t : World} {id : UInt32} {reply : Except EspErr Unit}
    (numbered : w.Numbered) (performs : w.Performs (smsStoreDelete id) reply t) :
    w.Wrote t ∧ Store.DeleteEffect w.store t.store id reply := by
  obtain ⟨plan, rfl, rfl⟩ := performs
  have ending := smsStoreDelete_end plan numbered.sound id
  have counter : (smsStoreDelete id (plan, w.store)).2.2.nextId = w.store.nextId := by
    generalize (smsStoreDelete id (plan, w.store)).1 = result at ending
    generalize (smsStoreDelete id (plan, w.store)).2.2 = after at ending
    cases ending <;> rfl
  have same : (w.withStore (smsStoreDelete id (plan, w.store)).2.2).issued = w.issued := by
    simp [withStore, Store.allocations_of_eq counter]
  refine ⟨⟨?_, rfl, same.ge⟩, Store.smsStoreDelete_effect plan numbered id⟩
  have after := ending.numbered numbered
  rw [← same] at after
  exact after

end World

namespace StoreQuery

/-- The records a search may return. -/
def Matches : StoreQuery → SmsMessage → Bool
  | .get id => fun m => m.id == id
  | .findStatus status => fun m => m.status == status
  | .findPartial sender reference totalParts partNumber =>
      isPartialOf sender reference totalParts partNumber
  | .findInboundIdentity sender timestamp encoding text =>
      isInboundIdentity sender timestamp encoding text
  | .findInboundRawPdu pdu => isInboundRawPdu pdu

/-- The searches by content return the first match in slot order. -/
def First (w : World) (wanted : StoreQuery) (m : SmsMessage) : Prop :=
  match wanted with
  | .get _ | .findStatus _ => True
  | _ => w.store.recordWhere wanted.Matches = some m

/-- A search returns a matching record, reports that there is none, or fails. -/
def Found (w : World) (wanted : StoreQuery) : Except EspErr SmsMessage → Prop
  | .ok m => w.Holds m ∧ wanted.Matches m = true ∧ wanted.First w m
  | .error .notFound => ∀ m, w.Holds m → wanted.Matches m = false
  | .error _ => True

/-- What a search says of a journal that may hold any ids. -/
structure Searched (w : World) (wanted : StoreQuery) (reply : Except EspErr SmsMessage) : Prop where
  held : ∀ m, reply = .ok m → w.Holds m ∧ wanted.Matches m = true ∧ wanted.First w m
  missed : reply = .error .notFound → ∀ m, w.Holds m → m.id < uint32Max → wanted.Matches m = false

section

variable {w t : World} {wanted : StoreQuery} {reply : Except EspErr SmsMessage}

theorem Searched.failed {e : EspErr} (other : e ≠ .notFound) : Searched w wanted (.error e) := by
  refine ⟨?_, ?_⟩
  · intro m equal
    cases equal
  · intro equal
    cases equal
    exact absurd rfl other

/-- What a search returns, when it is not refused. -/
theorem Searched.of_reads {value : Except EspErr SmsMessage} (reads : Reads wanted.run w.store value)
    (performs : w.Performs wanted.run reply t) (searched : Searched w wanted value) :
    t = w ∧ Searched w wanted reply := by
  obtain ⟨same, rfl | ⟨code, rfl⟩⟩ := performs.of_reads reads
  · exact ⟨same, searched⟩
  · exact ⟨same, .failed (by simp)⟩

theorem Searched.of_record
    (byContent : ∀ m, w.store.recordWhere wanted.Matches = some m → wanted.First w m) :
    Searched w wanted (Store.orError .notFound (w.store.recordWhere wanted.Matches)) := by
  rcases w.store.recordWhere_holds wanted.Matches with ⟨m, found, held, passes⟩ | ⟨found, none⟩
  · rw [found]
    refine ⟨?_, fun equal => by cases equal⟩
    rintro _ ⟨⟩
    exact ⟨held, passes, byContent m found⟩
  · rw [found]
    exact ⟨fun m equal => (by cases equal), fun _ m held _ => none m held⟩

theorem Searched.of_slot {slot : Option Slot} (unordered : ∀ m, wanted.First w m)
    (found : ∀ place, slot = some place →
      ∃ m, w.store.view place = some m ∧ wanted.Matches m = true)
    (none : slot = none → ∀ m, w.Holds m → m.id < uint32Max → wanted.Matches m = false) :
    Searched w wanted (Store.orError .notFound (slot.bind w.store.view)) := by
  cases slot with
  | none => exact ⟨fun m equal => (by cases equal), fun _ => none rfl⟩
  | some place =>
      obtain ⟨m, stored, passes⟩ := found place rfl
      rw [Option.bind_some, stored]
      refine ⟨?_, fun equal => by cases equal⟩
      rintro _ ⟨⟩
      exact ⟨⟨place, stored⟩, passes, unordered m⟩

theorem performs_search (sound : w.store.Sound) (performs : w.Performs wanted.run reply t) :
    t = w ∧ Searched w wanted reply := by
  cases wanted with
  | get id =>
      by_cases named : id = 0
      · have reads : Reads (smsStoreGet id) w.store (.error .invalidArg) := by
          simp only [smsStoreGet, named, ↓reduceIte]
          exact .pure _ _
        exact Searched.of_reads reads performs (.failed (by simp))
      · refine Searched.of_reads (smsStoreGet_reads sound id named) performs
          (.of_slot (fun _ => trivial) ?_ ?_)
        · intro slot found
          obtain ⟨m, stored, same⟩ := Store.slotOf_some found
          exact ⟨m, stored, by simp [Matches, same]⟩
        · rintro absent m ⟨slot, stored⟩ -
          simpa [Matches] using Store.slotOf_none absent slot stored
  | findStatus status =>
      refine Searched.of_reads (smsStoreFindStatus_reads sound status) performs
        (.of_slot (fun _ => trivial) ?_ ?_)
      · intro slot found
        obtain ⟨m, stored, passes, -⟩ := Store.leastSlot_some found
        exact ⟨m, stored, passes⟩
      · rintro absent m ⟨slot, stored⟩ below
        exact Store.leastSlot_none absent slot stored below
  | findPartial sender reference totalParts partNumber =>
      by_cases valid : totalParts ≠ 0 ∧ partNumber ≠ 0
      · exact Searched.of_reads
          (smsStoreFindPartial_reads sound sender reference totalParts partNumber valid) performs
          (.of_record fun m first => first)
      · have reads : Reads (smsStoreFindPartial sender reference totalParts partNumber) w.store
            (.error .invalidArg) := by
          have zero : totalParts = 0 ∨ partNumber = 0 := by
            simp only [ne_eq, not_and_or, not_not] at valid
            exact valid
          simp only [smsStoreFindPartial, zero, ↓reduceIte]
          exact .pure _ _
        exact Searched.of_reads reads performs (.failed (by simp))
  | findInboundIdentity sender timestamp encoding text =>
      exact Searched.of_reads (findRecord_reads sound (isInboundIdentity sender timestamp encoding text))
        performs (.of_record fun m first => first)
  | findInboundRawPdu pdu =>
      exact Searched.of_reads (findRecord_reads sound (isInboundRawPdu pdu)) performs
        (.of_record fun m first => first)

theorem performs_find (numbered : w.Numbered) (performs : w.Performs wanted.run reply t) :
    t = w ∧ Found w wanted reply := by
  obtain ⟨same, searched⟩ := performs_search numbered.sound performs
  refine ⟨same, ?_⟩
  cases reply with
  | ok m => exact searched.held m rfl
  | error e =>
      cases e with
      | notFound =>
          rintro m ⟨slot, stored⟩
          refine searched.missed rfl m ⟨slot, stored⟩ ?_
          have bound := (numbered.allocated slot m stored).2
          have range := numbered.inRange
          rw [UInt32.lt_iff_toNat_lt]
          simp only [idLimit, uint32Max, UInt32.reduceToNat] at range ⊢
          omega
      | _ => trivial

end

end StoreQuery

/-- Segment `i` of the record was sent to the recipient under this reference. -/
structure SentUnder (recipient : CStr) (reference : UInt8) (m : SmsMessage) (i : Nat) : Prop where
  outbound : m.direction = .outbound
  recipient : m.recipient.str = recipient
  inside : i < m.segmentCount.toNat
  sent : segmentBit m.segmentSentMask i = true
  reference : m.modemReference[i]? = some reference

theorem visitOutbound_sentUnder {s : Store} {recipient : CStr} {reference : UInt8} (slot : Slot)
    (best : Option (Slot × Nat) × UInt32)
    (before : ∀ slot i, best.1 = some (slot, i) →
      ∃ m, s.view slot = some m ∧ SentUnder recipient reference m i) :
    ∀ other i, (visitOutbound recipient reference best slot (s.view slot)).1 = some (other, i) →
      ∃ m, s.view other = some m ∧ SentUnder recipient reference m i := by
  cases stored : s.view slot with
  | none => exact before
  | some m =>
      simp only [visitOutbound]
      split
      · exact before
      · rename_i mine
        simp only [ne_eq, not_or, not_not] at mine
        -- The inner loop over the segments of one record.
        have inner (indices : List Nat) (inside : ∀ i ∈ indices, i < m.segmentCount.toNat) :
            ∀ best : Option (Slot × Nat) × UInt32,
            (∀ slot i, best.1 = some (slot, i) →
              ∃ m, s.view slot = some m ∧ SentUnder recipient reference m i) →
            ∀ other i, (indices.foldl (visitReference reference slot m) best).1 =
              some (other, i) →
              ∃ m, s.view other = some m ∧ SentUnder recipient reference m i := by
          induction indices with
          | nil => exact fun best before => before
          | cons index rest ih =>
              intro best before
              rw [List.foldl_cons]
              apply ih fun i member => inside i (List.mem_cons_of_mem _ member)
              intro other i
              simp only [visitReference]
              split
              · rename_i hit
                intro equal
                cases equal
                exact ⟨m, stored, mine.1, mine.2, inside index List.mem_cons_self, hit.1, hit.2.1⟩
              · exact before other i
        exact inner _ (fun i member => List.mem_range.mp member) best before

theorem newestReference_sentUnder {s : Store} {recipient : CStr} {reference : UInt8} {slot : Slot}
    {i : Nat} (found : s.newestReference recipient reference = some (slot, i)) :
    ∃ m, s.view slot = some m ∧ SentUnder recipient reference m i := by
  have scan (slots : List Slot) : ∀ best : Option (Slot × Nat) × UInt32,
      (∀ slot i, best.1 = some (slot, i) →
        ∃ m, s.view slot = some m ∧ SentUnder recipient reference m i) →
      ∀ slot i, (slots.foldl
        (fun best slot => visitOutbound recipient reference best slot (s.view slot)) best).1 =
          some (slot, i) →
        ∃ m, s.view slot = some m ∧ SentUnder recipient reference m i := by
    induction slots with
    | nil => exact fun best before => before
    | cons first rest ih =>
        intro best before
        exact ih _ (visitOutbound_sentUnder first best before)
  refine scan allSlots (none, 0) ?_ slot i found
  intro slot i equal
  cases equal

theorem World.performs_findOutbound {w t : World} {recipient : CStr} {reference : UInt8}
    {reply : Except EspErr (SmsMessage × Nat)} (sound : w.store.Sound)
    (performs : w.Performs (smsStoreFindOutboundReference recipient reference) reply t) :
    t = w ∧ ∀ m i, reply = .ok (m, i) → w.Holds m ∧ SentUnder recipient reference m i := by
  obtain ⟨same, outcome⟩ := performs.of_reads
    (smsStoreFindOutboundReference_reads sound recipient reference)
  refine ⟨same, ?_⟩
  rintro m i rfl
  rcases outcome with equal | ⟨code, equal⟩
  · cases found : w.store.newestReference recipient reference with
    | none =>
        rw [found] at equal
        cases equal
    | some place =>
        obtain ⟨slot, index⟩ := place
        obtain ⟨record, stored, sent⟩ := newestReference_sentUnder found
        simp only [found, stored, Option.getD_some] at equal
        cases equal
        exact ⟨⟨slot, stored⟩, sent⟩
  · cases equal

theorem World.performs_list {w t : World} {afterId : UInt32} {maxRecords : Nat}
    {reply : Except EspErr (List SmsMessage)} (sound : w.store.Sound) (positive : maxRecords ≠ 0)
    (performs : w.Performs (smsStoreList afterId maxRecords) reply t) :
    t = w ∧ ∀ records, reply = .ok records → ∀ m ∈ records, w.Holds m := by
  obtain ⟨same, outcome⟩ := performs.of_reads
    (smsStoreList_reads sound afterId maxRecords positive)
  refine ⟨same, ?_⟩
  rintro records rfl m member
  rcases outcome with equal | ⟨code, equal⟩
  · cases equal
    rw [(insertionSort_perm _).mem_iff] at member
    have scan (slots : List Slot) : ∀ records : List SmsMessage, (∀ m ∈ records, w.Holds m) →
        ∀ m ∈ slots.foldl (fun records slot =>
          visitList afterId maxRecords records slot (w.store.view slot)) records, w.Holds m := by
      induction slots with
      | nil => exact fun records held => held
      | cons slot rest ih =>
          intro records held
          refine ih _ ?_
          intro m member
          cases stored : w.store.view slot with
          | none =>
              simp only [stored, visitList] at member
              exact held m member
          | some record =>
              have here : w.Holds record := ⟨slot, stored⟩
              simp only [stored, visitList] at member
              split at member
              · exact held m member
              · split at member
                · rcases List.mem_append.mp member with member | member
                  · exact held m member
                  · rw [List.mem_singleton.mp member]
                    exact here
                · split at member
                  · exact held m member
                  · split at member
                    · rcases List.mem_or_eq_of_mem_set member with member | rfl
                      · exact held m member
                      · exact here
                    · exact held m member
    exact scan allSlots [] (by simp) m member
  · cases equal

/-! Rules for programs that start with a call. -/

section

variable {env : Surroundings} {allowed : World → ServiceCall → Prop} {β : Type}
  {post : β → World → Prop} {w : World}

theorem obeys_allocate {f : Bool → ServiceM β} (may : allowed w .alloc)
    (granted : Obeys env.Step allowed post (f true) w)
    (refused : env.mayFail → Obeys env.Step allowed post (f false) w) :
    Obeys env.Step allowed post (allocate >>= f) w := by
  refine Obeys.send may ?_
  rintro reply t ⟨rfl, -, fails, -⟩
  cases reply with
  | true => exact granted
  | false => exact refused (fails rfl)

theorem obeys_find {wanted : StoreQuery} {f : Except EspErr SmsMessage → ServiceM β}
    (numbered : w.Numbered) (may : allowed w (.query wanted))
    (found : ∀ m, w.Holds m → wanted.Matches m = true → wanted.First w m →
      Obeys env.Step allowed post (f (.ok m)) w)
    (absent : (∀ m, w.Holds m → wanted.Matches m = false) →
      Obeys env.Step allowed post (f (.error .notFound)) w)
    (failed : env.mayFail → ∀ e, e ≠ .notFound → Obeys env.Step allowed post (f (.error e)) w) :
    Obeys env.Step allowed post (storeFind wanted >>= f) w := by
  refine Obeys.send may ?_
  rintro reply t ⟨answers, -, fails, -⟩
  obtain ⟨rfl, outcome⟩ := StoreQuery.performs_find numbered answers
  cases reply with
  | ok m => exact found m outcome.1 outcome.2.1 outcome.2.2
  | error e =>
      by_cases missing : e = .notFound
      · subst missing
        exact absent outcome
      · exact failed (fails ⟨e, rfl, missing⟩) e missing

theorem obeys_save {message : SmsMessage} {f : Except EspErr Unit × SmsMessage → ServiceM β}
    (numbered : w.Numbered) (known : message.id.toNat ≤ w.issued)
    (may : allowed w (.save message))
    (next : ∀ reply t, w.Wrote t → Store.SaveEffect w.store t.store message reply →
      reply.1 ≠ .error .notFound → ((∃ e, reply.1 = .error e) → env.mayFail) →
      (message.id = 0 → w.store.freeSlot = none → env.mayPrune) →
      Obeys env.Step allowed post (f reply) t) :
    Obeys env.Step allowed post (storeSave message >>= f) w := by
  refine Obeys.send may ?_
  rintro reply t ⟨answers, room, fails, full⟩
  obtain ⟨wrote, effect, never⟩ := World.performs_save numbered known answers room
  exact next reply t wrote effect never fails fun unnamed none => full ⟨unnamed, none⟩

theorem obeys_delete {id : UInt32} {f : Except EspErr Unit → ServiceM β} (numbered : w.Numbered)
    (may : allowed w (.delete id))
    (next : ∀ reply t, w.Wrote t → Store.DeleteEffect w.store t.store id reply →
      ((∃ e, reply = .error e) → env.mayFail) → Obeys env.Step allowed post (f reply) t) :
    Obeys env.Step allowed post (storeDelete id >>= f) w := by
  refine Obeys.send may ?_
  rintro reply t ⟨answers, -, fails, -⟩
  obtain ⟨wrote, effect⟩ := World.performs_delete numbered answers
  exact next reply t wrote effect fails

theorem obeys_emit {event : SmsServiceEvent} {message : SmsMessage} {f : Unit → ServiceM β}
    (may : allowed w (.emit event message))
    (next : Obeys env.Step allowed post (f ()) (w.emit event message)) :
    Obeys env.Step allowed post (emitEvent event message >>= f) w := by
  refine Obeys.send may ?_
  rintro reply t ⟨rfl, -⟩
  exact next

end

end SmsGateway
