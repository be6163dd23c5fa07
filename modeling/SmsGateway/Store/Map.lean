import SmsGateway.Lib.BoundedMap
import SmsGateway.Lib.Runs
import SmsGateway.Store.Numbering

/-! The journal as a bounded map from ids to messages.

The abstract store forgets slots, blobs and the flash: it keeps the message of
each id, the last id it gave out and what the replay watermark protects. -/

namespace SmsGateway

open Lib

inductive StoreCall where
  | save (message : SmsMessage)
  | get (id : UInt32)
  | delete (id : UInt32)
  | setReplayWatermark (protectionEnabled : Bool) (watermark : UInt32)

inductive StoreReply where
  | saved (result : Except EspErr Unit) (message : SmsMessage)
  | got (result : Except EspErr SmsMessage)
  | deleted (result : Except EspErr Unit)
  | done

/-- One call on a flash that refuses nothing. -/
def StoreCall.perform (s : Store) : StoreCall → StoreReply × Store
  | .save message =>
      let run := smsStoreSave message (Plan.faultless, s)
      (.saved run.1.1 run.1.2, run.2.2)
  | .get id =>
      let run := smsStoreGet id (Plan.faultless, s)
      (.got run.1, run.2.2)
  | .delete id =>
      let run := smsStoreDelete id (Plan.faultless, s)
      (.deleted run.1, run.2.2)
  | .setReplayWatermark protectionEnabled watermark =>
      (.done, smsStoreSetReplayWatermark protectionEnabled watermark s)

/-- The calls of a session with their replies, and the journal they leave. -/
def session (calls : List StoreCall) : List (StoreCall × StoreReply) × Store :=
  calls.foldl (fun (trace, s) call =>
    (trace ++ [(call, (call.perform s).1)], (call.perform s).2)) ([], Store.empty)

/-- The id a call gave to a new record. -/
def issuedId : StoreCall × StoreReply → Option UInt32
  | (.save message, .saved (.ok ()) stored) => if message.id = 0 then some stored.id else none
  | _ => none

def issued (trace : List (StoreCall × StoreReply)) : List UInt32 := trace.filterMap issuedId

/-- A record saved under an id carries one that an earlier save gave out. -/
def Disciplined (calls : List StoreCall) : Prop :=
  ∀ before message after, calls = before ++ .save message :: after →
    message.id = 0 ∨ message.id ∈ issued (session before).1

structure RecordMap where
  value : Nat → Option SmsMessage
  lastId : Nat
  watermark : Nat
  protectionEnabled : Bool

namespace RecordMap

def empty : RecordMap := ⟨fun _ => none, 0, 0, true⟩

/-- What may be given up for a new record: settled messages, and received ones
that nobody has still to fetch. -/
def Prunable (m : RecordMap) (message : SmsMessage) : Prop :=
  message.status ∈ [.delivered, .failed, .unsupported] ∨
    (message.status = .sent ∧ message.deliveryReportRequested = false) ∨
    (message.status = .received ∧
      (m.protectionEnabled = false ∨ message.id.toNat ≤ m.watermark))

def set (m : RecordMap) (id : Nat) (message : SmsMessage) : RecordMap :=
  { m with value := Function.update m.value id (some message) }

def erase (m : RecordMap) (id : Nat) : RecordMap :=
  { m with value := Function.update m.value id none }

/-- The abstract store, call by call. -/
inductive Step : RecordMap → StoreCall × StoreReply → RecordMap → Prop where
  | rejected {m : RecordMap} {message : SmsMessage} (malformed : message.storable = false) :
      Step m (.save message, .saved (.error .invalidArg) message) m
  | inserted {m : RecordMap} {message : SmsMessage} {id : UInt32} {value : Nat → Option SmsMessage}
      (wellFormed : message.storable = true) (unnamed : message.id = 0)
      (fresh : m.lastId < id.toNat)
      (stored : Inserted smsStoreMaxRecords m.Prunable m.value id.toNat (message.withId id) value) :
      Step m (.save message, .saved (.ok ()) (message.withId id))
        { m with value := value, lastId := id.toNat }
  | noRoom {m : RecordMap} {message : SmsMessage}
      (wellFormed : message.storable = true) (unnamed : message.id = 0)
      (stuck : Stuck smsStoreMaxRecords m.Prunable m.value) :
      Step m (.save message, .saved (.error .noMem) message) m
  | replaced {m : RecordMap} {message : SmsMessage} {previous : SmsMessage}
      (wellFormed : message.storable = true) (named : message.id ≠ 0)
      (present : m.value message.id.toNat = some previous) :
      Step m (.save message, .saved (.ok ()) message) (m.set message.id.toNat message)
  | restored {m : RecordMap} {message : SmsMessage}
      (wellFormed : message.storable = true) (named : message.id ≠ 0)
      (absent : m.value message.id.toNat = none)
      (room : (keysOf m.value).ncard < smsStoreMaxRecords) :
      Step m (.save message, .saved (.ok ()) message) (m.set message.id.toNat message)
  | refused {m : RecordMap} {message : SmsMessage}
      (wellFormed : message.storable = true) (named : message.id ≠ 0)
      (absent : m.value message.id.toNat = none)
      (full : (keysOf m.value).ncard = smsStoreMaxRecords) :
      Step m (.save message, .saved (.error .noMem) message) m
  | got {m : RecordMap} {id : UInt32} (named : id ≠ 0) :
      Step m (.get id, .got (Store.orError .notFound (m.value id.toNat))) m
  | gotZero {m : RecordMap} : Step m (.get 0, .got (.error .invalidArg)) m
  | deleted {m : RecordMap} {id : UInt32} {message : SmsMessage} (named : id ≠ 0)
      (present : m.value id.toNat = some message) :
      Step m (.delete id, .deleted (.ok ())) (m.erase id.toNat)
  | missing {m : RecordMap} {id : UInt32} (named : id ≠ 0) (absent : m.value id.toNat = none) :
      Step m (.delete id, .deleted (.error .notFound)) m
  | deletedZero {m : RecordMap} : Step m (.delete 0, .deleted (.error .invalidArg)) m
  | watermark {m : RecordMap} {protectionEnabled : Bool} {watermark : UInt32} :
      Step m (.setReplayWatermark protectionEnabled watermark, .done)
        { m with watermark := watermark.toNat, protectionEnabled := protectionEnabled }

end RecordMap

def idNumber (message : SmsMessage) : Nat := message.id.toNat

theorem idNumber_inj {a b : SmsMessage} : idNumber a = idNumber b ↔ a.id = b.id := UInt32.toNat_inj

/-- A journal and the abstract store it stands for. -/
structure Implements (s : Store) (n : Nat) (m : RecordMap) : Prop where
  numbered : s.Numbered n
  represents : Represents idNumber s.view m.value
  lastId : m.lastId = n
  watermark : m.watermark = s.replayWatermark.toNat
  protection : m.protectionEnabled = s.replayProtectionEnabled

/-- A call on the journal is a step of the map it stands for, and gives out the
next id or none. -/
def Follows (s : Store) (n : Nat) (m : RecordMap) (call : StoreCall) : Prop :=
  ∃ n' m', RecordMap.Step m (call, (call.perform s).1) m' ∧
    Implements (call.perform s).2 n' m' ∧
    (issuedId (call, (call.perform s).1) = none ∧ n' = n ∨
      ∃ id, issuedId (call, (call.perform s).1) = some id ∧ id.toNat = n + 1 ∧ n' = n + 1)

namespace Implements

theorem empty : Implements Store.empty 0 RecordMap.empty :=
  ⟨Store.numbered_empty, Represents.empty idNumber, rfl, rfl, rfl⟩

variable {s : Store} {n : Nat} {m : RecordMap} (implements : Implements s n m)
include implements

theorem prunable_iff (message : SmsMessage) :
    m.Prunable message ↔ recordPrunable s message = true := by
  simp only [RecordMap.Prunable, implements.watermark, implements.protection, recordPrunable]
  cases message.status <;> simp [UInt32.le_iff_toNat_le]

theorem value_of_slotOf {id : UInt32} {slot : Slot} (found : s.slotOf id = some slot) :
    ∃ message, s.view slot = some message ∧ message.id = id ∧ m.value id.toNat = some message := by
  obtain ⟨message, stored, same⟩ := Store.slotOf_some found
  refine ⟨message, stored, same, ?_⟩
  rw [← same]
  exact implements.represents.value_of_slot stored

theorem value_of_absent {id : UInt32} (missing : s.slotOf id = none) : m.value id.toNat = none := by
  apply implements.represents.absent
  intro slot message stored same
  exact Store.slotOf_none missing slot stored (UInt32.toNat_inj.mp same)

theorem ncard_of_free {slot : Slot} (free : s.freeSlot = some slot) :
    (keysOf m.value).ncard < smsStoreMaxRecords := by
  have bound := implements.represents.ncard_lt (Store.freeSlot_some free)
  simpa [Slot] using bound

theorem ncard_of_full (full : s.freeSlot = none) :
    (keysOf m.value).ncard = smsStoreMaxRecords := by
  have bound := implements.represents.ncard_full (Store.freeSlot_none full)
  simpa [Slot] using bound

/-- The pruned record is the one with the smallest id among the prunable ones. -/
theorem oldest_isLeast {slot : Slot} {message : SmsMessage}
    (oldest : s.oldestPrunable = some slot) (stored : s.view slot = some message) :
    IsLeast (droppableKeys m.Prunable m.value) message.id.toNat := by
  obtain ⟨found, held, passes, least⟩ := Store.leastSlot_some oldest
  rw [stored] at held
  cases held
  constructor
  · exact ⟨message, implements.represents.value_of_slot stored,
      (implements.prunable_iff message).mpr passes⟩
  · rintro k ⟨other, present, prunable⟩
    obtain ⟨otherSlot, otherStored, rfl⟩ := (implements.represents.lookup k other).mp present
    have bound := least otherSlot other otherStored ((implements.prunable_iff other).mp prunable)
    exact UInt32.le_iff_toNat_le.mp bound

theorem nothing_droppable (nothing : s.oldestPrunable = none) :
    droppableKeys m.Prunable m.value = ∅ := by
  rw [Set.eq_empty_iff_forall_notMem]
  rintro k ⟨message, present, prunable⟩
  obtain ⟨slot, stored, -⟩ := (implements.represents.lookup k message).mp present
  have bounds := implements.numbered.allocated slot message stored
  have range := implements.numbered.inRange
  simp only [idLimit] at range
  have below : message.id < uint32Max := by
    rw [UInt32.lt_iff_toNat_lt, show uint32Max.toNat = 2 ^ 32 - 1 from rfl]
    omega
  have refused := Store.leastSlot_none nothing slot stored below
  rw [(implements.prunable_iff message).mp prunable] at refused
  cases refused

/-- A record under an allocated id goes to its slot, or to a free one. -/
theorem put {slot : Slot} {message : SmsMessage} (storable : message.storable = true)
    (named : message.id ≠ 0) (known : message.id.toNat ≤ n)
    (alone : ∀ other record, s.view other = some record → record.id = message.id →
      other = slot)
    (place : ∀ record, s.view slot = some record → record.id = message.id) :
    Implements (s.put slot message) n (m.set message.id.toNat message) := by
  refine ⟨implements.numbered.put storable named known alone, ?_, implements.lastId,
    implements.watermark, implements.protection⟩
  rw [Store.view_put s slot storable named]
  refine implements.represents.store ?_ ?_
  · intro other record held same
    exact alone other record held (idNumber_inj.mp same)
  · intro record held
    exact idNumber_inj.mpr (place record held)

theorem wipe {slot : Slot} {message : SmsMessage} (stored : s.view slot = some message) :
    Implements (s.wipe slot) n (m.erase message.id.toNat) := by
  refine ⟨implements.numbered.wipe slot, ?_, implements.lastId, implements.watermark,
    implements.protection⟩
  rw [Store.view_wipe]
  exact implements.represents.remove stored

theorem countId (room : n + 1 < idLimit) :
    Implements s.countId (n + 1) { m with lastId := n + 1 } :=
  ⟨implements.numbered.countId room, implements.represents, rfl, implements.watermark,
    implements.protection⟩

/-- The diagnostics counters are no part of the map. -/
theorem congr {t : Store} (blobs : t.blob = s.blob) (counter : t.nextId = s.nextId)
    (policy : t.SamePolicy s) : Implements t n m := by
  refine ⟨implements.numbered.congr blobs counter, ?_, implements.lastId, ?_, ?_⟩
  · rw [Store.view_congr blobs]
    exact implements.represents
  · rw [policy.1]
    exact implements.watermark
  · rw [policy.2]
    exact implements.protection

/-- A new record in a slot that holds nothing. -/
theorem putNew (room : n + 1 < idLimit) {slot : Slot} {message : SmsMessage}
    (storable : message.storable = true) (empty : s.view slot = none) :
    Implements (s.countId.put slot (message.withId s.freshId)) (n + 1)
      { m.set s.freshId.toNat (message.withId s.freshId) with lastId := n + 1 } := by
  have fresh := implements.numbered.freshId_toNat
  refine (implements.countId room).put storable s.freshId_ne_zero
    (by simp [fresh]) ?_ ?_
  · intro other record held same
    exact absurd same (implements.numbered.fresh other held)
  · intro record held
    have held : s.view slot = some record := held
    rw [empty] at held
    cases held

theorem save_new (message : SmsMessage) (storable : message.storable = true)
    (unnamed : message.id = 0)
    (room : issuedId (.save message, (StoreCall.perform s (.save message)).1) ≠ none →
      n + 1 < idLimit) :
    Follows s n m (.save message) := by
  have fresh := implements.numbered.freshId_toNat
  have run := saveNew_faultless implements.numbered.sound message
  simp only [Follows, StoreCall.perform, smsStoreSave, storable, unnamed, ↓reduceIte] at room ⊢
  cases free : s.freeSlot with
  | some slot =>
      simp only [run, free, issuedId, unnamed, ↓reduceIte, ne_eq, reduceCtorEq, not_false_eq_true,
        forall_const] at room ⊢
      refine ⟨n + 1, _, .inserted storable unnamed (by rw [implements.lastId, fresh]; omega)
        (.grown (implements.ncard_of_free free)), ?_, .inr ⟨_, rfl, fresh, rfl⟩⟩
      rw [fresh]
      exact fresh ▸ implements.putNew room storable (Store.freeSlot_some free)
  | none =>
      cases oldest : s.oldestPrunable with
      | some slot =>
          obtain ⟨pruned, stored, -⟩ := Store.leastSlot_some oldest
          simp only [run, free, oldest, issuedId, unnamed, ↓reduceIte, ne_eq, reduceCtorEq,
            not_false_eq_true, forall_const] at room ⊢
          refine ⟨n + 1, _, .inserted storable unnamed (by rw [implements.lastId, fresh]; omega)
            (.dropped (implements.ncard_of_full free) (implements.oldest_isLeast oldest stored)),
            ?_, .inr ⟨_, rfl, fresh, rfl⟩⟩
          have empty : (s.wipe slot).view slot = none := by simp [Store.view_wipe]
          have cleared := (implements.wipe stored).putNew room storable empty
          have added := cleared.congr (t := (s.wipe slot).countPruned.countId.put slot
            (message.withId s.freshId)) rfl rfl ⟨rfl, rfl⟩
          rw [fresh]
          exact fresh ▸ added
      | none =>
          simp only [run, free, oldest, issuedId]
          refine ⟨n, m, .noRoom storable unnamed ⟨implements.ncard_of_full free,
            implements.nothing_droppable oldest⟩, ?_, .inl ⟨trivial, rfl⟩⟩
          exact implements.congr rfl rfl ⟨rfl, rfl⟩

theorem save_existing (message : SmsMessage) (storable : message.storable = true)
    (named : message.id ≠ 0) (known : message.id.toNat ≤ n) :
    Follows s n m (.save message) := by
  have run := saveExisting_faultless implements.numbered.sound message
  simp only [Follows, StoreCall.perform, smsStoreSave, storable, named, ↓reduceIte]
  cases found : s.slotOf message.id with
  | some slot =>
      obtain ⟨previous, stored, same, present⟩ := implements.value_of_slotOf found
      simp only [run, found, issuedId, named, ↓reduceIte]
      refine ⟨n, _, .replaced storable named present, ?_, .inl ⟨trivial, rfl⟩⟩
      refine implements.put storable named known ?_ ?_
      · intro other record held otherSame
        exact implements.numbered.distinct other slot record previous held stored
          (otherSame.trans same.symm)
      · intro record held
        rw [stored] at held
        cases held
        exact same
  | none =>
      have absent := implements.value_of_absent found
      cases free : s.freeSlot with
      | some slot =>
          simp only [run, found, free, issuedId, named, ↓reduceIte]
          refine ⟨n, _, .restored storable named absent (implements.ncard_of_free free), ?_,
            .inl ⟨trivial, rfl⟩⟩
          refine implements.put storable named known ?_ ?_
          · intro other record held same
            exact absurd same (Store.slotOf_none found other held)
          · intro record held
            rw [Store.freeSlot_some free] at held
            cases held
      | none =>
          simp only [run, found, free, issuedId]
          exact ⟨n, m, .refused storable named absent (implements.ncard_of_full free), implements,
            .inl ⟨trivial, rfl⟩⟩

theorem get (id : UInt32) : Follows s n m (.get id) := by
  by_cases named : id = 0
  · subst named
    exact ⟨n, m, .gotZero, implements, .inl ⟨rfl, rfl⟩⟩
  · have run := (smsStoreGet_reads implements.numbered.sound id named).faultless
    have value : (s.slotOf id).bind s.view = m.value id.toNat := by
      cases found : s.slotOf id with
      | none => exact (implements.value_of_absent found).symm
      | some slot =>
          obtain ⟨message, stored, -, present⟩ := implements.value_of_slotOf found
          rw [present]
          exact stored
    simp only [Follows, StoreCall.perform, run, value, issuedId]
    exact ⟨n, m, .got named, implements, .inl ⟨trivial, rfl⟩⟩

theorem delete (id : UInt32) : Follows s n m (.delete id) := by
  by_cases named : id = 0
  · subst named
    exact ⟨n, m, .deletedZero, implements, .inl ⟨rfl, rfl⟩⟩
  · have run := smsStoreDelete_faultless implements.numbered.sound id named
    cases found : s.slotOf id with
    | none =>
        simp only [Follows, StoreCall.perform, run, found, issuedId]
        exact ⟨n, m, .missing named (implements.value_of_absent found), implements,
          .inl ⟨trivial, rfl⟩⟩
    | some slot =>
        obtain ⟨message, stored, same, present⟩ := implements.value_of_slotOf found
        simp only [Follows, StoreCall.perform, run, found, issuedId]
        exact ⟨n, _, .deleted named present, same ▸ implements.wipe stored, .inl ⟨trivial, rfl⟩⟩

/-- Every call of the journal is a step of the map. -/
theorem step (call : StoreCall)
    (known : ∀ message, call = .save message → message.id.toNat ≤ n)
    (room : issuedId (call, (call.perform s).1) ≠ none → n + 1 < idLimit) :
    Follows s n m call := by
  cases call with
  | save message =>
      by_cases storable : message.storable = true
      · by_cases unnamed : message.id = 0
        · exact implements.save_new message storable unnamed room
        · exact implements.save_existing message storable unnamed (known message rfl)
      · simp only [Follows, StoreCall.perform, smsStoreSave, storable, Bool.false_eq_true,
          ↓reduceIte]
        exact ⟨n, m, .rejected (by simpa using storable), implements, .inl ⟨rfl, rfl⟩⟩
  | get id => exact implements.get id
  | delete id => exact implements.delete id
  | setReplayWatermark protectionEnabled watermark =>
      refine ⟨n, _, .watermark, ?_, .inl ⟨rfl, rfl⟩⟩
      exact ⟨implements.numbered.congr rfl rfl, implements.represents, implements.lastId, rfl, rfl⟩

end Implements

theorem session_snoc (calls : List StoreCall) (call : StoreCall) :
    session (calls ++ [call]) =
      ((session calls).1 ++ [(call, (call.perform (session calls).2).1)],
        (call.perform (session calls).2).2) := by
  simp [session]

theorem issued_snoc (trace : List (StoreCall × StoreReply)) (entry : StoreCall × StoreReply) :
    issued (trace ++ [entry]) = issued trace ++ (issuedId entry).toList := by
  simp [issued, List.filterMap_append, List.filterMap_cons]
  cases issuedId entry <;> rfl

theorem Disciplined.init {calls : List StoreCall} {call : StoreCall}
    (disciplined : Disciplined (calls ++ [call])) : Disciplined calls := by
  intro before message after split
  exact disciplined before message (after ++ [call]) (by simp [split])

/-- A session follows the map, and its ids are 1, 2, 3, ... -/
theorem session_implements (calls : List StoreCall) (disciplined : Disciplined calls)
    (few : (issued (session calls).1).length < idLimit) :
    ∃ m, Runs RecordMap.Step .empty (session calls).1 m ∧
      Implements (session calls).2 (issued (session calls).1).length m ∧
      (issued (session calls).1).map UInt32.toNat =
        List.range' 1 (issued (session calls).1).length := by
  induction calls using List.reverseRecOn with
  | nil => exact ⟨_, .start, Implements.empty, rfl⟩
  | append_singleton calls call ih =>
      rw [session_snoc] at few ⊢
      simp only [issued_snoc, List.length_append] at few ⊢
      obtain ⟨m, runs, implements, numbers⟩ := ih disciplined.init (by omega)
      have known (message : SmsMessage) (saved : call = .save message) :
          message.id.toNat ≤ (issued (session calls).1).length := by
        rcases disciplined calls message [] (by rw [saved]) with zero | member
        · simp [zero]
        · have place := List.mem_map_of_mem (f := UInt32.toNat) member
          rw [numbers, List.mem_range'_1] at place
          omega
      obtain ⟨next, m', step, after, count⟩ := implements.step call known (by
        intro new
        obtain ⟨id, value⟩ := Option.ne_none_iff_exists'.mp new
        simp only [value, Option.toList_some, List.length_singleton] at few
        exact few)
      rcases count with ⟨none, rfl⟩ | ⟨id, value, number, rfl⟩
      · simp only [none, Option.toList_none, List.length_nil, List.append_nil, Nat.add_zero]
        exact ⟨m', runs.step step, after, numbers⟩
      · simp only [value, Option.toList_some, List.length_singleton]
        refine ⟨m', runs.step step, after, ?_⟩
        rw [List.map_append, numbers, List.range'_concat, List.map_singleton, number]
        simp [Nat.add_comm]

/-- The journal refines the bounded map: the replies of every disciplined session
are those of a run of the map, the slots hold the values of the map under
distinct ids, and every id given out is larger than all earlier ones. -/
theorem store_refines_bounded_map (calls : List StoreCall) (disciplined : Disciplined calls)
    (few : (issued (session calls).1).length < idLimit) :
    (∃ m, Runs RecordMap.Step .empty (session calls).1 m ∧
      Represents idNumber (session calls).2.view m.value ∧ m.value 0 = none) ∧
    (issued (session calls).1).Pairwise (· < ·) := by
  obtain ⟨m, runs, implements, numbers⟩ := session_implements calls disciplined few
  refine ⟨⟨m, runs, implements.represents, ?_⟩, ?_⟩
  · apply implements.represents.absent
    intro slot message stored zero
    have bounds := implements.numbered.allocated slot message stored
    simp only [idNumber] at zero
    omega
  · have sorted := List.pairwise_lt_range' (s := 1) (n := (issued (session calls).1).length)
    rw [← numbers, List.pairwise_map] at sorted
    exact sorted.imp UInt32.lt_iff_toNat_lt.mpr

/-- A session that saves a record, rewrites it under its id and deletes it. -/
theorem store_refines_bounded_map_rewrite :
    (∃ m, Runs RecordMap.Step .empty
        (session [.save .zero, .save (SmsMessage.zero.withId 1), .delete 1]).1 m ∧
      Represents idNumber
        (session [.save .zero, .save (SmsMessage.zero.withId 1), .delete 1]).2.view m.value ∧
      m.value 0 = none) ∧
    (issued (session [.save .zero, .save (SmsMessage.zero.withId 1), .delete 1]).1).Pairwise
      (· < ·) := by
  refine store_refines_bounded_map _ ?_ (by decide +kernel)
  intro before message after split
  rcases before with _ | ⟨first, _ | ⟨second, before⟩⟩
  · cases split
    exact .inl rfl
  · cases split
    exact .inr (by decide +kernel)
  · rcases before with _ | ⟨third, before⟩ <;> simp at split

/-- A record saved under an id that was never given out meets the record that
gets this id later. -/
theorem unissued_id_stored_twice :
    ¬ DistinctKeys SmsMessage.id
      (session [.save (SmsMessage.zero.withId 1), .save .zero]).2.view := by
  intro distinct
  have first : ((session [.save (SmsMessage.zero.withId 1), .save .zero]).2.view
      ⟨0, by decide⟩).map SmsMessage.id = some 1 := by decide +kernel
  have second : ((session [.save (SmsMessage.zero.withId 1), .save .zero]).2.view
      ⟨1, by decide⟩).map SmsMessage.id = some 1 := by decide +kernel
  obtain ⟨record, held, named⟩ := Option.map_eq_some_iff.mp first
  obtain ⟨other, otherHeld, otherNamed⟩ := Option.map_eq_some_iff.mp second
  have same := distinct _ _ record other held otherHeld (named.trans otherNamed.symm)
  simp at same

end SmsGateway
