import SmsGateway.Store.View

/-! The read-only store calls, and the calls of a flash that refuses nothing. -/

namespace SmsGateway

open Lib

/-- A call that only reads: it changes nothing and returns `value` unless the
flash refuses one of its reads. -/
structure Reads {α : Type} (op : StoreM (Except EspErr α)) (s : Store)
    (value : Except EspErr α) : Prop where
  state : ∀ plan, (op (plan, s)).2.2 = s
  outcome : ∀ plan, (op (plan, s)).1 = value ∨ ∃ code, (op (plan, s)).1 = .error (.nvs code)
  faultless : op (Plan.faultless, s) = (value, (Plan.faultless, s))

namespace Store

/-- The first record that passes a test, in slot order. -/
def recordWhere (s : Store) (pass : SmsMessage → Bool) : Option SmsMessage :=
  (allSlots.find? fun slot => (s.view slot).any pass).bind s.view

def newestReference (s : Store) (recipient : CStr) (reference : UInt8) : Option (Slot × Nat) :=
  (allSlots.foldl (fun best slot => visitOutbound recipient reference best slot (s.view slot))
    ((none, 0) : Option (Slot × Nat) × UInt32)).1

/-- `none` becomes the given error. -/
def orError {α : Type} (e : EspErr) : Option α → Except EspErr α
  | some a => .ok a
  | none => .error e

theorem recordWhere_some {s : Store} {pass : SmsMessage → Bool} {message : SmsMessage}
    (found : s.recordWhere pass = some message) :
    ∃ slot, s.view slot = some message ∧ pass message = true := by
  simp only [recordWhere, Option.bind_eq_some_iff] at found
  obtain ⟨slot, first, stored⟩ := found
  have hit := List.find?_some first
  exact ⟨slot, stored, by simpa [stored] using hit⟩

theorem recordWhere_none {s : Store} {pass : SmsMessage → Bool}
    (absent : s.recordWhere pass = none) (slot : Slot) {message : SmsMessage}
    (stored : s.view slot = some message) : pass message = false := by
  simp only [recordWhere, Option.bind_eq_none_iff] at absent
  by_contra passes
  simp only [Bool.not_eq_false] at passes
  cases first : allSlots.find? fun slot => (s.view slot).any pass with
  | none =>
      have miss := List.find?_eq_none.mp first slot (mem_allSlots slot)
      simp [stored, passes] at miss
  | some other =>
      have hit := List.find?_some first
      have empty := absent other first
      simp [empty] at hit

theorem recordWhere_isSome {s : Store} {pass : SmsMessage → Bool} {slot : Slot}
    {message : SmsMessage} (stored : s.view slot = some message) (passes : pass message = true) :
    ∃ found, s.recordWhere pass = some found := by
  cases absent : s.recordWhere pass with
  | some found => exact ⟨found, rfl⟩
  | none => simp [recordWhere_none absent slot stored] at passes

end Store

section

variable {s : Store} (sound : s.Sound)
include sound

theorem loadSlot_reads (slot : Slot) : Reads (loadSlot slot) s (.ok (s.view slot)) := by
  have run (plan : Plan NvsCall) : loadSlot slot (plan, s) =
      ((plan .getBlob 0).elim (.ok (s.view slot)) fun code => .error (.nvs code),
        (plan.skip .getBlob 1, s)) := by
    rw [loadSlot_eq]
    cases fault : plan .getBlob 0 <;> simp [readSlot, attempt, fault, sound slot]
  refine ⟨fun plan => by rw [run], fun plan => ?_, by simp [run]⟩
  rw [run]
  cases plan .getBlob 0 with
  | some code => exact .inr ⟨code, rfl⟩
  | none => exact .inl rfl

theorem firstSlot_reads (hit : Option SmsMessage → Bool) (absent : EspErr) :
    Reads (firstSlot loadSlot hit absent allSlots) s
      (foundOr absent s.view (allSlots.find? fun slot => hit (s.view slot))) := by
  rw [loadSlot_eq]
  refine ⟨fun plan => ?_, fun plan => ?_, ?_⟩
  · obtain ⟨reads, run | ⟨code, run⟩⟩ := firstSlot_cases EspErr.nvs NvsCall.getBlob Store.record
      s.view plan s hit absent allSlots sound <;> rw [run]
  · obtain ⟨reads, run | ⟨code, run⟩⟩ := firstSlot_cases EspErr.nvs NvsCall.getBlob Store.record
      s.view plan s hit absent allSlots sound <;> rw [run]
    · exact .inl rfl
    · exact .inr ⟨code, rfl⟩
  · rw [firstSlot_clear EspErr.nvs NvsCall.getBlob Store.record s.view Plan.faultless s hit absent
      allSlots sound (fun _ _ => rfl), Plan.skip_faultless]

theorem foldSlots_reads {α : Type} (visit : α → Slot → Option SmsMessage → α) (acc : α) :
    Reads (foldSlots loadSlot visit allSlots acc) s
      (.ok (allSlots.foldl (fun a slot => visit a slot (s.view slot)) acc)) := by
  rw [loadSlot_eq]
  refine ⟨fun plan => ?_, fun plan => ?_, ?_⟩
  · obtain ⟨reads, run | ⟨code, run⟩⟩ := foldSlots_cases EspErr.nvs NvsCall.getBlob Store.record
      s.view plan s visit allSlots acc sound <;> rw [run]
  · obtain ⟨reads, run | ⟨code, run⟩⟩ := foldSlots_cases EspErr.nvs NvsCall.getBlob Store.record
      s.view plan s visit allSlots acc sound <;> rw [run]
    · exact .inl rfl
    · exact .inr ⟨code, rfl⟩
  · rw [foldSlots_clear EspErr.nvs NvsCall.getBlob Store.record s.view Plan.faultless s visit
      allSlots acc sound (fun _ _ => rfl), Plan.skip_faultless]

end

theorem Reads.run {α : Type} {op : StoreM (Except EspErr α)} {s : Store}
    {value : Except EspErr α} (reads : Reads op s value) (plan : Plan NvsCall) :
    ∃ rest, op (plan, s) = (value, (rest, s)) ∨
      ∃ code, op (plan, s) = (.error (.nvs code), (rest, s)) := by
  refine ⟨(op (plan, s)).2.1, ?_⟩
  rcases reads.outcome plan with same | ⟨code, fault⟩
  · exact .inl (Prod.ext same (Prod.ext rfl (reads.state plan)))
  · exact .inr ⟨code, Prod.ext fault (Prod.ext rfl (reads.state plan))⟩

/-- A call that returns at once. -/
theorem Reads.pure {α : Type} (s : Store) (value : Except EspErr α) :
    Reads (Pure.pure value : StoreM _) s value :=
  ⟨fun _ => rfl, fun _ => .inl rfl, rfl⟩

/-- Reads follow one another: a refused read ends the sequence. -/
theorem Reads.bind {α β : Type} {s : Store} {first : StoreM (Except EspErr α)}
    {value : Except EspErr α} {next : Except EspErr α → StoreM (Except EspErr β)}
    {final : Except EspErr β} (start : Reads first s value)
    (stops : ∀ code, next (.error (.nvs code)) = Pure.pure (.error (.nvs code)))
    (follow : Reads (next value) s final) : Reads (first >>= next) s final := by
  have run (plan : Plan NvsCall) : (first >>= next) (plan, s) =
      next (first (plan, s)).1 ((first (plan, s)).2.1, s) := by
    have same : (first (plan, s)).2 = ((first (plan, s)).2.1, s) :=
      Prod.ext rfl (start.state plan)
    rw [← same]
    rfl
  refine ⟨fun plan => ?_, fun plan => ?_, ?_⟩
  · rw [run]
    rcases start.outcome plan with same | ⟨code, fault⟩
    · rw [same]
      exact follow.state _
    · rw [fault, stops]
      rfl
  · rw [run]
    rcases start.outcome plan with same | ⟨code, fault⟩
    · rw [same]
      exact follow.outcome _
    · rw [fault, stops]
      exact .inr ⟨code, rfl⟩
  · rw [run, start.faultless]
    exact follow.faultless

section

variable {s : Store} (sound : s.Sound)
include sound

theorem findIdSlot_reads (id : UInt32) :
    Reads (findIdSlot id) s (Store.orError .notFound (s.slotOf id)) := by
  refine (firstSlot_reads sound (holdsId id) .notFound).bind (fun _ => rfl) ?_
  simp only [Store.slotOf]
  cases allSlots.find? fun slot => holdsId id (s.view slot) <;> exact .pure _ _

theorem findEmptySlot_reads :
    Reads findEmptySlot s (Store.orError .noMem s.freeSlot) := by
  refine (firstSlot_reads sound Option.isNone .noMem).bind (fun _ => rfl) ?_
  simp only [Store.freeSlot]
  cases allSlots.find? fun slot => (s.view slot).isNone <;> exact .pure _ _

theorem findLeast_reads (pass : SmsMessage → Bool) (absent : EspErr) :
    Reads (findLeast pass absent) s (Store.orError absent (s.leastSlot pass)) := by
  refine (foldSlots_reads sound _ _).bind (fun _ => rfl) ?_
  simp only [Store.leastSlot]
  generalize allSlots.foldl _ _ = best
  obtain ⟨_ | slot, id⟩ := best <;> exact .pure _ _

theorem findPrunableSlot_reads :
    Reads findPrunableSlot s (Store.orError .noMem s.oldestPrunable) := by
  have reads := findLeast_reads sound (recordPrunable s) .noMem
  exact ⟨reads.state, reads.outcome, reads.faultless⟩

theorem findRecord_reads (pass : SmsMessage → Bool) :
    Reads (findRecord pass) s (Store.orError .notFound (s.recordWhere pass)) := by
  refine (firstSlot_reads sound (Option.any pass) .notFound).bind (fun _ => rfl) ?_
  simp only [Store.recordWhere]
  cases first : allSlots.find? fun slot => (s.view slot).any pass with
  | none => exact .pure _ _
  | some slot =>
      cases stored : s.view slot with
      | none =>
          have hit := List.find?_some first
          simp [stored] at hit
      | some message =>
          simp only [foundOr, stored, Option.bind_some, Store.orError]
          exact .pure _ _

theorem smsStoreGet_reads (id : UInt32) (named : id ≠ 0) :
    Reads (smsStoreGet id) s (Store.orError .notFound ((s.slotOf id).bind s.view)) := by
  unfold smsStoreGet
  simp only [named, ↓reduceIte]
  refine (findIdSlot_reads sound id).bind (fun _ => rfl) ?_
  cases found : s.slotOf id with
  | none => exact .pure _ _
  | some slot =>
      obtain ⟨message, stored, -⟩ := Store.slotOf_some found
      simp only [Store.orError, Option.bind_some, stored]
      refine (loadSlot_reads sound slot).bind (fun _ => rfl) ?_
      rw [stored]
      exact .pure _ _

theorem smsStoreFindStatus_reads (status : SmsMessageStatus) :
    Reads (smsStoreFindStatus status) s (Store.orError .notFound
      ((s.leastSlot fun message => message.status == status).bind s.view)) := by
  refine (findLeast_reads sound _ _).bind (fun _ => rfl) ?_
  cases found : s.leastSlot fun message => message.status == status with
  | none => exact .pure _ _
  | some slot =>
      obtain ⟨message, stored, -⟩ := Store.leastSlot_some found
      simp only [Store.orError, Option.bind_some, stored]
      refine (loadSlot_reads sound slot).bind (fun _ => rfl) ?_
      rw [stored]
      exact .pure _ _

theorem smsStoreFindPartial_reads (sender : CStr) (reference : UInt16)
    (totalParts partNumber : UInt8) (valid : totalParts ≠ 0 ∧ partNumber ≠ 0) :
    Reads (smsStoreFindPartial sender reference totalParts partNumber) s
      (Store.orError .notFound
        (s.recordWhere (isPartialOf sender reference totalParts partNumber))) := by
  unfold smsStoreFindPartial
  simp only [valid.1, valid.2, or_self, ↓reduceIte]
  exact findRecord_reads sound _

theorem smsStoreFindOutboundReference_reads (recipient : CStr) (reference : UInt8) :
    Reads (smsStoreFindOutboundReference recipient reference) s
      (match s.newestReference recipient reference with
        | none => .error .notFound
        | some (slot, index) => .ok ((s.view slot).getD .zero, index)) := by
  refine (foldSlots_reads sound _ _).bind (fun _ => rfl) ?_
  simp only [Store.newestReference]
  generalize allSlots.foldl _ _ = best
  obtain ⟨_ | ⟨slot, index⟩, id⟩ := best
  · exact .pure _ _
  · refine (loadSlot_reads sound slot).bind (fun _ => rfl) ?_
    cases stored : s.view slot <;> simp only [stored, Option.getD_none, Option.getD_some] <;>
      exact .pure _ _

theorem smsStoreList_reads (afterId : UInt32) (maxRecords : Nat) (positive : maxRecords ≠ 0) :
    Reads (smsStoreList afterId maxRecords) s
      (.ok (insertionSort (allSlots.foldl
        (fun records slot => visitList afterId maxRecords records slot (s.view slot)) []))) := by
  unfold smsStoreList
  simp only [positive, ↓reduceIte]
  exact (foldSlots_reads sound _ _).bind (fun _ => rfl) (.pure _ _)

end

/-- A list call with room for every record collects them all. -/
theorem foldl_visitList (s : Store) (maxRecords : Nat) (slots : List Slot)
    (records : List SmsMessage) (room : records.length + slots.length ≤ maxRecords) :
    slots.foldl (fun records slot => visitList 0 maxRecords records slot (s.view slot)) records =
      records ++ slots.filterMap s.view := by
  induction slots generalizing records with
  | nil => simp
  | cons slot rest ih =>
      simp only [List.length_cons] at room
      rw [List.foldl_cons, List.filterMap_cons]
      cases stored : s.view slot with
      | none => exact ih records (by omega)
      | some message =>
          have later : ¬ message.id ≤ 0 := by
            have named := Store.view_named stored
            grind
          have added : visitList 0 maxRecords records slot (some message) = records ++ [message] := by
            simp only [visitList, later, ↓reduceIte, show records.length < maxRecords by omega]
          have longer : (records ++ [message]).length + rest.length ≤ maxRecords := by
            simp only [List.length_append, List.length_singleton]
            omega
          rw [added, ih _ longer]
          simp

theorem insertById_perm (record : SmsMessage) (records : List SmsMessage) :
    (insertById record records).Perm (record :: records) := by
  induction records with
  | nil => exact .refl _
  | cons head tail ih =>
      simp only [insertById]
      split
      · exact .refl _
      · exact (ih.cons head).trans (.swap record head tail)

theorem insertionSort_perm (records : List SmsMessage) :
    (insertionSort records).Perm records := by
  have general (rest sorted : List SmsMessage) :
      (rest.foldl (fun sorted record => insertById record sorted) sorted).Perm
        (sorted ++ rest) := by
    induction rest generalizing sorted with
    | nil => simp
    | cons record rest ih =>
        rw [List.foldl_cons]
        refine (ih _).trans ?_
        refine ((insertById_perm record sorted).append_right rest).trans ?_
        exact List.perm_middle.symm
  exact general records []

theorem smsStoreList_all {s : Store} (sound : s.Sound) :
    ∃ listed, (smsStoreList 0 smsStoreMaxRecords (Plan.faultless, s)).1 = .ok listed ∧
      listed.Perm s.records := by
  rw [(smsStoreList_reads sound 0 smsStoreMaxRecords (by decide)).faultless]
  rw [foldl_visitList s _ _ _ (by simp [allSlots]), List.nil_append]
  exact ⟨_, rfl, insertionSort_perm _⟩

end SmsGateway
