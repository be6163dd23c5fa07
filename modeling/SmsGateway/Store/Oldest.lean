import SmsGateway.Store.Atomic
import SmsGateway.Store.Holds

/-! The searches for the oldest record, with a status or to be pruned. -/

namespace SmsGateway

open Lib

namespace Store

variable {s : Store} {pass : SmsMessage → Bool}

/-- A passing record that no passing record is older than. -/
structure IsOldest (s : Store) (pass : SmsMessage → Bool) (message : SmsMessage) : Prop where
  held : s.Holds message
  passes : pass message = true
  least : ∀ other, s.Holds other → pass other = true → message.id ≤ other.id

/-- The oldest passing record is returned, or the error when there is none. -/
def AnswersRecord (s : Store) (pass : SmsMessage → Bool) (absent : EspErr)
    (result : Except EspErr SmsMessage) : Prop :=
  (∃ message, s.IsOldest pass message ∧ result = .ok message) ∨
    (∀ message, s.Holds message → pass message = false) ∧ result = .error absent

/-- The slot of the oldest passing record is returned, or the error when there is none. -/
def AnswersSlot (s : Store) (pass : SmsMessage → Bool) (absent : EspErr)
    (result : Except EspErr Slot) : Prop :=
  (∃ slot message, s.view slot = some message ∧ s.IsOldest pass message ∧ result = .ok slot) ∨
    (∀ message, s.Holds message → pass message = false) ∧ result = .error absent

/-- Where a record passes, one with an id below the last id does. -/
def FoundBelowLast (s : Store) (pass : SmsMessage → Bool) : Prop :=
  (∃ message, s.Holds message ∧ pass message = true) →
    ∃ message, s.Holds message ∧ pass message = true ∧ message.id < uint32Max

theorem isOldest_of_leastSlot {slot : Slot} (found : s.leastSlot pass = some slot) :
    ∃ message, s.view slot = some message ∧ s.IsOldest pass message := by
  obtain ⟨message, stored, passes, least⟩ := leastSlot_some found
  refine ⟨message, stored, ⟨slot, stored⟩, passes, ?_⟩
  rintro other ⟨there, held⟩ otherPasses
  exact least there other held otherPasses

/-- The search finds nothing exactly when no record with an id below the last passes. -/
theorem leastSlot_eq_none_iff :
    s.leastSlot pass = none ↔
      ∀ message, s.Holds message → message.id < uint32Max → pass message = false := by
  constructor
  · rintro absent message ⟨slot, stored⟩ below
    exact leastSlot_none absent slot stored below
  · intro none
    cases found : s.leastSlot pass with
    | none => rfl
    | some slot =>
        obtain ⟨-, message, stored, passes, -, below⟩ :=
          (s.leastSeen_allSlots pass).found slot found
        rw [none message ⟨slot, stored⟩ below] at passes
        cases passes

theorem foundBelowLast_iff_of_none (absent : s.leastSlot pass = none) :
    s.FoundBelowLast pass ↔ ∀ message, s.Holds message → pass message = false := by
  have below := leastSlot_eq_none_iff.mp absent
  constructor
  · intro found message held
    by_contra passes
    obtain ⟨other, otherHeld, otherPasses, low⟩ := found ⟨message, held, by simpa using passes⟩
    rw [below other otherHeld low] at otherPasses
    cases otherPasses
  · rintro none ⟨message, held, passes⟩
    rw [none message held] at passes
    cases passes

theorem foundBelowLast_of_some {slot : Slot} (found : s.leastSlot pass = some slot) :
    s.FoundBelowLast pass := by
  obtain ⟨-, message, stored, passes, -, below⟩ := (s.leastSeen_allSlots pass).found slot found
  exact fun _ => ⟨message, ⟨slot, stored⟩, passes, below⟩

theorem answersSlot_iff (absent : EspErr) :
    s.AnswersSlot pass absent (orError absent (s.leastSlot pass)) ↔ s.FoundBelowLast pass := by
  cases found : s.leastSlot pass with
  | some slot =>
      obtain ⟨message, stored, oldest⟩ := isOldest_of_leastSlot found
      exact iff_of_true (.inl ⟨slot, message, stored, oldest, rfl⟩) (foundBelowLast_of_some found)
  | none =>
      rw [foundBelowLast_iff_of_none found]
      constructor
      · rintro (⟨slot, message, -, -, wrong⟩ | ⟨none, -⟩)
        · cases wrong
        · exact none
      · exact fun none => .inr ⟨none, rfl⟩

theorem answersRecord_iff (absent : EspErr) :
    s.AnswersRecord pass absent (orError absent ((s.leastSlot pass).bind s.view)) ↔
      s.FoundBelowLast pass := by
  cases found : s.leastSlot pass with
  | some slot =>
      obtain ⟨message, stored, oldest⟩ := isOldest_of_leastSlot found
      rw [Option.bind_some, stored]
      exact iff_of_true (.inl ⟨message, oldest, rfl⟩) (foundBelowLast_of_some found)
  | none =>
      rw [foundBelowLast_iff_of_none found]
      constructor
      · rintro (⟨message, -, wrong⟩ | ⟨none, -⟩)
        · cases wrong
        · exact none
      · exact fun none => .inr ⟨none, rfl⟩

/-- `sms_store_find_status` and `find_prunable_slot` answer the oldest record exactly
when one with an id below the last is there to be found. -/
theorem oldest_search_iff (sound : s.Sound) (status : SmsMessageStatus) :
    (s.AnswersRecord (fun message => message.status == status) .notFound
        (smsStoreFindStatus status (Plan.faultless, s)).1 ↔
      s.FoundBelowLast fun message => message.status == status) ∧
    (s.AnswersSlot (recordPrunable s) .noMem (findPrunableSlot (Plan.faultless, s)).1 ↔
      s.FoundBelowLast (recordPrunable s)) := by
  rw [(smsStoreFindStatus_reads sound status).faultless, (findPrunableSlot_reads sound).faultless]
  exact ⟨answersRecord_iff .notFound, answersSlot_iff .noMem⟩

end Store

/-- An outbound message in the queue. -/
def waitingMessage : SmsMessage :=
  { SmsMessage.zero with direction := .outbound, status := .queued }

/-- The journal with its id counter at this value, after the message is saved. -/
def waitingStore (nextId : UInt32) : Store :=
  (smsStoreSave waitingMessage (Plan.faultless, Store.empty.withNext nextId)).2.2

theorem waitingStore_sound (nextId : UInt32) : (waitingStore nextId).Sound := by
  have before : (Store.empty.withNext nextId).Sound := Store.sound_empty.congr rfl
  exact (smsStoreSave_end Plan.faultless before waitingMessage).sound before

theorem oldest_search_iff_waiting :
    (waitingStore 7).AnswersRecord (fun message => message.status == .queued) .notFound
      (smsStoreFindStatus .queued (Plan.faultless, waitingStore 7)).1 := by
  refine (Store.oldest_search_iff (waitingStore_sound 7) .queued).1.mpr fun _ => ?_
  exact ⟨waitingMessage.withId 7, ⟨⟨0, by decide⟩, by decide +kernel⟩, by decide, by decide⟩

/-- The id counter can come to the last id. -/
theorem waitingStore_last_reached : ∃ n, (waitingStore uint32Max).Reached n := by
  have free : Store.empty.freeSlot = some ⟨0, by decide⟩ := by decide +kernel
  have second := Store.Reached.empty.skip Store.sound_empty free
  have last := second.advance Store.sound_empty free (by decide) (2 ^ 32 - 3) (by decide)
  exact ⟨_, last.save waitingMessage (Nat.zero_le _) Plan.faultless⟩

/-- A queued record with the last id is not found. -/
theorem last_id_not_found :
    (∃ n, (waitingStore uint32Max).Reached n) ∧
    ¬ (waitingStore uint32Max).AnswersRecord (fun message => message.status == .queued) .notFound
        (smsStoreFindStatus .queued (Plan.faultless, waitingStore uint32Max)).1 := by
  refine ⟨waitingStore_last_reached, fun answers => ?_⟩
  have held : (waitingStore uint32Max).Holds (waitingMessage.withId uint32Max) :=
    ⟨⟨0, by decide⟩, by decide +kernel⟩
  have missing : (smsStoreFindStatus .queued (Plan.faultless, waitingStore uint32Max)).1 =
      .error .notFound := by
    decide +kernel
  rcases answers with ⟨message, -, found⟩ | ⟨none, -⟩
  · rw [missing] at found
    cases found
  · cases none _ held

end SmsGateway
