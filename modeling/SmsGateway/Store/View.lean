import SmsGateway.Store.Journal

/-! The records a journal holds, slot by slot. -/

namespace SmsGateway

open Lib

namespace Store

/-- `load_slot` when the flash answers. -/
def record (s : Store) (slot : Slot) : Except EspErr (Option SmsMessage) :=
  match s.blob slot with
  | none => .ok none
  | some blob =>
      if blob.length > persistedRecordSize then .error .invalidSize
      else if blob.length ≠ persistedRecordSize then .error .invalidResponse
      else match recordDecode blob.record with
        | none => .error .invalidResponse
        | some message => .ok (some message)

/-- The record a slot holds, if it holds a readable one. -/
def view (s : Store) (slot : Slot) : Option SmsMessage :=
  match s.blob slot with
  | none => none
  | some blob => if blob.length = persistedRecordSize then recordDecode blob.record else none

/-- Every slot is empty or readable: no scan stops at a damaged record. -/
def Sound (s : Store) : Prop := ∀ slot, s.record slot = .ok (s.view slot)

def slotOf (s : Store) (id : UInt32) : Option Slot :=
  allSlots.find? fun slot => holdsId id (s.view slot)

def freeSlot (s : Store) : Option Slot :=
  allSlots.find? fun slot => (s.view slot).isNone

/-- The slot of the passing record with the smallest id. -/
def leastSlot (s : Store) (pass : SmsMessage → Bool) : Option Slot :=
  (allSlots.foldl (fun best slot => visitLeast pass SmsMessage.id best slot (s.view slot))
    ((none, uint32Max) : Option Slot × UInt32)).1

def oldestPrunable (s : Store) : Option Slot := s.leastSlot (recordPrunable s)

/-- The id the next new record gets. -/
def freshId (s : Store) : UInt32 :=
  match s.nextId with
  | none => 1
  | some value => if value = 0 then 1 else value

/-- All records, in slot order. -/
def records (s : Store) : List SmsMessage := allSlots.filterMap s.view

/-- The blob under which a record is stored. -/
def blobOf (message : SmsMessage) : Blob := ⟨persistedRecordSize, recordEncode message⟩

def put (s : Store) (slot : Slot) (message : SmsMessage) : Store :=
  { s with blob := Function.update s.blob slot (some (blobOf message)) }

def wipe (s : Store) (slot : Slot) : Store :=
  { s with blob := Function.update s.blob slot none }

def countId (s : Store) : Store := { s with nextId := some (nextOf s.freshId) }

def countPruned (s : Store) : Store := { s with prunedRecords := s.prunedRecords + 1 }

/-- The counters of `sms_store_get_diagnostics` aside, `s` and `t` agree on
what they protect from pruning. -/
def SamePolicy (s t : Store) : Prop :=
  s.replayWatermark = t.replayWatermark ∧ s.replayProtectionEnabled = t.replayProtectionEnabled

theorem SamePolicy.refl (s : Store) : SamePolicy s s := ⟨rfl, rfl⟩

theorem freshId_ne_zero (s : Store) : s.freshId ≠ 0 := by
  simp only [freshId]
  split
  · decide
  · split
    · decide
    · assumption

theorem sound_iff (s : Store) :
    s.Sound ↔ ∀ slot blob, s.blob slot = some blob →
      blob.length = persistedRecordSize ∧ ∃ message, recordDecode blob.record = some message := by
  constructor
  · intro sound slot blob stored
    have read := sound slot
    simp only [record, view, stored] at read
    split at read
    · cases read
    · split at read
      · cases read
      · rename_i length
        simp only [ne_eq, Decidable.not_not] at length
        refine ⟨length, ?_⟩
        cases decoded : recordDecode blob.record with
        | none => simp [decoded] at read
        | some message => exact ⟨message, rfl⟩
  · intro readable slot
    cases stored : s.blob slot with
    | none => simp [record, view, stored]
    | some blob =>
        obtain ⟨length, message, decoded⟩ := readable slot blob stored
        simp [record, view, stored, length, decoded]

theorem sound_empty : empty.Sound := by
  rw [sound_iff]
  intro slot blob stored
  cases stored

theorem Sound.congr {s t : Store} (sound : s.Sound) (same : t.blob = s.blob) : t.Sound := by
  rw [sound_iff] at sound ⊢
  rw [same]
  exact sound

theorem view_congr {s t : Store} (same : t.blob = s.blob) : t.view = s.view := by
  funext slot
  simp [view, same]

theorem Sound.put {s : Store} (sound : s.Sound) (slot : Slot) {message : SmsMessage}
    (storable : message.storable = true) (named : message.id ≠ 0) :
    (s.put slot message).Sound := by
  rw [sound_iff] at sound ⊢
  intro other blob stored
  simp only [Store.put, Function.update_apply] at stored
  split at stored
  · cases stored
    exact ⟨rfl, message, recordDecode_recordEncode message storable named⟩
  · exact sound other blob stored

theorem Sound.wipe {s : Store} (sound : s.Sound) (slot : Slot) : (s.wipe slot).Sound := by
  rw [sound_iff] at sound ⊢
  intro other blob stored
  simp only [Store.wipe, Function.update_apply] at stored
  split at stored
  · cases stored
  · exact sound other blob stored

theorem view_put (s : Store) (slot : Slot) {message : SmsMessage}
    (storable : message.storable = true) (named : message.id ≠ 0) :
    (s.put slot message).view = Function.update s.view slot (some message) := by
  funext other
  by_cases same : other = slot
  · subst same
    simp [view, Store.put, blobOf, recordDecode_recordEncode message storable named]
  · simp [view, Store.put, same]

theorem view_wipe (s : Store) (slot : Slot) :
    (s.wipe slot).view = Function.update s.view slot none := by
  funext other
  by_cases same : other = slot
  · subst same
    simp [view, Store.wipe]
  · simp [view, Store.wipe, same]

theorem Sound.blob_none_iff {s : Store} (sound : s.Sound) (slot : Slot) :
    s.blob slot = none ↔ s.view slot = none := by
  constructor
  · intro empty
    simp [view, empty]
  · intro empty
    cases stored : s.blob slot with
    | none => rfl
    | some blob =>
        obtain ⟨length, message, decoded⟩ := (sound_iff s).mp sound slot blob stored
        simp [view, stored, length, decoded] at empty

theorem Sound.occupied {s : Store} (sound : s.Sound) {slot : Slot} {message : SmsMessage}
    (stored : s.view slot = some message) : s.blob slot ≠ none := by
  intro empty
  rw [(sound.blob_none_iff slot).mp empty] at stored
  cases stored

theorem view_named {s : Store} {slot : Slot} {message : SmsMessage}
    (stored : s.view slot = some message) : message.id ≠ 0 := by
  simp only [view] at stored
  split at stored
  · cases stored
  · split at stored
    · exact recordDecode_named stored
    · cases stored

theorem mem_allSlots (slot : Slot) : slot ∈ allSlots := List.mem_finRange slot

theorem slotOf_some {s : Store} {id : UInt32} {slot : Slot} (found : s.slotOf id = some slot) :
    ∃ message, s.view slot = some message ∧ message.id = id := by
  have hit := List.find?_some found
  cases stored : s.view slot with
  | none => simp [stored, holdsId] at hit
  | some message => exact ⟨message, rfl, by simpa [stored, holdsId] using hit⟩

theorem slotOf_none {s : Store} {id : UInt32} (absent : s.slotOf id = none) (slot : Slot)
    {message : SmsMessage} (stored : s.view slot = some message) : message.id ≠ id := by
  have miss := List.find?_eq_none.mp absent slot (mem_allSlots slot)
  simpa [stored, holdsId] using miss

theorem freeSlot_some {s : Store} {slot : Slot} (found : s.freeSlot = some slot) :
    s.view slot = none := by
  have hit := List.find?_some found
  simpa using hit

theorem freeSlot_none {s : Store} (full : s.freeSlot = none) (slot : Slot) :
    ∃ message, s.view slot = some message := by
  have miss := List.find?_eq_none.mp full slot (mem_allSlots slot)
  exact Option.isSome_iff_exists.mp (by simpa [Option.isSome_iff_ne_none] using miss)

theorem records_of_occupied {s : Store} {slot : Slot} {message : SmsMessage}
    (stored : s.view slot = some message) :
    s.records.Perm (message :: (s.wipe slot).records) := by
  have perm := filterMap_update_perm s.view (List.nodup_finRange _) (mem_allSlots slot) message
  rw [← stored, Function.update_eq_self] at perm
  rw [records, records, view_wipe]
  exact perm

theorem records_put {s : Store} (slot : Slot) {message : SmsMessage}
    (storable : message.storable = true) (named : message.id ≠ 0) :
    (s.put slot message).records.Perm (message :: (s.wipe slot).records) := by
  rw [records, records, view_put s slot storable named, view_wipe]
  exact filterMap_update_perm s.view (List.nodup_finRange _) (mem_allSlots slot) message

theorem records_wipe_free {s : Store} {slot : Slot} (free : s.view slot = none) :
    (s.wipe slot).records = s.records := by
  rw [records, records, view_wipe, ← free, Function.update_eq_self]

theorem leastSeen_allSlots (s : Store) (pass : SmsMessage → Bool) :
    LeastSeen UInt32.toNat pass SmsMessage.id s.view uint32Max allSlots
      (allSlots.foldl (fun best slot => visitLeast pass SmsMessage.id best slot (s.view slot))
        ((none, uint32Max) : Option Slot × UInt32)) :=
  leastSeen_foldl _ (fun _ _ => UInt32.lt_iff_toNat_lt) _ _ _ _ _

/-- The record found passes and no passing record is older. -/
theorem leastSlot_some {s : Store} {pass : SmsMessage → Bool} {slot : Slot}
    (found : s.leastSlot pass = some slot) :
    ∃ message, s.view slot = some message ∧ pass message = true ∧
      ∀ other record, s.view other = some record → pass record = true →
        message.id ≤ record.id := by
  obtain ⟨-, message, stored, passes, key, below⟩ := (s.leastSeen_allSlots pass).found slot found
  refine ⟨message, stored, passes, ?_⟩
  intro other record held otherPasses
  rw [UInt32.le_iff_toNat_le]
  by_cases inside : record.id < uint32Max
  · rw [key]
    exact (s.leastSeen_allSlots pass).least other (mem_allSlots other) record held otherPasses
      inside
  · rw [UInt32.lt_iff_toNat_lt] at inside below
    omega

theorem leastSlot_none {s : Store} {pass : SmsMessage → Bool} (absent : s.leastSlot pass = none)
    (slot : Slot) {message : SmsMessage} (stored : s.view slot = some message)
    (named : message.id < uint32Max) : pass message = false := by
  by_contra passes
  simp only [Bool.not_eq_false] at passes
  exact leastSeen_none _ (fun _ _ => UInt32.lt_iff_toNat_lt) (s.leastSeen_allSlots pass) absent
    slot (mem_allSlots slot) message stored passes named

end Store

theorem loadSlot_eq : loadSlot = readSlot .nvs .getBlob Store.record := by
  funext slot state
  obtain ⟨plan, s⟩ := state
  simp only [loadSlot, nvsGetBlob, readSlot, bind, StateT.bind, Store.record]
  cases fault : plan .getBlob 0 with
  | some code =>
      simp [attempt_refused _ _ _ _ _ fault, pure_apply]
  | none =>
      simp only [attempt_accepted _ _ _ _ _ fault]
      cases stored : s.blob slot with
      | none => rfl
      | some blob =>
          by_cases long : blob.length > persistedRecordSize
          · simp [long, pure_apply]
          · by_cases length : blob.length ≠ persistedRecordSize
            · simp [long, length, pure_apply]
            · simp only [long, ↓reduceIte, length]
              cases decoded : recordDecode blob.record <;> simp [pure_apply]

end SmsGateway
