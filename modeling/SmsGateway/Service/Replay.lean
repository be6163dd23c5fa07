import SmsGateway.Service.PersistBeforeDelete
import SmsGateway.Service.Reassembly

/-! A PDU that is processed again: when it leaves the journal as it is. -/

namespace SmsGateway

open Lib Prog

/-- Any call may fail, but no new record finds the journal full. -/
def roomy : Surroundings := ⟨True, False⟩

def World.receivedEvents (w : World) : List (SmsServiceEvent × SmsMessage) :=
  w.events.filter fun entry => entry.1 == .received

/-- The same records, and no message announced. -/
structure Unchanged (w t : World) : Prop where
  records : ∀ m, t.Holds m ↔ w.Holds m
  events : t.receivedEvents = w.receivedEvents

theorem Unchanged.refl (w : World) : Unchanged w w := ⟨fun _ => .rfl, rfl⟩

/-- All parts of the message are stored, and they fit into one text. -/
def Assembles (w : World) (deliver : SmsDeliver) : Prop :=
  ∃ stored, Gathers w deliver (partNumbers deliver.concat.totalParts) stored

/-- The part is still stored as delivered, and the message is not complete. -/
def PartKept (w : World) (deliver : SmsDeliver) : Prop :=
  ∃ m, PartFound w deliver deliver.concat.partNumber m ∧ m.text.str = deliver.text.str ∧
    ¬ Assembles w deliver

def SmsDeliver.identity (deliver : SmsDeliver) : Identity :=
  ⟨deliver.sender.str, deliver.serviceCenterTimestamp.str, deliver.encoding, deliver.text.str⟩

/-- The only part of its message, which is stored as received. -/
def LonePart (w : World) (deliver : SmsDeliver) : Prop :=
  deliver.concat.totalParts = 1 ∧ (∀ m, w.Holds m → ¬ IsPartOf deliver 1 m) ∧
    ∃ m, w.Holds m ∧ deliver.identity.Of m

section

variable {env : Surroundings} {deliver : SmsDeliver} {w u t : World}

theorem PartFound.unique {part : UInt8} {m m' : SmsMessage} (found : PartFound w deliver part m)
    (found' : PartFound w deliver part m') : m = m' :=
  Option.some.inj (found.symm.trans found')

/-- The search returns the same records each time. -/
theorem partsFound_unique {parts later : List UInt8} {stored all : List SmsMessage}
    (some_ : List.Forall₂ (PartFound w deliver) parts stored)
    (every : List.Forall₂ (PartFound w deliver) (parts ++ later) all) : stored <+: all := by
  induction some_ generalizing all with
  | nil => exact List.nil_prefix
  | cons found rest ih =>
      cases every with
      | cons found' rest' =>
          rw [found.unique found']
          exact (List.prefix_cons_inj _).mpr (ih rest')

theorem textLength_prefix {stored all : List SmsMessage} (first : stored <+: all) :
    textLength stored ≤ textLength all := by
  obtain ⟨later, rfl⟩ := first
  simp [textLength]

theorem not_assembles_of_absent {part : UInt8}
    (inside : part ∈ partNumbers deliver.concat.totalParts)
    (absent : ∀ m, w.Holds m → ¬ IsPartOf deliver part m) : ¬ Assembles w deliver := by
  rintro ⟨stored, gathers⟩
  obtain ⟨k, bound, rfl⟩ := List.getElem_of_mem inside
  have length := gathers.each.length_eq
  have found := gathers.each.get bound (by omega)
  exact absent _ found.holds found.isPart

theorem not_assembles_of_long {parts later : List UInt8} {stored : List SmsMessage}
    (split : partNumbers deliver.concat.totalParts = parts ++ later)
    (each : List.Forall₂ (PartFound w deliver) parts stored) (long : 4096 ≤ textLength stored) :
    ¬ Assembles w deliver := by
  rintro ⟨all, gathers⟩
  have every := gathers.each
  rw [split] at every
  have bound := textLength_prefix (partsFound_unique each every)
  have fits := gathers.fits
  omega

/-- A kept part is recognised, and nothing changes, whatever calls fail. -/
theorem DeliverStep.kept {result : Except EspErr SmsMessage}
    (multipart : deliver.concat.present = true) (kept : PartKept w deliver)
    (step : DeliverStep env w deliver result t) : Unchanged w t := by
  obtain ⟨m, found, same, incomplete⟩ := kept
  have part_ (result : Except EspErr SmsMessage) (u : World)
      (part : PartStep env w deliver result u) : u = w := by
    cases part with
    | failed fault => rfl
    | duplicate found' same' => rfl
    | overwritten found' differs saves => exact absurd (found.unique found' ▸ same) differs
    | added absent saves => exact absurd found.isPart (absent m found.holds)
  cases step with
  | failed fault => exact .refl w
  | unstored _ part =>
      rw [part_ _ _ part]
      exact .refl w
  | unassembled _ part assembly never =>
      cases part_ _ _ part
      cases assembly with
      | failed fault never => exact .refl w
      | missing inside absent => exact .refl w
      | tooLong split each long => exact .refl w
      | unstored gathers stores => exact absurd ⟨_, gathers⟩ incomplete
  | incomplete _ part inside absent =>
      cases part_ _ _ part
      exact ⟨fun _ => .rfl, rfl⟩
  | assembled _ part assembly =>
      cases part_ _ _ part
      cases assembly with
      | stored gathers stores deletes => exact absurd ⟨_, gathers⟩ incomplete
  | single single stores =>
      rw [multipart] at single
      cases single
  | singleFailed single stores =>
      rw [multipart] at single
      cases single

/-- Assembling adds no partial record. -/
theorem AssemblyStep.source {result : Except EspErr (SmsMessage × Bool)} {m : SmsMessage}
    (step : AssemblyStep env u deliver result t) (held : t.Holds m)
    (status : m.status = .partialRecord) : u.Holds m := by
  have stored_ (parts : List SmsMessage) (result : Except EspErr (SmsMessage × Bool)) (v : World)
      (stores : StoreStep env u
        (assembledOf deliver (partNumbers deliver.concat.totalParts) parts) result v)
      (held : v.Holds m) : u.Holds m := by
    rcases stores.source (assembledOf_id ..) held with before | rfl
    · exact before
    · have received := (assembledOf_fields deliver (partNumbers deliver.concat.totalParts) parts).2.1
      cases received.symm.trans status
  cases step with
  | failed fault never => exact held
  | missing inside absent => exact held
  | tooLong split each long => exact held
  | unstored gathers stores => exact stored_ _ _ _ stores held
  | stored gathers stores deletes => exact stored_ _ _ _ stores (deletes.source held)

theorem AssemblyStep.parts {done : SmsMessage × Bool} {part : UInt8}
    (step : AssemblyStep env u deliver (.ok done) t)
    (inside : part ∈ partNumbers deliver.concat.totalParts) :
    ∃ m, PartFound u deliver part m := by
  cases step with
  | stored gathers stores deletes =>
      obtain ⟨k, bound, rfl⟩ := List.getElem_of_mem inside
      have length := gathers.each.length_eq
      exact ⟨_, gathers.each.get bound (by omega)⟩

/-- Assembling removes every part that was found. -/
theorem AssemblyStep.clears {done : SmsMessage × Bool} {part : UInt8} {m : SmsMessage}
    (calm : ¬ env.mayFail) (step : AssemblyStep env u deliver (.ok done) t)
    (inside : part ∈ partNumbers deliver.concat.totalParts)
    (found : PartFound u deliver part m) : ¬ t.Holds m := by
  cases step with
  | stored gathers stores deletes =>
      intro held
      obtain ⟨k, bound, rfl⟩ := List.getElem_of_mem inside
      have length := gathers.each.length_eq
      have found' := gathers.each.get bound (by omega)
      refine deletes.clears calm held (List.mem_map.mpr ⟨m, ?_, rfl⟩)
      rw [found.unique found']
      exact List.get_mem ..

theorem mem_partNumbers {total part : UInt8} (positive : part ≠ 0) (most : part ≤ total) :
    part ∈ partNumbers total := by
  have low : part.toNat ≠ 0 := by
    intro zero
    exact positive (UInt8.toNat_inj.mp (by simpa using zero))
  have high := UInt8.le_iff_toNat_le.mp most
  refine List.mem_map.mpr ⟨part.toNat - 1, List.mem_range.mpr (by omega), ?_⟩
  rw [Nat.sub_add_cancel (by omega), UInt8.ofNat_toNat]

/-- A message of several parts has a part besides this one. -/
theorem exists_other_part {total part : UInt8} (positive : part ≠ 0) (most : part ≤ total)
    (several : total ≠ 1) : ∃ other ∈ partNumbers total, other ≠ part := by
  have low : part.toNat ≠ 0 := by
    intro zero
    exact positive (UInt8.toNat_inj.mp (by simpa using zero))
  have high := UInt8.le_iff_toNat_le.mp most
  have more : total.toNat ≠ 1 := by
    intro one
    exact several (UInt8.toNat_inj.mp (by simpa using one))
  by_cases first : part = 1
  · refine ⟨2, mem_partNumbers (by decide) (UInt8.le_iff_toNat_le.mpr ?_), ?_⟩
    · simp only [UInt8.reduceToNat]
      omega
    · rw [first]
      decide
  · refine ⟨1, mem_partNumbers (by decide) (UInt8.le_iff_toNat_le.mpr ?_), Ne.symm first⟩
    simp only [UInt8.reduceToNat]
    omega

/-- The record added for a part, among those stored before. -/
structure Added (w : World) (deliver : SmsDeliver) (m : SmsMessage) (u : World) : Prop where
  own : OwnPart deliver m
  held : u.Holds m
  fresh : ∀ stored, w.Holds stored → stored.id ≠ m.id
  source : ∀ stored, u.Holds stored → w.Holds stored ∨ stored = m
  keeps : ∀ stored, w.Holds stored → u.Holds stored

theorem Saves.added {m : SmsMessage} (room : ¬ env.mayPrune) (numbered : w.Numbered)
    (multipart : deliver.concat.present = true)
    (saves : Saves env w (deliverRecord deliver) (.ok m) u) : Added w deliver m u := by
  obtain ⟨held, equal⟩ := saves.stored
  have fresh : m = (deliverRecord deliver).withId w.store.freshId := by
    rcases equal with ⟨-, new⟩ | ⟨named, -⟩
    · exact new
    · exact absurd rfl named
  refine ⟨?_, held, ?_, ?_, ?_⟩
  · rw [fresh]
    exact ownPart_deliverRecord multipart _
  · intro stored before
    rw [fresh]
    exact numbered.holds_ne_fresh before
  · intro stored here
    rcases saves.source here with before | ⟨-, new⟩ | ⟨named, -⟩
    · exact .inl before
    · exact .inr (new.trans fresh.symm)
    · exact absurd rfl named
  · intro stored before
    exact saves.keeps before (numbered.holds_named before) (.inr room)

theorem Added.not_before {m : SmsMessage} (added : Added w deliver m u) : ¬ w.Holds m :=
  fun before => added.fresh m before rfl

/-- A message of one part is recognised by the identity of that part. -/
theorem sameMessage_lone {m stored : SmsMessage} (own : OwnPart deliver m)
    (total : deliver.concat.totalParts = 1)
    (gathers : Gathers u deliver (partNumbers deliver.concat.totalParts) [m]) :
    SameMessage (assembledOf deliver (partNumbers deliver.concat.totalParts) [m]) stored ↔
      deliver.identity.Of stored := by
  obtain ⟨-, -, encoding, sender⟩ :=
    assembledOf_fields deliver (partNumbers deliver.concat.totalParts) [m]
  have text : (assembledOf deliver (partNumbers deliver.concat.totalParts) [m]).text.str =
      deliver.text.str := by
    apply CStr.ext
    rw [assembledOf_text gathers, joinedText, ← own.text]
    simp
  have short : m.serviceCenterTimestamp.str.length < 40 := by
    rw [own.timestamp]
    exact deliver.serviceCenterTimestamp.fits
  have positive : deliver.concat.totalParts ≠ 0 := by
    rw [total]
    decide
  rw [sameMessage_iff, Identity.of_iff, encoding, sender, text,
    assembledOf_timestamp positive short, own.timestamp]
  rfl

/-- The only part of a message, once more: it is assembled at once, and dropped
exactly when the message is stored. -/
theorem lone_unchanged_iff {m : SmsMessage} {done : SmsMessage × Bool} (calm : ¬ env.mayFail)
    (total : deliver.concat.totalParts = 1) (numbered : u.Numbered)
    (absent : ∀ m, w.Holds m → ¬ IsPartOf deliver 1 m) (added : Added w deliver m u)
    (events : u.events = w.events) (assembly : AssemblyStep env u deliver (.ok done) t) :
    Unchanged w (t.announce done) ↔ ∃ stored, w.Holds stored ∧ deliver.identity.Of stored := by
  cases assembly with
  | stored gathers stores deletes =>
      rename_i parts v
      have only : parts = [m] := by
        have each := gathers.each
        rw [total] at each
        cases each with
        | cons found rest =>
            cases rest
            rcases added.source _ found.holds with before | rfl
            · exact absurd found.isPart (absent _ before)
            · rfl
      subst only
      cases stores with
      | duplicate held same =>
          rename_i stored
          have mine := (sameMessage_lone added.own total gathers).mp same
          refine iff_of_true ⟨?_, ?_⟩ ⟨stored, ?_, mine⟩
          · intro other
            rw [World.Holds, World.announce_store]
            constructor
            · intro here
              rcases added.source other (deletes.source here) with before | rfl
              · exact before
              · exact absurd List.mem_cons_self (deletes.clears calm here)
            · intro before
              refine deletes.keeps (added.keeps other before) ?_
              simpa using added.fresh other before
          · have wrote := deletes.wrote numbered
            simp only [World.receivedEvents, World.announce, wrote.events, events]
          · rcases added.source stored held with before | rfl
            · exact before
            · rw [Identity.of_iff, added.own.part.status] at mine
              cases mine.2.1
      | created none saves =>
          refine iff_of_false ?_ ?_
          · intro unchanged
            have wrote := saves.wrote.trans (deletes.wrote saves.wrote.numbered)
            have count := congrArg List.length unchanged.events
            simp [World.receivedEvents, World.announce, World.emit, wrote.events, events] at count
          · rintro ⟨stored, before, mine⟩
            exact none stored (added.keeps stored before)
              ((sameMessage_lone added.own total gathers).mpr mine)

/-- The overwritten record is gone. -/
theorem Saves.overwrites {m saved : SmsMessage} (numbered : w.Numbered) (held : w.Holds m)
    (differs : m.text.str ≠ deliver.text.str)
    (saves : Saves env w (overwritePart m deliver) (.ok saved) u) : ¬ u.Holds m := by
  intro here
  obtain ⟨stored, ⟨unnamed, -⟩ | ⟨-, rfl⟩⟩ := saves.stored
  · exact numbered.holds_named held unnamed
  · have same := saves.wrote.numbered.id_inj here stored rfl
    apply differs
    rw [same]
    exact (overwritePart_strings m deliver).2

/-- One part is never too long. -/
theorem lone_fits {m : SmsMessage} {parts later : List UInt8} {stored : List SmsMessage}
    (absent : ∀ m, w.Holds m → ¬ IsPartOf deliver 1 m) (added : Added w deliver m u)
    (split : partNumbers 1 = parts ++ later)
    (each : List.Forall₂ (PartFound u deliver) parts stored) : textLength stored < 4096 := by
  cases each with
  | nil => decide
  | cons found rest =>
      rename_i number record numbers others
      obtain ⟨one, none⟩ : 1 = number ∧ [] = numbers ++ later := List.cons.inj split
      rw [(List.append_eq_nil_iff.mp none.symm).1] at rest
      cases rest
      have mine : record = m := by
        rcases added.source _ found.holds with before | same
        · exact absurd (one ▸ found.isPart) (absent _ before)
        · exact same
      have fits := deliver.text.fits
      simp only [textLength, mine, added.own.text, List.map_cons, List.map_nil, List.sum_cons,
        List.sum_nil]
      omega

/-- In undisturbed surroundings a part leaves the journal as it is exactly when it
is kept or was the whole of a stored message. -/
theorem DeliverStep.unchanged_iff {result : Except EspErr SmsMessage} (calm : ¬ env.mayFail)
    (room : ¬ env.mayPrune) (numbered : w.Numbered) (multipart : deliver.concat.present = true)
    (valid : deliver.concat.Valid) (step : DeliverStep env w deliver result t) :
    Unchanged w t ↔ PartKept w deliver ∨ LonePart w deliver := by
  by_cases kept : PartKept w deliver
  · exact iff_of_true (step.kept multipart kept) (.inl kept)
  have own := mem_partNumbers valid.2.1 valid.2.2
  have first (total : deliver.concat.totalParts = 1) : deliver.concat.partNumber = 1 := by
    rw [total] at own
    simpa [partNumbers] using own
  -- A stored part of this number is not the lone one.
  have found_ (m : SmsMessage) (found : PartFound w deliver deliver.concat.partNumber m) :
      ¬ LonePart w deliver := by
    rintro ⟨total, absent, -⟩
    refine absent m found.holds ?_
    rw [← first total]
    exact found.isPart
  simp only [kept, false_or]
  cases step with
  | failed fault => exact absurd fault calm
  | unstored _ part =>
      cases part with
      | failed fault => exact absurd fault calm
      | overwritten found differs saves => exact absurd (saves.fault ⟨_, rfl⟩) calm
      | added absent saves => exact absurd (saves.fault ⟨_, rfl⟩) calm
  | unassembled _ part assembly never =>
      cases assembly with
      | failed fault never => exact absurd fault calm
      | missing inside absent => exact absurd rfl never
      | unstored gathers stores =>
          cases stores with
          | failed fault never => exact absurd fault calm
          | unsaved absent saves => exact absurd (saves.fault ⟨_, rfl⟩) calm
      | tooLong split each long =>
          cases part with
          | duplicate found same =>
              exact absurd ⟨_, found, same, not_assembles_of_long split each long⟩ kept
          | overwritten found differs saves =>
              refine iff_of_false ?_ (found_ _ found)
              intro unchanged
              exact saves.overwrites numbered found.holds differs
                ((unchanged.records _).mpr found.holds)
          | added absent saves =>
              have added := saves.added room numbered multipart
              refine iff_of_false ?_ ?_
              · intro unchanged
                exact added.not_before ((unchanged.records _).mp added.held)
              · rintro ⟨total, none, -⟩
                rw [total] at split
                have fits := lone_fits none added split each
                omega
  | incomplete _ part inside absent =>
      rename_i number _
      cases part with
      | duplicate found same =>
          exact absurd ⟨_, found, same, not_assembles_of_absent inside absent⟩ kept
      | overwritten found differs saves =>
          refine iff_of_false ?_ (found_ _ found)
          intro unchanged
          exact saves.overwrites numbered found.holds differs
            ((unchanged.records _).mpr found.holds)
      | added none saves =>
          have added := saves.added room numbered multipart
          refine iff_of_false ?_ ?_
          · intro unchanged
            exact added.not_before ((unchanged.records _).mp added.held)
          · rintro ⟨total, -⟩
            have part := added.own.part
            rw [total] at inside
            have one : number = 1 := by simpa [partNumbers] using inside
            rw [first total, ← one] at part
            exact absent _ added.held part
  | assembled _ part assembly =>
      cases part with
      | duplicate found same =>
          refine iff_of_false ?_ (found_ _ found)
          intro unchanged
          refine assembly.clears calm own found ?_
          have here := (unchanged.records _).mpr found.holds
          rwa [World.Holds, World.announce_store] at here
      | overwritten found differs saves =>
          refine iff_of_false ?_ (found_ _ found)
          intro unchanged
          have here := (unchanged.records _).mpr found.holds
          rw [World.Holds, World.announce_store] at here
          exact saves.overwrites numbered found.holds differs
            (assembly.source here found.isPart.status)
      | added absent saves =>
          have added := saves.added room numbered multipart
          by_cases total : deliver.concat.totalParts = 1
          · rw [first total] at absent
            rw [lone_unchanged_iff calm total saves.wrote.numbered absent added saves.wrote.events
              assembly]
            exact ⟨fun stored => ⟨total, absent, stored⟩, fun lone => lone.2.2⟩
          · -- Another part was stored before and is deleted now.
            refine iff_of_false ?_ fun lone => total lone.1
            intro unchanged
            obtain ⟨other, inside, differs⟩ := exists_other_part valid.2.1 valid.2.2 total
            obtain ⟨stored, found⟩ := assembly.parts inside
            have before : w.Holds stored := by
              rcases added.source stored found.holds with before | rfl
              · exact before
              · have number := ((isPartOf_iff _ _ _).mp found.isPart).2.2.2.2.2.1
                have mine := ((isPartOf_iff _ _ _).mp added.own.part).2.2.2.2.2.1
                exact absurd (number.symm.trans mine) differs
            have here := (unchanged.records _).mpr before
            rw [World.Holds, World.announce_store] at here
            exact assembly.clears calm inside found here
  | single single stores =>
      rw [multipart] at single
      cases single
  | singleFailed single stores =>
      rw [multipart] at single
      cases single

end

/-- The PDUs processed with success so far, the last one first. Other PDUs may have
failed in between; nothing else removed a record. -/
inductive InboxHistory : List CStr → World → Prop where
  | start {s : Store} {issued : Nat} (reached : s.Reached issued) : InboxHistory [] ⟨s, issued, []⟩
  | succeeded {done : List CStr} {w t : World} {pdu : CStr} {index : Int}
      {trace : List (Entry World ServiceCall ServiceCall.Reply)} (before : InboxHistory done w)
      (runs : Runs roomy.Meets (processDeliverPdu pdu index) w trace (.ok ()) t) :
      InboxHistory (pdu :: done) t
  | failed {done : List CStr} {w t : World} {pdu : CStr} {index : Int} {e : EspErr}
      {trace : List (Entry World ServiceCall ServiceCall.Reply)} (before : InboxHistory done w)
      (runs : Runs roomy.Meets (processDeliverPdu pdu index) w trace (.error e) t) :
      InboxHistory done t

/-- What the journal keeps of a processed PDU that is no part of a message. -/
inductive Remembered (pdu : CStr) (w : World) : Prop where
  | raw (kind : KeptRaw pdu) (stored : ∃ m, w.Holds m ∧ IsRaw pdu m)
  | single (fine : (smsDeliverDecode pdu).1 = .ok)
      (single : (smsDeliverDecode pdu).2.concat.present = false)
      (stored : ∃ m, w.Holds m ∧ (smsDeliverDecode pdu).2.identity.Of m)
  | part (fine : (smsDeliverDecode pdu).1 = .ok)
      (multipart : (smsDeliverDecode pdu).2.concat.present = true)

section

variable {env : Surroundings} {pdu : CStr} {w t : World}

theorem Remembered.mono (remembered : Remembered pdu w)
    (keeps : ∀ m, w.Holds m → m.status ≠ .partialRecord → t.Holds m) : Remembered pdu t := by
  cases remembered with
  | raw kind stored =>
      obtain ⟨m, held, raw⟩ := stored
      refine .raw kind ⟨m, keeps m held ?_, raw⟩
      rw [((isRaw_iff _ _).mp raw).2.1]
      decide
  | single fine single stored =>
      obtain ⟨m, held, mine⟩ := stored
      refine .single fine single ⟨m, keeps m held ?_, mine⟩
      rw [((Identity.of_iff _ _).mp mine).2.1]
      decide
  | part fine multipart => exact .part fine multipart

theorem ProcessStep.remembered {result : Except EspErr Unit} (numbered : w.Numbered)
    (step : ProcessStep env w pdu result t) (succeeded : result = .ok ()) : Remembered pdu t := by
  cases step with
  | failed fault => cases succeeded
  | rejected other bad => cases succeeded
  | quarantined raw step =>
      cases step with
      | failed fault => cases succeeded
      | unsaved absent saves => cases succeeded
      | duplicate held same => exact .raw raw ⟨_, held, same⟩
      | created absent saves =>
          obtain ⟨held, ⟨-, rfl⟩ | ⟨named, -⟩⟩ := saves.stored
          · refine .raw raw ⟨_, held, (isRaw_iff _ _).mpr ⟨rfl, rfl, ?_⟩⟩
            exact CharArray.strncpy_str raw.short
          · exact absurd rfl named
  | delivered fine step =>
      rename_i outcome
      cases outcome with
      | error e => cases succeeded
      | ok m =>
          cases multipart : (smsDeliverDecode pdu).2.concat.present with
          | true => exact .part fine multipart
          | false =>
              have content := deliverHeld_of_step numbered (smsDeliverDecode_valid fine) step
              simp only [DeliverHeld, multipart, Bool.false_eq_true, ↓reduceIte] at content
              obtain ⟨stored, held, direction, status, sender, timestamp, encoding, text⟩ := content
              exact .single fine multipart ⟨stored, held, (Identity.of_iff _ _).mpr
                ⟨direction, status, encoding, sender, timestamp, text⟩⟩

/-- The journal remembers every PDU that was processed with success. -/
theorem InboxHistory.remembered {done : List CStr} (history : InboxHistory done w)
    (few : w.issued < idLimit) : w.Numbered ∧ ∀ pdu ∈ done, Remembered pdu w := by
  induction history with
  | start reached => exact ⟨reached.numbered few, by simp⟩
  | succeeded before runs ih =>
      obtain ⟨numbered, remembered⟩ := ih (runs_few runs few).2
      have step := processStep_of_runs numbered runs few
      refine ⟨step.numbered numbered, ?_⟩
      intro pdu member
      rcases List.mem_cons.mp member with rfl | member
      · exact step.remembered numbered rfl
      · exact (remembered pdu member).mono fun m held whole => step.keeps id numbered held whole
  | failed before runs ih =>
      obtain ⟨numbered, remembered⟩ := ih (runs_few runs few).2
      have step := processStep_of_runs numbered runs few
      refine ⟨step.numbered numbered, ?_⟩
      intro pdu member
      exact (remembered pdu member).mono fun m held whole => step.keeps id numbered held whole

/-- A stored message is recognised, and nothing changes, whatever calls fail. -/
theorem DeliverStep.recognised {deliver : SmsDeliver} {result : Except EspErr SmsMessage}
    (single : deliver.concat.present = false)
    (stored : ∃ m, w.Holds m ∧ deliver.identity.Of m)
    (step : DeliverStep env w deliver result t) : Unchanged w t := by
  obtain ⟨m, held, mine⟩ := stored
  have same : SameMessage (deliverRecord deliver) m := by
    obtain ⟨sender, timestamp, text⟩ := deliverRecord_strings deliver
    rw [sameMessage_iff, sender, timestamp, text]
    exact (Identity.of_iff _ _).mp mine
  cases step with
  | failed fault => exact .refl w
  | single _ stores =>
      cases stores with
      | duplicate held' same' => exact .refl w
      | created absent saves => exact absurd same (absent m held)
  | singleFailed _ stores =>
      cases stores with
      | failed fault never => exact .refl w
      | unsaved absent saves => exact absurd same (absent m held)
  | unstored multipart | unassembled multipart | incomplete multipart | assembled multipart =>
      rw [single] at multipart
      cases multipart

theorem UnsupportedStep.recognised {deliver : SmsDeliver} {result : Except EspErr SmsMessage}
    (stored : ∃ m, w.Holds m ∧ IsRaw pdu m) (step : UnsupportedStep env w pdu deliver result t) :
    Unchanged w t := by
  obtain ⟨m, held, raw⟩ := stored
  cases step with
  | failed fault => exact .refl w
  | duplicate held' same => exact .refl w
  | unsaved absent saves => exact absurd raw (absent m held)
  | created absent saves => exact absurd raw (absent m held)

end

/-- If the PDU is a part of a message, then the part satisfies `condition`. -/
def IfPart (pdu : CStr) (condition : SmsDeliver → Prop) : Prop :=
  (smsDeliverDecode pdu).1 = .ok → (smsDeliverDecode pdu).2.concat.present = true →
    condition (smsDeliverDecode pdu).2

/-- A PDU that was processed with success is processed again: whatever calls fail,
nothing changes unless it is a part that is no longer kept. If no call fails,
nothing changes exactly when the part is kept, or is the whole of a stored
message. -/
theorem replay_unchanged_iff {done : List CStr} {pdu : CStr} {index : Int} {w t : World}
    {trace : List (Entry World ServiceCall ServiceCall.Reply)} {result : Except EspErr Unit}
    (history : InboxHistory done w) (member : pdu ∈ done)
    (runs : Runs roomy.Meets (processDeliverPdu pdu index) w trace result t)
    (few : t.issued < idLimit) :
    (IfPart pdu (PartKept w) → Unchanged w t) ∧
      ((∀ entry ∈ trace, ¬ entry.request.Fails entry.reply) →
        (Unchanged w t ↔ IfPart pdu fun part => PartKept w part ∨ LonePart w part)) := by
  obtain ⟨numbered, remembered⟩ := history.remembered (runs_few runs few).2
  have step := processStep_of_runs numbered runs few
  have smooth (fine : ∀ entry ∈ trace, ¬ entry.request.Fails entry.reply) :
      ProcessStep steady w pdu result t := by
    have steadily : Runs steady.Meets (processDeliverPdu pdu index) w trace result t :=
      runs.meeting (fun entry => ¬ entry.request.Fails entry.reply)
        (fun _ _ _ _ meets fine => ⟨meets.1, fine, meets.2.2⟩) fine
    exact processStep_of_runs numbered steadily few
  cases remembered pdu member with
  | raw kind stored =>
      have unchanged : Unchanged w t := by
        cases step with
        | failed fault => exact .refl w
        | rejected other bad => exact .refl w
        | quarantined raw step => exact step.recognised stored
        | delivered fine step => cases kind.1.symm.trans fine
      refine ⟨fun _ => unchanged, fun _ => iff_of_true unchanged ?_⟩
      intro fine
      cases kind.1.symm.trans fine
  | single fine single stored =>
      have unchanged : Unchanged w t := by
        cases step with
        | failed fault => exact .refl w
        | rejected other bad => exact .refl w
        | quarantined raw step => cases raw.1.symm.trans fine
        | delivered _ step => exact step.recognised single stored
      refine ⟨fun _ => unchanged, fun _ => iff_of_true unchanged ?_⟩
      intro _ multipart
      cases single.symm.trans multipart
  | part fine multipart =>
      constructor
      · intro kept
        cases step with
        | failed fault => exact .refl w
        | rejected other bad => exact .refl w
        | quarantined raw step => cases raw.1.symm.trans fine
        | delivered _ step => exact step.kept multipart (kept fine multipart)
      · intro noFault
        have valid := smsDeliverDecode_valid fine multipart
        have exact_ : Unchanged w t ↔ PartKept w (smsDeliverDecode pdu).2 ∨
            LonePart w (smsDeliverDecode pdu).2 := by
          cases smooth noFault with
          | failed fault => exact fault.elim
          | rejected other bad => exact absurd fine bad
          | quarantined raw step => cases raw.1.symm.trans fine
          | delivered _ step => exact step.unchanged_iff id id numbered multipart valid
        rw [exact_]
        exact ⟨fun kept _ _ => kept, fun kept => kept fine multipart⟩

/-- The world after a PDU whose processing nothing disturbs. -/
def afterPdu (pdu : CStr) (w : World) : World :=
  (Prog.run ServiceCall.handle (processDeliverPdu pdu 5) w).2

/-- Whether nothing disturbs the processing of a PDU, and it succeeds. -/
def acceptsPdu (pdu : CStr) (w : World) : Bool :=
  (Prog.trace ServiceCall.handle (processDeliverPdu pdu 5) w).all undisturbed &&
    (Prog.run ServiceCall.handle (processDeliverPdu pdu 5) w).1 == .ok ()

theorem InboxHistory.accepted {done : List CStr} {w : World} (history : InboxHistory done w)
    (pdu : CStr) (accepts : acceptsPdu pdu w = true) :
    InboxHistory (pdu :: done) (afterPdu pdu w) := by
  simp only [acceptsPdu, Bool.and_eq_true, beq_iff_eq] at accepts
  have runs := runs_undisturbed roomy (processDeliverPdu pdu 5) w accepts.1
  rw [accepts.2] at runs
  exact history.succeeded runs

def firstArrived : World := afterPdu (partPdu 1) ⟨.empty, 0, []⟩

theorem firstArrived_history : InboxHistory [partPdu 1] firstArrived :=
  (InboxHistory.start .empty).accepted (partPdu 1) (by decide +kernel)

theorem replay_unchanged_iff_first_part :
    Unchanged firstArrived (afterPdu (partPdu 1) firstArrived) ↔
      IfPart (partPdu 1) fun part => PartKept firstArrived part ∨ LonePart firstArrived part := by
  have fine : (Prog.trace ServiceCall.handle (processDeliverPdu (partPdu 1) 5)
      firstArrived).all undisturbed = true := by
    decide +kernel
  refine (replay_unchanged_iff firstArrived_history (by decide +kernel)
    (runs_undisturbed roomy _ _ fine) (by decide +kernel)).2 ?_
  intro entry member
  exact (undisturbed_fine (List.all_eq_true.mp fine entry member)).1

def bothArrived : World := afterPdu (partPdu 2) firstArrived

/-- Whether some record waits for other parts. -/
def someWaiting (w : World) : Bool :=
  allSlots.any fun slot => (w.store.view slot).any fun m => m.status == .partialRecord

theorem someWaiting_iff (w : World) :
    someWaiting w = true ↔ ∃ m, w.Holds m ∧ m.status = .partialRecord := by
  simp only [someWaiting, List.any_eq_true, Option.any_eq_true, beq_iff_eq, World.Holds, Store.Holds]
  constructor
  · rintro ⟨slot, -, m, stored, waiting⟩
    exact ⟨m, ⟨slot, stored⟩, waiting⟩
  · rintro ⟨m, ⟨slot, stored⟩, waiting⟩
    exact ⟨slot, Store.mem_allSlots slot, m, stored, waiting⟩

theorem replay_leaves_stray_part :
    ¬ ∀ (done : List CStr) (pdu : CStr) (index : Int) (w t : World)
      (trace : List (Entry World ServiceCall ServiceCall.Reply)) (result : Except EspErr Unit),
      InboxHistory done w → pdu ∈ done →
      Runs steady.Meets (processDeliverPdu pdu index) w trace result t → t.issued < idLimit →
      Unchanged w t := by
  intro claim
  have history : InboxHistory [partPdu 2, partPdu 1] bothArrived :=
    firstArrived_history.accepted (partPdu 2) (by decide +kernel)
  have unchanged := claim _ (partPdu 1) 5 bothArrived (afterPdu (partPdu 1) bothArrived) _ _
    history (by simp) (runs_undisturbed steady _ _ (by decide +kernel)) (by decide +kernel)
  have before : someWaiting bothArrived = false := by decide +kernel
  have after : someWaiting (afterPdu (partPdu 1) bothArrived) = true := by decide +kernel
  obtain ⟨m, held, waiting⟩ := (someWaiting_iff _).mp after
  have here := (someWaiting_iff _).mpr ⟨m, (unchanged.records m).mp held, waiting⟩
  rw [before] at here
  cases here

end SmsGateway
