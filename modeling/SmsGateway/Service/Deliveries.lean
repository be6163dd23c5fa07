import SmsGateway.Service.Steps

/-! What the inbound functions can do to the journal: one relation for each
function, and the proof that every run of the function is one of its cases. -/

namespace SmsGateway

open Lib Prog

/-- The stored part with this number of the message that `deliver` belongs to. -/
def IsPartOf (deliver : SmsDeliver) (part : UInt8) (m : SmsMessage) : Prop :=
  isPartialOf deliver.sender.str deliver.concat.reference deliver.concat.totalParts part m = true

/-- The record a search for this part returns. -/
def PartFound (w : World) (deliver : SmsDeliver) (part : UInt8) (m : SmsMessage) : Prop :=
  w.store.recordWhere (isPartialOf deliver.sender.str deliver.concat.reference
    deliver.concat.totalParts part) = some m

/-- An equal message is stored under this record. -/
def SameMessage (a m : SmsMessage) : Prop :=
  isInboundIdentity a.sender.str a.serviceCenterTimestamp.str a.encoding a.text.str m = true

/-- The assembled record of these stored parts. -/
def assembledOf (deliver : SmsDeliver) (parts : List UInt8) (stored : List SmsMessage) :
    SmsMessage :=
  (parts.zip stored).foldl (fun a (part, m) => appendPart a part m) (assembledStart deliver)

/-- The length of the texts of these records. -/
def textLength (stored : List SmsMessage) : Nat := (stored.map fun m => m.text.str.length).sum

/-- A save through `saveRecord`. -/
structure Saves (env : Surroundings) (w : World) (message : SmsMessage)
    (result : Except EspErr SmsMessage) (t : World) : Prop where
  wrote : w.Wrote t
  effect : ∃ reply, Store.SaveEffect w.store t.store message reply ∧
    result = reply.1.map fun _ => reply.2
  never : result ≠ .error .notFound
  fault : (∃ e, result = .error e) → env.mayFail
  full : message.id = 0 → w.store.freeSlot = none → env.mayPrune

/-- The deletes of `deletePartials`. -/
inductive Deletes (env : Surroundings) : World → List UInt32 → World → Prop where
  | nil {w : World} : Deletes env w [] w
  | cons {w u t : World} {id : UInt32} {ids : List UInt32} {reply : Except EspErr Unit}
      (wrote : w.Wrote u) (effect : Store.DeleteEffect w.store u.store id reply)
      (fault : (∃ e, reply = .error e) → env.mayFail) (rest : Deletes env u ids t) :
      Deletes env w (id :: ids) t

/-- The parts are stored and fit into one text. -/
structure Gathers (w : World) (deliver : SmsDeliver) (parts : List UInt8)
    (stored : List SmsMessage) : Prop where
  each : List.Forall₂ (PartFound w deliver) parts stored
  fits : textLength stored < 4096

/-- `persistPart`. -/
inductive PartStep (env : Surroundings) (w : World) (deliver : SmsDeliver) :
    Except EspErr SmsMessage → World → Prop where
  | failed {e : EspErr} (fault : env.mayFail) : PartStep env w deliver (.error e) w
  | duplicate {m : SmsMessage} (found : PartFound w deliver deliver.concat.partNumber m)
      (same : m.text.str = deliver.text.str) : PartStep env w deliver (.ok m) w
  | overwritten {m : SmsMessage} {result : Except EspErr SmsMessage} {t : World}
      (found : PartFound w deliver deliver.concat.partNumber m)
      (differs : m.text.str ≠ deliver.text.str)
      (saves : Saves env w (overwritePart m deliver) result t) : PartStep env w deliver result t
  | added {result : Except EspErr SmsMessage} {t : World}
      (absent : ∀ m, w.Holds m → ¬ IsPartOf deliver deliver.concat.partNumber m)
      (saves : Saves env w (deliverRecord deliver) result t) : PartStep env w deliver result t

/-- `storeAssembled`, and `persistSingle` up to its event. -/
inductive StoreStep (env : Surroundings) (w : World) (a : SmsMessage) :
    Except EspErr (SmsMessage × Bool) → World → Prop where
  | failed {e : EspErr} (fault : env.mayFail) (never : e ≠ .notFound) :
      StoreStep env w a (.error e) w
  | duplicate {m : SmsMessage} (held : w.Holds m) (same : SameMessage a m) :
      StoreStep env w a (.ok (m, false)) w
  | unsaved {e : EspErr} {t : World} (absent : ∀ m, w.Holds m → ¬ SameMessage a m)
      (saves : Saves env w a (.error e) t) : StoreStep env w a (.error e) t
  | created {saved : SmsMessage} {t : World} (absent : ∀ m, w.Holds m → ¬ SameMessage a m)
      (saves : Saves env w a (.ok saved) t) : StoreStep env w a (.ok (saved, true)) t

/-- The loop over the parts and everything after it, on the message's parts. -/
inductive AssemblyStep (env : Surroundings) (w : World) (deliver : SmsDeliver) :
    Except EspErr (SmsMessage × Bool) → World → Prop where
  | failed {e : EspErr} (fault : env.mayFail) (never : e ≠ .notFound) :
      AssemblyStep env w deliver (.error e) w
  | missing {part : UInt8} (inside : part ∈ partNumbers deliver.concat.totalParts)
      (absent : ∀ m, w.Holds m → ¬ IsPartOf deliver part m) :
      AssemblyStep env w deliver (.error .notFound) w
  | tooLong {parts later : List UInt8} {stored : List SmsMessage}
      (split : partNumbers deliver.concat.totalParts = parts ++ later)
      (each : List.Forall₂ (PartFound w deliver) parts stored)
      (long : 4096 ≤ textLength stored) : AssemblyStep env w deliver (.error .invalidSize) w
  | unstored {stored : List SmsMessage} {e : EspErr} {t : World}
      (gathers : Gathers w deliver (partNumbers deliver.concat.totalParts) stored)
      (stores : StoreStep env w
        (assembledOf deliver (partNumbers deliver.concat.totalParts) stored) (.error e) t) :
      AssemblyStep env w deliver (.error e) t
  | stored {stored : List SmsMessage} {done : SmsMessage × Bool} {u t : World}
      (gathers : Gathers w deliver (partNumbers deliver.concat.totalParts) stored)
      (stores : StoreStep env w
        (assembledOf deliver (partNumbers deliver.concat.totalParts) stored) (.ok done) u)
      (deletes : Deletes env u (stored.map SmsMessage.id) t) :
      AssemblyStep env w deliver (.ok done) t

/-- The event of a new message. -/
def World.announce (w : World) : SmsMessage × Bool → World
  | (m, true) => w.emit .received m
  | (_, false) => w

@[simp] theorem World.announce_store (w : World) (done : SmsMessage × Bool) :
    (w.announce done).store = w.store := by
  obtain ⟨m, _ | _⟩ := done <;> rfl

/-- `persistDeliver`. -/
inductive DeliverStep (env : Surroundings) (w : World) (deliver : SmsDeliver) :
    Except EspErr SmsMessage → World → Prop where
  | failed {e : EspErr} (fault : env.mayFail) : DeliverStep env w deliver (.error e) w
  | unstored {e : EspErr} {t : World} (multipart : deliver.concat.present = true)
      (part : PartStep env w deliver (.error e) t) : DeliverStep env w deliver (.error e) t
  | unassembled {m : SmsMessage} {e : EspErr} {u t : World}
      (multipart : deliver.concat.present = true) (part : PartStep env w deliver (.ok m) u)
      (assembly : AssemblyStep env u deliver (.error e) t) (never : e ≠ .notFound) :
      DeliverStep env w deliver (.error e) t
  | incomplete {m : SmsMessage} {u : World} {number : UInt8}
      (multipart : deliver.concat.present = true) (part : PartStep env w deliver (.ok m) u)
      (inside : number ∈ partNumbers deliver.concat.totalParts)
      (absent : ∀ m, u.Holds m → ¬ IsPartOf deliver number m) :
      DeliverStep env w deliver (.ok m) (u.emit .partialReceived m)
  | assembled {m : SmsMessage} {done : SmsMessage × Bool} {u t : World}
      (multipart : deliver.concat.present = true) (part : PartStep env w deliver (.ok m) u)
      (assembly : AssemblyStep env u deliver (.ok done) t) :
      DeliverStep env w deliver (.ok done.1) (t.announce done)
  | single {done : SmsMessage × Bool} {t : World} (single : deliver.concat.present = false)
      (stores : StoreStep env w (deliverRecord deliver) (.ok done) t) :
      DeliverStep env w deliver (.ok done.1) (t.announce done)
  | singleFailed {e : EspErr} {t : World} (single : deliver.concat.present = false)
      (stores : StoreStep env w (deliverRecord deliver) (.error e) t) :
      DeliverStep env w deliver (.error e) t

/-- The worlds in which `assembleIfComplete` makes its calls. -/
inductive AssemblyVisits (env : Surroundings) (w : World) (deliver : SmsDeliver) : World → Prop where
  | start : AssemblyVisits env w deliver w
  | deleting {stored : List SmsMessage} {done : SmsMessage × Bool} {v t : World}
      {ids : List UInt32}
      (gathers : Gathers w deliver (partNumbers deliver.concat.totalParts) stored)
      (stores : StoreStep env w
        (assembledOf deliver (partNumbers deliver.concat.totalParts) stored) (.ok done) v)
      (first : ids <+: stored.map SmsMessage.id) (deletes : Deletes env v ids t) :
      AssemblyVisits env w deliver t

/-- The worlds in which `persistDeliver` makes its calls. -/
inductive Visits (env : Surroundings) (w : World) (deliver : SmsDeliver) : World → Prop where
  | start : Visits env w deliver w
  | assembling {m : SmsMessage} {u t : World} (multipart : deliver.concat.present = true)
      (part : PartStep env w deliver (.ok m) u) (assembly : AssemblyVisits env u deliver t) :
      Visits env w deliver t
  | single {done : SmsMessage × Bool} {t : World} (single : deliver.concat.present = false)
      (stores : StoreStep env w (deliverRecord deliver) (.ok done) t) : Visits env w deliver t

/-- A call that does not reach the modem. -/
def ServiceCall.Local : ServiceCall → Prop
  | .execute _ => False
  | _ => True

theorem appendPart_text {a m : SmsMessage} (part : UInt8)
    (fits : a.text.str.length + m.text.str.length < 4096) :
    (appendPart a part m).text.str = a.text.str ++ m.text.str := by
  have short : (a.text.str ++ m.text.str).length < 4096 := by
    simpa [CStr.length] using fits
  simp only [appendPart]
  split <;> exact CharArray.strncpy_str short

theorem appendPart_length {a m : SmsMessage} (part : UInt8)
    (fits : a.text.str.length + m.text.str.length < 4096) :
    (appendPart a part m).text.str.length = a.text.str.length + m.text.str.length := by
  rw [appendPart_text part fits]
  simp [CStr.length]

theorem assembledOf_id (deliver : SmsDeliver) (parts : List UInt8) (stored : List SmsMessage) :
    (assembledOf deliver parts stored).id = 0 := by
  have kept (pairs : List (UInt8 × SmsMessage)) (a : SmsMessage) :
      (pairs.foldl (fun a (part, m) => appendPart a part m) a).id = a.id := by
    induction pairs generalizing a with
    | nil => rfl
    | cons pair rest ih =>
        rw [List.foldl_cons, ih]
        simp only [appendPart]
        split <;> rfl
  exact kept _ _

namespace World

variable {w u t : World}

theorem Wrote.refl (numbered : w.Numbered) : w.Wrote w := ⟨numbered, rfl, Nat.le_refl _⟩

theorem Wrote.trans (first : w.Wrote u) (second : u.Wrote t) : w.Wrote t :=
  ⟨second.numbered, second.events.trans first.events, first.issued.trans second.issued⟩

end World

section

variable {env : Surroundings} {w t : World}

theorem StoreStep.wrote {a : SmsMessage} {result : Except EspErr (SmsMessage × Bool)}
    (numbered : w.Numbered) (step : StoreStep env w a result t) : w.Wrote t := by
  cases step with
  | failed fault never => exact .refl numbered
  | duplicate held same => exact .refl numbered
  | unsaved absent saves => exact saves.wrote
  | created absent saves => exact saves.wrote

theorem PartStep.wrote {deliver : SmsDeliver} {result : Except EspErr SmsMessage}
    (numbered : w.Numbered) (step : PartStep env w deliver result t) : w.Wrote t := by
  cases step with
  | failed fault => exact .refl numbered
  | duplicate found same => exact .refl numbered
  | overwritten found differs saves => exact saves.wrote
  | added absent saves => exact saves.wrote

theorem Deletes.wrote {ids : List UInt32} (numbered : w.Numbered) (deletes : Deletes env w ids t) :
    w.Wrote t := by
  induction deletes with
  | nil => exact .refl numbered
  | cons wrote effect fault rest ih => exact wrote.trans (ih wrote.numbered)

end

section

variable {env : Surroundings} {allowed : World → ServiceCall → Prop} {w : World}

theorem saveRecord_obeys {message : SmsMessage} {post : Except EspErr SmsMessage → World → Prop}
    (numbered : w.Numbered) (known : message.id.toNat ≤ w.issued)
    (may : allowed w (.save message))
    (next : ∀ result t, Saves env w message result t → post result t) :
    Obeys env.Step allowed post (saveRecord message) w := by
  refine obeys_save numbered known may ?_
  intro reply t wrote effect never fails full
  obtain ⟨result, back⟩ := reply
  cases result with
  | error e =>
      refine next (.error e) t ⟨wrote, ⟨_, effect, rfl⟩, ?_, ?_, full⟩
      · simpa using never
      · intro _
        exact fails ⟨e, rfl⟩
  | ok _ =>
      refine next (.ok back) t ⟨wrote, ⟨_, effect, rfl⟩, ?_, ?_, full⟩
      · simp
      · simp

theorem deletePartials_obeys {ids : List UInt32} {post : Unit → World → Prop}
    (numbered : w.Numbered)
    (may : ∀ done t, done <+: ids → Deletes env w done t → ∀ c : ServiceCall, c.Local → allowed t c)
    (next : ∀ t, Deletes env w ids t → post () t) :
    Obeys env.Step allowed post (deletePartials ids) w := by
  induction ids generalizing w with
  | nil => exact next w .nil
  | cons id rest ih =>
      refine obeys_delete numbered (may [] w List.nil_prefix .nil _ trivial) ?_
      intro reply t wrote effect fault
      apply ih wrote.numbered
      · intro done u before deletes
        exact may (id :: done) u (List.prefix_cons_inj _ |>.mpr before)
          (.cons wrote effect fault deletes)
      · intro u deletes
        exact next u (.cons wrote effect fault deletes)

theorem assembleParts_obeys {deliver : SmsDeliver}
    {post : Except EspErr (SmsMessage × List UInt32) → World → Prop} (numbered : w.Numbered)
    (may : ∀ c : ServiceCall, c.Local → allowed w c) {parts : List UInt8} {a : SmsMessage}
    {ids : List UInt32} (short : a.text.str.length < 4096)
    (failed : env.mayFail → ∀ e, e ≠ .notFound → post (.error e) w)
    (missing : ∀ part ∈ parts, (∀ m, w.Holds m → ¬ IsPartOf deliver part m) →
      post (.error .notFound) w)
    (tooLong : ∀ done later stored, parts = done ++ later →
      List.Forall₂ (PartFound w deliver) done stored →
      4096 ≤ a.text.str.length + textLength stored → post (.error .invalidSize) w)
    (gathered : ∀ stored,
      List.Forall₂ (PartFound w deliver) parts stored →
      a.text.str.length + textLength stored < 4096 →
      post (.ok ((parts.zip stored).foldl (fun a (part, m) => appendPart a part m) a,
        ids ++ stored.map SmsMessage.id)) w) :
    Obeys env.Step allowed post (assembleParts deliver parts a ids) w := by
  induction parts generalizing a ids with
  | nil =>
      have done := gathered [] .nil (by simpa [textLength] using short)
      simpa [assembleParts, Obeys] using done
  | cons part rest ih =>
      refine obeys_find numbered (may _ trivial) ?_ ?_ ?_
      · intro m _ _ found
        by_cases long : m.text.str.length ≥ 4096 ∨ a.text.str.length + m.text.str.length ≥ 4096
        · simp only [long, ↓reduceIte]
          refine tooLong [part] rest [m] rfl (.cons found .nil) ?_
          simp only [textLength, List.map_cons, List.map_nil, List.sum_cons, List.sum_nil]
          omega
        · simp only [long, ↓reduceIte]
          have fits : a.text.str.length + m.text.str.length < 4096 := by omega
          have length := appendPart_length part fits
          apply ih (by omega)
          · intro later inside absent
            exact missing later (List.mem_cons_of_mem _ inside) absent
          · intro done later stored split each total
            refine tooLong (part :: done) later (m :: stored) (by simp [split])
              (.cons found each) ?_
            simp only [textLength, List.map_cons, List.sum_cons] at total ⊢
            omega
          · intro stored each total
            have whole := gathered (m :: stored) (.cons found each) (by
              simp only [textLength, List.map_cons, List.sum_cons] at total ⊢
              omega)
            simpa using whole
      · intro absent
        refine missing part List.mem_cons_self ?_
        intro m held part_
        rw [IsPartOf] at part_
        have none := absent m held
        simp [StoreQuery.Matches, part_] at none
      · exact failed

theorem storeAssembled_obeys {a : SmsMessage}
    {post : Except EspErr (SmsMessage × Bool) → World → Prop} (numbered : w.Numbered)
    (unnamed : a.id = 0) (may : ∀ c : ServiceCall, c.Local → allowed w c)
    (next : ∀ result t, StoreStep env w a result t → post result t) :
    Obeys env.Step allowed post (storeAssembled a) w := by
  refine obeys_find numbered (may _ trivial) ?_ ?_ ?_
  · intro m held same _
    exact next _ _ (.duplicate held same)
  · intro absent
    have none : ∀ m, w.Holds m → ¬ SameMessage a m := by
      intro m held same
      rw [SameMessage] at same
      have miss := absent m held
      simp [StoreQuery.Matches, same] at miss
    refine obeys_save numbered (by simp [unnamed]) (may _ trivial) ?_
    rintro ⟨result, back⟩ t wrote effect never fails full
    cases result with
    | error e =>
        refine next _ t (.unsaved none ⟨wrote, ⟨_, effect, rfl⟩, ?_, ?_, full⟩)
        · simpa using never
        · intro _
          exact fails ⟨e, rfl⟩
    | ok _ =>
        refine next _ t (.created none ⟨wrote, ⟨_, effect, rfl⟩, ?_, ?_, full⟩)
        · simp
        · simp
  · intro fault e never
    have stop := next _ _ (.failed fault never : StoreStep env w a (.error e) w)
    cases e <;> first
      | exact absurd rfl never
      | exact stop

theorem assembleIfComplete_obeys {deliver : SmsDeliver}
    {post : Except EspErr (SmsMessage × Bool) → World → Prop} (numbered : w.Numbered)
    (multipart : deliver.concat.present = true)
    (may : ∀ t, AssemblyVisits env w deliver t → ∀ c : ServiceCall, c.Local → allowed t c)
    (next : ∀ result t, AssemblyStep env w deliver result t → post result t) :
    Obeys env.Step allowed post (assembleIfComplete deliver) w := by
  have here := may w .start
  have refused (fault : env.mayFail) : post (.error .noMem) w := next _ _ (.failed fault (by simp))
  simp only [assembleIfComplete, multipart, Bool.not_true, Bool.false_eq_true, ↓reduceIte]
  refine obeys_allocate (here _ trivial) ?_ refused
  refine Obeys.bind (assembleParts_obeys numbered here (by simp [assembledStart, SmsMessage.zero,
    CharArray.zero, CStr.length]) ?_ ?_ ?_ ?_)
  · intro fault e never
    exact next _ _ (.failed fault never)
  · intro part inside absent
    exact next _ _ (.missing inside absent)
  · intro done later stored split each long
    refine next _ _ (.tooLong split each ?_)
    simpa [assembledStart, SmsMessage.zero, CharArray.zero, CStr.length] using long
  · intro stored each fits
    have gathers : Gathers w deliver (partNumbers deliver.concat.totalParts) stored := by
      refine ⟨each, ?_⟩
      simpa [assembledStart, SmsMessage.zero, CharArray.zero, CStr.length] using fits
    refine obeys_allocate (here _ trivial) ?_ refused
    refine Obeys.bind (storeAssembled_obeys numbered (assembledOf_id deliver _ stored) here ?_)
    intro result u stores
    cases result with
    | error e => exact next _ _ (.unstored gathers stores)
    | ok done =>
        refine Obeys.bind (deletePartials_obeys (stores.wrote numbered).numbered ?_ ?_)
        · intro ids t first deletes
          exact may t (.deleting gathers stores first deletes)
        · intro t deletes
          exact next _ _ (.stored gathers stores deletes)

theorem persistPart_obeys {deliver : SmsDeliver} {post : Except EspErr SmsMessage → World → Prop}
    (numbered : w.Numbered) (may : ∀ c : ServiceCall, c.Local → allowed w c)
    (next : ∀ result t, PartStep env w deliver result t → post result t) :
    Obeys env.Step allowed post (persistPart deliver) w := by
  refine obeys_find numbered (may _ trivial) ?_ ?_ ?_
  · intro m held _ found
    by_cases same : m.text.str = deliver.text.str
    · simp only [same, ↓reduceIte]
      exact next _ _ (.duplicate found same)
    · simp only [same, ↓reduceIte]
      have known := numbered.holds_known held
      refine saveRecord_obeys numbered known (may _ trivial) ?_
      intro result t saves
      exact next _ _ (.overwritten found same saves)
  · intro absent
    refine saveRecord_obeys numbered (Nat.zero_le _) (may _ trivial) ?_
    intro result t saves
    refine next _ _ (.added ?_ saves)
    intro m held part
    rw [IsPartOf] at part
    have none := absent m held
    simp [StoreQuery.Matches, part] at none
  · intro fault e never
    have stop := next _ _ (.failed fault : PartStep env w deliver (.error e) w)
    cases e <;> first
      | exact absurd rfl never
      | exact stop

theorem persistSingle_obeys {record : SmsMessage} {post : Except EspErr SmsMessage → World → Prop}
    (numbered : w.Numbered) (unnamed : record.id = 0)
    (may : ∀ c : ServiceCall, c.Local → allowed w c)
    (mayEmit : ∀ done t, StoreStep env w record (.ok done) t →
      ∀ c : ServiceCall, c.Local → allowed t c)
    (stored : ∀ done t, StoreStep env w record (.ok done) t → post (.ok done.1) (t.announce done))
    (failed : ∀ e t, StoreStep env w record (.error e) t → post (.error e) t) :
    Obeys env.Step allowed post (persistSingle record) w := by
  refine obeys_find numbered (may _ trivial) ?_ ?_ ?_
  · intro m held same _
    exact stored (m, false) w (.duplicate held same)
  · intro absent
    have none : ∀ m, w.Holds m → ¬ SameMessage record m := by
      intro m held same
      rw [SameMessage] at same
      have miss := absent m held
      simp [StoreQuery.Matches, same] at miss
    refine Obeys.bind (saveRecord_obeys numbered (by simp [unnamed]) (may _ trivial) ?_)
    intro result t saves
    cases result with
    | error e => exact failed e t (.unsaved none saves)
    | ok saved =>
        have step : StoreStep env w record (.ok (saved, true)) t := .created none saves
        exact obeys_emit (mayEmit _ t step _ trivial) (stored _ t step)
  · intro fault e never
    have stop := failed e w (.failed fault never)
    cases e <;> first
      | exact absurd rfl never
      | exact stop

theorem AssemblyStep.error_notFound {deliver : SmsDeliver} {t : World}
    (step : AssemblyStep env w deliver (.error .notFound) t) :
    t = w ∧ ∃ part ∈ partNumbers deliver.concat.totalParts,
      ∀ m, w.Holds m → ¬ IsPartOf deliver part m := by
  cases step with
  | failed fault never => exact absurd rfl never
  | missing inside absent => exact ⟨rfl, _, inside, absent⟩
  | unstored gathers stores =>
      cases stores with
      | failed fault never => exact absurd rfl never
      | unsaved absent saves => exact absurd rfl saves.never

theorem AssemblyStep.visits {deliver : SmsDeliver} {done : SmsMessage × Bool} {t : World}
    (step : AssemblyStep env w deliver (.ok done) t) : AssemblyVisits env w deliver t := by
  cases step with
  | stored gathers stores deletes => exact .deleting gathers stores (List.prefix_rfl) deletes

theorem persistAssembly_obeys {deliver : SmsDeliver} {eventMessage : SmsMessage}
    {post : Except EspErr SmsMessage → World → Prop} (numbered : w.Numbered)
    (multipart : deliver.concat.present = true)
    (may : ∀ t, AssemblyVisits env w deliver t → ∀ c : ServiceCall, c.Local → allowed t c)
    (assembled : ∀ done t, AssemblyStep env w deliver (.ok done) t →
      post (.ok done.1) (t.announce done))
    (incomplete : ∀ part ∈ partNumbers deliver.concat.totalParts,
      (∀ m, w.Holds m → ¬ IsPartOf deliver part m) →
      post (.ok eventMessage) (w.emit .partialReceived eventMessage))
    (failed : ∀ e t, e ≠ .notFound → AssemblyStep env w deliver (.error e) t →
      post (.error e) t) :
    Obeys env.Step allowed post (persistAssembly deliver eventMessage) w := by
  refine Obeys.bind (assembleIfComplete_obeys numbered multipart may ?_)
  intro result t step
  rcases result with e | ⟨m, created⟩
  · by_cases missing : e = .notFound
    · subst missing
      obtain ⟨rfl, part, inside, absent⟩ := step.error_notFound
      exact obeys_emit (may _ .start _ trivial) (incomplete part inside absent)
    · have stop := failed e t missing step
      cases e <;> first
        | exact absurd rfl missing
        | exact stop
  · cases created with
    | true => exact obeys_emit (may t step.visits _ trivial) (assembled _ t step)
    | false => exact assembled _ t step

/-- Every run of `persistDeliver` is one of the cases of `DeliverStep`. -/
theorem persistDeliver_obeys {deliver : SmsDeliver}
    {post : Except EspErr SmsMessage → World → Prop} (numbered : w.Numbered)
    (may : ∀ t, Visits env w deliver t → ∀ c : ServiceCall, c.Local → allowed t c)
    (next : ∀ result t, DeliverStep env w deliver result t → post result t) :
    Obeys env.Step allowed post (persistDeliver deliver) w := by
  have here := may w .start
  have refused (fault : env.mayFail) : post (.error .noMem) w := next _ _ (.failed fault)
  refine obeys_allocate (here _ trivial) ?_ refused
  cases multipart : deliver.concat.present with
  | false =>
      simp only [Bool.not_true, Bool.false_eq_true, ↓reduceIte]
      refine obeys_allocate (here _ trivial) ?_ refused
      refine persistSingle_obeys numbered rfl here ?_ ?_ ?_
      · intro done t stores
        exact may t (.single multipart stores)
      · intro done t stores
        exact next _ _ (.single multipart stores)
      · intro e t stores
        exact next _ _ (.singleFailed multipart stores)
  | true =>
      simp only [Bool.not_true, Bool.false_eq_true, ↓reduceIte]
      refine obeys_allocate (here _ trivial) ?_ ?_
      · refine obeys_allocate (here _ trivial) ?_ refused
        refine Obeys.bind (persistPart_obeys numbered here ?_)
        intro result u part
        cases result with
        | error e => exact next _ _ (.unstored multipart part)
        | ok m =>
            refine persistAssembly_obeys (part.wrote numbered).numbered multipart ?_ ?_ ?_ ?_
            · intro t visits
              exact may t (.assembling multipart part visits)
            · intro done t assembly
              exact next _ _ (.assembled multipart part assembly)
            · intro number inside absent
              exact next _ _ (.incomplete multipart part inside absent)
            · intro e t never assembly
              exact next _ _ (.unassembled multipart part assembly never)
      · intro fault
        exact obeys_allocate (here _ trivial) (refused fault) refused

end

end SmsGateway
