import SmsGateway.Service.DeliveryFacts

/-! Received messages are stored once and announced once. -/

namespace SmsGateway

open Lib Prog

/-- The fields by which an inbound message is recognised. -/
structure Identity where
  sender : CStr
  timestamp : CStr
  encoding : SmsEncoding
  text : CStr

def Identity.Of (identity : Identity) (m : SmsMessage) : Prop :=
  isInboundIdentity identity.sender identity.timestamp identity.encoding identity.text m = true

theorem Identity.of_iff (identity : Identity) (m : SmsMessage) :
    identity.Of m ↔ m.direction = .inbound ∧ m.status = .received ∧
      m.encoding = identity.encoding ∧ m.sender.str = identity.sender ∧
      m.serviceCenterTimestamp.str = identity.timestamp ∧ m.text.str = identity.text := by
  simp [Identity.Of, isInboundIdentity, and_assoc]

/-- Two records of one identity are equal messages. -/
theorem Identity.same {identity : Identity} {a m : SmsMessage} (first : identity.Of a)
    (second : identity.Of m) : SameMessage a m := by
  rw [Identity.of_iff] at first second
  obtain ⟨-, -, encoding, sender, timestamp, text⟩ := first
  obtain ⟨direction, status, encoding', sender', timestamp', text'⟩ := second
  rw [sameMessage_iff, encoding, sender, timestamp, text]
  exact ⟨direction, status, encoding', sender', timestamp', text'⟩

/-- The announcements of the record with this id. -/
def World.announcements (w : World) (id : UInt32) : List (SmsServiceEvent × SmsMessage) :=
  w.events.filter fun entry => entry.1 == .received && entry.2.id == id

/-- At most one record has the identity, and it was announced exactly once. -/
structure Announced (identity : Identity) (w : World) : Prop where
  once : ∀ m m', w.Holds m → w.Holds m' → identity.Of m → identity.Of m' → m = m'
  event : ∀ m, w.Holds m → identity.Of m → w.announcements m.id = [(.received, m)]
  known : ∀ entry ∈ w.events, entry.2.id.toNat ≤ w.issued

section

variable {env : Surroundings} {identity : Identity} {deliver : SmsDeliver} {w u v t : World}

/-- Fewer records and no new events. -/
theorem Announced.shrink (announced : Announced identity w) (events : t.events = w.events)
    (issued : w.issued ≤ t.issued)
    (source : ∀ m, t.Holds m → identity.Of m → w.Holds m) : Announced identity t := by
  refine ⟨?_, ?_, ?_⟩
  · intro m m' held held' first second
    exact announced.once m m' (source m held first) (source m' held' second) first second
  · intro m held first
    rw [World.announcements, events]
    exact announced.event m (source m held first) first
  · intro entry member
    rw [events] at member
    exact (announced.known entry member).trans issued

theorem Announced.emit_partial (announced : Announced identity w) {m : SmsMessage}
    (known : m.id.toNat ≤ w.issued) : Announced identity (w.emit .partialReceived m) := by
  refine ⟨announced.once, ?_, ?_⟩
  · intro m' held first
    exact announced.event m' held first
  · intro entry member
    rcases List.mem_cons.mp member with rfl | member
    · exact known
    · exact announced.known entry member

/-- A new message is announced after its record was stored; in between, records
may only go. -/
theorem Announced.emit_received (announced : Announced identity u) (numbered : u.Numbered)
    {a saved : SmsMessage} (unnamed : a.id = 0)
    (absent : ∀ m, u.Holds m → ¬ SameMessage a m) (saves : Saves env u a (.ok saved) v)
    (wrote : v.Wrote t) (source : ∀ m, t.Holds m → v.Holds m) :
    Announced identity (t.emit .received saved) := by
  obtain ⟨held, equal⟩ := saves.stored
  have fresh : saved = a.withId u.store.freshId := by
    rcases equal with ⟨-, new⟩ | ⟨named, -⟩
    · exact new
    · exact absurd unnamed named
  have events : t.events = u.events := wrote.events.trans saves.wrote.events
  have old (m : SmsMessage) (held : t.Holds m) : u.Holds m ∨ m = saved := by
    rcases saves.source (source m held) with before | ⟨-, new⟩ | ⟨named, -⟩
    · exact .inl before
    · exact .inr (new.trans fresh.symm)
    · exact absurd unnamed named
  -- A record with the identity next to the new one would have been found.
  have alone (m : SmsMessage) (before : u.Holds m) (first : identity.Of m)
      (second : identity.Of saved) : False := by
    refine absent m before ?_
    have same := Identity.same second first
    rw [fresh] at same
    exact same
  refine ⟨?_, ?_, ?_⟩
  · intro m m' here here' first second
    rcases old m here with before | rfl
    · rcases old m' here' with before' | rfl
      · exact announced.once m m' before before' first second
      · exact (alone m before first second).elim
    · rcases old m' here' with before' | rfl
      · exact (alone m' before' second first).elim
      · rfl
  · intro m here first
    rcases old m here with before | rfl
    · have other : saved.id ≠ m.id := by
        rw [fresh]
        exact (numbered.holds_ne_fresh before).symm
      have kept := announced.event m before first
      simp only [World.announcements, World.emit, events, List.filter_cons, beq_self_eq_true,
        Bool.true_and, beq_iff_eq, other, ↓reduceIte]
      exact kept
    · have none : u.events.filter (fun entry => entry.1 == .received && entry.2.id == m.id) = [] := by
        rw [List.filter_eq_nil_iff]
        intro entry member
        have bound := announced.known entry member
        have next := numbered.freshId_toNat
        simp only [Bool.and_eq_true, beq_iff_eq, not_and]
        intro _ same
        rw [same, fresh] at bound
        simp only [SmsMessage.withId_id] at bound
        omega
      simp only [World.announcements, World.emit, events, List.filter_cons, beq_self_eq_true,
        Bool.and_self, ↓reduceIte, none]
  · intro entry member
    rcases List.mem_cons.mp member with rfl | member
    · exact (saves.wrote.numbered.holds_known held).trans wrote.issued
    · rw [events] at member
      have bound := announced.known entry member
      have first := saves.wrote.issued
      have second := wrote.issued
      simp only [World.emit]
      omega

theorem StoreStep.announced {a : SmsMessage} {done : SmsMessage × Bool} (numbered : w.Numbered)
    (unnamed : a.id = 0) (announced : Announced identity w)
    (step : StoreStep env w a (.ok done) v) (wrote : v.Wrote t)
    (source : ∀ m, t.Holds m → v.Holds m) : Announced identity (t.announce done) := by
  cases step with
  | duplicate held same =>
      exact announced.shrink wrote.events wrote.issued fun m here _ => source m here
  | created absent saves =>
      exact announced.emit_received numbered unnamed absent saves wrote source

theorem PartStep.announced {result : Except EspErr SmsMessage} (numbered : w.Numbered)
    (multipart : deliver.concat.present = true) (announced : Announced identity w)
    (step : PartStep env w deliver result t) : Announced identity t := by
  have wrote := step.wrote numbered
  refine announced.shrink wrote.events wrote.issued ?_
  intro m held first
  rcases step.source numbered multipart held with before | own
  · exact before
  · rw [Identity.of_iff, own.part.status] at first
    cases first.2.1

/-- The record a part step returns is stored. -/
theorem PartStep.held {m : SmsMessage} (step : PartStep env w deliver (.ok m) t) : t.Holds m := by
  cases step with
  | duplicate found same => exact found.holds
  | overwritten found differs saves => exact saves.stored.1
  | added absent saves => exact saves.stored.1

/-- Deliveries that no failing call disturbs keep every identity announced. -/
theorem DeliverStep.announced {result : Except EspErr SmsMessage} (calm : ¬ env.mayFail)
    (numbered : w.Numbered) (announced : Announced identity w)
    (step : DeliverStep env w deliver result t) : Announced identity t := by
  cases step with
  | failed fault => exact absurd fault calm
  | unstored multipart part => exact part.announced numbered multipart announced
  | unassembled multipart part assembly never =>
      have middle := part.announced numbered multipart announced
      cases assembly with
      | failed fault never => exact absurd fault calm
      | missing inside absent => exact middle
      | tooLong split each long => exact middle
      | unstored gathers stores =>
          cases stores with
          | failed fault never => exact absurd fault calm
          | unsaved absent saves => exact absurd (saves.fault ⟨_, rfl⟩) calm
  | incomplete multipart part inside absent =>
      have middle := part.announced numbered multipart announced
      exact middle.emit_partial ((part.wrote numbered).numbered.holds_known part.held)
  | assembled multipart part assembly =>
      have middle := part.announced numbered multipart announced
      have first := (part.wrote numbered).numbered
      cases assembly with
      | stored gathers stores deletes =>
          have second := (stores.wrote first).numbered
          exact stores.announced first (assembledOf_id ..) middle (deletes.wrote second)
            fun m held => deletes.source held
  | single single stores =>
      have wrote := stores.wrote numbered
      exact stores.announced numbered rfl announced (.refl wrote.numbered) fun m held => held
  | singleFailed single stores =>
      cases stores with
      | failed fault never => exact absurd fault calm
      | unsaved absent saves => exact absurd (saves.fault ⟨_, rfl⟩) calm

end

end SmsGateway
