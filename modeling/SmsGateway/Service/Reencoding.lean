import SmsGateway.Codec.Preflight
import SmsGateway.Lib.Interference
import SmsGateway.Service.Serial

/-! Messages that were accepted: a preflighted message is never refused for its
random reference, and a queued record is encoded as when it was queued. -/

namespace SmsGateway

open Lib Prog

/-- `sms_service_send` from the encoded message on. -/
def queueEncoded (recipient text : CStr) (requestDeliveryReport : Bool) (concatReference : UInt16)
    (encoding : SmsEncoding) (segmentCount : Nat) : ServiceM (Except EspErr UInt32) := do
  let memory ← allocate
  if !memory then pure (.error .noMem)
  else
    match ← storeSave (queuedRecord recipient text requestDeliveryReport concatReference encoding
        segmentCount) with
    | (.error e, _) => pure (.error e)
    | (.ok (), message) => pure (.ok message.id)

/-- The reference that a random number gives. -/
def randomReference (random : UInt32) : UInt16 :=
  if random.toUInt16 = 0 then 1 else random.toUInt16

theorem partCapacity_wide (reference : UInt16) (encoding : SmsEncoding) :
    partCapacity 0x0100 encoding ≤ partCapacity reference encoding := by
  have wide : ¬ (0x0100 : UInt16) ≤ 0xFF := by decide
  cases encoding <;> simp only [partCapacity, wide, ↓reduceIte] <;> split <;> decide

/-- A shorter header needs no more segments. -/
theorem messageCount_wide {chars : List Char} {n : Nat}
    (counted : messageCount 0x0100 chars = some n) (reference : UInt16) :
    ∃ k ≤ n, messageCount reference chars = some k := by
  obtain ⟨few, fits, -⟩ := (messageCount_iff 0x0100 chars n).mp counted
  exact messageCount_of_fits (CutsInto.mono fits (partCapacity_wide _ _)) few

/-- The preflight with a 16-bit reference is conservative: with every reference the
encoder takes at most as many segments of the same encoding, and the service queues
the message whatever reference it draws. -/
theorem preflight_conservative (recipient text : CStr) (report : Bool) {encoding : SmsEncoding}
    {n : Nat} (accepted : smsSubmitPreflight recipient text 0x0100 = some (encoding, n)) :
    (∀ reference, ∃ segments, smsSubmitEncode recipient text report reference 16 = some segments ∧
      segments.length ≤ n ∧ ∀ segment ∈ segments, segment.encoding = encoding) ∧
    ∃ count : UInt16 → Nat, (∀ reference, 1 ≤ count reference ∧ count reference ≤ n) ∧
      (text.length < 4096 → smsServiceSend recipient text report = do
        let memory ← allocate
        if !memory then pure (.error .noMem)
        else do
          let random ← espRandom
          queueEncoded recipient text report (randomReference random) encoding
            (count (randomReference random))) := by
  obtain ⟨dialable, chars, bytes, counted, rfl⟩ := smsSubmitPreflight_some accepted
  have each (reference : UInt16) : ∃ segments,
      smsSubmitEncode recipient text report reference smsMaxSegments = some segments ∧
        (1 ≤ segments.length ∧ segments.length ≤ n ∧ segments.length ≤ smsMaxSegments) ∧
        ∀ segment ∈ segments, segment.encoding = textEncoding chars := by
    obtain ⟨k, fewer, counted'⟩ := messageCount_wide counted reference
    obtain ⟨few, least⟩ := (messageCount_iff reference chars k).mp counted'
    obtain ⟨segments, encoded, rfl, kinds⟩ :=
      smsSubmitEncode_ok dialable report (show 1 ≤ smsMaxSegments by decide) bytes counted' few
    exact ⟨segments, encoded, ⟨least.1.1, fewer, few⟩, kinds⟩
  refine ⟨?_, ?_⟩
  · intro reference
    obtain ⟨segments, encoded, ⟨-, fewer, -⟩, kinds⟩ := each reference
    exact ⟨segments, encoded, fewer, kinds⟩
  · choose segments encoded sizes kinds using each
    refine ⟨fun reference => (segments reference).length, fun reference =>
      ⟨(sizes reference).1, (sizes reference).2.1⟩, ?_⟩
    intro short
    simp only [smsServiceSend, Nat.not_le.mpr short, ↓reduceIte]
    congr 1
    funext memory
    cases memory with
    | false => rfl
    | true =>
        simp only [Bool.not_true, Bool.false_eq_true, ↓reduceIte]
        congr 1
        funext random
        rw [show (if random.toUInt16 = 0 then 1 else random.toUInt16) = randomReference random
          from rfl, encoded (randomReference random)]
        obtain ⟨positive, -, few⟩ := sizes (randomReference random)
        have same := kinds (randomReference random)
        cases list : segments (randomReference random) with
        | nil =>
            rw [list] at positive
            cases positive
        | cons first rest =>
            rw [list] at few same
            simp only [Nat.not_lt.mpr few, ↓reduceIte, same first List.mem_cons_self]
            rfl

/-- 134 characters, which make three segments with a 16-bit reference and two with an
8-bit one. -/
def longText : CStr := ⟨(List.replicate 134 [0xD0, 0x96]).flatten, by decide⟩

theorem preflight_conservative_long : ∃ wide narrow,
    smsSubmitEncode (.text "+123") longText false 0x0107 16 = some wide ∧
      smsSubmitEncode (.text "+123") longText false 7 16 = some narrow ∧
      wide.length ≤ 3 ∧ narrow.length ≤ 3 ∧ ∀ segment ∈ wide ++ narrow, segment.encoding = .ucs2 := by
  have accepted : smsSubmitPreflight (.text "+123") longText 0x0100 = some (.ucs2, 3) := by
    decide +kernel
  have conservative := (preflight_conservative (.text "+123") longText false accepted).1
  obtain ⟨wide, encodedWide, fewWide, kindWide⟩ := conservative 0x0107
  obtain ⟨narrow, encodedNarrow, fewNarrow, kindNarrow⟩ := conservative 7
  exact ⟨wide, narrow, encodedWide, encodedNarrow, fewWide, fewNarrow,
    List.forall_mem_append.mpr ⟨kindWide, kindNarrow⟩⟩

/-! The record of an accepted message. -/

/-- The record that a send stores, with the segments it was encoded to. -/
def Accepted (recipient text : CStr) (report : Bool) (segments : List SmsSubmitSegment)
    (message : SmsMessage) : Prop :=
  ∃ reference encoding, text.length < 4096 ∧
    smsSubmitEncode recipient text report reference smsMaxSegments = some segments ∧
    message = queuedRecord recipient text report reference encoding segments.length

/-- What of a record decides its segments. -/
structure SameSubmission (m new : SmsMessage) : Prop where
  id : new.id = m.id
  direction : new.direction = m.direction
  recipient : new.recipient = m.recipient
  text : new.text = m.text
  report : new.deliveryReportRequested = m.deliveryReportRequested
  reference : new.concatReference = m.concatReference
  segmentCount : new.segmentCount = m.segmentCount

theorem SameSubmission.trans {m new later : SmsMessage} (first : SameSubmission m new)
    (second : SameSubmission new later) : SameSubmission m later where
  id := second.id.trans first.id
  direction := second.direction.trans first.direction
  recipient := second.recipient.trans first.recipient
  text := second.text.trans first.text
  report := second.report.trans first.report
  reference := second.reference.trans first.reference
  segmentCount := second.segmentCount.trans first.segmentCount

theorem Evolves.sameSubmission {m new : SmsMessage} (evolves : Evolves m new) :
    SameSubmission m new := by
  cases evolves with
  | reported report inside sent =>
      simp only [applyReport]
      repeat' split
      all_goals exact ⟨rfl, rfl, rfl, rfl, rfl, rfl, rfl⟩
  | _ => exact ⟨rfl, rfl, rfl, rfl, rfl, rfl, rfl⟩

theorem Dialable.short {recipient : CStr} (dialable : Dialable recipient) :
    recipient.length < 24 := by
  obtain ⟨digits, bytes, -, few, -⟩ := dialable
  rcases bytes with bytes | bytes
  · rw [CStr.length, bytes]
    omega
  · rw [CStr.length, bytes, List.length_cons]
    omega

theorem Accepted.outbound {recipient text : CStr} {report : Bool}
    {segments : List SmsSubmitSegment} {message : SmsMessage}
    (accepted : Accepted recipient text report segments message) :
    message.direction = .outbound := by
  obtain ⟨reference, encoding, short, encoded, rfl⟩ := accepted
  rfl

/-- A record that keeps the submission of an accepted one is encoded as that was. -/
theorem Accepted.reencodes {recipient text : CStr} {report : Bool}
    {segments : List SmsSubmitSegment} {message m : SmsMessage} {id : UInt32}
    (accepted : Accepted recipient text report segments message)
    (same : SameSubmission (message.withId id) m) :
    m.recipient.str = recipient ∧ m.text.str = text ∧ m.deliveryReportRequested = report ∧
      smsSubmitEncode recipient text report m.concatReference 16 = some segments ∧
      segments.length = m.segmentCount.toNat ∧
      smsSubmitEncode m.recipient.str m.text.str m.deliveryReportRequested m.concatReference
        m.segmentCount.toNat = some segments ∧
      queuedSegments m = some segments := by
  obtain ⟨reference, encoding, short, encoded, rfl⟩ := accepted
  obtain ⟨dialable, few, chars, -, counted, -⟩ :=
    smsSubmitEncode_some (show 1 ≤ smsMaxSegments by decide) encoded
  have positive : 1 ≤ segments.length := ((messageCount_iff reference chars _).mp counted).2.1.1
  have limit : smsMaxSegments = 16 := rfl
  have recipientSame : m.recipient.str = recipient := by
    rw [same.recipient]
    exact CharArray.strncpy_str dialable.short
  have textSame : m.text.str = text := by
    rw [same.text]
    exact CharArray.strncpy_str short
  have reportSame : m.deliveryReportRequested = report := same.report
  have referenceSame : m.concatReference = reference := same.reference
  have count : m.segmentCount.toNat = segments.length := by
    rw [same.segmentCount]
    change (UInt8.ofNat segments.length).toNat = segments.length
    rw [UInt8.toNat_ofNat']
    omega
  have again : smsSubmitEncode m.recipient.str m.text.str m.deliveryReportRequested
      m.concatReference m.segmentCount.toNat = some segments := by
    rw [recipientSame, textSame, reportSame, referenceSame, count]
    exact smsSubmitEncode_limit encoded positive (Nat.le_refl _)
  refine ⟨recipientSame, textSame, reportSame, by rw [referenceSame]; exact encoded, count.symm,
    again, ?_⟩
  have capacity : segmentCapacity m = m.segmentCount.toNat := if_pos ⟨by omega, by omega⟩
  simp only [queuedSegments, capacity, again]
  exact if_neg (by omega)

/-- The calls of a send: what it saves was accepted. -/
def SavesAccepted (recipient text : CStr) (report : Bool) : ServiceCall → Prop
  | .save message => ∃ segments, Accepted recipient text report segments message
  | _ => True

theorem send_savesAccepted (recipient text : CStr) (report : Bool) :
    (ClientCall.send recipient text report).program.Calls
      (SavesAccepted recipient text report) := by
  refine Calls.bind ?_ fun _ => trivial
  simp only [smsServiceSend]
  split
  · trivial
  · rename_i short
    refine Calls.send trivial fun memory => ?_
    cases memory with
    | false => trivial
    | true =>
        refine Calls.send trivial fun random => ?_
        split
        · trivial
        · trivial
        · rename_i first rest encoded
          split
          · trivial
          · refine Calls.send trivial fun memory => ?_
            cases memory with
            | false => trivial
            | true =>
                refine Calls.send ⟨first :: rest, _, _, Nat.not_le.mp short, encoded, rfl⟩ ?_
                rintro ⟨result, back⟩
                cases result <;> trivial

/-! Records over a run. -/

/-- A record that is not on its way to the modem. -/
def SmsMessage.Unsent (m : SmsMessage) : Prop :=
  m.status ≠ .queued ∧ m.status ≠ .sending ∧ m.status ≠ .uncertain

/-- A set of named records that no save of the service leaves. -/
structure Closed (records : Set SmsMessage) : Prop where
  named : ∀ m ∈ records, m.id ≠ 0
  unsent : ∀ m ∈ records, m.direction = .inbound → m.Unsent
  inbound : ∀ m, m.id ≠ 0 → m.direction = .inbound → m.Unsent → m ∈ records
  evolved : ∀ m new, m ∈ records → Evolves m new → new ∈ records

theorem SmsMessage.Arrived.unsent {m : SmsMessage} (arrived : m.Arrived) : m.Unsent := by
  rcases arrived.status with status | status | status
  all_goals
    rw [SmsMessage.Unsent, status]
    exact ⟨nofun, nofun, nofun⟩

/-- A record that was not on its way is not after a save either. -/
theorem Evolves.unsent {m new : SmsMessage} (evolves : Evolves m new) (unsent : m.Unsent) :
    new.Unsent := by
  obtain ⟨queued, sending, uncertain⟩ := unsent
  cases evolves with
  | sending running inside | finished running full =>
      exact absurd running (not_or.mpr ⟨queued, sending⟩)
  | requeued running => exact absurd running (not_or.mpr ⟨sending, uncertain⟩)
  | sent reference running inside => exact absurd running sending
  | uncertain error running => exact absurd running sending
  | unencodable running bad => exact absurd running queued
  | @reported segment report inside sent =>
      rw [SmsMessage.Unsent, applyReport_status]
      dsimp only
      split
      · exact ⟨nofun, nofun, nofun⟩
      · split
        · exact ⟨nofun, nofun, nofun⟩
        · exact ⟨queued, sending, uncertain⟩

/-- A saved record is one of the set or a new one; of new records only inbound ones
are not queued. -/
theorem Closed.saved {records : Set SmsMessage} (closed : Closed records) {message : SmsMessage}
    (saved : SavedFrom records message) :
    (message.id ≠ 0 ∧ message ∈ records) ∨ (message.id = 0 ∧
      (message.direction = .inbound ∧ message.Unsent ∨ message.status = .queued)) := by
  cases saved with
  | arrived arrived => exact .inr ⟨arrived.unnamed, .inl ⟨arrived.inbound, arrived.unsent⟩⟩
  | queued recipient text report reference encoding some most => exact .inr ⟨rfl, .inr rfl⟩
  | @part m stored inbound deliver =>
      have named := closed.named m stored
      exact .inl ⟨named, closed.inbound _ named inbound (closed.unsent m stored inbound)⟩
  | @evolved m new stored evolves =>
      have member := closed.evolved m _ stored evolves
      exact .inl ⟨closed.named _ member, member⟩

/-- A save that may be made without leaving the set. -/
def StaysIn (records : Set SmsMessage) (t : World) (message : SmsMessage) : Prop :=
  (message.id ≠ 0 ∧ message ∈ records) ∨
    (message.id = 0 ∧ ∀ id, t.Holds (message.withId id) → message.withId id ∈ records)

theorem ServiceCall.Answers.stays {w t : World} {request : ServiceCall} {reply : request.Reply}
    {records : Set SmsMessage} (sound : w.store.Sound) (held : w.records ⊆ records)
    (saves : ∀ message, request = .save message → StaysIn records t message)
    (answers : request.Answers w reply t) :
    t.store.Sound ∧ t.records ⊆ records ∧ request.Keeps records reply records ∧
      request.Truthful reply := by
  obtain ⟨soundAfter, keeps⟩ := answers.keeps sound
  cases request with
  | query wanted =>
      obtain ⟨same, found⟩ := keeps
      refine ⟨soundAfter, same ▸ held, ⟨rfl, ?_⟩, ?_⟩
      · intro m equal
        exact ⟨held (found m equal).1, (found m equal).2⟩
      · intro m equal
        obtain ⟨stored, named, passes⟩ := found m equal
        exact ⟨named, holds_segmentCount stored, passes⟩
  | findOutboundReference recipient reference =>
      obtain ⟨same, found⟩ := keeps
      refine ⟨soundAfter, same ▸ held, ⟨rfl, ?_⟩, fun m i equal => (found m i equal).2.1⟩
      intro m i equal
      exact ⟨held (found m i equal).1, (found m i equal).2⟩
  | list afterId maxRecords =>
      obtain ⟨same, found⟩ := keeps
      refine ⟨soundAfter, same ▸ held, ⟨rfl, ?_⟩, trivial⟩
      intro listed equal m member
      exact held (found listed equal m member)
  | save message =>
      have stays := saves message rfl
      refine ⟨soundAfter, ?_, ⟨fun m member => .inl member, ?_⟩,
        fun named succeeded => (keeps.2 named succeeded).1⟩
      · intro m stored
        obtain ⟨plan, rfl, rfl⟩ := answers
        rcases (smsStoreSave_end plan sound message).source stored with
          old | ⟨unnamed, id, rfl⟩ | ⟨named, rfl⟩
        · exact held old
        · rcases stays with ⟨named, -⟩ | ⟨-, fresh⟩
          · exact absurd unnamed named
          · exact fresh id stored
        · rcases stays with ⟨-, member⟩ | ⟨unnamed, -⟩
          · exact member
          · exact absurd unnamed named
      · intro named succeeded
        rcases stays with ⟨-, member⟩ | ⟨unnamed, -⟩
        · exact ⟨(keeps.2 named succeeded).1, member⟩
        · exact absurd unnamed named
  | delete id => exact ⟨soundAfter, keeps.trans held, fun _ member => member, trivial⟩
  | emit event message | execute request | isReady | pduModeConfigured | alloc | espRandom =>
      exact ⟨soundAfter, (show t.records = w.records from keeps) ▸ held, rfl, trivial⟩

theorem Activity.lawful (activity : Activity) :
    Safe ServiceCall.Keeps ServiceCall.Lawful activity.program :=
  (Operation.task activity).lawful

namespace Gateway

/-- The start from an empty journal. -/
def begin : Gateway := ⟨⟨.empty, 0, []⟩, restartProgram, [], [], [], []⟩

/-- `Queues g recipient text report stored g'`: in this step a send stores the
record. -/
inductive Queues (g : Gateway) (recipient text : CStr) (report : Bool) (stored : SmsMessage) :
    Gateway → Prop where
  | save {before after : List (ClientCall × ServiceM (Except EspErr Unit))} {message : SmsMessage}
      {next : (ServiceCall.save message).Reply → ServiceM (Except EspErr Unit)}
      {reply : (ServiceCall.save message).Reply} {t : World} {id : UInt32}
      (waiting : g.clients =
        before ++ (.send recipient text report, .call (.save message) next) :: after)
      (answers : (ServiceCall.save message).Answers g.world reply t)
      (renamed : stored = message.withId id) (held : t.Holds stored) :
      Queues g recipient text report stored
        { g with world := t, clients := before ++ (.send recipient text report, next reply) :: after }

/-- A client in the middle of its calls. -/
structure ClientConfined (records : Set SmsMessage)
    (client : ClientCall × ServiceM (Except EspErr Unit)) : Prop where
  lawful : Obeys ServiceCall.Keeps ServiceCall.Lawful (fun _ _ => True) client.2 records
  careful : ∃ k, Obeys Knowledge.Step client.1.Allows (fun _ _ => True) client.2 k
  accepted : ∀ recipient text report, client.1 = .send recipient text report →
    client.2.Calls (SavesAccepted recipient text report)

/-- The journal holds records of the set only, and what runs saves no others. -/
structure Confined (records : Set SmsMessage) (g : Gateway) : Prop where
  sound : g.world.store.Sound
  held : g.world.records ⊆ records
  lawful : Obeys ServiceCall.Keeps ServiceCall.Lawful (fun _ _ => True) g.service records
  careful : ∃ k, Obeys Knowledge.Step Knowledge.Allows (fun _ _ => True) g.service k
  clients : ∀ client ∈ g.clients, ClientConfined records client

variable {g g' : Gateway} {records : Set SmsMessage}

theorem begin_confined (records : Set SmsMessage) : begin.Confined records where
  sound := Store.sound_empty
  held := by
    rintro m ⟨slot, stored⟩
    cases stored
  lawful := lawful_markInterruptedSendsUncertain _ _
  careful := ⟨.empty, careful_markInterruptedSendsUncertain _ _⟩
  clients := nofun

theorem program_confined (call : ClientCall) : ClientConfined records (call, call.program) where
  lawful := call.lawful records
  careful := ⟨.empty, call.program_obeys _⟩
  accepted := by
    rintro recipient text report rfl
    exact send_savesAccepted recipient text report

/-- A save of the service: it never stores a new outbound record. -/
theorem Confined.service_stays (confined : g.Confined records) (closed : Closed records)
    {message : SmsMessage} {next : (ServiceCall.save message).Reply → ServiceM Unit} (t : World)
    (waiting : g.service = .call (.save message) next) : StaysIn records t message := by
  have lawful := confined.lawful
  obtain ⟨k, careful⟩ := confined.careful
  rw [waiting] at lawful careful
  rcases closed.saved lawful.1 with member | ⟨unnamed, inbound | queued⟩
  · exact .inl member
  · exact .inr ⟨unnamed, fun id held => closed.inbound _ held.named inbound.1 inbound.2⟩
  · exact absurd unnamed (careful.1.2 queued).1

/-- A save of another task: a send that stores a record queues it. -/
theorem ClientConfined.stays {call : ClientCall} {message : SmsMessage}
    {next : (ServiceCall.save message).Reply → ServiceM (Except EspErr Unit)} {t : World}
    (confined : ClientConfined records (call, .call (.save message) next))
    (closed : Closed records)
    (queued : ∀ recipient text report id, call = .send recipient text report →
      t.Holds (message.withId id) → message.withId id ∈ records) : StaysIn records t message := by
  obtain ⟨k, careful⟩ := confined.careful
  cases call with
  | send recipient text report =>
      exact .inr ⟨careful.1, fun id held => queued recipient text report id rfl held⟩
  | retryUncertain id =>
      have named : message.id ≠ 0 := by
        rw [careful.1.1]
        exact careful.1.2.1
      rcases closed.saved confined.lawful.1 with member | ⟨unnamed, -⟩
      · exact .inl member
      · exact absurd unnamed named
  | delete id => exact careful.1.elim

theorem Confined.serviceCall {request : ServiceCall} {next : request.Reply → ServiceM Unit}
    {reply : request.Reply} {t : World} (confined : g.Confined records) (closed : Closed records)
    (waiting : g.service = .call request next) (answers : request.Answers g.world reply t)
    (submitted : List (UInt32 × Nat)) :
    Confined records { g with world := t, service := next reply, submitted := submitted } := by
  have saves (message : SmsMessage) (equal : request = .save message) :
      StaysIn records t message := by
    subst equal
    exact confined.service_stays closed t waiting
  obtain ⟨sound, held, keeps, truthful⟩ := answers.stays confined.sound confined.held saves
  have lawful := confined.lawful
  obtain ⟨k, careful⟩ := confined.careful
  rw [waiting] at lawful careful
  exact ⟨sound, held, lawful.2 _ _ keeps, ⟨_, careful.2 _ _ ⟨truthful, rfl⟩⟩, confined.clients⟩

theorem Confined.clientCall {before after : List (ClientCall × ServiceM (Except EspErr Unit))}
    {call : ClientCall} {request : ServiceCall}
    {next : request.Reply → ServiceM (Except EspErr Unit)} {reply : request.Reply} {t : World}
    (confined : g.Confined records) (closed : Closed records)
    (waiting : g.clients = before ++ (call, .call request next) :: after)
    (answers : request.Answers g.world reply t)
    (queued : ∀ message recipient text report id, request = .save message →
      call = .send recipient text report → t.Holds (message.withId id) →
        message.withId id ∈ records) (rewritten : List UInt32) :
    Confined records { g with
      world := t, clients := before ++ (call, next reply) :: after, rewritten := rewritten } := by
  have client := confined.clients (call, .call request next) (by rw [waiting]; simp)
  have saves (message : SmsMessage) (equal : request = .save message) :
      StaysIn records t message := by
    subst equal
    exact client.stays closed fun recipient text report id =>
      queued message recipient text report id rfl
  obtain ⟨sound, held, keeps, truthful⟩ := answers.stays confined.sound confined.held saves
  obtain ⟨k, careful⟩ := client.careful
  have moved : ClientConfined records (call, next reply) := by
    refine ⟨client.lawful.2 _ _ keeps, ⟨_, careful.2 _ _ ⟨truthful, rfl⟩⟩, ?_⟩
    intro recipient text report same
    exact (client.accepted recipient text report same).2 _
  exact ⟨sound, held, confined.lawful, confined.careful,
    forall_moved confined.clients waiting moved⟩

/-- A step leaves the set only by queueing a message. -/
theorem Step.confined (step : Step g g') (closed : Closed records) (confined : g.Confined records)
    (queued : ∀ recipient text report stored, Queues g recipient text report stored g' →
      stored ∈ records) : g'.Confined records := by
  cases step with
  | serviceCall waiting answers => exact confined.serviceCall closed waiting answers _
  | serviceNext idle activity =>
      exact ⟨confined.sound, confined.held, activity.lawful _, ⟨.empty, activity.careful _⟩,
        confined.clients⟩
  | clientStart call =>
      refine ⟨confined.sound, confined.held, confined.lawful, confined.careful, ?_⟩
      intro client member
      rcases List.mem_cons.mp member with rfl | member
      · exact program_confined call
      · exact confined.clients client member
  | clientCall waiting answers quiet =>
      refine confined.clientCall closed waiting answers ?_ _
      rintro message recipient text report id rfl rfl held
      exact queued recipient text report _ (.save waiting answers rfl held)
  | retryWrites waiting answers changes =>
      refine confined.clientCall closed waiting answers ?_ _
      rintro message recipient text report id rfl same
      cases same
  | clientReturn finished =>
      exact ⟨confined.sound, confined.held, confined.lawful, confined.careful,
        forall_remaining confined.clients finished⟩
  | crash =>
      exact ⟨confined.sound, confined.held, lawful_markInterruptedSendsUncertain _ _,
        ⟨.empty, careful_markInterruptedSendsUncertain _ _⟩, nofun⟩
  | watermark protection value =>
      exact ⟨confined.sound.congr rfl, confined.held, confined.lawful, confined.careful,
        confined.clients⟩

/-- A send has stored the record before, in a run from an empty journal on. -/
def QueuedBefore (g : Gateway) (recipient text : CStr) (report : Bool) (stored : SmsMessage) :
    Prop :=
  ∃ g₁ g₂, Relation.ReflTransGen Step begin g₁ ∧ Queues g₁ recipient text report stored g₂ ∧
    Relation.ReflTransGen Step g₂ g

/-- The records whose submission, if they are outbound, was accepted before. -/
def traced (g : Gateway) : Set SmsMessage :=
  { m | m.id ≠ 0 ∧ (m.direction = .inbound → m.Unsent) ∧ (m.direction = .outbound →
    ∃ recipient text report segments message id,
      g.QueuedBefore recipient text report (message.withId id) ∧
        Accepted recipient text report segments message ∧
        SameSubmission (message.withId id) m) }

theorem traced_closed (g : Gateway) : Closed g.traced where
  named := fun m member => member.1
  unsent := fun m member => member.2.1
  inbound := by
    intro m named inbound unsent
    exact ⟨named, fun _ => unsent, fun outbound => by cases inbound.symm.trans outbound⟩
  evolved := by
    rintro m new ⟨named, unsent, traced⟩ evolves
    refine ⟨by rw [evolves.id_eq]; exact named, ?_, ?_⟩
    · intro inbound
      exact evolves.unsent (unsent (evolves.direction_eq.symm.trans inbound))
    intro outbound
    obtain ⟨recipient, text, report, segments, message, id, queued, accepted, same⟩ :=
      traced (evolves.direction_eq.symm.trans outbound)
    exact ⟨recipient, text, report, segments, message, id, queued, accepted,
      same.trans evolves.sameSubmission⟩

theorem run_confined (before : Relation.ReflTransGen Step begin g')
    (later : Relation.ReflTransGen Step g' g) : g'.Confined g.traced := by
  induction before with
  | refl => exact begin_confined _
  | @tail b _ first last ih =>
      have confined := ih (later.head last)
      refine last.confined g.traced_closed confined ?_
      rintro recipient text report stored queues
      cases queues with
      | @save _ _ message next _ _ _ waiting answers renamed held =>
          subst renamed
          have member : (ClientCall.send recipient text report, .call (.save message) next) ∈
              b.clients := by
            rw [waiting]
            exact List.mem_append_right _ List.mem_cons_self
          obtain ⟨segments, accepted⟩ :=
            ((confined.clients _ member).accepted recipient text report rfl).1
          refine ⟨held.named, ?_, ?_⟩
          · intro inbound
            cases inbound.symm.trans accepted.outbound
          · intro outbound
            exact ⟨recipient, text, report, segments, _, _,
              ⟨_, _, first, .save waiting answers rfl held, later⟩, accepted,
              ⟨rfl, rfl, rfl, rfl, rfl, rfl, rfl⟩⟩

/-- The service goes on with what it does, or another task does something. -/
inductive Works : Gateway → Gateway → Prop where
  | serviceCall {g : Gateway} {request : ServiceCall} {next : request.Reply → ServiceM Unit}
      {reply : request.Reply} {t : World} (waiting : g.service = .call request next)
      (answers : request.Answers g.world reply t) :
      Works g { g with
        world := t
        service := next reply
        submitted := request.payloads ++ g.submitted }
  | other {g g' : Gateway} (step : Step g g') (same : g'.service = g.service) : Works g g'

theorem Works.step (works : Works g g') : Step g g' := by
  cases works with
  | serviceCall waiting answers => exact .serviceCall waiting answers
  | other step same => exact step

theorem works_run (works : Relation.ReflTransGen Works g g') :
    Relation.ReflTransGen Step g g' :=
  Relation.ReflTransGen.mono (fun _ _ => Works.step) _ _ works

/-- What runs saves and submits no others than records of the set. -/
def Sends (records : Set SmsMessage) (g : Gateway) : Prop :=
  Obeys ServiceCall.Keeps ServiceCall.Outgoing (fun _ _ => True) g.service records

theorem Works.sends (works : Works g g') (closed : Closed records) (confined : g.Confined records)
    (sends : g.Sends records) : g'.Sends records := by
  cases works with
  | @serviceCall request next reply t waiting answers =>
      have saves (message : SmsMessage) (equal : request = .save message) :
          StaysIn records t message := by
        subst equal
        exact confined.service_stays closed t waiting
      obtain ⟨-, -, keeps, -⟩ := answers.stays confined.sound confined.held saves
      rw [Sends, waiting] at sends
      exact sends.2 _ _ keeps
  | other step same =>
      rw [Sends, same]
      exact sends

/-- While `process_one_outbound` runs, with whatever the other tasks do. -/
theorem works_sends {before : Gateway} (run : Relation.ReflTransGen Step begin before)
    (starts : before.service = processOneOutbound)
    (works : Relation.ReflTransGen Works before g') (later : Relation.ReflTransGen Step g' g) :
    g'.Sends g.traced := by
  induction works with
  | refl =>
      rw [Sends, starts]
      exact outgoing_processOneOutbound g.traced
  | @tail b c first last ih =>
      have middle := later.head last.step
      exact last.sends g.traced_closed (run_confined (run.trans (works_run first)) middle) (ih middle)

end Gateway

/-- A traced outbound record is encoded to the segments that its send computed. -/
theorem Gateway.traced_reencodes {g : Gateway} {m : SmsMessage} (traced : m ∈ g.traced)
    (outbound : m.direction = .outbound) :
    ∃ recipient text report stored segments, g.QueuedBefore recipient text report stored ∧
      stored.id = m.id ∧ stored.concatReference = m.concatReference ∧
      smsSubmitEncode recipient text report stored.concatReference 16 = some segments ∧
      segments.length = m.segmentCount.toNat ∧
      smsSubmitEncode m.recipient.str m.text.str m.deliveryReportRequested m.concatReference
        m.segmentCount.toNat = some segments ∧
      queuedSegments m = some segments := by
  obtain ⟨recipient, text, report, segments, message, id, queued, accepted, same⟩ :=
    traced.2.2 outbound
  obtain ⟨-, -, -, encoded, count, again, whole⟩ := accepted.reencodes same
  refine ⟨recipient, text, report, _, segments, queued, same.id.symm, same.reference.symm, ?_,
    count, again, whole⟩
  rw [← same.reference]
  exact encoded

/-- In every run, with any calls of other tasks, refused calls and restarts, an
outbound record was stored by a send and is encoded to the segments that the send
computed. However `process_one_outbound` runs, it saves no outbound record as failed,
and each request with a payload submits a segment of the split at queue time. -/
theorem reencodes_as_queued {g : Gateway}
    (run : Relation.ReflTransGen Gateway.Step Gateway.begin g) :
    (∀ m, g.world.Holds m → m.direction = .outbound →
      ∃ recipient text report stored segments, g.QueuedBefore recipient text report stored ∧
        stored.id = m.id ∧ stored.concatReference = m.concatReference ∧
        smsSubmitEncode recipient text report stored.concatReference 16 = some segments ∧
        segments.length = m.segmentCount.toNat ∧
        smsSubmitEncode m.recipient.str m.text.str m.deliveryReportRequested m.concatReference
          m.segmentCount.toNat = some segments ∧
        queuedSegments m = some segments) ∧
    ∀ g', g.service = processOneOutbound → Relation.ReflTransGen Gateway.Works g g' →
      (∀ message next, g'.service = .call (.save message) next →
        message.direction = .outbound → message.status ≠ .failed) ∧
      ∀ request next, g'.service = .call (.execute request) next →
        ∃ recipient text report stored segments segment index,
          g'.QueuedBefore recipient text report stored ∧
          smsSubmitEncode recipient text report stored.concatReference 16 = some segments ∧
          segments[index]? = some segment ∧
          request = ⟨.cmgs segment.tpduLengthOctets, some (promptPayload segment),
            some (stored.id, index)⟩ := by
  refine ⟨fun m held => ?_, fun g' starts works => ⟨?_, ?_⟩⟩
  · exact Gateway.traced_reencodes ((Gateway.run_confined run .refl).held held)
  · intro message next waiting outbound
    have sends := Gateway.works_sends run starts works .refl
    rw [Gateway.Sends, waiting] at sends
    cases sends.1 with
    | queued recipient text report reference encoding some most => exact nofun
    | @evolved m _ stored evolves encodable =>
        obtain ⟨-, -, -, -, segments, -, -, -, -, -, -, whole⟩ :=
          Gateway.traced_reencodes stored (evolves.direction_eq.symm.trans outbound)
        refine encodable.resolve_left fun bad => ?_
        cases whole.symm.trans bad
  · intro request next waiting
    have sends := Gateway.works_sends run starts works .refl
    rw [Gateway.Sends, waiting] at sends
    obtain ⟨m, stored, segments, segment, index, sending, encoded, place, rfl⟩ := sends.1
    have outbound : m.direction = .outbound := by
      cases direction : m.direction with
      | outbound => rfl
      | inbound => exact absurd sending (stored.2.1 direction).2.1
    obtain ⟨recipient, text, report, before, split, queued, same, -, first, -, -, whole⟩ :=
      Gateway.traced_reencodes stored outbound
    cases whole.symm.trans encoded
    refine ⟨recipient, text, report, before, _, segment, index, queued, first, place, ?_⟩
    rw [same]
    rfl

theorem sent_run (call : ClientCall) : ∃ g : Gateway,
    Relation.ReflTransGen Gateway.Step Gateway.begin g ∧
      g.world = (Prog.run ServiceCall.handle call.program afterBoot).2 ∧
      g.service = processOneOutbound := by
  obtain ⟨payloads, booted⟩ : ∃ payloads, Relation.ReflTransGen Gateway.Step Gateway.begin
      ⟨afterBoot, .done (), [], payloads, [], []⟩ :=
    ⟨_, Gateway.serviceRun restartProgram ⟨.empty, 0, []⟩ [] [] [] []⟩
  obtain ⟨more, queues⟩ := Gateway.callRun call afterBoot payloads [] []
  exact ⟨_, (booted.trans queues).tail (.serviceNext rfl .outbound), rfl, rfl⟩

/-- A message of two segments. -/
def longSend : ClientCall :=
  .send (.text "+123") ⟨(List.replicate 71 [0xD0, 0x96]).flatten, by decide⟩ false

def afterLongSend : World := (Prog.run ServiceCall.handle longSend.program afterBoot).2

/-- What is left of the service after this many calls, all answered. -/
def worked : Nat → ServiceM Unit → World → ServiceM Unit × World
  | 0, p, w => (p, w)
  | _ + 1, .done value, w => (.done value, w)
  | n + 1, .call request next, w => worked n (next (request.handle w).1) (request.handle w).2

theorem works_worked (n : Nat) (g : Gateway) : ∃ g', Relation.ReflTransGen Gateway.Works g g' ∧
    g'.service = (worked n g.service g.world).1 := by
  induction n generalizing g with
  | zero => exact ⟨g, .refl, rfl⟩
  | succ n ih =>
      cases program : g.service with
      | done value => exact ⟨g, .refl, program⟩
      | call request next =>
          obtain ⟨g', works, same⟩ := ih { g with
            world := (request.handle g.world).2
            service := next (request.handle g.world).1
            submitted := request.payloads ++ g.submitted }
          exact ⟨g', works.head (.serviceCall program (request.handle_answers g.world)), same⟩

def ServiceCall.modemRequest : ServiceCall → Option AtRequest
  | .execute request => some request
  | _ => none

/-- The modem request that the service is about to make. -/
def pendingRequest : ServiceM Unit → Option AtRequest
  | .done _ => none
  | .call request _ => request.modemRequest

theorem pendingRequest_some {p : ServiceM Unit} {request : AtRequest}
    (pending : pendingRequest p = some request) : ∃ next, p = .call (.execute request) next := by
  cases p with
  | done value => cases pending
  | call made next =>
      cases made with
      | execute request =>
          cases pending
          exact ⟨next, rfl⟩
      | _ => cases pending

theorem reencodes_as_queued_long : ∃ g g' : Gateway, ∃ request next,
    Relation.ReflTransGen Gateway.Step Gateway.begin g ∧ g.service = processOneOutbound ∧
      Relation.ReflTransGen Gateway.Works g g' ∧ g'.service = .call (.execute request) next ∧
      request.origin = some (1, 0) ∧
      ∃ recipient text report stored segments segment index,
        g'.QueuedBefore recipient text report stored ∧
        smsSubmitEncode recipient text report stored.concatReference 16 = some segments ∧
        segments[index]? = some segment ∧
        request = ⟨.cmgs segment.tpduLengthOctets, some (promptPayload segment),
          some (stored.id, index)⟩ := by
  obtain ⟨g, run, world, starts⟩ := sent_run longSend
  obtain ⟨g', works, same⟩ := works_worked 8 g
  rw [world, starts, ← afterLongSend] at same
  have pending : ((pendingRequest (worked 8 processOneOutbound afterLongSend).1).bind
      AtRequest.origin) = some (1, 0) := by
    decide +kernel
  obtain ⟨request, waits, origin⟩ := Option.bind_eq_some_iff.mp pending
  obtain ⟨next, waiting⟩ := pendingRequest_some waits
  rw [← same] at waiting
  exact ⟨g, g', request, next, run, starts, works, waiting, origin,
    ((reencodes_as_queued run).2 g' starts works).2 request next waiting⟩

end SmsGateway
