import Mathlib.Algebra.Order.BigOperators.Group.List
import Mathlib.Algebra.Order.Group.Nat
import SmsGateway.Service.Acceptance
import SmsGateway.Service.AtMostOnce
import SmsGateway.Service.Pairing
import SmsGateway.Service.Reencoding

/-! Which inboxes a scan drains: those in which the messages that the journal refuses
leave room in the bounded response. -/

namespace SmsGateway

open Lib Prog

/-! The response, message by message. -/

namespace StoredMessage

def lines (m : StoredMessage) : List CStr := [m.header, m.pdu]

/-- The bytes that its lines take in a response. -/
def size (m : StoredMessage) : Nat := m.header.length + m.pdu.length + 2

end StoredMessage

namespace At.Response

/-- The response once the message was listed. -/
def capture (response : Response) (m : StoredMessage) : Response :=
  (response.captureLine m.header).captureLine m.pdu

/-- There is room for both lines of the message. -/
def keepsBoth (response : Response) (m : StoredMessage) : Bool :=
  response.fits m.header && (response.captureLine m.header).fits m.pdu

/-- No PDU of these messages is kept. -/
def keepsNoPdu (response : Response) : List StoredMessage → Bool
  | [] => true
  | m :: rest =>
      !(response.captureLine m.header).fits m.pdu && (response.capture m).keepsNoPdu rest

/-- From the first message on that does not fit, no PDU is kept. -/
def orderly (response : Response) : List StoredMessage → Bool
  | [] => true
  | m :: rest =>
      if response.keepsBoth m then (response.capture m).orderly rest
      else response.keepsNoPdu (m :: rest)

variable {response : Response} {line : CStr} {m : StoredMessage}

theorem fits_iff : response.fits line = true ↔ response.lines.length < maxResponseLines ∧
    response.dataLength + line.length + 1 ≤ maxResponseBytes := by
  simp only [fits, Bool.not_eq_true', decide_eq_false_iff_not, not_or, Nat.not_le, Nat.not_lt]

theorem captureLine_keeps (fits : response.fits line = true) :
    (response.captureLine line).lines = response.lines ++ [line] := by
  obtain ⟨few, short⟩ := fits_iff.mp fits
  rw [captureLine, if_neg (not_or.mpr ⟨Nat.not_le.mpr few, Nat.not_lt.mpr short⟩)]

theorem captureLine_drops (full : response.fits line = false) :
    (response.captureLine line).lines = response.lines := by
  simp only [fits, Bool.not_eq_false', decide_eq_true_eq] at full
  rw [captureLine, if_pos full]

theorem dataLength_append {more : List CStr} {longer : Response}
    (lines : longer.lines = response.lines ++ more) : longer.dataLength =
      response.dataLength + (more.map fun line => line.length + 1).sum := by
  rw [dataLength, lines, List.map_append, List.sum_append, dataLength]

theorem keepsBoth_iff : response.keepsBoth m = true ↔
    response.lines.length + 2 ≤ maxResponseLines ∧
      response.dataLength + m.size ≤ maxResponseBytes := by
  rw [keepsBoth, Bool.and_eq_true, StoredMessage.size]
  constructor
  · rintro ⟨header, pdu⟩
    have lines := captureLine_keeps header
    have bytes := dataLength_append lines
    have inside := fits_iff.mp pdu
    simp only [lines, bytes, List.length_append, List.length_singleton, List.map_cons,
      List.map_nil, List.sum_cons, List.sum_nil] at inside
    omega
  · rintro ⟨few, short⟩
    have header : response.fits m.header = true := fits_iff.mpr (by omega)
    have lines := captureLine_keeps header
    have bytes := dataLength_append lines
    refine ⟨header, fits_iff.mpr ?_⟩
    simp only [lines, bytes, List.length_append, List.length_singleton, List.map_cons,
      List.map_nil, List.sum_cons, List.sum_nil]
    omega

theorem capture_keeps (both : response.keepsBoth m = true) :
    (response.capture m).lines = response.lines ++ m.lines := by
  obtain ⟨header, pdu⟩ := Bool.and_eq_true_iff.mp both
  rw [capture, captureLine_keeps pdu, captureLine_keeps header, List.append_assoc]
  rfl

theorem foldl_capture_starts (response : Response) (messages : List StoredMessage) :
    response.lines <+: (messages.foldl capture response).lines := by
  have step (response : Response) (line : CStr) :
      response.lines <+: (response.captureLine line).lines := by
    cases fits : response.fits line with
    | true => exact ⟨[line], (captureLine_keeps fits).symm⟩
    | false => exact ⟨[], by rw [captureLine_drops fits, List.append_nil]⟩
  induction messages generalizing response with
  | nil => exact List.prefix_refl _
  | cons m rest ih => exact ((step _ _).trans (step _ _)).trans (ih _)

/-- Where no PDU is kept, only headers are added. -/
theorem foldl_capture_noPdu {messages : List StoredMessage}
    (none : response.keepsNoPdu messages = true) : ∃ headers,
      (messages.foldl capture response).lines = response.lines ++ headers ∧
        ∀ line ∈ headers, (parseCmglIndex line).isSome = true := by
  induction messages generalizing response with
  | nil => exact ⟨[], (List.append_nil _).symm, nofun⟩
  | cons m rest ih =>
      obtain ⟨dropped, later⟩ := Bool.and_eq_true_iff.mp none
      rw [Bool.not_eq_true'] at dropped
      obtain ⟨headers, lines, announced⟩ := ih later
      have here : (response.capture m).lines = (response.captureLine m.header).lines :=
        captureLine_drops dropped
      rw [List.foldl_cons, lines, here]
      cases fits : response.fits m.header with
      | true =>
          refine ⟨m.header :: headers, ?_, ?_⟩
          · rw [captureLine_keeps fits, List.append_assoc, List.singleton_append]
          · rw [List.forall_mem_cons, m.announced]
            exact ⟨rfl, announced⟩
      | false => exact ⟨headers, by rw [captureLine_drops fits], announced⟩

/-- The response got the messages of `front`, then only headers. -/
def Stops (response : Response) (front messages : List StoredMessage) : Prop :=
  ∃ headers, (messages.foldl capture response).lines =
      response.lines ++ front.flatMap StoredMessage.lines ++ headers ∧
    ∀ line ∈ headers, (parseCmglIndex line).isSome = true

theorem stops_noPdu {messages : List StoredMessage} (none : response.keepsNoPdu messages = true) :
    response.Stops [] messages := by
  obtain ⟨headers, lines, announced⟩ := foldl_capture_noPdu none
  exact ⟨headers, by simp [lines], announced⟩

/-- In an orderly response a message without room ends the PDUs. -/
theorem orderly_stops {before after : List StoredMessage}
    (orderly : response.orderly (before ++ m :: after) = true)
    (crowded : maxResponseLines < response.lines.length + 2 * before.length + 2 ∨
      maxResponseBytes <
        response.dataLength + (before.map StoredMessage.size).sum + m.size) :
    ∃ front, front <+: before ∧ response.Stops front (before ++ m :: after) := by
  induction before generalizing response with
  | nil =>
      have full : ¬ response.keepsBoth m = true := by
        rw [keepsBoth_iff]
        simp only [List.length_nil, List.map_nil, List.sum_nil] at crowded
        omega
      rw [List.nil_append, At.Response.orderly, if_neg full] at orderly
      exact ⟨[], List.prefix_refl _, stops_noPdu orderly⟩
  | cons first rest ih =>
      by_cases both : response.keepsBoth first = true
      · have lines := capture_keeps both
        have bytes := dataLength_append lines
        rw [List.cons_append, At.Response.orderly, if_pos both] at orderly
        have later : maxResponseLines < (response.capture first).lines.length + 2 * rest.length + 2 ∨
            maxResponseBytes < (response.capture first).dataLength +
              (rest.map StoredMessage.size).sum + m.size := by
          simp only [lines, bytes, StoredMessage.lines, List.length_append, List.length_cons,
            List.length_nil, List.map_cons, List.map_nil, List.sum_cons, List.sum_nil,
            StoredMessage.size] at crowded ⊢
          omega
        obtain ⟨front, shorter, headers, kept, announced⟩ := ih orderly later
        refine ⟨first :: front, (List.prefix_cons_inj first).mpr shorter, headers, ?_, announced⟩
        rw [List.cons_append, List.foldl_cons, kept, lines]
        simp
      · rw [List.cons_append, At.Response.orderly, if_neg both] at orderly
        exact ⟨[], List.nil_prefix, stops_noPdu orderly⟩

end At.Response

/-! The inbox and what the scan pairs of it. -/

namespace Inbox

def pdus (inbox : Inbox) : List CStr := inbox.messages.map StoredMessage.pdu

/-- The response once these messages were listed. -/
def heard (messages : List StoredMessage) : At.Response :=
  messages.foldl At.Response.capture .reset

/-- A message that is admitted has room after any of the refused ones before it. -/
def Fits (inbox : Inbox) (admits : CStr → Bool) : Prop :=
  ∀ before m after, inbox.messages = before ++ m :: after → admits m.pdu = true →
    ∀ kept, kept.Sublist (before.filter fun other => !admits other.pdu) →
      (heard kept).keepsBoth m = true

/-- Whatever is left of the inbox, the response skips no PDU to keep a later one. -/
def Orderly (inbox : Inbox) : Prop :=
  ∀ part, part.Sublist inbox.messages → At.Response.reset.orderly part = true

theorem listed_eq (inbox : Inbox) : inbox.listed = (heard inbox.messages).lines := by
  rw [listed, lines, List.foldl_flatMap]
  rfl

end Inbox

theorem offered_plain {lines : List CStr} {pendingIndex : Int} {pair : Int × CStr}
    (taken : pair ∈ offered lines pendingIndex) :
    pair.2 ∈ lines ∧ parseCmglIndex pair.2 = none := by
  induction lines generalizing pendingIndex with
  | nil => cases taken
  | cons line rest ih =>
      have later {pendingIndex : Int} (taken : pair ∈ offered rest pendingIndex) :
          pair.2 ∈ line :: rest ∧ parseCmglIndex pair.2 = none :=
        ⟨List.mem_cons_of_mem _ (ih taken).1, (ih taken).2⟩
      rw [offered] at taken
      split at taken
      · exact later taken
      · rename_i plain
        split at taken
        · rcases List.mem_cons.mp taken with rfl | taken
          · exact ⟨List.mem_cons_self, plain⟩
          · exact later taken
        · exact later taken

/-- A PDU right after its header is taken up. -/
theorem mem_offered (m : StoredMessage) (hex : isHexPduLine m.pdu = true) (before after : List CStr)
    (pendingIndex : Int) : (m.index, m.pdu) ∈ offered (before ++ (m.lines ++ after)) pendingIndex := by
  have nonneg := parseCmglIndex_nonneg m.announced
  induction before generalizing pendingIndex with
  | nil => simp [StoredMessage.lines, offered, m.announced, m.plain, nonneg, hex]
  | cons line rest ih =>
      rw [List.cons_append, offered]
      split
      · exact ih _
      · split
        · exact List.mem_cons_of_mem _ (ih _)
        · exact ih _

/-- Of messages that are kept whole, each PDU is taken up with its own index. -/
theorem offered_own {front : List StoredMessage} {headers : List CStr}
    (announced : ∀ line ∈ headers, (parseCmglIndex line).isSome = true) {pendingIndex : Int}
    {pair : Int × CStr}
    (taken : pair ∈ offered (front.flatMap StoredMessage.lines ++ headers) pendingIndex) :
    ∃ m ∈ front, pair = (m.index, m.pdu) := by
  induction front generalizing pendingIndex with
  | nil =>
      obtain ⟨member, plain⟩ := offered_plain taken
      have header := announced _ member
      rw [plain] at header
      cases header
  | cons m rest ih =>
      have later {pendingIndex : Int}
          (taken : pair ∈ offered (rest.flatMap StoredMessage.lines ++ headers) pendingIndex) :
          ∃ other ∈ m :: rest, pair = (other.index, other.pdu) := by
        obtain ⟨other, member, equal⟩ := ih taken
        exact ⟨other, List.mem_cons_of_mem _ member, equal⟩
      simp only [List.flatMap_cons, StoredMessage.lines, List.cons_append, List.nil_append, offered,
        m.announced, m.plain] at taken
      split at taken
      · rcases List.mem_cons.mp taken with rfl | taken
        · exact ⟨m, List.mem_cons_self, rfl⟩
        · exact later taken
      · exact later taken

theorem isHexPduLine_of_admits {w : World} {pdu : CStr} (admitted : w.admits pdu = true) :
    isHexPduLine pdu = true := by
  refine isHexPduLine_of_known fun unknown => ?_
  simp only [World.admits, unknown] at admitted
  cases admitted

theorem exists_split {α : Type} {before after all : List α} {a : α}
    (sublist : (before ++ a :: after).Sublist all) :
    ∃ before' after', all = before' ++ a :: after' ∧ before.Sublist before' := by
  obtain ⟨first, second, rfl, inFirst, inSecond⟩ := List.append_sublist_iff.mp sublist
  obtain ⟨third, fourth, rfl, member, -⟩ := List.cons_sublist_iff.mp inSecond
  obtain ⟨left, right, rfl⟩ := List.append_of_mem member
  refine ⟨first ++ left, right ++ fourth, ?_, inFirst.trans (List.sublist_append_left _ _)⟩
  simp

/-! The scan, listing by listing. -/

namespace Site

/-- The messages that are left, with the journal. -/
def remaining (site : Site) : List (World × CStr) :=
  site.inbox.messages.map fun m => (site.world, m.pdu)

/-- The PDUs that the scan takes up, each with the journal it finds, and those that it
leaves behind. -/
def attempts (site : Site) : Nat → List (World × CStr)
  | 0 => site.remaining
  | batches + 1 =>
      site.turns site.offers ++
        if site.accepted site.offers = 0 then (site.takeAll site.offers).remaining
        else (site.takeAll site.offers).attempts batches

/-- No PDU finds the journal full, or its ids used up. -/
def Roomy (attempts : List (World × CStr)) : Prop :=
  ∀ attempt ∈ attempts, hasRoom (processAnyPdu attempt.2 (-1)) attempt.1 = true ∧
    (attempt.1.takes attempt.2).issued < idLimit

instance (attempts : List (World × CStr)) : Decidable (Roomy attempts) :=
  inferInstanceAs (Decidable (∀ attempt ∈ attempts, _ ∧ _))

/-- Where a scan that started here can be. -/
structure Follows (start site : Site) : Prop where
  world : start.world.Follows start.inbox.pdus site.world
  inbox : site.inbox.messages.Sublist start.inbox.messages

section

variable {start site : Site} {pairs : List (Int × CStr)}

theorem Follows.listed (follows : start.Follows site) {m : StoredMessage}
    (member : m ∈ site.inbox.messages) : m.pdu ∈ start.inbox.pdus :=
  List.mem_map_of_mem (follows.inbox.subset member)

theorem offers_listed (follows : start.Follows site) {pair : Int × CStr}
    (offered : pair ∈ site.offers) : pair.2 ∈ start.inbox.pdus := by
  obtain ⟨member, plain⟩ := offered_plain offered
  obtain ⟨kept, sublist, equal⟩ := captured_sublist site.inbox.lines .reset
  have line : pair.2 ∈ site.inbox.lines := by
    rw [Inbox.listed, equal] at member
    exact sublist.subset member
  obtain ⟨m, stored, inside⟩ := List.mem_flatMap.mp line
  rcases List.mem_cons.mp inside with header | pdu
  · rw [header, m.announced] at plain
    cases plain
  · rw [List.mem_singleton.mp pdu]
    exact follows.listed stored

variable (sound : start.world.store.Sound) (light : start.world.Light start.inbox.pdus)

include sound light

theorem Follows.accepts (follows : start.Follows site) {pdu : CStr} (listed : pdu ∈ start.inbox.pdus)
    (roomy : hasRoom (processAnyPdu pdu (-1)) site.world = true ∧
      (site.world.takes pdu).issued < idLimit) : site.world.accepts pdu = start.world.admits pdu :=
  (accepts_eq follows.world sound light listed roomy.1 roomy.2).1

/-- The scan takes the message under the index away if it admits the PDU. -/
theorem Follows.take (follows : start.Follows site) {index : Int} {pdu : CStr}
    (listed : pdu ∈ start.inbox.pdus)
    (roomy : hasRoom (processAnyPdu pdu (-1)) site.world = true ∧
      (site.world.takes pdu).issued < idLimit) :
    start.Follows (site.take index pdu) ∧ (site.take index pdu).inbox.messages =
      site.inbox.messages.filter fun m => !(start.world.admits pdu && index == m.index) := by
  have accepts := follows.accepts sound light listed roomy
  have world := follows_take follows.world listed roomy.1 roomy.2
  cases admits : start.world.admits pdu with
  | true =>
      have inbox : (site.take index pdu).inbox = site.inbox.remove index := by
        rw [Site.take, accepts, if_pos admits]
      have messages : (site.inbox.remove index).messages =
          site.inbox.messages.filter fun m => !(true && index == m.index) := by
        refine List.filter_congr fun m _ => ?_
        by_cases same : m.index = index
        · simp [same]
        · simp [same, Ne.symm same]
      refine ⟨⟨world, ?_⟩, inbox ▸ messages⟩
      rw [inbox]
      exact List.filter_sublist.trans follows.inbox
  | false =>
      have inbox : (site.take index pdu).inbox = site.inbox := by
        rw [Site.take, accepts, if_neg (Bool.eq_false_iff.mp admits)]
      refine ⟨⟨world, inbox ▸ follows.inbox⟩, ?_⟩
      rw [inbox]
      simp

theorem Follows.takeAll (follows : start.Follows site)
    (listed : ∀ pair ∈ pairs, pair.2 ∈ start.inbox.pdus) (roomy : Roomy (site.turns pairs)) :
    start.Follows (site.takeAll pairs) ∧ (site.takeAll pairs).inbox.messages =
      site.inbox.messages.filter fun m =>
        !pairs.any fun pair => start.world.admits pair.2 && pair.1 == m.index := by
  induction pairs generalizing site with
  | nil =>
      refine ⟨follows, ?_⟩
      simp [Site.takeAll]
  | cons pair rest ih =>
      obtain ⟨index, pdu⟩ := pair
      obtain ⟨here, later⟩ := List.forall_mem_cons.mp roomy
      obtain ⟨listedHere, listedLater⟩ := List.forall_mem_cons.mp listed
      obtain ⟨next, messages⟩ := follows.take sound light listedHere here
      obtain ⟨final, left⟩ := ih next listedLater later
      refine ⟨final, ?_⟩
      rw [Site.takeAll, left, messages, List.filter_filter]
      refine List.filter_congr fun m _ => ?_
      simp [Bool.and_comm]

/-- Without an accepted PDU none of them was admitted. -/
theorem Follows.accepted (follows : start.Follows site)
    (listed : ∀ pair ∈ pairs, pair.2 ∈ start.inbox.pdus) (roomy : Roomy (site.turns pairs))
    (none : site.accepted pairs = 0) : ∀ pair ∈ pairs, start.world.admits pair.2 = false := by
  induction pairs generalizing site with
  | nil => nofun
  | cons pair rest ih =>
      obtain ⟨index, pdu⟩ := pair
      obtain ⟨here, later⟩ := List.forall_mem_cons.mp roomy
      obtain ⟨listedHere, listedLater⟩ := List.forall_mem_cons.mp listed
      have next : start.Follows (site.take index pdu) :=
        (follows.take sound light listedHere here).1
      have accepts := follows.accepts sound light listedHere here
      rw [Site.accepted, accepts] at none
      obtain ⟨first, none⟩ := Nat.add_eq_zero_iff.mp none
      refine List.forall_mem_cons.mpr ⟨?_, ih next listedLater later none⟩
      simpa using first

theorem Follows.scanned (follows : start.Follows site) {batches : Nat}
    (roomy : Roomy (site.attempts batches)) :
    start.Follows (site.scanned batches) ∧ Roomy (site.scanned batches).remaining := by
  induction batches generalizing site with
  | zero => exact ⟨follows, roomy⟩
  | succ batches ih =>
      obtain ⟨now, later⟩ := List.forall_mem_append.mp roomy
      have next := (follows.takeAll sound light (fun _ => offers_listed follows) now).1
      rw [Site.scanned]
      split
      · rename_i none
        rw [if_pos none] at later
        exact ⟨next, later⟩
      · rename_i some_
        rw [if_neg some_] at later
        exact ih next later

/-- Where every admitted message has room, a listing without an accepted one is the last. -/
theorem Follows.refused (follows : start.Follows site)
    (fits : start.inbox.Fits start.world.admits) (roomy : Roomy (site.turns site.offers))
    (none : site.accepted site.offers = 0) :
    ∀ m ∈ site.inbox.messages, start.world.admits m.pdu = false := by
  have refused := follows.accepted sound light (fun _ => offers_listed follows) roomy none
  cases search : site.inbox.messages.find? fun m => start.world.admits m.pdu with
  | none => exact fun m member => Bool.eq_false_iff.mpr (List.find?_eq_none.mp search m member)
  | some m =>
      obtain ⟨admitted, before, after, messages, others⟩ := List.find?_eq_some_iff_append.mp search
      have inside := follows.inbox
      rw [messages] at inside
      obtain ⟨before', after', equal, sublist⟩ := exists_split inside
      have kept : before.Sublist (before'.filter fun other => !start.world.admits other.pdu) := by
        have filtered := sublist.filter fun other => !start.world.admits other.pdu
        rw [List.filter_eq_self.mpr others] at filtered
        exact filtered
      have both := fits before' m after' equal admitted before kept
      have listing : ∃ more, site.inbox.listed =
          (Inbox.heard before).lines ++ (m.lines ++ more) := by
        obtain ⟨more, lines⟩ := ((Inbox.heard before).capture m).foldl_capture_starts after
        refine ⟨more, ?_⟩
        rw [Inbox.listed_eq, messages, Inbox.heard, List.foldl_append, List.foldl_cons,
          ← List.append_assoc,
          ← At.Response.capture_keeps both, lines]
        rfl
      obtain ⟨more, lines⟩ := listing
      have offered : (m.index, m.pdu) ∈ site.offers := by
        rw [offers, lines]
        exact mem_offered m (isHexPduLine_of_admits admitted) _ _ _
      cases admitted.symm.trans (refused _ offered)

section

variable {refused : List StoredMessage} {m : StoredMessage}
  (orderly : start.inbox.Orderly)
  (useless : ∀ other ∈ refused, start.world.admits other.pdu = false)
  (crowded : At.maxResponseLines < 2 * refused.length + 2 ∨
    At.maxResponseBytes < (refused.map StoredMessage.size).sum + m.size)

include orderly useless crowded

/-- A message with too many refused ones before it is not taken up. -/
theorem Follows.keeps (follows : start.Follows site) (roomy : Roomy (site.turns site.offers))
    (left : (refused ++ [m]).Sublist site.inbox.messages) :
    (refused ++ [m]).Sublist (site.takeAll site.offers).inbox.messages := by
  obtain ⟨-, messages⟩ := follows.takeAll sound light (fun _ => offers_listed follows) roomy
  obtain ⟨before, after, equal, sublist⟩ := exists_split left
  have fewer := sublist.length_le
  have shorter := (sublist.map StoredMessage.size).sum_le_sum fun _ _ => Nat.zero_le _
  have ordered := orderly _ follows.inbox
  rw [equal] at ordered
  obtain ⟨front, shown, headers, lines, announced⟩ := At.Response.orderly_stops ordered (by
    simp only [At.Response.reset, At.Response.dataLength, List.length_nil, List.map_nil,
      List.sum_nil]
    omega)
  have own (pair : Int × CStr) (taken : pair ∈ site.offers) :
      ∃ other ∈ before, pair = (other.index, other.pdu) := by
    rw [offers, Inbox.listed_eq, Inbox.heard, equal, lines] at taken
    obtain ⟨other, member, same⟩ := offered_own announced taken
    exact ⟨other, shown.subset member, same⟩
  have smaller : ∀ other ∈ before, other.index < m.index := by
    have pairwise := site.inbox.ordered
    rw [equal] at pairwise
    exact fun other member => (List.pairwise_append.mp pairwise).2.2 other member m List.mem_cons_self
  have stays : ∀ other ∈ refused ++ [m],
      (!site.offers.any fun pair => start.world.admits pair.2 && pair.1 == other.index) = true := by
    intro other member
    simp only [Bool.not_eq_true', List.any_eq_false, Bool.and_eq_true, beq_iff_eq, not_and]
    rintro pair taken admitted same
    obtain ⟨source, here, rfl⟩ := own pair taken
    rcases List.mem_append.mp member with member | last
    · have both : source = other := by
        refine List.inj_on_of_nodup_map site.inbox.indices_nodup ?_ ?_ same
        · rw [equal]
          exact List.mem_append_left _ here
        · exact left.subset (List.mem_append_left _ member)
      rw [both, useless other member] at admitted
      cases admitted
    · rw [List.mem_singleton.mp last] at same
      exact absurd same (Int.ne_of_lt (smaller source here))
  rw [messages, ← List.filter_eq_self.mpr stays]
  exact left.filter _

end

end

end Site

/-! The journals that the runs of the tasks reach. -/

namespace Gateway

/-- The stored parts are counted, and no task is about to change that. -/
structure Counted (g : Gateway) : Prop where
  sound : g.world.store.Sound
  counted : g.world.records ⊆ Assembly.countedRecords
  service : Obeys Assembly.Tells Assembly.CountedCall (fun _ _ => True) g.service ()
  clients : ∀ client ∈ g.clients,
    Obeys Assembly.Tells Assembly.CountedCall (fun _ _ => True) client.2 ()

theorem counted_restart :
    Obeys Assembly.Tells Assembly.CountedCall (fun _ _ => True) restartProgram () :=
  Assembly.counted_of_outgoing (outgoing_markInterruptedSendsUncertain _ _)

theorem counted_activity (activity : Activity) :
    Obeys Assembly.Tells Assembly.CountedCall (fun _ _ => True) activity.program () := by
  cases activity with
  | outbound => exact Assembly.counted_of_outgoing (outgoing_processOneOutbound _)
  | inbound pdu index => exact (counted_processAnyPdu pdu index).bind (fun _ => .pure ()) ()

theorem begin_counted : begin.Counted where
  sound := Store.sound_empty
  counted := by
    rintro m ⟨slot, stored⟩
    cases stored
  service := counted_restart
  clients := nofun

theorem Step.counted {g g' : Gateway} (step : Step g g') (kept : g.Counted) : g'.Counted := by
  cases step with
  | serviceCall waiting answers =>
      have service := kept.service
      rw [waiting] at service
      obtain ⟨sound, counted, told⟩ :=
        Assembly.answers_tells kept.sound kept.counted service.1 answers
      exact ⟨sound, counted, service.2 _ () told, kept.clients⟩
  | serviceNext idle activity =>
      exact ⟨kept.sound, kept.counted, counted_activity activity, kept.clients⟩
  | clientStart call =>
      refine ⟨kept.sound, kept.counted, kept.service, ?_⟩
      exact List.forall_mem_cons.mpr ⟨Assembly.counted_of_outgoing (call.outgoing _), kept.clients⟩
  | clientCall waiting answers quiet =>
      have client := kept.clients _ (by rw [waiting]; exact List.mem_append_right _ List.mem_cons_self)
      obtain ⟨sound, counted, told⟩ :=
        Assembly.answers_tells kept.sound kept.counted client.1 answers
      exact ⟨sound, counted, kept.service, forall_moved kept.clients waiting (client.2 _ () told)⟩
  | retryWrites waiting answers changes =>
      have client := kept.clients _ (by rw [waiting]; exact List.mem_append_right _ List.mem_cons_self)
      obtain ⟨sound, counted, told⟩ :=
        Assembly.answers_tells kept.sound kept.counted client.1 answers
      exact ⟨sound, counted, kept.service, forall_moved kept.clients waiting (client.2 _ () told)⟩
  | clientReturn finished =>
      exact ⟨kept.sound, kept.counted, kept.service, forall_remaining kept.clients finished⟩
  | crash => exact ⟨kept.sound, kept.counted, counted_restart, nofun⟩
  | watermark protection value =>
      exact ⟨kept.sound.congr rfl, kept.counted, kept.service, kept.clients⟩

theorem run_counted {g : Gateway} (run : Relation.ReflTransGen Step begin g) : g.Counted := by
  induction run with
  | refl => exact begin_counted
  | tail _ step kept => exact step.counted kept

end Gateway

end SmsGateway
