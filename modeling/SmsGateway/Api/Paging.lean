import SmsGateway.Api.MessageUri
import SmsGateway.Lib.Decimal
import SmsGateway.Lib.Interference
import SmsGateway.Store.Holds

/-! The list of messages over HTTP (`messages_get_handler` of `api_server.c`), read page by
page while the journal changes. -/

namespace SmsGateway.Api.Paging

open Lib Prog MessageUri Ota

/-- What the handler asks for: memory for a record, the record after this id, its JSON text
and the chunks around the records. -/
inductive ListCall where
  | calloc
  | list (afterId : UInt32)
  | encode (message : SmsMessage)
  | sendHead
  | sendTail
  deriving DecidableEq

@[reducible] def ListCall.Reply : ListCall → Type
  | .list _ => Except EspErr (List SmsMessage)
  | .calloc | .encode _ | .sendHead | .sendTail => Bool

abbrev ListM := Prog ListCall ListCall.Reply

def ask (request : ListCall) : ListM request.Reply := Prog.send request

/-- The records of a page, and the `next_after_id` behind them. -/
structure Page where
  messages : List SmsMessage
  nextAfterId : UInt32

inductive Failure where
  | rounds
  | noMem
  | fail
  deriving DecidableEq, Repr

def chosen (direction : Option SmsDirection) (message : SmsMessage) : Bool :=
  direction = none ∨ direction = some message.direction

inductive Problem where
  | invalidLimit
  | invalidDirection
  deriving DecidableEq, Repr

inductive Answer where
  | problem (problem : Problem)
  | failure (failure : Failure)
  | page (page : Page)

/-- A call reads the journal at best. -/
def ListCall.Answers (s : Store) : (request : ListCall) → request.Reply → Store → Prop
  | .list afterId, reply, t => (∃ plan, (smsStoreList afterId 1 (plan, s)).1 = reply) ∧ t = s
  | .calloc, _, t | .encode _, _, t | .sendHead, _, t | .sendTail, _, t => t = s

/-- The journal may fail to be read when `faulty` says so. -/
def ListCall.Reads (faulty : Prop) (s : Store) (request : ListCall) (reply : request.Reply)
    (t : Store) : Prop :=
  request.Answers s reply t ∧ match request, reply with
    | .list _, .error _ => faulty
    | _, _ => True

/-- A journal that was reached before the ids were used up. -/
def Fresh (s : Store) : Prop := ∃ n, s.Reached n ∧ n < idLimit

/-- A message of the wanted direction has this id. -/
def Listed (direction : Option SmsDirection) (id : UInt32) (s : Store) : Prop :=
  ∃ message, s.Holds message ∧ message.id = id ∧ chosen direction message = true

/-- The others change the journal as they like, the message with this id too, but leave it
in the journal. -/
def Keeping (direction : Option SmsDirection) (id : UInt32) (s t : Store) : Prop :=
  Fresh t ∧ (Listed direction id s → Listed direction id t)

/-! The query. -/

/-- The messages are in order, behind `start` and not behind the next cursor. -/
structure Ordered (start : UInt32) (page : Page) : Prop where
  ascending : page.messages.Pairwise fun a b => a.id < b.id
  inside : ∀ message ∈ page.messages, start < message.id ∧ message.id ≤ page.nextAfterId
  onward : start ≤ page.nextAfterId

variable {direction : Option SmsDirection} {limit : Nat} {start id : UInt32} {page : Page}

theorem Ordered.skip (ordered : Ordered start page) {found : SmsMessage}
    (above : page.nextAfterId < found.id) : Ordered start ⟨page.messages, found.id⟩ := by
  refine ⟨ordered.ascending, ?_, UInt32.le_trans ordered.onward (UInt32.le_of_lt above)⟩
  intro m member
  obtain ⟨later, before⟩ := ordered.inside m member
  exact ⟨later, UInt32.le_trans before (UInt32.le_of_lt above)⟩

theorem Ordered.add (ordered : Ordered start page) {found : SmsMessage}
    (above : page.nextAfterId < found.id) :
    Ordered start ⟨page.messages ++ [found], found.id⟩ := by
  have skipped := ordered.skip above
  refine ⟨?_, ?_, skipped.onward⟩
  · rw [List.pairwise_append]
    refine ⟨ordered.ascending, List.pairwise_singleton _ _, ?_⟩
    intro m member other last
    rw [List.mem_singleton.mp last]
    exact UInt32.lt_of_le_of_lt (ordered.inside m member).2 above
  · intro m member
    rcases List.mem_append.mp member with old | new
    · exact skipped.inside m old
    · rw [List.mem_singleton.mp new]
      exact ⟨UInt32.lt_of_le_of_lt ordered.onward above, UInt32.le_refl _⟩

/-- The message is in the journal. -/
def Stays (direction : Option SmsDirection) (id : UInt32) (s : Store) : Prop :=
  Fresh s ∧ Listed direction id s

theorem stable_stays (p : Prop) :
    Stable (Keeping direction id) fun s => Stays direction id s ∧ p := by
  rintro s t ⟨⟨-, listed⟩, holds⟩ ⟨fresh, keeping⟩
  exact ⟨⟨fresh, keeping listed⟩, holds⟩

/-- The message with this id is among these. -/
def Among (id : UInt32) (messages : List SmsMessage) : Prop := ∃ message ∈ messages, message.id = id

theorem Among.left {messages more : List SmsMessage} (among : Among id messages) :
    Among id (messages ++ more) :=
  among.imp fun _ found => ⟨List.mem_append_left _ found.1, found.2⟩

theorem Among.right {messages more : List SmsMessage} (among : Among id more) :
    Among id (messages ++ more) :=
  among.imp fun _ found => ⟨List.mem_append_right _ found.1, found.2⟩

/-- The message was read on an earlier page, is among those of this page, or still ahead. -/
def Reads (earlier : Prop) (id : UInt32) (page : Page) : Prop :=
  (earlier ∨ Among id page.messages) ∨ page.nextAfterId < id

abbrev Goes {α : Type} (faulty : Prop) (direction : Option SmsDirection) (id : UInt32)
    (post : α → Prop) (program : ListM α) (s : Store) : Prop :=
  Survives (Keeping direction id) (fun s request reply t => ListCall.Reads faulty s request reply t)
    (fun value t => Stays direction id t ∧ post value) program s

variable {s : Store} {faulty earlier : Prop}

theorem goes_done {α : Type} {post : α → Prop} {value : α} (stays : Stays direction id s)
    (holds : post value) : Goes faulty direction id post (.done value) s :=
  .done (stable_stays _) ⟨stays, holds⟩

/-- A page behind the messages read so far. -/
theorem Ordered.append {origin : UInt32} {messages : List SmsMessage}
    (before : Ordered origin ⟨messages, start⟩) (ordered : Ordered start page) :
    Ordered origin ⟨messages ++ page.messages, page.nextAfterId⟩ := by
  refine ⟨?_, ?_, UInt32.le_trans before.onward ordered.onward⟩
  · rw [List.pairwise_append]
    refine ⟨before.ascending, ordered.ascending, ?_⟩
    intro m member other later
    exact UInt32.lt_of_le_of_lt (before.inside m member).2 (ordered.inside other later).1
  · intro m member
    rcases List.mem_append.mp member with old | new
    · obtain ⟨behind, bounded⟩ := before.inside m old
      exact ⟨behind, UInt32.le_trans bounded ordered.onward⟩
    · obtain ⟨behind, bounded⟩ := ordered.inside m new
      exact ⟨UInt32.lt_of_le_of_lt before.onward behind, bounded⟩

/-- A page with a message moves the cursor. -/
theorem Ordered.moves (ordered : Ordered start page) (some : page.messages ≠ []) :
    start < page.nextAfterId := by
  obtain ⟨m, member⟩ := List.exists_mem_of_ne_nil _ some
  obtain ⟨behind, bounded⟩ := ordered.inside m member
  exact UInt32.lt_of_lt_of_le behind bounded

end SmsGateway.Api.Paging
