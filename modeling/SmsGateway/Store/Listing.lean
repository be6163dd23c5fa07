import SmsGateway.Lib.Window
import SmsGateway.Store.Map

/-! Lists of records (`sms_store_list`) and the loops that read a journal page by page. -/

namespace SmsGateway

open Lib

namespace Store

/-- The records with a larger id, in slot order. -/
def above (s : Store) (afterId : UInt32) : List SmsMessage :=
  s.records.filter fun message => decide (afterId < message.id)

/-- As many of the records with the smallest ids above `afterId` as there is room
for, in ascending order. -/
structure Lists (s : Store) (afterId : UInt32) (maxRecords : Nat) (listed : List SmsMessage) :
    Prop where
  length : listed.length = min maxRecords (s.above afterId).length
  ascending : listed.Pairwise fun a b => a.id < b.id
  members : ∀ message ∈ listed, message ∈ s.above afterId
  smallest : ∀ message ∈ s.above afterId, message ∉ listed → ∀ other ∈ listed,
    other.id < message.id

/-- A loop that lists page after page from the last id it got, until a page is
empty: the records in the order of its visits. `rounds` bounds the pages. -/
def visited (s : Store) (maxRecords : Nat) : Nat → UInt32 → Option (List SmsMessage)
  | 0, _ => none
  | rounds + 1, afterId =>
      match (smsStoreList afterId maxRecords (Plan.faultless, s)).1 with
      | .error _ => none
      | .ok [] => some []
      | .ok (first :: rest) =>
          (s.visited maxRecords rounds ((first :: rest).getLast (by simp)).id).map
            ((first :: rest) ++ ·)

end Store

/-! The window. -/

/-- The accumulator of `highestIndex` after the records seen. -/
structure HighestSeen (seen : List SmsMessage) (best : Nat × UInt32 × Nat) : Prop where
  position : best.2.2 = seen.length
  found : ∃ record, seen[best.1]? = some record ∧ record.id = best.2.1
  highest : ∀ other ∈ seen, other.id ≤ best.2.1

theorem HighestSeen.step {seen : List SmsMessage} {best : Nat × UInt32 × Nat}
    (before : HighestSeen seen best) (record : SmsMessage) :
    HighestSeen (seen ++ [record])
      (if record.id > best.2.1 then (best.2.2, record.id, best.2.2 + 1)
      else (best.1, best.2.1, best.2.2 + 1)) := by
  obtain ⟨position, ⟨held, found, same⟩, highest⟩ := before
  by_cases larger : record.id > best.2.1
  · rw [if_pos larger]
    refine ⟨by simp [position], ⟨record, by simp [position], rfl⟩, ?_⟩
    intro other member
    rcases List.mem_append.mp member with old | new
    · exact UInt32.le_trans (highest other old) (UInt32.le_of_lt larger)
    · rw [List.mem_singleton.mp new]
      exact UInt32.le_refl _
  · rw [if_neg larger]
    have inside := (List.getElem?_eq_some_iff.mp found).1
    refine ⟨by simp [position], ⟨held, ?_, same⟩, ?_⟩
    · rw [List.getElem?_append_left inside]
      exact found
    · intro other member
      rcases List.mem_append.mp member with old | new
      · exact highest other old
      · rw [List.mem_singleton.mp new]
        exact UInt32.not_lt.mp larger

theorem highestIndex_spec {records : List SmsMessage} (nonempty : records ≠ []) :
    ∃ highest, records[highestIndex records]? = some highest ∧
      ∀ other ∈ records, other.id ≤ highest.id := by
  cases records with
  | nil => exact absurd rfl nonempty
  | cons first rest =>
      have scan (seen after : List SmsMessage) (best : Nat × UInt32 × Nat)
          (before : HighestSeen seen best) :
          HighestSeen (seen ++ after) (after.foldl (fun (best : Nat × UInt32 × Nat) record =>
            if record.id > best.2.1 then (best.2.2, record.id, best.2.2 + 1)
            else (best.1, best.2.1, best.2.2 + 1)) best) := by
        induction after generalizing seen best with
        | nil => simpa using before
        | cons record after ih =>
            have next := ih (seen ++ [record]) _ (before.step record)
            simpa using next
      obtain ⟨-, ⟨highest, found, same⟩, all⟩ :=
        scan [first] rest (0, first.id, 1) ⟨rfl, ⟨first, rfl, rfl⟩, by simp⟩
      refine ⟨highest, found, ?_⟩
      rw [same]
      exact all

theorem visitList_window {afterId : UInt32} {maxRecords : Nat} {seen kept : List SmsMessage}
    (window : Window (fun message => message.id.toNat) maxRecords seen kept)
    (positive : maxRecords ≠ 0) (slot : Slot) (stored : Option SmsMessage) :
    Window (fun message => message.id.toNat) maxRecords
      (seen ++ stored.toList.filter fun message => decide (afterId < message.id))
      (visitList afterId maxRecords kept slot stored) := by
  cases stored with
  | none => simpa [visitList] using window
  | some record =>
      simp only [visitList, Option.toList_some]
      by_cases passed : record.id ≤ afterId
      · have low : ¬ afterId < record.id := UInt32.not_lt.mpr passed
        simpa [passed, low] using window
      · have high : afterId < record.id := UInt32.not_le.mp passed
        rw [if_neg passed, List.filter_singleton, decide_eq_true high, cond_true]
        by_cases room : kept.length < maxRecords
        · rw [if_pos room]
          exact window.add room record
        · rw [if_neg room]
          have nonempty : kept ≠ [] := by
            rintro rfl
            simp only [List.length_nil, Nat.pos_iff_ne_zero, not_not] at room
            exact positive room
          obtain ⟨highest, found, all⟩ := highestIndex_spec nonempty
          obtain ⟨inside, same⟩ := List.getElem?_eq_some_iff.mp found
          rw [found]
          simp only
          by_cases smaller : record.id < highest.id
          · rw [if_pos smaller]
            refine window.replace (Nat.not_lt.mp room) inside ?_ ?_
            · rw [same]
              exact fun other member => UInt32.le_iff_toNat_le.mp (all other member)
            · rw [same]
              exact UInt32.lt_iff_toNat_lt.mp smaller
          · rw [if_neg smaller]
            refine window.skip (Nat.not_lt.mp room) ?_
            intro other member
            exact UInt32.le_iff_toNat_le.mp
              (UInt32.le_trans (all other member) (UInt32.not_lt.mp smaller))

theorem foldl_visitList_window (s : Store) (afterId : UInt32) {maxRecords : Nat}
    (positive : maxRecords ≠ 0) :
    Window (fun message => message.id.toNat) maxRecords (s.above afterId)
      (allSlots.foldl
        (fun records slot => visitList afterId maxRecords records slot (s.view slot)) []) := by
  have scan (slots : List Slot) (seen kept : List SmsMessage)
      (window : Window (fun message => message.id.toNat) maxRecords seen kept) :
      Window (fun message => message.id.toNat) maxRecords
        (seen ++ (slots.filterMap s.view).filter fun message => decide (afterId < message.id))
        (slots.foldl
          (fun records slot => visitList afterId maxRecords records slot (s.view slot)) kept) := by
    induction slots generalizing seen kept with
    | nil => simpa using window
    | cons slot rest ih =>
        have next := ih _ _ (@visitList_window afterId _ _ _ window positive slot (s.view slot))
        rw [List.append_assoc, ← List.filter_append] at next
        rw [List.foldl_cons, List.filterMap_cons]
        cases stored : s.view slot with
        | none => simpa [stored] using next
        | some message => simpa [stored] using next
  exact scan allSlots [] [] .nil

/-! The order. -/

theorem insertById_sorted {record : SmsMessage} {records : List SmsMessage}
    (sorted : records.Pairwise fun a b => a.id ≤ b.id) :
    (insertById record records).Pairwise fun a b => a.id ≤ b.id := by
  induction records with
  | nil => simp [insertById]
  | cons head tail ih =>
      rw [List.pairwise_cons] at sorted
      simp only [insertById]
      split
      · rename_i larger
        refine List.pairwise_cons.mpr ⟨?_, List.pairwise_cons.mpr sorted⟩
        intro other member
        rcases List.mem_cons.mp member with rfl | later
        · exact UInt32.le_of_lt larger
        · exact UInt32.le_trans (UInt32.le_of_lt larger) (sorted.1 other later)
      · rename_i notLarger
        refine List.pairwise_cons.mpr ⟨?_, ih sorted.2⟩
        intro other member
        rcases List.mem_cons.mp ((insertById_perm record tail).mem_iff.mp member) with rfl | later
        · exact UInt32.not_lt.mp notLarger
        · exact sorted.1 other later

theorem insertionSort_sorted (records : List SmsMessage) :
    (insertionSort records).Pairwise fun a b => a.id ≤ b.id := by
  have general (rest sorted : List SmsMessage) (before : sorted.Pairwise fun a b => a.id ≤ b.id) :
      (rest.foldl (fun sorted record => insertById record sorted) sorted).Pairwise
        fun a b => a.id ≤ b.id := by
    induction rest generalizing sorted with
    | nil => exact before
    | cons record rest ih => exact ih _ (insertById_sorted before)
  exact general records [] .nil

namespace Store

variable {s : Store}

theorem mem_above {afterId : UInt32} {message : SmsMessage} :
    message ∈ s.above afterId ↔ message ∈ s.records ∧ afterId < message.id := by
  simp [above]

theorem records_ids_nodup (distinct : DistinctKeys SmsMessage.id s.view) :
    (s.records.map SmsMessage.id).Nodup := by
  have general (slots : List Slot) (nodup : slots.Nodup) :
      ((slots.filterMap s.view).map SmsMessage.id).Nodup := by
    induction slots with
    | nil => simp
    | cons slot rest ih =>
        rw [List.nodup_cons] at nodup
        rw [List.filterMap_cons]
        cases stored : s.view slot with
        | none => exact ih nodup.2
        | some message =>
            rw [List.map_cons, List.nodup_cons]
            refine ⟨?_, ih nodup.2⟩
            intro member
            obtain ⟨other, present, same⟩ := List.mem_map.mp member
            obtain ⟨there, inside, held⟩ := List.mem_filterMap.mp present
            have slots := distinct slot there message other stored held same.symm
            exact nodup.1 (slots ▸ inside)
  exact general allSlots (List.nodup_finRange _)

theorem above_ids_nodup (distinct : DistinctKeys SmsMessage.id s.view) (afterId : UInt32) :
    ((s.above afterId).map SmsMessage.id).Nodup :=
  (records_ids_nodup distinct).sublist ((List.filter_sublist).map _)

/-- A list call on a journal with distinct ids. -/
theorem lists_of_run (sound : s.Sound) (distinct : DistinctKeys SmsMessage.id s.view)
    (afterId : UInt32) {maxRecords : Nat} (positive : maxRecords ≠ 0) :
    ∃ listed, (smsStoreList afterId maxRecords (Plan.faultless, s)).1 = .ok listed ∧
      s.Lists afterId maxRecords listed := by
  rw [(smsStoreList_reads sound afterId maxRecords positive).faultless]
  refine ⟨_, rfl, ?_⟩
  have window := (foldl_visitList_window s afterId positive).perm (insertionSort_perm _)
  have sorted := insertionSort_sorted (allSlots.foldl
    (fun records slot => visitList afterId maxRecords records slot (s.view slot)) [])
  generalize insertionSort _ = listed at window sorted
  obtain ⟨length, omitted, perm, least⟩ := window
  have nodup := (perm.map SmsMessage.id).nodup_iff.mpr (above_ids_nodup distinct afterId)
  rw [List.map_append, List.nodup_append] at nodup
  refine ⟨length, ?_, fun message member => perm.mem_iff.mp (List.mem_append_left _ member), ?_⟩
  · have apart := List.pairwise_map.mp nodup.1
    refine (sorted.and apart).imp ?_
    rintro a b ⟨ordered, differ⟩
    exact UInt32.lt_of_le_of_ne ordered differ
  · intro message member absent other here
    have left : message ∈ omitted :=
      (List.mem_append.mp (perm.mem_iff.mpr member)).resolve_left absent
    have differ := nodup.2.2 other.id (List.mem_map_of_mem here) message.id (List.mem_map_of_mem left)
    exact UInt32.lt_of_le_of_ne (UInt32.le_iff_toNat_le.mpr (least other here message left)) differ

/-! Pages. -/

theorem Lists.le_last {afterId : UInt32} {maxRecords : Nat} {listed : List SmsMessage}
    (lists : s.Lists afterId maxRecords listed) (nonempty : listed ≠ []) :
    ∀ message ∈ listed, message.id ≤ (listed.getLast nonempty).id := by
  intro message member
  have ends : listed.dropLast ++ [listed.getLast nonempty] = listed :=
    List.dropLast_append_getLast nonempty
  have ascending := lists.ascending
  rw [← ends, List.pairwise_append] at ascending
  rw [← ends, List.mem_append, List.mem_singleton] at member
  rcases member with early | last
  · exact UInt32.le_of_lt (ascending.2.2 message early _ (List.mem_singleton.mpr rfl))
  · rw [last]
    exact UInt32.le_refl _

/-- The records above `afterId` are a page and the records above its last id. -/
theorem Lists.page {afterId : UInt32} {maxRecords : Nat} {listed : List SmsMessage}
    (lists : s.Lists afterId maxRecords listed) (distinct : DistinctKeys SmsMessage.id s.view)
    (nonempty : listed ≠ []) :
    (listed ++ s.above (listed.getLast nonempty).id).Perm (s.above afterId) := by
  have lastMember := List.getLast_mem nonempty
  have lastAbove := (mem_above.mp (lists.members _ lastMember)).2
  have atMost := lists.le_last nonempty
  generalize listed.getLast nonempty = last at lastMember lastAbove atMost
  have later : s.above last.id = (s.above afterId).filter fun m => decide (last.id < m.id) := by
    rw [above, above, List.filter_filter]
    apply List.filter_congr
    intro message _
    by_cases larger : last.id < message.id
    · simp [larger, UInt32.lt_trans lastAbove larger]
    · simp [larger]
  have page : listed.Perm ((s.above afterId).filter fun m => !decide (last.id < m.id)) := by
    have nodupAbove := (above_ids_nodup distinct afterId).of_map
    have nodupListed : listed.Nodup := lists.ascending.imp fun less same => by
      rw [same] at less
      exact UInt32.lt_irrefl _ less
    rw [List.perm_ext_iff_of_nodup nodupListed (nodupAbove.filter _)]
    intro message
    rw [List.mem_filter]
    simp only [Bool.not_eq_eq_eq_not, Bool.not_true, decide_eq_false_iff_not]
    constructor
    · intro member
      exact ⟨lists.members message member, UInt32.not_lt.mpr (atMost message member)⟩
    · rintro ⟨member, low⟩
      by_contra absent
      exact low (lists.smallest message member absent last lastMember)
  rw [later]
  refine (page.append_right _).trans ?_
  exact List.perm_append_comm.trans (List.filter_append_perm _ _)

/-- Page after page, the loop visits every record above its start once. -/
theorem visited_spec (sound : s.Sound) (distinct : DistinctKeys SmsMessage.id s.view)
    {maxRecords : Nat} (positive : maxRecords ≠ 0) {rounds : Nat} {afterId : UInt32}
    (enough : (s.above afterId).length < rounds) :
    ∃ records, s.visited maxRecords rounds afterId = some records ∧
      (records.Pairwise fun a b => a.id < b.id) ∧ records.Perm (s.above afterId) := by
  induction rounds generalizing afterId with
  | zero => cases enough
  | succ rounds ih =>
      obtain ⟨listed, run, lists⟩ := lists_of_run sound distinct afterId positive
      rw [visited, run]
      cases listed with
      | nil =>
          have length := lists.length
          rw [List.length_nil] at length
          have none : s.above afterId = [] := List.length_eq_zero_iff.mp (by omega)
          exact ⟨[], rfl, .nil, by rw [none]⟩
      | cons first rest =>
          have page := lists.page distinct (by simp)
          have total := page.length_eq
          rw [List.length_append, List.length_cons] at total
          obtain ⟨records, later, ascending, perm⟩ := @ih (((first :: rest).getLast (by simp)).id)
            (by omega)
          refine ⟨(first :: rest) ++ records, by simp only [later, Option.map_some], ?_,
            (perm.append_left _).trans page⟩
          refine List.pairwise_append.mpr ⟨lists.ascending, ascending, ?_⟩
          intro message member other behind
          have beyond := (mem_above.mp (perm.mem_iff.mp behind)).2
          exact UInt32.lt_of_le_of_lt (lists.le_last (by simp) message member) beyond

theorem above_zero (s : Store) : s.above 0 = s.records := by
  rw [above, List.filter_eq_self]
  intro message member
  obtain ⟨slot, -, stored⟩ := List.mem_filterMap.mp member
  have named := view_named stored
  rw [decide_eq_true_eq, UInt32.lt_iff_toNat_lt]
  have positive : message.id.toNat ≠ 0 := fun zero => named (UInt32.toNat_inj.mp zero)
  exact Nat.pos_of_ne_zero positive

end Store

/-- A list call returns the records with the smallest ids in ascending order, and a
loop over its pages ends and visits every record once. -/
theorem store_listing {s : Store} (sound : s.Sound) (distinct : DistinctKeys SmsMessage.id s.view)
    {maxRecords : Nat} (positive : maxRecords ≠ 0) :
    (∀ afterId, ∃ listed, (smsStoreList afterId maxRecords (Plan.faultless, s)).1 = .ok listed ∧
      s.Lists afterId maxRecords listed) ∧
    (∀ afterId rounds, (s.above afterId).length < rounds →
      ∃ records, s.visited maxRecords rounds afterId = some records ∧
        (records.Pairwise fun a b => a.id < b.id) ∧ records.Perm (s.above afterId)) ∧
    ∀ rounds, s.records.length < rounds →
      ∃ records, s.visited maxRecords rounds 0 = some records ∧
        (records.Pairwise fun a b => a.id < b.id) ∧ records.Perm s.records := by
  refine ⟨fun afterId => Store.lists_of_run sound distinct afterId positive,
    fun afterId rounds enough => Store.visited_spec sound distinct positive enough, ?_⟩
  intro rounds enough
  rw [← s.above_zero] at enough ⊢
  exact Store.visited_spec sound distinct positive enough

theorem store_listing_two :
    ∃ records, (session [.save .zero, .save .zero]).2.visited 1 3 0 = some records ∧
      (records.Pairwise fun a b => a.id < b.id) ∧
      records.Perm (session [.save .zero, .save .zero]).2.records := by
  have disciplined : Disciplined [.save .zero, .save .zero] := by
    intro before message after split
    rcases before with _ | ⟨first, _ | ⟨second, before⟩⟩
    · cases split
      exact .inl rfl
    · cases split
      exact .inl rfl
    · simp at split
  obtain ⟨m, -, implements, -⟩ := session_implements _ disciplined (by decide +kernel)
  exact (store_listing implements.numbered.sound implements.numbered.distinct (by decide)).2.2 3
    (by decide +kernel)

/-- A record saved under an id that was never given out, and the record that gets this
id later. -/
def sharedId : Store := (session [.save (SmsMessage.zero.withId 1), .save .zero]).2

/-- The two records are not listed in strictly ascending order, and a loop with pages
of one record visits one of them. -/
theorem shared_id_listing :
    (¬ ∃ listed, (smsStoreList 0 2 (Plan.faultless, sharedId)).1 = .ok listed ∧
      sharedId.Lists 0 2 listed) ∧
    sharedId.records.length = 2 ∧
    (sharedId.visited 1 3 0).map List.length = some 1 := by
  have two : sharedId.records.length = 2 := by decide +kernel
  have ones : ∀ message ∈ sharedId.records, message.id = 1 := by decide +kernel
  refine ⟨?_, two, by decide +kernel⟩
  rintro ⟨listed, -, lists⟩
  have length := lists.length
  rw [Store.above_zero, two] at length
  obtain ⟨a, b, rfl⟩ := List.length_eq_two.mp length
  have same (message : SmsMessage) (member : message ∈ [a, b]) : message.id = 1 :=
    ones message (Store.mem_above.mp (lists.members message member)).1
  have less := lists.ascending
  simp only [List.pairwise_cons, List.mem_singleton, forall_eq] at less
  rw [same a (by simp), same b (by simp)] at less
  exact UInt32.lt_irrefl 1 less.1

end SmsGateway
