import Mathlib.Algebra.GroupWithZero.Nat
import Mathlib.Data.List.Induction
import Mathlib.Order.Bounds.Basic

/-! Cutting a stream of one- and two-unit codes without cutting a code.

Some units lead a pair (an escape septet, a high surrogate). A cut behind a unit
that does not lead never separates the two units of a pair. -/

namespace SmsGateway.Lib

variable {α β : Type}

/-- The code of one item: a unit that leads nothing, or a leading unit and its
second. -/
inductive IsCode (lead : α → Bool) : List α → Prop where
  | single {a : α} (plain : lead a = false) : IsCode lead [a]
  | pair {a b : α} (leads : lead a = true) (second : lead b = false) : IsCode lead [a, b]

/-- A cut behind a unit that does not lead is a cut between two items. -/
theorem flatMap_cut {lead : α → Bool} {code : β → List α} {items : List β}
    (coded : ∀ item ∈ items, IsCode lead (code item)) {front back : List α}
    (whole : items.flatMap code = front ++ back)
    (clean : ∀ a, front.getLast? = some a → lead a = false) :
    ∃ before after, items = before ++ after ∧ before.flatMap code = front ∧
      after.flatMap code = back := by
  induction items generalizing front with
  | nil =>
      have empty : front = [] ∧ back = [] := by simpa using whole.symm
      exact ⟨[], [], rfl, empty.1.symm, empty.2.symm⟩
  | cons item items ih =>
      have rest (item' : β) (member : item' ∈ items) : IsCode lead (code item') :=
        coded item' (List.mem_cons_of_mem _ member)
      have here := coded item List.mem_cons_self
      rw [List.flatMap_cons] at whole
      -- The first item lies in the front whole, or the front is empty.
      have step (tail : List α) (split : front = code item ++ tail)
          (same : items.flatMap code = tail ++ back)
          (cleanTail : ∀ a, tail.getLast? = some a → lead a = false) :
          ∃ before after, item :: items = before ++ after ∧ before.flatMap code = front ∧
            after.flatMap code = back := by
        obtain ⟨before, after, joined, first, second⟩ := ih rest same cleanTail
        refine ⟨item :: before, after, by rw [joined]; rfl, ?_, second⟩
        rw [List.flatMap_cons, first, split]
      cases front with
      | nil => exact ⟨[], item :: items, rfl, rfl, by simpa using whole⟩
      | cons first front =>
          generalize units : code item = unit at here whole step
          cases here with
          | single plain =>
              simp only [List.cons_append, List.nil_append, List.cons.injEq] at whole
              apply step front
              · rw [whole.1]
                rfl
              · exact whole.2
              · intro a last
                apply clean a
                cases front with
                | nil => cases last
                | cons b front => rw [List.getLast?_cons_cons]; exact last
          | pair leads second =>
              simp only [List.cons_append, List.nil_append, List.cons.injEq] at whole
              obtain ⟨same, whole⟩ := whole
              cases front with
              | nil =>
                  have refused := clean first rfl
                  rw [← same, leads] at refused
                  cases refused
              | cons b front =>
                  simp only [List.cons_append, List.cons.injEq] at whole
                  apply step front
                  · rw [same, whole.1]
                    rfl
                  · exact whole.2
                  · intro a last
                    apply clean a
                    rw [List.getLast?_cons_cons]
                    cases front with
                    | nil => cases last
                    | cons c front => rw [List.getLast?_cons_cons]; exact last

/-- No two leading units follow one another. -/
theorem lead_then_plain {lead : α → Bool} {code : β → List α} {items : List β}
    (coded : ∀ item ∈ items, IsCode lead (code item)) {front back : List α} {a b : α}
    (whole : items.flatMap code = front ++ a :: b :: back) (leads : lead a = true) :
    lead b = false := by
  induction items generalizing front with
  | nil => simp at whole
  | cons item items ih =>
      have here := coded item List.mem_cons_self
      have rest (item' : β) (member : item' ∈ items) : IsCode lead (code item') :=
        coded item' (List.mem_cons_of_mem _ member)
      rw [List.flatMap_cons] at whole
      generalize code item = unit at here whole
      cases here with
      | single plain =>
          cases front with
          | nil =>
              simp only [List.cons_append, List.nil_append, List.cons.injEq] at whole
              rw [← whole.1, plain] at leads
              cases leads
          | cons c front =>
              simp only [List.cons_append, List.nil_append, List.cons.injEq] at whole
              exact ih rest whole.2
      | pair first second =>
          cases front with
          | nil =>
              simp only [List.cons_append, List.nil_append, List.cons.injEq] at whole
              rw [← whole.2.1]
              exact second
          | cons c front =>
              cases front with
              | nil =>
                  simp only [List.cons_append, List.nil_append, List.cons.injEq] at whole
                  rw [← whole.2.1, second] at leads
                  cases leads
              | cons d front =>
                  simp only [List.cons_append, List.nil_append, List.cons.injEq] at whole
                  exact ih rest whole.2.2

theorem items_of_empty {lead : α → Bool} {code : β → List α} {items : List β}
    (coded : ∀ item ∈ items, IsCode lead (code item)) (empty : items.flatMap code = []) :
    items = [] := by
  cases items with
  | nil => rfl
  | cons item items =>
      have here := coded item List.mem_cons_self
      rw [List.flatMap_cons, List.append_eq_nil_iff] at empty
      rw [empty.1] at here
      cases here

/-- The last unit of a stream leads nothing. -/
theorem last_plain {lead : α → Bool} {code : β → List α} {items : List β}
    (coded : ∀ item ∈ items, IsCode lead (code item)) {a : α}
    (last : (items.flatMap code).getLast? = some a) : lead a = false := by
  induction items using List.reverseRecOn with
  | nil => cases last
  | append_singleton items item ih =>
      have here := coded item (by simp)
      simp only [List.flatMap_append, List.flatMap_cons, List.flatMap_nil, List.append_nil] at last
      generalize code item = unit at here last
      cases here with
      | single plain =>
          simp only [List.getLast?_append, List.getLast?_singleton, Option.some_or,
            Option.some.injEq] at last
          rw [← last]
          exact plain
      | pair leads second =>
          simp only [List.getLast?_append, List.getLast?_cons_cons, List.getLast?_singleton,
            Option.some_or, Option.some.injEq] at last
          rw [← last]
          exact second

/-- How many units the next chunk takes: as many as fit, less one when the last
of them leads a pair that goes on in the next chunk. -/
def takeUnits (lead : α → Bool) (perChunk : Nat) (units : List α) (pos : Nat) : Nat :=
  let take := units.length - pos
  if take > perChunk then
    if perChunk > 0 ∧ (units[pos + perChunk - 1]?).any lead then perChunk - 1 else perChunk
  else take

/-- Greedy chunks as (start, count) spans, at most `budget` of them. -/
def splitSpans (lead : α → Bool) (perChunk : Nat) (units : List α) :
    Nat → Nat → Option (List (Nat × Nat))
  | budget, pos =>
      if units.length ≤ pos then some []
      else match budget with
        | 0 => none
        | budget + 1 =>
            let take := takeUnits lead perChunk units pos
            if take = 0 then none
            else (splitSpans lead perChunk units budget (pos + take)).map ((pos, take) :: ·)

def spanUnits (units : List α) (span : Nat × Nat) : List α := (units.drop span.1).take span.2

theorem takeUnits_le (lead : α → Bool) (perChunk : Nat) (units : List α) (pos : Nat) :
    takeUnits lead perChunk units pos ≤ perChunk ∧
      takeUnits lead perChunk units pos ≤ units.length - pos := by
  simp only [takeUnits]
  split
  · split <;> omega
  · omega

/-- A chunk never ends in a leading unit. -/
theorem takeUnits_clean {lead : α → Bool} {code : β → List α} {items : List β}
    (coded : ∀ item ∈ items, IsCode lead (code item)) {units : List α} {pos : Nat} (perChunk : Nat)
    (whole : items.flatMap code = units.drop pos) (a : α)
    (last : ((units.drop pos).take (takeUnits lead perChunk units pos)).getLast? = some a) :
    lead a = false := by
  simp only [takeUnits] at last
  split at last
  · rename_i more
    have at_ (i : Nat) : (units.drop pos)[i]? = units[pos + i]? := List.getElem?_drop
    split at last
    · rename_i cut
      obtain ⟨positive, leads⟩ := cut
      rw [List.getLast?_take] at last
      split at last
      · cases last
      rename_i nonzero
      have inside : pos + (perChunk - 1 - 1) + 1 < units.length := by omega
      rw [at_, List.getElem?_eq_getElem (by omega), Option.some_or, Option.some.injEq] at last
      rw [show pos + perChunk - 1 = pos + (perChunk - 1 - 1) + 1 by omega,
        List.getElem?_eq_getElem inside, Option.any_some] at leads
      by_contra bad
      simp only [Bool.not_eq_false] at bad
      -- The unit before the cut-off one cannot lead as well.
      have around : units.drop pos = (units.drop pos).take (perChunk - 1 - 1) ++
          units[pos + (perChunk - 1 - 1)] :: units[pos + (perChunk - 1 - 1) + 1] ::
            units.drop (pos + (perChunk - 1 - 1) + 1 + 1) := by
        rw [← List.drop_eq_getElem_cons inside, ← List.drop_eq_getElem_cons (by omega),
          ← List.drop_drop, List.take_append_drop]
      have plain := lead_then_plain coded (whole.trans around) (by rw [last]; exact bad)
      rw [plain] at leads
      cases leads
    · rename_i whole'
      rw [List.getLast?_take] at last
      split at last
      · cases last
      rename_i nonzero
      rw [at_, List.getElem?_eq_getElem (by omega), Option.some_or, Option.some.injEq] at last
      rw [show pos + perChunk - 1 = pos + (perChunk - 1) by omega,
        List.getElem?_eq_getElem (by omega), Option.any_some, last] at whole'
      by_contra bad
      exact whole' ⟨by omega, by simpa using bad⟩
  · rw [List.take_of_length_le (by simp), ← whole] at last
    exact last_plain coded last

/-- The chunks of a stream of codes are the streams of consecutive groups of
items. -/
theorem splitSpans_groups {lead : α → Bool} {code : β → List α} {perChunk : Nat} {units : List α}
    {budget pos : Nat} {spans : List (Nat × Nat)} {items : List β}
    (coded : ∀ item ∈ items, IsCode lead (code item))
    (whole : items.flatMap code = units.drop pos)
    (split : splitSpans lead perChunk units budget pos = some spans) :
    ∃ groups : List (List β), groups.flatten = items ∧
      groups.map (List.flatMap code) = spans.map (spanUnits units) := by
  induction budget generalizing pos spans items with
  | zero =>
      unfold splitSpans at split
      split at split
      · rename_i ended
        cases split
        rw [List.drop_of_length_le ended] at whole
        exact ⟨[], (items_of_empty coded whole).symm, rfl⟩
      · cases split
  | succ budget ih =>
      unfold splitSpans at split
      split at split
      · rename_i ended
        cases split
        rw [List.drop_of_length_le ended] at whole
        exact ⟨[], (items_of_empty coded whole).symm, rfl⟩
      · dsimp only at split
        split at split
        · cases split
        obtain ⟨later, next, rfl⟩ := Option.map_eq_some_iff.mp split
        have cut := whole.trans (List.take_append_drop
          (takeUnits lead perChunk units pos) (units.drop pos)).symm
        obtain ⟨before, after, rfl, first, second⟩ :=
          flatMap_cut coded cut (takeUnits_clean coded perChunk whole)
        rw [List.drop_drop] at second
        obtain ⟨groups, joined, chunks⟩ := ih
          (fun item member => coded item (List.mem_append_right _ member)) second next
        refine ⟨before :: groups, by rw [List.flatten_cons, joined], ?_⟩
        rw [List.map_cons, List.map_cons, first, chunks]
        rfl

theorem splitSpans_bounds {lead : α → Bool} {perChunk : Nat} {units : List α} {budget pos : Nat}
    {spans : List (Nat × Nat)} (split : splitSpans lead perChunk units budget pos = some spans) :
    (∀ span ∈ spans, span.2 ≤ perChunk ∧ span.1 + span.2 ≤ units.length) ∧
      spans.length ≤ budget ∧ (perChunk < units.length - pos → 2 ≤ spans.length) := by
  induction budget generalizing pos spans with
  | zero =>
      unfold splitSpans at split
      split at split
      · cases split
        simp only [List.not_mem_nil, IsEmpty.forall_iff, implies_true, List.length_nil, true_and]
        omega
      · cases split
  | succ budget ih =>
      unfold splitSpans at split
      split at split
      · cases split
        simp only [List.not_mem_nil, IsEmpty.forall_iff, implies_true, List.length_nil, true_and]
        omega
      · rename_i more
        dsimp only at split
        split at split
        · cases split
        obtain ⟨later, next, rfl⟩ := Option.map_eq_some_iff.mp split
        obtain ⟨bounds, count, -⟩ := ih next
        have small := takeUnits_le lead perChunk units pos
        refine ⟨?_, by simp only [List.length_cons]; omega, ?_⟩
        · intro span member
          rcases List.mem_cons.mp member with rfl | member
          · exact ⟨small.1, by dsimp only; omega⟩
          · exact bounds span member
        · intro long
          -- The first chunk leaves something, which takes another one.
          cases later with
          | cons second later => simp
          | nil =>
              unfold splitSpans at next
              split at next
              · omega
              · cases budget with
                | zero => cases next
                | succ budget =>
                    dsimp only at next
                    split at next
                    · cases next
                    · obtain ⟨_, _, wrong⟩ := Option.map_eq_some_iff.mp next
                      cases wrong

/-! Greedy chunks are as few as can be. -/

/-- What remains of consecutive groups once some items in front are gone. -/
theorem drop_groups {groups : List (List β)} {front back : List β}
    (whole : groups.flatten = front ++ back) :
    ∃ rest : List (List β), rest.flatten = back ∧ rest.length ≤ groups.length ∧
      ∀ group ∈ rest, ∃ old ∈ groups, group.IsSuffix old := by
  induction groups generalizing front with
  | nil =>
      have empty := List.append_eq_nil_iff.mp whole.symm
      exact ⟨[], empty.2.symm, Nat.le_refl _, nofun⟩
  | cons group groups ih =>
      rw [List.flatten_cons] at whole
      rcases List.append_eq_append_iff.mp whole with ⟨more, rfl, later⟩ | ⟨left, rfl, later⟩
      · obtain ⟨rest, joined, few, inside⟩ := ih later
        refine ⟨rest, joined, Nat.le_succ_of_le few, ?_⟩
        intro piece member
        obtain ⟨old, here, suffix⟩ := inside piece member
        exact ⟨old, List.mem_cons_of_mem _ here, suffix⟩
      · refine ⟨left :: groups, later.symm, Nat.le_refl _, ?_⟩
        intro piece member
        rcases List.mem_cons.mp member with rfl | member
        · exact ⟨front ++ piece, List.mem_cons_self, List.suffix_append _ _⟩
        · exact ⟨piece, List.mem_cons_of_mem _ member, List.suffix_refl _⟩

theorem flatMap_length_suffix {code : β → List α} {group old : List β} (suffix : group.IsSuffix old) :
    (group.flatMap code).length ≤ (old.flatMap code).length := by
  obtain ⟨front, rfl⟩ := suffix
  simp

/-- Of two groups in front of the same items, the one with the shorter code comes
first. -/
theorem flatMap_front {lead : α → Bool} {code : β → List α} {first second after rest : List β}
    (coded : ∀ item ∈ second ++ rest, IsCode lead (code item))
    (same : first ++ after = second ++ rest)
    (shorter : (first.flatMap code).length ≤ (second.flatMap code).length) :
    ∃ more, second = first ++ more ∧ after = more ++ rest := by
  rcases List.append_eq_append_iff.mp same with ⟨more, joined, later⟩ | ⟨more, rfl, later⟩
  · exact ⟨more, joined, later⟩
  · -- The first group would be longer, so nothing lies between the two.
    rw [List.flatMap_append, List.length_append] at shorter
    have empty : more.flatMap code = [] := List.eq_nil_of_length_eq_zero (by omega)
    have none : more = [] := by
      refine items_of_empty (fun item member => coded item ?_) empty
      rw [later]
      exact List.mem_append_right _ (List.mem_append_left _ member)
    subst none
    exact ⟨[], by simp, by simpa using later.symm⟩

/-- A chunk takes all items that would fit. -/
theorem takeUnits_ge {lead : α → Bool} {code : β → List α} {group after : List β}
    (coded : ∀ item ∈ group, IsCode lead (code item)) {units : List α} {pos perChunk : Nat}
    (whole : (group ++ after).flatMap code = units.drop pos)
    (fits : (group.flatMap code).length ≤ perChunk) :
    (group.flatMap code).length ≤ takeUnits lead perChunk units pos := by
  have total : (group.flatMap code).length ≤ units.length - pos := by
    rw [← List.length_drop, ← whole, List.flatMap_append, List.length_append]
    omega
  simp only [takeUnits]
  split
  · split
    · rename_i more cut
      by_contra short
      have full : (group.flatMap code).length = perChunk := by omega
      -- The last unit of the group would lead a pair.
      have last : (group.flatMap code).getLast? = units[pos + perChunk - 1]? := by
        calc (group.flatMap code).getLast?
            = (group.flatMap code)[perChunk - 1]? := by rw [List.getLast?_eq_getElem?, full]
          _ = (units.drop pos)[perChunk - 1]? := by
              rw [← whole, List.flatMap_append, List.getElem?_append_left (by omega)]
          _ = units[pos + perChunk - 1]? := by
              rw [List.getElem?_drop, show pos + (perChunk - 1) = pos + perChunk - 1 by omega]
      have leads := cut.2
      cases here : units[pos + perChunk - 1]? with
      | none =>
          rw [here] at leads
          cases leads
      | some unit =>
          rw [here] at leads last
          cases (last_plain coded last).symm.trans leads
    · exact fits
  · exact total

/-- If the items can be cut into groups that fit, the greedy chunks are no more. -/
theorem splitSpans_least {lead : α → Bool} {code : β → List α} {perChunk : Nat}
    (wide : 2 ≤ perChunk) {units : List α} {budget pos : Nat} {items : List β}
    (coded : ∀ item ∈ items, IsCode lead (code item))
    (whole : items.flatMap code = units.drop pos) (groups : List (List β))
    (joined : groups.flatten = items)
    (fits : ∀ group ∈ groups, (group.flatMap code).length ≤ perChunk)
    (few : groups.length ≤ budget) :
    ∃ spans, splitSpans lead perChunk units budget pos = some spans ∧
      spans.length ≤ groups.length := by
  induction budget generalizing pos items groups with
  | zero =>
      obtain rfl := List.eq_nil_of_length_eq_zero (Nat.le_zero.mp few)
      cases joined
      have ended : units.length ≤ pos := List.drop_eq_nil_iff.mp whole.symm
      refine ⟨[], ?_, Nat.le_refl _⟩
      unfold splitSpans
      rw [if_pos ended]
  | succ budget ih =>
      unfold splitSpans
      by_cases ended : units.length ≤ pos
      · exact ⟨[], if_pos ended, Nat.zero_le _⟩
      rw [if_neg ended]
      cases groups with
      | nil =>
          cases joined
          exact absurd (List.drop_eq_nil_iff.mp whole.symm) ended
      | cons group groups =>
          have taken : takeUnits lead perChunk units pos ≠ 0 := by
            simp only [takeUnits]
            split
            · split <;> omega
            · omega
          have cut := whole.trans (List.take_append_drop
            (takeUnits lead perChunk units pos) (units.drop pos)).symm
          obtain ⟨before, after, rfl, first, second⟩ :=
            flatMap_cut coded cut (takeUnits_clean coded perChunk whole)
          rw [List.drop_drop] at second
          have inside : ∀ item ∈ group, IsCode lead (code item) := by
            intro item member
            apply coded
            rw [← joined]
            exact List.mem_append_left _ member
          have longer : (group.flatMap code).length ≤ (before.flatMap code).length := by
            have enough := takeUnits_ge inside (joined ▸ whole) (fits group List.mem_cons_self)
            have bound := (takeUnits_le lead perChunk units pos).2
            rw [first, List.length_take, List.length_drop]
            omega
          obtain ⟨more, -, later⟩ := flatMap_front coded joined longer
          obtain ⟨rest, remain, fewer, pieces⟩ := drop_groups later
          obtain ⟨spans, split, bound⟩ := ih
            (fun item member => coded item (List.mem_append_right _ member)) second rest remain
            (by
              intro piece member
              obtain ⟨old, here, suffix⟩ := pieces piece member
              exact Nat.le_trans (flatMap_length_suffix suffix)
                (fits old (List.mem_cons_of_mem _ here)))
            (by
              simp only [List.length_cons] at few
              omega)
          refine ⟨(pos, takeUnits lead perChunk units pos) :: spans, ?_, ?_⟩
          · simp only [if_neg taken, split, Option.map_some]
          · simp only [List.length_cons]
            omega

/-- The chunks hold every unit, so that only so many units fit. -/
theorem splitSpans_covers {lead : α → Bool} {perChunk : Nat} {units : List α} {budget pos : Nat}
    {spans : List (Nat × Nat)} (split : splitSpans lead perChunk units budget pos = some spans) :
    units.length ≤ pos + budget * perChunk := by
  induction budget generalizing pos spans with
  | zero =>
      unfold splitSpans at split
      split at split
      · omega
      · cases split
  | succ budget ih =>
      unfold splitSpans at split
      split at split
      · exact Nat.le_add_right_of_le ‹_›
      · dsimp only at split
        split at split
        · cases split
        obtain ⟨later, next, -⟩ := Option.map_eq_some_iff.mp split
        have rest := ih next
        have small := (takeUnits_le lead perChunk units pos).1
        rw [Nat.add_mul]
        omega

/-- The items in `n` consecutive groups, each of them of a size that fits: a group
of its own may be larger than one of several. -/
def CutsInto (size : β → Nat) (single several : Nat) (items : List β) (n : Nat) : Prop :=
  1 ≤ n ∧ ∃ groups : List (List β), groups.length = n ∧ groups.flatten = items ∧
    ∀ group ∈ groups, (group.map size).sum ≤ if n = 1 then single else several

theorem CutsInto.congr {size other : β → Nat} {single several : Nat} {items : List β}
    (same : ∀ item ∈ items, size item = other item) (n : Nat) :
    CutsInto size single several items n ↔ CutsInto other single several items n := by
  refine and_congr_right fun positive => exists_congr fun groups => ?_
  refine and_congr_right fun length => and_congr_right fun joined => ?_
  refine forall_congr' fun group => imp_congr_right fun member => ?_
  rw [List.map_congr_left fun item inside => same item ?_]
  rw [← joined]
  exact List.mem_flatten_of_mem member inside

theorem CutsInto.mono {size : β → Nat} {single several wider : Nat} {items : List β} {n : Nat}
    (cuts : CutsInto size single several items n) (more : several ≤ wider) :
    CutsInto size single wider items n := by
  obtain ⟨positive, groups, length, joined, fits⟩ := cuts
  refine ⟨positive, groups, length, joined, ?_⟩
  intro group member
  refine Nat.le_trans (fits group member) ?_
  split
  · exact Nat.le_refl _
  · exact more

/-- How many chunks a stream takes: one if that suffices, else greedy ones. -/
def chunkCount (lead : α → Bool) (single several budget : Nat) (units : List α) : Option Nat :=
  if units.length ≤ single then some 1
  else (splitSpans lead several units budget 0).map List.length

theorem chunkCount_none {lead : α → Bool} {single several budget : Nat} {units : List α}
    (long : single < units.length) (beyond : budget * several < units.length) :
    chunkCount lead single several budget units = none := by
  simp only [chunkCount, Nat.not_le.mpr long, ↓reduceIte, Option.map_eq_none_iff]
  cases split : splitSpans lead several units budget 0 with
  | none => rfl
  | some spans =>
      have covered := splitSpans_covers split
      omega

/-- The greedy chunks are the least number of groups that fit, if the budget
allows that many. -/
theorem chunkCount_iff {lead : α → Bool} {code : β → List α} {single several budget : Nat}
    (wide : 2 ≤ several) (larger : several ≤ single) (some' : 1 ≤ budget) {items : List β}
    (coded : ∀ item ∈ items, IsCode lead (code item)) (n : Nat) :
    chunkCount lead single several budget (items.flatMap code) = some n ↔
      n ≤ budget ∧
        IsLeast {k | CutsInto (fun item => (code item).length) single several items k} n := by
  have whole : items.flatMap code = (items.flatMap code).drop 0 := rfl
  by_cases short : (items.flatMap code).length ≤ single
  · have one : IsLeast {k | CutsInto (fun item => (code item).length) single several items k} 1 := by
      refine ⟨⟨Nat.le_refl 1, [items], rfl, by simp, ?_⟩, fun k cuts => cuts.1⟩
      intro group member
      rw [List.mem_singleton.mp member, ← List.length_flatMap]
      exact short
    simp only [chunkCount, short, ↓reduceIte, Option.some.injEq]
    constructor
    · rintro rfl
      exact ⟨some', one⟩
    · rintro ⟨-, least⟩
      exact one.unique least
  · simp only [chunkCount, short, ↓reduceIte, Option.map_eq_some_iff]
    -- Several groups are needed.
    have notOne (k : Nat)
        (cuts : CutsInto (fun item => (code item).length) single several items k) : k ≠ 1 := by
      rintro rfl
      obtain ⟨-, groups, length, joined, fits⟩ := cuts
      obtain ⟨group, rfl⟩ := List.length_eq_one_iff.mp length
      have bound := fits group List.mem_cons_self
      rw [List.flatten_singleton] at joined
      rw [joined, ← List.length_flatMap] at bound
      exact short bound
    have greedy (k : Nat) (few : k ≤ budget)
        (cuts : CutsInto (fun item => (code item).length) single several items k) :
        ∃ spans, splitSpans lead several (items.flatMap code) budget 0 = some spans ∧
          spans.length ≤ k := by
      have other := notOne k cuts
      obtain ⟨-, groups, rfl, joined, fits⟩ := cuts
      refine splitSpans_least wide coded whole groups joined ?_ few
      intro group member
      have bound := fits group member
      rw [if_neg other, ← List.length_flatMap] at bound
      exact bound
    have isCut (spans : List (Nat × Nat))
        (split : splitSpans lead several (items.flatMap code) budget 0 = some spans) :
        CutsInto (fun item => (code item).length) single several items spans.length := by
      obtain ⟨bounds, -, long⟩ := splitSpans_bounds split
      have many := long (by omega)
      obtain ⟨groups, joined, chunks⟩ := splitSpans_groups coded whole split
      refine ⟨by omega, groups, by simpa using congrArg List.length chunks, joined, ?_⟩
      intro group member
      have chunk := List.mem_map_of_mem (f := List.flatMap code) member
      rw [chunks] at chunk
      obtain ⟨span, inside, same⟩ := List.mem_map.mp chunk
      rw [if_neg (by omega), ← List.length_flatMap, ← same, spanUnits, List.length_take]
      exact Nat.le_trans (Nat.min_le_left _ _) (bounds span inside).1
    constructor
    · rintro ⟨spans, split, rfl⟩
      have few := (splitSpans_bounds split).2.1
      refine ⟨few, isCut spans split, ?_⟩
      intro k cuts
      by_cases fewer : k ≤ budget
      · obtain ⟨same, again, bound⟩ := greedy k fewer cuts
        cases split.symm.trans again
        exact bound
      · omega
    · rintro ⟨few, cuts, least⟩
      obtain ⟨spans, split, bound⟩ := greedy n few cuts
      exact ⟨spans, split, Nat.le_antisymm bound (least (isCut spans split))⟩

end SmsGateway.Lib
