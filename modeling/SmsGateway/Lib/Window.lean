import Mathlib.Data.List.Perm.Lattice

/-! A window of bounded size that keeps the records with the least keys of those seen. -/

namespace SmsGateway.Lib

variable {ρ : Type} {key : ρ → Nat} {size : Nat} {seen kept : List ρ}

/-- The window holds as many of the records seen as it can, and no record that it
left out has a smaller key than one it holds. -/
structure Window (key : ρ → Nat) (size : Nat) (seen kept : List ρ) : Prop where
  length : kept.length = min size seen.length
  least : ∃ omitted, (kept ++ omitted).Perm seen ∧
    ∀ record ∈ kept, ∀ other ∈ omitted, key record ≤ key other

namespace Window

theorem nil : Window key size [] [] := ⟨by simp, [], .refl _, nofun⟩

/-- While there is room, every record is kept. -/
theorem add (window : Window key size seen kept) (room : kept.length < size) (record : ρ) :
    Window key size (seen ++ [record]) (kept ++ [record]) := by
  obtain ⟨length, omitted, perm, least⟩ := window
  have total := perm.length_eq
  rw [List.length_append] at total
  have none : omitted = [] := List.length_eq_zero_iff.mp (by omega)
  subst none
  rw [List.append_nil] at perm
  refine ⟨?_, [], ?_, nofun⟩
  · simp only [List.length_append, List.length_singleton]
    omega
  · rw [List.append_nil]
    exact perm.append_right [record]

/-- A record that is not smaller than the ones held is left out of a full window. -/
theorem skip (window : Window key size seen kept) (full : size ≤ kept.length) {record : ρ}
    (larger : ∀ other ∈ kept, key other ≤ key record) :
    Window key size (seen ++ [record]) kept := by
  obtain ⟨length, omitted, perm, least⟩ := window
  refine ⟨?_, omitted ++ [record], ?_, ?_⟩
  · simp only [List.length_append, List.length_singleton]
    omega
  · rw [← List.append_assoc]
    exact perm.append_right [record]
  · intro other member left omittedLeft
    rcases List.mem_append.mp omittedLeft with old | new
    · exact least other member left old
    · rw [List.mem_singleton.mp new]
      exact larger other member

/-- A smaller record takes the place of the one with the highest key. -/
theorem replace (window : Window key size seen kept) (full : size ≤ kept.length) {record : ρ}
    {i : Nat} (inside : i < kept.length) (highest : ∀ other ∈ kept, key other ≤ key kept[i])
    (smaller : key record < key kept[i]) :
    Window key size (seen ++ [record]) (kept.set i record) := by
  obtain ⟨length, omitted, perm, least⟩ := window
  have split : kept = kept.take i ++ kept[i] :: kept.drop (i + 1) := by
    rw [List.getElem_cons_drop, List.take_append_drop]
  have written : kept.set i record = kept.take i ++ record :: kept.drop (i + 1) := by
    rw [List.set_eq_take_append_cons_drop, if_pos inside]
  have others : ∀ other, other ∈ kept.take i ∨ other ∈ kept.drop (i + 1) → other ∈ kept := by
    rintro other (early | late)
    · exact List.mem_of_mem_take early
    · exact List.mem_of_mem_drop late
  refine ⟨?_, kept[i] :: omitted, ?_, ?_⟩
  · simp only [List.length_set, List.length_append, List.length_singleton]
    omega
  · have moved : (kept.set i record).Perm (record :: (kept.take i ++ kept.drop (i + 1))) := by
      rw [written]
      exact List.perm_middle
    have original : kept.Perm (kept[i] :: (kept.take i ++ kept.drop (i + 1))) := by
      nth_rewrite 1 [split]
      exact List.perm_middle
    calc
      List.Perm (kept.set i record ++ kept[i] :: omitted)
          (kept[i] :: (kept.set i record ++ omitted)) := List.perm_middle
      List.Perm _ (kept[i] :: (record :: (kept.take i ++ kept.drop (i + 1)) ++ omitted)) :=
        (moved.append_right omitted).cons _
      List.Perm _ (record :: (kept[i] :: (kept.take i ++ kept.drop (i + 1)) ++ omitted)) :=
        .swap _ _ _
      List.Perm _ (record :: (kept ++ omitted)) := (original.symm.append_right omitted).cons _
      List.Perm _ (record :: seen) := perm.cons _
      List.Perm _ (seen ++ [record]) := (List.perm_append_singleton record seen).symm
  · have bound : ∀ other ∈ kept.set i record, key other ≤ key kept[i] := by
      intro other member
      rw [written, List.mem_append, List.mem_cons] at member
      rcases member with early | rfl | late
      · exact highest other (others other (.inl early))
      · exact Nat.le_of_lt smaller
      · exact highest other (others other (.inr late))
    intro other member left omittedLeft
    rcases List.mem_cons.mp omittedLeft with rfl | old
    · exact bound other member
    · exact Nat.le_trans (bound other member) (least _ (List.getElem_mem inside) left old)

/-- The order of the window does not matter. -/
theorem perm (window : Window key size seen kept) {other : List ρ} (same : other.Perm kept) :
    Window key size seen other := by
  obtain ⟨length, omitted, perm, least⟩ := window
  refine ⟨same.length_eq.trans length, omitted, (same.append_right omitted).trans perm, ?_⟩
  intro record member
  exact least record (same.mem_iff.mp member)

end Window

end SmsGateway.Lib
