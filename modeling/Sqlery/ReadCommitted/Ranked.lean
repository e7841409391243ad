import Mathlib.Data.List.Nodup
import Mathlib.Data.List.Sort

/-!
# Rows in descending order

`ORDER BY .. DESC` by a rank that no two rows share.  A condition on the rows
and the order can be applied in either order, and the first rows are those
above which few others rank.
-/

namespace Sqlery.ReadCommitted

variable {α κ : Type} [LinearOrder κ]

def descending (rank : α → κ) (rows : List α) : List α :=
  rows.insertionSort fun left right => rank right ≤ rank left

variable {rank : α → κ} {rows : List α}

theorem perm_descending (rank : α → κ) (rows : List α) :
    (descending rank rows).Perm rows :=
  List.perm_insertionSort _ rows

@[simp] theorem mem_descending {row : α} :
    row ∈ descending rank rows ↔ row ∈ rows :=
  List.mem_insertionSort _

@[simp] theorem length_descending :
    (descending rank rows).length = rows.length :=
  List.length_insertionSort _ rows

/-- Each row ranks above all rows after it. -/
theorem pairwise_descending (distinct : (rows.map rank).Nodup) :
    (descending rank rows).Pairwise fun left right =>
      rank right < rank left := by
  have total : Std.Total fun left right : α => rank right ≤ rank left :=
    ⟨fun left right => le_total (rank right) (rank left)⟩
  have transitive : IsTrans α fun left right => rank right ≤ rank left :=
    ⟨fun _ _ _ first second => second.trans first⟩
  have sorted : (descending rank rows).Pairwise fun left right =>
      rank right ≤ rank left := List.pairwise_insertionSort _ rows
  have apart : (descending rank rows).Pairwise fun left right =>
      rank left ≠ rank right := by
    apply List.pairwise_map.mp
    exact ((perm_descending rank rows).map rank).nodup_iff.mpr distinct
  apply (sorted.and apart).imp
  intro left right both
  exact lt_of_le_of_ne both.1 fun same => both.2 same.symm

theorem descending_filter (distinct : (rows.map rank).Nodup)
    (keep : α → Bool) :
    descending rank (rows.filter keep) =
      (descending rank rows).filter keep := by
  have fewer : ((rows.filter keep).map rank).Nodup :=
    distinct.sublist (List.filter_sublist.map rank)
  have permuted : (descending rank (rows.filter keep)).Perm
      ((descending rank rows).filter keep) :=
    (perm_descending rank _).trans
      ((perm_descending rank rows).filter keep).symm
  apply List.Perm.eq_of_pairwise _ (pairwise_descending fewer) _ permuted
  · intro left right _ _ above below
    exact (lt_asymm above below).elim
  · exact (pairwise_descending distinct).sublist List.filter_sublist

/-- Of rows in strictly descending order, the first `count` are those with
fewer than `count` rows above them. -/
theorem mem_take_iff {sorted : List α} {row : α} (count : Nat)
    (strict : sorted.Pairwise fun left right => rank right < rank left)
    (member : row ∈ sorted) :
    row ∈ sorted.take count ↔
      (sorted.filter fun other => rank row < rank other).length < count := by
  induction sorted generalizing count with
  | nil => cases member
  | cons head tail induction =>
      obtain ⟨below, later⟩ := List.pairwise_cons.mp strict
      cases count with
      | zero => simp
      | succ count =>
          rcases List.mem_cons.mp member with isHead | inTail
          · subst isHead
            have none : (row :: tail).filter (fun other =>
                rank row < rank other) = [] := by
              apply List.filter_eq_nil_iff.mpr
              intro other among
              rcases List.mem_cons.mp among with same | after
              · simp [same]
              · simpa using (below other after).le
            simp [none]
          · have above := below row inTail
            have different : row ≠ head := by
              intro same
              exact above.ne (congrArg rank same)
            rw [List.take_succ_cons, List.mem_cons,
              List.filter_cons_of_pos (by simpa using above), List.length_cons,
              induction count later inTail]
            simp [different]

/-- The other rows are those with at least `count` rows above them. -/
theorem mem_drop_iff {sorted : List α} {row : α} (count : Nat)
    (strict : sorted.Pairwise fun left right => rank right < rank left)
    (member : row ∈ sorted) :
    row ∈ sorted.drop count ↔
      count ≤ (sorted.filter fun other => rank row < rank other).length := by
  have once : sorted.Nodup := strict.imp fun {left right} above same =>
    above.ne (congrArg rank same.symm)
  have newest := mem_take_iff count strict member
  constructor
  · intro dropped
    apply Nat.le_of_not_lt
    intro few
    exact List.disjoint_take_drop once le_rfl (newest.mpr few) dropped
  · intro many
    rw [← List.take_append_drop count sorted] at member
    rcases List.mem_append.mp member with taken | dropped
    · exact absurd many (Nat.not_le_of_lt (newest.mp taken))
    · exact dropped

/-- The rows around a window are those whose keys are not in it. -/
theorem filter_window {K : Type} [DecidableEq K] {key : α → K}
    {before window after : List α}
    (distinct : ((before ++ (window ++ after)).map key).Nodup) :
    (before ++ (window ++ after)).filter
        (fun row => key row ∉ window.map key) = before ++ after := by
  simp only [List.map_append] at distinct
  obtain ⟨_, ends, apart⟩ := List.nodup_append.mp distinct
  obtain ⟨_, _, following⟩ := List.nodup_append.mp ends
  have first : before.filter (fun row => key row ∉ window.map key) =
      before := by
    apply List.filter_eq_self.mpr
    intro row member
    have outside : key row ∉ window.map key := by
      intro inside
      exact apart (key row) (List.mem_map_of_mem member) (key row)
        (List.mem_append_left _ inside) rfl
    exact decide_eq_true outside
  have gone : window.filter (fun row => key row ∉ window.map key) = [] := by
    apply List.filter_eq_nil_iff.mpr
    intro row member kept
    exact of_decide_eq_true kept (List.mem_map_of_mem member)
  have last : after.filter (fun row => key row ∉ window.map key) = after := by
    apply List.filter_eq_self.mpr
    intro row member
    have outside : key row ∉ window.map key := by
      intro inside
      exact following (key row) inside (key row) (List.mem_map_of_mem member)
        rfl
    exact decide_eq_true outside
  rw [List.filter_append, List.filter_append, first, gone, last,
    List.nil_append]

end Sqlery.ReadCommitted
