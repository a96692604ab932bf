import Mathlib.Data.List.Sort
import Mathlib.Data.String.Basic

/-!
# Sorts and the order of what they are given

A sort whose order is antisymmetric on the items has one result, however the
items were listed.
-/

namespace Cats

section Sorting

variable {α : Type}

/-- A sort whose order is antisymmetric on the items forgets how they were
ordered. -/
theorem mergeSort_eq_of_perm {le : α → α → Bool} {left right : List α}
    (trans : ∀ first second third, le first second = true →
      le second third = true → le first third = true)
    (total : ∀ first second, (le first second || le second first) = true)
    (antisymm : ∀ first ∈ left, ∀ second ∈ left, le first second = true →
      le second first = true → first = second)
    (same : left.Perm right) : left.mergeSort le = right.mergeSort le := by
  have whole : (left.mergeSort le).Perm (right.mergeSort le) :=
    ((List.mergeSort_perm left le).trans same).trans
      (List.mergeSort_perm right le).symm
  apply whole.eq_of_pairwise _ (List.pairwise_mergeSort trans total left)
    (List.pairwise_mergeSort trans total right)
  intro first second here there low high
  apply antisymm first (List.mem_mergeSort.mp here) second _ low high
  exact same.mem_iff.mpr (List.mem_mergeSort.mp there)

/-- The items sorted by a text. -/
def sortedByText (key : α → String) (items : List α) : List α :=
  items.mergeSort fun left right => decide (key left ≤ key right)

section Texts

variable {key : α → String}

theorem sortedByText_perm (items : List α) :
    (sortedByText key items).Perm items :=
  List.mergeSort_perm items _

theorem pairwise_sortedByText (items : List α) :
    (sortedByText key items).Pairwise fun left right =>
      key left ≤ key right := by
  have sorted := @List.pairwise_mergeSort α
    (fun left right => decide (key left ≤ key right))
    (by
      intro first second third low high
      simp only [decide_eq_true_eq] at low high ⊢
      exact le_trans low high)
    (by
      intro first second
      simp only [Bool.or_eq_true, decide_eq_true_eq]
      exact le_total _ _) items
  apply List.Pairwise.imp _ sorted
  intro first second low
  exact of_decide_eq_true low

/-- A list in the order of distinct texts is the only one of its items. -/
theorem eq_of_pairwise_text {left right : List α}
    (distinct : Function.Injective key) (same : left.Perm right)
    (leftSorted : left.Pairwise fun first second => key first ≤ key second)
    (rightSorted : right.Pairwise fun first second => key first ≤ key second) :
    left = right := by
  apply same.eq_of_pairwise _ leftSorted rightSorted
  intro first second _ _ low high
  exact distinct (le_antisymm low high)

/-- Of the sorted items, those that are kept are sorted. -/
theorem filter_sortedByText {items listed : List α}
    (distinct : Function.Injective key) (keep : α → Bool)
    (same : listed.Perm (items.filter keep))
    (sorted : listed.Pairwise fun first second => key first ≤ key second) :
    (sortedByText key items).filter keep = listed := by
  apply eq_of_pairwise_text distinct _ _ sorted
  · exact ((sortedByText_perm items).filter keep).trans same.symm
  · exact (pairwise_sortedByText items).sublist List.filter_sublist

end Texts

end Sorting

end Cats
