import Cats.Codec.JsonRoundTrip

/-!
# Sorted documents

Writing a dict with sorted keys keeps what a lookup reads.  Assigning and
dropping bindings keeps a document one that can be written and read back.
-/

namespace Cats

namespace Json

theorem get?_insertField {name : String} (value : Json) {fields : Fields}
    (fresh : name ∉ fields.keys) (key : String) :
    Fields.get? (insertField (name, value) fields) key =
      if name = key then some value else Fields.get? fields key := by
  induction fields with
  | nil => rfl
  | cons field rest induction =>
      obtain ⟨other, old⟩ := field
      simp only [Fields.keys, List.map_cons, List.mem_cons, not_or] at fresh
      by_cases before : name ≤ other
      · rw [insertField, if_pos before, Fields.get?_cons]
      · rw [insertField, if_neg before, Fields.get?_cons, induction fresh.2,
          Fields.get?_cons]
        by_cases same : other = key
        · have apart : name ≠ key := fun equality =>
            fresh.1 (equality.trans same.symm)
          rw [if_pos same, if_neg apart, if_pos same]
        · rw [if_neg same, if_neg same]

/-- Sorting moves no binding to another key. -/
theorem get?_sortKeysFields {fields : Fields} (nodup : fields.keys.Nodup)
    (key : String) :
    Fields.get? (sortKeysFields fields) key =
      (Fields.get? fields key).map sortKeys := by
  induction fields with
  | nil => rfl
  | cons field rest induction =>
      obtain ⟨name, value⟩ := field
      obtain ⟨fresh, later⟩ := List.nodup_cons.mp nodup
      have absent : name ∉ Fields.keys (sortKeysFields rest) := fun member =>
        fresh ((sortKeysFields_keys_perm rest).mem_iff.mp member)
      rw [sortKeysFields, get?_insertField (sortKeys value) absent,
        induction later, Fields.get?_cons]
      by_cases same : name = key
      · rw [if_pos same, if_pos same, Option.map_some]
      · rw [if_neg same, if_neg same]

theorem wellFormedFields_iff {fields : Fields} :
    wellFormedFields fields = true ↔
      ∀ field ∈ fields, wellFormed field.2 = true := by
  induction fields with
  | nil => simp [wellFormedFields]
  | cons field rest induction =>
      obtain ⟨name, value⟩ := field
      simp [wellFormedFields, induction]

theorem wellFormed_obj_iff {fields : Fields} :
    wellFormed (.obj fields) = true ↔
      fields.keys.Nodup ∧ ∀ field ∈ fields, wellFormed field.2 = true := by
  simp [wellFormed, Fields.keys, wellFormedFields_iff]

mutual

/-- Sorting the keys keeps a value writable. -/
theorem wellFormed_sortKeys :
    ∀ value : Json, wellFormed value = true → wellFormed value.sortKeys = true
  | .null, valid => valid
  | .bool _, valid => valid
  | .int _, valid => valid
  | .float _, valid => valid
  | .str _, valid => valid
  | .arr items, valid => by
      rw [sortKeys]
      exact wellFormed_sortKeysItems items valid
  | .obj fields, valid => by
      obtain ⟨nodup, values⟩ := wellFormed_obj_iff.mp valid
      rw [sortKeys, wellFormed_obj_iff]
      exact ⟨(sortKeysFields_keys_perm fields).nodup_iff.mpr nodup,
        wellFormed_sortKeysFields fields values⟩

theorem wellFormed_sortKeysItems :
    ∀ items : List Json, wellFormedItems items = true →
      wellFormedItems (sortKeysItems items) = true
  | [], valid => valid
  | item :: items, valid => by
      simp only [wellFormedItems, Bool.and_eq_true] at valid
      simp only [sortKeysItems, wellFormedItems, Bool.and_eq_true]
      exact ⟨wellFormed_sortKeys item valid.1,
        wellFormed_sortKeysItems items valid.2⟩

theorem wellFormed_sortKeysFields :
    ∀ fields : List (String × Json),
      (∀ field ∈ fields, wellFormed field.2 = true) →
      ∀ field ∈ sortKeysFields fields, wellFormed field.2 = true
  | [], _ => by simp [sortKeysFields]
  | (name, value) :: rest, values => by
      intro field member
      rw [sortKeysFields] at member
      rcases List.mem_cons.mp ((insertField_perm _ _).mem_iff.mp member) with
        here | later
      · rw [here]
        exact wellFormed_sortKeys value (values (name, value) (by simp))
      · exact wellFormed_sortKeysFields rest
          (fun other found => values other (List.mem_cons_of_mem _ found))
          field later

end

theorem wellFormed_set {fields : Fields} (valid : wellFormed (.obj fields) = true)
    (key : String) {value : Json} (writable : wellFormed value = true) :
    wellFormed (.obj (fields.set key value)) = true := by
  obtain ⟨nodup, values⟩ := wellFormed_obj_iff.mp valid
  rw [wellFormed_obj_iff]
  constructor
  · exact Fields.nodup_keys_set key value nodup
  · clear nodup valid
    induction fields with
    | nil =>
        intro field member
        rw [Fields.set, List.mem_singleton] at member
        rw [member]
        exact writable
    | cons field rest induction =>
        obtain ⟨name, old⟩ := field
        intro found member
        rw [Fields.set] at member
        split_ifs at member with same
        · rcases List.mem_cons.mp member with here | later
          · rw [here]
            exact writable
          · exact values found (List.mem_cons_of_mem _ later)
        · rcases List.mem_cons.mp member with here | later
          · rw [here]
            exact values (name, old) (by simp)
          · exact induction (fun other later =>
              values other (List.mem_cons_of_mem _ later)) found later

theorem wellFormed_erase {fields : Fields}
    (valid : wellFormed (.obj fields) = true) (key : String) :
    wellFormed (.obj (fields.erase key)) = true := by
  obtain ⟨nodup, values⟩ := wellFormed_obj_iff.mp valid
  rw [wellFormed_obj_iff]
  constructor
  · exact List.Nodup.sublist (List.filter_sublist.map Prod.fst) nodup
  · intro field member
    exact values field (List.mem_of_mem_filter member)

section Canonical

/-- Sorting permutes the bindings and sorts their values. -/
theorem sortKeysFields_perm (fields : Fields) :
    (sortKeysFields fields).Perm
      (fields.map fun field => (field.1, sortKeys field.2)) := by
  induction fields with
  | nil => exact List.Perm.refl _
  | cons field rest induction =>
      obtain ⟨name, value⟩ := field
      exact (insertField_perm _ _).trans (List.Perm.cons _ induction)

theorem pairwise_insertField {field : String × Json} {fields : Fields}
    (sorted : fields.Pairwise fun left right => left.1 ≤ right.1) :
    (insertField field fields).Pairwise fun left right =>
      left.1 ≤ right.1 := by
  induction fields with
  | nil => exact List.pairwise_singleton _ _
  | cons other rest induction =>
      obtain ⟨first, later⟩ := List.pairwise_cons.mp sorted
      rw [insertField]
      split_ifs with before
      · rw [List.pairwise_cons]
        refine ⟨?_, sorted⟩
        intro entry member
        rcases List.mem_cons.mp member with here | deeper
        · rw [here]
          exact before
        · exact le_trans before (first entry deeper)
      · rw [List.pairwise_cons]
        refine ⟨?_, induction later⟩
        intro entry member
        rcases List.mem_cons.mp
          ((insertField_perm field rest).mem_iff.mp member) with here | deeper
        · rw [here]
          exact le_of_not_ge before
        · exact first entry deeper

theorem pairwise_sortKeysFields (fields : Fields) :
    (sortKeysFields fields).Pairwise fun left right => left.1 ≤ right.1 := by
  induction fields with
  | nil => exact List.Pairwise.nil
  | cons field rest induction =>
      obtain ⟨name, value⟩ := field
      exact pairwise_insertField induction

/-- Sorted bindings do not depend on their order before. -/
theorem sortKeysFields_eq_of_perm {left right : Fields}
    (nodup : left.keys.Nodup) (same : left.Perm right) :
    sortKeysFields left = sortKeysFields right := by
  have whole : (sortKeysFields left).Perm (sortKeysFields right) :=
    ((sortKeysFields_perm left).trans (same.map _)).trans
      (sortKeysFields_perm right).symm
  have distinct : ((sortKeysFields left).map Prod.fst).Nodup :=
    (sortKeysFields_keys_perm left).nodup_iff.mpr nodup
  apply whole.eq_of_pairwise _ (pairwise_sortKeysFields left)
    (pairwise_sortKeysFields right)
  intro first second here there low high
  exact List.inj_on_of_nodup_map distinct here (whole.mem_iff.mpr there)
    (le_antisymm low high)

end Canonical

end Json

end Cats
