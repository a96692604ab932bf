import Mathlib.Data.List.Sort
import Mathlib.Data.String.Basic
import Mathlib.Order.Lattice

/-!
# JSON values as a Python program holds them

Objects are association lists in insertion order: reading a key takes the
first binding, assignment overwrites in place or appends, deletion drops the
binding.  A float is carried as the text its `repr` writes, which is also the
text it is read back from.  Strings hold Unicode scalar values.
-/

namespace Cats

inductive Json where
  | null
  | bool (value : Bool)
  | int (value : Int)
  | float (text : List Char)
  | str (value : String)
  | arr (items : List Json)
  | obj (fields : List (String × Json))
  deriving Repr

/-- The bindings of a dict. -/
abbrev Fields := List (String × Json)

namespace Fields

/-- `dict.get(key)`. -/
def get? (fields : Fields) (key : String) : Option Json :=
  match fields with
  | [] => none
  | (name, value) :: rest => if name = key then some value else get? rest key

/-- `dict[key] = value`. -/
def set (fields : Fields) (key : String) (value : Json) : Fields :=
  match fields with
  | [] => [(key, value)]
  | (name, old) :: rest =>
      if name = key then (key, value) :: rest
      else (name, old) :: set rest key value

/-- `dict.pop(key, None)`. -/
def erase (fields : Fields) (key : String) : Fields :=
  fields.filter fun field => field.1 ≠ key

def keys (fields : Fields) : List String := fields.map Prod.fst

@[simp] theorem get?_nil (key : String) : get? [] key = none := rfl

@[simp] theorem get?_cons (name key : String) (value : Json)
    (rest : Fields) :
    get? ((name, value) :: rest) key =
      if name = key then some value else get? rest key := rfl

@[simp] theorem get?_set_self (fields : Fields) (key : String) (value : Json) :
    (fields.set key value).get? key = some value := by
  induction fields with
  | nil => simp [set]
  | cons field rest induction =>
      obtain ⟨name, old⟩ := field
      by_cases same : name = key
      · simp [set, same]
      · simp [set, same, induction]

@[simp] theorem get?_set_of_ne (fields : Fields) {key other : String}
    (different : key ≠ other) (value : Json) :
    (fields.set key value).get? other = fields.get? other := by
  induction fields with
  | nil => simp [set, different]
  | cons field rest induction =>
      obtain ⟨name, old⟩ := field
      by_cases same : name = key
      · subst name
        simp [set, different]
      · by_cases found : name = other
        · subst other
          simp [set, same]
        · simp [set, same, found, induction]

@[simp] theorem get?_erase_self (fields : Fields) (key : String) :
    (fields.erase key).get? key = none := by
  induction fields with
  | nil => rfl
  | cons field rest induction =>
      obtain ⟨name, value⟩ := field
      by_cases same : name = key
      · simpa [erase, same] using induction
      · simpa [erase, same] using induction

@[simp] theorem get?_erase_of_ne (fields : Fields) {key other : String}
    (different : key ≠ other) :
    (fields.erase key).get? other = fields.get? other := by
  induction fields with
  | nil => rfl
  | cons field rest induction =>
      obtain ⟨name, value⟩ := field
      by_cases same : name = key
      · have skipped : name ≠ other := fun equality =>
          different (same.symm.trans equality)
        simpa [erase, same, different] using induction
      · by_cases found : name = other
        · subst other
          simp [erase, same]
        · simpa [erase, same, found] using induction

theorem get?_eq_none_iff {fields : Fields} {key : String} :
    fields.get? key = none ↔ key ∉ fields.keys := by
  induction fields with
  | nil => simp [keys]
  | cons field rest induction =>
      obtain ⟨name, value⟩ := field
      by_cases same : name = key
      · simp [same, keys]
      · have reverse : key ≠ name := Ne.symm same
        simpa [same, keys, reverse] using induction

@[simp] theorem erase_erase (fields : Fields) (key : String) :
    (fields.erase key).erase key = fields.erase key := by
  simp [erase]

@[simp] theorem erase_set_self (fields : Fields) (key : String)
    (value : Json) : (fields.set key value).erase key = fields.erase key := by
  induction fields with
  | nil => simp [set, erase]
  | cons field rest induction =>
      obtain ⟨name, old⟩ := field
      by_cases same : name = key
      · simp [set, same, erase]
      · simpa [set, same, erase] using induction

/-- Assigning what a lookup reads changes nothing. -/
theorem set_of_get? {fields : Fields} {key : String} {value : Json}
    (found : fields.get? key = some value) : fields.set key value = fields := by
  induction fields with
  | nil => simp at found
  | cons field rest induction =>
      obtain ⟨name, old⟩ := field
      rw [get?_cons] at found
      by_cases same : name = key
      · rw [if_pos same] at found
        obtain rfl := Option.some.inj found
        rw [set, if_pos same, same]
      · rw [if_neg same] at found
        rw [set, if_neg same, induction found]

theorem erase_of_notMem {fields : Fields} {key : String}
    (absent : key ∉ fields.keys) : fields.erase key = fields := by
  apply List.filter_eq_self.mpr
  intro field member
  have different : field.1 ≠ key := fun equality =>
    absent (equality ▸ List.mem_map_of_mem member)
  simpa using different

/-- Appending a binding whose key is new. -/
theorem set_of_notMem {fields : Fields} {key : String} {value : Json}
    (fresh : key ∉ fields.keys) :
    fields.set key value = fields ++ [(key, value)] := by
  induction fields with
  | nil => rfl
  | cons field rest induction =>
      obtain ⟨name, old⟩ := field
      simp only [keys, List.map_cons, List.mem_cons, not_or] at fresh
      have different : name ≠ key := Ne.symm fresh.1
      simp only [set, if_neg different, List.cons_append]
      rw [induction fresh.2]

theorem nodup_keys_set {fields : Fields} (key : String) (value : Json)
    (nodup : fields.keys.Nodup) : (fields.set key value).keys.Nodup := by
  by_cases member : key ∈ fields.keys
  · have sameKeys : (fields.set key value).keys = fields.keys := by
      clear nodup
      induction fields with
      | nil => simp [keys] at member
      | cons field rest induction =>
          obtain ⟨name, old⟩ := field
          by_cases same : name = key
          · simp [set, same, keys]
          · have later : key ∈ keys rest := by
              have reverse : key ≠ name := Ne.symm same
              simpa [keys, reverse] using member
            simpa [set, same, keys] using induction later
    rw [sameKeys]
    exact nodup
  · rw [set_of_notMem member]
    have shape : keys (fields ++ [(key, value)]) = keys fields ++ [key] := by
      simp [keys]
    rw [shape, List.nodup_append]
    refine ⟨nodup, by simp, ?_⟩
    intro left leftMember right rightMember
    simp only [List.mem_singleton] at rightMember
    subst right
    intro equality
    exact member (equality ▸ leftMember)

theorem get?_of_mem {obj : Fields} (distinct : obj.keys.Nodup) {key : String}
    {value : Json} (member : (key, value) ∈ obj) :
    obj.get? key = some value := by
  induction obj with
  | nil => cases member
  | cons field obj induction =>
      obtain ⟨name, first⟩ := field
      rw [keys, List.map_cons, List.nodup_cons] at distinct
      rw [get?_cons]
      rcases List.mem_cons.mp member with here | later
      · cases here
        rw [if_pos rfl]
      · rw [if_neg]
        · exact induction distinct.2 later
        · intro same
          apply distinct.1
          rw [same]
          exact List.mem_map.mpr ⟨_, later, rfl⟩

theorem mem_of_get? {obj : Fields} {key : String} {value : Json}
    (found : obj.get? key = some value) : (key, value) ∈ obj := by
  induction obj with
  | nil => cases found
  | cons field obj induction =>
      obtain ⟨name, first⟩ := field
      rw [get?_cons] at found
      split_ifs at found with same
      · cases found
        rw [same]
        exact List.mem_cons_self
      · exact List.mem_cons_of_mem _ (induction found)

theorem mem_keys_of_get? {obj : Fields} {key : String} {value : Json}
    (found : obj.get? key = some value) : key ∈ obj.keys :=
  List.mem_map_of_mem (mem_of_get? found)

theorem exists_get?_of_mem_keys {obj : Fields} {key : String}
    (member : key ∈ obj.keys) : ∃ value, obj.get? key = some value := by
  cases found : obj.get? key with
  | none => exact absurd member (get?_eq_none_iff.mp found)
  | some value => exact ⟨value, rfl⟩

end Fields

namespace Json

/-- The bindings of a value that is a dict. -/
def fields? : Json → Option Fields
  | .obj fields => some fields
  | _ => none

/-- `value.get(key)` on a dict; nothing else has the key. -/
def get? (value : Json) (key : String) : Option Json :=
  value.fields?.bind (·.get? key)

@[simp] theorem get?_obj (fields : Fields) (key : String) :
    (Json.obj fields).get? key = fields.get? key := rfl

/-- `bool(value)`. -/
def truthy : Json → Bool
  | .null => false
  | .bool value => value
  | .int value => value ≠ 0
  | .float text => text ≠ "0.0".toList && text ≠ "-0.0".toList
  | .str value => value ≠ ""
  | .arr items => !items.isEmpty
  | .obj fields => !fields.isEmpty

mutual

def decEq : Json → Json → Bool
  | .null, .null => true
  | .bool left, .bool right => left == right
  | .int left, .int right => left == right
  | .float left, .float right => left == right
  | .str left, .str right => left == right
  | .arr left, .arr right => decEqItems left right
  | .obj left, .obj right => decEqFields left right
  | _, _ => false

def decEqItems : List Json → List Json → Bool
  | [], [] => true
  | left :: lefts, right :: rights =>
      decEq left right && decEqItems lefts rights
  | _, _ => false

def decEqFields : List (String × Json) → List (String × Json) → Bool
  | [], [] => true
  | (leftName, left) :: lefts, (rightName, right) :: rights =>
      leftName == rightName && decEq left right && decEqFields lefts rights
  | _, _ => false

end

mutual

theorem decEq_iff : ∀ left right : Json, decEq left right = true ↔ left = right
  | .null, right => by cases right <;> simp [decEq]
  | .bool _, right => by cases right <;> simp [decEq]
  | .int _, right => by cases right <;> simp [decEq]
  | .float _, right => by cases right <;> simp [decEq]
  | .str _, right => by cases right <;> simp [decEq]
  | .arr items, right => by cases right <;> simp [decEq, decEqItems_iff items]
  | .obj fields, right => by
      cases right <;> simp [decEq, decEqFields_iff fields]

theorem decEqItems_iff :
    ∀ left right : List Json, decEqItems left right = true ↔ left = right
  | [], right => by cases right <;> simp [decEqItems]
  | item :: items, right => by
      cases right <;> simp [decEqItems, decEq_iff item, decEqItems_iff items]

theorem decEqFields_iff :
    ∀ left right : List (String × Json),
      decEqFields left right = true ↔ left = right
  | [], right => by cases right <;> simp [decEqFields]
  | (name, value) :: rest, [] => by simp [decEqFields]
  | (name, value) :: rest, (other, right) :: rights => by
      simp [decEqFields, decEq_iff value, decEqFields_iff rest]

end

instance : DecidableEq Json := fun left right =>
  decidable_of_iff (decEq left right = true) (decEq_iff left right)

/-- Insert a binding before the first one with a larger key. -/
def insertField (field : String × Json) : Fields → Fields
  | [] => [field]
  | other :: rest =>
      if field.1 ≤ other.1 then field :: other :: rest
      else other :: insertField field rest

mutual

/-- The value `json.dumps(…, sort_keys=True)` writes. -/
def sortKeys : Json → Json
  | .arr items => .arr (sortKeysItems items)
  | .obj fields => .obj (sortKeysFields fields)
  | other => other

def sortKeysItems : List Json → List Json
  | [] => []
  | item :: items => sortKeys item :: sortKeysItems items

def sortKeysFields : List (String × Json) → List (String × Json)
  | [] => []
  | (name, value) :: rest => insertField (name, sortKeys value)
      (sortKeysFields rest)

end

theorem insertField_perm (field : String × Json) (fields : Fields) :
    (insertField field fields).Perm (field :: fields) := by
  induction fields with
  | nil => exact List.Perm.refl _
  | cons other rest induction =>
      by_cases before : field.1 ≤ other.1
      · simp [insertField, before]
      · simp only [insertField, if_neg before]
        exact (List.Perm.cons other induction).trans
          (List.Perm.swap field other rest)

theorem sortKeysFields_keys_perm (fields : Fields) :
    (Fields.keys (sortKeysFields fields)).Perm fields.keys := by
  induction fields with
  | nil => exact List.Perm.refl _
  | cons field rest induction =>
      obtain ⟨name, value⟩ := field
      have inserted := (insertField_perm (name, sortKeys value)
        (sortKeysFields rest)).map Prod.fst
      exact inserted.trans (List.Perm.cons name induction)

theorem sortKeysFields_eq_nil_iff (fields : Fields) :
    sortKeysFields fields = [] ↔ fields = [] := by
  have permutation := sortKeysFields_keys_perm fields
  constructor
  · intro empty
    rw [empty] at permutation
    have noKeys : fields.keys = [] := by simpa [Fields.keys] using permutation
    simpa [Fields.keys] using noKeys
  · rintro rfl
    rfl

end Json

end Cats
