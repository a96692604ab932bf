import Cats.Codec.Json
import Cats.Python.Text
import Cats.Raised

/-!
# Inlining refs

`flatten_uri_dict` puts what each `{stem}_uri` slot of a value addresses under
its stem, some fetches deep and never twice on one path.
-/

namespace Cats

namespace FlattenRefs

/-- A slot: its stem, and its URI without the spaces around it. -/
structure Slot where
  stem : String
  uri : String
  deriving DecidableEq

/-- `f'{stem}_uri'`. -/
def Slot.key (slot : Slot) : String := slot.stem ++ "_uri"

/-- `f'{stem}_cid'`. -/
def Slot.cid (slot : Slot) : String := slot.stem ++ "_cid"

/-- The stem of a `{stem}_uri` key. -/
def stem? (key : String) : Option String :=
  if Text.endsWith key "_uri" then
    some (String.ofList (key.toList.take (key.toList.length - 4)))
  else none

/-- The slot a binding is, whatever its stem. -/
def slot? (key : String) (value : Json) : Option Slot :=
  match stem? key, value with
  | some stem, .str uri =>
      if Text.strip uri = "" then none else some ⟨stem, Text.strip uri⟩
  | _, _ => none

section

variable (allow : Option (List String))

/-- `allow is None or stem in allow`. -/
def allowed (stem : String) : Bool :=
  match allow with
  | none => true
  | some stems => stems.contains stem

/-- `uri_by_stem`. -/
def uriByStem (obj : Fields) : List Slot :=
  (obj.filterMap fun field => slot? field.1 field.2).filter fun slot =>
    allowed allow slot.stem

/-- A key that is not copied: it is in `skip` or in `uri_by_stem`. -/
def isSkipped (slots : List Slot) (key : String) : Bool :=
  slots.any fun slot => key = slot.key || key = slot.cid || key = slot.stem

/-- Walking a value, with the fetches made so far: each as the URIs from it out
to the first one it is nested in. -/
abbrev Walk (α : Type) : Type := Effect Raised (List (List String)) α

variable (fetch : String → String → Except Raised Json)

/-- `fetch(stem, uri)`, below the URIs gone through. -/
def fetchBelow (visited : List String) (slot : Slot) : Walk Json := do
  modify (· ++ [slot.uri :: visited])
  match fetch slot.stem slot.uri with
  | .ok payload => return payload
  | .error raised => throw raised

/-- The loop over the slots of a dict.  `inline` walks a payload, unless the
expansions are exhausted. -/
def expandSlots (inline : Option (List String → Json → Walk Json))
    (visited : List String) : List Slot → Fields → Walk Fields
  | [], out => return out
  | slot :: slots, out =>
      match inline with
      | none =>
          expandSlots inline visited slots (out.set slot.key (.str slot.uri))
      | some walk =>
          if slot.uri ∈ visited then
            expandSlots inline visited slots
              (out.set slot.key (.str slot.uri))
          else do
            let payload ← fetchBelow fetch visited slot
            let value ← walk (slot.uri :: visited) payload
            expandSlots inline visited slots (out.set slot.stem value)

mutual

/-- The body of `_flatten`; a value that is neither a dict nor a list stays as
it is. -/
def walk (inline : Option (List String → Json → Walk Json))
    (visited : List String) : Json → Walk Json
  | .arr items => do
      let walked ← walkItems inline visited items
      return .arr walked
  | .obj obj => do
      let slots := uriByStem allow obj
      let out ← walkFields inline visited slots obj
      let expanded ← expandSlots fetch inline visited slots out
      return .obj expanded
  | .null => return .null
  | .bool value => return .bool value
  | .int value => return .int value
  | .float text => return .float text
  | .str value => return .str value

def walkItems (inline : Option (List String → Json → Walk Json))
    (visited : List String) : List Json → Walk (List Json)
  | [] => return []
  | item :: items => do
      let walked ← walk inline visited item
      let rest ← walkItems inline visited items
      return walked :: rest

/-- The loop that copies the other keys of a dict, whose keys are distinct. -/
def walkFields (inline : Option (List String → Json → Walk Json))
    (visited : List String) (slots : List Slot) :
    List (String × Json) → Walk (List (String × Json))
  | [] => return []
  | (key, value) :: fields =>
      if isSkipped slots key then walkFields inline visited slots fields
      else do
        let walked ← walk inline visited value
        let rest ← walkFields inline visited slots fields
        return (key, walked) :: rest

end

/-- `_flatten(obj, fetch, max_depth=…, visited=…, allow=…)`. -/
def flatten : Nat → List String → Json → Walk Json
  | 0, visited, obj => walk allow fetch none visited obj
  | max_depth + 1, visited, obj =>
      walk allow fetch (some (flatten max_depth)) visited obj

/-- `flatten_uri_dict(obj, fetch, max_depth=…, stems=…)`. -/
def flatten_uri_dict (max_depth : Int) (obj : Json) : Walk Json :=
  flatten allow fetch max_depth.toNat [] obj

end

end FlattenRefs

end Cats
