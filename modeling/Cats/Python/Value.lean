import Cats.Codec.JsonPrint
import Cats.Raised

/-!
# Values of unknown shape

Documents read from disk or the network may be any JSON value.  These are the
operations the program applies to them without looking first, with what the
host language raises when the value has the wrong shape.
-/

namespace Cats

namespace Json

/-- `type(value).__name__`. -/
def typeName : Json → String
  | .null => "NoneType"
  | .bool _ => "bool"
  | .int _ => "int"
  | .float _ => "float"
  | .str _ => "str"
  | .arr _ => "list"
  | .obj _ => "dict"

mutual

/-- `repr(value)`. -/
def repr : Json → String
  | .null => "None"
  | .bool true => "True"
  | .bool false => "False"
  | .int value => String.ofList (renderInt value)
  | .float text =>
      if text = "NaN".toList then "nan"
      else if text = "Infinity".toList then "inf"
      else if text = "-Infinity".toList then "-inf"
      else String.ofList text
  | .str value => Text.repr value
  | .arr items => "[" ++ String.intercalate ", " (reprItems items) ++ "]"
  | .obj fields => "\x7b" ++ String.intercalate ", " (reprFields fields) ++ "\x7d"

def reprItems : List Json → List String
  | [] => []
  | item :: items => repr item :: reprItems items

def reprFields : List (String × Json) → List String
  | [] => []
  | (name, value) :: fields =>
      (Text.repr name ++ ": " ++ repr value) :: reprFields fields

end

/-- `str(value)`. -/
def toStr : Json → String
  | .str value => value
  | other => repr other

/-- `value.get(key)`. -/
def getKey (value : Json) (key : String) : Except Raised (Option Json) :=
  match value with
  | .obj fields => .ok (Fields.get? fields key)
  | other => .error ⟨.attributeError,
      s!"'{typeName other}' object has no attribute 'get'"⟩

/-- `value[key]`. -/
def item (value : Json) (key : String) : Except Raised Json :=
  match value with
  | .obj fields =>
      match Fields.get? fields key with
      | some found => .ok found
      | none => .error ⟨.keyError, Text.repr key⟩
  | .arr _ => .error ⟨.typeError,
      "list indices must be integers or slices, not str"⟩
  | .str _ => .error ⟨.typeError, "string indices must be integers, not 'str'"⟩
  | other => .error ⟨.typeError,
      s!"'{typeName other}' object is not subscriptable"⟩

/-- The bindings, where the program goes on to call `get`. -/
def mapping : Json → Except Raised Fields
  | .obj fields => .ok fields
  | other => .error ⟨.attributeError,
      s!"'{typeName other}' object has no attribute 'get'"⟩

/-- `value[key] = item`. -/
def setItem (value : Json) (key : String) (item : Json) : Except Raised Json :=
  match value with
  | .obj fields => .ok (.obj (Fields.set fields key item))
  | .arr _ => .error ⟨.typeError,
      "list indices must be integers or slices, not str"⟩
  | other => .error ⟨.typeError,
      s!"'{typeName other}' object does not support item assignment"⟩

/-- A component for `os.path.join`. -/
def pathText : Json → Except Raised String
  | .str text => .ok text
  | other => .error ⟨.typeError, "join() argument must be str, bytes, or " ++
      s!"os.PathLike object, not '{typeName other}'"⟩

/-- The items `for … in value` visits. -/
def iterate : Json → Except Raised (List Json)
  | .arr items => .ok items
  | .obj fields => .ok (fields.map fun field => .str field.1)
  | .str value => .ok (value.toList.map fun character =>
      .str (String.ofList [character]))
  | other => .error ⟨.typeError,
      s!"'{typeName other}' object is not iterable"⟩

end Json

end Cats
