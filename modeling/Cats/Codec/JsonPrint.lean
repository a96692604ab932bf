import Cats.Codec.Json
import Cats.Codec.Utf8
import Mathlib.Data.Nat.Digits.Lemmas

/-!
# The text of a JSON value

`render` writes what the standard encoder writes with `ensure_ascii`: every
character outside printable ASCII is escaped, so the text is its own UTF-8.
A style fixes the blanks after separators and the indentation.
-/

namespace Cats

namespace Json

/-- The blanks JSON allows between tokens. -/
def isBlank (character : Char) : Bool :=
  character = ' ' || character = '\t' || character = '\n' || character = '\r'

/-- How a document is laid out; the layout may only add blanks. -/
structure Style where
  itemGap : List Char
  keyGap : List Char
  indent : Option Nat
  itemGap_blank : ∀ character ∈ itemGap, isBlank character = true
  keyGap_blank : ∀ character ∈ keyGap, isBlank character = true

namespace Style

/-- `json.dumps(value)`. -/
def standard : Style :=
  { itemGap := [' ']
    keyGap := [' ']
    indent := none
    itemGap_blank := List.all_eq_true.mp rfl
    keyGap_blank := List.all_eq_true.mp rfl }

/-- `json.dumps(value, indent=2)`. -/
def indented : Style :=
  { itemGap := []
    keyGap := [' ']
    indent := some 2
    itemGap_blank := List.all_eq_true.mp rfl
    keyGap_blank := List.all_eq_true.mp rfl }

/-- `json.dumps(value, separators=(",", ":"))`. -/
def compact : Style :=
  { itemGap := []
    keyGap := []
    indent := none
    itemGap_blank := List.all_eq_true.mp rfl
    keyGap_blank := List.all_eq_true.mp rfl }

/-- The line break before an item at this depth. -/
def newline (style : Style) (depth : Nat) : List Char :=
  match style.indent with
  | none => []
  | some width => '\n' :: List.replicate (width * depth) ' '

theorem newline_blank (style : Style) (depth : Nat) :
    ∀ character ∈ style.newline depth, isBlank character = true := by
  intro character member
  unfold newline at member
  cases layout : style.indent with
  | none => simp [layout] at member
  | some width =>
      simp only [layout, List.mem_cons, List.mem_replicate] at member
      rcases member with rfl | ⟨_, rfl⟩ <;> rfl

end Style

/-- Four lowercase hexadecimal digits. -/
def hexFour (value : Nat) : List Char :=
  [Hex.digit (value / 4096 % 16), Hex.digit (value / 256 % 16),
    Hex.digit (value / 16 % 16), Hex.digit (value % 16)]

/-- One character between the quotes of an `ensure_ascii` string. -/
def escapeChar (character : Char) : List Char :=
  if character = '"' then ['\\', '"']
  else if character = '\\' then ['\\', '\\']
  else if character = '\n' then ['\\', 'n']
  else if character = '\r' then ['\\', 'r']
  else if character = '\t' then ['\\', 't']
  else if character = '\x0c' then ['\\', 'f']
  else if character = '\x08' then ['\\', 'b']
  else if 32 ≤ character.toNat ∧ character.toNat ≤ 126 then [character]
  else if character.toNat < 65536 then '\\' :: 'u' :: hexFour character.toNat
  else
    '\\' :: 'u' :: hexFour (55296 + (character.toNat - 65536) / 1024 % 1024) ++
    '\\' :: 'u' :: hexFour (56320 + (character.toNat - 65536) % 1024)

def quote (value : String) : List Char :=
  '"' :: (value.toList.flatMap escapeChar ++ ['"'])

/-- `int.__repr__`. -/
def renderInt : Int → List Char
  | .ofNat value => Nat.toDigits 10 value
  | .negSucc value => '-' :: Nat.toDigits 10 (value + 1)

mutual

/-- The text of a value whose first line stands at `depth`. -/
def render (style : Style) (depth : Nat) : Json → List Char
  | .null => "null".toList
  | .bool true => "true".toList
  | .bool false => "false".toList
  | .int value => renderInt value
  | .float text => text
  | .str value => quote value
  | .arr [] => "[]".toList
  | .arr (item :: items) =>
      '[' :: (style.newline (depth + 1) ++
        (render style (depth + 1) item ++
          (renderItems style (depth + 1) items ++
            (style.newline depth ++ [']']))))
  | .obj [] => "{}".toList
  | .obj ((name, value) :: fields) =>
      '{' :: (style.newline (depth + 1) ++
        (quote name ++ ':' :: (style.keyGap ++
          (render style (depth + 1) value ++
            (renderFields style (depth + 1) fields ++
              (style.newline depth ++ ['}']))))))

def renderItems (style : Style) (depth : Nat) : List Json → List Char
  | [] => []
  | item :: items =>
      ',' :: (style.itemGap ++ (style.newline depth ++
        (render style depth item ++ renderItems style depth items)))

def renderFields (style : Style) (depth : Nat) :
    List (String × Json) → List Char
  | [] => []
  | (name, value) :: fields =>
      ',' :: (style.itemGap ++ (style.newline depth ++
        (quote name ++ ':' :: (style.keyGap ++
          (render style depth value ++ renderFields style depth fields)))))

end

/-- `json.dumps` in a style. -/
def dumps (style : Style) (value : Json) : List Char := render style 0 value

theorem hexFour_ascii (value : Nat) : Utf8.IsAscii (hexFour value) := by
  have digit : ∀ nibble < 16, (Hex.digit nibble).toNat < 128 := by decide
  intro character member
  simp only [hexFour, List.mem_cons, List.not_mem_nil, or_false] at member
  rcases member with rfl | rfl | rfl | rfl <;>
    exact digit _ (Nat.mod_lt _ (by omega))

theorem escapeChar_ascii (character : Char) :
    Utf8.IsAscii (escapeChar character) := by
  have pair : ∀ value,
      Utf8.IsAscii ('\\' :: 'u' :: hexFour value) := fun value =>
    Utf8.IsAscii.append
      (Utf8.IsAscii.of_all (show ['\\', 'u'].all _ = true by decide))
      (hexFour_ascii value)
  unfold escapeChar
  split_ifs
  all_goals first
    | exact pair _
    | exact (pair _).append (pair _)
    | exact Utf8.IsAscii.of_all (by decide)
    | (intro other member
       simp only [List.mem_singleton] at member
       subst member
       omega)

theorem quote_ascii (value : String) : Utf8.IsAscii (quote value) := by
  intro character member
  simp only [quote, List.mem_cons, List.mem_append, List.mem_flatMap,
    List.not_mem_nil, or_false] at member
  rcases member with rfl | ⟨source, _, escaped⟩ | rfl
  · decide
  · exact escapeChar_ascii source character escaped
  · decide

theorem renderInt_ascii (value : Int) : Utf8.IsAscii (renderInt value) := by
  have digits : ∀ count, Utf8.IsAscii (Nat.toDigits 10 count) := by
    intro count character member
    have digit := Nat.isDigit_of_mem_toDigits (by omega) (by omega) member
    simp only [Char.isDigit, Bool.and_eq_true, decide_eq_true_eq] at digit
    have upper : character.toNat ≤ '9'.toNat := digit.2
    have nine : '9'.toNat = 57 := rfl
    omega
  cases value with
  | ofNat value => exact digits value
  | negSucc value =>
      exact Utf8.IsAscii.append
        (Utf8.IsAscii.of_all (show ['-'].all _ = true by decide)) (digits (value + 1))

theorem isBlank_ascii {character : Char} (blank : isBlank character = true) :
    character.toNat < 128 := by
  simp only [isBlank, Bool.or_eq_true, decide_eq_true_eq] at blank
  rcases blank with ((rfl | rfl) | rfl) | rfl <;> decide

end Json

end Cats
