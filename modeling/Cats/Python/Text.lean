import Cats.Codec.Hex
import Mathlib.Data.List.DropRight

/-!
# Text as the host language handles it

`strip` removes the characters `str.isspace` knows.  `lower` changes ASCII
letters only; no other character is lowered to one of the ASCII letters the
program compares with.
-/

namespace Cats

namespace Text

/-- The code points of `str.isspace`. -/
def spaces : List Nat :=
  [9, 10, 11, 12, 13, 28, 29, 30, 31, 32, 133, 160, 5760, 8192, 8193, 8194,
    8195, 8196, 8197, 8198, 8199, 8200, 8201, 8202, 8232, 8233, 8239, 8287,
    12288]

def isSpace (character : Char) : Bool := spaces.contains character.toNat

def stripChars (text : List Char) : List Char :=
  (text.dropWhile isSpace).rdropWhile isSpace

/-- `text.strip()`. -/
def strip (text : String) : String := String.ofList (stripChars text.toList)

/-- `text.lower()`. -/
def lower (text : String) : String :=
  String.ofList (text.toList.map Char.toLower)

/-- `text.startswith(start)`. -/
def startsWith (text start : String) : Bool :=
  start.toList.isPrefixOf text.toList

/-- `text.endswith(tail)`. -/
def endsWith (text tail : String) : Bool :=
  tail.toList.isSuffixOf text.toList

/-- `part in text`. -/
def occursIn (part text : List Char) : Bool :=
  match text with
  | [] => part.isEmpty
  | character :: rest =>
      part.isPrefixOf (character :: rest) || occursIn part rest

/-- `text.split(separator)`. -/
def splitOn (separator : Char) : List Char → List (List Char)
  | [] => [[]]
  | character :: rest =>
      if character = separator then [] :: splitOn separator rest
      else
        match splitOn separator rest with
        | [] => [[character]]
        | first :: others => (character :: first) :: others

/-- The text before and after the first separator, if there is one. -/
def partition? (separator : Char) (text : List Char) :
    Option (List Char × List Char) :=
  match text.dropWhile (· ≠ separator) with
  | [] => none
  | _ :: rest => some (text.takeWhile (· ≠ separator), rest)

/-- `repr(text)`, for text without unprintable characters past ASCII. -/
def repr (text : String) : String :=
  let quoteMark := if text.toList.contains '\'' && !text.toList.contains '"'
    then '"' else '\''
  let escape (character : Char) : List Char :=
    if character = '\\' || character = quoteMark then ['\\', character]
    else if character = '\n' then ['\\', 'n']
    else if character = '\r' then ['\\', 'r']
    else if character = '\t' then ['\\', 't']
    else if character.toNat < 32 || character.toNat = 127 then
      ['\\', 'x', Hex.digit (character.toNat / 16),
        Hex.digit (character.toNat % 16)]
    else [character]
  String.ofList (quoteMark :: (text.toList.flatMap escape ++ [quoteMark]))

/-- `text.rstrip('/')`. -/
def rstripSlash (text : String) : String :=
  String.ofList (text.toList.rdropWhile (· = '/'))

/-- `text.lstrip('/')`. -/
def lstripSlash (text : String) : String :=
  String.ofList (text.toList.dropWhile (· = '/'))

theorem startsWith_iff {text start : String} :
    startsWith text start = true ↔ start.toList <+: text.toList :=
  List.isPrefixOf_iff_prefix

theorem endsWith_iff {text tail : String} :
    endsWith text tail = true ↔ tail.toList <:+ text.toList :=
  List.isSuffixOf_iff_suffix

theorem occursIn_iff {part text : List Char} :
    occursIn part text = true ↔ part <:+: text := by
  induction text with
  | nil => simp [occursIn]
  | cons character text induction =>
      simp only [occursIn, Bool.or_eq_true, List.isPrefixOf_iff_prefix,
        induction, List.infix_cons_iff]

@[simp] theorem toList_strip (text : String) :
    (strip text).toList = stripChars text.toList := by
  simp [strip]

@[simp] theorem toList_lower (text : String) :
    (lower text).toList = text.toList.map Char.toLower := by
  simp [lower]

/-- Text that neither begins nor ends with a space is left alone. -/
theorem stripChars_eq_self {text : List Char}
    (head : ∀ character ∈ text.head?, isSpace character = false)
    (last : ∀ character ∈ text.getLast?, isSpace character = false) :
    stripChars text = text := by
  have front : text.dropWhile isSpace = text := by
    cases text with
    | nil => rfl
    | cons character text => simp [head character rfl]
  rw [stripChars, front]
  refine List.rdropWhile_eq_self_iff.mpr ?_
  intro nonempty
  simp [last (text.getLast nonempty) (List.getLast_mem_getLast? nonempty)]

theorem stripChars_of_visible {text : List Char}
    (visible : ∀ character ∈ text, isSpace character = false) :
    stripChars text = text :=
  stripChars_eq_self
    (fun character member => visible character (List.mem_of_mem_head? member))
    (fun character member =>
      visible character (List.mem_of_getLast? member))

theorem stripChars_head (text : List Char) :
    ∀ character ∈ (stripChars text).head?, isSpace character = false := by
  intro character member
  have origin : (stripChars text) <+: text.dropWhile isSpace :=
    List.rdropWhile_prefix isSpace _
  have nonempty : stripChars text ≠ [] := by
    rintro empty
    rw [empty] at member
    simp at member
  have sameHead : (stripChars text).head? = (text.dropWhile isSpace).head? := by
    obtain ⟨tail, whole⟩ := origin
    rw [← whole, List.head?_append_of_ne_nil _ nonempty]
  rw [sameHead] at member
  have stop := List.head?_dropWhile_not isSpace text
  rw [member] at stop
  simpa using stop

theorem stripChars_last (text : List Char) :
    ∀ character ∈ (stripChars text).getLast?, isSpace character = false := by
  intro character member
  have nonempty : stripChars text ≠ [] := by
    rintro empty
    rw [empty] at member
    simp at member
  have stop := List.rdropWhile_last_not isSpace (text.dropWhile isSpace) nonempty
  have same : (stripChars text).getLast nonempty = character := by
    rw [List.getLast?_eq_some_getLast nonempty] at member
    exact Option.some.inj member
  change ¬ isSpace ((stripChars text).getLast nonempty) = true at stop
  rw [same] at stop
  simpa using stop

@[simp] theorem strip_strip (text : String) : strip (strip text) = strip text := by
  apply String.toList_injective
  rw [toList_strip, toList_strip]
  exact stripChars_eq_self (stripChars_head text.toList)
    (stripChars_last text.toList)

theorem strip_eq_self {text : String}
    (visible : ∀ character ∈ text.toList, isSpace character = false) :
    strip text = text := by
  apply String.toList_injective
  rw [toList_strip]
  exact stripChars_of_visible visible

theorem mem_of_mem_strip {text : String} {character : Char}
    (member : character ∈ (strip text).toList) : character ∈ text.toList := by
  rw [toList_strip] at member
  exact (List.dropWhile_sublist _).subset
    ((List.rdropWhile_prefix isSpace _).subset member)

theorem isSpace_toLower {character : Char}
    (visible : isSpace character = false) :
    isSpace character.toLower = false := by
  delta Char.toLower
  split_ifs with upper
  · have above : 65 ≤ character.val.toNat := upper.1
    have below : character.val.toNat ≤ 90 := upper.2
    have offset : ('a'.val - 'A'.val).toNat = 32 := by decide
    rw [Bool.eq_false_iff]
    intro space
    simp only [isSpace, spaces, List.contains_eq_mem, List.mem_cons,
      List.not_mem_nil, or_false, decide_eq_true_eq, Char.toNat,
      UInt32.toNat_add, offset] at space
    omega
  · exact visible

theorem toLower_toLower (character : Char) :
    character.toLower.toLower = character.toLower := by
  delta Char.toLower
  split_ifs with upper again
  · have above : 65 ≤ character.val.toNat := upper.1
    have below : character.val.toNat ≤ 90 := upper.2
    have still : (character.val + ('a'.val - 'A'.val)).toNat ≤ 90 := again.2
    have offset : ('a'.val - 'A'.val).toNat = 32 := by decide
    rw [UInt32.toNat_add, offset] at still
    omega
  · rfl
  · rfl

theorem lower_lower (text : String) :
    lower (lower text) = lower text := by
  apply String.toList_injective
  rw [toList_lower, toList_lower, List.map_map]
  apply List.map_congr_left
  intro character _
  exact toLower_toLower character

/-- Lowering makes no colon. -/
theorem toLower_ne_colon {character : Char} (different : character ≠ ':') :
    character.toLower ≠ ':' := by
  intro equality
  unfold Char.toLower at equality
  split at equality
  · rename_i upper
    have value := congrArg (fun other : Char => other.val.toNat) equality
    have least : 65 ≤ character.val.toNat := UInt32.le_iff_toNat_le.mp upper.1
    have most : character.val.toNat ≤ 90 := UInt32.le_iff_toNat_le.mp upper.2
    have sum : (character.val + ('a'.val - 'A'.val)).toNat =
        (character.val.toNat + 32) % 4294967296 := UInt32.toNat_add ..
    have colon : (':' : Char).val.toNat = 58 := rfl
    simp only [sum, colon] at value
    omega
  · exact different equality

/-- Text without a colon does not begin with a scheme. -/
theorem startsWith_lower_of_noColon {text scheme : String}
    (noColon : ':' ∉ text.toList) (colon : ':' ∈ scheme.toList) :
    startsWith (lower (strip text)) scheme = false := by
  rw [Bool.eq_false_iff, ne_eq, startsWith_iff]
  intro starts
  have member := starts.subset colon
  rw [toList_lower, List.mem_map] at member
  obtain ⟨character, inside, same⟩ := member
  have different : character ≠ ':' := by
    rintro rfl
    exact noColon (mem_of_mem_strip inside)
  exact toLower_ne_colon different same

end Text

end Cats
