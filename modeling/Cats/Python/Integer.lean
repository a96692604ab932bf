import Cats.Posix.Path

/-!
# Whole numbers in text

`int(text)` takes a sign, digits of any script and single underscores between
them.  It strips what `str.isspace` knows but the four separator controls.
-/

namespace Cats

namespace Text

/-- The zeros of the decimal digits beyond ASCII; nine digits follow each. -/
def scriptZeros : List Nat :=
  [1632, 1776, 1984, 2406, 2534, 2662, 2790, 2918, 3046, 3174, 3302, 3430,
    3558, 3664, 3792, 3872, 4160, 4240, 6112, 6160, 6470, 6608, 6784, 6800,
    6992, 7088, 7232, 7248, 42528, 43216, 43264, 43472, 43504, 43600, 44016,
    65296, 66720, 68912, 69734, 69872, 69942, 70096, 70384, 70736, 70864,
    71248, 71360, 71472, 71904, 72016, 72784, 73040, 73120, 92768, 92864,
    93008, 120782, 120792, 120802, 120812, 120822, 123200, 123632, 125264,
    130032]

def decimal? (character : Char) : Option Nat :=
  ((48 :: scriptZeros).find? fun start =>
    decide (start ≤ character.toNat ∧ character.toNat < start + 10)).map
      fun start => character.toNat - start

def isIntSpace (character : Char) : Bool :=
  isSpace character && !(28 ≤ character.toNat && character.toNat ≤ 31)

/-- `sys.get_int_max_str_digits()`. -/
def maxStrDigits : Nat := 4300

def fromDigits (digits : List Nat) : Nat :=
  digits.foldl (fun value digit => 10 * value + digit) 0

/-- The digits, where no underscore stands at an end or beside another. -/
def magnitude? (text : List Char) : Option Nat :=
  let groups := splitOn '_' text
  if groups.any List.isEmpty then none
  else
    match groups.flatten.mapM decimal? with
    | none => none
    | some digits =>
        if maxStrDigits < digits.length then none else some (fromDigits digits)

/-- `int(text)`, where `none` is the `ValueError`. -/
def int? (text : String) : Option Int :=
  match (text.toList.dropWhile isIntSpace).rdropWhile isIntSpace with
  | '-' :: rest => (magnitude? rest).map fun value : Nat => -(value : Int)
  | '+' :: rest => (magnitude? rest).map fun value : Nat => (value : Int)
  | rest => (magnitude? rest).map fun value : Nat => (value : Int)

/-- `str(number)`. -/
def ofNat (number : Nat) : String := String.ofList (Nat.toDigits 10 number)

section RoundTrip

theorem code_of_isDigit {character : Char} (digit : character.isDigit = true) :
    48 ≤ character.toNat ∧ character.toNat ≤ 57 := by
  delta Char.isDigit at digit
  simp only [Bool.and_eq_true, decide_eq_true_eq] at digit
  exact ⟨digit.1, digit.2⟩

theorem decimal?_of_isDigit {character : Char}
    (digit : character.isDigit = true) :
    decimal? character = some (character.toNat - 48) := by
  have bounds := code_of_isDigit digit
  have here : decide (48 ≤ character.toNat ∧ character.toNat < 48 + 10) =
      true := by
    apply decide_eq_true
    omega
  rw [decimal?, List.find?_cons, here]
  rfl

theorem isSpace_of_isDigit {character : Char}
    (digit : character.isDigit = true) : isSpace character = false := by
  have bounds := code_of_isDigit digit
  rw [isSpace, List.contains_eq_mem, decide_eq_false_iff_not]
  intro member
  simp only [spaces, List.mem_cons, List.not_mem_nil, or_false] at member
  omega

theorem isIntSpace_of_isDigit {character : Char}
    (digit : character.isDigit = true) : isIntSpace character = false := by
  rw [isIntSpace, isSpace_of_isDigit digit, Bool.false_and]

theorem mapM_decimal? {digits : List Char}
    (all : ∀ character ∈ digits, character.isDigit = true) :
    digits.mapM decimal? = some (digits.map fun character =>
      character.toNat - 48) := by
  induction digits with
  | nil => rfl
  | cons character digits induction =>
      have first := decimal?_of_isDigit (all character List.mem_cons_self)
      have later := induction fun other member =>
        all other (List.mem_cons_of_mem character member)
      rw [List.mapM_cons, first, later]
      rfl

/-- Digits are read as the number they write, unless there are too many. -/
theorem magnitude?_eq {digits : List Char} (some : digits ≠ [])
    (all : ∀ character ∈ digits, character.isDigit = true) :
    magnitude? digits = if maxStrDigits < digits.length then none
      else .some (Nat.ofDigitChars 10 digits 0) := by
  have plain : '_' ∉ digits := by
    intro member
    exact absurd (all '_' member) (by decide)
  have nonempty : [digits].any List.isEmpty = false := by
    simpa using some
  have value : fromDigits (digits.map fun character =>
      character.toNat - 48) = Nat.ofDigitChars 10 digits 0 := by
    rw [fromDigits, List.foldl_map]
    rfl
  unfold magnitude?
  rw [Posix.splitOn_of_notMem plain]
  dsimp only
  rw [if_neg (by rw [nonempty]; exact Bool.false_ne_true),
    List.flatten_singleton, mapM_decimal? all]
  dsimp only
  rw [List.length_map, value]

theorem int?_digits {digits : List Char} (some : digits ≠ [])
    (all : ∀ character ∈ digits, character.isDigit = true) :
    int? (String.ofList digits) =
      (magnitude? digits).map fun value : Nat => (value : Int) := by
  rw [int?, String.toList_ofList]
  have front : digits.dropWhile isIntSpace = digits := by
    cases digits with
    | nil => rfl
    | cons character digits =>
        have notSpace :=
          isIntSpace_of_isDigit (all character List.mem_cons_self)
        rw [List.dropWhile_cons, notSpace, if_neg Bool.false_ne_true]
  have back : digits.rdropWhile isIntSpace = digits := by
    rw [List.rdropWhile_eq_self_iff]
    intro here
    rw [isIntSpace_of_isDigit (all _ (List.getLast_mem here))]
    exact Bool.false_ne_true
  rw [front, back]
  cases digits with
  | nil => exact absurd rfl some
  | cons character digits =>
      have digit := all character List.mem_cons_self
      split
      · rename_i same
        rw [List.cons.injEq] at same
        rw [same.1] at digit
        exact absurd digit (by decide)
      · rename_i same
        rw [List.cons.injEq] at same
        rw [same.1] at digit
        exact absurd digit (by decide)
      · rfl

/-- A number that can be printed is read back. -/
theorem int?_ofNat {number : Nat}
    (short : (Nat.toDigits 10 number).length ≤ maxStrDigits) :
    int? (ofNat number) = some (number : Int) := by
  have all : ∀ character ∈ Nat.toDigits 10 number,
      character.isDigit = true := fun character member =>
    Nat.isDigit_of_mem_toDigits (by omega) (by omega) member
  have some := @Nat.toDigits_ne_nil number 10
  rw [ofNat, int?_digits some all, magnitude?_eq some all,
    if_neg (by omega), Nat.ofDigitChars_ten_toDigits]
  rfl

end RoundTrip

example : int? " +1_0\n" = some 10 := by decide +kernel

example : int? "1__0" = none := by decide +kernel

end Text

end Cats
