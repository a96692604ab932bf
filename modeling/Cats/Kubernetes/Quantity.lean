import Mathlib.Algebra.Order.Field.Rat
import Mathlib.Tactic.NormNum

/-!
# Kubernetes quantities

A quantity is a signed decimal number and a suffix: a power of a thousand, a power
of 1024, or a decimal exponent.  Its text is taken apart at the first letter, where
the suffix starts.
-/

namespace Kubernetes

/-- The sign of a number, which may be left out. -/
inductive Sign where
  | absent
  | plus
  | minus

def Sign.text : Sign → List Char
  | .absent => []
  | .plus => ['+']
  | .minus => ['-']

def Sign.apply (sign : Sign) (value : ℚ) : ℚ :=
  match sign with
  | .minus => -value
  | _ => value

/-- The suffixes; `m` is a thousandth and `M` a million. -/
inductive Suffix where
  | plain
  | nano
  | micro
  | milli
  | kilo
  | mega
  | giga
  | tera
  | peta
  | exa
  | kibi
  | mebi
  | gibi
  | tebi
  | pebi
  | exbi
  | exponent (capital : Bool) (sign : Sign) (digits : List Char)

def Suffix.text : Suffix → List Char
  | .plain => []
  | .nano => ['n']
  | .micro => ['u']
  | .milli => ['m']
  | .kilo => ['k']
  | .mega => ['M']
  | .giga => ['G']
  | .tera => ['T']
  | .peta => ['P']
  | .exa => ['E']
  | .kibi => ['K', 'i']
  | .mebi => ['M', 'i']
  | .gibi => ['G', 'i']
  | .tebi => ['T', 'i']
  | .pebi => ['P', 'i']
  | .exbi => ['E', 'i']
  | .exponent capital sign digits =>
      (if capital then 'E' else 'e') :: (sign.text ++ digits)

/-- The number that digits write. -/
def natural (digits : List Char) : Nat := Nat.ofDigitChars 10 digits 0

def Suffix.factor : Suffix → ℚ
  | .plain => 1
  | .nano => 1 / 10 ^ 9
  | .micro => 1 / 10 ^ 6
  | .milli => 1 / 10 ^ 3
  | .kilo => 10 ^ 3
  | .mega => 10 ^ 6
  | .giga => 10 ^ 9
  | .tera => 10 ^ 12
  | .peta => 10 ^ 15
  | .exa => 10 ^ 18
  | .kibi => 2 ^ 10
  | .mebi => 2 ^ 20
  | .gibi => 2 ^ 30
  | .tebi => 2 ^ 40
  | .pebi => 2 ^ 50
  | .exbi => 2 ^ 60
  | .exponent _ .minus digits => 1 / 10 ^ natural digits
  | .exponent _ _ digits => 10 ^ natural digits

/-- The digits of an exponent, where there is one. -/
def Suffix.Valid : Suffix → Prop
  | .exponent _ _ digits => digits ≠ [] ∧ digits.all Char.isDigit = true
  | _ => True

/-- A quantity: digits, with at least one before or after the point. -/
structure Quantity where
  sign : Sign
  whole : List Char
  fraction : Option (List Char)
  suffix : Suffix
  digits : (whole ++ fraction.getD []).all Char.isDigit = true
  nonempty : whole ++ fraction.getD [] ≠ []
  valid : suffix.Valid

namespace Quantity

/-- The text in front of the suffix. -/
def number (quantity : Quantity) : List Char :=
  quantity.sign.text ++ quantity.whole ++
    (match quantity.fraction with
      | none => []
      | some digits => '.' :: digits)

/-- How a quantity is written. -/
def text (quantity : Quantity) : List Char :=
  quantity.number ++ quantity.suffix.text

def value (quantity : Quantity) : ℚ :=
  quantity.sign.apply
    ((natural quantity.whole +
        natural (quantity.fraction.getD []) /
          10 ^ (quantity.fraction.getD []).length) * quantity.suffix.factor)

/-- A quantity that is written with digits only. -/
def IsPlain (quantity : Quantity) : Prop :=
  quantity.text.all Char.isDigit = true

instance (quantity : Quantity) : Decidable quantity.IsPlain :=
  inferInstanceAs (Decidable (_ = true))

end Quantity

/-- A character that may stand in a number: no letter. -/
def inNumber (character : Char) : Bool := !character.isAlpha

section Parts

theorem inNumber_of_isDigit {character : Char}
    (digit : character.isDigit = true) : inNumber character = true := by
  delta inNumber Char.isAlpha Char.isUpper Char.isLower
  delta Char.isDigit at digit
  simp only [Bool.and_eq_true, decide_eq_true_eq] at digit
  have low : character.val.toNat ≤ 57 := digit.2
  simp only [Bool.not_or, Bool.and_eq_true, Bool.not_eq_true',
    Bool.and_eq_false_iff, decide_eq_false_iff_not]
  constructor
  · rintro ⟨upper, -⟩
    have high : 65 ≤ character.val.toNat := upper
    omega
  · left
    intro lower
    have high : 97 ≤ character.val.toNat := lower
    omega

theorem inNumber_sign (sign : Sign) : sign.text.all inNumber = true := by
  cases sign with
  | absent => rfl
  | plus => rfl
  | minus => rfl

/-- The number of a quantity has no letter. -/
theorem Quantity.inNumber_number (quantity : Quantity) :
    quantity.number.all inNumber = true := by
  have digits : ∀ text : List Char, text.all Char.isDigit = true →
      text.all inNumber = true := by
    intro text all
    rw [List.all_eq_true] at all ⊢
    exact fun character member => inNumber_of_isDigit (all character member)
  have both := quantity.digits
  rw [List.all_append, Bool.and_eq_true] at both
  unfold number
  rw [List.all_append, List.all_append, inNumber_sign, digits _ both.1]
  cases fraction : quantity.fraction with
  | none => rfl
  | some after =>
      rw [fraction] at both
      rw [List.all_cons, digits after both.2]
      rfl

/-- A text of numbers is split where its first letter stands. -/
theorem append_eq_append_iff {left right front back : List Char}
    (leftIs : left.all inNumber = true) (frontIs : front.all inNumber = true)
    (rightIs : ∀ character ∈ right.head?, inNumber character = false)
    (backIs : ∀ character ∈ back.head?, inNumber character = false) :
    left ++ right = front ++ back ↔ left = front ∧ right = back := by
  have taken : ∀ {number suffix : List Char}, number.all inNumber = true →
      (∀ character ∈ suffix.head?, inNumber character = false) →
      (number ++ suffix).takeWhile inNumber = number ∧
        (number ++ suffix).dropWhile inNumber = suffix := by
    intro number suffix all stops
    rw [List.all_eq_true] at all
    rw [List.takeWhile_append_of_pos all, List.dropWhile_append_of_pos all]
    cases suffix with
    | nil => exact ⟨by simp, rfl⟩
    | cons character suffix =>
        have stop := stops character rfl
        rw [List.takeWhile_cons, List.dropWhile_cons, stop]
        exact ⟨by simp, rfl⟩
  constructor
  · intro same
    have leftParts := taken leftIs rightIs
    have rightParts := taken frontIs backIs
    rw [same] at leftParts
    exact ⟨leftParts.1.symm.trans rightParts.1,
      leftParts.2.symm.trans rightParts.2⟩
  · rintro ⟨rfl, rfl⟩
    rfl

/-- A number of digits only has no sign and no point. -/
theorem Quantity.number_of_digits (quantity : Quantity)
    (digits : quantity.number.all Char.isDigit = true) :
    quantity.sign = .absent ∧ quantity.whole = quantity.number ∧
      quantity.fraction = none := by
  unfold number at digits
  rw [List.all_append, List.all_append, Bool.and_eq_true,
    Bool.and_eq_true] at digits
  obtain ⟨⟨sign, -⟩, fraction⟩ := digits
  have absent : quantity.sign = .absent := by
    cases signIs : quantity.sign with
    | absent => rfl
    | plus =>
        rw [signIs] at sign
        exact absurd sign (by decide)
    | minus =>
        rw [signIs] at sign
        exact absurd sign (by decide)
  have none : quantity.fraction = none := by
    cases fractionIs : quantity.fraction with
    | none => rfl
    | some after =>
        rw [fractionIs, List.all_cons] at fraction
        have point : ('.').isDigit = false := by decide
        rw [point, Bool.false_and] at fraction
        cases fraction
  refine ⟨absent, ?_, none⟩
  unfold number
  rw [absent, none]
  simp [Sign.text]

/-- The value of a quantity whose number has digits only. -/
theorem Quantity.value_of_digits (quantity : Quantity)
    (digits : quantity.number.all Char.isDigit = true) :
    quantity.value =
      natural quantity.number * quantity.suffix.factor := by
  obtain ⟨sign, whole, fraction⟩ := quantity.number_of_digits digits
  unfold value
  rw [sign, whole, fraction]
  simp [Sign.apply, natural]

theorem Suffix.head_text (suffix : Suffix) :
    ∀ character ∈ suffix.text.head?, inNumber character = false := by
  cases suffix with
  | exponent capital sign digits =>
      intro character member
      cases capital with
      | false =>
          cases member
          decide
      | true =>
          cases member
          decide
  | _ =>
      intro character member
      cases member
      all_goals decide

theorem Quantity.isPlain_iff (quantity : Quantity) :
    quantity.IsPlain ↔ quantity.suffix = .plain ∧
      quantity.number.all Char.isDigit = true := by
  unfold IsPlain text
  rw [List.all_append, Bool.and_eq_true]
  constructor
  · rintro ⟨number, suffix⟩
    refine ⟨?_, number⟩
    have heads := quantity.suffix.head_text
    cases suffixIs : quantity.suffix.text with
    | nil =>
        cases kind : quantity.suffix with
        | plain => rfl
        | _ =>
            rw [kind] at suffixIs
            cases suffixIs
    | cons character rest =>
        rw [suffixIs] at heads suffix
        rw [List.all_cons, Bool.and_eq_true] at suffix
        have letter := heads character rfl
        rw [inNumber_of_isDigit suffix.1] at letter
        cases letter
  · rintro ⟨plain, number⟩
    rw [plain]
    exact ⟨number, rfl⟩

end Parts

end Kubernetes
