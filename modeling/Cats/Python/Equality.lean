import Mathlib.Algebra.Order.Field.Rat
import Mathlib.Data.Option.Basic
import Mathlib.Data.Nat.Log
import Cats.Codec.Json

/-!
# When two values are equal

The host language compares objects as maps and numbers by value, and a boolean
is a number there: `True == 1`.  Two JSON documents are the same under the same
rules, except that a boolean is not a number.  Both are one comparison with
its rule for scalars left open.
-/

namespace Cats

/-- A number as it compares. -/
inductive Number where
  | finite (value : ℚ)
  | infinite (negative : Bool)
  | nan
  deriving DecidableEq

namespace Number

/-- The value a decimal text spells. -/
def decimal (text : List Char) : ℚ :=
  let magnitude := text.dropWhile (· = '-')
  let mantissa := magnitude.takeWhile fun character =>
    character ≠ 'e' && character ≠ 'E'
  let power := (magnitude.drop (mantissa.length + 1))
  let whole := mantissa.takeWhile (· ≠ '.')
  let fraction := mantissa.drop (whole.length + 1)
  let shift : Int :=
    if power.head? = some '-' then -(Nat.ofDigitChars 10 power.tail 0 : Int)
    else (Nat.ofDigitChars 10 (power.dropWhile (· = '+')) 0 : Int)
  let digits : ℚ := Nat.ofDigitChars 10 (whole ++ fraction) 0
  let value := digits * 10 ^ (shift - fraction.length)
  if text.head? = some '-' then -value else value

/-- The whole number next to a rational, the even one of two equally near. -/
def roundHalfEven (value : ℚ) : Int :=
  let lower := value.floor
  let rest := value - lower
  if rest < 1 / 2 then lower
  else if 1 / 2 < rest then lower + 1
  else if lower % 2 = 0 then lower
  else lower + 1

/-- The double next to a rational: fifty-three significant bits, and no unit
below `2 ^ -1074`. -/
def double (value : ℚ) : Number :=
  if value = 0 then .finite 0
  else
    let size := |value|
    let bits : Int := (Nat.log2 size.num.natAbs : Int) - Nat.log2 size.den
    let exponent := if (2 : ℚ) ^ bits ≤ size then bits else bits - 1
    let unit : ℚ := 2 ^ max (-1074) (exponent - 52)
    let rounded := roundHalfEven (value / unit) * unit
    if (2 : ℚ) ^ (1024 : Int) ≤ |rounded| then .infinite (value < 0)
    else .finite rounded

/-- The double a float's text is read back as. -/
def ofText (text : List Char) : Number :=
  if text = "NaN".toList then .nan
  else if text = "Infinity".toList then .infinite false
  else if text = "-Infinity".toList then .infinite true
  else double (decimal text)

end Number

namespace Json

def isBool : Json → Bool
  | .bool _ => true
  | _ => false

/-- The value of a number; a boolean is one. -/
def number? : Json → Option Number
  | .bool value => some (.finite (if value then 1 else 0))
  | .int value => some (.finite value)
  | .float text => some (Number.ofText text)
  | _ => none

/-- `left == right` where neither is a list or a dict.  A NaN stands for one
object and equals itself, as it does inside a list. -/
def pyScalar (left right : Json) : Bool :=
  match left, right with
  | .null, .null => true
  | .str left, .str right => left == right
  | left, right =>
      match left.number?, right.number? with
      | some left, some right => left == right
      | _, _ => false

/-- Scalars of one kind: both booleans or neither. -/
def sameKind (left right : Json) : Bool := left.isBool == right.isBool

def jsonScalar (left right : Json) : Bool :=
  pyScalar left right && sameKind left right

mutual

/-- Two values are equal when lists agree item by item, dicts agree as maps,
and scalars agree by `scalar`. -/
def alike (scalar : Json → Json → Bool) : Json → Json → Bool
  | .arr lefts, .arr rights => alikeItems scalar lefts rights
  | .obj lefts, .obj rights =>
      alikeFields scalar [] lefts rights &&
        (Fields.keys rights).all fun key => (Fields.keys lefts).contains key
  | .arr _, _ => false
  | .obj _, _ => false
  | _, .arr _ => false
  | _, .obj _ => false
  | left, right => scalar left right

def alikeItems (scalar : Json → Json → Bool) :
    List Json → List Json → Bool
  | [], [] => true
  | left :: lefts, right :: rights =>
      alike scalar left right && alikeItems scalar lefts rights
  | _, _ => false

/-- Each key's first binding has an equal one on the right. -/
def alikeFields (scalar : Json → Json → Bool) (seen : List String) :
    List (String × Json) → Fields → Bool
  | [], _ => true
  | (name, left) :: lefts, rights =>
      (seen.contains name ||
        match Fields.get? rights name with
        | some right => alike scalar left right
        | none => false) &&
        alikeFields scalar (name :: seen) lefts rights

end

/-- `left == right`. -/
def pyEq (left right : Json) : Bool := alike pyScalar left right

/-- The same JSON value: a boolean is not a number. -/
def same (left right : Json) : Bool := alike jsonScalar left right

theorem pyScalar_refl (value : Json) (notArr : ∀ items, value ≠ .arr items)
    (notObj : ∀ fields, value ≠ .obj fields) : pyScalar value value = true := by
  cases value with
  | arr items => exact absurd rfl (notArr items)
  | obj fields => exact absurd rfl (notObj fields)
  | null => rfl
  | str value => simp [pyScalar]
  | bool value => simp [pyScalar, number?]
  | int value => simp [pyScalar, number?]
  | float text => simp [pyScalar, number?]

section Alike

variable {scalar : Json → Json → Bool}

mutual

theorem alike_refl
    (reflexive : ∀ value, (∀ items, value ≠ .arr items) →
      (∀ fields, value ≠ .obj fields) → scalar value value = true) :
    ∀ value : Json, alike scalar value value = true
  | .null => by simpa [alike] using reflexive .null (by simp) (by simp)
  | .bool value => by
      simpa [alike] using reflexive (.bool value) (by simp) (by simp)
  | .int value => by
      simpa [alike] using reflexive (.int value) (by simp) (by simp)
  | .float text => by
      simpa [alike] using reflexive (.float text) (by simp) (by simp)
  | .str value => by
      simpa [alike] using reflexive (.str value) (by simp) (by simp)
  | .arr items => by
      simpa [alike] using alikeItems_refl reflexive items
  | .obj fields => by
      have bindings := alikeFields_refl reflexive [] fields fields
        (fun _ _ => rfl)
      simp [alike, bindings]

theorem alikeItems_refl
    (reflexive : ∀ value, (∀ items, value ≠ .arr items) →
      (∀ fields, value ≠ .obj fields) → scalar value value = true) :
    ∀ items : List Json, alikeItems scalar items items = true
  | [] => rfl
  | item :: items => by
      simp [alikeItems, alike_refl reflexive item,
        alikeItems_refl reflexive items]

/-- The bindings still to compare are what a lookup reads once the keys seen
so far are set aside. -/
theorem alikeFields_refl
    (reflexive : ∀ value, (∀ items, value ≠ .arr items) →
      (∀ fields, value ≠ .obj fields) → scalar value value = true) :
    ∀ (seen : List String) (rest : List (String × Json)) (whole : Fields),
      (∀ name, name ∉ seen → Fields.get? whole name = Fields.get? rest name) →
        alikeFields scalar seen rest whole = true
  | _, [], _, _ => rfl
  | seen, (name, value) :: rest, whole, reads => by
      have later : alikeFields scalar (name :: seen) rest whole = true := by
        apply alikeFields_refl reflexive
        intro other unseen
        have different : ¬ name = other := fun equality =>
          unseen (equality ▸ List.mem_cons_self)
        rw [reads other (fun member => unseen (List.mem_cons_of_mem _ member)),
          Fields.get?_cons, if_neg different]
      by_cases member : name ∈ seen
      · simp [alikeFields, member, later]
      · have found := reads name member
        rw [Fields.get?_cons, if_pos rfl] at found
        simp [alikeFields, found, alike_refl reflexive value, later]

end

theorem alikeFields_get? {name : String} {value : Json} (rights : Fields) :
    ∀ (seen : List String) (lefts : Fields),
      alikeFields scalar seen lefts rights = true → name ∉ seen →
        Fields.get? lefts name = some value →
          ∃ other, Fields.get? rights name = some other ∧
            alike scalar value other = true := by
  intro seen lefts
  induction lefts generalizing seen with
  | nil => simp
  | cons field lefts induction =>
      intro bindings unseen found
      obtain ⟨key, left⟩ := field
      simp only [alikeFields, Bool.and_eq_true, Bool.or_eq_true] at bindings
      rw [Fields.get?_cons] at found
      by_cases here : key = name
      · rw [if_pos here] at found
        obtain rfl := Option.some.inj found
        rcases bindings.1 with old | matched
        · exact absurd (by simpa [here] using old) unseen
        · rw [here] at matched
          cases read : Fields.get? rights name with
          | none => simp [read] at matched
          | some other => exact ⟨other, rfl, by simpa [read] using matched⟩
      · rw [if_neg here] at found
        apply induction (key :: seen) bindings.2 _ found
        intro member
        rcases List.mem_cons.mp member with equality | old
        · exact here equality.symm
        · exact unseen old

/-- Two dicts that are equal agree at every key. -/
theorem alike_get? {lefts rights : Fields}
    (equal : alike scalar (.obj lefts) (.obj rights) = true) (name : String) :
    Option.Rel (fun left right => alike scalar left right = true)
      (lefts.get? name) (rights.get? name) := by
  simp only [alike, Bool.and_eq_true] at equal
  cases found : lefts.get? name with
  | some value =>
      obtain ⟨other, read, matched⟩ :=
        alikeFields_get? rights [] lefts equal.1 (by simp) found
      rw [read]
      exact .some matched
  | none =>
      have absent : rights.get? name = none := by
        apply Fields.get?_eq_none_iff.mpr
        intro member
        have covered := List.all_eq_true.mp equal.2 name member
        exact Fields.get?_eq_none_iff.mp found (by simpa using covered)
      rw [absent]
      exact .none

end Alike

section Both

variable {first second : Json → Json → Bool}

mutual

/-- Comparing under two scalar rules at once is comparing under each. -/
theorem alike_and : ∀ left right : Json,
    alike (fun left right => first left right && second left right)
        left right =
      (alike first left right && alike second left right)
  | .arr lefts, right => by
      cases right <;> simp [alike, alikeItems_and lefts]
  | .obj lefts, right => by
      cases right with
      | obj rights =>
          simp only [alike, alikeFields_and [] lefts rights]
          cases alikeFields first [] lefts rights <;>
            cases alikeFields second [] lefts rights <;> simp
      | _ => simp [alike]
  | .null, right => by cases right <;> simp [alike]
  | .bool _, right => by cases right <;> simp [alike]
  | .int _, right => by cases right <;> simp [alike]
  | .float _, right => by cases right <;> simp [alike]
  | .str _, right => by cases right <;> simp [alike]

theorem alikeItems_and : ∀ lefts rights : List Json,
    alikeItems (fun left right => first left right && second left right)
        lefts rights =
      (alikeItems first lefts rights && alikeItems second lefts rights)
  | [], rights => by cases rights <;> simp [alikeItems]
  | left :: lefts, [] => by simp [alikeItems]
  | left :: lefts, right :: rights => by
      simp only [alikeItems, alike_and left right, alikeItems_and lefts rights]
      cases alike first left right <;> cases alike second left right <;> simp

theorem alikeFields_and : ∀ (seen : List String)
    (lefts : List (String × Json)) (rights : Fields),
    alikeFields (fun left right => first left right && second left right)
        seen lefts rights =
      (alikeFields first seen lefts rights &&
        alikeFields second seen lefts rights)
  | _, [], _ => by simp [alikeFields]
  | seen, (name, left) :: lefts, rights => by
      simp only [alikeFields, alikeFields_and (name :: seen) lefts rights]
      cases seen.contains name with
      | true => simp
      | false =>
          cases Fields.get? rights name with
          | none => simp
          | some right =>
              simp only [alike_and left right]
              cases alike first left right <;>
                cases alike second left right <;> simp

end

end Both

theorem pyEq_refl (value : Json) : pyEq value value = true :=
  alike_refl pyScalar_refl value

theorem same_refl (value : Json) : same value value = true := by
  apply alike_refl
  intro value notArr notObj
  simp [jsonScalar, sameKind, pyScalar_refl value notArr notObj]

example : pyEq (.bool true) (.float "1.0".toList) = true ∧
    same (.bool true) (.float "1.0".toList) = false ∧
    same (.float "1e+23".toList) (.int 99999999999999991611392) = true := by
  decide +kernel

end Json

end Cats
