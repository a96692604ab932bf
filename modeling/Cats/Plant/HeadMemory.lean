import Cats.Plant.RayHead
import Mathlib.Data.Bool.AllAny

/-!
# Which quantities count as healed

The check reads a Kubernetes quantity after lowering it, so that `M`, a million, and
`m`, a thousandth, are one letter.  It knows four spellings of four gigabytes and
plain digits.
-/

namespace Cats

namespace RayHead

open Kubernetes

section Text

/-- The suffix as the check compares it. -/
def comparedSuffix (suffix : Suffix) : List Char :=
  replaceGi (suffix.text.map Char.toLower)

theorem isSpace_of_range {character : Char} (low : 33 ≤ character.toNat)
    (high : character.toNat ≤ 126) : Text.isSpace character = false := by
  rw [Text.isSpace, List.contains_eq_mem, decide_eq_false_iff_not]
  intro member
  simp only [Text.spaces, List.mem_cons, List.not_mem_nil, or_false] at member
  omega

theorem range_of_isDigit {text : List Char}
    (digits : text.all Char.isDigit = true) :
    ∀ character ∈ text, 33 ≤ character.toNat ∧ character.toNat ≤ 126 := by
  intro character member
  have bounds := Text.code_of_isDigit (List.all_eq_true.mp digits character member)
  omega

theorem range_sign (sign : Sign) :
    ∀ character ∈ sign.text, 33 ≤ character.toNat ∧ character.toNat ≤ 126 := by
  cases sign with
  | absent => exact fun _ member => nomatch member
  | plus => exact List.all_iff_forall_prop.mp (by decide)
  | minus => exact List.all_iff_forall_prop.mp (by decide)

theorem range_suffix {suffix : Suffix} (valid : suffix.Valid) :
    ∀ character ∈ suffix.text,
      33 ≤ character.toNat ∧ character.toNat ≤ 126 := by
  cases suffix with
  | exponent capital sign digits =>
      intro character member
      rcases List.mem_cons.mp member with first | later
      · rw [first]
        cases capital with
        | false => decide
        | true => decide
      · rcases List.mem_append.mp later with signed | digit
        · exact range_sign sign character signed
        · exact range_of_isDigit valid.2 character digit
  | plain => exact fun _ member => nomatch member
  | _ => exact List.all_iff_forall_prop.mp (by decide)

/-- A quantity is written in visible characters. -/
theorem range_text (quantity : Quantity) :
    ∀ character ∈ quantity.text,
      33 ≤ character.toNat ∧ character.toNat ≤ 126 := by
  have digits := quantity.digits
  rw [List.all_append, Bool.and_eq_true] at digits
  intro character member
  rcases List.mem_append.mp member with number | suffix
  · rcases List.mem_append.mp number with front | after
    · rcases List.mem_append.mp front with signed | whole
      · exact range_sign _ character signed
      · exact range_of_isDigit digits.1 character whole
    · cases fraction : quantity.fraction with
      | none =>
          rw [fraction] at after
          cases after
      | some point =>
          rw [fraction] at after digits
          rcases List.mem_cons.mp after with dot | digit
          · rw [dot]
            decide
          · exact range_of_isDigit digits.2 character digit
  · exact range_suffix quantity.valid character suffix

theorem text_ne_nil (quantity : Quantity) : quantity.text ≠ [] := by
  have nonempty := quantity.nonempty
  intro empty
  apply nonempty
  obtain ⟨number, -⟩ := List.append_eq_nil_iff.mp empty
  obtain ⟨front, fraction⟩ := List.append_eq_nil_iff.mp number
  obtain ⟨-, whole⟩ := List.append_eq_nil_iff.mp front
  rw [whole]
  cases after : quantity.fraction with
  | none => rfl
  | some point =>
      rw [after] at fraction
      cases fraction

theorem toLower_of_inNumber {character : Char}
    (number : inNumber character = true) : character.toLower = character := by
  delta inNumber Char.isAlpha at number
  simp only [Bool.not_or, Bool.and_eq_true, Bool.not_eq_true'] at number
  unfold Char.toLower
  delta Char.isUpper at number
  split
  · rename_i upper
    have contradiction := number.1
    rw [decide_eq_false_iff_not] at contradiction
    exact absurd upper contradiction
  · rfl

theorem replaceGi_cons {character : Char} (notG : character ≠ 'g')
    (rest : List Char) :
    replaceGi (character :: rest) = character :: replaceGi rest := by
  rw [replaceGi]
  intro later same
  exact absurd same notG

theorem replaceGi_append {number rest : List Char}
    (letters : number.all inNumber = true) :
    replaceGi (number ++ rest) = number ++ replaceGi rest := by
  induction number with
  | nil => rfl
  | cons character number induction =>
      rw [List.all_cons, Bool.and_eq_true] at letters
      have notG : character ≠ 'g' := by
        intro same
        rw [same] at letters
        exact absurd letters.1 (by decide)
      rw [List.cons_append, List.cons_append, ← induction letters.2,
        replaceGi_cons notG]

/-- What the check compares of a quantity. -/
theorem memoryText_quantity (quantity : Quantity) :
    memoryText (.str (String.ofList quantity.text)) =
      .ok (quantity.number ++ comparedSuffix quantity.suffix) := by
  have whole : (String.ofList quantity.text).toList = quantity.text :=
    String.toList_ofList
  have truthy : (Json.str (String.ofList quantity.text)).truthy = true := by
    apply decide_eq_true
    intro empty
    apply text_ne_nil quantity
    rw [← whole, empty]
    rfl
  have stripped : Text.strip (String.ofList quantity.text) =
      String.ofList quantity.text := by
    apply Text.strip_eq_self
    intro character member
    rw [whole] at member
    have bounds := range_text quantity character member
    exact isSpace_of_range bounds.1 bounds.2
  have number : quantity.number.map Char.toLower = quantity.number := by
    have letters := List.all_eq_true.mp quantity.inNumber_number
    exact (List.map_congr_left fun character member =>
      toLower_of_inNumber (letters character member)).trans (List.map_id _)
  unfold memoryText
  rw [if_pos truthy]
  dsimp only
  rw [stripped, Text.toList_lower, whole]
  unfold Quantity.text
  rw [List.map_append, number, replaceGi_append quantity.inNumber_number]
  rfl

theorem comparedSuffix_exponent (capital : Bool) (sign : Sign)
    (digits : List Char) : ∃ rest,
      comparedSuffix (.exponent capital sign digits) = 'e' :: rest := by
  unfold comparedSuffix Suffix.text
  cases capital with
  | false => exact ⟨_, replaceGi_cons (by decide) _⟩
  | true => exact ⟨_, replaceGi_cons (by decide) _⟩

theorem noNumber_head {text : List Char}
    (start : (text.head?.all fun character => !inNumber character) = true) :
    ∀ character ∈ text.head?, inNumber character = false := by
  intro character member
  rw [Option.mem_def] at member
  rw [member] at start
  simpa using start

theorem head_comparedSuffix (suffix : Suffix) :
    ∀ character ∈ (comparedSuffix suffix).head?, inNumber character = false := by
  cases suffix with
  | exponent capital sign digits =>
      obtain ⟨rest, same⟩ := comparedSuffix_exponent capital sign digits
      rw [same]
      intro character member
      cases member
      decide
  | plain => exact fun _ member => nomatch member
  | _ => exact noNumber_head (by decide)

/-- The suffixes that the check takes for a compared one. -/
theorem comparedSuffix_eq (suffix : Suffix) :
    (comparedSuffix suffix = ['g'] ↔
        suffix.text = ['G'] ∨ suffix.text = ['G', 'i']) ∧
      (comparedSuffix suffix = ['m', 'i'] ↔ suffix.text = ['M', 'i']) ∧
      (comparedSuffix suffix = ['m'] ↔
        suffix.text = ['M'] ∨ suffix.text = ['m']) ∧
      (comparedSuffix suffix = [] ↔ suffix = .plain) := by
  cases suffix with
  | exponent capital sign digits =>
      obtain ⟨rest, same⟩ := comparedSuffix_exponent capital sign digits
      rw [same]
      cases capital with
      | false => simp [Suffix.text]
      | true => simp [Suffix.text]
  | _ => simp [comparedSuffix, replaceGi, Suffix.text]

end Text

section Healed

/-- The spellings of four gigabytes that the check knows. -/
def fourGigabytes : List String := ["4G", "4Gi", "4096Mi", "4000M"]

/-- A word of a number and a suffix, against a quantity. -/
theorem text_eq_iff (quantity : Quantity) {number suffix : List Char}
    (numberIs : number.all inNumber = true)
    (suffixIs : ∀ character ∈ suffix.head?, inNumber character = false) :
    quantity.text = number ++ suffix ↔
      quantity.number = number ∧ quantity.suffix.text = suffix :=
  append_eq_append_iff quantity.inNumber_number numberIs
    quantity.suffix.head_text suffixIs

theorem compared_eq_iff (quantity : Quantity) {number suffix : List Char}
    (numberIs : number.all inNumber = true)
    (suffixIs : ∀ character ∈ suffix.head?, inNumber character = false) :
    quantity.number ++ comparedSuffix quantity.suffix = number ++ suffix ↔
      quantity.number = number ∧ comparedSuffix quantity.suffix = suffix :=
  append_eq_append_iff quantity.inNumber_number numberIs
    (head_comparedSuffix quantity.suffix) suffixIs

theorem word_g (quantity : Quantity) :
    quantity.number ++ comparedSuffix quantity.suffix = ['4'] ++ ['g'] ↔
      quantity.text = ['4'] ++ ['G'] ∨ quantity.text = ['4'] ++ ['G', 'i'] := by
  rw [compared_eq_iff quantity (by decide) (noNumber_head (by decide)),
    text_eq_iff quantity (by decide) (noNumber_head (by decide)),
    text_eq_iff quantity (by decide) (noNumber_head (by decide)),
    (comparedSuffix_eq quantity.suffix).1, and_or_left]

theorem word_mi (quantity : Quantity) :
    quantity.number ++ comparedSuffix quantity.suffix =
        ['4', '0', '9', '6'] ++ ['m', 'i'] ↔
      quantity.text = ['4', '0', '9', '6'] ++ ['M', 'i'] := by
  rw [compared_eq_iff quantity (by decide) (noNumber_head (by decide)),
    text_eq_iff quantity (by decide) (noNumber_head (by decide)),
    (comparedSuffix_eq quantity.suffix).2.1]

theorem word_m (quantity : Quantity) :
    quantity.number ++ comparedSuffix quantity.suffix =
        ['4', '0', '0', '0'] ++ ['m'] ↔
      quantity.text = ['4', '0', '0', '0'] ++ ['M'] ∨
        quantity.text = ['4', '0', '0', '0'] ++ ['m'] := by
  rw [compared_eq_iff quantity (by decide) (noNumber_head (by decide)),
    text_eq_iff quantity (by decide) (noNumber_head (by decide)),
    text_eq_iff quantity (by decide) (noNumber_head (by decide)),
    (comparedSuffix_eq quantity.suffix).2.2.1, and_or_left]

/-- The words of the check are these quantities. -/
theorem word_iff (quantity : Quantity) :
    quantity.number ++ comparedSuffix quantity.suffix ∈
        ["4g".toList, "4096mi".toList, "4000m".toList] ↔
      quantity.text ∈ fourGigabytes.map String.toList ∨
        quantity.text = "4000m".toList := by
  have words : (["4g".toList, "4096mi".toList, "4000m".toList] :
      List (List Char)) = [['4'] ++ ['g'], ['4', '0', '9', '6'] ++ ['m', 'i'],
        ['4', '0', '0', '0'] ++ ['m']] := rfl
  have spellings : fourGigabytes.map String.toList = [['4'] ++ ['G'],
      ['4'] ++ ['G', 'i'], ['4', '0', '9', '6'] ++ ['M', 'i'],
      ['4', '0', '0', '0'] ++ ['M']] := rfl
  have milli : "4000m".toList = ['4', '0', '0', '0'] ++ ['m'] := rfl
  rw [words, spellings, milli]
  simp only [List.mem_cons, List.not_mem_nil, or_false, word_g, word_mi, word_m,
    or_assoc]

/-- Digits, where the check looks at a character of a quantity. -/
theorem digit_table : ∀ code < 127,
    ((Text.decimal? (Char.ofNat code)).isSome || otherDigits.any fun range =>
      range.1 ≤ (Char.ofNat code).toNat && (Char.ofNat code).toNat ≤ range.2) =
    (Char.ofNat code).isDigit := by
  decide +kernel

theorem isdigit_iff {text : List Char} (nonempty : text ≠ [])
    (ascii : ∀ character ∈ text, character.toNat < 127) :
    isdigit text = true ↔ text.all Char.isDigit = true := by
  have same : ∀ character ∈ text,
      ((Text.decimal? character).isSome || otherDigits.any fun range =>
        range.1 ≤ character.toNat && character.toNat ≤ range.2) =
      character.isDigit := by
    intro character member
    have entry := digit_table character.toNat (ascii character member)
    rw [Char.ofNat_toNat] at entry
    exact entry
  unfold isdigit
  rw [Bool.and_eq_true, List.all_eq_true, List.all_eq_true]
  constructor
  · rintro ⟨-, digits⟩ character member
    rw [← same character member]
    exact digits character member
  · intro digits
    constructor
    · cases text with
      | nil => exact absurd rfl nonempty
      | cons character text => rfl
    · intro character member
      rw [same character member]
      exact digits character member

theorem range_of_letter {character : Char}
    (letter : inNumber character = false) : character.toNat < 127 := by
  delta inNumber Char.isAlpha Char.isUpper Char.isLower at letter
  simp only [Bool.not_eq_false', Bool.or_eq_true, Bool.and_eq_true,
    decide_eq_true_eq] at letter
  rcases letter with ⟨-, upper⟩ | ⟨-, lower⟩
  · have high : character.toNat ≤ 90 := upper
    omega
  · have high : character.toNat ≤ 122 := lower
    omega

/-- What is compared has digits only if the quantity has. -/
theorem isdigit_compared_iff (quantity : Quantity) :
    isdigit (quantity.number ++ comparedSuffix quantity.suffix) = true ↔
      quantity.IsPlain := by
  rw [quantity.isPlain_iff, ← (comparedSuffix_eq quantity.suffix).2.2.2]
  have nonempty := text_ne_nil quantity
  have ascii : ∀ character ∈ quantity.number, character.toNat < 127 := by
    intro character member
    have bounds := range_text quantity character (List.mem_append_left _ member)
    omega
  have heads := head_comparedSuffix quantity.suffix
  cases suffixIs : comparedSuffix quantity.suffix with
  | nil =>
      have plain := (comparedSuffix_eq quantity.suffix).2.2.2.mp suffixIs
      have numbered : quantity.number ≠ [] := by
        intro empty
        apply nonempty
        unfold Quantity.text
        rw [empty, plain]
        rfl
      rw [List.append_nil, isdigit_iff numbered ascii]
      exact (and_iff_right rfl).symm
  | cons character rest =>
      rw [suffixIs] at heads
      have letter := heads character rfl
      have entry := digit_table character.toNat (range_of_letter letter)
      rw [Char.ofNat_toNat] at entry
      constructor
      · intro digits
        unfold isdigit at digits
        rw [Bool.and_eq_true, List.all_eq_true] at digits
        have here := digits.2 character
          (List.mem_append_right _ List.mem_cons_self)
        rw [entry] at here
        rw [inNumber_of_isDigit here] at letter
        cases letter
      · rintro ⟨impossible, -⟩
        cases impossible

/-- A quantity is healed if it is one of four spellings, or `4000m`, or digits of
four billion at least. -/
theorem memory_is_healed_quantity (quantity : Quantity) :
    memory_is_healed (.str (String.ofList quantity.text)) = .ok true ↔
      quantity.text ∈ fourGigabytes.map String.toList ∨
        quantity.text = "4000m".toList ∨
        quantity.IsPlain ∧ quantity.text.length ≤ Text.maxStrDigits ∧
          4000000000 ≤ natural quantity.text := by
  have read : memory_is_healed (.str (String.ofList quantity.text)) =
      if quantity.number ++ comparedSuffix quantity.suffix ∈
          ["4g".toList, "4096mi".toList, "4000m".toList] then .ok true
      else if isdigit (quantity.number ++ comparedSuffix quantity.suffix) then
        (Text.int? (String.ofList
            (quantity.number ++ comparedSuffix quantity.suffix))).elim
          (.error (intError
            (quantity.number ++ comparedSuffix quantity.suffix)))
          fun number => .ok (decide (4000000000 ≤ number))
      else .ok false := by
    unfold memory_is_healed
    rw [memoryText_quantity]
    simp only [bind, Except.bind]
    cases Text.int? (String.ofList
        (quantity.number ++ comparedSuffix quantity.suffix)) with
    | none => rfl
    | some number => rfl
  rw [read]
  by_cases word : quantity.number ++ comparedSuffix quantity.suffix ∈
      ["4g".toList, "4096mi".toList, "4000m".toList]
  · rw [if_pos word, ← or_assoc]
    exact iff_of_true rfl (.inl ((word_iff quantity).mp word))
  · rw [if_neg word]
    rw [word_iff, not_or] at word
    by_cases plain : quantity.IsPlain
    · rw [if_pos ((isdigit_compared_iff quantity).mpr plain)]
      have parts := quantity.isPlain_iff.mp plain
      have compared : quantity.number ++ comparedSuffix quantity.suffix =
          quantity.text := by
        unfold Quantity.text
        rw [parts.1]
        rfl
      have digits : ∀ character ∈ quantity.text, character.isDigit = true :=
        List.all_eq_true.mp plain
      rw [compared, Text.int?_digits (text_ne_nil quantity) digits,
        Text.magnitude?_eq (text_ne_nil quantity) digits]
      by_cases long : Text.maxStrDigits < quantity.text.length
      · rw [if_pos long]
        constructor
        · intro impossible
          cases impossible
        · rintro (here | here | ⟨-, short, -⟩)
          · exact absurd here word.1
          · exact absurd here word.2
          · omega
      · rw [if_neg long]
        show (Except.ok (decide ((4000000000 : Int) ≤ (natural quantity.text : Nat)))
          : Except Raised Bool) = .ok true ↔ _
        rw [Except.ok.injEq, decide_eq_true_iff]
        constructor
        · intro large
          exact .inr (.inr ⟨plain, by omega, by omega⟩)
        · rintro (here | here | ⟨-, -, large⟩)
          · exact absurd here word.1
          · exact absurd here word.2
          · omega
    · rw [if_neg (fun digits => plain ((isdigit_compared_iff quantity).mp digits))]
      constructor
      · intro impossible
        cases impossible
      · rintro (here | here | ⟨there, -⟩)
        · exact absurd here word.1
        · exact absurd here word.2
        · exact absurd there plain

/-- The suffixes of the words. -/
theorem suffix_of_text (suffix : Suffix) :
    (suffix.text = ['G'] → suffix = .giga) ∧
      (suffix.text = ['G', 'i'] → suffix = .gibi) ∧
      (suffix.text = ['M', 'i'] → suffix = .mebi) ∧
      (suffix.text = ['M'] → suffix = .mega) ∧
      (suffix.text = ['m'] → suffix = .milli) := by
  cases suffix with
  | exponent capital sign digits =>
      cases capital with
      | false => simp [Suffix.text]
      | true => simp [Suffix.text]
  | _ => simp [Suffix.text]

/-- The value of a word of digits and a suffix. -/
theorem value_of_text (quantity : Quantity) {number suffix : List Char}
    (textIs : quantity.text = number ++ suffix)
    (digits : number.all Char.isDigit = true)
    (suffixIs : ∀ character ∈ suffix.head?, inNumber character = false) :
    quantity.suffix.text = suffix ∧
      quantity.value = natural number * quantity.suffix.factor := by
  have numberIs : number.all inNumber = true := by
    rw [List.all_eq_true] at digits ⊢
    exact fun character member => inNumber_of_isDigit (digits character member)
  obtain ⟨same, suffixSame⟩ := (text_eq_iff quantity numberIs suffixIs).mp textIs
  rw [← same] at digits
  exact ⟨suffixSame, by rw [quantity.value_of_digits digits, same]⟩

/-- The four spellings are four gigabytes at least. -/
theorem value_fourGigabytes {quantity : Quantity}
    (member : quantity.text ∈ fourGigabytes.map String.toList) :
    4000000000 ≤ quantity.value := by
  have spellings : fourGigabytes.map String.toList = [['4'] ++ ['G'],
      ['4'] ++ ['G', 'i'], ['4', '0', '9', '6'] ++ ['M', 'i'],
      ['4', '0', '0', '0'] ++ ['M']] := rfl
  have numbers : natural ['4'] = 4 ∧ natural ['4', '0', '9', '6'] = 4096 ∧
      natural ['4', '0', '0', '0'] = 4000 := by decide
  obtain ⟨giga, gibi, mebi, mega, -⟩ := suffix_of_text quantity.suffix
  rw [spellings] at member
  simp only [List.mem_cons, List.not_mem_nil, or_false] at member
  rcases member with four | fourBinary | binary | thousands
  · obtain ⟨suffix, value⟩ :=
      value_of_text quantity four (by decide) (noNumber_head (by decide))
    rw [value, giga suffix, numbers.1]
    norm_num [Suffix.factor]
  · obtain ⟨suffix, value⟩ :=
      value_of_text quantity fourBinary (by decide) (noNumber_head (by decide))
    rw [value, gibi suffix, numbers.1]
    norm_num [Suffix.factor]
  · obtain ⟨suffix, value⟩ :=
      value_of_text quantity binary (by decide) (noNumber_head (by decide))
    rw [value, mebi suffix, numbers.2.1]
    norm_num [Suffix.factor]
  · obtain ⟨suffix, value⟩ :=
      value_of_text quantity thousands (by decide) (noNumber_head (by decide))
    rw [value, mega suffix, numbers.2.2]
    norm_num [Suffix.factor]

theorem value_milli {quantity : Quantity}
    (textIs : quantity.text = "4000m".toList) : quantity.value < 4000000000 := by
  have split : "4000m".toList = ['4', '0', '0', '0'] ++ ['m'] := rfl
  have number : natural ['4', '0', '0', '0'] = 4000 := by decide
  rw [split] at textIs
  obtain ⟨suffix, value⟩ :=
    value_of_text quantity textIs (by decide) (noNumber_head (by decide))
  rw [value, (suffix_of_text quantity.suffix).2.2.2.2 suffix, number]
  norm_num [Suffix.factor]

theorem value_plain {quantity : Quantity} (plain : quantity.IsPlain) :
    quantity.value = natural quantity.text := by
  obtain ⟨suffix, digits⟩ := quantity.isPlain_iff.mp plain
  have textIs : quantity.text = quantity.number := by
    unfold Quantity.text
    rw [suffix]
    exact List.append_nil _
  rw [quantity.value_of_digits digits, suffix, textIs]
  exact mul_one _

/-- The check accepts the quantity exactly if it is four gigabytes at least. -/
def Exact (quantity : Quantity) : Prop :=
  memory_is_healed (.str (String.ofList quantity.text)) = .ok true ↔
    4000000000 ≤ quantity.value

/-- A quantity of less than four gigabytes other than `4000m`, or one of the
spellings that the check knows. -/
def Spelled (quantity : Quantity) : Prop :=
  quantity.text ≠ "4000m".toList ∧ (quantity.value < 4000000000 ∨
    quantity.text ∈ fourGigabytes.map String.toList ∨
    quantity.IsPlain ∧ quantity.text.length ≤ Text.maxStrDigits)

theorem exact_iff_spelled (quantity : Quantity) :
    Exact quantity ↔ Spelled quantity := by
  unfold Exact Spelled
  rw [memory_is_healed_quantity]
  constructor
  · intro exact
    constructor
    · intro milli
      have large := exact.mp (.inr (.inl milli))
      exact absurd (value_milli milli) (not_lt.mpr large)
    · by_cases large : 4000000000 ≤ quantity.value
      · rcases exact.mpr large with spelled | milli | ⟨plain, short, -⟩
        · exact .inr (.inl spelled)
        · exact absurd (value_milli milli) (not_lt.mpr large)
        · exact .inr (.inr ⟨plain, short⟩)
      · exact .inl (not_le.mp large)
  · rintro ⟨notMilli, known⟩
    constructor
    · rintro (spelled | milli | ⟨plain, -, large⟩)
      · exact value_fourGigabytes spelled
      · exact absurd milli notMilli
      · rw [value_plain plain]
        exact_mod_cast large
    · intro large
      rcases known with small | spelled | ⟨plain, short⟩
      · exact absurd small (not_lt.mpr large)
      · exact .inl spelled
      · rw [value_plain plain] at large
        exact .inr (.inr ⟨plain, short, by exact_mod_cast large⟩)

end Healed

end RayHead

end Cats
