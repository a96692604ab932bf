import Cats.Codec.JsonParse
import Mathlib.Data.List.TakeWhile

/-!
# What is written reads back

`loads_dumps` covers every layout at once: the blanks a style adds are the
ones the scanner skips.  The induction follows the value, with the text that
comes after it as a parameter; that text must not continue a number.
-/

namespace Cats

namespace Json

/-- The spelling of a float that the scanner reads as that float. -/
def isFloatText (text : List Char) : Bool :=
  text.all (fun character => character.toNat < 128) &&
  (decide (scanNumber text = some (.float text, [])) ||
    text == "NaN".toList || text == "Infinity".toList ||
    text == "-Infinity".toList)

mutual

/-- A value Python can hold: keys are distinct and floats are spelled as
floats. -/
def wellFormed : Json → Bool
  | .float text => isFloatText text
  | .arr items => wellFormedItems items
  | .obj fields => decide (fields.map Prod.fst).Nodup && wellFormedFields fields
  | _ => true

def wellFormedItems : List Json → Bool
  | [] => true
  | item :: items => wellFormed item && wellFormedItems items

def wellFormedFields : List (String × Json) → Bool
  | [] => true
  | (_, value) :: fields => wellFormed value && wellFormedFields fields

end

/-- The characters that may continue a number. -/
def continues (character : Char) : Bool :=
  character.isDigit || ['.', 'e', 'E', '+', '-'].contains character

/-- Text that ends whatever number stands before it. -/
def Stops (rest : List Char) : Prop :=
  ∀ character ∈ rest.head?, continues character = false

theorem Stops.cons {character : Char} (rest : List Char)
    (ends : continues character = false) : Stops (character :: rest) := by
  intro head member
  have same : character = head := by simpa using member
  exact same ▸ ends

theorem stops_nil : Stops [] := by
  intro character member
  simp at member

section Numbers

variable {rest : List Char}

theorem Stops.notDigit (stops : Stops rest) :
    rest.takeWhile Char.isDigit = [] ∧ rest.dropWhile Char.isDigit = rest := by
  cases rest with
  | nil => exact ⟨rfl, rfl⟩
  | cons character tail =>
      have ends := stops character rfl
      simp only [continues, Bool.or_eq_false_iff] at ends
      simp [ends.1]

theorem takeWhile_append_stops (stops : Stops rest) (text : List Char) :
    (text ++ rest).takeWhile Char.isDigit = text.takeWhile Char.isDigit := by
  induction text with
  | nil => simpa using stops.notDigit.1
  | cons character text induction =>
      by_cases digit : character.isDigit
      · simp [digit, induction]
      · simp [digit]

theorem dropWhile_append_stops (stops : Stops rest) (text : List Char) :
    (text ++ rest).dropWhile Char.isDigit =
      text.dropWhile Char.isDigit ++ rest := by
  induction text with
  | nil => simpa using stops.notDigit.2
  | cons character text induction =>
      by_cases digit : character.isDigit
      · simp [digit, induction]
      · simp [digit]

theorem scanDigits_append (stops : Stops rest) {text digits tail : List Char}
    (scanned : scanDigits text = some (digits, tail)) :
    scanDigits (text ++ rest) = some (digits, tail ++ rest) := by
  cases text with
  | nil => simp [scanDigits] at scanned
  | cons character text =>
      simp only [scanDigits, List.cons_append] at scanned ⊢
      split_ifs at scanned ⊢ with zero digit
      · simp only [Option.some.injEq, Prod.mk.injEq] at scanned
        simp [← scanned.1, ← scanned.2]
      · simp only [Option.some.injEq, Prod.mk.injEq] at scanned
        rw [takeWhile_append_stops stops, dropWhile_append_stops stops,
          scanned.1, scanned.2]

theorem scanFraction_of_head {text : List Char}
    (other : text.head? ≠ some '.') : scanFraction text = ([], text) := by
  cases text with
  | nil => rfl
  | cons character tail =>
      have different : character ≠ '.' := by simpa using other
      unfold scanFraction
      split
      · rename_i same
        exact absurd (List.cons.inj same).1 different
      · rfl

theorem Stops.head_ne (stops : Stops rest) {character : Char}
    (member : continues character = true) : rest.head? ≠ some character := by
  intro head
  have ends := stops character head
  rw [member] at ends
  exact Bool.noConfusion ends

theorem scanFraction_append (stops : Stops rest) (text : List Char) :
    scanFraction (text ++ rest) =
      ((scanFraction text).1, (scanFraction text).2 ++ rest) := by
  cases text with
  | nil =>
      rw [List.nil_append, scanFraction_of_head (stops.head_ne (by decide))]
      rfl
  | cons character text =>
      by_cases point : character = '.'
      · subst character
        simp only [List.cons_append, scanFraction,
          takeWhile_append_stops stops, dropWhile_append_stops stops]
        split_ifs <;> rfl
      · rw [scanFraction_of_head (by simpa using point),
          scanFraction_of_head (by simpa using point)]

theorem scanSign_append (stops : Stops rest) (text : List Char) :
    scanSign (text ++ rest) =
      ((scanSign text).1, (scanSign text).2 ++ rest) := by
  cases text with
  | nil =>
      cases rest with
      | nil => rfl
      | cons character tail =>
          have plus : character ≠ '+' := by
            simpa using stops.head_ne (by decide : continues '+' = true)
          have minus : character ≠ '-' := by
            simpa using stops.head_ne (by decide : continues '-' = true)
          simp [scanSign, plus, minus]
  | cons character text =>
      simp only [List.cons_append, scanSign]
      split_ifs <;> rfl

theorem scanExponent_append (stops : Stops rest) (text : List Char) :
    scanExponent (text ++ rest) =
      ((scanExponent text).1, (scanExponent text).2 ++ rest) := by
  cases text with
  | nil =>
      cases rest with
      | nil => rfl
      | cons character tail =>
          have lower : character ≠ 'e' := by
            simpa using stops.head_ne (by decide : continues 'e' = true)
          have upper : character ≠ 'E' := by
            simpa using stops.head_ne (by decide : continues 'E' = true)
          simp [scanExponent, lower, upper]
  | cons character text =>
      simp only [List.cons_append, scanExponent, scanSign_append stops,
        takeWhile_append_stops stops, dropWhile_append_stops stops]
      split_ifs <;> rfl

theorem scanMagnitude_append (stops : Stops rest)
    {text magnitude tail : List Char} {integral : Bool}
    (scanned : scanMagnitude text = some (magnitude, integral, tail)) :
    scanMagnitude (text ++ rest) = some (magnitude, integral, tail ++ rest) := by
  cases digitsScan : scanDigits text with
  | none => simp [scanMagnitude, digitsScan] at scanned
  | some pair =>
      obtain ⟨digits, afterDigits⟩ := pair
      simp only [scanMagnitude, digitsScan, Option.bind_eq_bind,
        Option.bind_some, Option.some.injEq, Prod.mk.injEq] at scanned
      obtain ⟨rfl, rfl, rfl⟩ := scanned
      simp only [scanMagnitude, scanDigits_append stops digitsScan,
        scanFraction_append stops, scanExponent_append stops,
        Option.bind_eq_bind, Option.bind_some]

/-- A number that fills the text is read the same before any stop. -/
theorem scanNumber_append (stops : Stops rest) {text tail : List Char}
    {value : Json} (scanned : scanNumber text = some (value, tail)) :
    scanNumber (text ++ rest) = some (value, tail ++ rest) := by
  cases text with
  | nil => simp [scanNumber] at scanned
  | cons character text =>
      simp only [scanNumber, List.cons_append] at scanned ⊢
      split_ifs at scanned ⊢ with minus
      · cases found : scanMagnitude text with
        | none => simp [found] at scanned
        | some triple =>
            obtain ⟨magnitude, integral, remaining⟩ := triple
            rw [scanMagnitude_append stops found]
            rw [found] at scanned
            cases integral <;>
              simp_all only [Option.bind_eq_bind, Option.bind_some, if_true,
                Bool.false_eq_true, if_false, Option.some.injEq,
                Prod.mk.injEq]
      · cases found : scanMagnitude (character :: text) with
        | none => simp [found] at scanned
        | some triple =>
            obtain ⟨magnitude, integral, remaining⟩ := triple
            rw [← List.cons_append, scanMagnitude_append stops found]
            rw [found] at scanned
            cases integral <;>
              simp_all only [Option.bind_eq_bind, Option.bind_some, if_true,
                Bool.false_eq_true, if_false, Option.some.injEq,
                Prod.mk.injEq]

end Numbers

theorem toDigits_head {value : Nat} (positive : 0 < value) :
    (Nat.toDigits 10 value).head? ≠ some '0' := by
  induction value using Nat.strongRecOn with
  | ind value induction =>
      rw [Nat.toDigits_eq_if (by omega)]
      split_ifs with small
      · have table : ∀ digit < 10, 0 < digit →
            [Nat.digitChar digit].head? ≠ some '0' := by decide
        exact table value small positive
      · have quotient : 0 < value / 10 := by omega
        have smaller : value / 10 < value := by omega
        have head := induction (value / 10) smaller quotient
        have nonempty : Nat.toDigits 10 (value / 10) ≠ [] :=
          Nat.toDigits_ne_nil
        rwa [List.head?_append_of_ne_nil _ nonempty]

theorem scanDigits_toDigits (value : Nat) :
    scanDigits (Nat.toDigits 10 value) = some (Nat.toDigits 10 value, []) := by
  have allDigits : ∀ character ∈ Nat.toDigits 10 value,
      character.isDigit = true := fun character member =>
    Nat.isDigit_of_mem_toDigits (by omega) (by omega) member
  by_cases zero : value = 0
  · subst value
    rfl
  · have head := toDigits_head (Nat.pos_of_ne_zero zero)
    cases shape : Nat.toDigits 10 value with
    | nil => exact absurd shape Nat.toDigits_ne_nil
    | cons character text =>
        rw [shape] at head allDigits
        have different : character ≠ '0' := by simpa using head
        have digit := allDigits character (by simp)
        have tailDigits : ∀ other ∈ text, other.isDigit = true :=
          fun other member => allDigits other (by simp [member])
        have whole : text.takeWhile Char.isDigit = text :=
          List.takeWhile_eq_self_iff.mpr tailDigits
        have none : text.dropWhile Char.isDigit = [] :=
          List.dropWhile_eq_nil_iff.mpr tailDigits
        simp [scanDigits, different, digit, whole, none]

theorem scanMagnitude_toDigits (value : Nat) :
    scanMagnitude (Nat.toDigits 10 value) =
      some (Nat.toDigits 10 value, true, []) := by
  simp [scanMagnitude, scanDigits_toDigits, scanFraction, scanExponent]

theorem scanNumber_renderInt (value : Int) :
    scanNumber (renderInt value) = some (.int value, []) := by
  cases value with
  | ofNat value =>
      cases shape : Nat.toDigits 10 value with
      | nil => exact absurd shape Nat.toDigits_ne_nil
      | cons character text =>
          have digit : character.isDigit = true :=
            Nat.isDigit_of_mem_toDigits (b := 10) (n := value)
              (by omega) (by omega) (by simp [shape])
          have different : character ≠ '-' := by
            rintro rfl
            exact absurd digit (by decide)
          have magnitude := scanMagnitude_toDigits value
          rw [shape] at magnitude
          have back := Nat.ofDigitChars_ten_toDigits (n := value)
          rw [shape] at back
          simp only [renderInt, shape, scanNumber, different, if_false,
            magnitude, Option.bind_eq_bind, Option.bind_some, if_true, back]
          rfl
  | negSucc value =>
      have back := Nat.ofDigitChars_ten_toDigits (n := value + 1)
      simp only [renderInt, scanNumber, if_true, scanMagnitude_toDigits,
        Option.bind_eq_bind, Option.bind_some, back]
      rfl

section Strings

theorem hexValue?_digit {value : Nat} (small : value < 16) :
    hexValue? (Hex.digit value) = some value := by
  rw [hexValue?, Hex.toLower_of_isDigit (Hex.isDigit_digit small)]
  exact Hex.value?_digit small

theorem scanHexFour_hexFour {value : Nat} (small : value < 65536)
    (rest : List Char) :
    scanHexFour (hexFour value ++ rest) = some (value, rest) := by
  have whole : value / 4096 % 16 * 4096 + value / 256 % 16 * 256 +
      value / 16 % 16 * 16 + value % 16 = value := by omega
  simp only [hexFour, List.cons_append, List.nil_append, scanHexFour,
    hexValue?_digit (Nat.mod_lt _ (by omega : 0 < 16)), Option.bind_eq_bind,
    Option.bind_some, whole]

theorem char_range (character : Char) :
    character.toNat < 55296 ∨
      57343 < character.toNat ∧ character.toNat < 1114112 :=
  character.valid

/-- The two halves of a character outside the basic plane. -/
theorem scanLowSurrogate_pair {offset : Nat} (small : offset < 1048576)
    (rest : List Char) :
    scanLowSurrogate (55296 + offset / 1024 % 1024)
        ('\\' :: 'u' :: (hexFour (56320 + offset % 1024) ++ rest)) =
      some (Char.ofNat (65536 + offset), rest) := by
  have read := scanHexFour_hexFour
    (by omega : 56320 + offset % 1024 < 65536) rest
  have range : 56320 ≤ 56320 + offset % 1024 ∧
      56320 + offset % 1024 < 57344 := by omega
  have whole : 65536 + (55296 + offset / 1024 % 1024 - 55296) * 1024 +
      (56320 + offset % 1024 - 56320) = 65536 + offset := by omega
  simp only [scanLowSurrogate, read, Option.bind_eq_bind, Option.bind_some,
    if_pos range, whole]

theorem scanEscape_pair {offset : Nat} (small : offset < 1048576)
    (rest : List Char) :
    scanEscape ('u' :: (hexFour (55296 + offset / 1024 % 1024) ++
        '\\' :: 'u' :: (hexFour (56320 + offset % 1024) ++ rest))) =
      some (Char.ofNat (65536 + offset), rest) := by
  have read := scanHexFour_hexFour
    (by omega : 55296 + offset / 1024 % 1024 < 65536)
    ('\\' :: 'u' :: (hexFour (56320 + offset % 1024) ++ rest))
  have range : 55296 ≤ 55296 + offset / 1024 % 1024 ∧
      55296 + offset / 1024 % 1024 < 56320 := by omega
  simp only [scanEscape, if_true, read, Option.bind_eq_bind, Option.bind_some,
    if_pos range, scanLowSurrogate_pair small]

theorem scanString_surrogates (fuel : Nat) {character : Char}
    (wide : ¬ character.toNat < 65536) (rest : List Char) :
    scanString (fuel + 1)
        ('\\' :: 'u' ::
            hexFour (55296 + (character.toNat - 65536) / 1024 % 1024) ++
          '\\' :: 'u' :: hexFour (56320 + (character.toNat - 65536) % 1024) ++
          rest) =
      (scanString fuel rest).bind fun result =>
        some (character :: result.1, result.2) := by
  have range := char_range character
  have read := scanEscape_pair
    (by omega : character.toNat - 65536 < 1048576) rest
  have whole : 65536 + (character.toNat - 65536) = character.toNat := by omega
  have escape : ('\\' : Char) ≠ '"' := by decide
  simp only [List.cons_append, List.append_assoc, scanString,
    if_neg escape, if_true, read, whole, Option.bind_eq_bind,
    Option.bind_some, Char.ofNat_toNat]

/-- One escaped character is read as that character. -/
theorem scanString_escapeChar (fuel : Nat) (character : Char)
    (rest : List Char) :
    scanString (fuel + 1) (escapeChar character ++ rest) =
      (scanString fuel rest).bind fun result =>
        some (character :: result.1, result.2) := by
  unfold escapeChar
  split_ifs with quoted slash newline carriage tab feed back plain basic
  · subst quoted; rfl
  · subst slash; rfl
  · subst newline; rfl
  · subst carriage; rfl
  · subst tab; rfl
  · subst feed; rfl
  · subst back; rfl
  · have visible : ¬ character.toNat < 32 := by omega
    simp [scanString, quoted, slash, visible]
  · have range := char_range character
    have read := scanHexFour_hexFour basic rest
    have notHigh : ¬ (55296 ≤ character.toNat ∧ character.toNat < 56320) := by
      omega
    have notLow : ¬ (56320 ≤ character.toNat ∧ character.toNat < 57344) := by
      omega
    simp [scanString, scanEscape, read, notHigh, notLow]
  · exact scanString_surrogates fuel basic rest

theorem scanString_escape (value rest : List Char) (fuel : Nat)
    (enough : value.length + 1 ≤ fuel) :
    scanString fuel (value.flatMap escapeChar ++ '"' :: rest) =
      some (value, rest) := by
  induction value generalizing fuel with
  | nil =>
      obtain ⟨spare, rfl⟩ : ∃ spare, fuel = spare + 1 := ⟨fuel - 1, by omega⟩
      rfl
  | cons character value induction =>
      obtain ⟨spare, rfl⟩ : ∃ spare, fuel = spare + 1 := ⟨fuel - 1, by omega⟩
      have tail := induction spare (by
        simp only [List.length_cons] at enough
        omega)
      simp only [List.flatMap_cons, List.append_assoc,
        scanString_escapeChar, tail, Option.bind_some]

theorem length_flatMap_escapeChar (value : List Char) :
    value.length ≤ (value.flatMap escapeChar).length := by
  induction value with
  | nil => exact Nat.le_refl 0
  | cons character value induction =>
      have one : 1 ≤ (escapeChar character).length := by
        unfold escapeChar
        split_ifs <;> simp [hexFour]
      simp only [List.flatMap_cons, List.length_cons, List.length_append]
      omega

end Strings

section Blanks

theorem skipBlanks_append {gap : List Char} (text : List Char)
    (blank : ∀ character ∈ gap, isBlank character = true) :
    skipBlanks (gap ++ text) = skipBlanks text := by
  induction gap with
  | nil => rfl
  | cons character gap induction =>
      have first := blank character (by simp)
      have rest := induction (fun other member => blank other (by simp [member]))
      simpa [skipBlanks, first] using rest

theorem skipBlanks_cons {character : Char} (text : List Char)
    (visible : isBlank character = false) :
    skipBlanks (character :: text) = character :: text := by
  simp [skipBlanks, visible]

theorem skipBlanks_gap_newline (style : Style) (depth : Nat)
    (text : List Char) :
    skipBlanks (style.newline depth ++ text) = skipBlanks text :=
  skipBlanks_append text (style.newline_blank depth)

end Blanks

/-- The characters a value can begin with. -/
def starts (character : Char) : Bool :=
  character.isDigit ||
    ['"', '{', '[', 'n', 't', 'f', '-', 'N', 'I'].contains character

theorem starts_visible {character : Char} (start : starts character = true) :
    isBlank character = false ∧ character ≠ ']' ∧ character ≠ '}' := by
  refine ⟨?_, ?_, ?_⟩
  · by_contra blank
    simp only [isBlank, Bool.not_eq_false, Bool.or_eq_true,
      decide_eq_true_eq] at blank
    rcases blank with ((rfl | rfl) | rfl) | rfl <;> exact absurd start (by decide)
  · rintro rfl
    exact absurd start (by decide)
  · rintro rfl
    exact absurd start (by decide)

/-- A number begins with a digit or a minus sign. -/
theorem scanNumber_head {text rest : List Char} {value : Json}
    (scanned : scanNumber text = some (value, rest)) :
    ∃ character tail, text = character :: tail ∧
      (character = '-' ∨ character.isDigit = true) := by
  cases text with
  | nil => simp [scanNumber] at scanned
  | cons character text =>
      refine ⟨character, text, rfl, ?_⟩
      by_cases minus : character = '-'
      · exact .inl minus
      · refine .inr ?_
        by_contra other
        have notZero : character ≠ '0' := by
          rintro rfl
          exact other (by decide)
        simp [scanNumber, minus, scanMagnitude, scanDigits, notZero,
          other] at scanned

theorem isFloatText_cases {text : List Char} (valid : isFloatText text = true) :
    scanNumber text = some (.float text, []) ∨ text = "NaN".toList ∨
      text = "Infinity".toList ∨ text = "-Infinity".toList := by
  simp only [isFloatText, Bool.and_eq_true, Bool.or_eq_true,
    decide_eq_true_eq, beq_iff_eq] at valid
  tauto

theorem render_head (style : Style) (depth : Nat) (value : Json)
    (valid : wellFormed value = true) :
    ∃ character tail, render style depth value = character :: tail ∧
      starts character = true := by
  have number : ∀ {text rest scanned}, scanNumber text = some (scanned, rest) →
      ∃ character tail, text = character :: tail ∧
        starts character = true := by
    intro text rest scanned read
    obtain ⟨character, tail, rfl, shape⟩ := scanNumber_head read
    refine ⟨character, tail, rfl, ?_⟩
    rcases shape with rfl | digit
    · decide
    · simp [starts, digit]
  cases value with
  | null => exact ⟨'n', "ull".toList, rfl, rfl⟩
  | bool value =>
      cases value
      · exact ⟨'f', "alse".toList, rfl, rfl⟩
      · exact ⟨'t', "rue".toList, rfl, rfl⟩
  | int value => exact number (scanNumber_renderInt value)
  | float text =>
      rcases isFloatText_cases valid with read | rfl | rfl | rfl
      · exact number read
      · exact ⟨'N', "aN".toList, rfl, rfl⟩
      · exact ⟨'I', "nfinity".toList, rfl, rfl⟩
      · exact ⟨'-', "Infinity".toList, rfl, rfl⟩
  | str value => exact ⟨'"', _, rfl, rfl⟩
  | arr items =>
      cases items with
      | nil => exact ⟨'[', [']'], rfl, rfl⟩
      | cons item items => exact ⟨'[', _, rfl, rfl⟩
  | obj fields =>
      cases fields with
      | nil => exact ⟨'{', ['}'], rfl, rfl⟩
      | cons field fields => exact ⟨'{', _, rfl, rfl⟩

theorem skipBlanks_render (style : Style) (depth : Nat) {value : Json}
    (valid : wellFormed value = true) (rest : List Char) :
    skipBlanks (render style depth value ++ rest) =
      render style depth value ++ rest := by
  obtain ⟨character, tail, shape, start⟩ := render_head style depth value valid
  rw [shape, List.cons_append]
  exact skipBlanks_cons _ (starts_visible start).1

theorem scanWord_of_number {text rest : List Char} {value : Json}
    (scanned : scanNumber text = some (value, rest)) :
    scanWord text = some (value, rest) := by
  obtain ⟨character, tail, rfl, shape⟩ := scanNumber_head scanned
  have notN : character ≠ 'n' := by
    rintro rfl
    rcases shape with impossible | impossible <;> exact absurd impossible (by decide)
  have notT : character ≠ 't' := by
    rintro rfl
    rcases shape with impossible | impossible <;> exact absurd impossible (by decide)
  have notF : character ≠ 'f' := by
    rintro rfl
    rcases shape with impossible | impossible <;> exact absurd impossible (by decide)
  simp [scanWord, after?, List.isPrefixOf, notN.symm, notT.symm, notF.symm,
    scanned]

theorem scanValue_of_number {text rest : List Char} {value : Json} (fuel : Nat)
    (scanned : scanNumber text = some (value, rest)) :
    scanValue (fuel + 1) text = some (value, rest) := by
  have word := scanWord_of_number scanned
  obtain ⟨character, tail, rfl, shape⟩ := scanNumber_head scanned
  have notQuote : character ≠ '"' := by
    rintro rfl
    rcases shape with impossible | impossible <;> exact absurd impossible (by decide)
  have notBrace : character ≠ '{' := by
    rintro rfl
    rcases shape with impossible | impossible <;> exact absurd impossible (by decide)
  have notBracket : character ≠ '[' := by
    rintro rfl
    rcases shape with impossible | impossible <;> exact absurd impossible (by decide)
  simp [scanValue, notQuote, notBrace, notBracket, word]

theorem ofPairs_of_nodup {pairs : List (String × Json)}
    (nodup : (pairs.map Prod.fst).Nodup) : ofPairs pairs = pairs := by
  have general : ∀ (later done : List (String × Json)),
      ((done ++ later).map Prod.fst).Nodup →
      later.foldl (fun fields pair => Fields.set fields pair.1 pair.2) done =
        done ++ later := by
    intro later
    induction later with
    | nil => simp
    | cons pair later induction =>
        intro done distinct
        have fresh : pair.1 ∉ Fields.keys done := by
          intro member
          rw [List.map_append, List.nodup_append] at distinct
          exact distinct.2.2 pair.1 member pair.1 (by simp) rfl
        simp only [List.foldl_cons, Fields.set_of_notMem fresh]
        have step := induction (done ++ [pair]) (by simpa using distinct)
        simpa using step
  simpa [ofPairs] using general pairs [] (by simpa using nodup)

theorem scanValue_float {text rest : List Char}
    (valid : isFloatText text = true) (stops : Stops rest) (fuel : Nat) :
    scanValue (fuel + 1) (text ++ rest) = some (.float text, rest) := by
  rcases isFloatText_cases valid with read | rfl | rfl | rfl
  · exact scanValue_of_number fuel (by
      simpa using scanNumber_append stops read)
  · rfl
  · rfl
  · rfl

theorem renderItems_stops (style : Style) (depth : Nat) (items : List Json)
    {closing : List Char} (stops : Stops closing) :
    Stops (renderItems style depth items ++ closing) := by
  cases items with
  | nil => simpa [renderItems] using stops
  | cons item items => exact Stops.cons _ (by decide)

theorem renderFields_stops (style : Style) (depth : Nat)
    (fields : List (String × Json)) {closing : List Char}
    (stops : Stops closing) :
    Stops (renderFields style depth fields ++ closing) := by
  cases fields with
  | nil => simpa [renderFields] using stops
  | cons field fields =>
      obtain ⟨name, value⟩ := field
      exact Stops.cons _ (by decide)

theorem newline_stops (style : Style) (depth : Nat) {character : Char}
    (ends : continues character = false) (rest : List Char) :
    Stops (style.newline depth ++ character :: rest) := by
  unfold Style.newline
  cases style.indent with
  | none => exact Stops.cons rest ends
  | some width => exact Stops.cons _ (by decide)

theorem length_quote (value : String) :
    value.toList.length + 2 ≤ (quote value).length := by
  have longer := length_flatMap_escapeChar value.toList
  simp only [quote, List.length_cons, List.length_append, List.length_nil]
  omega

mutual

/-- A written value is read back, and the scan stops right after it. -/
theorem scanValue_render (style : Style) :
    ∀ (value : Json) (depth fuel : Nat) (rest : List Char),
      wellFormed value = true → Stops rest →
      2 * (render style depth value).length ≤ fuel →
      scanValue fuel (render style depth value ++ rest) = some (value, rest)
  | .null, depth, fuel, rest, valid, stops, enough => by
      obtain ⟨spare, rfl⟩ : ∃ spare, fuel = spare + 1 :=
        ⟨fuel - 1, by simp [render] at enough; omega⟩
      rfl
  | .bool true, depth, fuel, rest, valid, stops, enough => by
      obtain ⟨spare, rfl⟩ : ∃ spare, fuel = spare + 1 :=
        ⟨fuel - 1, by simp [render] at enough; omega⟩
      rfl
  | .bool false, depth, fuel, rest, valid, stops, enough => by
      obtain ⟨spare, rfl⟩ : ∃ spare, fuel = spare + 1 :=
        ⟨fuel - 1, by simp [render] at enough; omega⟩
      rfl
  | .int value, depth, fuel, rest, valid, stops, enough => by
      obtain ⟨character, tail, shape, _⟩ :=
        render_head style depth (.int value) valid
      obtain ⟨spare, rfl⟩ : ∃ spare, fuel = spare + 1 :=
        ⟨fuel - 1, by simp [shape] at enough; omega⟩
      have read := scanNumber_append stops (scanNumber_renderInt value)
      simp only [render]
      exact scanValue_of_number spare (by simpa using read)
  | .float text, depth, fuel, rest, valid, stops, enough => by
      obtain ⟨character, tail, shape, _⟩ :=
        render_head style depth (.float text) valid
      obtain ⟨spare, rfl⟩ : ∃ spare, fuel = spare + 1 :=
        ⟨fuel - 1, by simp [shape] at enough; omega⟩
      simp only [wellFormed] at valid
      simp only [render]
      exact scanValue_float valid stops spare
  | .str value, depth, fuel, rest, valid, stops, enough => by
      have longer := length_quote value
      obtain ⟨spare, rfl⟩ : ∃ spare, fuel = spare + 1 :=
        ⟨fuel - 1, by simp only [render] at enough; omega⟩
      have read := scanString_escape value.toList rest spare (by
        simp only [render] at enough
        omega)
      simp [render, quote, scanValue, read]
  | .arr [], depth, fuel, rest, valid, stops, enough => by
      obtain ⟨spare, rfl⟩ : ∃ spare, fuel = spare + 1 :=
        ⟨fuel - 1, by simp [render] at enough; omega⟩
      rfl
  | .arr (item :: items), depth, fuel, rest, valid, stops, enough => by
      simp only [render, List.length_cons, List.length_append,
        List.length_nil] at enough
      obtain ⟨spare, rfl⟩ : ∃ spare, fuel = spare + 1 :=
        ⟨fuel - 1, by omega⟩
      simp only [wellFormed, wellFormedItems, Bool.and_eq_true] at valid
      have read := scanItems_render style item items (depth + 1) spare
        (style.newline depth) rest valid.1 valid.2
        (style.newline_blank depth) (by omega)
        (newline_stops style depth (by decide) rest)
      have visible := skipBlanks_render style (depth + 1) valid.1
        (renderItems style (depth + 1) items ++
          (style.newline depth ++ ']' :: rest))
      obtain ⟨character, tail, shape, start⟩ :=
        render_head style (depth + 1) item valid.1
      have notClosing := (starts_visible start).2.1
      have notQuote : ('[' : Char) ≠ '"' := by decide
      have notBrace : ('[' : Char) ≠ '{' := by decide
      simp only [render, List.cons_append, List.append_assoc, List.nil_append,
        scanValue, if_neg notQuote, if_neg notBrace, if_true,
        skipBlanks_gap_newline, visible]
      rw [shape, List.cons_append] at read ⊢
      split
      · rename_i same
        exact absurd (List.cons.inj same).1 notClosing
      · simp only [read, Option.bind_eq_bind, Option.bind_some]
  | .obj [], depth, fuel, rest, valid, stops, enough => by
      obtain ⟨spare, rfl⟩ : ∃ spare, fuel = spare + 1 :=
        ⟨fuel - 1, by simp [render] at enough; omega⟩
      rfl
  | .obj ((name, value) :: fields), depth, fuel, rest, valid, stops,
      enough => by
      simp only [render, List.length_cons, List.length_append,
        List.length_nil] at enough
      obtain ⟨spare, rfl⟩ : ∃ spare, fuel = spare + 1 :=
        ⟨fuel - 1, by omega⟩
      simp only [wellFormed, wellFormedFields, Bool.and_eq_true,
        decide_eq_true_eq] at valid
      have read := scanFields_render style name value fields (depth + 1) spare
        (style.newline depth) rest valid.2.1 valid.2.2
        (style.newline_blank depth) (by omega)
        (newline_stops style depth (by decide) rest)
      have notQuote : ('{' : Char) ≠ '"' := by decide
      have visible : ∀ text, skipBlanks (quote name ++ text) =
          quote name ++ text := fun text =>
        skipBlanks_cons _ (by decide)
      simp only [render, List.cons_append, List.append_assoc, List.nil_append,
        scanValue, if_neg notQuote, if_true, skipBlanks_gap_newline, visible]
      split
      · rename_i same
        simp [quote] at same
      · simp only [read, Option.bind_eq_bind, Option.bind_some,
          ofPairs_of_nodup valid.1]
termination_by value => sizeOf value

/-- Items are read up to the closing bracket. -/
theorem scanItems_render (style : Style) (item : Json) :
    ∀ (items : List Json) (depth fuel : Nat) (gap rest : List Char),
      wellFormed item = true → wellFormedItems items = true →
      (∀ character ∈ gap, isBlank character = true) →
      2 * ((render style depth item).length +
        (renderItems style depth items).length) + 1 ≤ fuel →
      Stops (gap ++ ']' :: rest) →
      scanItems fuel (render style depth item ++
          (renderItems style depth items ++ (gap ++ ']' :: rest))) =
        some (item :: items, rest)
  | [], depth, fuel, gap, rest, itemValid, itemsValid, blank, enough,
      stops => by
      obtain ⟨spare, rfl⟩ : ∃ spare, fuel = spare + 1 := ⟨fuel - 1, by omega⟩
      have read := scanValue_render style item depth spare (gap ++ ']' :: rest)
        itemValid stops (by omega)
      have closing : skipBlanks (gap ++ ']' :: rest) = ']' :: rest := by
        rw [skipBlanks_append _ blank]
        exact skipBlanks_cons rest (by decide)
      simp only [renderItems, List.nil_append, scanItems, read,
        Option.bind_eq_bind, Option.bind_some, closing]
  | next :: items, depth, fuel, gap, rest, itemValid, itemsValid, blank,
      enough, stops => by
      obtain ⟨spare, rfl⟩ : ∃ spare, fuel = spare + 1 := ⟨fuel - 1, by omega⟩
      have read := scanValue_render style item depth spare
        (renderItems style depth (next :: items) ++ (gap ++ ']' :: rest))
        itemValid (renderItems_stops style depth (next :: items) stops)
        (by omega)
      simp only [renderItems, List.length_cons, List.length_append] at enough
      simp only [wellFormedItems, Bool.and_eq_true] at itemsValid
      have later := scanItems_render style next items depth spare gap rest
        itemsValid.1 itemsValid.2 blank (by omega) stops
      have comma : ∀ text, skipBlanks (',' :: text) = ',' :: text := fun text =>
        skipBlanks_cons text (by decide)
      simp only [renderItems, List.cons_append, List.append_assoc] at read later ⊢
      simp only [scanItems, read, Option.bind_eq_bind, Option.bind_some, comma,
        skipBlanks_append _ style.itemGap_blank, skipBlanks_gap_newline,
        skipBlanks_render style depth itemsValid.1, later]
termination_by items => sizeOf item + sizeOf items

/-- Bindings are read up to the closing brace. -/
theorem scanFields_render (style : Style) (name : String) (value : Json) :
    ∀ (fields : List (String × Json)) (depth fuel : Nat)
      (gap rest : List Char),
      wellFormed value = true → wellFormedFields fields = true →
      (∀ character ∈ gap, isBlank character = true) →
      2 * ((quote name).length + (render style depth value).length +
        (renderFields style depth fields).length) + 1 ≤ fuel →
      Stops (gap ++ '}' :: rest) →
      scanFields fuel (quote name ++ ':' :: (style.keyGap ++
          (render style depth value ++
            (renderFields style depth fields ++ (gap ++ '}' :: rest))))) =
        some ((name, value) :: fields, rest)
  | [], depth, fuel, gap, rest, valueValid, fieldsValid, blank, enough,
      stops => by
      obtain ⟨spare, rfl⟩ : ∃ spare, fuel = spare + 1 := ⟨fuel - 1, by omega⟩
      have longer := length_quote name
      have readName := scanString_escape name.toList
        (':' :: (style.keyGap ++ (render style depth value ++
          (gap ++ '}' :: rest)))) spare (by omega)
      have readValue := scanValue_render style value depth spare
        (gap ++ '}' :: rest) valueValid stops (by omega)
      have closing : skipBlanks (gap ++ '}' :: rest) = '}' :: rest := by
        rw [skipBlanks_append _ blank]
        exact skipBlanks_cons rest (by decide)
      have colon : ∀ text, skipBlanks (':' :: text) = ':' :: text := fun text =>
        skipBlanks_cons text (by decide)
      simp only [quote, List.cons_append, List.append_assoc, List.nil_append,
        renderFields, scanFields, readName, Option.bind_eq_bind,
        Option.bind_some, colon, skipBlanks_append _ style.keyGap_blank,
        skipBlanks_render style depth valueValid, readValue, closing,
        String.ofList_toList]
  | (nextName, next) :: fields, depth, fuel, gap, rest, valueValid,
      fieldsValid, blank, enough, stops => by
      obtain ⟨spare, rfl⟩ : ∃ spare, fuel = spare + 1 := ⟨fuel - 1, by omega⟩
      have longer := length_quote name
      have readValue := scanValue_render style value depth spare
        (renderFields style depth ((nextName, next) :: fields) ++
          (gap ++ '}' :: rest)) valueValid
        (renderFields_stops style depth ((nextName, next) :: fields) stops)
        (by omega)
      have readName := scanString_escape name.toList
        (':' :: (style.keyGap ++ (render style depth value ++
          (renderFields style depth ((nextName, next) :: fields) ++
            (gap ++ '}' :: rest))))) spare (by omega)
      simp only [renderFields, List.length_cons, List.length_append] at enough
      simp only [wellFormedFields, Bool.and_eq_true] at fieldsValid
      have later := scanFields_render style nextName next fields depth spare
        gap rest fieldsValid.1 fieldsValid.2 blank (by omega) stops
      have comma : ∀ text, skipBlanks (',' :: text) = ',' :: text := fun text =>
        skipBlanks_cons text (by decide)
      have colon : ∀ text, skipBlanks (':' :: text) = ':' :: text := fun text =>
        skipBlanks_cons text (by decide)
      have visible : ∀ text, skipBlanks (quote nextName ++ text) =
          quote nextName ++ text := fun text =>
        skipBlanks_cons _ (by decide)
      have opening : ∀ text, quote name ++ text =
          '"' :: (name.toList.flatMap escapeChar ++ '"' :: text) := by
        intro text
        simp [quote]
      simp only [renderFields, List.cons_append, List.append_assoc]
        at readName readValue later ⊢
      simp only [opening, scanFields, readName, Option.bind_eq_bind,
        Option.bind_some, colon, skipBlanks_append _ style.keyGap_blank,
        skipBlanks_render style depth valueValid, readValue, comma,
        skipBlanks_append _ style.itemGap_blank, skipBlanks_gap_newline,
        visible, later, String.ofList_toList]
termination_by fields => sizeOf value + sizeOf fields

end

/-- What `json.dumps` writes in any layout, with blanks after it, is what
`json.loads` reads. -/
theorem loads_dumps (style : Style) {value : Json}
    (valid : wellFormed value = true) (trailer : List Char)
    (blank : ∀ character ∈ trailer, isBlank character = true) :
    loads (dumps style value ++ trailer) = some value := by
  have stops : Stops trailer := by
    intro character member
    have blankHead := blank character (List.mem_of_mem_head? member)
    simp only [isBlank, Bool.or_eq_true, decide_eq_true_eq] at blankHead
    rcases blankHead with ((rfl | rfl) | rfl) | rfl <;> decide
  have read := scanValue_render style value 0
    (2 * (dumps style value ++ trailer).length + 2) trailer valid stops (by
      simp only [dumps, List.length_append]
      omega)
  have visible := skipBlanks_render style 0 valid trailer
  have ended : skipBlanks trailer = [] := by
    simpa [skipBlanks] using skipBlanks_append [] blank
  obtain ⟨character, tail, shape, start⟩ := render_head style 0 value valid
  have noMark : ¬ (dumps style value ++ trailer).head? =
      some (Char.ofNat 0xfeff) := by
    simp only [dumps, shape, List.cons_append, List.head?_cons,
      Option.some.injEq]
    rintro rfl
    exact absurd start (by decide)
  simp only [loads, if_neg noMark]
  unfold dumps at read ⊢
  rw [visible, read]
  simp [ended]

theorem blank_ascii {gap : List Char}
    (blank : ∀ character ∈ gap, isBlank character = true) :
    Utf8.IsAscii gap :=
  fun character member => isBlank_ascii (blank character member)

theorem newline_ascii (style : Style) (depth : Nat) :
    Utf8.IsAscii (style.newline depth) :=
  blank_ascii (style.newline_blank depth)

theorem cons_ascii {character : Char} {text : List Char}
    (small : character.toNat < 128) (ascii : Utf8.IsAscii text) :
    Utf8.IsAscii (character :: text) := by
  intro other member
  rcases List.mem_cons.mp member with rfl | later
  · exact small
  · exact ascii other later

mutual

/-- The encoder's text is its own UTF-8. -/
theorem render_ascii (style : Style) :
    ∀ (value : Json) (depth : Nat), wellFormed value = true →
      Utf8.IsAscii (render style depth value)
  | .null, _, _ => by
      simp only [render]
      exact Utf8.IsAscii.of_all (by decide)
  | .bool true, _, _ => by
      simp only [render]
      exact Utf8.IsAscii.of_all (by decide)
  | .bool false, _, _ => by
      simp only [render]
      exact Utf8.IsAscii.of_all (by decide)
  | .int value, _, _ => renderInt_ascii value
  | .float text, _, valid => by
      simp only [wellFormed, isFloatText, Bool.and_eq_true,
        List.all_eq_true, decide_eq_true_eq] at valid
      exact valid.1
  | .str value, _, _ => quote_ascii value
  | .arr [], _, _ => by
      simp only [render]
      exact Utf8.IsAscii.of_all (by decide)
  | .arr (item :: items), depth, valid => by
      simp only [wellFormed, wellFormedItems, Bool.and_eq_true] at valid
      have closing : Utf8.IsAscii [']'] := by
        exact Utf8.IsAscii.of_all (by decide)
      exact cons_ascii (by decide) ((newline_ascii style _).append
        ((render_ascii style item _ valid.1).append
          ((renderItems_ascii style items _ valid.2).append
            ((newline_ascii style _).append closing))))
  | .obj [], _, _ => by
      simp only [render]
      exact Utf8.IsAscii.of_all (by decide)
  | .obj ((name, value) :: fields), depth, valid => by
      simp only [wellFormed, wellFormedFields, Bool.and_eq_true] at valid
      have closing : Utf8.IsAscii ['}'] := by
        exact Utf8.IsAscii.of_all (by decide)
      exact cons_ascii (by decide) ((newline_ascii style _).append
        ((quote_ascii name).append (cons_ascii (by decide)
          ((blank_ascii style.keyGap_blank).append
            ((render_ascii style value _ valid.2.1).append
              ((renderFields_ascii style fields _ valid.2.2).append
                ((newline_ascii style _).append closing)))))))

theorem renderItems_ascii (style : Style) :
    ∀ (items : List Json) (depth : Nat), wellFormedItems items = true →
      Utf8.IsAscii (renderItems style depth items)
  | [], _, _ => by unfold Utf8.IsAscii; simp [renderItems]
  | item :: items, depth, valid => by
      simp only [wellFormedItems, Bool.and_eq_true] at valid
      exact cons_ascii (by decide) ((blank_ascii style.itemGap_blank).append
        ((newline_ascii style _).append
          ((render_ascii style item _ valid.1).append
            (renderItems_ascii style items _ valid.2))))

theorem renderFields_ascii (style : Style) :
    ∀ (fields : List (String × Json)) (depth : Nat),
      wellFormedFields fields = true →
      Utf8.IsAscii (renderFields style depth fields)
  | [], _, _ => by unfold Utf8.IsAscii; simp [renderFields]
  | (name, value) :: fields, depth, valid => by
      simp only [wellFormedFields, Bool.and_eq_true] at valid
      exact cons_ascii (by decide) ((blank_ascii style.itemGap_blank).append
        ((newline_ascii style _).append ((quote_ascii name).append
          (cons_ascii (by decide) ((blank_ascii style.keyGap_blank).append
            ((render_ascii style value _ valid.1).append
              (renderFields_ascii style fields _ valid.2)))))))

end

/-- Reading the bytes of a written document gives the document back. -/
theorem loads_decode_dumps (style : Style) {value : Json}
    (valid : wellFormed value = true) (trailer : List Char)
    (blank : ∀ character ∈ trailer, isBlank character = true) :
    (Utf8.decode (Utf8.encodeAscii (dumps style value ++ trailer))).bind
      loads = some value := by
  have ascii := (render_ascii style value 0 valid).append (blank_ascii blank)
  have decoded := Utf8.decode_encodeAscii ascii
  unfold dumps
  rw [decoded]
  exact loads_dumps style valid trailer blank

theorem dumps_injective (style : Style) {left right : Json}
    (leftValid : wellFormed left = true)
    (rightValid : wellFormed right = true)
    (same : dumps style left = dumps style right) : left = right := by
  have readLeft := loads_dumps style leftValid [] (by simp)
  have readRight := loads_dumps style rightValid [] (by simp)
  rw [same, readRight] at readLeft
  exact (Option.some.inj readLeft).symm

end Json

end Cats
