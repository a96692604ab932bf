import Cats.Codec.JsonPrint

/-!
# Reading JSON text

The scanner follows the standard decoder: an object keeps the last binding of
a repeated key, `NaN` and the infinities are accepted, control characters
inside strings are not.  The spelling of a float is kept.  Every call spends
one unit of fuel, and `loads` provides more than any text can use.  An escape
that would leave a lone surrogate is refused, for strings hold scalar values.
-/

namespace Cats

namespace Json

def skipBlanks (text : List Char) : List Char := text.dropWhile isBlank

def hexValue? (character : Char) : Option Nat := Hex.value? character.toLower

/-- The value of the next four hexadecimal digits. -/
def scanHexFour : List Char → Option (Nat × List Char)
  | first :: second :: third :: fourth :: rest => do
      let a ← hexValue? first
      let b ← hexValue? second
      let c ← hexValue? third
      let d ← hexValue? fourth
      some (a * 4096 + b * 256 + c * 16 + d, rest)
  | _ => none

/-- The second half of a surrogate pair. -/
def scanLowSurrogate (high : Nat) : List Char → Option (Char × List Char)
  | '\\' :: 'u' :: rest => do
      let (low, tail) ← scanHexFour rest
      if 56320 ≤ low ∧ low < 57344 then
        some (Char.ofNat (65536 + (high - 55296) * 1024 + (low - 56320)), tail)
      else none
  | _ => none

/-- What follows a backslash. -/
def scanEscape : List Char → Option (Char × List Char)
  | [] => none
  | character :: rest =>
      if character = 'u' then do
        let (value, tail) ← scanHexFour rest
        if 55296 ≤ value ∧ value < 56320 then scanLowSurrogate value tail
        else if 56320 ≤ value ∧ value < 57344 then none
        else some (Char.ofNat value, tail)
      else if character = '"' then some ('"', rest)
      else if character = '\\' then some ('\\', rest)
      else if character = '/' then some ('/', rest)
      else if character = 'b' then some ('\x08', rest)
      else if character = 'f' then some ('\x0c', rest)
      else if character = 'n' then some ('\n', rest)
      else if character = 'r' then some ('\r', rest)
      else if character = 't' then some ('\t', rest)
      else none

/-- The rest of a string after its opening quote. -/
def scanString : Nat → List Char → Option (List Char × List Char)
  | 0, _ => none
  | _ + 1, [] => none
  | fuel + 1, character :: rest =>
      if character = '"' then some ([], rest)
      else if character = '\\' then do
        let (escaped, tail) ← scanEscape rest
        let (value, final) ← scanString fuel tail
        some (escaped :: value, final)
      else if character.toNat < 32 then none
      else do
        let (value, final) ← scanString fuel rest
        some (character :: value, final)

/-- `0` or digits that do not start with it. -/
def scanDigits : List Char → Option (List Char × List Char)
  | [] => none
  | character :: rest =>
      if character = '0' then some (['0'], rest)
      else if character.isDigit then
        some (character :: rest.takeWhile Char.isDigit,
          rest.dropWhile Char.isDigit)
      else none

def scanFraction : List Char → List Char × List Char
  | '.' :: rest =>
      if rest.takeWhile Char.isDigit = [] then ([], '.' :: rest)
      else ('.' :: rest.takeWhile Char.isDigit, rest.dropWhile Char.isDigit)
  | text => ([], text)

def scanSign : List Char → List Char × List Char
  | [] => ([], [])
  | character :: rest =>
      if character = '+' ∨ character = '-' then ([character], rest)
      else ([], character :: rest)

def scanExponent : List Char → List Char × List Char
  | [] => ([], [])
  | character :: rest =>
      if character = 'e' ∨ character = 'E' then
        if (scanSign rest).2.takeWhile Char.isDigit = [] then
          ([], character :: rest)
        else
          (character :: ((scanSign rest).1 ++
              (scanSign rest).2.takeWhile Char.isDigit),
            (scanSign rest).2.dropWhile Char.isDigit)
      else ([], character :: rest)

/-- The unsigned part of a number, and whether it is an integer. -/
def scanMagnitude (text : List Char) :
    Option (List Char × Bool × List Char) := do
  let (digits, afterDigits) ← scanDigits text
  let (fraction, afterFraction) := scanFraction afterDigits
  let (exponent, rest) := scanExponent afterFraction
  some (digits ++ (fraction ++ exponent), fraction.isEmpty && exponent.isEmpty,
    rest)

def scanNumber : List Char → Option (Json × List Char)
  | [] => none
  | character :: text =>
      if character = '-' then do
        let (magnitude, integral, rest) ← scanMagnitude text
        if integral then
          some (.int (-(Nat.ofDigitChars 10 magnitude 0 : Int)), rest)
        else some (.float ('-' :: magnitude), rest)
      else do
        let (magnitude, integral, rest) ← scanMagnitude (character :: text)
        if integral then
          some (.int (Nat.ofDigitChars 10 magnitude 0 : Int), rest)
        else some (.float magnitude, rest)

/-- The text after `word`, when the text starts with it. -/
def after? (word text : List Char) : Option (List Char) :=
  if word.isPrefixOf text then some (text.drop word.length) else none

/-- The constants the decoder knows, tried before and after numbers. -/
def scanWord (text : List Char) : Option (Json × List Char) :=
  ((after? "null".toList text).map fun rest => (Json.null, rest)) <|>
  ((after? "true".toList text).map fun rest => (.bool true, rest)) <|>
  ((after? "false".toList text).map fun rest => (.bool false, rest)) <|>
  scanNumber text <|>
  ((after? "NaN".toList text).map fun rest => (.float "NaN".toList, rest)) <|>
  ((after? "Infinity".toList text).map fun rest =>
    (.float "Infinity".toList, rest)) <|>
  ((after? "-Infinity".toList text).map fun rest =>
    (.float "-Infinity".toList, rest))

/-- `dict(pairs)`. -/
def ofPairs (pairs : List (String × Json)) : Fields :=
  pairs.foldl (fun fields pair => fields.set pair.1 pair.2) []

mutual

def scanValue : Nat → List Char → Option (Json × List Char)
  | 0, _ => none
  | _ + 1, [] => none
  | fuel + 1, character :: rest =>
      if character = '"' then do
        let (value, final) ← scanString fuel rest
        some (.str (String.ofList value), final)
      else if character = '{' then
        match skipBlanks rest with
        | '}' :: final => some (.obj [], final)
        | text => do
            let (pairs, final) ← scanFields fuel text
            some (.obj (ofPairs pairs), final)
      else if character = '[' then
        match skipBlanks rest with
        | ']' :: final => some (.arr [], final)
        | text => do
            let (items, final) ← scanItems fuel text
            some (.arr items, final)
      else scanWord (character :: rest)

/-- Items up to the closing bracket. -/
def scanItems : Nat → List Char → Option (List Json × List Char)
  | 0, _ => none
  | fuel + 1, text => do
      let (item, rest) ← scanValue fuel text
      match skipBlanks rest with
      | ']' :: final => some ([item], final)
      | ',' :: more => do
          let (items, final) ← scanItems fuel (skipBlanks more)
          some (item :: items, final)
      | _ => none

/-- Bindings up to the closing brace. -/
def scanFields : Nat → List Char → Option (List (String × Json) × List Char)
  | 0, _ => none
  | fuel + 1, text =>
      match text with
      | '"' :: afterQuote => do
          let (name, rest) ← scanString fuel afterQuote
          match skipBlanks rest with
          | ':' :: afterColon => do
              let (value, afterValue) ← scanValue fuel (skipBlanks afterColon)
              match skipBlanks afterValue with
              | '}' :: final => some ([(String.ofList name, value)], final)
              | ',' :: more => do
                  let (fields, final) ← scanFields fuel (skipBlanks more)
                  some ((String.ofList name, value) :: fields, final)
              | _ => none
          | _ => none
      | _ => none

end

/-- `json.loads(text)`; `none` stands for `JSONDecodeError`. -/
def loads (text : List Char) : Option Json :=
  if text.head? = some (Char.ofNat 0xfeff) then none
  else
    match scanValue (2 * text.length + 2) (skipBlanks text) with
    | some (value, rest) => if skipBlanks rest = [] then some value else none
    | none => none

end Json

end Cats
