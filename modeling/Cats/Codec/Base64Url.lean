import Cats.Codec.Hex

/-!
# Unpadded base64url text of byte strings

Three bytes become four characters of the URL-safe alphabet; one or two left
over bytes become two or three.  Reading is the lenient one of the standard
library: the bits a short last group cannot use are dropped, and only a single
left over character is refused.
-/

namespace Cats

namespace Base64Url

def alphabet : List Char :=
  ['A', 'B', 'C', 'D', 'E', 'F', 'G', 'H', 'I', 'J', 'K', 'L', 'M', 'N',
    'O', 'P', 'Q', 'R', 'S', 'T', 'U', 'V', 'W', 'X', 'Y', 'Z', 'a', 'b',
    'c', 'd', 'e', 'f', 'g', 'h', 'i', 'j', 'k', 'l', 'm', 'n', 'o', 'p',
    'q', 'r', 's', 't', 'u', 'v', 'w', 'x', 'y', 'z', '0', '1', '2', '3',
    '4', '5', '6', '7', '8', '9', '-', '_']

/-- The character of a value below sixty-four. -/
def symbol (value : Nat) : Char := alphabet.getD value 'A'

def value? (character : Char) : Option Nat :=
  alphabet.findIdx? (· == character)

def isSymbol (character : Char) : Bool := alphabet.contains character

def encode : Bytes → List Char
  | [] => []
  | [first] =>
      [symbol (first.toNat / 4), symbol (first.toNat % 4 * 16)]
  | [first, second] =>
      [symbol (first.toNat / 4),
        symbol (first.toNat % 4 * 16 + second.toNat / 16),
        symbol (second.toNat % 16 * 4)]
  | first :: second :: third :: rest =>
      symbol (first.toNat / 4) ::
      symbol (first.toNat % 4 * 16 + second.toNat / 16) ::
      symbol (second.toNat % 16 * 4 + third.toNat / 64) ::
      symbol (third.toNat % 64) :: encode rest

/-- The bytes of a list of six-bit values. -/
def assemble : List Nat → Option Bytes
  | [] => some []
  | [_] => none
  | [first, second] => some [UInt8.ofNat (first * 4 + second / 16)]
  | [first, second, third] =>
      some [UInt8.ofNat (first * 4 + second / 16),
        UInt8.ofNat (second % 16 * 16 + third / 4)]
  | first :: second :: third :: fourth :: rest =>
      (assemble rest).map fun tail =>
        UInt8.ofNat (first * 4 + second / 16) ::
        UInt8.ofNat (second % 16 * 16 + third / 4) ::
        UInt8.ofNat (third % 4 * 64 + fourth) :: tail

def decode (text : List Char) : Option Bytes :=
  (text.mapM value?).bind assemble

private theorem value?_symbol_range :
    ∀ value ∈ List.range 64, value? (symbol value) = some value := by
  decide

private theorem isSymbol_symbol_range :
    ∀ value ∈ List.range 64, isSymbol (symbol value) = true := by
  decide

theorem value?_symbol {value : Nat} (small : value < 64) :
    value? (symbol value) = some value :=
  value?_symbol_range value (List.mem_range.mpr small)

theorem isSymbol_symbol {value : Nat} (small : value < 64) :
    isSymbol (symbol value) = true :=
  isSymbol_symbol_range value (List.mem_range.mpr small)

/-- The six-bit values `encode` spells. -/
def sextets : Bytes → List Nat
  | [] => []
  | [first] => [first.toNat / 4, first.toNat % 4 * 16]
  | [first, second] =>
      [first.toNat / 4, first.toNat % 4 * 16 + second.toNat / 16,
        second.toNat % 16 * 4]
  | first :: second :: third :: rest =>
      first.toNat / 4 :: (first.toNat % 4 * 16 + second.toNat / 16) ::
      (second.toNat % 16 * 4 + third.toNat / 64) :: third.toNat % 64 ::
      sextets rest

theorem encode_eq_map_sextets (bytes : Bytes) :
    encode bytes = (sextets bytes).map symbol := by
  induction bytes using sextets.induct with
  | case1 => rfl
  | case2 first => rfl
  | case3 first second => rfl
  | case4 first second third rest induction =>
      simp [encode, sextets, induction]

theorem sextets_small (bytes : Bytes) :
    ∀ value ∈ sextets bytes, value < 64 := by
  induction bytes using sextets.induct with
  | case1 => simp [sextets]
  | case2 first =>
      have := first.toNat_lt
      intro value member
      simp only [sextets, List.mem_cons, List.not_mem_nil, or_false] at member
      omega
  | case3 first second =>
      have := first.toNat_lt
      have := second.toNat_lt
      intro value member
      simp only [sextets, List.mem_cons, List.not_mem_nil, or_false] at member
      omega
  | case4 first second third rest induction =>
      have := first.toNat_lt
      have := second.toNat_lt
      have := third.toNat_lt
      intro value member
      simp only [sextets, List.mem_cons] at member
      rcases member with rfl | rfl | rfl | rfl | later
      · omega
      · omega
      · omega
      · omega
      · exact induction value later

theorem mapM_value?_symbol (values : List Nat)
    (small : ∀ value ∈ values, value < 64) :
    (values.map symbol).mapM value? = some values := by
  induction values with
  | nil => rfl
  | cons value values induction =>
      have head := value?_symbol (small value (by simp))
      have tail := induction (fun other member => small other (by simp [member]))
      simp [List.mapM_cons, head, tail]

private theorem ofNat_eq {byte : UInt8} {value : Nat}
    (same : value = byte.toNat) : UInt8.ofNat value = byte := by
  rw [same, UInt8.ofNat_toNat]

theorem assemble_sextets (bytes : Bytes) :
    assemble (sextets bytes) = some bytes := by
  induction bytes using sextets.induct with
  | case1 => rfl
  | case2 first =>
      have := first.toNat_lt
      simp only [sextets, assemble, Option.some.injEq, List.cons.injEq,
        and_true]
      exact ofNat_eq (by omega)
  | case3 first second =>
      have := first.toNat_lt
      have := second.toNat_lt
      simp only [sextets, assemble, Option.some.injEq, List.cons.injEq,
        and_true]
      exact ⟨ofNat_eq (by omega), ofNat_eq (by omega)⟩
  | case4 first second third rest induction =>
      have := first.toNat_lt
      have := second.toNat_lt
      have := third.toNat_lt
      simp only [sextets, assemble, induction, Option.map_some,
        Option.some.injEq, List.cons.injEq, and_true]
      exact ⟨ofNat_eq (by omega), ofNat_eq (by omega), ofNat_eq (by omega)⟩

/-- Reading the text of a byte string gives the byte string back. -/
@[simp] theorem decode_encode (bytes : Bytes) :
    decode (encode bytes) = some bytes := by
  rw [decode, encode_eq_map_sextets,
    mapM_value?_symbol _ (sextets_small bytes), Option.bind_some,
    assemble_sextets]

theorem encode_isSymbol (bytes : Bytes) :
    ∀ character ∈ encode bytes, isSymbol character = true := by
  intro character member
  rw [encode_eq_map_sextets] at member
  obtain ⟨value, valueMember, rfl⟩ := List.mem_map.mp member
  exact isSymbol_symbol (sextets_small bytes value valueMember)

theorem encode_ne_nil {bytes : Bytes} (nonempty : bytes ≠ []) :
    encode bytes ≠ [] := by
  match bytes, nonempty with
  | [_], _ => simp [encode]
  | [_, _], _ => simp [encode]
  | _ :: _ :: _ :: _, _ => simp [encode]

theorem encode_injective {left right : Bytes}
    (same : encode left = encode right) : left = right := by
  have decoded := congrArg decode same
  simpa using decoded

end Base64Url

end Cats
