import Cats.Python.Authority

/-!
# URLs with a scheme in any case

`urlparse` lowers the scheme, so the path of such a URL does not depend on how
its scheme is written.
-/

namespace Cats

/-- A character that lowers to a letter is one. -/
theorem Text.isAlpha_of_toLower {character : Char}
    (letter : character.toLower.isAlpha = true) : character.isAlpha = true := by
  by_cases upper : character.isUpper = true
  · delta Char.isAlpha
    rw [upper, Bool.true_or]
  · have same : character.toLower = character := by
      delta Char.toLower
      split_ifs with range
      · exact absurd (decide_eq_true range) upper
      · rfl
    rwa [same] at letter

namespace Url

/-- `http` or `https` in any case. -/
structure WebScheme where
  letters : List Char
  secure : Bool
  lowered : letters.map Char.toLower = webScheme secure

/-- The URL of a scheme, an authority and what follows the slash behind it. -/
def address (scheme : WebScheme) (authority rest : List Char) : String :=
  String.ofList (scheme.letters ++ ':' :: '/' :: '/' ::
    (authority ++ '/' :: rest))

section Scheme

variable (scheme : WebScheme)

theorem toList_address (authority rest : List Char) :
    (address scheme authority rest).toList =
      scheme.letters ++ ':' :: '/' :: '/' :: (authority ++ '/' :: rest) :=
  String.toList_ofList

theorem WebScheme.isAlpha : ∀ character ∈ scheme.letters,
    character.isAlpha = true := by
  intro character member
  apply Text.isAlpha_of_toLower
  have lowered := List.mem_map_of_mem (f := Char.toLower) member
  rw [scheme.lowered] at lowered
  have table : (webScheme scheme.secure).all Char.isAlpha = true := by
    cases scheme.secure <;> decide
  exact List.all_eq_true.mp table _ lowered

theorem WebScheme.letters_eq : ∃ first others,
    scheme.letters = first :: others := by
  cases shape : scheme.letters with
  | nil =>
      have lowered := scheme.lowered
      rw [shape] at lowered
      cases secure : scheme.secure with
      | false =>
          rw [secure] at lowered
          cases lowered
      | true =>
          rw [secure] at lowered
          cases lowered
  | cons first others => exact ⟨first, others, rfl⟩

theorem isAlphanum_of_isAlpha {character : Char}
    (letter : character.isAlpha = true) : character.isAlphanum = true := by
  rw [Char.isAlphanum, letter, Bool.true_or]

theorem code_of_isAlpha {character : Char} (letter : character.isAlpha = true) :
    64 < character.toNat := by
  delta Char.isAlpha Char.isUpper Char.isLower at letter
  simp only [Bool.or_eq_true, Bool.and_eq_true, decide_eq_true_eq] at letter
  rcases letter with upper | lower
  · have least : 65 ≤ character.toNat := upper.1
    omega
  · have least : 97 ≤ character.toNat := lower.1
    omega

theorem splitScheme_address (tail : List Char) :
    splitScheme (scheme.letters ++ ':' :: tail) =
      (String.ofList (webScheme scheme.secure), tail) := by
  have letters := scheme.isAlpha
  have inside : ∀ character ∈ scheme.letters,
      decide (character ≠ ':') = true := by
    intro character member
    rw [decide_eq_true_eq]
    intro colon
    have code := code_of_isAlpha (letters character member)
    rw [colon] at code
    revert code
    decide
  have parted : Text.partition? ':' (scheme.letters ++ ':' :: tail) =
      some (scheme.letters, tail) := by
    rw [Text.partition?, List.dropWhile_append_of_pos inside,
      List.takeWhile_append_of_pos inside]
    simp
  have start : (scheme.letters.head?.map Char.isAlpha).getD false = true := by
    obtain ⟨first, others, shape⟩ := scheme.letters_eq
    rw [shape]
    exact letters first (by simp [shape])
  have all : scheme.letters.all isSchemeChar = true := by
    rw [List.all_eq_true]
    intro character member
    rw [isSchemeChar, isAlphanum_of_isAlpha (letters character member),
      Bool.true_or]
  have lowered : Text.lower (String.ofList scheme.letters) =
      String.ofList (webScheme scheme.secure) := by
    rw [Text.lower, String.toList_ofList, scheme.lowered]
  rw [splitScheme, parted]
  dsimp only
  rw [if_pos (by rw [start, all]; rfl), lowered]

/-- What stands before the path of an address holds no space or line break. -/
theorem trimmed_address {authority rest : List Char}
    (host : IsAuthority authority) (place : IsPlace rest) :
    ((address scheme authority rest).toList.dropWhile (·.toNat ≤ 32)).filter
        (fun character => !(['\t', '\r', '\n'].contains character)) =
      (address scheme authority rest).toList := by
  have controls : ∀ character : Char, 32 < character.toNat →
      (!(['\t', '\r', '\n'].contains character)) = true := by
    intro character large
    have table : (['\t', '\r', '\n'].all fun other => other.toNat ≤ 13) =
        true := by decide
    rw [Bool.not_eq_true', Bool.eq_false_iff]
    intro found
    have small := of_decide_eq_true (List.all_eq_true.mp table character
      (List.contains_iff_mem.mp found))
    omega
  have start : (address scheme authority rest).toList.dropWhile
      (·.toNat ≤ 32) = (address scheme authority rest).toList := by
    obtain ⟨first, others, shape⟩ := scheme.letters_eq
    have letter := scheme.isAlpha first (by simp [shape])
    have large := code_of_isAlpha letter
    rw [toList_address, shape]
    apply List.dropWhile_cons_of_neg
    rw [decide_eq_true_eq]
    omega
  rw [start, toList_address]
  apply List.filter_eq_self.mpr
  intro character member
  rcases List.mem_append.mp member with inScheme | member
  · apply controls
    have large := code_of_isAlpha (scheme.isAlpha character inScheme)
    omega
  rcases List.mem_append.mp (show character ∈ [':', '/', '/'] ++
    (authority ++ '/' :: rest) from member) with mark | member
  · have table : [':', '/', '/'].all (fun other =>
        !(['\t', '\r', '\n'].contains other)) = true := by decide
    exact List.all_eq_true.mp table character mark
  rcases List.mem_append.mp member with inside | behind
  · have facts := host.unbroken character inside
    simp [facts]
  · apply controls
    exact Nat.lt_trans (by decide) (place.facts character behind).1

/-- The path of an address is what follows its authority. -/
theorem path_address {authority rest : List Char}
    (host : IsAuthority authority) (place : IsPlace rest) :
    path (address scheme authority rest) =
      .ok (String.ofList ('/' :: rest)) := by
  have params : usesParams.contains
      (String.ofList (webScheme scheme.secure)) = true := by
    cases scheme.secure <;> decide
  rw [path, trimmed_address scheme host place, toList_address,
    splitScheme_address]
  dsimp only
  rw [splitNetloc_authority host]
  dsimp only
  rw [host.checked, params, if_pos rfl, isWhole_place place]
  rfl

end Scheme

end Url

end Cats
