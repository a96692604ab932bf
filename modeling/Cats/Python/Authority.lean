import Cats.Python.Url

/-!
# URLs of any host

The path of an `http` or `https` URL whose authority passes the checks of
`urlparse` is what follows the authority, where that is plain.
-/

namespace Cats

namespace Url

/-- An authority that ends at the next slash and passes the checks. -/
structure IsAuthority (authority : List Char) : Prop where
  delimited : ∀ character ∈ authority,
    character ≠ '/' ∧ character ≠ '?' ∧ character ≠ '#'
  unbroken : ∀ character ∈ authority,
    character ≠ '\t' ∧ character ≠ '\r' ∧ character ≠ '\n'
  checked : checkNetloc authority = .ok ()

/-- A host of letters, digits, dots and hyphens, with a port or without one. -/
theorem isAuthority_of_plain {authority : List Char}
    (plain : ∀ character ∈ authority, isPlain character = true) :
    IsAuthority authority := by
  constructor
  · intro character member
    obtain ⟨_, _, slash, query, fragment, _⟩ :=
      isPlain_cases (plain character member)
    exact ⟨slash, query, fragment⟩
  · intro character member
    have large := (isPlain_cases (plain character member)).1
    refine ⟨?_, ?_, ?_⟩
    all_goals
      intro control
      rw [control] at large
      revert large
      decide
  · exact checkNetloc_plain plain

/-- `http` or `https`. -/
def webScheme : Bool → List Char
  | false => ['h', 't', 't', 'p']
  | true => ['h', 't', 't', 'p', 's']

/-- The URL of a scheme, an authority and what follows the slash behind it. -/
def web (secure : Bool) (authority rest : List Char) : String :=
  String.ofList (webScheme secure ++ ':' :: '/' :: '/' ::
    (authority ++ '/' :: rest))

theorem toList_web (secure : Bool) (authority rest : List Char) :
    (web secure authority rest).toList =
      webScheme secure ++ ':' :: '/' :: '/' :: (authority ++ '/' :: rest) :=
  String.toList_ofList

theorem splitScheme_web (secure : Bool) (tail : List Char) :
    splitScheme (webScheme secure ++ ':' :: tail) =
      (String.ofList (webScheme secure), tail) := by
  have parted : Text.partition? ':' (webScheme secure ++ ':' :: tail) =
      some (webScheme secure, tail) := by
    cases secure <;> simp [Text.partition?, webScheme]
  have lowered : Text.lower (String.ofList (webScheme secure)) =
      String.ofList (webScheme secure) := by
    cases secure <;> decide
  rw [splitScheme, parted]
  dsimp only
  rw [if_pos (by cases secure <;> decide), lowered]

theorem splitNetloc_authority {authority : List Char}
    (host : IsAuthority authority) (rest : List Char) :
    splitNetloc ('/' :: '/' :: (authority ++ '/' :: rest)) =
      (authority, '/' :: rest) := by
  have inside : ∀ character ∈ authority,
      (!(['/', '?', '#'].contains character)) = true := by
    intro character member
    have facts := host.delimited character member
    simp [facts]
  unfold splitNetloc
  simp only []
  rw [List.takeWhile_append_of_pos inside, List.dropWhile_append_of_pos inside]
  simp

/-- What may stand in a path without being cut off. -/
structure IsPlace (rest : List Char) : Prop where
  plain : ∀ character ∈ rest, isPlain character = true ∨ character = '/'

theorem IsPlace.facts {rest : List Char} (place : IsPlace rest) :
    ∀ character ∈ '/' :: rest, 43 < character.toNat ∧ character ≠ '?' ∧
      character ≠ '#' ∧ character ≠ ';' := by
  intro character member
  rcases List.mem_cons.mp member with slash | member
  · rw [slash]
    decide
  · rcases place.plain character member with plain | slash
    · obtain ⟨least, _, _, query, fragment, params, _⟩ := isPlain_cases plain
      exact ⟨least, query, fragment, params⟩
    · rw [slash]
      decide

theorem isWhole_place {rest : List Char} (place : IsPlace rest) :
    dropParams ((('/' :: rest).takeWhile (· ≠ '#')).takeWhile (· ≠ '?')) =
      '/' :: rest := by
  have noFragment : ('/' :: rest).takeWhile (· ≠ '#') = '/' :: rest := by
    apply List.takeWhile_eq_self_iff.mpr
    intro character member
    simpa using (place.facts character member).2.2.1
  have noQuery : ('/' :: rest).takeWhile (· ≠ '?') = '/' :: rest := by
    apply List.takeWhile_eq_self_iff.mpr
    intro character member
    simpa using (place.facts character member).2.1
  have segment : ((('/' :: rest).rtakeWhile (· ≠ '/')).takeWhile (· ≠ ';')) =
      ('/' :: rest).rtakeWhile (· ≠ '/') := by
    apply List.takeWhile_eq_self_iff.mpr
    intro character member
    have inside := (List.rtakeWhile_suffix _ _).subset member
    simpa using (place.facts character inside).2.2.2
  rw [noFragment, noQuery, dropParams, segment]
  exact List.rdropWhile_append_rtakeWhile

/-- Nothing is trimmed off such a URL. -/
theorem trimmed_web {authority rest : List Char} (secure : Bool)
    (host : IsAuthority authority) (place : IsPlace rest) :
    ((web secure authority rest).toList.dropWhile (·.toNat ≤ 32)).filter
        (fun character => !(['\t', '\r', '\n'].contains character)) =
      (web secure authority rest).toList := by
  have start : (web secure authority rest).toList.dropWhile (·.toNat ≤ 32) =
      (web secure authority rest).toList := by
    rw [toList_web]
    cases secure
    · exact List.dropWhile_cons_of_neg (by decide)
    · exact List.dropWhile_cons_of_neg (by decide)
  rw [start, toList_web]
  apply List.filter_eq_self.mpr
  intro character member
  rcases List.mem_append.mp member with scheme | member
  · have table : (webScheme secure).all (fun other =>
        !(['\t', '\r', '\n'].contains other)) = true := by
      cases secure <;> decide
    exact List.all_eq_true.mp table character scheme
  rcases List.mem_append.mp (show character ∈ [':', '/', '/'] ++
    (authority ++ '/' :: rest) from member) with mark | member
  · have table : [':', '/', '/'].all (fun other =>
        !(['\t', '\r', '\n'].contains other)) = true := by decide
    exact List.all_eq_true.mp table character mark
  rcases List.mem_append.mp member with inside | behind
  · have facts := host.unbroken character inside
    simp [facts]
  · have large := (place.facts character behind).1
    have table : (['\t', '\r', '\n'].all fun other => other.toNat ≤ 13) =
        true := by decide
    rw [Bool.not_eq_true', Bool.eq_false_iff]
    intro found
    have small := of_decide_eq_true (List.all_eq_true.mp table character
      (List.contains_iff_mem.mp found))
    omega

/-- The path is what follows the authority. -/
theorem path_web {authority rest : List Char} (secure : Bool)
    (host : IsAuthority authority) (place : IsPlace rest) :
    path (web secure authority rest) = .ok (String.ofList ('/' :: rest)) := by
  have params : usesParams.contains (String.ofList (webScheme secure)) =
      true := by
    cases secure <;> decide
  rw [path, trimmed_web secure host place, toList_web, splitScheme_web]
  dsimp only
  rw [splitNetloc_authority host]
  dsimp only
  rw [host.checked, params, if_pos rfl, isWhole_place place]
  rfl

end Url

end Cats
