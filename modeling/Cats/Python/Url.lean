import Cats.Raised

/-!
# The path of a URL

`urlparse` removes leading control characters and spaces, drops tabs and line
breaks anywhere, then cuts off scheme, authority, fragment, query and
parameters in that order.  It raises for brackets that hold no IPv6 address
and for an authority whose compatibility form would contain a delimiter.
-/

namespace Cats

namespace Url

/-- Characters an authority may not hold outside ASCII: their compatibility
forms contain one of `/?#@:`. -/
def disguisedDelimiters : List Nat :=
  [0x2047, 0x2048, 0x2049, 0x2100, 0x2101, 0x2105, 0x2106, 0x2a74, 0xfe13,
    0xfe16, 0xfe55, 0xfe56, 0xfe5f, 0xfe6b, 0xff03, 0xff0f, 0xff1a, 0xff1f,
    0xff20]

def isSchemeChar (character : Char) : Bool :=
  character.isAlphanum || ['+', '-', '.'].contains character

/-- The schemes whose last path segment carries parameters. -/
def usesParams : List String :=
  ["", "ftp", "hdl", "prospero", "http", "https", "shttp", "rtsp", "rtsps",
    "rtspu", "sip", "sips", "mms", "sftp", "tel"]

def isHexDigit (character : Char) : Bool := Hex.isDigit character.toLower

def isOctet (text : List Char) : Bool :=
  text ≠ [] && text.all Char.isDigit && text.length ≤ 3 &&
    (text.length = 1 || text.head? ≠ some '0') &&
    Nat.ofDigitChars 10 text 0 ≤ 255

def isIPv4 (text : List Char) : Bool :=
  let octets := Text.splitOn '.' text
  octets.length = 4 && octets.all isOctet

def isHextet (text : List Char) : Bool :=
  text ≠ [] && text.length ≤ 4 && text.all isHexDigit

/-- The groups of an address without a double colon, or around it. -/
def isIPv6Groups (parts : List (List Char)) : Bool :=
  let inner := (parts.drop 1).dropLast
  let gaps := inner.countP (· = [])
  let position := inner.findIdx (· = []) + 1
  if parts.length > 9 then false
  else if gaps = 0 then parts.length = 8 && parts.all isHextet
  else if gaps = 1 then
    let before := parts.take position
    let behind := parts.drop (position + 1)
    let high := if before.head? = some [] then before.tail else before
    let low := if behind.getLast? = some [] then behind.dropLast else behind
    (before.head? ≠ some [] || high = []) &&
      (behind.getLast? ≠ some [] || low = []) &&
      high.length + low.length < 8 && high.all isHextet && low.all isHextet
  else false

def isIPv6 (text : List Char) : Bool :=
  let scopeFine := match Text.partition? '%' text with
    | none => true
    | some (_, scope) => scope ≠ [] && !scope.contains '%'
  let parts := Text.splitOn ':' (text.takeWhile (· ≠ '%'))
  let last := parts.getLastD []
  let expanded :=
    if last.contains '.' then parts.dropLast ++ [['0'], ['0']] else parts
  scopeFine && parts.length ≥ 3 && (!last.contains '.' || isIPv4 last) &&
    isIPv6Groups expanded

/-- `_check_bracketed_host`. -/
def isBracketedHost (host : List Char) : Bool :=
  if host.head? = some 'v' then
    match Text.partition? '.' host with
    | none => false
    | some (version, address) =>
        version.tail ≠ [] && version.tail.all isHexDigit && address ≠ [] &&
          !address.contains '\n'
  else isIPv6 host

/-- `_checknetloc` and the checks on brackets. -/
def checkNetloc (netloc : List Char) : Except Raised Unit :=
  if netloc.contains '[' ≠ netloc.contains ']' then
    .error (.valueError "Invalid IPv6 URL")
  else if netloc.contains '[' &&
      !isBracketedHost
        (((netloc.dropWhile (· ≠ '[')).drop 1).takeWhile (· ≠ ']')) then
    .error (.valueError "invalid bracketed host")
  else if netloc.any fun character =>
      disguisedDelimiters.contains character.toNat then
    .error (.valueError
      "netloc contains invalid characters under NFKC normalization")
  else .ok ()

/-- The scheme and what follows its colon. -/
def splitScheme (url : List Char) : String × List Char :=
  match Text.partition? ':' url with
  | none => ("", url)
  | some (scheme, rest) =>
      if (scheme.head?.map Char.isAlpha).getD false &&
          scheme.all isSchemeChar then
        (Text.lower (String.ofList scheme), rest)
      else ("", url)

/-- The authority after a double slash. -/
def splitNetloc (url : List Char) : List Char × List Char :=
  match url with
  | '/' :: '/' :: rest =>
      let delimiter (character : Char) : Bool :=
        ['/', '?', '#'].contains character
      (rest.takeWhile (!delimiter ·), rest.dropWhile (!delimiter ·))
  | _ => ([], url)

/-- The path without the parameters of its last segment. -/
def dropParams (path : List Char) : List Char :=
  let segment := path.rtakeWhile (· ≠ '/')
  let directory := path.rdropWhile (· ≠ '/')
  directory ++ segment.takeWhile (· ≠ ';')

/-- `urlparse(url).path`. -/
def path (url : String) : Except Raised String := do
  let trimmed := (url.toList.dropWhile (·.toNat ≤ 32)).filter fun character =>
    !(['\t', '\r', '\n'].contains character)
  let (scheme, hierarchical) := splitScheme trimmed
  let (netloc, rest) := splitNetloc hierarchical
  checkNetloc netloc
  let bare := (rest.takeWhile (· ≠ '#')).takeWhile (· ≠ '?')
  .ok (String.ofList
    (if usesParams.contains scheme then dropParams bare else bare))

example : path " HTTP://node:5000/ldp/cas/ab;v=1?x#y" =
    .ok "/ldp/cas/ab" := by decide +kernel

/-- A character no part of a URL gives a meaning. -/
def isPlain (character : Char) : Bool :=
  character.isAlphanum || ['-', '.', ':'].contains character

theorem isPlain_cases {character : Char} (plain : isPlain character = true) :
    43 < character.toNat ∧ character.toNat < 128 ∧
      character ≠ '/' ∧ character ≠ '?' ∧ character ≠ '#' ∧ character ≠ ';' ∧
      character ≠ '[' ∧ character ≠ ']' := by
  have ascii : ∀ value < 128, isPlain (Char.ofNat value) = true →
      43 < value ∧ Char.ofNat value ≠ '/' ∧ Char.ofNat value ≠ '?' ∧
        Char.ofNat value ≠ '#' ∧ Char.ofNat value ≠ ';' ∧
        Char.ofNat value ≠ '[' ∧ Char.ofNat value ≠ ']' := by
    decide
  have small : character.toNat < 128 := by
    delta isPlain Char.isAlphanum Char.isAlpha Char.isUpper Char.isLower
      Char.isDigit at plain
    simp only [Bool.or_eq_true, Bool.and_eq_true,
      decide_eq_true_eq, UInt32.le_iff_toNat_le, ge_iff_le] at plain
    rcases plain with ((upper | lower) | digit) | listed
    · have most : character.toNat ≤ 90 := upper.2
      omega
    · have most : character.toNat ≤ 122 := lower.2
      omega
    · have most : character.toNat ≤ 57 := digit.2
      omega
    · have table : (['-', '.', ':'].all fun other => other.toNat < 128) =
          true := by decide
      exact of_decide_eq_true (List.all_eq_true.mp table character
        (List.contains_iff_mem.mp listed))
  have facts := ascii character.toNat small
  rw [Char.ofNat_toNat] at facts
  obtain ⟨least, rest⟩ := facts plain
  exact ⟨least, small, rest⟩

theorem splitScheme_http (tail : List Char) :
    splitScheme ('h' :: 't' :: 't' :: 'p' :: ':' :: tail) = ("http", tail) := by
  have parted : Text.partition? ':' ('h' :: 't' :: 't' :: 'p' :: ':' :: tail) =
      some (['h', 't', 't', 'p'], tail) := by
    simp [Text.partition?]
  have lowered : Text.lower (String.ofList ['h', 't', 't', 'p']) = "http" := by
    decide
  rw [splitScheme, parted]
  dsimp only
  rw [if_pos (by decide), lowered]

theorem splitNetloc_plain {authority : List Char}
    (host : ∀ character ∈ authority, isPlain character = true)
    (rest : List Char) :
    splitNetloc ('/' :: '/' :: (authority ++ '/' :: rest)) =
      (authority, '/' :: rest) := by
  have inside : ∀ character ∈ authority,
      (!(['/', '?', '#'].contains character)) = true := by
    intro character member
    have facts := isPlain_cases (host character member)
    simp [facts]
  unfold splitNetloc
  simp only []
  rw [List.takeWhile_append_of_pos inside, List.dropWhile_append_of_pos inside]
  simp

theorem checkNetloc_plain {authority : List Char}
    (host : ∀ character ∈ authority, isPlain character = true) :
    checkNetloc authority = .ok () := by
  have absent : ∀ other : Char, isPlain other = false →
      authority.contains other = false := by
    intro other notPlain
    rw [List.contains_eq_mem, decide_eq_false_iff_not]
    intro member
    rw [host other member] at notPlain
    cases notPlain
  have undisguised : (authority.any fun character =>
      disguisedDelimiters.contains character.toNat) = false := by
    rw [List.any_eq_false]
    intro character member found
    have small := (isPlain_cases (host character member)).2.1
    have table : ∀ value ∈ disguisedDelimiters, 128 ≤ value := by decide
    have large := table _ (List.contains_iff_mem.mp found)
    omega
  rw [checkNetloc, absent '[' (by decide), absent ']' (by decide),
    undisguised]
  rfl

/-- An `http` URL of an authority and what follows the slash behind it. -/
def http (authority rest : List Char) : String :=
  String.ofList ('h' :: 't' :: 't' :: 'p' :: ':' :: '/' :: '/' ::
    (authority ++ '/' :: rest))

/-- The path of a plain `http` URL is what follows the authority. -/
theorem path_http {authority rest : List Char}
    (host : ∀ character ∈ authority, isPlain character = true)
    (place : ∀ character ∈ rest,
      isPlain character = true ∨ character = '/') :
    path (http authority rest) = .ok (String.ofList ('/' :: rest)) := by
  have placeFacts : ∀ character ∈ '/' :: rest, 43 < character.toNat ∧
      character ≠ '?' ∧ character ≠ '#' ∧ character ≠ ';' := by
    intro character member
    rcases List.mem_cons.mp member with slash | member
    · rw [slash]
      decide
    · rcases place character member with plain | slash
      · obtain ⟨least, _, _, query, fragment, params, _⟩ := isPlain_cases plain
        exact ⟨least, query, fragment, params⟩
      · rw [slash]
        decide
  have visible : ∀ character ∈ 'h' :: 't' :: 't' :: 'p' :: ':' :: '/' :: '/' ::
      (authority ++ '/' :: rest), 43 < character.toNat := by
    intro character member
    rcases List.mem_append.mp (show character ∈
      ['h', 't', 't', 'p', ':', '/', '/'] ++ (authority ++ '/' :: rest)
        from member) with scheme | member
    · have table : (['h', 't', 't', 'p', ':', '/', '/'].all fun other =>
          43 < other.toNat) = true := by decide
      exact of_decide_eq_true (List.all_eq_true.mp table character scheme)
    · rcases List.mem_append.mp member with inside | behind
      · exact (isPlain_cases (host character inside)).1
      · exact (placeFacts character behind).1
  have noFragment : ('/' :: rest).takeWhile (· ≠ '#') = '/' :: rest := by
    apply List.takeWhile_eq_self_iff.mpr
    intro character member
    simpa using (placeFacts character member).2.2.1
  have noQuery : ('/' :: rest).takeWhile (· ≠ '?') = '/' :: rest := by
    apply List.takeWhile_eq_self_iff.mpr
    intro character member
    simpa using (placeFacts character member).2.1
  have whole : dropParams ('/' :: rest) = '/' :: rest := by
    have segment : ((('/' :: rest).rtakeWhile (· ≠ '/')).takeWhile (· ≠ ';')) =
        ('/' :: rest).rtakeWhile (· ≠ '/') := by
      apply List.takeWhile_eq_self_iff.mpr
      intro character member
      have inside := (List.rtakeWhile_suffix _ _).subset member
      simpa using (placeFacts character inside).2.2.2
    rw [dropParams, segment]
    exact List.rdropWhile_append_rtakeWhile
  have start : (('h' :: 't' :: 't' :: 'p' :: ':' :: '/' :: '/' ::
      (authority ++ '/' :: rest)).dropWhile (·.toNat ≤ 32)) =
        'h' :: 't' :: 't' :: 'p' :: ':' :: '/' :: '/' ::
          (authority ++ '/' :: rest) := by
    rw [List.dropWhile_cons_of_neg (by decide)]
  have kept : (('h' :: 't' :: 't' :: 'p' :: ':' :: '/' :: '/' ::
      (authority ++ '/' :: rest)).filter fun character =>
        !(['\t', '\r', '\n'].contains character)) =
        'h' :: 't' :: 't' :: 'p' :: ':' :: '/' :: '/' ::
          (authority ++ '/' :: rest) := by
    apply List.filter_eq_self.mpr
    intro character member
    have large := visible character member
    have table : (['\t', '\r', '\n'].all fun other => other.toNat ≤ 13) =
        true := by decide
    rw [Bool.not_eq_true', Bool.eq_false_iff]
    intro found
    have small := of_decide_eq_true (List.all_eq_true.mp table character
      (List.contains_iff_mem.mp found))
    omega
  rw [path, http, String.toList_ofList, start, kept, splitScheme_http]
  dsimp only
  rw [splitNetloc_plain host]
  dsimp only
  rw [checkNetloc_plain host, noFragment, noQuery, whole]
  rfl

end Url

end Cats
