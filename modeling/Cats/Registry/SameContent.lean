import Cats.AddressStore.Agreement
import Cats.Cas.ContentId
import Cats.Ldp.Address
import Cats.Python.Authority
import Cats.Registry.IntakeAgreement

/-!
# Comparators of content

Five checkers decide whether two refs name the same content, each by a
normaliser of its own.  They agree with the equality ids on every spelling of a
digest, but lower the letters of a legacy CID, where case matters.
-/

namespace Cats

/-- `text.rstrip('/').rsplit('/', 1)[-1]`. -/
def lastSegment (text : String) : String :=
  String.ofList ((Text.rstripSlash text).toList.rtakeWhile (· ≠ '/'))

/-- `_uri_digest(uri)`. -/
def uri_digest (uri : String) : String := Text.lower (lastSegment uri)

/-- `from_ni(text).lower() if is_ni_or_digest(text) else text.lower()`, behind
the test for a URI. -/
def tokenOf (text : String) : Except Raised String :=
  if is_http_uri text then .ok (uri_digest text)
  else if is_ni_or_digest text then
    (from_ni text).map fun digest => Text.lower digest.hex
  else .ok (Text.lower text)

/-- `_ref_token(value)`. -/
def ref_token (value : String) : Except Raised String :=
  let text := Text.strip value
  if Text.startsWith (Text.lower text) "ipfs://" then
    tokenOf (String.ofList (text.toList.drop 7))
  else tokenOf text

/-- `_digest_token(value)`. -/
def digest_token (value : String) : Except Raised String :=
  tokenOf (Text.strip value)

/-- `_digest_key(content_id)`. -/
def digest_key (content_id : Option String) : Except Raised (Option String) :=
  match content_id with
  | none => .ok none
  | some content_id =>
      if content_id = "" then .ok none
      else
        let value := Text.strip content_id
        if is_ni_or_digest value then
          (from_ni value).map fun digest => some digest.hex
        else .ok (some (Text.lower value))

/-- `_same_id(left, right)`. -/
def same_id (left right : String) : Except Raised Bool :=
  if is_ni_or_digest left && is_ni_or_digest right then do
    let one ← from_ni left
    let other ← from_ni right
    .ok (one = other)
  else .ok (Text.strip left = Text.strip right)

/-- The collections an LDP path may name. -/
inductive Collection where
  | cas
  | orders
  | invoices
  | boms

def Collection.name : Collection → String
  | .cas => "cas"
  | .orders => "orders"
  | .invoices => "invoices"
  | .boms => "boms"

/-- A content ref: an id in any spelling, or the LDP URI of a key that spells
one. -/
inductive ContentRef where
  | id (spelling : String) (content : ContentId)
      (spells : ContentId.Spells spelling content)
  | uri (secure : Bool) (authority : List Char) (collection : Collection)
      (key : String) (content : ContentId) (host : Url.IsAuthority authority)
      (legal : isCidSegment key = true)
      (spells : ContentId.Spells key content)

namespace ContentRef

/-- The text of the ref. -/
def text : ContentRef → String
  | .id spelling _ _ => spelling
  | .uri secure authority collection key _ _ _ _ =>
      Url.web secure authority
        ("ldp/".toList ++ collection.name.toList ++ '/' :: key.toList)

/-- The content the ref names. -/
def content : ContentRef → ContentId
  | .id _ content _ => content
  | .uri _ _ _ _ content _ _ _ => content

def isUri : ContentRef → Bool
  | .id _ _ _ => false
  | .uri _ _ _ _ _ _ _ _ => true

end ContentRef

/-- What `ref_id` makes of a slot that holds the text. -/
def slotId (index : Option LocatorIndex) (text : String) :
    Except Raised (Option String) :=
  (ref_id index [("content_uri", .str text)] "content").map Prod.fst

/-- `ref_id` gives both texts one id. -/
def SameSlotId (index : Option LocatorIndex) (left right : String) : Prop :=
  ∃ id, slotId index left = .ok (some id) ∧ slotId index right = .ok (some id)

/-- A normaliser makes one token of both texts. -/
def JudgesSame {α : Type} (normalise : String → Except Raised α)
    (left right : String) : Prop :=
  ∃ token, normalise left = .ok token ∧ normalise right = .ok token

/-- Every comparator that applies to two refs judges them the same exactly when
`ref_id` gives them one id. -/
structure ComparatorsAgree (index : Option LocatorIndex)
    (left right : ContentRef) : Prop where
  ref_token : JudgesSame ref_token left.text right.text ↔
    SameSlotId index left.text right.text
  digest_token : JudgesSame digest_token left.text right.text ↔
    SameSlotId index left.text right.text
  uri_digest : left.isUri → right.isUri →
    (uri_digest left.text = uri_digest right.text ↔
      SameSlotId index left.text right.text)
  digest_key : left.isUri = false → right.isUri = false →
    (JudgesSame (fun text => digest_key (some text)) left.text right.text ↔
      SameSlotId index left.text right.text)
  same_id : left.isUri = false → right.isUri = false →
    (same_id left.text right.text = .ok true ↔
      SameSlotId index left.text right.text)

/-- The token a comparator should have for an id, with the letters of a CID
lowered. -/
def ContentId.lowered : ContentId → String
  | .named digest => digest.hex
  | .segment value _ _ => Text.lower value

/-- Two CIDs that differ in the case of letters only. -/
def DifferInCase : ContentId → ContentId → Prop
  | .segment left _ _, .segment right _ _ =>
      left ≠ right ∧ Text.lower left = Text.lower right
  | _, _ => False

namespace ContentId

/-- The two ways a text spells an id. -/
theorem Spells.cases {value : String} {id : ContentId}
    (spells : Spells value id) :
    (∃ digest, id = .named digest ∧ from_ni (Text.strip value) = .ok digest) ∨
    (∃ legal bare, id = .segment (Text.strip value) legal bare) := by
  have parsed := spells "content_id"
  simp only [parse] at parsed
  split_ifs at parsed with empty named legal
  · left
    cases read : from_ni (Text.strip value) with
    | error raised => simp [read, Except.map] at parsed
    | ok digest =>
        rw [read, Except.map, Except.ok.injEq] at parsed
        exact ⟨digest, parsed.symm, rfl⟩
  · right
    exact ⟨legal, by simpa using named, (Except.ok.inj parsed).symm⟩

theorem noColon_of_segment {value : String}
    (legal : isCidSegment value = true) : ':' ∉ value.toList := by
  intro member
  simp only [isCidSegment, Bool.and_eq_true, List.all_eq_true] at legal
  have letter := legal.2 ':' member
  revert letter
  decide

/-- A CID does not begin like a URI of any kind. -/
theorem startsWith_segment {value scheme : String}
    (legal : isCidSegment value = true) (colon : ':' ∈ scheme.toList) :
    Text.startsWith (Text.lower value) scheme = false := by
  have absent := Text.startsWith_lower_of_noColon
    (noColon_of_segment legal) colon
  rwa [strip_segment legal] at absent

theorem is_http_uri_segment {value : String}
    (legal : isCidSegment value = true) : is_http_uri value = false := by
  rw [is_http_uri, strip_segment legal,
    startsWith_segment legal (by decide),
    startsWith_segment legal (by decide)]
  rfl

theorem is_hl_segment {value : String} (legal : isCidSegment value = true) :
    is_hl value = false := by
  rw [is_hl, strip_segment legal, startsWith_segment legal (by decide)]

end ContentId

theorem from_ni_of_spells {value : String} {digest : Digest}
    (spells : ContentId.Spells value (.named digest)) :
    from_ni value = .ok digest := by
  obtain ⟨found, same, named⟩ | ⟨legal, bare, same⟩ := spells.cases
  · cases same
    exact from_ni_strip.mp named
  · cases same

/-- No id begins with `ipfs://`. -/
theorem notIpfs_spelling {value : String} {id : ContentId}
    (spells : ContentId.Spells value id) :
    Text.startsWith (Text.lower (Text.strip value)) "ipfs://" = false := by
  rcases spells.cases with ⟨digest, _, named⟩ | ⟨legal, _, _⟩
  · have scheme : "ipfs://".toList = 'i' :: ['p', 'f', 's', ':', '/', '/'] := by
      decide
    have begins := notScheme_of_from_ni named scheme (by decide)
    rwa [Text.strip_strip] at begins
  · exact ContentId.startsWith_segment legal (by decide)

open ContentId in
/-- The token of an id is its canonical key, the letters lowered. -/
theorem tokenOf_spelling {value : String} {id : ContentId}
    (spells : Spells value id) :
    tokenOf (Text.strip value) = .ok id.lowered := by
  obtain ⟨digest, same, named⟩ | ⟨legal, bare, same⟩ := spells.cases
  · obtain ⟨http, _, digests⟩ := notUri_of_from_ni named
    rw [tokenOf, if_neg (by simp [http]), if_pos digests, named, same]
    simp [Except.map, lowered]
  · rw [tokenOf, if_neg (by simp [is_http_uri_segment legal]),
      if_neg (by simp [bare]), same]
    rfl

theorem ref_token_spelling {value : String} {id : ContentId}
    (spells : ContentId.Spells value id) :
    ref_token value = .ok id.lowered := by
  simp only [ref_token, notIpfs_spelling spells, Bool.false_eq_true, if_false]
  exact tokenOf_spelling spells

theorem digest_token_spelling {value : String} {id : ContentId}
    (spells : ContentId.Spells value id) :
    digest_token value = .ok id.lowered :=
  tokenOf_spelling spells

theorem nonblank_spelling {value : String} {id : ContentId}
    (spells : ContentId.Spells value id) : Text.strip value ≠ "" := by
  intro blank
  have parsed := spells "content_id"
  simp [ContentId.parse, blank] at parsed

theorem digest_key_spelling {value : String} {id : ContentId}
    (spells : ContentId.Spells value id) :
    digest_key (some value) = .ok (some id.lowered) := by
  have nonempty : value ≠ "" := by
    intro empty
    have blank : Text.strip "" = "" := by decide
    rw [empty] at spells
    exact nonblank_spelling spells blank
  simp only [digest_key, nonempty, if_false]
  obtain ⟨digest, same, named⟩ | ⟨legal, bare, same⟩ := spells.cases
  · rw [if_pos (notUri_of_from_ni named).2.2, named, same]
    rfl
  · rw [if_neg (by simp [bare]), same]
    rfl

theorem is_ni_or_digest_spelling {value : String} {id : ContentId}
    (spells : ContentId.Spells value id) :
    is_ni_or_digest value = true ↔ ∃ digest, id = .named digest := by
  have stripped := (is_ni_or_digest_strip value).symm
  obtain ⟨digest, same, named⟩ | ⟨legal, bare, same⟩ := spells.cases
  · rw [stripped]
    exact ⟨fun _ => ⟨digest, same⟩, fun _ => (notUri_of_from_ni named).2.2⟩
  · rw [stripped, bare, same]
    simp

theorem spells_of_strip {left right : String} {id : ContentId}
    (same : Text.strip left = Text.strip right)
    (spells : ContentId.Spells left id) : ContentId.Spells right id := by
  intro label
  have parsed := spells label
  simp only [ContentId.parse, same] at parsed ⊢
  split_ifs at parsed ⊢ with empty named legal
  · exact parsed
  · exact parsed

/-- `_same_id` compares ids. -/
theorem same_id_spelling {left right : String} {one other : ContentId}
    (first : ContentId.Spells left one)
    (second : ContentId.Spells right other) :
    same_id left right = .ok true ↔ one = other := by
  by_cases digests : (is_ni_or_digest left && is_ni_or_digest right) = true
  · obtain ⟨leftNamed, rightNamed⟩ := Bool.and_eq_true_iff.mp digests
    obtain ⟨digest, same⟩ := (is_ni_or_digest_spelling first).mp leftNamed
    obtain ⟨digest', same'⟩ := (is_ni_or_digest_spelling second).mp rightNamed
    rw [same_id, if_pos digests, from_ni_of_spells (same ▸ first),
      from_ni_of_spells (same' ▸ second), same, same']
    simp [bind, Except.bind]
  · rw [same_id, if_neg digests]
    simp only [Except.ok.injEq, decide_eq_true_eq]
    constructor
    · intro stripped
      exact (spells_of_strip stripped first).unique second
    · intro same
      subst same
      obtain ⟨digest, same, named⟩ | ⟨legal, bare, same⟩ := first.cases
      · rw [(is_ni_or_digest_spelling first).mpr ⟨digest, same⟩,
          (is_ni_or_digest_spelling second).mpr ⟨digest, same⟩] at digests
        exact absurd rfl digests
      · obtain ⟨digest, same', _⟩ | ⟨_, _, same'⟩ := second.cases
        · rw [same] at same'
          cases same'
        · rw [same] at same'
          exact ContentId.segment.inj same'

theorem slotId_spelling {value : String} {id : ContentId}
    (spells : ContentId.Spells value id) (index : Option LocatorIndex) :
    slotId index value = .ok (some id.text) := by
  have slot : ref_uri [("content_uri", .str value)] "content" =
      some (Text.strip value) := by
    have field : uri_field_name "content" = "content_uri" := by decide +kernel
    rw [ref_uri, field]
    simp only [Fields.get?, if_true]
    rw [if_neg (nonblank_spelling spells)]
  rw [slotId, ref_id, slot]
  dsimp only
  obtain ⟨digest, same, named⟩ | ⟨legal, bare, same⟩ := spells.cases
  · obtain ⟨http, hl, digests⟩ := notUri_of_from_ni named
    simp only [http, hl, Bool.false_eq_true, if_false, Text.strip_strip,
      equalityOr, digests, if_true, equality_id, named, same]
    rfl
  · simp only [ContentId.is_hl_segment legal, ContentId.is_http_uri_segment legal,
      Bool.false_eq_true, if_false, Text.strip_strip, equalityOr, bare, same]
    rfl

section Uri

variable {secure : Bool} {authority : List Char} {collection : Collection}
  {key : String}

/-- What stands behind the authority of an LDP URI. -/
def ldpPlace (collection : Collection) (key : String) : List Char :=
  "ldp/".toList ++ collection.name.toList ++ '/' :: key.toList

theorem isAlphanum_of_segment (legal : isCidSegment key = true) :
    ∀ character ∈ key.toList, character.isAlphanum = true := by
  simp only [isCidSegment, Bool.and_eq_true, List.all_eq_true] at legal
  exact legal.2

theorem isPlace_ldpPlace (collection : Collection)
    (legal : isCidSegment key = true) :
    Url.IsPlace (ldpPlace collection key) := by
  constructor
  intro character member
  rcases List.mem_append.mp member with start | behind
  · have table : ("ldp/".toList ++ collection.name.toList).all (fun other =>
        Url.isPlain other || other = '/') = true := by
      cases collection <;> decide
    have listed := List.all_eq_true.mp table character start
    rwa [Bool.or_eq_true, decide_eq_true_iff] at listed
  · rcases List.mem_cons.mp behind with slash | inside
    · exact .inr slash
    · left
      rw [Url.isPlain, isAlphanum_of_segment legal character inside,
        Bool.true_or]

/-- A URI with a CID segment at its end has no space around it. -/
theorem strip_ldpUri (legal : isCidSegment key = true) :
    Text.strip (Url.web secure authority (ldpPlace collection key)) =
      Url.web secure authority (ldpPlace collection key) := by
  apply String.toList_injective
  rw [Text.toList_strip, Url.toList_web]
  apply Text.stripChars_eq_self
  · intro character first
    cases secure
    · rw [← Option.mem_some.mp first]
      decide
    · rw [← Option.mem_some.mp first]
      decide
  · intro character last
    have nonempty : key.toList ≠ [] := by
      intro empty
      exact ContentId.segment_ne_empty legal
        (String.toList_injective (empty.trans rfl))
    have behind : (Url.webScheme secure ++ ':' :: '/' :: '/' ::
        (authority ++ '/' :: ldpPlace collection key)) =
        (Url.webScheme secure ++ ':' :: '/' :: '/' ::
          (authority ++ '/' :: ("ldp/".toList ++ collection.name.toList ++
            ['/']))) ++ key.toList := by
      simp [ldpPlace]
    rw [behind, List.getLast?_append_of_ne_nil _ nonempty] at last
    exact isSpace_of_alphanum (isAlphanum_of_segment legal character
      (List.mem_of_getLast? last))

theorem is_http_uri_ldpUri (legal : isCidSegment key = true) :
    is_http_uri (Url.web secure authority (ldpPlace collection key)) = true := by
  rw [is_http_uri, strip_ldpUri legal, Bool.or_eq_true]
  cases secure
  · left
    rw [Text.startsWith_iff, Text.toList_lower, Url.toList_web]
    exact ⟨_, rfl⟩
  · right
    rw [Text.startsWith_iff, Text.toList_lower, Url.toList_web]
    exact ⟨_, rfl⟩

theorem notSlash_of_segment (legal : isCidSegment key = true) :
    ∀ character ∈ key.toList, character ≠ '/' := by
  intro character member slash
  have letter := isAlphanum_of_segment legal character member
  rw [slash] at letter
  revert letter
  decide

/-- The last segment is the key. -/
theorem lastSegment_ldpUri (legal : isCidSegment key = true) :
    lastSegment (Url.web secure authority (ldpPlace collection key)) = key := by
  have shape : (Url.web secure authority (ldpPlace collection key)).toList =
      (Url.webScheme secure ++ ':' :: '/' :: '/' :: (authority ++ '/' ::
        ("ldp/".toList ++ collection.name.toList))) ++ '/' :: key.toList := by
    rw [Url.toList_web]
    simp [ldpPlace]
  have letters := notSlash_of_segment legal
  have unslashed : Text.rstripSlash
      (Url.web secure authority (ldpPlace collection key)) =
        Url.web secure authority (ldpPlace collection key) := by
    apply String.toList_injective
    rw [Text.rstripSlash, String.toList_ofList, List.rdropWhile_eq_self_iff]
    intro nonempty slash
    have last : (Url.web secure authority
        (ldpPlace collection key)).toList.getLast nonempty ∈ key.toList := by
      have nonempty' : key.toList ≠ [] := by
        intro empty
        exact ContentId.segment_ne_empty legal
          (String.toList_injective (empty.trans rfl))
      simp only [shape]
      rw [List.getLast_append_of_ne_nil _ (by simp),
        List.getLast_cons nonempty']
      exact List.getLast_mem nonempty'
    exact letters _ last (of_decide_eq_true slash)
  have inside : ∀ character ∈ key.toList.reverse,
      decide (character ≠ '/') = true := by
    intro character member
    exact decide_eq_true (letters character (List.mem_reverse.mp member))
  rw [lastSegment, unslashed, shape, List.rtakeWhile, List.reverse_append,
    List.reverse_cons, List.append_assoc,
    List.takeWhile_append_of_pos inside]
  simp

theorem keyOf_segment (legal : isCidSegment key = true) :
    (some key).filter (fun key => key ≠ "" && key.toList.all fun character =>
      character.isAlphanum || character = '_' || character = '-') =
        some key := by
  have letters := isAlphanum_of_segment legal
  have nonempty := ContentId.segment_ne_empty legal
  rw [Option.filter_some, if_pos]
  simp only [Bool.and_eq_true, decide_eq_true_eq, List.all_eq_true]
  constructor
  · simpa using nonempty
  · intro character member
    simp [letters character member]

/-- The path of an LDP URI holds its key, under every collection. -/
theorem ldpContentKey?_place (collection : Collection)
    (legal : isCidSegment key = true) :
    ldpContentKey? (String.ofList ('/' :: ldpPlace collection key)) =
      some key := by
  have shape : String.ofList ('/' :: ldpPlace collection key) =
      String.ofList ("/ldp/".toList ++ collection.name.toList ++ ['/']) ++
        key := by
    apply String.toList_injective
    rw [String.toList_append, String.toList_ofList, String.toList_ofList]
    simp [ldpPlace]
  have own : ∀ start : String, start.toList =
      "/ldp/".toList ++ collection.name.toList ++ ['/'] →
      pathAfter? start (String.ofList ('/' :: ldpPlace collection key)) =
        some key := by
    intro start same
    have whole : String.ofList ("/ldp/".toList ++ collection.name.toList ++
        ['/']) = start := by
      rw [← same, String.ofList_toList]
    rw [shape, whole]
    exact pathAfter?_append start key
  have other : ∀ start : String, start.toList.isPrefixOf
      ('/' :: ldpPlace collection key) = false →
      pathAfter? start (String.ofList ('/' :: ldpPlace collection key)) =
        none := by
    intro start apart
    apply pathAfter?_of_ne
    rw [String.toList_ofList]
    exact apart
  have found := keyOf_segment legal
  unfold ldpContentKey?
  cases collection with
  | cas =>
      simp only [own "/ldp/cas/" rfl, found]
      rfl
  | orders =>
      simp only [own "/ldp/orders/" rfl, other "/ldp/cas/" rfl,
        other "/ldp/invoices/" rfl, found]
      rfl
  | invoices =>
      simp only [own "/ldp/invoices/" rfl, other "/ldp/cas/" rfl, found]
      rfl
  | boms =>
      simp only [own "/ldp/boms/" rfl, other "/ldp/cas/" rfl,
        other "/ldp/invoices/" rfl, other "/ldp/orders/" rfl, found]
      rfl

theorem strip_lower (legal : isCidSegment key = true) :
    Text.strip (Text.lower key) = Text.lower key := by
  apply Text.strip_eq_self
  intro character member
  rw [Text.toList_lower] at member
  obtain ⟨original, there, same⟩ := List.mem_map.mp member
  rw [← same]
  exact Text.isSpace_toLower
    (isSpace_of_alphanum (isAlphanum_of_segment legal original there))

/-- What a key of a URI spells is read off its lowered letters. -/
theorem digestSegment?_key (legal : isCidSegment key = true)
    {content : ContentId} (spells : ContentId.Spells key content) :
    (∃ digest, content = .named digest ∧ Text.lower key = digest.hex ∧
      digestSegment? (Text.lower key) = some digest) ∨
    (content.text = key ∧ content.lowered = Text.lower key ∧
      digestSegment? (Text.lower key) = none) := by
  have stripped := ContentId.strip_segment legal
  have payload : niPayload? key = none := by
    have absent : Text.startsWith key "ni:///sha-256;" = false := by
      rw [Bool.eq_false_iff, ne_eq, Text.startsWith_iff]
      exact fun starts => ContentId.noColon_of_segment legal
        (starts.subset (by decide))
    simp [niPayload?, absent]
  obtain ⟨digest, same, named⟩ | ⟨legal', bare, same⟩ := spells.cases
  · left
    rw [stripped] at named
    have hex : isHexSha256 (Text.lower key) = true := by
      by_contra other
      simp [from_ni, stripped, other, payload] at named
    have value : (⟨Text.lower key, hex⟩ : Digest) = digest := by
      simpa [from_ni, stripped, hex] using named
    refine ⟨digest, same, by rw [← value], ?_⟩
    rw [← value]
    have read := validate_digest_segment_hex ⟨Text.lower key, hex⟩ "digest"
    rw [digestSegment?, read]
  · right
    rw [same]
    refine ⟨stripped, congrArg Text.lower stripped, ?_⟩
    have other : isHexSha256 (Text.lower key) = false := by
      rw [stripped] at bare
      simp only [is_ni_or_digest, stripped, Bool.or_eq_false_iff] at bare
      exact bare.1
    simp [digestSegment?, validate_digest_segment, strip_lower legal,
      Text.lower_lower, other]

/-- The slot of an LDP URI has the id its key spells. -/
theorem slotId_ldpUri {content : ContentId} (host : Url.IsAuthority authority)
    (legal : isCidSegment key = true)
    (spells : ContentId.Spells key content) (index : Option LocatorIndex) :
    slotId index (Url.web secure authority (ldpPlace collection key)) =
      .ok (some content.text) := by
  have stripped := @strip_ldpUri secure authority collection key legal
  have http := @is_http_uri_ldpUri secure authority collection key legal
  have nonempty : Url.web secure authority (ldpPlace collection key) ≠ "" := by
    intro empty
    have first := congrArg String.toList empty
    rw [Url.toList_web] at first
    simp at first
  have slot : ref_uri [("content_uri", .str (Url.web secure authority
      (ldpPlace collection key)))] "content" =
        some (Url.web secure authority (ldpPlace collection key)) := by
    have field : uri_field_name "content" = "content_uri" := by decide +kernel
    rw [ref_uri, field]
    simp only [Fields.get?, if_true]
    rw [if_neg (by rw [stripped]; exact nonempty), stripped]
  have parsed := Url.path_web secure host (isPlace_ldpPlace collection legal)
  have keyed := ldpContentKey?_place collection legal
  obtain ⟨digest, same, _, read⟩ | ⟨same, _, read⟩ :=
    digestSegment?_key legal spells
  · rw [slotId, AddressStore.ref_id_of_key slot http parsed keyed read, same]
    rfl
  · have notHl := notHashlink_of_http http
    simp only [slotId, ref_id, slot, notHl, Bool.false_eq_true, if_false, http,
      if_true, content_id_from_uri, nonempty, decide_false, Bool.not_true,
      Bool.or_self, stripped, parsed, keyed, read, Except.bind, bind,
      Except.map, same]

/-- The token of a key is that of the content it spells. -/
theorem lower_key {content : ContentId} (legal : isCidSegment key = true)
    (spells : ContentId.Spells key content) :
    Text.lower key = content.lowered := by
  obtain ⟨digest, same, hex, _⟩ | ⟨_, same, _⟩ :=
    digestSegment?_key legal spells
  · rw [same, hex]
    rfl
  · exact same.symm

theorem uri_digest_ldpUri {content : ContentId}
    (legal : isCidSegment key = true)
    (spells : ContentId.Spells key content) :
    uri_digest (Url.web secure authority (ldpPlace collection key)) =
      content.lowered := by
  rw [uri_digest, lastSegment_ldpUri legal, lower_key legal spells]

theorem tokenOf_ldpUri {content : ContentId}
    (legal : isCidSegment key = true)
    (spells : ContentId.Spells key content) :
    tokenOf (Url.web secure authority (ldpPlace collection key)) =
      .ok content.lowered := by
  rw [tokenOf, if_pos (is_http_uri_ldpUri legal),
    uri_digest_ldpUri legal spells]

theorem notIpfs_ldpUri :
    Text.startsWith (Text.lower (Url.web secure authority
      (ldpPlace collection key))) "ipfs://" = false := by
  rw [Text.startsWith, Text.toList_lower, Url.toList_web]
  cases secure <;> rfl

end Uri

namespace ContentRef

/-- A ref's token is that of the content it names. -/
theorem ref_token_text (ref : ContentRef) :
    ref_token ref.text = .ok ref.content.lowered := by
  cases ref with
  | id spelling content spells => exact ref_token_spelling spells
  | uri secure authority collection key content host legal spells =>
      change ref_token (Url.web secure authority (ldpPlace collection key)) =
        .ok content.lowered
      simp only [ref_token, strip_ldpUri legal, notIpfs_ldpUri,
        Bool.false_eq_true, if_false]
      exact tokenOf_ldpUri legal spells

theorem digest_token_text (ref : ContentRef) :
    digest_token ref.text = .ok ref.content.lowered := by
  cases ref with
  | id spelling content spells => exact digest_token_spelling spells
  | uri secure authority collection key content host legal spells =>
      change digest_token (Url.web secure authority (ldpPlace collection key)) =
        .ok content.lowered
      rw [digest_token, strip_ldpUri legal]
      exact tokenOf_ldpUri legal spells

theorem slotId_text (ref : ContentRef) (index : Option LocatorIndex) :
    slotId index ref.text = .ok (some ref.content.text) := by
  cases ref with
  | id spelling content spells => exact slotId_spelling spells index
  | uri secure authority collection key content host legal spells =>
      exact slotId_ldpUri host legal spells index

theorem uri_digest_text {ref : ContentRef} (isUri : ref.isUri = true) :
    uri_digest ref.text = ref.content.lowered := by
  cases ref with
  | id spelling content spells => cases isUri
  | uri secure authority collection key content host legal spells =>
      exact uri_digest_ldpUri legal spells

theorem spells_text {ref : ContentRef} (isId : ref.isUri = false) :
    ContentId.Spells ref.text ref.content := by
  cases ref with
  | id spelling content spells => exact spells
  | uri secure authority collection key content host legal spells => cases isId

end ContentRef

/-- Lowering confuses two CIDs that differ in case, and nothing else. -/
theorem lowered_eq_iff (left right : ContentId) :
    left.lowered = right.lowered ↔ left = right ∨ DifferInCase left right := by
  have apart : ∀ (digest : Digest) (value : String)
      (legal : isCidSegment value = true)
      (bare : is_ni_or_digest value = false),
      digest.hex ≠ Text.lower value := by
    intro digest value legal bare same
    simp only [is_ni_or_digest, ContentId.strip_segment legal, ← same,
      digest.valid, Bool.true_or] at bare
    cases bare
  cases left with
  | named digest =>
      cases right with
      | named other =>
          constructor
          · intro same
            left
            rw [Digest.ext_hex same]
          · intro same
            rcases same with same | different
            · rw [same]
            · cases different
      | segment value legal bare =>
          constructor
          · intro same
            exact absurd same (apart digest value legal bare)
          · intro same
            rcases same with same | different
            · cases same
            · cases different
  | segment value legal bare =>
      cases right with
      | named digest =>
          constructor
          · intro same
            exact absurd same.symm (apart digest value legal bare)
          · intro same
            rcases same with same | different
            · cases same
            · cases different
      | segment other legal' bare' =>
          constructor
          · intro same
            by_cases texts : value = other
            · left
              subst texts
              rfl
            · right
              exact ⟨texts, same⟩
          · intro same
            rcases same with same | different
            · rw [same]
            · exact different.2

theorem judgesSame_iff {α : Type} {normalise : String → Except Raised α}
    {left right : String} {one other : α} (first : normalise left = .ok one)
    (second : normalise right = .ok other) :
    JudgesSame normalise left right ↔ one = other := by
  constructor
  · intro judged
    obtain ⟨token, left, right⟩ := judged
    rw [first, Except.ok.injEq] at left
    rw [second, Except.ok.injEq] at right
    rw [left, right]
  · intro same
    exact ⟨other, by rw [first, same], second⟩

theorem sameSlotId_iff (index : Option LocatorIndex) (left right : ContentRef) :
    SameSlotId index left.text right.text ↔ left.content = right.content := by
  unfold SameSlotId
  rw [left.slotId_text, right.slotId_text]
  constructor
  · intro same
    obtain ⟨id, first, second⟩ := same
    simp only [Except.ok.injEq, Option.some.injEq] at first second
    exact ContentId.text_injective (first.trans second.symm)
  · intro same
    exact ⟨_, rfl, by rw [same]⟩

theorem not_differInCase_self (id : ContentId) : ¬ DifferInCase id id := by
  cases id with
  | named digest => exact fun different => different
  | segment value legal bare => exact fun different => different.1 rfl

/-- Two CIDs that differ in case are taken for one. -/
theorem not_comparatorsAgree {index : Option LocatorIndex}
    {left right : ContentRef}
    (different : DifferInCase left.content right.content) :
    ¬ ComparatorsAgree index left right := by
  intro agree
  have judged :=
    (judgesSame_iff left.ref_token_text right.ref_token_text).mpr
      ((lowered_eq_iff _ _).mpr (.inr different))
  have same := (sameSlotId_iff index left right).mp (agree.ref_token.mp judged)
  rw [same] at different
  exact not_differInCase_self _ different

/-- The comparators agree on two refs exactly when these are no two CIDs that
differ in case only. -/
theorem comparatorsAgree_iff (index : Option LocatorIndex)
    (left right : ContentRef) :
    ComparatorsAgree index left right ↔
      ¬ DifferInCase left.content right.content := by
  constructor
  · exact fun agree different => not_comparatorsAgree different agree
  · intro cased
    have lowered : left.content.lowered = right.content.lowered ↔
        left.content = right.content := by
      rw [lowered_eq_iff]
      exact or_iff_left cased
    constructor
    · rw [judgesSame_iff left.ref_token_text right.ref_token_text,
        sameSlotId_iff, lowered]
    · rw [judgesSame_iff left.digest_token_text right.digest_token_text,
        sameSlotId_iff, lowered]
    · intro leftUri rightUri
      rw [ContentRef.uri_digest_text leftUri,
        ContentRef.uri_digest_text rightUri, sameSlotId_iff, lowered]
    · intro leftId rightId
      rw [judgesSame_iff
        (digest_key_spelling (ContentRef.spells_text leftId))
        (digest_key_spelling (ContentRef.spells_text rightId)),
        sameSlotId_iff, Option.some.injEq, lowered]
    · intro leftId rightId
      rw [same_id_spelling (ContentRef.spells_text leftId)
        (ContentRef.spells_text rightId), sameSlotId_iff]

/-- A CID as its own ref. -/
def cidRef (value : String) (legal : isCidSegment value = true)
    (bare : is_ni_or_digest value = false) : ContentRef :=
  .id value (.segment value legal bare)
    (ContentId.spells_text (.segment value legal bare))

def someCid : ContentRef :=
  cidRef "QmYwAPJzv5CZsnA625s3Xf2nemtYgPpHdWEz79ojWUnixF" (by decide)
    (by decide)

def otherCid : ContentRef :=
  cidRef "QmYwAPJzv5CZsnA625s3Xf2nemtYgPpHdWEz79ojWUnixf" (by decide)
    (by decide)

/-- The last letter tells these CIDs apart, but only by its case. -/
theorem comparators_confuse_cids :
    ¬ ∀ (index : Option LocatorIndex) (left right : ContentRef),
      ComparatorsAgree index left right := by
  intro agree
  apply @not_comparatorsAgree none someCid otherCid _ (agree _ _ _)
  constructor
  · decide
  · decide

end Cats
