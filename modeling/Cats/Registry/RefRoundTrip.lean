import Cats.Cas.CodecLaws
import Cats.Python.Address
import Cats.Registry.SameContent

/-!
# Writing a ref and reading it back

`set_ref` writes a locator of an id into a slot and `ref_id` reads the id off
its path.  They are inverse where the locator is an `http(s)` URI of a Node or
the id itself, whatever the index of the reader holds.
-/

namespace Cats

/-- `bom_ldp_uri(bom_cid, base_url=base_url)`. -/
def bom_ldp_uri (bom_cid base_url : String) : Except Raised String := do
  let key ← content_id_fs_key bom_cid "bom_cid"
  .ok (Text.rstripSlash base_url ++ s!"/ldp/boms/{key}")

/-- The base URL of a Node, with slashes behind it. -/
structure BaseUrl where
  scheme : Url.WebScheme
  authority : List Char
  host : Url.IsAuthority authority
  nonempty : authority ≠ []
  slashes : ℕ

namespace BaseUrl

def text (base : BaseUrl) : String :=
  String.ofList (base.scheme.letters ++ ':' :: '/' :: '/' :: base.authority ++
    List.replicate base.slashes '/')

theorem rdropWhile_slashes (start : List Char) (count : ℕ) :
    (start ++ List.replicate count '/').rdropWhile (· = '/') =
      start.rdropWhile (· = '/') := by
  induction count with
  | zero => rw [List.replicate_zero, List.append_nil]
  | succ count induction =>
      rw [List.replicate_succ', ← List.append_assoc,
        List.rdropWhile_concat_pos _ _ _ (by decide), induction]

/-- The slashes behind a base URL do not count. -/
theorem rstripSlash_text (base : BaseUrl) :
    (Text.rstripSlash base.text).toList =
      base.scheme.letters ++ ':' :: '/' :: '/' :: base.authority := by
  have last : ∀ nonempty : base.scheme.letters ++ ':' :: '/' :: '/' ::
      base.authority ≠ [], ¬ decide ((base.scheme.letters ++ ':' :: '/' ::
        '/' :: base.authority).getLast nonempty = '/') = true := by
    intro nonempty slash
    have found : (base.scheme.letters ++ ':' :: '/' :: '/' ::
        base.authority).getLast nonempty ∈ base.authority := by
      have shape : base.scheme.letters ++ ':' :: '/' :: '/' :: base.authority =
          (base.scheme.letters ++ [':', '/', '/']) ++ base.authority := by
        simp
      simp only [shape]
      rw [List.getLast_append_of_ne_nil _ base.nonempty]
      exact List.getLast_mem base.nonempty
    exact (base.host.delimited _ found).1 (of_decide_eq_true slash)
  rw [Text.rstripSlash, String.toList_ofList, text, String.toList_ofList,
    rdropWhile_slashes, List.rdropWhile_eq_self_iff.mpr last]

/-- Below the base URL stands the address of the place. -/
theorem below (base : BaseUrl) (rest : List Char) :
    Text.rstripSlash base.text ++ String.ofList ('/' :: rest) =
      Url.address base.scheme base.authority rest := by
  apply String.toList_injective
  rw [String.toList_append, rstripSlash_text, String.toList_ofList,
    Url.toList_address]
  simp

end BaseUrl

section Places

variable (base : BaseUrl) {key : String}

/-- The locator of a key in a collection of the Node. -/
def ldpAddress (collection : Collection) (key : String) : String :=
  Url.address base.scheme base.authority (ldpPlace collection key)

theorem cas_ldp_uri_base (digest : Digest) :
    cas_ldp_uri digest base.text = ldpAddress base .cas digest.hex := by
  have path : cas_ldp_path digest =
      String.ofList ('/' :: ldpPlace .cas digest.hex) := by
    apply String.toList_injective
    rw [String.toList_ofList, cas_ldp_path]
    exact String.toList_append
  rw [cas_ldp_uri, path, BaseUrl.below]
  rfl

/-- The collection an Order or Invoice is kept in. -/
def ResourceKind.collection : ResourceKind → Collection
  | .invoices => .invoices
  | .orders => .orders

theorem resource_ldp_uri_base (kind : ResourceKind) {value : String}
    {id : ContentId} (spells : ContentId.Spells value id) :
    resource_ldp_uri kind value base.text =
      .ok (ldpAddress base kind.collection id.key) := by
  have path : s!"/ldp/{kind.name}/{id.key}" =
      String.ofList ('/' :: ldpPlace kind.collection id.key) := by
    apply String.toList_injective
    have text : (s!"/ldp/{kind.name}/{id.key}" : String).toList =
        (s!"/ldp/{kind.name}/" : String).toList ++ id.key.toList :=
      String.toList_append
    rw [String.toList_ofList, text, toList_collection]
    cases kind with
    | invoices => simp [ldpPlace, ResourceKind.collection, Collection.name]
    | orders => simp [ldpPlace, ResourceKind.collection, Collection.name]
  simp only [resource_ldp_uri, spells.key, bind, Except.bind]
  rw [path, BaseUrl.below]
  rfl

theorem bom_ldp_uri_base {value : String} {id : ContentId}
    (spells : ContentId.Spells value id) :
    bom_ldp_uri value base.text = .ok (ldpAddress base .boms id.key) := by
  have path : s!"/ldp/boms/{id.key}" =
      String.ofList ('/' :: ldpPlace .boms id.key) := by
    apply String.toList_injective
    rw [String.toList_ofList]
    exact String.toList_append
  simp only [bom_ldp_uri, spells.key, bind, Except.bind]
  rw [path, BaseUrl.below]
  rfl

/-- The address of a key begins with a letter and ends in the key. -/
theorem strip_ldpAddress (collection : Collection)
    (legal : isCidSegment key = true) :
    Text.strip (ldpAddress base collection key) =
      ldpAddress base collection key := by
  obtain ⟨first, others, shape⟩ := base.scheme.letters_eq
  apply String.toList_injective
  rw [Text.toList_strip, ldpAddress, Url.toList_address]
  apply Text.stripChars_eq_self
  · intro character start
    rw [shape] at start
    rw [← Option.mem_some.mp start]
    exact isSpace_of_alphanum (Url.isAlphanum_of_isAlpha
      (base.scheme.isAlpha first (by simp [shape])))
  · intro character last
    have nonempty : key.toList ≠ [] := by
      intro empty
      exact ContentId.segment_ne_empty legal
        (String.toList_injective (empty.trans rfl))
    have behind : (base.scheme.letters ++ ':' :: '/' :: '/' ::
        (base.authority ++ '/' :: ldpPlace collection key)) =
        (base.scheme.letters ++ ':' :: '/' :: '/' ::
          (base.authority ++ '/' :: ("ldp/".toList ++ collection.name.toList ++
            ['/']))) ++ key.toList := by
      simp [ldpPlace]
    rw [behind, List.getLast?_append_of_ne_nil _ nonempty] at last
    exact isSpace_of_alphanum (isAlphanum_of_segment legal character
      (List.mem_of_getLast? last))

theorem is_http_uri_ldpAddress (collection : Collection)
    (legal : isCidSegment key = true) :
    is_http_uri (ldpAddress base collection key) = true := by
  rw [is_http_uri, strip_ldpAddress base collection legal, Bool.or_eq_true,
    Text.startsWith_iff, Text.startsWith_iff, Text.toList_lower, ldpAddress,
    Url.toList_address, List.map_append, base.scheme.lowered]
  cases base.scheme.secure with
  | false =>
      left
      exact ⟨_, rfl⟩
  | true =>
      right
      exact ⟨_, rfl⟩

/-- The path of the address is read as the id its key spells. -/
theorem content_id_from_uri_ldpAddress (collection : Collection)
    (legal : isCidSegment key = true) {id : ContentId}
    (spells : ContentId.Spells key id) (index : Option LocatorIndex) :
    content_id_from_uri index (ldpAddress base collection key) =
      .ok (some id.text) := by
  have http := is_http_uri_ldpAddress base collection legal
  have nonempty : ldpAddress base collection key ≠ "" := by
    intro empty
    rw [empty] at http
    revert http
    decide
  have parsed := Url.path_address base.scheme base.host
    (isPlace_ldpPlace collection legal)
  rw [content_id_from_uri, if_neg (by simp [nonempty, http]),
    strip_ldpAddress base collection legal, ldpAddress, parsed]
  simp only [bind, Except.bind]
  rw [ldpContentKey?_place collection legal]
  obtain ⟨digest, same, _, read⟩ | ⟨same, _, read⟩ :=
    digestSegment?_key legal spells
  · dsimp only
    rw [read, same]
    rfl
  · dsimp only
    rw [read, same]

end Places

/-- The key of an id is a segment that spells the id. -/
theorem ContentId.isCidSegment_key (id : ContentId) :
    isCidSegment id.key = true := by
  cases id with
  | named digest => exact isCidSegment_hex digest
  | segment value legal bare => exact legal

theorem ContentId.spells_key (id : ContentId) : ContentId.Spells id.key id := by
  cases id with
  | named digest =>
      intro label
      have nonempty := ContentId.segment_ne_empty (isCidSegment_hex digest)
      simp [ContentId.parse, ContentId.key, nonempty, Except.map]
  | segment value legal bare =>
      exact ContentId.spells_text (.segment value legal bare)

/-- The `base_url` and `uri` that give an id a locator of the Node, or leave a
legacy CID to stand for itself. -/
inductive Locates (id : ContentId) : String → Option String → Prop
  | node (base : BaseUrl) : Locates id base.text none
  | legacy (base_url : String) (unnamed : ∀ digest, id ≠ .named digest) :
      Locates id base_url none
  | cas (base_url : String) (base : BaseUrl) {digest : Digest} {uri : String}
      (named : id = .named digest)
      (located : cas_ldp_uri digest base.text = uri) :
      Locates id base_url (some uri)
  | resource (base_url : String) (base : BaseUrl) (kind : ResourceKind)
      {value uri : String} (spells : ContentId.Spells value id)
      (located : resource_ldp_uri kind value base.text = .ok uri) :
      Locates id base_url (some uri)
  | bom (base_url : String) (base : BaseUrl) {value uri : String}
      (spells : ContentId.Spells value id)
      (located : bom_ldp_uri value base.text = .ok uri) :
      Locates id base_url (some uri)

/-- What `set_ref` stores for an id. -/
inductive StoredAs (id : ContentId) : String → Prop
  | address (base : BaseUrl) (collection : Collection) :
      StoredAs id (ldpAddress base collection id.key)
  | legacy (unnamed : ∀ digest, id ≠ .named digest) : StoredAs id id.text

section Stored

variable {id : ContentId} {text : String}

theorem StoredAs.strip (stored : StoredAs id text) :
    Text.strip text = text := by
  cases stored with
  | address base collection =>
      exact strip_ldpAddress base collection id.isCidSegment_key
  | legacy unnamed => exact id.strip_text

theorem StoredAs.ne_empty (stored : StoredAs id text) : text ≠ "" := by
  cases stored with
  | address base collection =>
      intro empty
      have http := is_http_uri_ldpAddress base collection id.isCidSegment_key
      rw [empty] at http
      revert http
      decide
  | legacy unnamed => exact id.text_ne_empty

/-- An explicit locator is the address of the id's key. -/
theorem Locates.address {base_url uri : String}
    (located : Locates id base_url (some uri)) : StoredAs id uri := by
  cases located with
  | cas _ base named located =>
      rw [named, ← located, cas_ldp_uri_base]
      exact .address base .cas
  | resource _ base kind spells located =>
      rw [resource_ldp_uri_base base kind spells, Except.ok.injEq] at located
      rw [← located]
      exact .address base kind.collection
  | bom _ base spells located =>
      rw [bom_ldp_uri_base base spells, Except.ok.injEq] at located
      rw [← located]
      exact .address base .boms

/-- Without one, a digest gets its address in the CAS and a CID gets none. -/
theorem Locates.content_uri {base_url : String}
    (located : Locates id base_url none) :
    ∃ resolved, content_uri id.text base_url = .ok resolved ∧
      (∀ uri, resolved = some uri → uri ≠ "") ∧
      StoredAs id (resolved.getD id.text) := by
  have segment : ∀ base_url, (∀ digest, id ≠ .named digest) →
      Cats.content_uri id.text base_url = .ok none := by
    intro base_url unnamed
    cases id with
    | named digest => exact absurd rfl (unnamed digest)
    | segment value legal bare =>
        have stripped := ContentId.strip_segment legal
        simp [Cats.content_uri, ContentId.text, stripped, bare]
  cases id with
  | segment value legal bare =>
      refine ⟨none, segment base_url (by simp), by simp, ?_⟩
      exact .legacy (by simp)
  | named digest =>
      cases located with
      | legacy _ unnamed => exact absurd rfl (unnamed digest)
      | node base =>
          have stored : StoredAs (.named digest)
              (cas_ldp_uri digest base.text) := by
            rw [cas_ldp_uri_base]
            exact .address base .cas
          refine ⟨some (cas_ldp_uri digest base.text), ?_, ?_, stored⟩
          · simp [Cats.content_uri, ContentId.text, to_ni_ne_empty, Except.map]
          · intro uri same
            rw [← Option.some.inj same]
            exact stored.ne_empty

/-- The ref of an id does not depend on how the id is spelled. -/
theorem build_content_ref_of_spells {value : String}
    (spells : ContentId.Spells value id) (base_url : String)
    (given : Option String) :
    build_content_ref value base_url given =
      (match given with
        | some uri => Except.ok (some uri)
        | none => content_uri id.text base_url).map
          fun resolved : Option String =>
            (id.text, resolved.filter (· ≠ "")) := by
  have equal := equality_id_of_spells spells
  cases named : is_ni_or_digest value with
  | true =>
      rw [build_content_ref, if_pos named, equal]
      cases given <;> rfl
  | false =>
      have bare : is_ni_or_digest (Text.strip value) = false := by
        rw [is_ni_or_digest_strip, named]
      have same : Text.strip value = id.text := by
        rw [equality_id, bare] at equal
        exact Except.ok.inj equal
      rw [build_content_ref, if_neg (by simp [named]), same]
      cases given <;> rfl

/-- The ref of an id holds its equality id, with a locator to store. -/
theorem build_content_ref_located {base_url : String} {uri : Option String}
    (located : Locates id base_url uri) :
    ∃ resolved, (∀ value, ContentId.Spells value id →
      build_content_ref value base_url uri = .ok (id.text, resolved)) ∧
        StoredAs id (resolved.getD id.text) := by
  cases uri with
  | some uri =>
      have stored := located.address
      refine ⟨some uri, ?_, stored⟩
      intro value spells
      rw [build_content_ref_of_spells spells]
      simp [stored.ne_empty, Except.map]
  | none =>
      obtain ⟨resolved, found, nonempty, stored⟩ := located.content_uri
      have kept : resolved.filter (· ≠ "") = resolved := by
        cases resolved with
        | none => rfl
        | some uri => simp [nonempty uri rfl]
      refine ⟨resolved, ?_, stored⟩
      intro value spells
      rw [build_content_ref_of_spells spells]
      dsimp only
      rw [found, Except.map, kept]

/-- A slot that holds what was stored reads as the id. -/
theorem ref_id_stored {fields : Fields} {stem : String}
    (stored : StoredAs id text)
    (slot : fields.get? (uri_field_name stem) = some (.str text))
    (index : Option LocatorIndex) :
    ref_id index fields stem = .ok (some id.text, index) := by
  have uri : ref_uri fields stem = some text := by
    rw [ref_uri, slot]
    dsimp only
    rw [stored.strip, if_neg stored.ne_empty]
  rw [ref_id, uri]
  dsimp only
  cases stored with
  | address base collection =>
      have http := is_http_uri_ldpAddress base collection id.isCidSegment_key
      rw [if_neg (by simp [notHashlink_of_http http]), if_pos http,
        content_id_from_uri_ldpAddress base collection id.isCidSegment_key
          id.spells_key index]
      rfl
  | legacy unnamed =>
      cases id with
      | named digest => exact absurd rfl (unnamed digest)
      | segment value legal bare =>
          have plain : is_hl value = false := ContentId.is_hl_segment legal
          have unlocated : is_http_uri value = false :=
            ContentId.is_http_uri_segment legal
          have stripped := ContentId.strip_segment legal
          simp only [ContentId.text, plain, unlocated, Bool.false_eq_true,
            if_false, stripped, equalityOr, bare]
          rfl

end Stored

section FieldNames

/-- The last letter of the field a locator is kept in. -/
theorem getLast?_uri_field_name (stem : String) :
    (uri_field_name stem).toList.getLast? = some 'i' := by
  have appended : ∀ start : String,
      (start ++ "_uri").toList.getLast? = some 'i' := by
    intro start
    rw [String.toList_append]
    exact List.getLast?_append_of_ne_nil _ (by decide)
  unfold uri_field_name
  cases dropTail? stem "_cid" with
  | some bare => exact appended bare
  | none =>
      dsimp only
      split_ifs with tail whole
      · obtain ⟨start, same⟩ := Text.endsWith_iff.mp tail
        rw [← same]
        exact List.getLast?_append_of_ne_nil _ (by decide)
      · decide
      · exact appended stem

theorem getLast?_cid_field_name (stem : String) :
    (cid_field_name stem).toList.getLast? = some 'd' := by
  have appended : ∀ start : String,
      (start ++ "_cid").toList.getLast? = some 'd' := by
    intro start
    rw [String.toList_append]
    exact List.getLast?_append_of_ne_nil _ (by decide)
  unfold cid_field_name
  split_ifs with tail
  · obtain ⟨start, same⟩ := Text.endsWith_iff.mp tail
    rw [← same]
    exact List.getLast?_append_of_ne_nil _ (by decide)
  · cases dropTail? stem "_uri" with
    | some bare => exact appended bare
    | none => exact appended stem

/-- The two fields of a stem differ. -/
theorem uri_field_name_ne_cid_field_name (stem : String) :
    uri_field_name stem ≠ cid_field_name stem := by
  intro same
  have last := getLast?_uri_field_name stem
  rw [same, getLast?_cid_field_name stem] at last
  cases last

end FieldNames

/-- What `set_ref` leaves behind for an id. -/
structure RefWritten (index : Option LocatorIndex) (obj : Fields)
    (stem : String) (id : ContentId) (base_url : String) (uri : Option String)
    (after : Fields) : Prop where
  readBack : ref_id index after stem = .ok (some id.text, index)
  noLegacy : after.get? (cid_field_name stem) = none
  frame : ∀ key, key ≠ uri_field_name stem → key ≠ cid_field_name stem →
    after.get? key = obj.get? key
  again : ∀ value, ContentId.Spells value id →
    set_ref after stem value base_url uri = .ok (id.text, after)

/-- `set_ref` and `ref_id` are inverse on every object, stem and id, whatever
the index holds. -/
theorem set_ref_round_trip (index : Option LocatorIndex) (obj : Fields)
    (stem value base_url : String) (uri : Option String) {id : ContentId}
    (spells : ContentId.Spells value id)
    (located : Locates id base_url uri) :
    equality_id value = .ok id.text ∧
      ∃ after, set_ref obj stem value base_url uri = .ok (id.text, after) ∧
        RefWritten index obj stem id base_url uri after := by
  obtain ⟨resolved, built, stored⟩ := build_content_ref_located located
  have apart := uri_field_name_ne_cid_field_name stem
  have writes : ∀ (fields : Fields) (other : String),
      ContentId.Spells other id → set_ref fields stem other base_url uri =
        .ok (id.text, (fields.set (uri_field_name stem)
          (.str (resolved.getD id.text))).erase (cid_field_name stem)) := by
    intro fields other same
    rw [set_ref, built other same]
    rfl
  refine ⟨equality_id_of_spells spells, _, writes obj value spells, ?_⟩
  have slot : Fields.get? ((obj.set (uri_field_name stem)
      (.str (resolved.getD id.text))).erase (cid_field_name stem))
      (uri_field_name stem) = some (.str (resolved.getD id.text)) := by
    rw [Fields.get?_erase_of_ne _ apart.symm, Fields.get?_set_self]
  constructor
  · exact ref_id_stored stored slot index
  · exact Fields.get?_erase_self _ _
  · intro key other legacy
    rw [Fields.get?_erase_of_ne _ legacy.symm,
      Fields.get?_set_of_ne _ other.symm]
  · intro other same
    rw [writes _ other same, Fields.set_of_get? slot, Fields.erase_erase]

/-- A Node's base URL in capitals, with a slash behind it. -/
def shoutedBase : BaseUrl where
  scheme := ⟨"HTTP".toList, false, by decide⟩
  authority := "10.0.0.1:5000".toList
  host := by
    apply Url.isAuthority_of_plain
    apply List.all_eq_true.mp
    decide
  nonempty := by decide
  slashes := 1

theorem set_ref_round_trip_shouted :
    equality_id AddressStore.zeroDigest.hex =
        .ok (to_ni AddressStore.zeroDigest) ∧
      ∃ after, set_ref [("data_cid", .str "old")] "data"
          AddressStore.zeroDigest.hex shoutedBase.text none =
          .ok (to_ni AddressStore.zeroDigest, after) ∧
        RefWritten none [("data_cid", .str "old")] "data"
          (.named AddressStore.zeroDigest) shoutedBase.text none after :=
  set_ref_round_trip none [("data_cid", .str "old")] "data"
    AddressStore.zeroDigest.hex shoutedBase.text none
    (ContentId.spells_key (.named AddressStore.zeroDigest)) (.node shoutedBase)

/-- A locator that no reader takes for an id, a hashlink or a web address. -/
structure Foreign (uri : String) : Prop where
  stripped : Text.strip uri = uri
  nonempty : uri ≠ ""
  plain : is_hl uri = false
  unlocated : is_http_uri uri = false
  bare : is_ni_or_digest uri = false

/-- Such a locator is stored for a digest and read as an id of its own. -/
theorem ref_id_foreign {digest : Digest} {base_url : String}
    (foreign : Foreign (cas_ldp_uri digest base_url)) :
    ∃ after, set_ref [] "data" (to_ni digest) base_url =
        .ok (to_ni digest, after) ∧
      ref_id none after "data" =
        .ok (some (cas_ldp_uri digest base_url), none) ∧
      cas_ldp_uri digest base_url ≠ to_ni digest := by
  have fields : uri_field_name "data" = "data_uri" ∧
      cid_field_name "data" = "data_cid" := by
    decide +kernel
  have located : content_uri (ContentId.named digest).text base_url =
      .ok (some (cas_ldp_uri digest base_url)) := by
    simp [content_uri, ContentId.text, to_ni_ne_empty, Except.map]
  have built : build_content_ref (to_ni digest) base_url none =
      .ok (to_ni digest, some (cas_ldp_uri digest base_url)) := by
    have parts := build_content_ref_of_spells
      (ContentId.spells_text (.named digest)) base_url none
    dsimp only at parts
    rw [located] at parts
    apply parts.trans
    simp [Except.map, foreign.nonempty, ContentId.text]
  refine ⟨[("data_uri", .str (cas_ldp_uri digest base_url))], ?_, ?_, ?_⟩
  · simp [set_ref, built, bind, Except.bind, fields, Fields.set, Fields.erase]
  · simp [ref_id, ref_uri, fields, foreign.stripped, foreign.nonempty,
      foreign.plain, foreign.unlocated, equalityOr, foreign.bare, Except.map]
  · intro same
    have bare := foreign.bare
    rw [same, is_ni_or_digest_to_ni] at bare
    cases bare

theorem foreign_ftp :
    Foreign (cas_ldp_uri AddressStore.zeroDigest "ftp://host") := by
  have facts : Text.strip (cas_ldp_uri AddressStore.zeroDigest "ftp://host") =
        cas_ldp_uri AddressStore.zeroDigest "ftp://host" ∧
      cas_ldp_uri AddressStore.zeroDigest "ftp://host" ≠ "" ∧
      is_hl (cas_ldp_uri AddressStore.zeroDigest "ftp://host") = false ∧
      is_http_uri (cas_ldp_uri AddressStore.zeroDigest "ftp://host") = false ∧
      is_ni_or_digest (cas_ldp_uri AddressStore.zeroDigest "ftp://host") =
        false := by
    decide +kernel
  obtain ⟨stripped, nonempty, plain, unlocated, bare⟩ := facts
  exact ⟨stripped, nonempty, plain, unlocated, bare⟩

/-- Below a base URL of another scheme a ref is not read back. -/
theorem ftp_ref_misread :
    ∃ after, set_ref [] "data" (to_ni AddressStore.zeroDigest) "ftp://host" =
        .ok (to_ni AddressStore.zeroDigest, after) ∧
      ref_id none after "data" = .ok (some (cas_ldp_uri
        AddressStore.zeroDigest "ftp://host"), none) ∧
      cas_ldp_uri AddressStore.zeroDigest "ftp://host" ≠
        to_ni AddressStore.zeroDigest :=
  ref_id_foreign foreign_ftp

end Cats
