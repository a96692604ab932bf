import Cats.AddressStore.Agreement
import Cats.Ldp.Runs

/-!
# Locators of the Node's own resources

The locator of a resource leads back to its file, and reading it compares with
the digest its key spells, unless the index names another one.
-/

namespace Cats

open Effect

section

variable {base_url : String} {net : Network} {machine : Machine}

/-- Where the Node looks for a resource of its own. -/
structure LocalUri (kind : ResourceKind) (digest : Digest) (uri : String) :
    Prop where
  http : is_http_uri uri = true
  plain : Text.strip uri = uri
  path : Url.path uri = .ok s!"/ldp/{kind.name}/{digest.hex}"

/-- What follows a start is found behind it. -/
theorem pathAfter?_append (start rest : String) :
    pathAfter? start (start ++ rest) = some rest := by
  have starts : start.toList.isPrefixOf (start.toList ++ rest.toList) = true :=
    List.isPrefixOf_iff_prefix.mpr (List.prefix_append _ _)
  rw [pathAfter?, Json.after?, String.toList_append, if_pos starts,
    List.drop_left]
  simp

theorem isCidSegment_hex (digest : Digest) :
    isCidSegment digest.hex = true := by
  have nonempty : digest.hex ≠ "" := by
    intro empty
    have length := digest.length
    simp [empty] at length
  simp only [isCidSegment, Bool.and_eq_true, decide_eq_true_eq,
    List.all_eq_true]
  exact ⟨by simpa using nonempty, fun character member =>
    AddressStore.isAlphanum_of_hex (digest.isDigit character member)⟩

theorem pathAfter?_of_ne {start path : String}
    (apart : start.toList.isPrefixOf path.toList = false) :
    pathAfter? start path = none := by
  simp [pathAfter?, Json.after?, apart]

theorem toList_collection (kind : ResourceKind) :
    (s!"/ldp/{kind.name}/" : String).toList =
      match kind with
      | .invoices => "/ldp/invoices/".toList
      | .orders => "/ldp/orders/".toList := by
  cases kind <;> rfl

theorem toList_resource (kind : ResourceKind) (digest : Digest) :
    (s!"/ldp/{kind.name}/{digest.hex}" : String).toList =
      (s!"/ldp/{kind.name}/" : String).toList ++ digest.hex.toList :=
  String.toList_append

/-- The path of a resource leads to its file. -/
theorem resource_path (kind : ResourceKind) (digest : Digest) :
    AddressStore.casPathDigest? s!"/ldp/{kind.name}/{digest.hex}" = none ∧
      ∀ home : Home, AddressStore.localLdp home
        s!"/ldp/{kind.name}/{digest.hex}" =
          AddressStore.localResource home kind digest.hex := by
  have segment := isCidSegment_hex digest
  have key : AddressStore.resourcePathKey? kind
      s!"/ldp/{kind.name}/{digest.hex}" = some digest.hex := by
    have behind := pathAfter?_append s!"/ldp/{kind.name}/" digest.hex
    rw [AddressStore.resourcePathKey?,
      show s!"/ldp/{kind.name}/{digest.hex}" =
        s!"/ldp/{kind.name}/" ++ digest.hex from rfl, behind]
    simp [Option.filter, segment]
  have cas : AddressStore.casPathDigest? s!"/ldp/{kind.name}/{digest.hex}" =
      none := by
    have absent : pathAfter? "/ldp/cas/" s!"/ldp/{kind.name}/{digest.hex}" =
        none := by
      apply pathAfter?_of_ne
      rw [toList_resource, toList_collection]
      cases kind <;> simp [List.isPrefixOf]
    rw [AddressStore.casPathDigest?, absent]
  refine ⟨cas, fun home => ?_⟩
  cases kind with
  | invoices => simp only [AddressStore.localLdp, cas, key]
  | orders =>
      have other : AddressStore.resourcePathKey? .invoices
          s!"/ldp/{ResourceKind.orders.name}/{digest.hex}" = none := by
        have absent : pathAfter? s!"/ldp/{ResourceKind.invoices.name}/"
            s!"/ldp/{ResourceKind.orders.name}/{digest.hex}" = none := by
          apply pathAfter?_of_ne
          rw [toList_resource, toList_collection, toList_collection]
          simp [List.isPrefixOf]
        rw [AddressStore.resourcePathKey?, absent]
        rfl
      simp only [AddressStore.localLdp, cas, other, key]

theorem resource_ldp_uri_hex (kind : ResourceKind) (digest : Digest)
    (base_url : String) : resource_ldp_uri kind digest.hex base_url =
      .ok (Text.rstripSlash base_url ++
        (s!"/ldp/{kind.name}/" ++ digest.hex)) := by
  simp only [resource_ldp_uri, content_id_fs_key_hex, Except.bind, bind]
  rfl

/-- `_node_base_url()`. -/
def node_base_url (host : String) (port : Nat) : String :=
  s!"http://{host}:{port}"

theorem toList_node_base_url (host : String) (port : Nat) :
    (node_base_url host port).toList = "http://".toList ++
      (host.toList ++ ':' :: Nat.toDigits 10 port) := by
  simp [node_base_url, toString, Nat.repr]

theorem isDigit_port {port : Nat} :
    ∀ character ∈ Nat.toDigits 10 port, character.isDigit = true :=
  fun _ member => Nat.isDigit_of_mem_toDigits (by omega) (by omega) member

/-- The base URL ends with the digits of the port. -/
theorem rstripSlash_node_base_url (host : String) (port : Nat) :
    Text.rstripSlash (node_base_url host port) = node_base_url host port := by
  obtain ⟨start, last, split⟩ : ∃ start last,
      Nat.toDigits 10 port = start ++ [last] := by
    rcases List.eq_nil_or_concat' (Nat.toDigits 10 port) with empty | found
    · exact absurd empty Nat.toDigits_ne_nil
    · exact found
  have notSlash : ¬ (decide (last = '/')) = true := by
    intro slash
    have digit := isDigit_port last (show last ∈ Nat.toDigits 10 port by
      simp [split])
    rw [of_decide_eq_true slash] at digit
    revert digit
    decide
  apply String.toList_injective
  have shape : (node_base_url host port).toList = ("http://".toList ++
      (host.toList ++ ':' :: start)) ++ [last] := by
    rw [toList_node_base_url, split]
    simp
  rw [Text.rstripSlash, String.toList_ofList, shape]
  exact List.rdropWhile_concat_neg _ _ _ notSlash

theorem isSpace_of_plain {character : Char}
    (plain : Url.isPlain character = true) :
    Text.isSpace character = false := by
  rcases Bool.or_eq_true_iff.mp plain with letter | listed
  · exact isSpace_of_alphanum letter
  · have table : (['-', '.', ':'].all fun other => !Text.isSpace other) =
        true := by decide
    exact Bool.not_eq_true' _ ▸ List.all_eq_true.mp table character
      (List.contains_iff_mem.mp listed)

/-- A plain URL has no space in it and is an `http` URL. -/
theorem is_http_uri_plain {authority rest : List Char}
    (host : ∀ character ∈ authority, Url.isPlain character = true)
    (place : ∀ character ∈ rest,
      Url.isPlain character = true ∨ character = '/') :
    Text.strip (Url.http authority rest) = Url.http authority rest ∧
      is_http_uri (Url.http authority rest) = true := by
  have shape : (Url.http authority rest).toList =
      ['h', 't', 't', 'p', ':', '/', '/'] ++ (authority ++ '/' :: rest) :=
    String.toList_ofList
  have stripped : Text.strip (Url.http authority rest) =
      Url.http authority rest := by
    apply Text.strip_eq_self
    intro character member
    rw [shape] at member
    rcases List.mem_append.mp member with scheme | member
    · have table : (['h', 't', 't', 'p', ':', '/', '/'].all fun other =>
          !Text.isSpace other) = true := by decide
      exact Bool.not_eq_true' _ ▸ List.all_eq_true.mp table character scheme
    · rcases List.mem_append.mp member with inside | behind
      · exact isSpace_of_plain (host character inside)
      · rcases List.mem_cons.mp behind with slash | behind
        · rw [slash]
          decide
        · rcases place character behind with plain | slash
          · exact isSpace_of_plain plain
          · rw [slash]
            decide
  have starts : Text.startsWith (Text.lower (Url.http authority rest))
      "http://" = true := by
    rw [Text.startsWith_iff, Text.toList_lower, shape, List.map_append]
    have lowered : ['h', 't', 't', 'p', ':', '/', '/'].map Char.toLower =
        "http://".toList := by decide
    rw [lowered]
    exact List.prefix_append _ _
  refine ⟨stripped, ?_⟩
  rw [is_http_uri, stripped, starts, Bool.true_or]

/-- The locators of a Node whose host is plain text lead to its own files. -/
theorem localUri_of_host {host : String}
    (plain : ∀ character ∈ host.toList, Url.isPlain character = true)
    (port : Nat) (kind : ResourceKind) (digest : Digest) :
    ∃ uri, resource_ldp_uri kind digest.hex (node_base_url host port) =
        .ok uri ∧ LocalUri kind digest uri := by
  have authority : ∀ character ∈ host.toList ++ ':' :: Nat.toDigits 10 port,
      Url.isPlain character = true := by
    intro character member
    rcases List.mem_append.mp member with inside | behind
    · exact plain character inside
    · rcases List.mem_cons.mp behind with colon | digit
      · rw [colon]
        decide
      · simp [Url.isPlain, Char.isAlphanum, isDigit_port character digit]
  have place : ∀ character ∈ (s!"ldp/{kind.name}/" ++ digest.hex).toList,
      Url.isPlain character = true ∨ character = '/' := by
    intro character member
    rw [String.toList_append] at member
    rcases List.mem_append.mp member with start | hex
    · have table : ((s!"ldp/{kind.name}/" : String).toList.all fun other =>
          Url.isPlain other || other = '/') = true := by
        cases kind <;> decide +kernel
      have listed := List.all_eq_true.mp table character start
      rwa [Bool.or_eq_true, decide_eq_true_iff] at listed
    · have letter := AddressStore.isAlphanum_of_hex (digest.isDigit _ hex)
      exact .inl (by simp [Url.isPlain, letter])
  have shape : node_base_url host port ++
      (s!"/ldp/{kind.name}/" ++ digest.hex) =
        Url.http (host.toList ++ ':' :: Nat.toDigits 10 port)
          (s!"ldp/{kind.name}/" ++ digest.hex).toList := by
    apply String.toList_injective
    rw [Url.http, String.toList_ofList, String.toList_append,
      toList_node_base_url]
    cases kind <;> simp [ResourceKind.name, toString]
  obtain ⟨stripped, http⟩ := is_http_uri_plain authority place
  rw [resource_ldp_uri_hex, rstripSlash_node_base_url, shape]
  refine ⟨_, rfl, http, stripped, ?_⟩
  rw [Url.path_http authority place, Except.ok.injEq]
  apply String.toList_injective
  rw [String.toList_ofList]
  cases kind <;> simp [ResourceKind.name, toString]

/-- A locator of the Node names one digest. -/
theorem Published.unique {kind : ResourceKind} {digest : Digest}
    {content_id uri : String}
    (located : resource_ldp_uri kind digest.hex base_url = .ok uri)
    (published : Published base_url content_id uri) :
    content_id = to_ni digest := by
  obtain ⟨other, named, place⟩ := published
  rw [resource_ldp_uri_hex, Except.ok.injEq] at located
  rw [named]
  have tails : ∀ left right : String,
      Text.rstripSlash base_url ++ left = Text.rstripSlash base_url ++ right →
        left.toList = right.toList := by
    intro left right same
    have lists := congrArg String.toList same
    rw [String.toList_append, String.toList_append] at lists
    exact List.append_cancel_left lists
  rcases place with blob | ⟨stated, resource⟩
  · have same := tails _ (cas_ldp_path other) (located.trans blob)
    rw [String.toList_append, toList_collection, cas_ldp_path,
      String.toList_append] at same
    cases kind <;> simp at same
  · rw [resource_ldp_uri_hex, Except.ok.injEq] at resource
    have same : (s!"/ldp/{kind.name}/{digest.hex}" : String).toList =
        (s!"/ldp/{stated.name}/{other.hex}" : String).toList :=
      tails _ _ (located.trans resource.symm)
    rw [toList_resource, toList_resource, toList_collection,
      toList_collection] at same
    cases kind <;> cases stated <;> simp at same
    · rw [Digest.ext_hex (String.toList_injective same)]
    · rw [Digest.ext_hex (String.toList_injective same)]

/-- A local read of a sound Node yields the resource. -/
theorem cat_bytes_resource {home : Home} {kind : ResourceKind}
    {digest : Digest} {uri : String} {data : Bytes}
    (local_home : machine.home = some home)
    (index : ∀ id, home.index.find_content_id_for_uri uri = .ok (some id) →
      id = to_ni digest)
    (total : ∃ found, home.index.find_content_id_for_uri uri = .ok found)
    (here : LocalUri kind digest uri)
    (found : home.resources kind digest.hex = some data)
    (hash : sha256_hex data = digest) :
    AddressStore.cat_bytes net uri none machine = .ok data machine := by
  have notHl := notHashlink_of_http here.http
  obtain ⟨notCas, at_file⟩ := resource_path kind digest
  have stored : AddressStore.localResource home kind digest.hex =
      .ok (some (data, some digest)) := by
    simp only [AddressStore.localResource, Home.resourceStore,
      JsonResourceStore.get_bytes, content_id_fs_key_hex, Except.map, found,
      Option.map_some, Digest.lower_hex]
    simp [digestSegment?]
  have fetched : AddressStore.fetchUri net uri machine =
      .ok (data, some digest) machine := by
    unfold AddressStore.fetchUri
    rw [bind_run_ok (get_run machine)]
    simp only [AddressStore.local_ldp_bytes, local_home, here.path,
      Except.bind, bind, at_file, stored]
    rfl
  have resolved : ∃ known, AddressStore.resolve_expect_digest
      (machine.home.map Home.index) uri none = .ok known ∧
        (known = none ∨ known = some digest) := by
    obtain ⟨outcome, looked⟩ := total
    cases outcome with
    | none =>
        refine ⟨none, ?_, .inl rfl⟩
        simp only [AddressStore.resolve_expect_digest, Option.filter,
          here.path, notCas, Except.bind, bind, local_home, Option.map_some,
          AddressStore.indexedDigest, looked]
    | some id =>
        have same := index id looked
        subst same
        refine ⟨some digest, ?_, .inr rfl⟩
        simp only [AddressStore.resolve_expect_digest, Option.filter,
          here.path, notCas, Except.bind, bind, local_home, Option.map_some,
          AddressStore.indexedDigest, looked, is_ni_or_digest_to_ni, if_true,
          from_ni_to_ni, Except.map]
  obtain ⟨known, expected, compared⟩ := resolved
  have picked : (known <|> some digest) = some digest := by
    rcases compared with rfl | rfl <;> rfl
  simp only [AddressStore.cat_bytes, notHl, Bool.false_eq_true, if_false,
    AddressStore.catPlain, here.http, if_true]
  unfold AddressStore.catHttp
  rw [bind_run_ok fetched]
  dsimp only
  rw [bind_run_ok (get_run machine), expected]
  refine (bind_run_ok (pure_run known machine)).trans ?_
  rw [picked]
  dsimp only
  rw [if_neg (not_not.mpr hash)]
  rfl

end

end Cats
