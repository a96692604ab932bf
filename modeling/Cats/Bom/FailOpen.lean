import Cats.Bom.Images

/-!
# What the runtime SBOM fails on

The projection should return whatever the files hold and the commands print.  It
does exactly where the token of each tree can be read and every ref mentioned is
one it gets over.
-/

namespace Cats

namespace Sbom

/-- The components of a CycloneDX document. -/
def componentsOf : Json → List Json
  | .obj fields =>
      match Fields.get? fields "components" with
      | some (.arr items) => items
      | _ => []
  | _ => []

section Gathering

variable {tools : Tools} {syft_bin : Option String}

/-- Every image of the components has a name and a sha-256. -/
def AllResolved (components : List Json) : Prop :=
  ∀ component ∈ components, IsOci component → Resolved component

/-- A ref has its image exactly where its digest is hexadecimal and it names an
image. -/
theorem imageOf_iff {ref : String} {digest : Option String}
    (candidate : ∀ value, digest = some value → Candidate value) :
    (∃ image, imageOf ref digest = .ok image ∧ AllResolved image) ↔
      ∀ value, digest = some value →
        isHexSha256 value = true ∧ Text.strip (oci_name ref) ≠ "" := by
  cases digest with
  | none =>
      constructor
      · intro _ value same
        cases same
      · intro _
        refine ⟨[], rfl, ?_⟩
        intro component member
        cases member
  | some value =>
      have long := candidate value rfl
      have nonempty : value ≠ "" := by
        intro empty
        have length := long.length
        rw [empty] at length
        cases length
      rw [imageOf, if_neg nonempty]
      constructor
      · intro returned other same
        cases same
        obtain ⟨image, returned, resolved⟩ := returned
        apply (cdx_oci_component_iff long).mp
        cases built : cdx_oci_component (oci_name ref) value with
        | error raised =>
            rw [built] at returned
            cases returned
        | ok component =>
            rw [built] at returned
            cases returned
            exact ⟨component, rfl, resolved component List.mem_cons_self
              (isOci_of_built built)⟩
      · intro every
        obtain ⟨component, built, resolved⟩ :=
          (cdx_oci_component_iff long).mpr (every value rfl)
        refine ⟨[component], ?_, ?_⟩
        · rw [built]
          rfl
        · intro other member _
          rw [List.mem_singleton.mp member]
          exact resolved

theorem allResolved_append {left right : List Json} :
    AllResolved (left ++ right) ↔ AllResolved left ∧ AllResolved right :=
  List.forall_mem_append

theorem allResolved_artifacts (artifacts : List Json) :
    AllResolved (artifacts.filterMap cdx_component_from_syft_artifact) := by
  intro component member kind
  obtain ⟨artifact, _, built⟩ := List.mem_filterMap.mp member
  exact absurd kind (not_isOci_of_artifact built)

/-- What a turn of the loop goes through. -/
theorem gather_ok_iff {ref : String} {gathered : Gathered} :
    gather tools syft_bin ref = .ok gathered ↔ ∃ digest image doc ran,
      docker_image_digest tools ref = .ok digest ∧
        imageOf ref digest = .ok image ∧
        run_syft tools syft_bin ref = .ok (doc, ran) ∧
        match doc with
        | none => gathered = ⟨image, [], ran⟩
        | some doc => ∃ artifacts, artifactsOf doc = .ok artifacts ∧
            gathered =
              ⟨image ++ artifacts.filterMap cdx_component_from_syft_artifact,
                [.obj doc], ran⟩ := by
  unfold gather
  constructor
  · intro returned
    obtain ⟨digest, resolved, returned⟩ := Raised.bind_returns returned
    obtain ⟨image, made, returned⟩ := Raised.bind_returns returned
    obtain ⟨⟨doc, ran⟩, cataloged, returned⟩ := Raised.bind_returns returned
    refine ⟨digest, image, doc, ran, resolved, made, cataloged, ?_⟩
    cases doc with
    | none => exact (Except.ok.inj returned).symm
    | some doc =>
        obtain ⟨artifacts, read, returned⟩ := Raised.bind_returns returned
        exact ⟨artifacts, read, (Except.ok.inj returned).symm⟩
  · intro turn
    obtain ⟨digest, image, doc, ran, resolved, made, cataloged, turn⟩ := turn
    simp only [resolved, made, cataloged, bind, Except.bind]
    cases doc with
    | none => rw [turn]
    | some doc =>
        obtain ⟨artifacts, read, same⟩ := turn
        simp only [read, same]

/-- One turn returns, with its image resolved, exactly where the ref is one the
projection gets over. -/
theorem gather_iff {ref : String} :
    (∃ gathered, gather tools syft_bin ref = .ok gathered ∧
        AllResolved gathered.components) ↔ RefOk tools syft_bin ref := by
  constructor
  · intro returned
    obtain ⟨gathered, returned, resolved⟩ := returned
    obtain ⟨digest, image, doc, ran, found, made, cataloged, turn⟩ :=
      gather_ok_iff.mp returned
    have images : AllResolved image := by
      cases doc with
      | none =>
          rw [turn] at resolved
          exact resolved
      | some doc =>
          obtain ⟨artifacts, _, same⟩ := turn
          rw [same] at resolved
          exact (allResolved_append.mp resolved).1
    constructor
    · exact docker_image_digest_iff.mp ⟨digest, found⟩
    · intro value digests
      have named := (docker_image_digest_some found value).mpr digests
      apply (imageOf_iff ?_).mp ⟨image, made, images⟩ value named
      intro other same
      exact candidate_of_digests ((docker_image_digest_some found other).mp same)
    · exact run_syft_iff.mp ⟨(doc, ran), cataloged⟩
    · intro binary stdout stderr text printed value located exits decoded loaded
      have same := (run_syft_some cataloged printed).mpr
        ⟨binary, stdout, stderr, text, located, exits, decoded, loaded⟩
      rw [same] at turn
      obtain ⟨artifacts, read, _⟩ := turn
      exact artifactsOf_iff.mp ⟨artifacts, read⟩ value
  · intro good
    obtain ⟨digest, found⟩ := docker_image_digest_iff.mpr good.inspects
    have candidate : ∀ value, digest = some value → Candidate value := by
      intro value same
      exact candidate_of_digests ((docker_image_digest_some found value).mp same)
    obtain ⟨image, made, images⟩ := (imageOf_iff candidate).mpr (by
      intro value same
      exact good.digests value ((docker_image_digest_some found value).mp same))
    obtain ⟨⟨doc, ran⟩, cataloged⟩ := run_syft_iff.mpr good.catalogs
    cases doc with
    | none =>
        refine ⟨⟨image, [], ran⟩, gather_ok_iff.mpr
          ⟨digest, image, none, ran, found, made, cataloged, rfl⟩, images⟩
    | some doc =>
        obtain ⟨artifacts, read⟩ := artifactsOf_iff.mpr (by
          intro value here
          obtain ⟨binary, stdout, stderr, text, located, exits, decoded,
            loaded⟩ := (run_syft_some cataloged doc).mp rfl
          exact good.artifacts binary stdout stderr text doc value located exits
            decoded loaded here)
        refine ⟨_, gather_ok_iff.mpr ⟨digest, image, some doc, ran, found, made,
          cataloged, artifacts, read, rfl⟩, ?_⟩
        exact allResolved_append.mpr ⟨images, allResolved_artifacts artifacts⟩

/-- The loop returns exactly where each of its turns does. -/
theorem gatherAll_iff {refs : List String} :
    (∃ gathered, gatherAll tools syft_bin refs = .ok gathered ∧
        AllResolved gathered.components) ↔
      ∀ ref ∈ refs, RefOk tools syft_bin ref := by
  induction refs with
  | nil =>
      constructor
      · intro _ ref member
        cases member
      · intro _
        refine ⟨⟨[], [], false⟩, rfl, ?_⟩
        intro component member
        cases member
  | cons ref refs induction =>
      rw [List.forall_mem_cons, ← induction, ← gather_iff]
      constructor
      · intro returned
        obtain ⟨gathered, returned, resolved⟩ := returned
        obtain ⟨first, here, returned⟩ := Raised.bind_returns returned
        obtain ⟨rest, later, returned⟩ := Raised.bind_returns returned
        cases returned
        have both := allResolved_append.mp resolved
        exact ⟨⟨first, here, both.1⟩, rest, later, both.2⟩
      · intro returned
        obtain ⟨⟨first, here, one⟩, rest, later, others⟩ := returned
        refine ⟨⟨first.components ++ rest.components,
          first.syft_docs ++ rest.syft_docs, first.syft_ran || rest.syft_ran⟩,
          ?_, allResolved_append.mpr ⟨one, others⟩⟩
        rw [gatherAll]
        simp only [here, later, bind, Except.bind]

end Gathering

section Collecting

variable (fetch : String → Except Raised Json)
  (fetch_bytes : String → Except Raised Bytes) (index : Option LocatorIndex)

/-- The trees of a Structure that are looked into. -/
def stems : List String := ["plant", "infrastructure", "root"]

/-- The refs given, and those the files mention. -/
inductive Mentioned (structureDoc : Option Json) (image_refs : List String) :
    String → Prop where
  | given {raw : String} (member : raw ∈ image_refs) :
      Mentioned structureDoc image_refs raw
  | scraped {fields : Fields} {stem token raw : String}
      (whole : structureDoc = some (.obj fields)) (allowed : stem ∈ stems)
      (cited : stemToken index fields stem = .ok (some token))
      (nonempty : token ≠ "") (member : raw ∈ treeRefs fetch fetch_bytes token) :
      Mentioned structureDoc image_refs raw

/-- The token of each tree can be read. -/
def TokensRead (structureDoc : Option Json) : Prop :=
  ∀ fields, structureDoc = some (.obj fields) → ∀ stem ∈ stems,
    ∃ token, stemToken index fields stem = .ok token

/-- The refs added are those that are not blank, stripped. -/
theorem mem_foldl_addRef {raws : List String} {out : List String}
    {ref : String} :
    ref ∈ raws.foldl addRef out ↔
      ref ∈ out ∨ ∃ raw ∈ raws, Text.strip raw = ref ∧ ref ≠ "" := by
  induction raws generalizing out with
  | nil =>
      constructor
      · exact .inl
      · intro either
        rcases either with member | ⟨raw, member, _⟩
        · exact member
        · cases member
  | cons raw raws induction =>
      rw [List.foldl_cons, induction]
      have step : ref ∈ addRef out raw ↔
          ref ∈ out ∨ Text.strip raw = ref ∧ ref ≠ "" := by
        unfold addRef
        dsimp only
        split_ifs with skipped
        · constructor
          · exact .inl
          · intro either
            rcases either with member | ⟨same, nonempty⟩
            · exact member
            · rw [same] at skipped
              rcases Bool.or_eq_true_iff.mp skipped with blank | present
              · exact absurd (of_decide_eq_true blank) nonempty
              · exact List.contains_iff_mem.mp present
        · rw [List.mem_append, List.mem_singleton]
          constructor
          · intro either
            rcases either with member | same
            · exact .inl member
            · refine .inr ⟨same.symm, ?_⟩
              intro blank
              apply skipped
              rw [← same, blank]
              rfl
          · intro either
            rcases either with member | ⟨same, _⟩
            · exact .inl member
            · exact .inr same.symm
      rw [step, or_assoc]
      apply or_congr_right
      constructor
      · intro either
        rcases either with ⟨same, nonempty⟩ | ⟨other, member, same, nonempty⟩
        · exact ⟨raw, List.mem_cons_self, same, nonempty⟩
        · exact ⟨other, List.mem_cons_of_mem _ member, same, nonempty⟩
      · intro found
        obtain ⟨other, member, same, nonempty⟩ := found
        rcases List.mem_cons.mp member with here | later
        · rw [here] at same
          exact .inl ⟨same, nonempty⟩
        · exact .inr ⟨other, later, same, nonempty⟩

variable {fetch fetch_bytes index}

/-- One tree is looked into exactly where its token can be read. -/
theorem stemRefs_iff {fields : Fields} {stem : String} :
    (∃ refs, stemRefs fetch fetch_bytes index fields stem = .ok refs) ↔
      ∃ token, stemToken index fields stem = .ok token := by
  constructor
  · intro returned
    obtain ⟨refs, returned⟩ := returned
    obtain ⟨token, cited, _⟩ := Raised.bind_returns returned
    exact ⟨token, cited⟩
  · intro cited
    obtain ⟨token, cited⟩ := cited
    unfold stemRefs
    rw [cited]
    cases token with
    | none => exact ⟨[], rfl⟩
    | some token => exact ⟨_, rfl⟩

theorem mem_stemRefs {fields : Fields} {stem raw : String}
    {refs : List String}
    (returned : stemRefs fetch fetch_bytes index fields stem = .ok refs) :
    raw ∈ refs ↔ ∃ token, stemToken index fields stem = .ok (some token) ∧
      token ≠ "" ∧ raw ∈ treeRefs fetch fetch_bytes token := by
  obtain ⟨token, cited, returned⟩ := Raised.bind_returns returned
  rw [cited]
  cases token with
  | none =>
      cases returned
      constructor
      · intro member
        cases member
      · intro found
        obtain ⟨token, same, _⟩ := found
        cases same
  | some token =>
      cases returned
      split_ifs with blank
      · constructor
        · intro member
          cases member
        · intro found
          obtain ⟨other, same, nonempty, _⟩ := found
          cases same
          exact absurd blank nonempty
      · constructor
        · intro member
          exact ⟨token, rfl, blank, member⟩
        · intro found
          obtain ⟨other, same, _, member⟩ := found
          cases same
          exact member

/-- Collecting the refs goes through exactly where each token can be read. -/
theorem collect_image_refs_iff {structureDoc : Option Json}
    {image_refs : List String} :
    (∃ refs, collect_image_refs fetch fetch_bytes index structureDoc image_refs =
        .ok refs) ↔ TokensRead index structureDoc := by
  have scalar : (∀ fields, structureDoc ≠ some (.obj fields)) →
      ((∃ refs, collect_image_refs fetch fetch_bytes index structureDoc
        image_refs = .ok refs) ↔ TokensRead index structureDoc) := by
    intro other
    constructor
    · intro _ fields same
      exact absurd same (other fields)
    · intro read
      unfold collect_image_refs
      split
      · rename_i fields
        exact absurd rfl (other fields)
      · exact ⟨_, rfl⟩
  cases structureDoc with
  | none => exact scalar fun fields same => by cases same
  | some value =>
      cases value with
      | obj fields =>
          constructor
          · intro returned other same
            cases same
            obtain ⟨refs, returned⟩ := returned
            obtain ⟨plant, one, returned⟩ := Raised.bind_returns returned
            obtain ⟨infrastructure, two, returned⟩ := Raised.bind_returns returned
            obtain ⟨root, three, _⟩ := Raised.bind_returns returned
            intro stem member
            simp only [stems, List.mem_cons, List.not_mem_nil, or_false]
              at member
            rcases member with same | same | same
            · rw [same]
              exact stemRefs_iff.mp ⟨plant, one⟩
            · rw [same]
              exact stemRefs_iff.mp ⟨infrastructure, two⟩
            · rw [same]
              exact stemRefs_iff.mp ⟨root, three⟩
          · intro read
            have each : ∀ stem ∈ stems, ∃ refs,
                stemRefs fetch fetch_bytes index fields stem = .ok refs :=
              fun stem member => stemRefs_iff.mpr (read fields rfl stem member)
            obtain ⟨plant, one⟩ := each "plant" (by decide)
            obtain ⟨infrastructure, two⟩ := each "infrastructure" (by decide)
            obtain ⟨root, three⟩ := each "root" (by decide)
            unfold collect_image_refs
            simp only [one, two, three, bind, Except.bind]
            exact ⟨_, rfl⟩
      | null => exact scalar fun fields same => by cases same
      | bool value => exact scalar fun fields same => by cases same
      | int value => exact scalar fun fields same => by cases same
      | float value => exact scalar fun fields same => by cases same
      | str value => exact scalar fun fields same => by cases same
      | arr items => exact scalar fun fields same => by cases same

/-- What is collected is what is mentioned, stripped. -/
theorem mem_collect_image_refs {structureDoc : Option Json}
    {image_refs refs : List String} {ref : String}
    (returned : collect_image_refs fetch fetch_bytes index structureDoc
      image_refs = .ok refs) :
    ref ∈ refs ↔ ∃ raw,
      Mentioned fetch fetch_bytes index structureDoc image_refs raw ∧
        Text.strip raw = ref ∧ ref ≠ "" := by
  have given_only : (∀ fields, structureDoc ≠ some (.obj fields)) →
      refs = image_refs.foldl addRef [] →
      (ref ∈ refs ↔ ∃ raw,
        Mentioned fetch fetch_bytes index structureDoc image_refs raw ∧
          Text.strip raw = ref ∧ ref ≠ "") := by
    intro other same
    rw [same, mem_foldl_addRef]
    constructor
    · intro either
      rcases either with member | ⟨raw, member, stripped⟩
      · cases member
      · exact ⟨raw, .given member, stripped⟩
    · intro found
      obtain ⟨raw, mentioned, stripped⟩ := found
      cases mentioned with
      | given member => exact .inr ⟨raw, member, stripped⟩
      | scraped whole _ _ _ _ => exact absurd whole (other _)
  cases structureDoc with
  | none =>
      exact given_only (fun fields same => by cases same)
        (Except.ok.inj returned).symm
  | some value =>
      cases value with
      | obj fields =>
          obtain ⟨plant, one, returned⟩ := Raised.bind_returns returned
          obtain ⟨infrastructure, two, returned⟩ := Raised.bind_returns returned
          obtain ⟨root, three, returned⟩ := Raised.bind_returns returned
          rw [← Except.ok.inj returned, mem_foldl_addRef]
          simp only [List.mem_append, mem_stemRefs one, mem_stemRefs two,
            mem_stemRefs three]
          constructor
          · intro either
            rcases either with member | ⟨raw, from_where, stripped⟩
            · cases member
            · refine ⟨raw, ?_, stripped⟩
              rcases from_where with ((member | scraped) | scraped) | scraped
              · exact .given member
              · obtain ⟨token, cited, nonempty, member⟩ := scraped
                exact .scraped rfl (by decide) cited nonempty member
              · obtain ⟨token, cited, nonempty, member⟩ := scraped
                exact .scraped rfl (by decide) cited nonempty member
              · obtain ⟨token, cited, nonempty, member⟩ := scraped
                exact .scraped rfl (by decide) cited nonempty member
          · intro found
            obtain ⟨raw, mentioned, stripped⟩ := found
            refine .inr ⟨raw, ?_, stripped⟩
            cases mentioned with
            | given member => exact .inl (.inl (.inl member))
            | @scraped others stem token _ whole allowed cited nonempty member =>
                cases whole
                simp only [stems, List.mem_cons, List.not_mem_nil, or_false]
                  at allowed
                rcases allowed with same | same | same
                · rw [same] at cited
                  exact .inl (.inl (.inr ⟨token, cited, nonempty, member⟩))
                · rw [same] at cited
                  exact .inl (.inr ⟨token, cited, nonempty, member⟩)
                · rw [same] at cited
                  exact .inr ⟨token, cited, nonempty, member⟩
      | null =>
          exact given_only (fun fields same => by cases same)
            (Except.ok.inj returned).symm
      | bool value =>
          exact given_only (fun fields same => by cases same)
            (Except.ok.inj returned).symm
      | int value =>
          exact given_only (fun fields same => by cases same)
            (Except.ok.inj returned).symm
      | float value =>
          exact given_only (fun fields same => by cases same)
            (Except.ok.inj returned).symm
      | str value =>
          exact given_only (fun fields same => by cases same)
            (Except.ok.inj returned).symm
      | arr items =>
          exact given_only (fun fields same => by cases same)
            (Except.ok.inj returned).symm

end Collecting

section Projecting

variable {tools : Tools} {syft_bin : Option String}
  {fetch : String → Except Raised Json}
  {fetch_bytes : String → Except Raised Bytes} {index : Option LocatorIndex}
  {serial : String → String}

/-- The components of the document are the ones gathered. -/
theorem componentsOf_cyclonedx (subject created : String)
    (components : List Json) :
    AllResolved (componentsOf (cyclonedx_16 serial subject components created)) ↔
      AllResolved components := by
  have listed : componentsOf (cyclonedx_16 serial subject components created) =
      components.mergeSort sortsBefore := rfl
  rw [listed]
  unfold AllResolved
  simp only [List.mem_mergeSort]

/-- A slot for the id of what was put can always be set. -/
theorem set_ref_to_ni (obj : Fields) (stem base_url : String)
    (digest : Digest) :
    ∃ stored, set_ref obj stem (to_ni digest) base_url = .ok stored := by
  unfold set_ref build_content_ref content_uri
  simp only [is_ni_or_digest_to_ni, equality_id_to_ni, if_true, bind,
    Except.bind, strip_to_ni, from_ni_to_ni, Except.map]
  split_ifs
  · exact ⟨_, rfl⟩
  · exact ⟨_, rfl⟩

theorem put_runtime_sbom_nest_returns (base_url : String)
    (runtime : Projected) :
    ∃ digest, put_runtime_sbom_nest base_url runtime = .ok (to_ni digest) := by
  unfold put_runtime_sbom_nest Projected.runtime_cdx Projected.runtime_syft
    put_projection
  obtain ⟨⟨eid, nest⟩, stored⟩ := set_ref_to_ni [] "cyclonedx" base_url
    (sha256_hex (Utf8.encodeAscii
      (Json.dumps .standard runtime.cdx.sortKeys ++ ['\n'])))
  cases runtime.syft with
  | none =>
      simp only [stored, bind, Except.bind, Option.map_none]
      exact ⟨_, rfl⟩
  | some syft =>
      obtain ⟨both, stores⟩ := set_ref_to_ni nest "syft" base_url
        (sha256_hex (Utf8.encodeAscii
          (Json.dumps .standard syft.sortKeys ++ ['\n'])))
      simp only [stored, stores, bind, Except.bind, Option.map_some, Except.map]
      exact ⟨_, rfl⟩

/-- The Invoice gets its runtime SBOM whenever there is a projection. -/
theorem attach_runtime_sbom_of_projected {id : String}
    {structureDoc : Option Json} {image_refs : List String}
    {projected : Projected}
    (returned : project_structure_runtime tools syft_bin fetch fetch_bytes index
      serial id structureDoc image_refs fixedCreated = .ok projected)
    (cats_sbom : Option String) (base_url : String) (invoice : Fields) :
    ∃ result, attach_runtime_sbom tools syft_bin fetch fetch_bytes index serial
      cats_sbom base_url invoice id structureDoc image_refs = .ok result := by
  unfold attach_runtime_sbom
  split_ifs
  · obtain ⟨digest, nested⟩ := put_runtime_sbom_nest_returns base_url projected
    obtain ⟨attached, stored⟩ := set_ref_to_ni invoice "runtime_sbom" base_url
      digest
    simp only [returned, nested, stored, bind, Except.bind]
    exact ⟨_, rfl⟩
  · exact ⟨_, rfl⟩

/-- The projection returns, whatever time it is given, a document whose images
are all resolved, and the Invoice gets it. -/
structure FailOpen (tools : Tools) (syft_bin : Option String)
    (fetch : String → Except Raised Json)
    (fetch_bytes : String → Except Raised Bytes) (index : Option LocatorIndex)
    (serial : String → String) (structure_as_executed_id : String)
    (structureDoc : Option Json) (image_refs : List String) : Prop where
  projects : ∀ created, ∃ projected,
    project_structure_runtime tools syft_bin fetch fetch_bytes index serial
        structure_as_executed_id structureDoc image_refs created =
      .ok projected ∧ AllResolved (componentsOf projected.cdx)
  attaches : ∀ cats_sbom base_url invoice, ∃ result,
    attach_runtime_sbom tools syft_bin fetch fetch_bytes index serial cats_sbom
        base_url invoice structure_as_executed_id structureDoc image_refs =
      .ok result

/-- A projection with its images resolved got over each ref it collected. -/
theorem refs_of_projected {id created : String} {structureDoc : Option Json}
    {image_refs : List String} {projected : Projected}
    (returned : project_structure_runtime tools syft_bin fetch fetch_bytes index
      serial id structureDoc image_refs created = .ok projected)
    (resolved : AllResolved (componentsOf projected.cdx)) :
    ∃ refs, collect_image_refs fetch fetch_bytes index structureDoc image_refs =
      .ok refs ∧ ∀ ref ∈ refs, RefOk tools syft_bin ref := by
  obtain ⟨subject, _, returned⟩ := Raised.bind_returns returned
  obtain ⟨refs, collected, returned⟩ := Raised.bind_returns returned
  obtain ⟨gathered, looped, returned⟩ := Raised.bind_returns returned
  rw [← Except.ok.inj returned] at resolved
  have images := (componentsOf_cyclonedx subject created _).mp resolved
  exact ⟨refs, collected, gatherAll_iff.mp ⟨gathered, looped, images⟩⟩

end Projecting

section Plant

/-- A digest is a valid id. -/
theorem require_ni_hex (digest : Digest) (label : String) :
    require_ni digest.hex label = .ok (to_ni digest) := by
  have nonempty : digest.hex ≠ "" := by
    intro empty
    have length := digest.length
    rw [empty] at length
    cases length
  have web : is_http_uri digest.hex = false := by
    unfold is_http_uri
    simp only [Digest.strip_hex, Digest.lower_hex,
      @startsWith_of_hex digest.hex "http://" 'h' _ digest.valid rfl rfl,
      @startsWith_of_hex digest.hex "https://" 'h' _ digest.valid rfl rfl,
      Bool.or_self]
  unfold require_ni equality_id
  simp only [Digest.strip_hex, if_neg nonempty, web, is_ni_or_digest_hex,
    from_ni_hex, Bool.false_eq_true, if_false, if_true, Except.map]

def someDigest : Digest := ⟨String.ofList (List.replicate 64 'a'), by decide⟩

/-- A Structure with a plant tree only. -/
def plantOnly : Option Json :=
  some (.obj [("plant_uri", .str someDigest.hex)])

/-- The tree has one compose file. -/
def fetchPlant : String → Except Raised Json := fun _ =>
  .ok (manifestDocument [("compose.yaml", .str someDigest.hex)])

/-- The text of the file, in characters of one byte. -/
def holds (text : List Char) : String → Except Raised Bytes := fun _ =>
  .ok (text.map fun character => UInt8.ofNat character.toNat)

/-- Neither command is there. -/
def missing : Tools :=
  { docker := false
    syft := none
    inspected := fun _ => .failed
    cataloged := fun _ => .failed }

/-- The ref of sixty-four characters that are not hexadecimal. -/
def malformed : List Char :=
  "x@sha256:".toList ++ List.replicate 64 'g'

theorem strip_malformed :
    Text.strip (String.ofList malformed) = String.ofList malformed := by
  apply Text.strip_eq_self
  rw [String.toList_ofList]
  exact List.all_iff_forall_prop.mp (by decide +kernel)

theorem tree_malformed : treeRefs fetchPlant
    (holds ("image: ".toList ++ malformed)) someDigest.hex =
      [String.ofList malformed] := by
  have decoded : Utf8.decode (("image: ".toList ++ malformed).map
      fun character => UInt8.ofNat character.toNat) =
        some ("image: ".toList ++ malformed) := by
    decide +kernel
  have refs : refsOfText ("image: ".toList ++ malformed) =
      [String.ofList malformed] := by
    decide +kernel
  have listed : manifestEntries? (manifestDocument
      [("compose.yaml", .str someDigest.hex)]) =
        some [("compose.yaml", .str someDigest.hex)] := rfl
  have scanned : isScanned "compose.yaml" = true := by decide
  unfold treeRefs fetchPlant
  simp only [listed, List.flatMap_cons, List.flatMap_nil, List.append_nil,
    entryRefs, scanned, if_true, holds, decoded, refs]

end Plant

end Sbom

end Cats
