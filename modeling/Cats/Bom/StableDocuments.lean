import Cats.Bom.Documents
import Cats.Sorting
import Mathlib.Data.Prod.Lex

/-!
# Documents whatever the order

What a document lists is sorted first, so the order in which files, packages,
datasets and components were found leaves no trace, as long as no two of them have
the same sort key.  The `@id` of an element is made of its name, or is its URI, and
two elements have the same `@id` exactly where those texts coincide.
-/

namespace Cats

namespace Sbom

section Sorting

theorem sortedBy_perm {α : Type} {key : α → String} {left right : List α}
    (distinct : (left.map key).Nodup) (same : left.Perm right) :
    sortedBy key left = sortedBy key right := by
  apply mergeSort_eq_of_perm _ _ _ same
  · intro first second third low high
    simp only [decide_eq_true_eq] at low high ⊢
    exact le_trans low high
  · intro first second
    simp only [Bool.or_eq_true, decide_eq_true_eq]
    exact le_total _ _
  · intro first here second there low high
    simp only [decide_eq_true_eq] at low high
    exact List.inj_on_of_nodup_map distinct here there (le_antisymm low high)

theorem sortedBy_perm_self {α : Type} (key : α → String) (items : List α) :
    (sortedBy key items).Perm items :=
  List.mergeSort_perm items _

theorem pairBefore_iff {left right : String × String} :
    pairBefore left right = true ↔ toLex left ≤ toLex right := by
  unfold pairBefore
  rw [decide_eq_true_iff, Prod.Lex.toLex_le_toLex]

theorem sortedPairs_perm {left right : List (String × String)}
    (same : left.Perm right) :
    left.mergeSort pairBefore = right.mergeSort pairBefore := by
  apply mergeSort_eq_of_perm _ _ _ same
  · intro first second third low high
    rw [pairBefore_iff] at low high ⊢
    exact le_trans low high
  · intro first second
    rw [Bool.or_eq_true, pairBefore_iff, pairBefore_iff]
    exact le_total _ _
  · intro first here second there low high
    rw [pairBefore_iff] at low high
    exact toLex.injective (le_antisymm low high)

/-- The sort key of a component. -/
def sortKey (component : Json) : List String :=
  ["purl", "name", "version"].map (sortText component)

theorem sortsBefore_iff {left right : Json} :
    sortsBefore left right = true ↔ sortKey left ≤ sortKey right := by
  unfold sortsBefore
  exact decide_eq_true_iff

/-- Components with one sort key are one component. -/
def Untied (components : List Json) : Prop :=
  ∀ first ∈ components, ∀ second ∈ components,
    sortKey first = sortKey second → first = second

theorem sortedComponents_perm {left right : List Json} (untied : Untied left)
    (same : left.Perm right) :
    left.mergeSort sortsBefore = right.mergeSort sortsBefore := by
  apply mergeSort_eq_of_perm _ _ _ same
  · intro first second third low high
    rw [sortsBefore_iff] at low high ⊢
    exact le_trans low high
  · intro first second
    rw [Bool.or_eq_true, sortsBefore_iff, sortsBefore_iff]
    exact le_total _ _
  · intro first here second there low high
    rw [sortsBefore_iff] at low high
    exact untied first here second there (le_antisymm low high)

end Sorting

section Ties

theorem sublist_sorted {components : List Json} {key : List String} :
    (components.filter fun component => sortKey component = key).Sublist
      (components.mergeSort sortsBefore) := by
  apply List.sublist_mergeSort _ _ _ List.filter_sublist
  · intro first second third low high
    rw [sortsBefore_iff] at low high ⊢
    exact le_trans low high
  · intro first second
    rw [Bool.or_eq_true, sortsBefore_iff, sortsBefore_iff]
    exact le_total _ _
  · rw [List.pairwise_filter]
    apply List.pairwise_of_forall
    intro first second here there
    rw [decide_eq_true_eq] at here there
    rw [sortsBefore_iff, here, there]

/-- Components with one sort key keep the order they were found in. -/
theorem filter_sorted (components : List Json) (key : List String) :
    (components.mergeSort sortsBefore).filter
        (fun component => sortKey component = key) =
      components.filter fun component => sortKey component = key := by
  have inside := (@sublist_sorted components key).filter
    fun component => sortKey component = key
  rw [List.filter_filter] at inside
  simp only [Bool.and_self] at inside
  exact (inside.eq_of_length
    ((List.mergeSort_perm components sortsBefore).filter _).length_eq.symm).symm

/-- A permutation leaves no trace exactly where there are no ties. -/
theorem sortedComponents_stable_iff (components : List Json) :
    (∀ other, components.Perm other →
      components.mergeSort sortsBefore = other.mergeSort sortsBefore) ↔
      Untied components := by
  constructor
  · intro stable first here second there tied
    by_contra different
    -- The two in front, in either order, sort alike and keep their order.
    have inside : second ∈ components.erase first :=
      (List.mem_erase_of_ne (Ne.symm different)).mpr there
    have front : components.Perm
        (first :: second :: (components.erase first).erase second) :=
      (List.perm_cons_erase here).trans
        (List.Perm.cons first (List.perm_cons_erase inside))
    have swapped := stable _ (front.trans (List.Perm.swap second first _))
    rw [stable _ front] at swapped
    have kept := congrArg (List.filter fun component =>
      sortKey component = sortKey first) swapped
    rw [filter_sorted, filter_sorted] at kept
    simp only [List.filter_cons, tied, decide_true, if_true] at kept
    exact different (List.cons.inj kept).1
  · intro untied other same
    exact sortedComponents_perm untied same

end Ties

section Elements

/-- The items a document lists under a key. -/
def itemsOf (key : String) (doc : Json) : List Json :=
  match doc.get? key with
  | some (.arr items) => items
  | _ => []

/-- The `@id` of an element. -/
def idOf (element : Json) : Option Json := element.get? "@id"

/-- A loop over the same items in another order returns the same in that order. -/
theorem mapM_perm {α β : Type} {make : α → Except Raised β} {left right : List α}
    (same : left.Perm right) {made : List β} (ran : left.mapM make = .ok made) :
    ∃ others, right.mapM make = .ok others ∧ made.Perm others := by
  induction same generalizing made with
  | nil => exact ⟨made, ran, List.Perm.refl _⟩
  | cons item same induction =>
      rw [List.mapM_cons] at ran
      obtain ⟨first, here, ran⟩ := Raised.bind_returns ran
      obtain ⟨rest, later, ran⟩ := Raised.bind_returns ran
      cases ran
      obtain ⟨others, ran, permuted⟩ := induction later
      refine ⟨first :: others, ?_, permuted.cons first⟩
      rw [List.mapM_cons, here]
      show (_ >>= _) = _
      rw [ran]
      rfl
  | swap item other rest =>
      rw [List.mapM_cons, List.mapM_cons] at ran
      obtain ⟨second, there, ran⟩ := Raised.bind_returns ran
      obtain ⟨more, ran, both⟩ := Raised.bind_returns ran
      obtain ⟨first, here, ran⟩ := Raised.bind_returns ran
      obtain ⟨results, later, ran⟩ := Raised.bind_returns ran
      cases ran
      cases both
      refine ⟨first :: second :: results, ?_, List.Perm.swap _ _ _⟩
      simp only [List.mapM_cons, here, there, later, bind, Except.bind, pure,
        Except.pure]
  | trans first second one two =>
      obtain ⟨middle, ran, here⟩ := one ran
      obtain ⟨others, ran, there⟩ := two ran
      exact ⟨others, ran, here.trans there⟩

/-- What a loop makes has, item by item, what one step gives it. -/
theorem mapM_map {α β γ : Type} {make : α → Except Raised β} {look : β → γ}
    {gives : α → γ} (step : ∀ item made, make item = .ok made →
      look made = gives item)
    {items : List α} {made : List β} (ran : items.mapM make = .ok made) :
    made.map look = items.map gives := by
  induction items generalizing made with
  | nil =>
      cases ran
      rfl
  | cons item items induction =>
      rw [List.mapM_cons] at ran
      obtain ⟨first, here, ran⟩ := Raised.bind_returns ran
      obtain ⟨rest, later, ran⟩ := Raised.bind_returns ran
      cases ran
      rw [List.map_cons, List.map_cons, step item first here, induction later]

/-- The id of a file's element. -/
def fileId (urn : String) (file : String × String) : Option Json :=
  some (.str s!"{urn}#file:{file.1}")

/-- The id of a package's element. -/
def pypiId (urn : String) (package : String × String) : Option Json :=
  some (.str s!"{urn}#pypi:{package.1}@{package.2}")

theorem idOf_fileElement {urn : String} (file : String × String) (element : Json)
    (made : fileElement urn file = .ok element) :
    idOf element = fileId urn file := by
  obtain ⟨named, -, made⟩ := Raised.bind_returns made
  obtain ⟨verified, -, made⟩ := Raised.bind_returns made
  cases made
  rfl

theorem idOf_pypiElement {urn : String} (package : String × String)
    (element : Json) (made : pypiElement urn package = .ok element) :
    idOf element = pypiId urn package := by
  obtain ⟨purl, -, made⟩ := Raised.bind_returns made
  cases made
  rfl

theorem idOf_datasetElement {urn : String} (lot : Lot) (element : Json)
    (made : datasetElement urn lot = .ok element) :
    idOf element = some (.str (lotId urn lot)) := by
  obtain ⟨named, -, made⟩ := Raised.bind_returns made
  obtain ⟨purl, -, made⟩ := Raised.bind_returns made
  obtain ⟨verified, -, made⟩ := Raised.bind_returns made
  cases made
  rfl

/-- The elements of a software document: the root, one for each file and one for
each package. -/
structure SoftwareElements (urn : String) (files pypi : List (String × String))
    (doc : Json) : Prop where
  roots : itemsOf "rootElement" doc = [.str (urn ++ "#root")]
  elements : ∃ root fileElements pypiElements,
    files.mapM (fileElement urn) = .ok fileElements ∧
      pypi.mapM (pypiElement urn) = .ok pypiElements ∧
      (itemsOf "element" doc).Perm (root :: (fileElements ++ pypiElements)) ∧
      idOf root = some (.str (urn ++ "#root"))

theorem software_spdx_elements {kind subject_id created : String}
    {files pypi : List (String × String)} {doc : Json}
    (made : software_spdx kind subject_id files pypi created = .ok doc) :
    ∃ subject, ni subject_id = .ok subject ∧
      SoftwareElements (projection_urn kind subject) files pypi doc := by
  obtain ⟨subject, named, made⟩ := Raised.bind_returns made
  obtain ⟨root_purl, -, made⟩ := Raised.bind_returns made
  obtain ⟨verified, -, made⟩ := Raised.bind_returns made
  obtain ⟨fileElements, fileRan, made⟩ := Raised.bind_returns made
  obtain ⟨pypiElements, pypiRan, made⟩ := Raised.bind_returns made
  cases made
  obtain ⟨files', fileRan, filePerm⟩ :=
    mapM_perm (sortedBy_perm_self Prod.fst files) fileRan
  obtain ⟨pypi', pypiRan, pypiPerm⟩ :=
    mapM_perm (List.mergeSort_perm pypi pairBefore) pypiRan
  exact ⟨subject, named, rfl, _, files', pypi', fileRan, pypiRan,
    (sortedBy_perm_self elementId _).trans
      (List.Perm.cons _ (filePerm.append pypiPerm)), rfl⟩

/-- The elements of a dataset document: one for each dataset, all of them roots. -/
structure DatasetElements (urn : String) (datasets : List Lot) (doc : Json) :
    Prop where
  roots : (itemsOf "rootElement" doc).Perm
    (datasets.map fun lot => .str (lotId urn lot))
  elements : ∃ elements, datasets.mapM (datasetElement urn) = .ok elements ∧
    (itemsOf "element" doc).Perm elements

theorem dataset_spdx_elements {subject_id created : String}
    {datasets : List Lot} {doc : Json}
    (made : dataset_spdx subject_id datasets created = .ok doc) :
    ∃ subject, ni subject_id = .ok subject ∧
      DatasetElements (projection_urn "dataset" subject) datasets doc := by
  obtain ⟨subject, named, made⟩ := Raised.bind_returns made
  obtain ⟨elements, ran, made⟩ := Raised.bind_returns made
  cases made
  obtain ⟨others, ran, permuted⟩ :=
    mapM_perm (sortedBy_perm_self Prod.fst datasets) ran
  refine ⟨subject, named, ?_, others, ran,
    (sortedBy_perm_self elementId _).trans permuted⟩
  have sorted := (sortedBy_perm_self id
    ((sortedBy Prod.fst datasets).map (lotId (projection_urn "dataset" subject)))).trans
    ((sortedBy_perm_self Prod.fst datasets).map _)
  have texts := sorted.map Json.str
  rw [List.map_map] at texts
  exact texts

end Elements

section Ids

variable {urn : String} {doc : Json}

theorem append_cancel {left right : String} (start : String)
    (same : start ++ left = start ++ right) : left = right := by
  have characters := congrArg String.toList same
  rw [String.toList_append, String.toList_append] at characters
  exact String.toList_injective (List.append_cancel_left characters)

/-- The text of a package in its id. -/
def packageText (package : String × String) : String :=
  s!"{package.1}@{package.2}"

/-- The id of the part of a document. -/
def partId (urn part : String) : Option Json := some (.str (urn ++ part))

theorem partId_injective : Function.Injective (partId urn) := fun _ _ same =>
  append_cancel urn (Json.str.inj (Option.some.inj same))

theorem fileId_eq (file : String × String) :
    fileId urn file = partId urn ("#file:" ++ file.1) := by
  unfold fileId partId
  rw [← String.append_assoc]
  rfl

theorem pypiId_eq (package : String × String) :
    pypiId urn package = partId urn ("#pypi:" ++ packageText package) := by
  unfold pypiId partId packageText
  simp only [String.append_assoc]
  rfl

/-- The parts of a document are told apart by the sign after `#`. -/
theorem part_ne {left right leftRest rightRest : String} {first second : Char}
    (leftIs : (left.toList.drop 1).head? = some first)
    (rightIs : (right.toList.drop 1).head? = some second)
    (apart : first ≠ second) : partId urn (left ++ leftRest) ≠
      partId urn (right ++ rightRest) := by
  intro same
  have characters := congrArg (fun text => (text.toList.drop 1).head?)
    (partId_injective same)
  have inFront : ∀ {text rest : String} {character : Char},
      (text.toList.drop 1).head? = some character →
      ((text ++ rest).toList.drop 1).head? = some character := by
    intro text rest character there
    rw [String.toList_append]
    generalize text.toList = signs at there ⊢
    cases signs with
    | nil => cases there
    | cons sign signs =>
        cases signs with
        | nil => cases there
        | cons head signs => exact there
  rw [inFront leftIs, inFront rightIs] at characters
  exact apart (Option.some.inj characters)

/-- Files of distinct names and packages of distinct texts have distinct ids. -/
theorem SoftwareElements.nodup_iff {files pypi : List (String × String)}
    (listed : SoftwareElements urn files pypi doc)
    (distinct : (files.map Prod.fst).Nodup) :
    ((itemsOf "element" doc).map idOf).Nodup ↔ (pypi.map packageText).Nodup := by
  obtain ⟨root, fileElements, pypiElements, fileRan, pypiRan, permuted, rootId⟩ :=
    listed.elements
  have filesAre : fileElements.map idOf = (files.map Prod.fst).map
      fun name => partId urn ("#file:" ++ name) := by
    rw [mapM_map idOf_fileElement fileRan, List.map_map]
    exact List.map_congr_left fun file _ => fileId_eq file
  have packagesAre : pypiElements.map idOf = (pypi.map packageText).map
      fun text => partId urn ("#pypi:" ++ text) := by
    rw [mapM_map idOf_pypiElement pypiRan, List.map_map]
    exact List.map_congr_left fun package _ => pypiId_eq package
  have injective : ∀ start : String,
      Function.Injective fun text => partId urn (start ++ text) :=
    fun start _ _ same => append_cancel start (partId_injective same)
  have noFile : ∀ id ∈ fileElements.map idOf, id ≠ partId urn "#root" := by
    intro id member
    rw [filesAre] at member
    obtain ⟨name, -, rfl⟩ := List.mem_map.mp member
    exact @part_ne urn "#file:" "#root" name "" 'f' 'r' rfl rfl (by decide)
  have noPackage : ∀ id ∈ pypiElements.map idOf, id ≠ partId urn "#root" ∧
      ∀ other ∈ fileElements.map idOf, other ≠ id := by
    intro id member
    rw [packagesAre] at member
    obtain ⟨text, -, rfl⟩ := List.mem_map.mp member
    constructor
    · exact @part_ne urn "#pypi:" "#root" text "" 'p' 'r' rfl rfl (by decide)
    · intro other there
      rw [filesAre] at there
      obtain ⟨name, -, rfl⟩ := List.mem_map.mp there
      exact part_ne (show _ = some 'f' from rfl) (show _ = some 'p' from rfl)
        (by decide)
  rw [(permuted.map idOf).nodup_iff, List.map_cons, List.map_append, rootId,
    List.nodup_cons, List.nodup_append, filesAre, packagesAre,
    List.nodup_map_iff (injective "#file:"),
    List.nodup_map_iff (injective "#pypi:"), ← filesAre, ← packagesAre]
  constructor
  · rintro ⟨-, -, packages, -⟩
    exact packages
  · intro packages
    refine ⟨?_, distinct, packages, ?_⟩
    · intro member
      rcases List.mem_append.mp member with here | there
      · exact noFile _ here rfl
      · exact (noPackage _ there).1 rfl
    · intro other there id member
      exact (noPackage id member).2 other there

/-- Datasets have distinct ids if their URIs, or names, are distinct. -/
theorem DatasetElements.nodup_iff {datasets : List Lot}
    (listed : DatasetElements urn datasets doc) :
    (((itemsOf "element" doc).map idOf).Nodup ↔
        (datasets.map (lotId urn)).Nodup) ∧
      ((itemsOf "rootElement" doc).Nodup ↔
        (datasets.map (lotId urn)).Nodup) := by
  obtain ⟨elements, ran, permuted⟩ := listed.elements
  have ids := mapM_map idOf_datasetElement ran
  constructor
  · rw [(permuted.map idOf).nodup_iff, ids]
    have inner : (datasets.map fun lot => some (Json.str (lotId urn lot))) =
        (datasets.map (lotId urn)).map fun id => some (Json.str id) := by
      rw [List.map_map]
      rfl
    rw [inner, List.nodup_map_iff]
    exact fun _ _ same => Json.str.inj (Option.some.inj same)
  · rw [listed.roots.nodup_iff]
    have inner : (datasets.map fun lot => Json.str (lotId urn lot)) =
        (datasets.map (lotId urn)).map Json.str := by
      rw [List.map_map]
      rfl
    rw [inner, List.nodup_map_iff]
    exact fun _ _ same => Json.str.inj same

end Ids

section Laws

/-- `cyclonedx_16(subject_id=subject_id, components=components, created=created)`. -/
def cyclonedx_document (serial : String → String) (subject_id : String)
    (components : List Json) (created : String) : Except Raised Json := do
  let subject ← ni subject_id
  .ok (cyclonedx_16 serial subject components created)

/-- What the documents list. -/
structure Inputs where
  files : List (String × String)
  pypi : List (String × String)
  datasets : List Lot
  components : List Json

/-- The same lists in other orders. -/
structure Inputs.Permuted (left right : Inputs) : Prop where
  files : left.files.Perm right.files
  pypi : left.pypi.Perm right.pypi
  datasets : left.datasets.Perm right.datasets
  components : left.components.Perm right.components

/-- The documents of the inputs do not depend on their order, those of tied
components excepted; each input is one element, and the ids are distinct exactly if
the texts are that they are made of. -/
structure DocumentLaws (serial : String → String)
    (kind subject_id created : String) (conforms_to : Option String)
    (inputs : Inputs) : Prop where
  software : ∀ other, inputs.Permuted other →
    software_spdx kind subject_id inputs.files inputs.pypi created =
      software_spdx kind subject_id other.files other.pypi created
  dataset : ∀ other, inputs.Permuted other →
    dataset_spdx subject_id inputs.datasets created =
      dataset_spdx subject_id other.datasets created
  catalog : ∀ other, inputs.Permuted other →
    dcat_catalog subject_id inputs.datasets created conforms_to =
      dcat_catalog subject_id other.datasets created conforms_to
  cyclonedx : ∀ subject, ni subject_id = .ok subject →
    ((∀ other, inputs.Permuted other →
      cyclonedx_document serial subject_id inputs.components created =
        cyclonedx_document serial subject_id other.components created) ↔
      Untied inputs.components)
  softwareIds : ∀ doc,
    software_spdx kind subject_id inputs.files inputs.pypi created = .ok doc →
    ∃ subject, ni subject_id = .ok subject ∧
      SoftwareElements (projection_urn kind subject) inputs.files inputs.pypi
        doc ∧
      (((itemsOf "element" doc).map idOf).Nodup ↔
        (inputs.pypi.map packageText).Nodup)
  datasetIds : ∀ doc,
    dataset_spdx subject_id inputs.datasets created = .ok doc →
    ∃ subject, ni subject_id = .ok subject ∧
      DatasetElements (projection_urn "dataset" subject) inputs.datasets doc ∧
      (((itemsOf "element" doc).map idOf).Nodup ↔ (inputs.datasets.map
        (lotId (projection_urn "dataset" subject))).Nodup) ∧
      ((itemsOf "rootElement" doc).Nodup ↔ (inputs.datasets.map
        (lotId (projection_urn "dataset" subject))).Nodup)

theorem cyclonedx_stable_iff (serial : String → String)
    {subject_id subject created : String} (inputs : Inputs)
    (named : ni subject_id = .ok subject) :
    (∀ other, inputs.Permuted other →
      cyclonedx_document serial subject_id inputs.components created =
        cyclonedx_document serial subject_id other.components created) ↔
      Untied inputs.components := by
  rw [← sortedComponents_stable_iff]
  have made : ∀ components,
      cyclonedx_document serial subject_id components created =
        .ok (cyclonedx_16 serial subject components created) := by
    intro components
    unfold cyclonedx_document
    rw [named]
    rfl
  simp only [made]
  constructor
  · intro stable components same
    have equal := stable { inputs with components := components }
      ⟨List.Perm.refl _, List.Perm.refl _, List.Perm.refl _, same⟩
    exact congrArg (itemsOf "components") (Except.ok.inj equal)
  · intro stable other permuted
    unfold cyclonedx_16
    rw [stable other.components permuted.components]

/-- The laws hold of all files and datasets with distinct names. -/
theorem documentLaws (serial : String → String)
    (kind subject_id created : String) (conforms_to : Option String)
    {inputs : Inputs} (files : (inputs.files.map Prod.fst).Nodup)
    (datasets : (inputs.datasets.map Prod.fst).Nodup) :
    DocumentLaws serial kind subject_id created conforms_to inputs := by
  constructor
  · intro other permuted
    unfold software_spdx
    rw [sortedBy_perm files permuted.files, sortedPairs_perm permuted.pypi]
  · intro other permuted
    unfold dataset_spdx
    rw [sortedBy_perm datasets permuted.datasets]
  · intro other permuted
    unfold dcat_catalog
    rw [sortedBy_perm datasets permuted.datasets]
  · intro subject named
    exact cyclonedx_stable_iff serial inputs named
  · intro doc made
    obtain ⟨subject, named, listed⟩ := software_spdx_elements made
    exact ⟨subject, named, listed, listed.nodup_iff files⟩
  · intro doc made
    obtain ⟨subject, named, listed⟩ := dataset_spdx_elements made
    obtain ⟨elements, roots⟩ := listed.nodup_iff
    exact ⟨subject, named, listed, elements, roots⟩

/-- Two stages that are one lot, and two components that differ in their type. -/
def collidingInputs (digest : Digest) : Inputs where
  files := []
  pypi := []
  datasets := [("egressed_data", to_ni digest, some "http://n/lot"),
    ("ingressed_data", to_ni digest, some "http://n/lot")]
  components := [.obj [("name", .str "a"), ("type", .str "container")],
    .obj [("name", .str "a"), ("type", .str "library")]]

theorem documentLaws_colliding :
    DocumentLaws (fun name => name) "function" (to_ni (sha256_hex []))
      fixedCreated none (collidingInputs (sha256_hex [])) :=
  documentLaws _ _ _ _ _ List.nodup_nil (by
    show ["egressed_data", "ingressed_data"].Nodup
    decide)

theorem datasetElement_returns (urn name uri : String) (digest : Digest) :
    ∃ element, datasetElement urn (name, to_ni digest, some uri) =
      .ok element := by
  unfold datasetElement
  simp only [ni_to_ni, cats_purl_to_ni, hash, from_ni_to_ni, bind, Except.bind]
  exact ⟨_, rfl⟩

theorem dataset_spdx_colliding (digest : Digest) :
    ∃ doc, dataset_spdx (to_ni digest) (collidingInputs digest).datasets
      fixedCreated = .ok doc := by
  have ran : ∀ urn, ∃ elements, (collidingInputs digest).datasets.mapM
      (datasetElement urn) = .ok elements := by
    intro urn
    obtain ⟨first, here⟩ :=
      datasetElement_returns urn "egressed_data" "http://n/lot" digest
    obtain ⟨second, there⟩ :=
      datasetElement_returns urn "ingressed_data" "http://n/lot" digest
    refine ⟨[first, second], ?_⟩
    unfold collidingInputs
    simp only [List.mapM_cons, List.mapM_nil, here, there, bind, Except.bind,
      pure, Except.pure]
  obtain ⟨elements, whole⟩ := ran (projection_urn "dataset" (to_ni digest))
  obtain ⟨others, sorted, -⟩ := mapM_perm
    (sortedBy_perm_self Prod.fst (collidingInputs digest).datasets).symm whole
  unfold dataset_spdx
  simp only [ni_to_ni, sorted, bind, Except.bind]
  exact ⟨_, rfl⟩

/-- Components found in the other order give another document, and two stages with
one URI are two elements with one id. -/
theorem documents_collide : ∃ digest other,
    (collidingInputs digest).components.Perm other ∧
      cyclonedx_document (fun name => name) (to_ni digest)
          (collidingInputs digest).components fixedCreated ≠
        cyclonedx_document (fun name => name) (to_ni digest) other
          fixedCreated ∧
    ((collidingInputs digest).datasets.map Prod.fst).Nodup ∧
    ∃ doc, dataset_spdx (to_ni digest) (collidingInputs digest).datasets
        fixedCreated = .ok doc ∧
      ¬ ((itemsOf "element" doc).map idOf).Nodup := by
  have tied : ¬ Untied (collidingInputs (sha256_hex [])).components := by
    intro untied
    have same := untied (.obj [("name", .str "a"), ("type", .str "container")])
      List.mem_cons_self (.obj [("name", .str "a"), ("type", .str "library")])
      (List.mem_cons_of_mem _ List.mem_cons_self) rfl
    exact absurd same (by decide)
  rw [← sortedComponents_stable_iff] at tied
  obtain ⟨other, tied⟩ := Classical.not_forall.mp tied
  obtain ⟨same, differ⟩ := Classical.not_imp.mp tied
  obtain ⟨doc, made⟩ := dataset_spdx_colliding (sha256_hex [])
  refine ⟨sha256_hex [], other, same, ?_, by
    show ["egressed_data", "ingressed_data"].Nodup
    decide, doc, made, ?_⟩
  · intro equal
    unfold cyclonedx_document at equal
    rw [ni_to_ni] at equal
    exact differ (congrArg (itemsOf "components") (Except.ok.inj equal))
  · obtain ⟨subject, -, listed⟩ := dataset_spdx_elements made
    rw [listed.nodup_iff.1]
    intro distinct
    have repeated : (collidingInputs (sha256_hex [])).datasets.map
        (lotId (projection_urn "dataset" subject)) =
          ["http://n/lot", "http://n/lot"] := by
      have stripped : Text.strip "http://n/lot" ≠ "" := by decide +kernel
      simp [collidingInputs, lotId, stripped]
    rw [repeated] at distinct
    simp at distinct

end Laws

end Sbom

end Cats
