import Cats.Mesh.Served

/-!
# An Order on offer

An offer is a network that serves one Order with all it cites: the three
documents, the Structure and the Function, a root tree, a `plant/` tree and
otherwise empty trees.
-/

namespace Cats

open Effect

namespace ContentMesh

def bomUri : String := "http://n/b"
def invoiceUri : String := "http://n/v"
def orderUri : String := "http://n/o"
def structureUri : String := "http://n/s"
def functionUri : String := "http://n/f"
def rootUri : String := "http://n/ldp/boms/r"
def plantUri : String := "http://n/ldp/boms/p"
def emptyUri : String := "http://n/ldp/boms/e"
def textUri : String := "http://n/t"

/-- What the Order calls its Structure home, and the names of the files of its
root and plant. -/
structure Offer where
  structure_filepath : String
  root : List String
  plant : List String

namespace Offer

variable (offer : Offer)

def bom : Fields := [("invoice_uri", .str invoiceUri)]

def invoice : Fields := [("order_uri", .str orderUri)]

def order : Fields :=
  [("structure_uri", .str structureUri),
    ("structure_filepath", .str offer.structure_filepath),
    ("function_uri", .str functionUri)]

def pairing : Fields :=
  [("root_uri", .str rootUri), ("plant_uri", .str plantUri),
    ("infrastructure_uri", .str emptyUri)]

def function : Fields :=
  [("process_source_uri", .str emptyUri),
    ("infrafunction_source_uri", .str emptyUri)]

def file (name : String) : AddressStore.ServedFile := ⟨name, textUri, []⟩

def listing (names : List String) : Json :=
  manifestDocument ((names.map file).map AddressStore.ServedFile.entry)

def table : List (String × Bytes) :=
  [(bomUri, mintedBytes (.obj bom)), (invoiceUri, mintedBytes (.obj invoice)),
    (orderUri, mintedBytes (.obj offer.order)),
    (structureUri, mintedBytes (.obj pairing)),
    (functionUri, mintedBytes (.obj function)),
    (rootUri, mintedBytes (listing offer.root)),
    (plantUri, mintedBytes (listing offer.plant)),
    (emptyUri, mintedBytes (listing [])), (textUri, [])]

def net : Network := { answer := fun _ uri => offer.table.lookup uri }

theorem plain_uris : ∀ uri ∈ [bomUri, invoiceUri, orderUri, structureUri,
    functionUri, rootUri, plantUri, emptyUri, textUri],
    is_http_uri uri = true ∧ ((Url.path uri).toOption.all fun path =>
      (AddressStore.casPathDigest? path).isNone) = true ∧
      (Url.path uri).isOk = true := by
  decide +kernel

theorem serves {uri : String} {data : Bytes}
    (plain : uri ∈ [bomUri, invoiceUri, orderUri, structureUri, functionUri,
      rootUri, plantUri, emptyUri, textUri])
    (found : offer.table.lookup uri = some data) :
    Serves offer.net uri data := by
  obtain ⟨http, notCas, parsed⟩ := plain_uris uri plain
  refine ⟨http, ?_, fun _ => found⟩
  cases path : Url.path uri with
  | error raised => rw [path] at parsed; cases parsed
  | ok path' =>
      rw [path] at notCas
      exact ⟨path', rfl, Option.isNone_iff_eq_none.mp notCas⟩

end Offer

section Runs

variable {net : Network} {plan : Plan} {known : Path → Prop}
  {held : Path → Bytes → Prop}

open AddressStore

/-- A served document is fetched to a file and read back from there. -/
theorem runs_fetchDocument {uri home filename : String} {doc : Json}
    (serves : Serves net uri (mintedBytes doc)) (valid : doc.wellFormed = true)
    (notTree : manifestEntries? doc = none) (reaches : Reaches plan home)
    (accepts : Accepts plan held home filename (mintedBytes doc)) :
    Runs plan (some bareHome) known held
      (fetchDocument net uri home filename)
      (fun value machine => value = doc ∧
        Kept plan (some bareHome) known (fun path bytes => held path bytes ∨
          path = Layout.documentPath home filename ∧
            bytes = mintedBytes doc) machine) := by
  have place : Posix.resolve (home ++ "/" ++ filename) =
      Layout.documentPath home filename := by
    rw [Posix.resolve_eq_foldl, Posix.parts_append_slash, accepts.plain.parts,
      List.foldl_append, ← Posix.resolve_eq_foldl]
    exact accepts.plain.enter _
  have noNul : Disk.hasNul (home ++ "/" ++ filename).toList = false := by
    apply Disk.hasNul_eq_false
    rw [Posix.parts_append_slash, accepts.plain.parts]
    intro part member
    rcases List.mem_append.mp member with above | last
    · exact reaches.noNul part above
    · rw [List.mem_singleton.mp last]
      exact accepts.noNul
  have blob : readManifest? (mintedBytes doc) = none := by
    rw [readManifest?_mintedBytes valid, notTree]
  unfold fetchDocument ContentMesh.get readDocument
  simp only [bind_assoc, pure_bind]
  apply Completes.bind (runs_get_blob serves blob reaches accepts)
  intro _
  apply Completes.bind_known
    (Disk.runs_readFile noNul (.inr ⟨place, rfl⟩))
  apply (runs_lift (readJson_mintedBytes valid)).conseq fun _ kept => kept
  intro _ machine found
  exact ⟨found.1, found.2.mono (fun _ member => .inl member)
    fun _ _ member => member⟩

theorem runs_slotLocator {fields : Fields} {stem uri : String}
    (missing : String) (found : ref_uri fields stem = some uri) :
    Runs plan (some bareHome) known held
      (slotLocator (.obj fields) stem missing)
      (fun value machine => value = uri ∧
        Kept plan (some bareHome) known held machine) := by
  unfold slotLocator
  have mapping : (Json.obj fields).mapping = .ok fields := rfl
  apply Completes.bind_known (runs_lift mapping)
  rw [found]
  exact Completes.pure fun _ kept => ⟨rfl, kept⟩

/-- An id that is read without a locator leaves the index as it is. -/
theorem runs_slotId {fields : Fields} {stem id : String}
    (found : ref_id (some .empty) fields stem =
      .ok (some id, some .empty)) :
    Runs plan (some bareHome) known held (slotId (.obj fields) stem)
      (fun value machine => value = some id ∧
        Kept plan (some bareHome) known held machine) := by
  unfold slotId
  have mapping : (Json.obj fields).mapping = .ok fields := rfl
  apply Completes.bind_known (runs_lift mapping)
  intro machine kept
  have step : Act.withIndex (fun index => ref_id index fields stem) machine =
      .ok (some id) machine := by
    unfold Act.withIndex
    rw [bind_run_ok (get_run machine)]
    have index : machine.home.map Home.index = some .empty := by
      rw [kept.home]
      rfl
    rw [index]
    simp only [found]
    simp only [Act.lift, pure_bind]
    obtain ⟨home, disk, writes, gets⟩ := machine
    obtain rfl : home = some bareHome := kept.home
    rfl
  exact ⟨some id, machine, step, rfl, kept⟩

theorem runs_catDocument {uri : String} {doc : Json}
    (serves : Serves net uri (mintedBytes doc))
    (valid : doc.wellFormed = true) :
    Runs plan (some bareHome) known held (catDocument net uri)
      (fun value machine => value = doc ∧
        Kept plan (some bareHome) known held machine) := by
  unfold catDocument
  apply Completes.bind_known (runs_cat_bytes serves)
  exact runs_lift (readJson_mintedBytes valid)

theorem runs_required {id : String} (missing : String) (nonempty : id ≠ "") :
    Runs plan (some bareHome) known held (required missing (some id))
      (fun value machine => value = id ∧
        Kept plan (some bareHome) known held machine) := by
  have present : (some id).filter (· ≠ "") = some id := by
    simp [Option.filter, nonempty]
  unfold required
  rw [present]
  exact Completes.pure fun _ kept => ⟨rfl, kept⟩

/-- There is room for the documents of a call. -/
structure Roomy (plan : Plan) (layout : Layout) : Prop where
  input : Reaches plan layout.INPUT_HOME
  output : Reaches plan layout.OUTPUT_HOME
  documents : ∀ path ∈ layout.documents, plan.file path

namespace Offer

variable (offer : Offer)

theorem wellFormed_order : (Json.obj offer.order).wellFormed = true := by
  simp [order, Json.wellFormed, Json.wellFormedFields]

theorem order_structure : ref_uri offer.order "structure" =
    some structureUri := by
  have name : uri_field_name "structure" = "structure_uri" := by
    decide +kernel
  have found : Fields.get? offer.order "structure_uri" =
      some (.str structureUri) := rfl
  unfold ref_uri
  rw [name, found]
  decide +kernel

theorem order_function : ref_uri offer.order "function" =
    some functionUri := by
  have name : uri_field_name "function" = "function_uri" := by
    decide +kernel
  have found : Fields.get? offer.order "function_uri" =
      some (.str functionUri) := rfl
  unfold ref_uri
  rw [name, found]
  decide +kernel

theorem served_bom : Serves offer.net bomUri (mintedBytes (.obj bom)) :=
  offer.serves (by decide) rfl

theorem served_invoice :
    Serves offer.net invoiceUri (mintedBytes (.obj invoice)) :=
  offer.serves (by decide) rfl

theorem served_order :
    Serves offer.net orderUri (mintedBytes (.obj offer.order)) :=
  offer.serves (by decide) rfl

theorem served_pairing :
    Serves offer.net structureUri (mintedBytes (.obj pairing)) :=
  offer.serves (by decide) rfl

theorem served_function :
    Serves offer.net functionUri (mintedBytes (.obj function)) :=
  offer.serves (by decide) rfl

theorem served_root :
    Serves offer.net rootUri (mintedBytes (listing offer.root)) :=
  offer.serves (by decide) rfl

theorem served_plant :
    Serves offer.net plantUri (mintedBytes (listing offer.plant)) :=
  offer.serves (by decide) rfl

theorem served_empty :
    Serves offer.net emptyUri (mintedBytes (listing [])) :=
  offer.serves (by decide) rfl

theorem served_text : Serves offer.net textUri [] :=
  offer.serves (by decide) rfl

/-- The three documents of the offer are fetched. -/
theorem runs_fetchDocuments {layout : Layout} (roomy : Roomy plan layout) :
    Runs plan (some bareHome) known (fun _ _ => False)
      (fetchDocuments offer.net bomUri layout.INPUT_HOME layout.OUTPUT_HOME)
      (fun documents machine => documents.order = .obj offer.order ∧
        Kept plan (some bareHome) known (fun _ _ => False) machine) := by
  have planned : ∀ {home filename : String},
      Layout.documentPath home filename ∈ layout.documents →
        plan.file (Posix.resolve home ++ [filename.toList]) :=
    fun member => roomy.documents _ member
  have apart : ∀ {first second : String} {one other : Path},
      first.toList ≠ second.toList →
        one ++ [first.toList] ≠ other ++ [second.toList] := by
    intro first second one other different same
    have last := congrArg List.getLast? same
    simp only [List.getLast?_concat, Option.some.injEq] at last
    exact different last
  have invoiced : ref_uri bom "invoice" = some invoiceUri := by
    decide +kernel
  have ordered : ref_uri invoice "order" = some orderUri := by
    decide +kernel
  unfold fetchDocuments
  apply Completes.bind_known (runs_fetchDocument offer.served_bom rfl rfl
    roomy.output ⟨plainName_bom, by decide, planned (by simp [Layout.documents]),
      fun _ impossible => impossible.elim⟩)
  apply Completes.bind_known (runs_lift rfl)
  apply Completes.bind_known (runs_slotLocator _ invoiced)
  apply Completes.bind_known (runs_fetchDocument offer.served_invoice rfl rfl
    roomy.output ⟨plainName_invoice, by decide,
      planned (by simp [Layout.documents]), ?_⟩)
  · apply Completes.bind_known (runs_lift rfl)
    apply Completes.bind_known (runs_slotLocator _ ordered)
    apply Completes.bind_known (runs_fetchDocument offer.served_order
      offer.wellFormed_order rfl roomy.input ⟨plainName_order, by decide,
        planned (by simp [Layout.documents]), ?_⟩)
    · apply Completes.bind_known (runs_lift rfl)
      apply Completes.pure
      intro machine kept
      exact ⟨rfl, kept.mono (fun _ member => member)
        fun _ _ impossible => impossible.elim⟩
    · rintro old ((impossible | ⟨same, _⟩) | ⟨same, _⟩)
      · exact impossible.elim
      · exact absurd same (apart (by decide))
      · exact absurd same (apart (by decide))
  · rintro old (impossible | ⟨same, _⟩)
    · exact impossible.elim
    · exact absurd same (apart (by decide))

/-- What the Order of the offer says of its Structure is read. -/
theorem runs_readPairing :
    Runs plan (some bareHome) known held
      (readPairing offer.net (.obj offer.order))
      (fun paired machine => paired =
          ⟨.str offer.structure_filepath, rootUri, plantUri, emptyUri⟩ ∧
        Kept plan (some bareHome) known held machine) := by
  have named : (Json.obj offer.order).item "structure_filepath" =
      .ok (.str offer.structure_filepath) := rfl
  have root : ref_id (some .empty) pairing "root" =
      .ok (some "r", some .empty) := by
    decide +kernel
  have plant : ref_id (some .empty) pairing "plant" =
      .ok (some "p", some .empty) := by
    decide +kernel
  have infrastructure : ref_id (some .empty) pairing "infrastructure" =
      .ok (some "e", some .empty) := by
    decide +kernel
  unfold readPairing
  apply Completes.bind_known (runs_slotLocator _ offer.order_structure)
  apply Completes.bind_known (runs_catDocument offer.served_pairing rfl)
  apply Completes.bind_known (runs_lift named)
  apply Completes.bind_known (runs_slotId root)
  apply Completes.bind_known (runs_slotId plant)
  apply Completes.bind_known (runs_slotId infrastructure)
  apply Completes.bind_known (runs_required _ (by decide))
  apply Completes.bind_known (runs_required _ (by decide))
  apply Completes.bind_known (runs_required _ (by decide))
  exact Completes.pure fun _ kept => ⟨rfl, kept⟩

end Offer

end Runs

end ContentMesh

end Cats
