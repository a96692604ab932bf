import Cats.Ldp.Runs
import Cats.Mesh.LinkFrame
import Cats.Registry.Projection

/-!
# The Order that a link mints

What a link operation takes from the Order before it, and what it sets.
-/

namespace Cats

open Effect

namespace Link

theorem setRefs_cons {base_url stem content_id eid : String}
    {refs : List (String × String)} {obj next : Fields}
    (set : set_ref obj stem content_id base_url = .ok (eid, next)) :
    setRefs base_url ((stem, content_id) :: refs) obj =
      setRefs base_url refs next := by
  change (set_ref obj stem content_id base_url >>= fun pair =>
    setRefs base_url refs pair.2) = _
  rw [set]
  rfl

end Link

namespace Ebom

open Sbom Link

variable {mesh : Projector}

/-- The Node holds a document under its id. -/
def Cited (machine : Machine) (id : String) : Prop :=
  ∃ digest blob, id = to_ni digest ∧ machine.blob? digest = some blob

theorem Cited.later {before after : Machine} {id : String}
    (cited : Cited before id) (keeps : Keeps before after) : Cited after id := by
  obtain ⟨digest, blob, named, held⟩ := cited
  exact ⟨digest, blob, named, keeps digest blob held⟩

theorem put_projection_ok {doc : Json} {media_type id : String}
    {machine after : Machine}
    (ran : put_projection mesh doc media_type machine = .ok id after) :
    Cited after id := by
  obtain ⟨named, held⟩ := put_bytes_ok ran
  exact ⟨_, _, named, held⟩

theorem project_function_source_ok {function : Fields} {function_id id : String}
    {machine after : Machine}
    (ran : project_function_source mesh function function_id machine =
      .ok id after) : Cited after id := by
  unfold project_function_source at ran
  simp only [bind_ok_iff] at ran
  obtain ⟨_, _, _, _, _, _, _, _, _, _, _, _, put⟩ := ran
  exact put_projection_ok put

theorem project_structure_source_ok {pairing : Fields}
    {structure_id id : String} {machine after : Machine}
    (ran : project_structure_source mesh pairing structure_id machine =
      .ok id after) : Cited after id := by
  unfold project_structure_source at ran
  simp only [bind_ok_iff] at ran
  obtain ⟨_, _, _, _, _, _, _, _, _, put⟩ := ran
  exact put_projection_ok put

theorem put_input_data_sbom_nest_ok {data_dcat data_spdx id : String}
    {machine after : Machine}
    (ran : put_input_data_sbom_nest mesh data_dcat data_spdx machine =
      .ok id after) : Cited after id := by
  unfold put_input_data_sbom_nest at ran
  split_ifs at ran with dcat spdx
  · cases ran
  · cases ran
  · simp only [bind_ok_iff, Prod.exists] at ran
    obtain ⟨_, _, _, _, _, nest, _, _, put⟩ := ran
    obtain ⟨named, held⟩ := put_json_ok put
    exact ⟨_, _, named, held⟩

theorem slotStems_ebom : SlotStems ebomStems := ⟨by decide, by decide⟩

/-- The documents are attached, or nothing is. -/
theorem attach_ebom_stems_ok (base : BaseUrl)
    (located : mesh.base_url = base.text) {cats_sbom : Option String}
    {order attached : Fields} {sources : Sources} {machine after : Machine}
    (ran : attach_ebom_stems mesh cats_sbom order sources machine =
      .ok attached after) :
    AgreeOutside (refKeys ebomStems) order attached ∧
      (cats_sbom_enabled cats_sbom = true → ∀ stem ∈ ebomStems,
        ∃ digest, Names attached stem (.named digest) ∧
          (after.blob? digest).isSome) ∧
      (cats_sbom_enabled cats_sbom = false → attached = order) := by
  unfold attach_ebom_stems at ran
  split_ifs at ran with enabled
  · simp only [bind_ok_iff, Prod.exists, lift_ok_iff] at ran
    obtain ⟨function_spdx, first, function, structure_spdx, second, pairing,
      conforms_to, third, promising, data_dcat, data_spdx, fourth, lots,
      nest_id, fifth, nest, _, cited, _, ⟨functionSet, rfl⟩, _, paired, _,
      ⟨pairingSet, rfl⟩, _, final, _, ⟨nestSet, rfl⟩, returned⟩ := ran
    cases returned
    have toThird := (adds_promised mesh _).of_ok promising
    have toFourth := (adds_project_input_data mesh _ _).of_ok lots
    have toFifth := (adds_put_input_data_sbom_nest mesh _ _).of_ok nest
    have toSecond := (adds_project_structure_source mesh _ _).of_ok pairing
    have later := toThird.trans (toFourth.trans toFifth)
    rw [located] at functionSet pairingSet nestSet
    have refs : setRefs base.text [("function_sbom", function_spdx),
        ("structure_sbom", structure_spdx), ("input_data_sbom", nest_id)]
        order = .ok attached := by
      rw [setRefs_cons functionSet, setRefs_cons pairingSet,
        setRefs_cons nestSet]
      rfl
    refine ⟨setRefs_ok refs, ?_, fun off => absurd (enabled.symm.trans off)
      Bool.noConfusion⟩
    intro _ stem member
    obtain ⟨ref, among, held, rfl⟩ : ∃ ref : String × String,
        ref ∈ [("function_sbom", function_spdx),
          ("structure_sbom", structure_spdx), ("input_data_sbom", nest_id)] ∧
        Cited after ref.2 ∧ ref.1 = stem := by
      rcases List.mem_cons.mp member with rfl | member
      · exact ⟨_, List.mem_cons_self, (project_function_source_ok
          function).later (toSecond.trans later), rfl⟩
      rcases List.mem_pair.mp member with rfl | rfl
      · exact ⟨_, List.mem_cons_of_mem _ List.mem_cons_self,
          (project_structure_source_ok pairing).later later, rfl⟩
      · exact ⟨_, List.mem_cons_of_mem _ (List.mem_cons_of_mem _
          List.mem_cons_self), put_input_data_sbom_nest_ok nest, rfl⟩
    obtain ⟨stem, id⟩ := ref
    obtain ⟨digest, blob, rfl, blobs⟩ := held
    refine ⟨digest, ?_, Option.isSome_of_mem blobs⟩
    exact setRefs_names base refs slotStems_ebom among
      (ContentId.spells_text (.named digest))
  · cases ran
    exact ⟨.refl _ _, fun on => absurd on enabled, fun _ => rfl⟩

end Ebom

namespace Link

section Orders

/-- The fields of an Order that link operations set. -/
def linkedKeys : List String :=
  ["flat", "structure_filepath", "endpoint"] ++
    refKeys (["function", "structure", "invoice"] ++ Ebom.ebomStems)

/-- The name an Order has for its Structure after a link; the null name leaves
it. -/
def nameAfter (order : Fields) : Json → Option Json
  | .null => order.get? "structure_filepath"
  | name => some name

theorem slotStems_order :
    SlotStems ["function", "structure", "invoice"] := ⟨by decide, by decide⟩

theorem strip_ebom_stems_ok (order : Fields) :
    AgreeOutside (refKeys Ebom.ebomStems) order
        (Ebom.strip_ebom_stems order) ∧
      ∀ key ∈ refKeys Ebom.ebomStems,
        (Ebom.strip_ebom_stems order).get? key = none := by
  have erased : Ebom.strip_ebom_stems order =
      (refKeys Ebom.ebomStems).foldl Fields.erase order := by
    have keys : refKeys Ebom.ebomStems = Ebom.ebomStems.flatMap fun stem =>
        [stem ++ "_uri", stem ++ "_cid"] := by
      decide
    rw [keys]
    rfl
  rw [erased]
  constructor
  · intro key outside
    rw [BomRegistry.get?_eraseAll, if_neg outside]
  · intro key member
    rw [BomRegistry.get?_eraseAll, if_pos member]

/-- The Order that cites a Function, a Structure and an Invoice. -/
structure Relinked (mesh : Mesh) (order : Fields)
    (refs : List (String × String)) (name : Json) (linked : Fields) :
    Prop where
  frame : AgreeOutside linkedKeys order linked
  named : ∀ stem value, (stem, value) ∈ refs →
    ∀ id, ContentId.Spells value id → Names linked stem id
  unflattened : linked.get? "flat" = none
  filepath : linked.get? "structure_filepath" = nameAfter order name
  endpoint : linked.get? "endpoint" = some (.str mesh.endpoint)
  stripped : ∀ key ∈ refKeys Ebom.ebomStems, linked.get? key = none

theorem relinked_ok {mesh : Mesh} (base : BaseUrl)
    (located : mesh.base_url = base.text) {order linked : Fields}
    {function_id structure_id invoice_id : String} {name : Json}
    (ran : relinked mesh order function_id structure_id invoice_id name =
      .ok linked) :
    Relinked mesh order [("function", function_id), ("structure", structure_id),
      ("invoice", invoice_id)] name linked := by
  obtain ⟨cited, refs, returned⟩ := Raised.bind_returns ran
  rw [located] at refs
  obtain ⟨renamed, renames, filepath, rfl⟩ : ∃ renamed,
      AgreeOutside ["structure_filepath"] cited renamed ∧
        renamed.get? "structure_filepath" = nameAfter cited name ∧
          linked = renamed.set "endpoint" (.str mesh.endpoint) := by
    cases name with
    | null =>
        cases returned
        exact ⟨cited, fun _ _ => rfl, rfl, rfl⟩
    | _ =>
        cases returned
        exact ⟨_, .set cited _ _, Fields.get?_set_self .., rfl⟩
  have bare := strip_ebom_stems_ok (order.erase "flat")
  have cites : AgreeOutside (refKeys ["function", "structure", "invoice"]) _
      cited := setRefs_ok refs
  have sets := AgreeOutside.set renamed "endpoint" (.str mesh.endpoint)
  have finish := renames.trans sets
  have start := (AgreeOutside.erase order "flat").trans bare.1
  constructor
  · apply ((start.trans cites).trans finish).mono
    decide
  · intro stem value member id spells
    have given := @List.mem_map_of_mem _ _ _ _ Prod.fst member
    apply (setRefs_names base refs slotStems_order member spells).agree
      (slotStems_order.given stem given) finish
    change stem ∈ ["function", "structure", "invoice"] at given
    clear member
    revert stem
    decide
  · rw [finish _ (by decide), cites _ (by decide), bare.1 _ (by decide),
      Fields.get?_erase_self]
  · rw [sets _ (by decide), filepath]
    have kept := start.trans cites
    cases name with
    | null => exact kept _ (by decide)
    | _ => rfl
  · exact Fields.get?_set_self ..
  · intro key member
    have outside : ∀ key ∈ refKeys Ebom.ebomStems,
        key ∉ ["structure_filepath"] ++ ["endpoint"] ∧
          key ∉ refKeys ["function", "structure", "invoice"] := by
      decide
    rw [finish _ (outside key member).1, cites _ (outside key member).2]
    exact bare.2 key member

/-- The Order of a request and its Invoice: the Node holds both, and what the
Order cites is what it was made for. -/
structure Linked (mesh : Mesh) (order : Fields)
    (function_id structure_id data_id : String) (name : Json)
    (request : OrderRequest) (after : Machine) (linked invoice : Fields) :
    Prop where
  minted : Minted after request.content_id linked
  invoiced : ∃ digest, Names linked "invoice" (.named digest) ∧
    Minted after (to_ni digest) invoice
  frame : AgreeOutside linkedKeys order linked
  function : ∀ id, ContentId.Spells function_id id → Names linked "function" id
  pairing : ∀ id, ContentId.Spells structure_id id → Names linked "structure" id
  data : ∀ id, ContentId.Spells data_id id → Names invoice "data" id
  unflattened : linked.get? "flat" = none
  filepath : linked.get? "structure_filepath" = nameAfter order name
  endpoint : linked.get? "endpoint" = some (.str mesh.endpoint)
  documented : Sbom.cats_sbom_enabled mesh.cats_sbom = true →
    ∀ stem ∈ Ebom.ebomStems, ∃ digest, Names linked stem (.named digest) ∧
      (after.blob? digest).isSome
  undocumented : Sbom.cats_sbom_enabled mesh.cats_sbom = false →
    ∀ key ∈ refKeys Ebom.ebomStems, linked.get? key = none

theorem publish_ok {mesh : Mesh} {invoice_id order_id : String}
    {invoice order : Fields} {request : OrderRequest} {machine after : Machine}
    (ran : publish mesh invoice_id invoice order_id order machine =
      .ok request after) : request.content_id = order_id := by
  unfold publish at ran
  simp only [bind_ok_iff] at ran
  obtain ⟨_, _, _, _, _, _, _, _, _, _, _, _, _, _, _, _, _, _, returned⟩ := ran
  cases returned
  rfl

theorem order_request_from_prior_ok {mesh : Mesh} (base : BaseUrl)
    (located : mesh.base_url = base.text) {order : Fields}
    {function_id structure_id data_id : String} {name : Json}
    {request : OrderRequest} {machine after : Machine}
    (ran : order_request_from_prior mesh order function_id structure_id data_id
      name machine = .ok request after) :
    ∃ linked invoice, Linked mesh order function_id structure_id data_id name
      request after linked invoice := by
  unfold order_request_from_prior at ran
  simp only [bind_ok_iff, Prod.exists, lift_ok_iff] at ran
  obtain ⟨eid, invoice, _, ⟨dataSet, rfl⟩, invoice_id, first, invoicePut,
    cited, _, ⟨relinks, rfl⟩, function, second, functionRead, pairing, third,
    pairingRead, linked, fourth, attached, order_id, fifth, orderPut,
    published⟩ := ran
  rw [located] at dataSet
  have toSecond := (adds_catFields mesh _).of_ok functionRead
  have toThird := (adds_catFields mesh _).of_ok pairingRead
  have toFourth := (Ebom.adds_attach_ebom_stems mesh.toProjector _ _ _).of_ok
    attached
  have toFifth := (adds_put_json mesh.base_url _).of_ok orderPut
  have toEnd := (adds_publish mesh _ _ _ _).of_ok published
  have toAttached := toSecond.trans (toThird.trans toFourth)
  obtain ⟨rfl, invoiceHeld⟩ := put_json_ok invoicePut
  have cites := relinked_ok base located relinks
  obtain ⟨frame, documents, unchanged⟩ := Ebom.attach_ebom_stems_ok base located attached
  have among : ∀ key ∈ linkedKeys ++ refKeys Ebom.ebomStems,
      key ∈ linkedKeys := by
    intro key member
    rcases List.mem_append.mp member with member | member
    · exact member
    · unfold linkedKeys refKeys
      rw [List.flatMap_append]
      exact List.mem_append_right _ (List.mem_append_right _ member)
  -- Attaching the documents leaves the fields of the other stems alone.
  have others : ∀ stem ∈ ["function", "structure", "invoice"],
      ∀ key ∈ refFields stem, key ∉ refKeys Ebom.ebomStems := by
    decide
  have named : ∀ stem ∈ ["function", "structure", "invoice"],
      ∀ id, Names cited stem id → Names linked stem id := by
    intro stem member id names
    exact names.agree (slotStems_order.given stem member) frame
      (others stem member)
  refine ⟨linked, invoice, ?_⟩
  constructor
  · rw [publish_ok published]
    exact (put_json_ok orderPut).later toEnd
  · have spells := ContentId.spells_text
      (.named (sha256_hex (mintedBytes (.obj invoice))))
    have cited := cites.named _ _ (List.mem_cons_of_mem _
      (List.mem_cons_of_mem _ List.mem_cons_self)) _ spells
    refine ⟨_, named _ (by decide) _ cited, rfl, ?_⟩
    exact (toAttached.trans (toFifth.trans toEnd)) _ _ invoiceHeld
  · exact (cites.frame.trans frame).mono among
  · intro id spells
    exact named _ (by decide) id (cites.named _ _ List.mem_cons_self id spells)
  · intro id spells
    exact named _ (by decide) id (cites.named _ _ (List.mem_cons_of_mem _
      List.mem_cons_self) id spells)
  · intro id spells
    exact set_ref_names base spells dataSet
  · rw [frame _ (by decide), cites.unflattened]
  · rw [frame _ (by decide), cites.filepath]
  · rw [frame _ (by decide), cites.endpoint]
  · intro enabled stem member
    obtain ⟨digest, names, held⟩ := documents enabled stem member
    obtain ⟨blob, found⟩ := Option.isSome_iff_exists.mp held
    exact ⟨digest, names,
      Option.isSome_of_mem ((toFifth.trans toEnd) _ _ found)⟩
  · intro disabled
    rw [unchanged disabled]
    exact cites.stripped

/-- The Function of the next Order: that of the prior one, rebuilt when a
callable is given for one of its slots. -/
structure FunctionLinked (mesh : Mesh) (order : Fields) (slots : Slots)
    (after : Machine) (linked : Fields) : Prop where
  carried : slots.requested = false → CarriesOver order linked "function"
  rebuilt : slots.requested = true →
    ∃ prior digest function process infrafunction,
      flatSlot order "function" = .ok (.obj prior) ∧
        Names linked "function" (.named digest) ∧
        Minted after (to_ni digest) function ∧
        Rebuilt mesh prior slots after function process infrafunction

/-- The Structure of the next Order and its name: those of the prior one,
unless another pairing is asked for. -/
structure StructureLinked (order : Fields) (change : Change) (after : Machine)
    (linked : Fields) : Prop where
  carried : change.requested = false → CarriesOver order linked "structure" ∧
    linked.get? "structure_filepath" = order.get? "structure_filepath"
  repaired : change.requested = true →
    ∃ prior digest pairing name,
      flatSlot order "structure" = .ok (.obj prior) ∧
        Names linked "structure" (.named digest) ∧
        Minted after (to_ni digest) pairing ∧
        Repaired prior change pairing ∧
        structureName order change = .ok name ∧
        linked.get? "structure_filepath" = some name

/-- An Order that is linked to a prior one, with its Invoice. -/
structure LinkedFrom (mesh : Mesh) (invoice order : Fields) (start : Machine)
    (slots : Slots) (change : Change) (request : OrderRequest) (after : Machine)
    (next linked : Fields) : Prop where
  kept : Keeps start after
  minted : Minted after request.content_id linked
  invoiced : ∃ digest, Names linked "invoice" (.named digest) ∧
    Minted after (to_ni digest) next
  data : CarriesOver invoice next "data"
  function : FunctionLinked mesh order slots after linked
  pairing : StructureLinked order change after linked
  frame : AgreeOutside linkedKeys order linked
  unflattened : linked.get? "flat" = none
  endpoint : linked.get? "endpoint" = some (.str mesh.endpoint)
  documented : Sbom.cats_sbom_enabled mesh.cats_sbom = true →
    ∀ stem ∈ Ebom.ebomStems, ∃ digest, Names linked stem (.named digest) ∧
      (after.blob? digest).isSome
  undocumented : Sbom.cats_sbom_enabled mesh.cats_sbom = false →
    ∀ key ∈ refKeys Ebom.ebomStems, linked.get? key = none

/-- An id that was read from a slot spells what the slot names. -/
theorem spells_of_read {fields : Fields} {stem missing content_id : String}
    {found : Option String} {machine middle after : Machine}
    (read : stem_id fields stem machine = .ok found middle)
    (given : ContentMesh.required missing found middle = .ok content_id after)
    {id : ContentId} (names : Names fields stem id) :
    ContentId.Spells content_id id := by
  obtain ⟨rfl, _⟩ := slotId_names names read
  obtain ⟨same, _⟩ := required_ok_iff.mp given
  cases same
  exact ContentId.spells_text id

theorem item_ok {fields : Fields} {key : String} {value : Json}
    (read : (Json.obj fields).item key = .ok value) :
    fields.get? key = some value := by
  unfold Json.item at read
  dsimp only at read
  split at read
  · cases read
    assumption
  · cases read

theorem nameAfter_structureName {order : Fields} {change : Change} {name : Json}
    (named : structureName order change = .ok name) :
    nameAfter order name = some name := by
  cases name with
  | null =>
      unfold structureName at named
      split at named
      · cases named
      · cases named
      · exact item_ok named
  | _ => rfl

theorem nextFunction_ok {mesh : Mesh} (base : BaseUrl)
    (located : mesh.base_url = base.text) {order linked : Fields}
    {slots : Slots} {function_id next : String} {machine middle after : Machine}
    (ran : nextFunction mesh order slots function_id machine = .ok next middle)
    (carried : ∀ id, Names order "function" id →
      ContentId.Spells function_id id)
    (named : ∀ id, ContentId.Spells next id → Names linked "function" id)
    (keeps : Keeps middle after) :
    FunctionLinked mesh order slots after linked := by
  unfold nextFunction at ran
  constructor
  · intro none
    rw [none, if_neg Bool.false_ne_true] at ran
    cases ran
    intro id names
    exact named id (carried id names)
  · intro some
    rw [some, if_pos rfl] at ran
    obtain ⟨prev, start, found, rebuilt⟩ := bind_ok ran
    obtain ⟨slot, _⟩ := lift_ok found
    obtain ⟨prior, function, process, infrafunction, rfl, minted, parts⟩ :=
      rebuild_function_ok base located rebuilt
    obtain ⟨rfl, held⟩ := minted
    exact ⟨prior, _, function, process, infrafunction, slot,
      named _ (ContentId.spells_text (.named _)), ⟨rfl, keeps _ _ held⟩,
      parts.later keeps⟩

theorem nextStructure_ok {mesh : Mesh} (base : BaseUrl)
    (located : mesh.base_url = base.text) {order linked : Fields}
    {change : Change} {structure_id next : String} {name : Json}
    {machine middle after : Machine}
    (ran : nextStructure mesh order change structure_id machine =
      .ok (next, name) middle)
    (carried : ∀ id, Names order "structure" id →
      ContentId.Spells structure_id id)
    (named : ∀ id, ContentId.Spells next id → Names linked "structure" id)
    (filepath : linked.get? "structure_filepath" = nameAfter order name)
    (keeps : Keeps middle after) :
    StructureLinked order change after linked := by
  unfold nextStructure at ran
  constructor
  · intro none
    rw [none, if_neg Bool.false_ne_true] at ran
    cases ran
    constructor
    · intro id names
      exact named id (carried id names)
    · exact filepath
  · intro some
    rw [some, if_pos rfl] at ran
    simp only [bind_ok_iff, lift_ok_iff, pure_run, EStateM.Result.ok.injEq,
      Prod.mk.injEq] at ran
    obtain ⟨prev, _, ⟨slot, rfl⟩, pairing, first, resolved, content_id, second,
      put, _, _, ⟨renamed, rfl⟩, ⟨rfl, rfl⟩, rfl⟩ := ran
    obtain ⟨prior, rfl, repaired⟩ :=
      resolve_structure_pairing_ok base located resolved
    obtain ⟨rfl, held⟩ := put_json_ok put
    rw [nameAfter_structureName renamed] at filepath
    exact ⟨prior, _, pairing, _, slot,
      named _ (ContentId.spells_text (.named _)), ⟨rfl, keeps _ _ held⟩,
      repaired, renamed, filepath⟩

/-- A link that returns has started from a response with an Invoice and an
Order. -/
theorem linkOrder_starts {mesh : Mesh} {flat_bom : Act Json} {slots : Slots}
    {change : Change} {request : OrderRequest} {machine after : Machine}
    (ran : linkOrder mesh flat_bom slots change machine = .ok request after) :
    ∃ invoice order start, Starts flat_bom machine invoice order start := by
  unfold linkOrder at ran
  split_ifs at ran
  · obtain ⟨flat, start, loaded, ran⟩ := bind_ok ran
    obtain ⟨⟨invoice, order⟩, last, parsed, _⟩ := bind_ok ran
    exact ⟨invoice, order, start, flat, loaded, (lift_ok parsed).1⟩
  · cases ran

theorem linkOrder_linked {mesh : Mesh} (base : BaseUrl)
    (located : mesh.base_url = base.text) {flat_bom : Act Json} {slots : Slots}
    {change : Change} {request : OrderRequest} {machine start after : Machine}
    {invoice order : Fields}
    (starts : Starts flat_bom machine invoice order start)
    (ran : linkOrder mesh flat_bom slots change machine = .ok request after) :
    ∃ next linked,
      LinkedFrom mesh invoice order start slots change request after next
        linked := by
  unfold linkOrder at ran
  split_ifs at ran
  · simp only [bind_ok_iff, Prod.exists, lift_ok_iff] at ran
    obtain ⟨flat, first, loaded, _, _, _, ⟨parsed, rfl⟩, found, second,
      functionRead, carried_function, third, functionGiven, function_id, fourth,
      function, found', fifth, structureRead, carried_structure, sixth,
      structureGiven, structure_id, structure_name, seventh, pairing, found'',
      eighth, dataRead, data_id, ninth, dataGiven, requested⟩ := ran
    obtain ⟨_, also, alsoParsed⟩ := starts
    cases loaded.symm.trans also
    cases parsed.symm.trans alsoParsed
    obtain ⟨linked, next, links⟩ :=
      order_request_from_prior_ok base located requested
    have toSecond := (adds_slotId _ _).of_ok functionRead
    have toThird := (adds_required _ _).of_ok functionGiven
    have toFourth := (adds_nextFunction mesh _ _ _).of_ok function
    have toFifth := (adds_slotId _ _).of_ok structureRead
    have toSixth := (adds_required _ _).of_ok structureGiven
    have toSeventh := (adds_nextStructure mesh _ _ _).of_ok pairing
    have toEighth := (adds_slotId _ _).of_ok dataRead
    have toNinth := (adds_required _ _).of_ok dataGiven
    have toEnd := (adds_order_request_from_prior mesh _ _ _ _ _).of_ok requested
    have fromSeventh := toEighth.trans (toNinth.trans toEnd)
    have fromFourth :=
      toFifth.trans (toSixth.trans (toSeventh.trans fromSeventh))
    refine ⟨next, linked, ?_⟩
    constructor
    · exact toSecond.trans (toThird.trans (toFourth.trans fromFourth))
    · exact links.minted
    · exact links.invoiced
    · intro id names
      exact links.data id (spells_of_read dataRead dataGiven names)
    · apply nextFunction_ok base located function
      · exact fun id => spells_of_read functionRead functionGiven
      · exact links.function
      · exact fromFourth
    · apply nextStructure_ok base located pairing
      · exact fun id => spells_of_read structureRead structureGiven
      · exact links.pairing
      · exact links.filepath
      · exact fromSeventh
    · exact links.frame
    · exact links.unflattened
    · exact links.endpoint
    · exact links.documented
    · exact links.undocumented
  · cases ran

end Orders

section Completing

/-- A Node that wrote its index of locators, and holds no blobs but these. -/
def HoldsOnly (digests : List Digest) (machine : Machine) : Prop :=
  ∃ home rows, machine.home = some home ∧ home.index = .ofRows rows ∧
    ∀ digest, digest ∉ digests → home.cas.blobs digest = none

variable {digests : List Digest}

theorem runs_lift {α : Type} {value : α} {result : Except Raised α}
    (returned : result = .ok value) :
    Completes (HoldsOnly digests) (Act.lift result)
      fun found machine => found = value ∧ HoldsOnly digests machine := by
  intro machine holds
  subst returned
  exact ⟨value, machine, rfl, rfl, holds⟩

theorem runs_slotId {fields : Fields} {stem : String} {id : ContentId}
    (names : Names fields stem id) :
    Completes (HoldsOnly digests) (ContentMesh.slotId (.obj fields) stem)
      fun found machine => found = some id.text ∧ HoldsOnly digests machine := by
  intro machine holds
  exact ⟨some id.text, machine, slotId_run names machine, rfl, holds⟩

theorem runs_required (missing : String) (id : ContentId) :
    Completes (HoldsOnly digests) (ContentMesh.required missing (some id.text))
      fun found machine => found = id.text ∧ HoldsOnly digests machine := by
  intro machine holds
  exact ⟨id.text, machine, required_ok_iff.mpr ⟨rfl, id.text_ne_empty, rfl⟩,
    rfl, holds⟩

/-- What a Node reads back it may fail to read, and goes on. -/
theorem runs_catFields (mesh : Mesh) (content_id : String) :
    Completes (HoldsOnly digests) (catFields mesh content_id)
      fun _ machine => HoldsOnly digests machine := by
  intro machine holds
  have reads : AddressStore.Reads
      (ContentMesh.catDocument mesh.net content_id) :=
    AddressStore.reads_bind (AddressStore.reads_cat_bytes _ _ _)
      fun _ => AddressStore.reads_lift _
  have kept := reads machine
  have caught : ∃ obj after,
      (tryCatch (ContentMesh.catDocument mesh.net content_id)
        fun _ => pure (.obj [])) machine = .ok obj after ∧
      after.home = machine.home := by
    cases ran : ContentMesh.catDocument mesh.net content_id machine with
    | ok obj after =>
        rw [ran] at kept
        exact ⟨obj, after, tryCatch_run_ok ran, kept.home⟩
    | error raised after =>
        rw [ran] at kept
        exact ⟨.obj [], after, tryCatch_run_error ran, kept.home⟩
  obtain ⟨obj, after, ran, home⟩ := caught
  have held : HoldsOnly digests after := by
    unfold HoldsOnly at holds ⊢
    rw [home]
    exact holds
  cases obj with
  | obj fields => exact ⟨fields, after, bind_run_ok ran, held⟩
  | _ => exact ⟨[], after, bind_run_ok ran, held⟩

theorem runs_registerLocator (digest : Digest) (uri : String)
    (media_type : Option String) :
    Completes (HoldsOnly digests)
      (registerLocator (to_ni digest) uri media_type)
      fun _ machine => HoldsOnly digests machine := by
  intro machine ⟨home, rows, there, same, only⟩
  have stored := LocatorTable.put_ofRows rows (digestRow digest) rfl
    (canonical_id_to_ni digest) uri media_type
  rw [← same] at stored
  unfold registerLocator
  rw [Act.withHome_run there]
  simp only [stored, bind, Except.bind]
  exact ⟨(), _, rfl, _, _, rfl, rfl, only⟩

theorem runs_putResource (kind : ResourceKind) (digest : Digest) (obj : Json) :
    Completes (HoldsOnly digests) (putResource kind (to_ni digest) obj)
      fun _ machine => HoldsOnly digests machine := by
  intro machine ⟨home, rows, there, same, only⟩
  unfold putResource
  rw [Act.withHome_run there]
  simp only [JsonResourceStore.put, JsonResourceStore.put_bytes,
    content_id_fs_key_to_ni, bind, Except.bind]
  exact ⟨(), _, rfl, _, rows, rfl, same, only⟩

theorem runs_put_cas_node_locator (base_url : String) (digest : Digest)
    (media_type : Option String) :
    Completes (HoldsOnly digests)
      (Act.withHome fun home => do
        let index ← home.index.put_cas_node_locator (to_ni digest) base_url
          media_type
        .ok ((), { home with index := index }))
      fun _ machine => HoldsOnly digests machine := by
  intro machine ⟨home, rows, there, same, only⟩
  have stored := LocatorTable.put_ofRows rows (digestRow digest) rfl
    (canonical_id_to_ni digest) (cas_ldp_uri digest base_url) media_type
  rw [← same] at stored
  rw [Act.withHome_run there]
  simp only [LocatorIndex.put_cas_node_locator, is_ni_or_digest_to_ni, if_true,
    from_ni_to_ni, stored, bind, Except.bind]
  exact ⟨(), _, rfl, _, _, rfl, rfl, only⟩

/-- A document that is not held under its digest is minted. -/
theorem runs_put_json (base_url : String) {obj : Json} {digest : Digest}
    (named : sha256_hex (mintedBytes obj) = digest)
    (fresh : digest ∉ digests) :
    Completes (HoldsOnly digests) (ContentMesh.put_json base_url obj)
      fun id machine => id = to_ni digest ∧
        HoldsOnly (digest :: digests) machine := by
  unfold ContentMesh.put_json ContentMesh.put_bytes
  apply @Completes.bind_known _ _ _ _ _ _ _ (to_ni digest)
    (HoldsOnly (digest :: digests))
  · intro machine ⟨home, rows, there, same, only⟩
    have put : home.cas.put (mintedBytes obj) = .ok (to_ni digest,
        { blobs := Function.update home.cas.blobs digest
            (some (mintedBytes obj)) }) := by
      unfold CasHttpStore.put
      simp only [named, only digest fresh]
    rw [Act.withHome_run there]
    simp only [put, bind, Except.bind]
    refine ⟨to_ni digest, _, rfl, rfl, _, rows, rfl, same, ?_⟩
    intro other absent
    rw [List.mem_cons, not_or] at absent
    dsimp only
    rw [Function.update_of_ne absent.1, only other absent.2]
  · apply Completes.bind (runs_put_cas_node_locator base_url digest _)
    intro _
    exact Completes.pure fun _ holds => ⟨rfl, holds⟩

theorem runs_publish (mesh : Mesh) (invoice order : Digest)
    (invoiceFields orderFields : Fields) :
    Completes (HoldsOnly digests)
      (publish mesh (to_ni invoice) invoiceFields (to_ni order) orderFields)
      fun _ machine => HoldsOnly digests machine := by
  apply Completes.bind (runs_putResource _ _ _)
  intro _
  apply Completes.bind (runs_putResource _ _ _)
  intro _
  obtain ⟨invoice_uri, located⟩ : ∃ uri, resource_ldp_uri .invoices
      (to_ni invoice) mesh.base_url = .ok uri := by
    unfold resource_ldp_uri
    rw [content_id_fs_key_to_ni]
    exact ⟨_, rfl⟩
  obtain ⟨order_uri, addressed⟩ : ∃ uri, resource_ldp_uri .orders
      (to_ni order) mesh.base_url = .ok uri := by
    unfold resource_ldp_uri
    rw [content_id_fs_key_to_ni]
    exact ⟨_, rfl⟩
  apply Completes.bind_known (runs_lift located)
  apply Completes.bind_known (runs_lift addressed)
  apply Completes.bind (runs_registerLocator _ _ _)
  intro _
  apply Completes.bind (runs_registerLocator _ _ _)
  intro _
  exact Completes.pure fun _ holds => holds

theorem runs_priorIds {fields : Fields} {ids : String → ContentId}
    {stems : List String}
    (names : ∀ stem ∈ stems, Names fields stem (ids stem)) :
    Completes (HoldsOnly digests) (priorIds (.obj fields) stems)
      fun found machine => found = (stems.map fun stem => (ids stem).text) ∧
        HoldsOnly digests machine := by
  induction stems with
  | nil => exact Completes.pure fun _ holds => ⟨rfl, holds⟩
  | cons stem stems induction =>
      unfold priorIds
      apply Completes.bind_known (runs_slotId (names stem List.mem_cons_self))
      apply Completes.bind_known (runs_required _ _)
      apply Completes.bind_known (induction fun other member =>
        names other (List.mem_cons_of_mem _ member))
      exact Completes.pure fun _ holds => ⟨rfl, holds⟩

theorem runs_stemIds {fields : Fields} {ids : String → ContentId}
    {stems : List String}
    (names : ∀ stem ∈ stems, Names fields stem (ids stem)) :
    Completes (HoldsOnly digests) (stemIds (.obj fields) stems)
      fun found machine =>
        found = (stems.map fun stem => some (ids stem).text) ∧
          HoldsOnly digests machine := by
  induction stems with
  | nil => exact Completes.pure fun _ holds => ⟨rfl, holds⟩
  | cons stem stems induction =>
      unfold stemIds
      apply Completes.bind_known (runs_slotId (names stem List.mem_cons_self))
      apply Completes.bind_known (induction fun other member =>
        names other (List.mem_cons_of_mem _ member))
      exact Completes.pure fun _ holds => ⟨rfl, holds⟩

/-- Refs that are spelled the way they are written stay. -/
theorem runs_respell {mesh : Mesh} {fields : Fields}
    {ids : String → ContentId} {stems : List String}
    (names : ∀ stem ∈ stems, Names fields stem (ids stem))
    (spelled : ∀ stem ∈ stems,
      set_ref fields stem (ids stem).text mesh.base_url =
        .ok ((ids stem).text, fields)) :
    Completes (HoldsOnly digests) (respell mesh stems fields)
      fun found machine => found = fields ∧ HoldsOnly digests machine := by
  induction stems with
  | nil => exact Completes.pure fun _ holds => ⟨rfl, holds⟩
  | cons stem stems induction =>
      unfold respell
      apply Completes.bind_known (runs_slotId (names stem List.mem_cons_self))
      have given : (some (ids stem).text).filter (· ≠ "") =
          some (ids stem).text := by
        simp [Option.filter, (ids stem).text_ne_empty]
      rw [given]
      apply Completes.bind_known
        (runs_lift (spelled stem List.mem_cons_self))
      exact induction
        (fun other member => names other (List.mem_cons_of_mem _ member))
        (fun other member => spelled other (List.mem_cons_of_mem _ member))

/-- The ref of a digest is its address on the Node. -/
theorem set_ref_digest (obj : Fields) (stem base_url : String)
    (digest : Digest) :
    set_ref obj stem (to_ni digest) base_url =
      .ok (to_ni digest, Fields.erase (Fields.set obj (uri_field_name stem)
        (.str (cas_ldp_uri digest base_url))) (cid_field_name stem)) := by
  have nonempty : cas_ldp_uri digest base_url ≠ "" := by
    intro empty
    have letters := congrArg String.toList empty
    simp [cas_ldp_uri, cas_ldp_path] at letters
  unfold set_ref build_content_ref content_uri
  simp only [is_ni_or_digest_to_ni, equality_id_to_ni, if_true, bind,
    Except.bind, strip_to_ni, from_ni_to_ni, Except.map, to_ni_ne_empty,
    if_false, Option.filter, ne_eq, nonempty, not_false_eq_true, decide_true,
    Option.getD_some]

theorem relinked_run {mesh : Mesh} {order start first second third : Fields}
    {function_id structure_id invoice_id filepath one other last : String}
    (stripped : Ebom.strip_ebom_stems (order.erase "flat") = start)
    (function : set_ref start "function" function_id mesh.base_url =
      .ok (one, first))
    (pairing : set_ref first "structure" structure_id mesh.base_url =
      .ok (other, second))
    (invoice : set_ref second "invoice" invoice_id mesh.base_url =
      .ok (last, third)) :
    relinked mesh order function_id structure_id invoice_id (.str filepath) =
      .ok ((third.set "structure_filepath" (.str filepath)).set "endpoint"
        (.str mesh.endpoint)) := by
  subst stripped
  simp only [relinked, setRefs, function, pairing, invoice, bind, Except.bind]

end Completing

section Paired

/-- The mesh of a Node that answers at another address. -/
def shoutedMesh : Mesh := { silentMesh with base_url := shoutedBase.text }

/-- A text that is no digest names itself. -/
theorem names_segment {fields : Fields} {stem value : String}
    (legal : isCidSegment value = true) (bare : is_ni_or_digest value = false)
    (slot : fields.get? (uri_field_name stem) = some (.str value)) :
    Names fields stem (.segment value legal bare) := by
  intro index
  apply ref_id_stored (StoredAs.legacy _) slot
  intro digest same
  cases same

/-- A Structure of three trees. -/
def heldPairing : Fields :=
  [("root_uri", .str "QmR"), ("plant_uri", .str "QmP"),
    ("infrastructure_uri", .str "QmI")]

def heldDigest : Digest :=
  ⟨"eb48a4c4bc088b97746b139e4daa8817c491f1e82115a7abc501813bf7ab7362",
    by decide⟩

/-- A Node that holds the Structure. -/
def pairedNode : Machine :=
  { bareNode with
    home := some
      { bareHome with
        cas :=
          { blobs := fun digest =>
              if digest = heldDigest then
                some (mintedBytes (.obj heldPairing))
              else none } } }

/-- An Order whose Structure is nested in it. -/
def pairedOrder : Fields :=
  [("function_uri", .str "QmF"),
    ("structure_uri", .str (ldpAddress shoutedBase .cas heldDigest.hex)),
    ("structure_filepath", .str "main"),
    ("flat", .obj [("structure", .obj heldPairing)])]

/-- The ids of the trees that are paired. -/
def heldIds : String → ContentId
  | "root" => .segment "QmR" (by decide) (by decide)
  | "plant" => .segment "QmP" (by decide) (by decide)
  | _ => .segment "QmI" (by decide) (by decide)

theorem names_heldPairing :
    ∀ stem ∈ pairingStems, Names heldPairing stem (heldIds stem) := by
  unfold pairingStems
  rw [List.forall_mem_cons, List.forall_mem_cons, List.forall_mem_singleton]
  constructor
  · exact names_segment _ _ (by decide +kernel)
  constructor
  · exact names_segment _ _ (by decide +kernel)
  · exact names_segment _ _ (by decide +kernel)

/-- The Structure with the other plant. -/
def otherPairing : Fields :=
  [("root_uri", .str "QmR"), ("plant_uri", .str "QmOther"),
    ("infrastructure_uri", .str "QmI")]

def otherIds : String → ContentId
  | "root" => .segment "QmR" (by decide) (by decide)
  | "plant" => .segment "QmOther" (by decide) (by decide)
  | _ => .segment "QmI" (by decide) (by decide)

theorem names_otherPairing :
    ∀ stem ∈ pairingStems, Names otherPairing stem (otherIds stem) := by
  unfold pairingStems
  rw [List.forall_mem_cons, List.forall_mem_cons, List.forall_mem_singleton]
  constructor
  · exact names_segment _ _ (by decide +kernel)
  constructor
  · exact names_segment _ _ (by decide +kernel)
  · exact names_segment _ _ (by decide +kernel)

def otherDigest : Digest :=
  ⟨"11247b7ff4d9ab619cbdc7e4bb40ed0a450c95f2c9d9b9b421b8232edc364da7",
    by decide⟩

/-- The digest of the Invoice of the linked Order. -/
def invoiceDigest : Digest :=
  ⟨"6a779dcb8483de10c8138fa5ffe03b2333b4eac21bba8f4357b60392ccdc86a7",
    by decide⟩

/-- The refs that go over to the linked Order, with a Structure. -/
def pairedFields (structure_uri : String) : Fields :=
  [("function_uri", .str "QmF"), ("structure_uri", .str structure_uri),
    ("structure_filepath", .str "main")]

def otherOrder : Fields :=
  pairedFields (cas_ldp_uri otherDigest shoutedBase.text) ++
    [("invoice_uri", .str (cas_ldp_uri invoiceDigest shoutedBase.text)),
      ("endpoint", .str silentMesh.endpoint)]

def orderDigest : Digest :=
  ⟨"2f534ad27e08af36ee626d1f1864f499602c8c46442a9c1465dfef09ae83a16b",
    by decide⟩

theorem relinked_pairedOrder : relinked shoutedMesh pairedOrder "QmF"
    (to_ni otherDigest) (to_ni invoiceDigest) (.str "main") =
      .ok otherOrder := by
  have stripped : Ebom.strip_ebom_stems (pairedOrder.erase "flat") =
      pairedFields (ldpAddress shoutedBase .cas heldDigest.hex) := rfl
  have function : set_ref (pairedFields (ldpAddress shoutedBase .cas
      heldDigest.hex)) "function" "QmF" shoutedMesh.base_url = .ok ("QmF",
        pairedFields (ldpAddress shoutedBase .cas heldDigest.hex)) := rfl
  have pairing := set_ref_digest (pairedFields (ldpAddress shoutedBase .cas
    heldDigest.hex)) "structure" shoutedMesh.base_url otherDigest
  rw [show Fields.erase (Fields.set (pairedFields (ldpAddress shoutedBase .cas
    heldDigest.hex)) (uri_field_name "structure") (.str (cas_ldp_uri otherDigest
      shoutedMesh.base_url))) (cid_field_name "structure") = pairedFields
        (cas_ldp_uri otherDigest shoutedBase.text) from rfl] at pairing
  have invoice := set_ref_digest (pairedFields (cas_ldp_uri otherDigest
    shoutedBase.text)) "invoice" shoutedMesh.base_url invoiceDigest
  rw [show Fields.erase (Fields.set (pairedFields (cas_ldp_uri otherDigest
    shoutedBase.text)) (uri_field_name "invoice") (.str (cas_ldp_uri
      invoiceDigest shoutedMesh.base_url))) (cid_field_name "invoice") =
        pairedFields (cas_ldp_uri otherDigest shoutedBase.text) ++
          [("invoice_uri", .str (cas_ldp_uri invoiceDigest shoutedBase.text))]
      from rfl] at invoice
  rw [relinked_run stripped function pairing invoice]
  rfl

theorem runs_otherPairing : Completes (HoldsOnly [heldDigest])
    (resolve_structure_pairing shoutedMesh (.obj heldPairing)
      { plant_id := some "QmOther" })
    fun found machine => found = otherPairing ∧
      HoldsOnly [heldDigest] machine := by
  unfold resolve_structure_pairing
  have asked : ({ plant_id := some "QmOther" } : Change).requested = true := rfl
  apply Completes.bind_known (runs_priorIds names_heldPairing)
  rw [if_pos asked]
  apply Completes.bind_known (runs_lift (show setRefs shoutedBase.text
    (pairingStems.zip ["QmR", "QmP", "QmI"]) [] = .ok heldPairing by
      decide +kernel))
  apply Completes.bind_known (runs_respell names_heldPairing ?_)
  · apply Completes.bind_known (runs_lift (show setRefs shoutedBase.text
      [("plant", "QmOther")] heldPairing = .ok otherPairing by decide +kernel))
    apply Completes.bind_known (runs_stemIds names_otherPairing)
    rw [if_neg (by decide +kernel)]
    exact Completes.pure fun _ holds => ⟨rfl, holds⟩
  · decide +kernel

theorem runs_otherStructure (structure_id : String) :
    Completes (HoldsOnly [heldDigest])
      (nextStructure shoutedMesh pairedOrder { plant_id := some "QmOther" }
        structure_id)
      fun found machine => found = (to_ni otherDigest, .str "main") ∧
        HoldsOnly [otherDigest, heldDigest] machine := by
  have asked : ({ plant_id := some "QmOther" } : Change).requested = true := rfl
  unfold nextStructure
  rw [if_pos asked]
  apply Completes.bind_known (runs_lift (show flatSlot pairedOrder "structure" =
    .ok (.obj heldPairing) by rfl))
  apply Completes.bind_known runs_otherPairing
  apply Completes.bind_known (runs_put_json _ (show sha256_hex (mintedBytes
    (.obj otherPairing)) = otherDigest by decide +kernel) (by decide +kernel))
  apply Completes.bind_known (runs_lift (show structureName pairedOrder
    { plant_id := some "QmOther" } = .ok (.str "main") by rfl))
  exact Completes.pure fun _ holds => ⟨rfl, holds⟩

theorem runs_otherOrder : Completes (HoldsOnly [otherDigest, heldDigest])
    (order_request_from_prior shoutedMesh pairedOrder "QmF"
      (to_ni otherDigest) "QmD" (.str "main"))
    fun _ machine => HoldsOnly
      [orderDigest, invoiceDigest, otherDigest, heldDigest] machine := by
  unfold order_request_from_prior
  apply Completes.bind_known (runs_lift (show set_ref [] "data" "QmD"
    shoutedBase.text = .ok ("QmD", [("data_uri", .str "QmD")]) by
      decide +kernel))
  apply Completes.bind_known (runs_put_json _ (show sha256_hex (mintedBytes
    (.obj [("data_uri", .str "QmD")])) = invoiceDigest by decide +kernel)
      (by decide +kernel))
  apply Completes.bind_known (runs_lift relinked_pairedOrder)
  apply Completes.bind (runs_catFields _ _)
  intro function
  apply Completes.bind (runs_catFields _ _)
  intro pairing
  apply @Completes.bind_known _ _ _ _ _ _ _ otherOrder
    (HoldsOnly [invoiceDigest, otherDigest, heldDigest])
  · exact Completes.pure fun _ holds => ⟨rfl, holds⟩
  · apply Completes.bind_known (runs_put_json _ (show sha256_hex (mintedBytes
      (.obj otherOrder)) = orderDigest by decide +kernel) (by decide +kernel))
    exact runs_publish _ _ _ _ _

theorem function_pairedOrder : Names pairedOrder "function"
    (.segment "QmF" (by decide) (by decide)) :=
  names_segment _ _ (by decide +kernel)

theorem structure_pairedOrder :
    Names pairedOrder "structure" (.named heldDigest) :=
  fun index => ref_id_stored (.address shoutedBase .cas) (by decide +kernel)
    index

theorem data_pairedOrder : Names
    [("data_uri", .str "QmD"), ("flat", .obj [("order", .obj pairedOrder)])]
    "data" (.segment "QmD" (by decide) (by decide)) :=
  names_segment _ _ (by decide +kernel)

/-- The Order is linked to another plant. -/
theorem pairedOrder_links : ∃ request after,
    linkOrder shoutedMesh (pure (flatTree pairedOrder)) {}
      { plant_id := some "QmOther" } pairedNode = .ok request after := by
  have completes : Completes (HoldsOnly [heldDigest])
      (linkOrder shoutedMesh (pure (flatTree pairedOrder)) {}
        { plant_id := some "QmOther" })
      fun _ machine => HoldsOnly
        [orderDigest, invoiceDigest, otherDigest, heldDigest] machine := by
    have asked : (({} : Slots).requested ||
        ({ plant_id := some "QmOther" } : Change).requested) = true := rfl
    unfold linkOrder
    rw [if_pos asked]
    apply @Completes.bind_known _ _ _ _ _ _ _ (flatTree pairedOrder)
      (HoldsOnly [heldDigest])
    · exact Completes.pure fun _ holds => ⟨rfl, holds⟩
    apply Completes.bind_known (runs_lift (show invoice_order_from_flat_bom
      (flatTree pairedOrder) = .ok ([("data_uri", .str "QmD"),
        ("flat", .obj [("order", .obj pairedOrder)])], pairedOrder) by rfl))
    apply Completes.bind_known (runs_slotId function_pairedOrder)
    apply Completes.bind_known (runs_required _ _)
    apply @Completes.bind_known _ _ _ _ _ _ _ "QmF" (HoldsOnly [heldDigest])
    · exact Completes.pure fun _ holds => ⟨rfl, holds⟩
    apply Completes.bind_known (runs_slotId structure_pairedOrder)
    apply Completes.bind_known (runs_required _ _)
    apply Completes.bind_known (runs_otherStructure _)
    apply Completes.bind_known (runs_slotId data_pairedOrder)
    apply Completes.bind_known (runs_required _ _)
    exact runs_otherOrder
  obtain ⟨request, after, ran, _⟩ := completes pairedNode
    ⟨_, [], rfl, rfl, fun digest absent => if_neg fun same =>
      absent (List.mem_singleton.mpr same)⟩
  exact ⟨request, after, ran⟩

theorem starts_pairedOrder : Starts (pure (flatTree pairedOrder)) pairedNode
    [("data_uri", .str "QmD"), ("flat", .obj [("order", .obj pairedOrder)])]
    pairedOrder pairedNode :=
  ⟨_, rfl, rfl⟩

end Paired

end Link

end Cats
