import Cats.Bom.PeerFetch
import Cats.Mesh.Link

/-!
# Linking one side

`linkOrder` has the steps of `linkProcess` and of `linkStructure`, in an order
of its own and with one check more: the side that is replaced must have an id
in the prior Order.  Restricted to one side it mints what the operation of that
side mints exactly when there is such an id.
-/

namespace Cats

namespace Link

open Effect

section Slots

/-- The slot holds no hashlink, so that reading it registers nothing. -/
def Unhinted (fields : Fields) (stem : String) : Prop :=
  ∀ uri, ref_uri fields stem = some uri → is_hl uri = false

/-- A slot names an id, and reading it registers nothing. -/
def Gives (machine : Machine) (fields : Fields) (stem id : String) : Prop :=
  ref_id (machine.home.map Home.index) fields stem =
    .ok (some id, machine.home.map Home.index) ∧ id ≠ ""

variable {fields : Fields} {stem : String}

theorem ref_id_unhinted (unhinted : Unhinted fields stem)
    {index other : Option LocatorIndex} {found : Option String}
    (read : ref_id index fields stem = .ok (found, other)) : other = index := by
  have kept : ∀ {reading : Except Raised (Option String)},
      reading.map (fun id => (id, index)) = .ok (found, other) →
        other = index := by
    intro reading same
    obtain ⟨_, _, same⟩ := map_eq_ok.mp same
    exact (congrArg Prod.snd same).symm
  unfold ref_id at read
  cases uri : ref_uri fields stem with
  | none =>
      rw [uri] at read
      exact kept read
  | some uri' =>
      rw [uri] at read
      dsimp only at read
      rw [unhinted uri' uri, if_neg Bool.false_ne_true] at read
      split_ifs at read
      · obtain ⟨id, _, read⟩ := Raised.bind_returns read
        cases id with
        | none => exact kept read
        | some id => exact (congrArg Prod.snd (Except.ok.inj read)).symm
      · obtain ⟨_, _, same⟩ := map_eq_ok.mp read
        exact (congrArg Prod.snd same).symm

variable {machine after : Machine}

theorem stem_id_ok_iff (unhinted : Unhinted fields stem)
    {found : Option String} :
    stem_id fields stem machine = .ok found after ↔
      ref_id (machine.home.map Home.index) fields stem =
        .ok (found, machine.home.map Home.index) ∧ after = machine := by
  change Act.withIndex (fun index => ref_id index fields stem) machine = _ ↔ _
  cases read : ref_id (machine.home.map Home.index) fields stem with
  | error raised =>
      rw [BomRead.withIndex_error read]
      simp
  | ok pair =>
      obtain ⟨id, index⟩ := pair
      cases ref_id_unhinted unhinted read
      rw [BomRead.withIndex_run read]
      simp only [EStateM.Result.ok.injEq, Except.ok.injEq, Prod.mk.injEq,
        and_true]
      exact and_congr_right fun _ => eq_comm

theorem required_ok_iff {missing id : String} {found : Option String} :
    ContentMesh.required missing found machine = .ok id after ↔
      found = some id ∧ id ≠ "" ∧ after = machine := by
  unfold ContentMesh.required
  cases found with
  | none =>
      constructor
      · intro ran
        cases ran
      · rintro ⟨same, _⟩
        cases same
  | some value =>
      by_cases blank : value = ""
      · subst blank
        constructor
        · intro ran
          cases ran
        · rintro ⟨same, given, _⟩
          exact absurd (Option.some.inj same).symm given
      · have kept : (some value).filter (· ≠ "") = some value := by
          simp [blank]
        rw [kept]
        simp only [pure_run, EStateM.Result.ok.injEq, Option.some.injEq]
        constructor
        · rintro ⟨rfl, rfl⟩
          exact ⟨rfl, blank, rfl⟩
        · rintro ⟨rfl, _, rfl⟩
          exact ⟨rfl, rfl⟩

/-- A slot that is read and must be there. -/
theorem needed_ok_iff (unhinted : Unhinted fields stem) {missing id : String} :
    (∃ found middle, stem_id fields stem machine = .ok found middle ∧
        ContentMesh.required missing found middle = .ok id after) ↔
      Gives machine fields stem id ∧ after = machine := by
  simp only [stem_id_ok_iff unhinted, required_ok_iff, Gives]
  constructor
  · rintro ⟨_, _, ⟨read, rfl⟩, rfl, given, rfl⟩
    exact ⟨⟨read, given⟩, rfl⟩
  · rintro ⟨⟨read, given⟩, rfl⟩
    exact ⟨_, _, ⟨read, rfl⟩, rfl, given, rfl⟩

end Slots

section Operations

variable {mesh : Mesh} {flat_bom : Act Json} {slots : Slots} {change : Change}
  {machine after : Machine} {request : OrderRequest}

/-- The prior Invoice and Order that an operation finds, and the state it finds
them in. -/
def Starts (flat_bom : Act Json) (machine : Machine) (invoice order : Fields)
    (start : Machine) : Prop :=
  ∃ flat, flat_bom machine = .ok flat start ∧
    invoice_order_from_flat_bom flat = .ok (invoice, order)

/-- The refs of the prior that an operation reads are no hashlinks. -/
def PlainPrior (flat_bom : Act Json) (machine : Machine) : Prop :=
  ∀ invoice order start, Starts flat_bom machine invoice order start →
    Unhinted invoice "data" ∧ Unhinted order "function" ∧
      Unhinted order "structure"

theorem lift_ok_iff {α : Type} {result : Except Raised α} {value : α} :
    Act.lift result machine = .ok value after ↔
      result = .ok value ∧ after = machine := by
  constructor
  · exact lift_ok
  · rintro ⟨rfl, rfl⟩
    rfl

theorem linkProcess_ok_iff (plain : PlainPrior flat_bom machine) :
    linkProcess mesh flat_bom slots machine = .ok request after ↔
      ∃ invoice order start, Starts flat_bom machine invoice order start ∧
        ∃ prev, flatSlot order "function" = .ok prev ∧
        ∃ function_id middle,
          rebuild_function mesh prev slots start = .ok function_id middle ∧
        ∃ structure_id data_id, Gives middle order "structure" structure_id ∧
          Gives middle invoice "data" data_id ∧
          order_request_from_prior mesh order function_id structure_id data_id
            .null middle = .ok request after := by
  unfold linkProcess
  simp only [bind_ok_iff, Prod.exists, lift_ok_iff]
  constructor
  · rintro ⟨flat, start, loaded, invoice, order, _, ⟨parsed, rfl⟩, prev, _,
      ⟨found, rfl⟩, function_id, middle, rebuilt, data, _, dataRead, paired, _,
      pairedRead, data_id, _, dataGiven, structure_id, _, pairedGiven, ran⟩
    have starts : Starts flat_bom machine invoice order _ :=
      ⟨flat, loaded, parsed⟩
    obtain ⟨dataPlain, _, pairedPlain⟩ := plain _ _ _ starts
    obtain ⟨dataIs, rfl⟩ := (stem_id_ok_iff dataPlain).mp dataRead
    obtain ⟨pairedIs, rfl⟩ := (stem_id_ok_iff pairedPlain).mp pairedRead
    obtain ⟨rfl, dataThere, rfl⟩ := required_ok_iff.mp dataGiven
    obtain ⟨rfl, pairedThere, rfl⟩ := required_ok_iff.mp pairedGiven
    exact ⟨invoice, order, _, starts, prev, found, function_id, _, rebuilt,
      structure_id, data_id, ⟨pairedIs, pairedThere⟩, ⟨dataIs, dataThere⟩, ran⟩
  · rintro ⟨invoice, order, start, starts, prev, found, function_id, middle,
      rebuilt, structure_id, data_id, pairedGives, dataGives, ran⟩
    obtain ⟨dataPlain, _, pairedPlain⟩ := plain _ _ _ starts
    obtain ⟨flat, loaded, parsed⟩ := starts
    exact ⟨flat, start, loaded, invoice, order, start, ⟨parsed, rfl⟩, prev,
      start, ⟨found, rfl⟩, function_id, middle, rebuilt, _, middle,
      (stem_id_ok_iff dataPlain).mpr ⟨dataGives.1, rfl⟩, _, middle,
      (stem_id_ok_iff pairedPlain).mpr ⟨pairedGives.1, rfl⟩, data_id, middle,
      required_ok_iff.mpr ⟨rfl, dataGives.2, rfl⟩, structure_id, middle,
      required_ok_iff.mpr ⟨rfl, pairedGives.2, rfl⟩, ran⟩

theorem linkOrder_process_ok_iff (plain : PlainPrior flat_bom machine)
    (replaces : slots.requested = true) (keeps : change.requested = false) :
    linkOrder mesh flat_bom slots change machine = .ok request after ↔
      ∃ invoice order start, Starts flat_bom machine invoice order start ∧
        (∃ id, Gives start order "function" id) ∧
        ∃ prev, flatSlot order "function" = .ok prev ∧
        ∃ function_id middle,
          rebuild_function mesh prev slots start = .ok function_id middle ∧
        ∃ structure_id data_id, Gives middle order "structure" structure_id ∧
          Gives middle invoice "data" data_id ∧
          order_request_from_prior mesh order function_id structure_id data_id
            .null middle = .ok request after := by
  unfold linkOrder
  rw [if_pos (by simp [replaces])]
  simp only [nextFunction, nextStructure, replaces, keeps, if_true,
    Bool.false_eq_true, if_false, bind_ok_iff, Prod.exists, lift_ok_iff,
    pure_run, EStateM.Result.ok.injEq, Prod.mk.injEq]
  constructor
  · rintro ⟨flat, start, loaded, invoice, order, _, ⟨parsed, rfl⟩, held, _,
      heldRead, carried, _, heldGiven, function_id, middle, ⟨prev, _,
      ⟨found, rfl⟩, rebuilt⟩, paired, _, pairedRead, structure_id, _,
      pairedGiven, _, _, _, ⟨⟨rfl, rfl⟩, rfl⟩, data, _, dataRead, data_id, _,
      dataGiven, ran⟩
    have starts : Starts flat_bom machine invoice order _ :=
      ⟨flat, loaded, parsed⟩
    obtain ⟨dataPlain, heldPlain, pairedPlain⟩ := plain _ _ _ starts
    obtain ⟨heldIs, rfl⟩ := (stem_id_ok_iff heldPlain).mp heldRead
    obtain ⟨rfl, heldThere, rfl⟩ := required_ok_iff.mp heldGiven
    obtain ⟨pairedIs, rfl⟩ := (stem_id_ok_iff pairedPlain).mp pairedRead
    obtain ⟨rfl, pairedThere, rfl⟩ := required_ok_iff.mp pairedGiven
    obtain ⟨dataIs, rfl⟩ := (stem_id_ok_iff dataPlain).mp dataRead
    obtain ⟨rfl, dataThere, rfl⟩ := required_ok_iff.mp dataGiven
    exact ⟨invoice, order, _, starts, ⟨carried, heldIs, heldThere⟩, prev, found,
      function_id, _, rebuilt, _, data_id, ⟨pairedIs, pairedThere⟩,
      ⟨dataIs, dataThere⟩, ran⟩
  · rintro ⟨invoice, order, start, starts, ⟨carried, heldGives⟩, prev, found,
      function_id, middle, rebuilt, structure_id, data_id, pairedGives,
      dataGives, ran⟩
    obtain ⟨dataPlain, heldPlain, pairedPlain⟩ := plain _ _ _ starts
    obtain ⟨flat, loaded, parsed⟩ := starts
    exact ⟨flat, start, loaded, invoice, order, start, ⟨parsed, rfl⟩, _, start,
      (stem_id_ok_iff heldPlain).mpr ⟨heldGives.1, rfl⟩, carried, start,
      required_ok_iff.mpr ⟨rfl, heldGives.2, rfl⟩, function_id, middle,
      ⟨prev, start, ⟨found, rfl⟩, rebuilt⟩, _, middle,
      (stem_id_ok_iff pairedPlain).mpr ⟨pairedGives.1, rfl⟩, structure_id,
      middle, required_ok_iff.mpr ⟨rfl, pairedGives.2, rfl⟩, _, _, middle,
      ⟨⟨rfl, rfl⟩, rfl⟩, _, middle,
      (stem_id_ok_iff dataPlain).mpr ⟨dataGives.1, rfl⟩, data_id, middle,
      required_ok_iff.mpr ⟨rfl, dataGives.2, rfl⟩, ran⟩

/-- Restricted to the Function, `linkOrder` mints what `linkProcess` mints, in
the same state, exactly when the prior Order has an id for its Function. -/
theorem linkOrder_iff_linkProcess (plain : PlainPrior flat_bom machine)
    (replaces : slots.requested = true) (keeps : change.requested = false) :
    linkOrder mesh flat_bom slots change machine = .ok request after ↔
      linkProcess mesh flat_bom slots machine = .ok request after ∧
        ∃ invoice order start, Starts flat_bom machine invoice order start ∧
          ∃ id, Gives start order "function" id := by
  rw [linkOrder_process_ok_iff plain replaces keeps, linkProcess_ok_iff plain]
  constructor
  · rintro ⟨invoice, order, start, starts, held, rest⟩
    exact ⟨⟨invoice, order, start, starts, rest⟩, invoice, order, start, starts,
      held⟩
  · rintro ⟨⟨invoice, order, start, starts, rest⟩, other, another, first,
      again, held⟩
    obtain ⟨flat, loaded, parsed⟩ := starts
    obtain ⟨_, reloaded, reparsed⟩ := again
    cases loaded.symm.trans reloaded
    cases parsed.symm.trans reparsed
    exact ⟨invoice, order, start, ⟨flat, loaded, parsed⟩, held, rest⟩

theorem linkStructure_ok_iff (plain : PlainPrior flat_bom machine) :
    linkStructure mesh flat_bom change machine = .ok request after ↔
      ∃ invoice order start, Starts flat_bom machine invoice order start ∧
        ∃ prev, flatSlot order "structure" = .ok prev ∧
        ∃ pairing middle,
          resolve_structure_pairing mesh prev change start =
            .ok pairing middle ∧
        ∃ structure_id later,
          ContentMesh.put_json mesh.base_url (.obj pairing) middle =
            .ok structure_id later ∧
        ∃ name, structureName order change = .ok name ∧
        ∃ function_id data_id, Gives later order "function" function_id ∧
          Gives later invoice "data" data_id ∧
          order_request_from_prior mesh order function_id structure_id data_id
            name later = .ok request after := by
  unfold linkStructure
  simp only [bind_ok_iff, Prod.exists, lift_ok_iff]
  constructor
  · rintro ⟨flat, start, loaded, invoice, order, _, ⟨parsed, rfl⟩, prev, _,
      ⟨found, rfl⟩, pairing, middle, resolved, structure_id, later, minted,
      name, _, ⟨named, rfl⟩, data, _, dataRead, held, _, heldRead, data_id, _,
      dataGiven, function_id, _, heldGiven, ran⟩
    have starts : Starts flat_bom machine invoice order _ :=
      ⟨flat, loaded, parsed⟩
    obtain ⟨dataPlain, heldPlain, _⟩ := plain _ _ _ starts
    obtain ⟨dataIs, rfl⟩ := (stem_id_ok_iff dataPlain).mp dataRead
    obtain ⟨heldIs, rfl⟩ := (stem_id_ok_iff heldPlain).mp heldRead
    obtain ⟨rfl, dataThere, rfl⟩ := required_ok_iff.mp dataGiven
    obtain ⟨rfl, heldThere, rfl⟩ := required_ok_iff.mp heldGiven
    exact ⟨invoice, order, _, starts, prev, found, pairing, middle, resolved,
      structure_id, _, minted, name, named, function_id, data_id,
      ⟨heldIs, heldThere⟩, ⟨dataIs, dataThere⟩, ran⟩
  · rintro ⟨invoice, order, start, starts, prev, found, pairing, middle,
      resolved, structure_id, later, minted, name, named, function_id, data_id,
      heldGives, dataGives, ran⟩
    obtain ⟨dataPlain, heldPlain, _⟩ := plain _ _ _ starts
    obtain ⟨flat, loaded, parsed⟩ := starts
    exact ⟨flat, start, loaded, invoice, order, start, ⟨parsed, rfl⟩, prev,
      start, ⟨found, rfl⟩, pairing, middle, resolved, structure_id, later,
      minted, name, later, ⟨named, rfl⟩, _, later,
      (stem_id_ok_iff dataPlain).mpr ⟨dataGives.1, rfl⟩, _, later,
      (stem_id_ok_iff heldPlain).mpr ⟨heldGives.1, rfl⟩, data_id, later,
      required_ok_iff.mpr ⟨rfl, dataGives.2, rfl⟩, function_id, later,
      required_ok_iff.mpr ⟨rfl, heldGives.2, rfl⟩, ran⟩

theorem linkOrder_structure_ok_iff (plain : PlainPrior flat_bom machine)
    (keeps : slots.requested = false) (replaces : change.requested = true) :
    linkOrder mesh flat_bom slots change machine = .ok request after ↔
      ∃ invoice order start, Starts flat_bom machine invoice order start ∧
        ∃ function_id, Gives start order "function" function_id ∧
        (∃ id, Gives start order "structure" id) ∧
        ∃ prev, flatSlot order "structure" = .ok prev ∧
        ∃ pairing middle,
          resolve_structure_pairing mesh prev change start =
            .ok pairing middle ∧
        ∃ structure_id later,
          ContentMesh.put_json mesh.base_url (.obj pairing) middle =
            .ok structure_id later ∧
        ∃ name, structureName order change = .ok name ∧
        ∃ data_id, Gives later invoice "data" data_id ∧
          order_request_from_prior mesh order function_id structure_id data_id
            name later = .ok request after := by
  unfold linkOrder
  rw [if_pos (by simp [replaces])]
  simp only [nextFunction, nextStructure, replaces, keeps, if_true,
    Bool.false_eq_true, if_false, bind_ok_iff, Prod.exists, lift_ok_iff,
    pure_run, EStateM.Result.ok.injEq, Prod.mk.injEq]
  constructor
  · rintro ⟨flat, start, loaded, invoice, order, _, ⟨parsed, rfl⟩, held, _,
      heldRead, function_id, _, heldGiven, _, _, ⟨rfl, rfl⟩, paired, _,
      pairedRead, carried, _, pairedGiven, _, _, _, ⟨prev, _, ⟨found, rfl⟩,
      pairing, middle, resolved, structure_id, later, minted, name, _,
      ⟨named, rfl⟩, ⟨rfl, rfl⟩, rfl⟩, data, _, dataRead, data_id, _, dataGiven,
      ran⟩
    have starts : Starts flat_bom machine invoice order _ :=
      ⟨flat, loaded, parsed⟩
    obtain ⟨dataPlain, heldPlain, pairedPlain⟩ := plain _ _ _ starts
    obtain ⟨heldIs, rfl⟩ := (stem_id_ok_iff heldPlain).mp heldRead
    obtain ⟨rfl, heldThere, rfl⟩ := required_ok_iff.mp heldGiven
    obtain ⟨pairedIs, rfl⟩ := (stem_id_ok_iff pairedPlain).mp pairedRead
    obtain ⟨rfl, pairedThere, rfl⟩ := required_ok_iff.mp pairedGiven
    obtain ⟨dataIs, rfl⟩ := (stem_id_ok_iff dataPlain).mp dataRead
    obtain ⟨rfl, dataThere, rfl⟩ := required_ok_iff.mp dataGiven
    exact ⟨invoice, order, _, starts, function_id, ⟨heldIs, heldThere⟩,
      ⟨carried, pairedIs, pairedThere⟩, prev, found, pairing, middle, resolved,
      structure_id, _, minted, name, named, data_id, ⟨dataIs, dataThere⟩, ran⟩
  · rintro ⟨invoice, order, start, starts, function_id, heldGives,
      ⟨carried, pairedGives⟩, prev, found, pairing, middle, resolved,
      structure_id, later, minted, name, named, data_id, dataGives, ran⟩
    obtain ⟨dataPlain, heldPlain, pairedPlain⟩ := plain _ _ _ starts
    obtain ⟨flat, loaded, parsed⟩ := starts
    exact ⟨flat, start, loaded, invoice, order, start, ⟨parsed, rfl⟩, _, start,
      (stem_id_ok_iff heldPlain).mpr ⟨heldGives.1, rfl⟩, function_id, start,
      required_ok_iff.mpr ⟨rfl, heldGives.2, rfl⟩, _, _, ⟨rfl, rfl⟩, _, start,
      (stem_id_ok_iff pairedPlain).mpr ⟨pairedGives.1, rfl⟩, carried, start,
      required_ok_iff.mpr ⟨rfl, pairedGives.2, rfl⟩, _, _, _,
      ⟨prev, start, ⟨found, rfl⟩, pairing, middle, resolved, structure_id,
        later, minted, name, later, ⟨named, rfl⟩, ⟨rfl, rfl⟩, rfl⟩, _, later,
      (stem_id_ok_iff dataPlain).mpr ⟨dataGives.1, rfl⟩, data_id, later,
      required_ok_iff.mpr ⟨rfl, dataGives.2, rfl⟩, ran⟩

/-- Every index reads the slot alike. -/
def Steady (fields : Fields) (stem : String) : Prop :=
  ∀ index other found, ref_id index fields stem = .ok (found, index) →
    ref_id other fields stem = .ok (found, other)

theorem Gives.moved {fields : Fields} {stem id : String} {other : Machine}
    (gives : Gives machine fields stem id) (steady : Steady fields stem) :
    Gives other fields stem id :=
  ⟨steady _ _ _ gives.1, gives.2⟩

end Operations

section Nameless

/-- A mesh on a network that answers nothing. -/
def silentMesh : Mesh where
  net := { answer := fun _ _ => none }
  base_url := "http://127.0.0.1:5000"
  toml := fun _ => none
  cats_sbom := none
  endpoint := "http://127.0.0.1:5000/cat/node/init"
  walk := fun _ _ => .node [] []
  temporary := "/tmp/cats-structure-root-0"

/-- A Node that holds nothing yet. -/
def bareNode : Machine :=
  { home := some bareHome, disk := fun _ => none, writes := [], gets := 0 }

/-- A BOM flattened to an Invoice and an Order. -/
def flatTree (order : Fields) : Json :=
  .obj [("invoice", .obj [("data_uri", .str "QmD"),
    ("flat", .obj [("order", .obj order)])])]

/-- An Order whose Function is at a web address that no locator has. -/
def foreignFunction : Fields :=
  [("function_uri", .str functionUri), ("structure_cid", .str "QmS")]
where functionUri := "http://peer/function.json"

/-- An Order whose Structure is at a web address that no locator has. -/
def foreignStructure : Fields :=
  [("function_cid", .str "QmF"), ("structure_uri", .str structureUri)]
where structureUri := "http://peer/structure.json"

/-- A replacement for the slot of the Actuator. -/
def actuatorSlot : Slots :=
  { infrafunction_subproc := some ⟨false, "", "", []⟩ }

theorem starts_flatTree {order found invoice : Fields} {start : Machine}
    (starts : Starts (pure (flatTree order)) bareNode invoice found start) :
    invoice = [("data_uri", .str "QmD"),
        ("flat", .obj [("order", .obj order)])] ∧
      found = order ∧ start = bareNode := by
  obtain ⟨flat, loaded, parsed⟩ := starts
  cases loaded
  cases parsed
  exact ⟨rfl, rfl, rfl⟩

theorem plainPrior_flatTree {order : Fields}
    (function : Unhinted order "function")
    (paired : Unhinted order "structure") :
    PlainPrior (pure (flatTree order)) bareNode := by
  intro invoice found start starts
  obtain ⟨rfl, rfl, rfl⟩ := starts_flatTree starts
  refine ⟨?_, function, paired⟩
  intro uri given
  cases given
  decide +kernel

/-- An Order whose Function has no id is not linked by `linkOrder`. -/
theorem linkOrder_iff_linkProcess_foreign :
    ¬ ∃ request after, linkOrder silentMesh (pure (flatTree foreignFunction))
      actuatorSlot {} bareNode = .ok request after := by
  rintro ⟨request, after, ran⟩
  have plain : PlainPrior (pure (flatTree foreignFunction)) bareNode := by
    apply plainPrior_flatTree
    · intro uri given
      cases given
      decide +kernel
    · intro uri given
      cases given
  obtain ⟨_, _, order, start, starts, id, gives⟩ :=
    (linkOrder_iff_linkProcess plain rfl rfl).mp ran
  obtain ⟨_, rfl, rfl⟩ := starts_flatTree starts
  have unnamed : (ref_id (some LocatorIndex.empty) foreignFunction
      "function").toOption.bind Prod.fst = none := by
    decide +kernel
  have named := gives.1
  change ref_id (some LocatorIndex.empty) foreignFunction "function" = _ at named
  rw [named] at unnamed
  cases unnamed

end Nameless

end Link

end Cats
