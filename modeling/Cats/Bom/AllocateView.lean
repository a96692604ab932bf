import Cats.Bom.Documents
import Cats.Registry.Record

/-!
# The allocate view and its walks

The view binds each clause of a data contract to the part of the SysML document
that answers for it, and back.  `walk_forward` goes from a clause to its target,
`walk_backward` from a lot, through the contract its Invoice cites, to a clause.

Both walks look for the suffix of a clause id.  The backward walk does not look at
the contract of the view, and where no target allocates the clause it makes an id
out of the contract that was cited.
-/

namespace Cats

namespace Rtm

open Sbom
open BomRegistry (orNone valueOr)

/-- `doc.get(key) or []`, as a loop visits it. -/
def listed (doc : Fields) (key : String) : Except Raised (List Json) :=
  match doc.get? key with
  | some value => if value.truthy then value.iterate else .ok []
  | none => .ok []

/-- `value if isinstance(value, str) and value.strip()`. -/
def nonblank? : Option Json → Option String
  | some (.str text) => if Text.strip text = "" then none else some text
  | _ => none

/-- The dicts that `doc['ownedElement']` lists. -/
def ownedElements (doc : Fields) : List Fields :=
  match doc.get? "ownedElement" with
  | some (.arr items) => items.filterMap Json.fields?
  | _ => []

section Allocate

/-- `_sysml_usage_id(sysml_doc, name)`. -/
def sysml_usage_id (sysml_doc : Fields) (name : String) : Option String :=
  ((ownedElements sysml_doc).find? fun item =>
    item.get? "@type" = some (.str "sysml:PartUsage") &&
      item.get? "name" = some (.str name)).bind fun item =>
        nonblank? (item.get? "@id")

/-- The content id of the first quantum that has one. -/
def quantumId? (sysml_doc : Fields) : Option String :=
  (ownedElements sysml_doc).findSome? fun item =>
    if item.get? "name" = some (.str "ArchitecturalQuantum") then
      nonblank? (item.get? "contentId")
    else none

/-- `_order_ni_from_sysml(sysml_doc)`. -/
def order_ni_from_sysml (sysml_doc : Fields) : Except Raised String :=
  match quantumId? sysml_doc with
  | some content_id => ni content_id
  | none =>
      let start := "urn:cats:projection:sysml:"
      match sysml_doc.get? "@id" with
      | some (.str doc_id) =>
          if Text.startsWith doc_id start then
            ni (String.ofList (doc_id.toList.drop start.length))
          else .error (.valueError
            "sysml_doc missing ArchitecturalQuantum contentId")
      | _ => .error (.valueError
          "sysml_doc missing ArchitecturalQuantum contentId")

/-- What may be a key of a dict. -/
def hashable : Json → Except Raised Json
  | .arr _ => .error ⟨.typeError, "unhashable type: 'list'"⟩
  | .obj _ => .error ⟨.typeError, "unhashable type: 'dict'"⟩
  | value => .ok value

/-- `by_title`: the clauses and their titles, in the order of the document. -/
def by_title (contract_doc : Fields) : Except Raised (List (Json × Fields)) := do
  let items ← listed contract_doc "cats:clauses"
  (items.filterMap Json.fields?).mapM fun clause => do
    let title ← hashable (orNone (clause.get? "dct:title"))
    .ok (title, clause)

/-- `by_title.get(name) or {}`: the last clause of a title stands. -/
def titled (clauses : List (Json × Fields)) (name : String) : Fields :=
  (((clauses.filter fun clause => clause.1 = .str name).getLast?).map
    Prod.snd).getD []

/-- `clause.get('@id') or f'{contract_id}#{name}'`. -/
def clauseId (contract_id : String) (clauses : List (Json × Fields))
    (name : String) : Json :=
  valueOr (orNone ((titled clauses name).get? "@id"))
    (.str s!"{contract_id}#{name}")

/-- A clause, what it is allocated to and its kind. -/
structure Link where
  clause : Json
  target : String
  kind : String

namespace Link

/-- The link as an item of `cats:edges`. -/
def edge (link : Link) : Fields :=
  [("@id", link.clause), ("cats:allocatesTo", .str link.target),
    ("cats:kind", .str link.kind), ("cats:enforced", .bool false)]

/-- The link as an item of `cats:targets`. -/
def inverse (link : Link) : Fields :=
  [("@id", .str link.target), ("cats:allocatedFrom", link.clause),
    ("cats:clause", link.clause)]

end Link

/-- One link for each clause name. -/
def links (process_usage contract_id : String)
    (clauses : List (Json × Fields)) : List Link :=
  contractClauses.map fun (name, _, kind) =>
    ⟨clauseId contract_id clauses name,
      if name = "egress" then process_usage else s!"urn:cats:concern:{name}",
      kind⟩

/-- `allocate_view(sysml_doc=…, contract_doc=…, created=…)`. -/
def allocate_view (sysml_doc contract_doc : Json) (created : String) :
    Except Raised Fields :=
  match sysml_doc, contract_doc with
  | .obj sysml_doc, .obj contract_doc => do
      let order_ni ← order_ni_from_sysml sysml_doc
      let sysml_id := (nonblank? (Fields.get? sysml_doc "@id")).getD
        (projection_urn "sysml" order_ni)
      let process_usage := (sysml_usage_id sysml_doc "Process").getD
        (sysml_id ++ "#usage:Process")
      match nonblank? (Fields.get? contract_doc "@id") with
      | none => .error (.valueError "contract_doc missing @id")
      | some contract_id => do
          let clauses ← by_title contract_doc
          let allocated := links process_usage contract_id clauses
          .ok [("@context", .obj [("dct", .str "http://purl.org/dc/terms/"),
              ("cats", .str "https://cats.dynamicalsystemsgroup.com/ns#")]),
            ("@id", .str (projection_urn "allocate" order_ni)),
            ("@type", .str "cats:AllocateView"),
            ("cats:subject", .str order_ni),
            ("cats:contract", .str contract_id),
            ("cats:createdBy", .str "urn:cats:projector:p7"),
            ("cats:edges",
              .arr (allocated.map fun link => .obj link.edge)),
            ("cats:targets",
              .arr (allocated.map fun link => .obj link.inverse)),
            ("dct:issued", .str created)]
  | .obj _, _ => .error (.valueError "contract_doc is required")
  | _, _ => .error (.valueError "sysml_doc is required")

end Allocate

section Walks

/-- The id, if it is a str that ends in `#clause`. -/
def endsIn? (clause : String) : Json → Option String
  | .str id => if Text.endsWith id ("#" ++ clause) then some id else none
  | _ => none

/-- What `walk_forward` returns. -/
structure Forward where
  clause : Json
  target : Json
  order_promised : Json

/-- `walk_forward(allocate_doc, order_dcat=order_dcat, clause=clause)`. -/
def walk_forward (allocate_doc : Fields) (order_dcat : Option Json)
    (clause : String) : Except Raised Forward := do
  let edges ← listed allocate_doc "cats:edges"
  let edge := (edges.filterMap Json.fields?).find? fun item =>
    ((item.get? "@id").bind (endsIn? clause)).isSome
  let promised := (order_dcat.bind (·.get? "dct:conformsTo"))
  .ok ⟨orNone ((edge.getD []).get? "@id"),
    orNone ((edge.getD []).get? "cats:allocatesTo"), orNone promised⟩

/-- The clause a target is allocated from, if its id ends in `#clause`. -/
def allocatedFrom? (clause : String) (target : Fields) : Option String :=
  endsIn? clause (valueOr (orNone (target.get? "cats:allocatedFrom"))
    (orNone (target.get? "cats:clause")))

/-- What `walk_backward` returns. -/
structure Backward where
  lot : Json
  contract : Json
  clause : Json

/-- The identifier of the first dataset that is `egressed_data`. -/
def egressedLot (datasets : List Json) : Json :=
  match (datasets.filterMap Json.fields?).find? fun dataset =>
      dataset.get? "dct:title" = some (.str "egressed_data") with
  | some dataset =>
      match dataset.get? "dct:identifier" with
      | some (.str ident) => .str ident
      | _ => .null
  | none => .null

/-- The lot that is given, or else the one the catalog lists. -/
def lotOf (invoice_dcat : Json) (lot : Option String) : Except Raised Json :=
  match lot, invoice_dcat with
  | some lot, _ => .ok (.str lot)
  | none, .obj dcat => do
      let datasets ← listed dcat "dcat:dataset"
      .ok (egressedLot datasets)
  | none, _ => .ok .null

/-- The clause that no target allocates. -/
def madeClause (contract : Json) (clause : String) : Json :=
  match contract with
  | .str contract => .str s!"{contract}#{clause}"
  | _ => .null

/-- `walk_backward(allocate_doc, invoice_dcat, lot=lot, clause=clause)`. -/
def walk_backward (allocate_doc : Fields) (invoice_dcat : Json)
    (lot : Option String) (clause : String) : Except Raised Backward := do
  let contract := orNone (invoice_dcat.get? "dct:conformsTo")
  let targets ← listed allocate_doc "cats:targets"
  let clause_id :=
    match (targets.filterMap Json.fields?).findSome? (allocatedFrom? clause) with
    | some id => .str id
    | none => madeClause contract clause
  let lot_ni ← lotOf invoice_dcat lot
  .ok ⟨lot_ni, contract, clause_id⟩

end Walks

section Coherence

/-- What a view says: it lists the links of a contract both ways. -/
structure Allocated (contract : Fields) (view : Fields) (allocated : List Link) :
    Prop where
  edges : view.get? "cats:edges" =
    some (.arr (allocated.map fun link => .obj link.edge))
  targets : view.get? "cats:targets" =
    some (.arr (allocated.map fun link => .obj link.inverse))
  linked : ∃ process_usage contract_id clauses,
    contract.get? "@id" = some (.str contract_id) ∧
      by_title contract = .ok clauses ∧
      allocated = links process_usage contract_id clauses

theorem nonblank?_eq_some {value : Option Json} {text : String}
    (found : nonblank? value = some text) : value = some (.str text) := by
  unfold nonblank? at found
  split at found
  · split_ifs at found
    cases found
    rfl
  · cases found

/-- A view that is built lists the links of its contract. -/
theorem allocated_of_allocate_view {sysml_doc : Json} {contract : Fields}
    {created : String} {view : Fields}
    (built : allocate_view sysml_doc (.obj contract) created = .ok view) :
    ∃ allocated, Allocated contract view allocated := by
  cases sysml_doc with
  | obj sysml =>
      unfold allocate_view at built
      obtain ⟨order_ni, -, built⟩ := Raised.bind_returns built
      cases found : nonblank? (Fields.get? contract "@id") with
      | none =>
          simp only [found] at built
          cases built
      | some contract_id =>
          simp only [found] at built
          obtain ⟨clauses, titles, built⟩ := Raised.bind_returns built
          cases built
          exact ⟨_, rfl, rfl, _, contract_id, clauses, nonblank?_eq_some found,
            titles, rfl⟩
  | _ => cases built

/-- The items of a list that is not read from a document. -/
theorem filterMap_fields?_map {α : Type} (fields : α → Fields)
    (items : List α) :
    ((items.map fun item => Json.obj (fields item)).filterMap Json.fields?) =
      items.map fields := by
  induction items with
  | nil => rfl
  | cons item items induction =>
      exact congrArg (fields item :: ·) induction

theorem listed_of_get? {doc : Fields} {key : String} {items : List Json}
    (found : doc.get? key = some (.arr items)) :
    listed doc key = .ok items := by
  unfold listed
  rw [found]
  cases items with
  | nil => rfl
  | cons item items => rfl

/-- Where a search by a partial function stops. -/
theorem find?_of_findSome? {α β : Type} {choose : α → Option β}
    {items : List α} {found : β} (stops : items.findSome? choose = some found) :
    ∃ item ∈ items, items.find? (fun item => (choose item).isSome) = some item ∧
      choose item = some found := by
  induction items with
  | nil => cases stops
  | cons item items induction =>
      rw [List.findSome?_cons] at stops
      rw [List.find?_cons]
      cases chosen : choose item with
      | some value =>
          rw [chosen] at stops
          cases stops
          exact ⟨item, List.mem_cons_self, rfl, chosen⟩
      | none =>
          rw [chosen] at stops
          obtain ⟨other, member, first, same⟩ := induction stops
          exact ⟨other, List.mem_cons_of_mem item member, first, same⟩

variable {contract view : Fields} {allocated : List Link} {clause : String}

/-- A target of the view leads back to the clause of its link. -/
theorem allocatedFrom?_inverse (link : Link) :
    allocatedFrom? clause link.inverse = endsIn? clause link.clause := by
  show endsIn? clause (valueOr link.clause link.clause) = _
  unfold valueOr
  rw [ite_self]

/-- The clause that the links of a view hold, and the view leads back to. -/
def clauseOf (clause : String) (allocated : List Link) : Option String :=
  allocated.findSome? fun link => endsIn? clause link.clause

/-- The walk to the target follows the first link of the clause. -/
theorem Allocated.walk_forward (lists : Allocated contract view allocated)
    (order_dcat : Option Json) :
    walk_forward view order_dcat clause =
      .ok (match allocated.find? fun link => (endsIn? clause link.clause).isSome with
        | some link => ⟨link.clause, .str link.target,
            orNone (order_dcat.bind (·.get? "dct:conformsTo"))⟩
        | none => ⟨.null, .null,
            orNone (order_dcat.bind (·.get? "dct:conformsTo"))⟩) := by
  unfold Rtm.walk_forward
  rw [listed_of_get? lists.edges]
  simp only [bind, Except.bind, filterMap_fields?_map]
  rw [List.find?_map]
  have same : ((fun item : Fields =>
      ((item.get? "@id").bind (endsIn? clause)).isSome) ∘ Link.edge) =
      fun link => (endsIn? clause link.clause).isSome := rfl
  rw [same]
  cases allocated.find? fun link => (endsIn? clause link.clause).isSome with
  | none => rfl
  | some link => rfl

/-- The clause of the first link, or one that is made. -/
def backClause (allocated : List Link) (contract : Json) (clause : String) : Json :=
  match clauseOf clause allocated with
  | some id => .str id
  | none => madeClause contract clause

/-- The walk back takes the clause of the first link, or makes one. -/
theorem Allocated.walk_backward (lists : Allocated contract view allocated)
    (invoice_dcat : Json) (lot : Option String) :
    walk_backward view invoice_dcat lot clause =
      (lotOf invoice_dcat lot).map fun lot_ni =>
        ⟨lot_ni, orNone (invoice_dcat.get? "dct:conformsTo"),
          backClause allocated (orNone (invoice_dcat.get? "dct:conformsTo"))
            clause⟩ := by
  have same : (allocated.map Link.inverse).findSome? (allocatedFrom? clause) =
      clauseOf clause allocated := by
    rw [List.findSome?_map]
    exact congrArg (fun choose => allocated.findSome? choose)
      (funext fun link => allocatedFrom?_inverse link)
  unfold Rtm.walk_backward
  rw [listed_of_get? lists.targets]
  simp only [bind, Except.bind, filterMap_fields?_map, same]
  cases lotOf invoice_dcat lot with
  | error raised => rfl
  | ok lot_ni => rfl

/-- The clauses of a contract document: what its clause names stand for. -/
def Clause (contract : Fields) (id : String) : Prop :=
  ∃ contract_id clauses, contract.get? "@id" = some (.str contract_id) ∧
    by_title contract = .ok clauses ∧
    ∃ name ∈ contractClauses.map Prod.fst,
      clauseId contract_id clauses name = .str id

/-- A target of the view leads back to the clause. -/
def Inverse (view : Fields) (clause : String) : Prop :=
  ∃ targets, view.get? "cats:targets" = some (.arr targets) ∧
    ∃ target, .obj target ∈ targets ∧ (allocatedFrom? clause target).isSome

/-- The walks agree: a clause that is returned is one of the contract that is
returned, the walk forward returns it too, and the target there leads back to it;
for another contract, or without an inverse, no clause is returned. -/
structure Coherent (contract view : Fields) (clause : String)
    (walked : Backward) : Prop where
  belongs : ∀ id, walked.clause = .str id →
    contract.get? "@id" = some walked.contract ∧ Clause contract id
  forward : ∀ id, walked.clause = .str id → ∀ order_dcat,
    ∃ forward, walk_forward view order_dcat clause = .ok forward ∧
      forward.clause = .str id ∧
      ∃ targets, ∃ target : Fields, view.get? "cats:targets" = some (.arr targets) ∧
        .obj target ∈ targets ∧ target.get? "@id" = some forward.target ∧
        target.get? "cats:allocatedFrom" = some (.str id)
  foreign : contract.get? "@id" ≠ some walked.contract → walked.clause = .null
  unallocated : ¬ Inverse view clause → walked.clause = .null

theorem Allocated.inverse_iff (lists : Allocated contract view allocated) :
    Inverse view clause ↔ (clauseOf clause allocated).isSome := by
  unfold Inverse clauseOf
  rw [List.findSome?_isSome_iff]
  constructor
  · rintro ⟨targets, found, target, member, leads⟩
    rw [lists.targets] at found
    cases found
    obtain ⟨link, listed, same⟩ := List.mem_map.mp member
    cases same
    rw [allocatedFrom?_inverse] at leads
    exact ⟨link, listed, leads⟩
  · rintro ⟨link, listed, leads⟩
    refine ⟨_, lists.targets, link.inverse, List.mem_map.mpr ⟨link, listed, rfl⟩, ?_⟩
    rw [allocatedFrom?_inverse]
    exact leads

theorem endsIn?_eq_some {value : Json} {id : String}
    (ends : endsIn? clause value = some id) : value = .str id := by
  unfold endsIn? at ends
  split at ends
  · split_ifs at ends
    cases ends
    rfl
  · cases ends

/-- A clause that the links hold is a clause of the contract. -/
theorem Allocated.clause_of_mem (lists : Allocated contract view allocated)
    {link : Link} {id : String} (member : link ∈ allocated)
    (names : link.clause = .str id) : Clause contract id := by
  obtain ⟨process_usage, contract_id, clauses, identified, titles, rfl⟩ :=
    lists.linked
  obtain ⟨entry, listed, rfl⟩ := List.mem_map.mp member
  exact ⟨contract_id, clauses, identified, titles, entry.1,
    List.mem_map_of_mem listed, names⟩

/-- The walk back is coherent exactly where the catalog cites the contract of the
view and a target of the view is allocated from the clause. -/
theorem walk_backward_coherent_iff {sysml_doc : Json} {contract : Fields}
    {created cited clause : String} {view dcat : Fields} {lot : Option String}
    {walked : Backward}
    (built : allocate_view sysml_doc (.obj contract) created = .ok view)
    (cites : dcat.get? "dct:conformsTo" = some (.str cited))
    (returned : walk_backward view (.obj dcat) lot clause = .ok walked) :
    Coherent contract view clause walked ↔
      contract.get? "@id" = some (.str cited) ∧ Inverse view clause := by
  obtain ⟨allocated, lists⟩ := allocated_of_allocate_view built
  have contracted : orNone ((Json.obj dcat).get? "dct:conformsTo") = .str cited := by
    rw [Json.get?_obj, cites]
    rfl
  rw [lists.walk_backward, contracted] at returned
  obtain ⟨lot_ni, -, same⟩ := map_eq_ok.mp returned
  subst walked
  constructor
  · intro coherent
    -- A clause is always returned, as the catalog cites a contract.
    have returns : ∃ id, backClause allocated (.str cited) clause = .str id := by
      unfold backClause
      cases clauseOf clause allocated with
      | some id => exact ⟨id, rfl⟩
      | none => exact ⟨_, rfl⟩
    obtain ⟨id, clauseIs⟩ := returns
    constructor
    · exact (coherent.belongs id clauseIs).1
    · by_contra without
      have nothing := coherent.unallocated without
      rw [clauseIs] at nothing
      cases nothing
  · rintro ⟨identified, inverse⟩
    rw [lists.inverse_iff] at inverse
    obtain ⟨id, found⟩ := Option.isSome_iff_exists.mp inverse
    have named : backClause allocated (.str cited) clause = .str id := by
      unfold backClause
      rw [found]
    obtain ⟨link, member, first, ends⟩ := find?_of_findSome? found
    have clauseIs : link.clause = .str id := endsIn?_eq_some ends
    constructor
    · intro other otherIs
      cases named.symm.trans otherIs
      exact ⟨identified, lists.clause_of_mem member clauseIs⟩
    · intro other otherIs order_dcat
      cases named.symm.trans otherIs
      refine ⟨_, lists.walk_forward order_dcat, ?_⟩
      rw [first]
      refine ⟨clauseIs, _, link.inverse, lists.targets,
        List.mem_map.mpr ⟨link, member, rfl⟩, rfl, ?_⟩
      exact congrArg some clauseIs
    · intro foreign
      exact absurd identified foreign
    · intro without
      exact absurd (lists.inverse_iff.mpr (by rw [found]; rfl)) without

/-- A SysML document that holds the quantum of an Order only. -/
def quantumOnly (digest : Digest) : Json :=
  .obj [("ownedElement", .arr [.obj [("name", .str "ArchitecturalQuantum"),
    ("contentId", .str (to_ni digest))]])]

/-- A contract document without clauses of its own. -/
def bareContract : Fields := [("@id", .str "urn:contract")]

theorem nonblank?_to_ni (digest : Digest) :
    nonblank? (some (.str (to_ni digest))) = some (to_ni digest) := by
  show (if Text.strip (to_ni digest) = "" then none else some (to_ni digest)) = _
  rw [strip_to_ni, if_neg (to_ni_ne_empty digest)]

theorem allocate_view_quantumOnly (digest : Digest) (created : String) :
    ∃ view, allocate_view (quantumOnly digest) (.obj bareContract) created =
      .ok view := by
  have quantum : quantumId? [("ownedElement",
      .arr [.obj [("name", .str "ArchitecturalQuantum"),
        ("contentId", .str (to_ni digest))]])] = some (to_ni digest) := by
    simp [quantumId?, ownedElements, Json.fields?, nonblank?_to_ni]
  have subject : order_ni_from_sysml [("ownedElement",
      .arr [.obj [("name", .str "ArchitecturalQuantum"),
        ("contentId", .str (to_ni digest))]])] = .ok (to_ni digest) := by
    unfold order_ni_from_sysml
    rw [quantum]
    exact ni_to_ni digest
  have named : nonblank? (Fields.get? bareContract "@id") =
      some "urn:contract" := by decide +kernel
  have titles : by_title bareContract = .ok [] := rfl
  unfold allocate_view quantumOnly
  simp only [subject, named, titles, bind, Except.bind]
  exact ⟨_, rfl⟩

/-- The catalog of an Invoice that cites a contract. -/
def citing (cited : String) : Fields := [("dct:conformsTo", .str cited)]

/-- The walk back from a bare contract returns its clause, whichever contract is
cited. -/
theorem walk_backward_bareContract {sysml_doc : Json} {created : String}
    {view : Fields}
    (built : allocate_view sysml_doc (.obj bareContract) created = .ok view)
    (cited lot : String) :
    walk_backward view (.obj (citing cited)) (some lot) "egress" =
      .ok ⟨.str lot, .str cited, .str "urn:contract#egress"⟩ := by
  obtain ⟨allocated, lists⟩ := allocated_of_allocate_view built
  obtain ⟨process_usage, contract_id, clauses, identified, titles, linked⟩ :=
    lists.linked
  cases identified
  cases titles
  have clauseIs : clauseOf "egress" allocated = some "urn:contract#egress" := by
    rw [linked]
    have egress : endsIn? "egress" (clauseId "urn:contract" [] "egress") =
        some "urn:contract#egress" := by decide +kernel
    unfold clauseOf links contractClauses
    rw [List.map_cons, List.findSome?_cons]
    simp only [List.reverse_nil, egress]
  rw [lists.walk_backward]
  unfold backClause
  rw [clauseIs]
  rfl

theorem walk_backward_coherent_bareContract :
    ∃ view walked, allocate_view (quantumOnly (sha256_hex []))
        (.obj bareContract) fixedCreated = .ok view ∧
      walk_backward view (.obj (citing "urn:contract")) (some "lot") "egress" =
        .ok walked ∧
      (Coherent bareContract view "egress" walked ↔
        bareContract.get? "@id" = some (.str "urn:contract") ∧
          Inverse view "egress") := by
  obtain ⟨view, built⟩ := allocate_view_quantumOnly (sha256_hex []) fixedCreated
  have returned := walk_backward_bareContract built "urn:contract" "lot"
  exact ⟨view, _, built, returned, walk_backward_coherent_iff built rfl returned⟩

/-- A clause of the contract comes back under another contract's id. -/
theorem walk_backward_foreign_contract :
    ∃ view walked, allocate_view (quantumOnly (sha256_hex []))
        (.obj bareContract) fixedCreated = .ok view ∧
      walk_backward view (.obj (citing "urn:other")) (some "lot") "egress" =
        .ok walked ∧ walked.clause = .str "urn:contract#egress" ∧
      ¬ Coherent bareContract view "egress" walked := by
  obtain ⟨view, built⟩ := allocate_view_quantumOnly (sha256_hex []) fixedCreated
  refine ⟨view, _, built, walk_backward_bareContract built "urn:other" "lot",
    rfl, ?_⟩
  intro coherent
  have belongs := (coherent.belongs "urn:contract#egress" rfl).1
  have same := Json.str.inj (Option.some.inj belongs)
  exact absurd same (by decide)

end Coherence

end Rtm

end Cats
