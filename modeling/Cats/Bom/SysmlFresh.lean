import Cats.Bom.StableDocuments
import Cats.Bom.SysmlQuantum

/-!
# A compiled quantum is accepted when it is fresh

Sorting the elements of a package, and writing it with sorted keys, moves no
element to another type or name.  So the validator finds each usage of a
compiled package, and accepts it when the seven ids it reads are those that
were compiled in.
-/

namespace Cats

namespace Sysml

open Sbom ContentMesh Effect
open Rtm (ownedElements hashable nonblank?)
open BomRegistry (orNone)

section Elements

/-- The type and the name of an element. -/
def named (type name : String) (item : Fields) : Bool :=
  item.get? "@type" = some (.str type) && item.get? "name" = some (.str name)

/-- The one element of a type and a name. -/
def Only (type name : String) (elements : List Fields) (item : Fields) : Prop :=
  elements.filter (named type name) = [item]

/-- What the validator looks up in the elements of a compiled package. -/
structure Compiled (ids : Role → Option String) (elements : List Fields) :
    Prop where
  parts : ∀ item ∈ elements,
    item.get? "@type" = some (.str "sysml:PartDefinition") →
    ∃ name, item.get? "name" = some (.str name)
  listed : ∀ role ∈ partDefs, ∃ item ∈ elements,
    item.get? "@type" = some (.str "sysml:PartDefinition") ∧
      item.get? "name" = some (.str role.name)
  port : ∀ port : Port, ∃ item,
    Only "sysml:PortDefinition" port.name elements item ∧
      item.get? "ownedBy" = some (.str port.owner.name) ∧
      item.get? "ownedSide" = some (.str Port.side) ∧
      item.get? "adapterOn" = some (.str port.adapter.name) ∧
      item.get? "adapterSide" = some (.str Port.adapterSide)
  usage : ∀ role : Role, ∃ item,
    Only "sysml:PartUsage" role.name elements item ∧
      item.get? "contentId" = (ids role).map .str

theorem Only.perm {type name : String} {left right : List Fields}
    {item : Fields} (only : Only type name left item)
    (same : left.Perm right) : Only type name right item := by
  have filtered := same.filter (named type name)
  rw [only] at filtered
  exact List.perm_singleton.mp filtered.symm

theorem Compiled.perm {ids : Role → Option String} {left right : List Fields}
    (compiled : Compiled ids left) (same : left.Perm right) :
    Compiled ids right := by
  constructor
  · intro item member
    exact compiled.parts item (same.mem_iff.mpr member)
  · intro role part
    obtain ⟨item, member, found⟩ := compiled.listed role part
    exact ⟨item, same.mem_iff.mp member, found⟩
  · intro port
    obtain ⟨item, only, found⟩ := compiled.port port
    exact ⟨item, only.perm same, found⟩
  · intro role
    obtain ⟨item, only, found⟩ := compiled.usage role
    exact ⟨item, only.perm same, found⟩

/-- A change of the elements that moves no binding of theirs. -/
def Keeps (change : Fields → Fields) (elements : List Fields) : Prop :=
  ∀ item ∈ elements, ∀ key, (change item).get? key = item.get? key

theorem Only.map {type name : String} {elements : List Fields} {item : Fields}
    {change : Fields → Fields} (only : Only type name elements item)
    (keeps : Keeps change elements) :
    Only type name (elements.map change) (change item) := by
  unfold Only at only ⊢
  have same : ∀ item ∈ elements,
      (named type name ∘ change) item = named type name item := by
    intro item member
    simp only [Function.comp_apply, named, keeps item member]
  rw [List.filter_map, List.filter_congr same, only]
  rfl

theorem Only.mem {type name : String} {elements : List Fields} {item : Fields}
    (only : Only type name elements item) : item ∈ elements := by
  have member : item ∈ elements.filter (named type name) := by
    rw [only]
    exact List.mem_singleton_self item
  exact (List.mem_filter.mp member).1

theorem Only.lastNamed {type name : String} {elements : List Fields}
    {item : Fields} (only : Only type name elements item) :
    lastNamed type name elements = some item := by
  unfold Sysml.lastNamed
  show (elements.filter (named type name)).getLast? = some item
  rw [only]
  rfl

theorem Compiled.map {ids : Role → Option String} {elements : List Fields}
    {change : Fields → Fields} (compiled : Compiled ids elements)
    (keeps : Keeps change elements) :
    Compiled ids (elements.map change) := by
  constructor
  · intro changed member isPart
    obtain ⟨item, before, rfl⟩ := List.mem_map.mp member
    rw [keeps item before] at isPart ⊢
    exact compiled.parts item before isPart
  · intro role part
    obtain ⟨item, member, found⟩ := compiled.listed role part
    refine ⟨change item, List.mem_map_of_mem member, ?_⟩
    rw [keeps item member, keeps item member]
    exact found
  · intro port
    obtain ⟨item, only, found⟩ := compiled.port port
    refine ⟨change item, only.map keeps, ?_⟩
    simp only [keeps item only.mem]
    exact found
  · intro role
    obtain ⟨item, only, found⟩ := compiled.usage role
    refine ⟨change item, only.map keeps, ?_⟩
    rw [keeps item only.mem]
    exact found

end Elements

section Checks

variable {ids : Role → Option String} {elements : List Fields}

theorem mapM_hashable {items : List Fields}
    (texts : ∀ item ∈ items, ∃ name, item.get? "name" = some (.str name)) :
    (items.mapM fun item => hashable (orNone (item.get? "name"))) =
      .ok (items.map fun item => orNone (item.get? "name")) := by
  induction items with
  | nil => rfl
  | cons item items induction =>
      obtain ⟨name, text⟩ := texts item List.mem_cons_self
      have rest := induction fun other member =>
        texts other (List.mem_cons_of_mem _ member)
      have here : hashable (orNone (item.get? "name")) =
          .ok (orNone (item.get? "name")) := by
        rw [text]
        rfl
      rw [List.mapM_cons, here, rest]
      rfl

theorem Compiled.checkParts (compiled : Compiled ids elements) :
    checkParts elements = .ok () := by
  have texts : ∀ item ∈ elements.filter (fun item =>
      item.get? "@type" = some (.str "sysml:PartDefinition")),
      ∃ name, item.get? "name" = some (.str name) := by
    intro item member
    obtain ⟨inside, isPart⟩ := List.mem_filter.mp member
    exact compiled.parts item inside (of_decide_eq_true isPart)
  have complete : (partDefs.filter fun role =>
      !((elements.filter fun item =>
        item.get? "@type" = some (.str "sysml:PartDefinition")).map fun item =>
          orNone (item.get? "name")).contains (.str role.name)) = [] := by
    apply List.filter_eq_nil_iff.mpr
    intro role part
    obtain ⟨item, member, isPart, name⟩ := compiled.listed role part
    rw [Bool.not_eq_true, Bool.not_eq_false', List.contains_iff_mem]
    apply List.mem_map.mpr
    refine ⟨item, List.mem_filter.mpr ⟨member, decide_eq_true isPart⟩, ?_⟩
    rw [name]
    rfl
  unfold Sysml.checkParts
  rw [mapM_hashable texts]
  simp only [bind, Except.bind, complete]
  rfl

theorem Compiled.checkPort (compiled : Compiled ids elements) (port : Port) :
    checkPort elements port = .ok () := by
  obtain ⟨item, only, owner, side, adapter, adapterSide⟩ := compiled.port port
  unfold Sysml.checkPort
  rw [only.lastNamed]
  simp [owner, side, adapter, adapterSide]

/-- A usage passes when the id compiled in is the one expected. -/
theorem Compiled.checkUsage_iff (compiled : Compiled ids elements)
    (digests : ∀ role id, ids role = some id → ∃ digest, id = to_ni digest)
    (expected : Role → Option String) (role : Role) :
    (∃ got, checkUsage elements expected role = .ok got) ↔
      ∃ id, ids role = some id ∧ expected role = some id := by
  obtain ⟨item, only, contentId⟩ := compiled.usage role
  unfold checkUsage
  rw [only.lastNamed]
  simp only [contentId]
  cases compiledIn : ids role with
  | none => simp
  | some id =>
      obtain ⟨digest, rfl⟩ := digests role id compiledIn
      cases expects : expected role with
      | none => simp
      | some want =>
          by_cases same : to_ni digest = want
          · subst same
            simp [Option.filter, to_ni_ne_empty, Except.bind, bind]
          · have apart : ¬ ∃ id, some (to_ni digest) = some id ∧
                some want = some id := by
              rintro ⟨id, compiled, expected⟩
              rw [Option.some.inj compiled, Option.some.inj expected] at same
              exact same rfl
            simp only [apart, iff_false]
            by_cases empty : want = ""
            · simp [Option.filter, empty]
            · simp [Option.filter, empty, same, to_ni_ne_empty, Except.bind,
                bind]

theorem lift_run {α : Type} {result : Except Raised α} {value : α}
    (returned : result = .ok value) (machine : Machine) :
    Act.lift result machine = .ok value machine := by
  rw [returned]
  rfl

/-- The loop passes when each of its usages does. -/
theorem checkUsages_iff (expected : Role → Option String) (machine : Machine)
    (roles : List Role) :
    (∃ after, checkUsages elements expected none roles machine =
        .ok () after) ↔
      ∀ role ∈ roles, ∃ got, checkUsage elements expected role = .ok got := by
  induction roles with
  | nil =>
      constructor
      · intro _ role member
        cases member
      · intro _
        exact ⟨machine, rfl⟩
  | cons role roles induction =>
      rw [List.forall_mem_cons, ← induction]
      constructor
      · rintro ⟨after, ran⟩
        obtain ⟨got, middle, lifted, rest⟩ := bind_ok ran
        obtain ⟨passed, rfl⟩ := lift_ok lifted
        exact ⟨⟨got, passed⟩, after, rest⟩
      · rintro ⟨⟨got, passed⟩, after, rest⟩
        refine ⟨after, ?_⟩
        unfold checkUsages
        rw [bind_run_ok (lift_run passed machine)]
        exact rest

theorem Compiled.checkPorts (compiled : Compiled ids elements)
    (some : List Port) :
    some.forM (Sysml.checkPort elements) = (.ok () : Except Raised Unit) := by
  induction some with
  | nil => rfl
  | cons port rest induction =>
      show (Sysml.checkPort elements port >>= fun _ =>
        rest.forM (Sysml.checkPort elements)) = .ok ()
      rw [compiled.checkPort port]
      exact induction

/-- The validator accepts a compiled package exactly when it expects the ids
that were compiled in. -/
theorem Compiled.validate_iff {doc : Fields} {graph : OrderGraph}
    (compiled : Compiled ids (ownedElements doc))
    (isPackage : doc.get? "@type" = some (.str "sysml:Package"))
    (digests : ∀ role id, ids role = some id → ∃ digest, id = to_ni digest)
    (machine : Machine) :
    (∃ after, validate_sysml_quantum (.obj doc) graph none machine =
        .ok () after) ↔
      ∃ expected after, expected_usage_ids graph machine = .ok expected after ∧
        ∀ role, ∃ id, ids role = some id ∧ expected role = some id := by
  have accepts : ∀ expected middle,
      (∃ after, checkUsages (ownedElements doc) expected none usageRoles
        middle = .ok () after) ↔
      ∀ role, ∃ id, ids role = some id ∧ expected role = some id := by
    intro expected middle
    rw [checkUsages_iff]
    constructor
    · intro passed role
      have member : role ∈ usageRoles := by
        cases role <;> decide
      exact (compiled.checkUsage_iff digests expected role).mp
        (passed role member)
    · intro fresh role _
      exact (compiled.checkUsage_iff digests expected role).mpr (fresh role)
  have checked : validate_sysml_quantum (.obj doc) graph none machine =
      (expected_usage_ids graph >>= fun expected =>
        checkUsages (ownedElements doc) expected none usageRoles) machine := by
    unfold validate_sysml_quantum
    simp only [isPackage, ne_eq, not_true_eq_false, if_false]
    rw [bind_run_ok (lift_run compiled.checkParts machine),
      bind_run_ok (lift_run (compiled.checkPorts ports) machine)]
  rw [checked]
  constructor
  · rintro ⟨after, ran⟩
    obtain ⟨expected, middle, read, rest⟩ := bind_ok ran
    exact ⟨expected, middle, read, (accepts expected middle).mp ⟨after, rest⟩⟩
  · rintro ⟨expected, middle, read, fresh⟩
    obtain ⟨after, rest⟩ := (accepts expected middle).mpr fresh
    refine ⟨after, ?_⟩
    rw [bind_run_ok read]
    exact rest

end Checks

section Compiling

/-- A canonical id is that of a digest. -/
theorem require_ni_digest {content_id label id : String}
    (read : require_ni content_id label = .ok id) :
    ∃ digest, id = to_ni digest := by
  have canonical : ∀ {text : String}, is_ni_or_digest text = true →
      equality_id text = .ok id → ∃ digest, id = to_ni digest := by
    intro text isDigest read
    unfold equality_id at read
    simp only [is_ni_or_digest_strip, isDigest, if_true] at read
    obtain ⟨digest, -, rfl⟩ := map_eq_ok.mp read
    exact ⟨digest, rfl⟩
  unfold require_ni at read
  simp only at read
  split at read
  · cases read
  · split at read
    · obtain ⟨found, -, read⟩ := Raised.bind_returns read
      split at read
      · split at read
        · rename_i isDigest
          exact canonical isDigest read
        · cases read
      · cases read
    · split at read
      · rename_i isDigest
        exact canonical isDigest read
      · cases read

theorem optional_ni_digest {token : Option String} {label id : String}
    (read : optional_ni token label = some id) :
    ∃ digest, id = to_ni digest := by
  cases token with
  | none => cases read
  | some token =>
      unfold optional_ni at read
      cases required : require_ni token label with
      | error raised =>
          simp only [required] at read
          cases read
      | ok found =>
          simp only [required] at read
          cases read
          exact require_ni_digest required

theorem usageIds_digest {order_id : Option String} {slots : SlotIds}
    (quantum : ∀ id, order_id = some id → ∃ digest, id = to_ni digest)
    (role : Role) (id : String)
    (found : slots.usageIds order_id role = some id) :
    ∃ digest, id = to_ni digest := by
  cases role with
  | quantum => exact quantum id found
  | function => exact optional_ni_digest found
  | process => exact optional_ni_digest found
  | infrafunction => exact optional_ni_digest found
  | struct => exact optional_ni_digest found
  | plant => exact optional_ni_digest found
  | infrastructure => exact optional_ni_digest found

def purlOf (role id : String) : String := s!"pkg:generic/cats/{role}@{id}"

/-- The catalog number of a canonical id, for the roles that have one. -/
def purlFields (role : Role) (id : String) : Fields :=
  match role with
  | .function => [("purl", .str (purlOf "function" id))]
  | .struct => [("purl", .str (purlOf "structure" id))]
  | _ => []

theorem usagePurl_to_ni (role : Role) (digest : Digest) :
    usagePurl role (to_ni digest) = .ok (purlFields role (to_ni digest)) := by
  cases role with
  | function =>
      show (cats_purl "function" (to_ni digest) >>= _) = _
      rw [cats_purl_to_ni]
      rfl
  | struct =>
      show (cats_purl "structure" (to_ni digest) >>= _) = _
      rw [cats_purl_to_ni]
      rfl
  | _ => rfl

/-- What a usage made of a canonical id is. -/
def usageOf (base : String) (role : Role) (id : Option String) : Fields :=
  match id with
  | some id =>
      usageHead base role ++ ("contentId", .str id) :: purlFields role id
  | none => usageHead base role

theorem usageElement_eq (base : String) (role : Role) {id : Option String}
    (digests : ∀ text, id = some text → ∃ digest, text = to_ni digest) :
    usageElement base role id = .ok (usageOf base role id) := by
  cases id with
  | none => rfl
  | some text =>
      obtain ⟨digest, rfl⟩ := digests text rfl
      have present : (some (to_ni digest)).filter (· ≠ "") =
          some (to_ni digest) := by
        simp [Option.filter, to_ni_ne_empty]
      unfold usageElement
      rw [present]
      show (usagePurl role (to_ni digest) >>= _) = _
      rw [usagePurl_to_ni]
      rfl

theorem mapM_usages (base : String) {ids : Role → Option String}
    (digests : ∀ role text, ids role = some text →
      ∃ digest, text = to_ni digest) (roles : List Role) :
    (roles.mapM fun role => usageElement base role (ids role)) =
      .ok (roles.map fun role => usageOf base role (ids role)) := by
  induction roles with
  | nil => rfl
  | cons role roles induction =>
      rw [List.mapM_cons, usageElement_eq base role (digests role), induction]
      rfl

/-- The elements before they are sorted. -/
def elementsOf (base : String) (ids : Role → Option String) : List Fields :=
  partDefs.map (partElement base) ++ ports.map (portElement base) ++
    usageRoles.map fun role => usageOf base role (ids role)

theorem usageOf_type (base : String) (role : Role) (id : Option String) :
    (usageOf base role id).get? "@type" = some (.str "sysml:PartUsage") := by
  cases id <;> rfl

theorem usageOf_name (base : String) (role : Role) (id : Option String) :
    (usageOf base role id).get? "name" = some (.str role.name) := by
  cases id <;> rfl

theorem usageOf_contentId (base : String) (role : Role)
    (id : Option String) :
    (usageOf base role id).get? "contentId" = id.map .str := by
  cases id <;> rfl

section Filters

variable {α : Type} {make : α → Fields} {type other name : String}

theorem filter_other
    (types : ∀ item, (make item).get? "@type" = some (.str other))
    (apart : other ≠ type) {items : List α} :
    (items.map make).filter (named type name) = [] := by
  apply List.filter_eq_nil_iff.mpr
  intro element member
  obtain ⟨item, -, rfl⟩ := List.mem_map.mp member
  simp [named, types, apart]

theorem filter_same {label : α → String}
    (types : ∀ item, (make item).get? "@type" = some (.str type))
    (names : ∀ item, (make item).get? "name" = some (.str (label item)))
    {items : List α} :
    (items.map make).filter (named type name) =
      (items.filter fun item => label item = name).map make := by
  rw [List.filter_map]
  congr 1
  apply List.filter_congr
  intro item _
  simp [named, types, names]

end Filters

/-- The usages of a name are those of its role. -/
theorem filter_roles (role : Role) :
    usageRoles.filter (fun other => other.name = role.name) = [role] := by
  cases role <;> decide

theorem filter_ports (port : Port) :
    ports.filter (fun other => other.name = port.name) = [port] := by
  cases port <;> decide

theorem compiled_elementsOf (base : String) (ids : Role → Option String) :
    Compiled ids (elementsOf base ids) := by
  have partType : ∀ role, (partElement base role).get? "@type" =
      some (.str "sysml:PartDefinition") := fun _ => rfl
  have partName : ∀ role, (partElement base role).get? "name" =
      some (.str role.name) := fun _ => rfl
  have portType : ∀ port, (portElement base port).get? "@type" =
      some (.str "sysml:PortDefinition") := fun _ => rfl
  have portName : ∀ port, (portElement base port).get? "name" =
      some (.str port.name) := fun _ => rfl
  constructor
  · intro item member isPart
    rcases List.mem_append.mp member with defs | usage
    · rcases List.mem_append.mp defs with part | port
      · obtain ⟨role, -, rfl⟩ := List.mem_map.mp part
        exact ⟨role.name, partName role⟩
      · obtain ⟨other, -, rfl⟩ := List.mem_map.mp port
        exact ⟨other.name, portName other⟩
    · obtain ⟨role, -, rfl⟩ := List.mem_map.mp usage
      exact ⟨role.name, usageOf_name base role _⟩
  · intro role part
    refine ⟨partElement base role, ?_, partType role, partName role⟩
    unfold elementsOf
    rw [List.append_assoc]
    exact List.mem_append_left _ (List.mem_map_of_mem part)
  · intro port
    refine ⟨portElement base port, ?_, rfl, rfl, rfl, rfl⟩
    unfold Only elementsOf
    rw [List.filter_append, List.filter_append,
      filter_other partType (by decide), filter_same portType portName,
      filter_other (fun role => usageOf_type base role _) (by decide),
      filter_ports]
    rfl
  · intro role
    refine ⟨usageOf base role (ids role), ?_, usageOf_contentId base role _⟩
    unfold Only elementsOf
    rw [List.filter_append, List.filter_append,
      filter_other partType (by decide), filter_other portType (by decide),
      filter_same (fun role => usageOf_type base role _)
        (fun role => usageOf_name base role _), filter_roles]
    rfl

/-- The elements of a list of dicts. -/
theorem filterMap_obj (elements : List Fields) :
    (elements.map Json.obj).filterMap Json.fields? = elements := by
  rw [List.filterMap_map]
  exact List.filterMap_some

theorem quantum_sysml_compiled {order_id created : String} {slots : SlotIds}
    {doc : Fields} (built : quantum_sysml order_id slots created = .ok doc) :
    ∃ digest, require_ni order_id "order_id" = .ok (to_ni digest) ∧
      doc.get? "@type" = some (.str "sysml:Package") ∧
      (ownedElements doc).Perm
        (elementsOf (projection_urn "sysml" (to_ni digest))
          (slots.usageIds (some (to_ni digest)))) := by
  unfold quantum_sysml at built
  obtain ⟨order_ni, required, built⟩ := Raised.bind_returns built
  obtain ⟨digest, rfl⟩ := require_ni_digest required
  have quantum : ∀ id, some (to_ni digest) = some id →
      ∃ digest, id = to_ni digest := fun _ same =>
    ⟨digest, (Option.some.inj same).symm⟩
  simp only [mapM_usages _ (usageIds_digest quantum)] at built
  obtain ⟨_, same, built⟩ := Raised.bind_returns built
  cases same
  cases built
  refine ⟨digest, required, rfl, ?_⟩
  have sorted := sortedBy_perm_self elementId
    ((elementsOf (projection_urn "sysml" (to_ni digest))
      (slots.usageIds (some (to_ni digest)))).map Json.obj)
  have owned := sorted.filterMap Json.fields?
  rw [filterMap_obj] at owned
  exact owned

/-- An element has each key once, and only texts. -/
structure Textual (item : Fields) : Prop where
  nodup : item.keys.Nodup
  texts : ∀ field ∈ item, ∃ text, field.2 = .str text

theorem Textual.sorted {item : Fields} (textual : Textual item)
    (key : String) :
    Fields.get? (Json.sortKeysFields item) key = item.get? key := by
  rw [Json.get?_sortKeysFields textual.nodup]
  cases found : item.get? key with
  | none => rfl
  | some value =>
      obtain ⟨text, same⟩ := textual.texts (key, value)
        (Fields.mem_of_get? found)
      simp only at same
      rw [same]
      rfl

theorem textual_elementsOf (base : String) (ids : Role → Option String) :
    ∀ item ∈ elementsOf base ids, Textual item := by
  intro item member
  rcases List.mem_append.mp member with defs | usage
  · rcases List.mem_append.mp defs with part | port
    · obtain ⟨role, -, rfl⟩ := List.mem_map.mp part
      constructor
      · show ["@id", "@type", "name"].Nodup
        decide
      · simp [partElement]
    · obtain ⟨other, -, rfl⟩ := List.mem_map.mp port
      constructor
      · show ["@id", "@type", "adapterOn", "adapterSide", "name", "ownedBy",
          "ownedSide"].Nodup
        decide
      · simp [portElement]
  · obtain ⟨role, -, rfl⟩ := List.mem_map.mp usage
    cases ids role with
    | none =>
        constructor
        · show ["@id", "@type", "definition", "name"].Nodup
          decide
        · simp [usageOf, usageHead]
    | some id =>
        constructor
        · have keys : (usageOf base role (some id)).keys =
              ["@id", "@type", "definition", "name", "contentId"] ++
                (purlFields role id).keys := rfl
          rw [keys]
          cases role with
          | function =>
              show ["@id", "@type", "definition", "name", "contentId",
                "purl"].Nodup
              decide
          | struct =>
              show ["@id", "@type", "definition", "name", "contentId",
                "purl"].Nodup
              decide
          | _ =>
              show ["@id", "@type", "definition", "name", "contentId"].Nodup
              decide
        · cases role <;> simp [usageOf, usageHead, purlFields]

end Compiling

section Laws

/-- The document as it is read back from the bytes that are put: with sorted
keys. -/
def stored (doc : Fields) : Fields := Json.sortKeysFields doc

theorem quantum_sysml_returns {order_id : String} {slots : SlotIds}
    {order_ni : String} (required : require_ni order_id "order_id" =
      .ok order_ni) (created : String) :
    ∃ doc, quantum_sysml order_id slots created = .ok doc := by
  obtain ⟨digest, rfl⟩ := require_ni_digest required
  have quantum : ∀ id, some (to_ni digest) = some id →
      ∃ digest, id = to_ni digest := fun _ same =>
    ⟨digest, (Option.some.inj same).symm⟩
  unfold quantum_sysml
  rw [required]
  simp only [bind, Except.bind, mapM_usages _ (usageIds_digest quantum)]
  exact ⟨_, rfl⟩

theorem wellFormed_textual {item : Fields} (textual : Textual item) :
    (Json.obj item).wellFormed = true := by
  apply Json.wellFormed_obj_iff.mpr
  refine ⟨textual.nodup, ?_⟩
  intro field member
  obtain ⟨text, same⟩ := textual.texts field member
  rw [same]
  rfl

theorem wellFormed_items {items : List Json}
    (valid : ∀ item ∈ items, item.wellFormed = true) :
    Json.wellFormedItems items = true := by
  induction items with
  | nil => rfl
  | cons item items induction =>
      simp only [Json.wellFormedItems, Bool.and_eq_true]
      constructor
      · exact valid item List.mem_cons_self
      · exact induction fun other member =>
          valid other (List.mem_cons_of_mem _ member)

/-- A package with its elements. -/
def packageOf (base created : String) (items : List Json) : Fields :=
  [("@context", .obj sysmlContext), ("@id", .str base),
    ("@type", .str "sysml:Package"), ("created", .str created),
    ("name", .str "ArchitecturalQuantum"), ("ownedElement", .arr items)]

theorem quantum_sysml_shape {order_id created : String} {slots : SlotIds}
    {doc : Fields} (built : quantum_sysml order_id slots created = .ok doc) :
    ∃ base items, doc = packageOf base created items ∧
      ∀ item ∈ items, ∃ element, item = .obj element := by
  unfold quantum_sysml at built
  obtain ⟨order_ni, -, built⟩ := Raised.bind_returns built
  obtain ⟨usages, -, built⟩ := Raised.bind_returns built
  cases built
  refine ⟨_, _, rfl, ?_⟩
  intro item member
  obtain ⟨element, -, rfl⟩ :=
    List.mem_map.mp ((sortedBy_perm_self elementId _).mem_iff.mp member)
  exact ⟨element, rfl⟩

theorem filterMap_sorted (items : List Json) :
    (Json.sortKeysItems items).filterMap Json.fields? =
      (items.filterMap Json.fields?).map Json.sortKeysFields := by
  induction items with
  | nil => rfl
  | cons item items induction =>
      cases item with
      | obj fields =>
          show Json.sortKeysFields fields ::
            (Json.sortKeysItems items).filterMap Json.fields? = _
          rw [induction]
          rfl
      | _ => exact induction

/-- A document that was built is written and read back with sorted keys. -/
theorem quantum_sysml_stored {order_id created : String} {slots : SlotIds}
    {doc : Fields} (built : quantum_sysml order_id slots created = .ok doc) :
    readJson (mintedBytes (Json.obj doc).sortKeys) = .ok (.obj (stored doc)) ∧
      (stored doc).get? "@type" = doc.get? "@type" ∧
      ownedElements (stored doc) =
        (ownedElements doc).map Json.sortKeysFields ∧
      ∀ item ∈ ownedElements doc, Textual item := by
  obtain ⟨digest, required, isPackage, owned⟩ := quantum_sysml_compiled built
  have textual : ∀ item ∈ ownedElements doc, Textual item := fun item member =>
    textual_elementsOf _ _ item (owned.mem_iff.mp member)
  obtain ⟨base, items, rfl, dicts⟩ := quantum_sysml_shape built
  have nodup : Fields.keys (packageOf base created items) |>.Nodup := by
    show ["@context", "@id", "@type", "created", "name",
      "ownedElement"].Nodup
    decide
  refine ⟨?_, ?_, ?_, textual⟩
  · show readJson (mintedBytes
      (.obj (Json.sortKeysFields (packageOf base created items)))) = _
    apply readJson_mintedBytes
    apply Json.wellFormed_sortKeys (.obj (packageOf base created items))
    apply Json.wellFormed_obj_iff.mpr
    refine ⟨nodup, ?_⟩
    have elements : Json.wellFormedItems items = true := by
      apply wellFormed_items
      intro item member
      obtain ⟨element, rfl⟩ := dicts item member
      apply wellFormed_textual
      apply textual
      exact List.mem_filterMap.mpr ⟨_, member, rfl⟩
    intro field member
    simp only [packageOf, List.mem_cons, List.not_mem_nil, or_false] at member
    rcases member with rfl | rfl | rfl | rfl | rfl | rfl
    · decide
    · rfl
    · rfl
    · rfl
    · rfl
    · exact elements
  · rw [stored, Json.get?_sortKeysFields nodup]
    rfl
  · unfold ownedElements
    rw [stored, Json.get?_sortKeysFields nodup]
    exact filterMap_sorted items

/-- The slots both sides read. -/
def OrderGraph.slots (graph : OrderGraph) : List (Fields × String) :=
  [(graph.order, "function"), (graph.function, "process"),
    (graph.function, "infrafunction"), (graph.order, "structure"),
    (graph.struct, "plant"), (graph.struct, "infrastructure")]

/-- Reading the slots registers no locator: there is no home, or no slot holds
a hashlink. -/
def OrderGraph.Steady (graph : OrderGraph) (machine : Machine) : Prop :=
  machine.home = none ∨ ∀ slot ∈ graph.slots, ∀ uri,
    ref_uri slot.1 slot.2 = some uri → is_hl uri = false

/-- The ids that the validator reads are there and those compiled in. -/
def Agrees (ids : Role → Option String) (other : OrderGraph)
    (machine : Machine) : Prop :=
  ∃ found after, expected_usage_ids other machine = .ok found after ∧
    ∀ role, ∃ id, ids role = some id ∧ found role = some id

/-- What the validator makes of a compiled package, and of the package it is
stored as. -/
structure FreshLaws (graph : OrderGraph) (created : String)
    (start : Machine) : Prop where
  accepts : ∀ doc compiled,
    project_sysml_quantum graph created start = .ok doc compiled →
    readJson (mintedBytes (Json.obj doc).sortKeys) = .ok (.obj (stored doc)) ∧
    ∃ ids, expected_usage_ids graph start = .ok ids compiled ∧
      ∀ document ∈ [doc, stored doc], ∀ other machine,
        (∃ after, validate_sysml_quantum (.obj document) other none machine =
          .ok () after) ↔ Agrees ids other machine
  own : graph.Steady start →
    ((∃ doc compiled after,
        project_sysml_quantum graph created start = .ok doc compiled ∧
        validate_sysml_quantum (.obj doc) graph none compiled =
          .ok () after) ↔
      ∃ ids after, expected_usage_ids graph start = .ok ids after ∧
        ∀ role, ∃ id, ids role = some id)

theorem refId_same {fields : Fields} {stem : String} {id : Option String}
    {machine : Machine}
    (read : ref_id (machine.home.map Home.index) fields stem =
      .ok (id, machine.home.map Home.index)) :
    refId fields stem machine = .ok id machine := by
  unfold refId Act.withIndex
  rw [bind_run_ok (get_run machine), bind_run_ok (lift_run read machine)]
  obtain ⟨home, disk, writes, gets⟩ := machine
  cases home with
  | none => rfl
  | some home => rfl

/-- A slot that is no hashlink, or read without a home, is read without a
trace. -/
theorem refId_steady {fields : Fields} {stem : String} {id : Option String}
    {machine after : Machine}
    (steady : machine.home = none ∨
      ∀ uri, ref_uri fields stem = some uri → is_hl uri = false)
    (ran : refId fields stem machine = .ok id after) : after = machine := by
  obtain ⟨slot, rfl, index, -⟩ := refId_ok ran
  have kept : slot.left = slot.index := by
    obtain ⟨uri, ni, hints, cited, hashlink, -, -, some⟩ | ⟨same, -⟩ :=
      ref_id_cases slot.read
    · rcases steady with homeless | plain
      · rw [index, homeless] at some ⊢
        simpa using some
      · rw [plain uri cited] at hashlink
        cases hashlink
    · exact same
  have read := slot.read
  rw [kept, index] at read
  rw [refId_same read] at ran
  exact (EStateM.Result.ok.inj ran).2.symm

theorem slotIds_steady {graph : OrderGraph} {slots : SlotIds}
    {machine after : Machine} (steady : graph.Steady machine)
    (ran : slotIds graph machine = .ok slots after) : after = machine := by
  have plain : ∀ fields stem, (fields, stem) ∈ graph.slots →
      machine.home = none ∨
        ∀ uri, ref_uri fields stem = some uri → is_hl uri = false := by
    intro fields stem member
    rcases steady with homeless | all
    · exact .inl homeless
    · exact .inr (all (fields, stem) member)
  unfold slotIds at ran
  obtain ⟨_, _, read, ran⟩ := bind_ok ran
  rw [refId_steady (plain _ _ (by simp [OrderGraph.slots])) read] at ran
  obtain ⟨_, _, read, ran⟩ := bind_ok ran
  rw [refId_steady (plain _ _ (by simp [OrderGraph.slots])) read] at ran
  obtain ⟨_, _, read, ran⟩ := bind_ok ran
  rw [refId_steady (plain _ _ (by simp [OrderGraph.slots])) read] at ran
  obtain ⟨_, _, read, ran⟩ := bind_ok ran
  rw [refId_steady (plain _ _ (by simp [OrderGraph.slots])) read] at ran
  obtain ⟨_, _, read, ran⟩ := bind_ok ran
  rw [refId_steady (plain _ _ (by simp [OrderGraph.slots])) read] at ran
  obtain ⟨_, _, read, ran⟩ := bind_ok ran
  rw [refId_steady (plain _ _ (by simp [OrderGraph.slots])) read] at ran
  exact (EStateM.Result.ok.inj ran).2.symm

theorem expected_usage_ids_ok {graph : OrderGraph} {machine after : Machine}
    {ids : Role → Option String}
    (read : expected_usage_ids graph machine = .ok ids after) :
    ∃ slots, slotIds graph machine = .ok slots after ∧
      ids = slots.usageIds (optional_ni (some graph.order_id) "order_id") := by
  obtain ⟨slots, middle, ran, put⟩ := bind_ok read
  obtain ⟨rfl, rfl⟩ := EStateM.Result.ok.inj put
  exact ⟨slots, ran, rfl⟩

theorem expected_usage_ids_of {graph : OrderGraph} {machine after : Machine}
    {slots : SlotIds} (ran : slotIds graph machine = .ok slots after) :
    expected_usage_ids graph machine =
      .ok (slots.usageIds (optional_ni (some graph.order_id) "order_id"))
        after := by
  unfold expected_usage_ids
  rw [bind_run_ok ran]
  rfl

theorem optional_ni_of {token label id : String}
    (required : require_ni token label = .ok id) :
    optional_ni (some token) label = some id := by
  show (require_ni token label).toOption = some id
  rw [required]
  rfl

theorem sysml_accepts {graph : OrderGraph} {created : String}
    {start compiled : Machine} {doc : Fields}
    (built : project_sysml_quantum graph created start = .ok doc compiled) :
    readJson (mintedBytes (Json.obj doc).sortKeys) = .ok (.obj (stored doc)) ∧
    ∃ ids, expected_usage_ids graph start = .ok ids compiled ∧
      ∀ document ∈ [doc, stored doc], ∀ other machine,
        (∃ after, validate_sysml_quantum (.obj document) other none machine =
          .ok () after) ↔ Agrees ids other machine := by
  obtain ⟨slots, middle, ran, lifted⟩ := bind_ok built
  obtain ⟨made, rfl⟩ := lift_ok lifted
  obtain ⟨digest, required, isPackage, owned⟩ := quantum_sysml_compiled made
  obtain ⟨reads, sameType, sameElements, textual⟩ := quantum_sysml_stored made
  have ids := expected_usage_ids_of ran
  rw [optional_ni_of required] at ids
  have digests : ∀ role id, slots.usageIds (some (to_ni digest)) role = some id →
      ∃ digest, id = to_ni digest := by
    apply usageIds_digest
    intro id same
    exact ⟨digest, (Option.some.inj same).symm⟩
  have whole := (compiled_elementsOf (projection_urn "sysml" (to_ni digest))
    (slots.usageIds (some (to_ni digest)))).perm owned.symm
  have sorted : Compiled (slots.usageIds (some (to_ni digest)))
      (ownedElements (stored doc)) := by
    rw [sameElements]
    exact whole.map fun item member key => (textual item member).sorted key
  refine ⟨reads, _, ids, ?_⟩
  intro document member other machine
  rcases List.mem_cons.mp member with rfl | member
  · exact whole.validate_iff isPackage digests machine
  · rw [List.mem_singleton.mp member]
    exact sorted.validate_iff (sameType.trans isPackage) digests machine

theorem sysml_own {graph : OrderGraph} {created : String} {start : Machine}
    (steady : graph.Steady start) :
    (∃ doc compiled after,
      project_sysml_quantum graph created start = .ok doc compiled ∧
      validate_sysml_quantum (.obj doc) graph none compiled = .ok () after) ↔
    ∃ ids after, expected_usage_ids graph start = .ok ids after ∧
      ∀ role, ∃ id, ids role = some id := by
  constructor
  · rintro ⟨doc, compiled, after, built, accepted⟩
    obtain ⟨-, ids, read, accepts⟩ := sysml_accepts built
    obtain ⟨found, later, -, fresh⟩ :=
      (accepts doc List.mem_cons_self graph compiled).mp ⟨after, accepted⟩
    refine ⟨ids, compiled, read, ?_⟩
    intro role
    obtain ⟨id, present, -⟩ := fresh role
    exact ⟨id, present⟩
  · rintro ⟨ids, compiled, read, present⟩
    obtain ⟨slots, ran, rfl⟩ := expected_usage_ids_ok read
    obtain ⟨order_ni, quantum⟩ := present .quantum
    have required : require_ni graph.order_id "order_id" = .ok order_ni := by
      have quantum : (require_ni graph.order_id "order_id").toOption =
          some order_ni := quantum
      cases required : require_ni graph.order_id "order_id" with
      | error raised =>
          rw [required] at quantum
          cases quantum
      | ok found =>
          rw [required] at quantum
          cases quantum
          rfl
    obtain ⟨doc, made⟩ := quantum_sysml_returns required created
    have built : project_sysml_quantum graph created start =
        .ok doc compiled := by
      unfold project_sysml_quantum
      rw [bind_run_ok ran]
      exact lift_run made compiled
    have unchanged := slotIds_steady steady ran
    obtain ⟨-, found, read', accepts⟩ := sysml_accepts built
    rw [read] at read'
    obtain ⟨rfl, -⟩ := EStateM.Result.ok.inj read'
    obtain ⟨after, accepted⟩ :=
      (accepts doc List.mem_cons_self graph compiled).mpr
        ⟨_, compiled, by rw [unchanged] at read ⊢; exact read, fun role => by
          obtain ⟨id, same⟩ := present role
          exact ⟨id, same, same⟩⟩
    exact ⟨doc, compiled, after, built, accepted⟩

/-- A compiled package is accepted exactly when it is fresh. -/
theorem sysml_fresh (graph : OrderGraph) (created : String)
    (start : Machine) : FreshLaws graph created start := by
  constructor
  · intro doc compiled built
    exact sysml_accepts built
  · intro steady
    exact sysml_own steady

end Laws

section Drift

theorem oldDigest_valid :
    isHexSha256 (String.ofList (List.replicate 64 'a')) = true := by
  decide

def oldDigest : Digest :=
  ⟨String.ofList (List.replicate 64 'a'), oldDigest_valid⟩

def newDigest : Digest := ⟨String.ofList (List.replicate 64 'b'), by decide⟩

def functionUri : String := "http://n/f"

/-- An Order that cites its Function by a locator that spells no id, and by an
id; the Function cites its Process by a hashlink that hints at that locator. -/
def drifting : OrderGraph where
  order_id := to_ni oldDigest
  order := [("function_uri", .str functionUri),
    ("function_cid", .str (to_ni oldDigest)),
    ("structure_uri", .str (to_ni oldDigest))]
  function := [("process_uri", .str (hashlinkWith newDigest functionUri)),
    ("infrafunction_uri", .str (to_ni oldDigest))]
  struct := [("plant_uri", .str (to_ni oldDigest)),
    ("infrastructure_uri", .str (to_ni oldDigest))]

/-- A Node with these locators. -/
def indexed (rows : List LocatorRow) : Machine :=
  ⟨some { bareHome with index := .ofRows rows }, fun _ => none, [], 0⟩

/-- The hint registered. -/
def hinted (rows : List LocatorRow) : List LocatorRow :=
  LocatorTable.register (digestRow newDigest) functionUri none rows

theorem functionUri_plain : is_http_uri functionUri = true ∧
    is_hl functionUri = false ∧ Url.path functionUri = .ok "/f" ∧
    ldpContentKey? "/f" = none ∧ Text.strip functionUri = functionUri ∧
    functionUri ≠ "" ∧ '\n' ∉ functionUri.toList ∧
    functionUri.toList.getLast?.all (fun character =>
      !Text.isSpace character) = true := by
  decide +kernel

theorem ref_uri_of {fields : Fields} {stem text : String}
    (found : fields.get? (uri_field_name stem) = some (.str text))
    (bare : Text.strip text = text) (nonempty : text ≠ "") :
    ref_uri fields stem = some text := by
  unfold ref_uri
  simp only [found, bare, nonempty, if_false]

theorem ref_id_to_ni {fields : Fields} {stem : String} {digest : Digest}
    (index : Option LocatorIndex)
    (found : fields.get? (uri_field_name stem) = some (.str (to_ni digest))) :
    ref_id index fields stem = .ok (some (to_ni digest), index) := by
  obtain ⟨notHttp, notHl, named⟩ := notUri_of_from_ni (from_ni_to_ni digest)
  have cited := ref_uri_of found (strip_to_ni digest) (to_ni_ne_empty digest)
  unfold ref_id
  simp only [cited, notHl, notHttp, Bool.false_eq_true, if_false, equalityOr,
    strip_to_ni, named, if_true, equality_id_to_ni]
  rfl

theorem refId_to_ni {fields : Fields} {stem : String} {digest : Digest}
    (rows : List LocatorRow)
    (found : fields.get? (uri_field_name stem) = some (.str (to_ni digest))) :
    refId fields stem (indexed rows) =
      .ok (some (to_ni digest)) (indexed rows) :=
  refId_same (ref_id_to_ni _ found)

theorem refId_process (rows : List LocatorRow) :
    refId drifting.function "process" (indexed rows) =
      .ok (some (to_ni newDigest)) (indexed (hinted rows)) := by
  obtain ⟨http, -, -, -, -, nonempty, oneLine, ends⟩ := functionUri_plain
  have last : ∀ character ∈ functionUri.toList.getLast?,
      Text.isSpace character = false := by
    intro character member
    rw [Option.mem_def] at member
    rw [member] at ends
    simpa using ends
  obtain ⟨stripped, linked, -⟩ :=
    from_hl_hashlinkWith newDigest nonempty oneLine last
  have present : hashlinkWith newDigest functionUri ≠ "" := by
    intro empty
    have text := toList_hashlinkWith newDigest functionUri
    rw [empty] at text
    exact nomatch text
  have cited : ref_uri drifting.function "process" =
      some (hashlinkWith newDigest functionUri) :=
    ref_uri_of (by rfl) stripped present
  have read : ref_id ((indexed rows).home.map Home.index) drifting.function
      "process" = .ok (some (to_ni newDigest),
        some (.ofRows (hinted rows))) := by
    show ref_id (some (.ofRows rows)) drifting.function "process" = _
    unfold ref_id
    simp only [cited, linked, if_true,
      resolve_intake_ref_hashlink rows http nonempty oneLine last]
    rfl
  unfold refId Act.withIndex
  rw [bind_run_ok (get_run (indexed rows)), bind_run_ok (lift_run read _)]
  rfl

theorem content_id_from_functionUri (index : LocatorIndex) :
    content_id_from_uri (some index) functionUri =
      registeredId (some index) functionUri := by
  obtain ⟨http, -, path, noKey, stripped, nonempty, -, -⟩ := functionUri_plain
  unfold content_id_from_uri
  simp only [nonempty, http, stripped, path, noKey, Bool.not_true,
    Bool.or_false, decide_false, Bool.false_eq_true, if_false, bind,
    Except.bind]

theorem function_cited : ref_uri drifting.order "function" =
    some functionUri := by
  obtain ⟨-, -, -, -, stripped, nonempty, -, -⟩ := functionUri_plain
  exact ref_uri_of (by rfl) stripped nonempty

/-- Before the hint is registered the Function is what its id says. -/
theorem refId_function_before :
    refId drifting.order "function" (indexed []) =
      .ok (some (to_ni oldDigest)) (indexed []) := by
  obtain ⟨http, notHl, -⟩ := functionUri_plain
  have unknown : registeredId (some (.ofRows [])) functionUri = .ok none := by
    unfold registeredId
    simp only [LocatorTable.find_content_id_for_uri_ofRows, List.find?_nil,
      Option.map_none, ite_self, bind, Except.bind]
  have legacy : legacyId drifting.order "function" =
      .ok (some (to_ni oldDigest)) := by
    have found : Fields.get? drifting.order (cid_field_name "function") =
        some (.str (to_ni oldDigest)) := by rfl
    unfold legacyId
    simp only [found, strip_to_ni, to_ni_ne_empty, if_false, equalityOr,
      is_ni_or_digest_to_ni, if_true, equality_id_to_ni]
    rfl
  apply refId_same
  show ref_id (some (.ofRows [])) drifting.order "function" = _
  unfold ref_id
  simp only [function_cited, notHl, http, Bool.false_eq_true, if_false,
    if_true, content_id_from_functionUri, unknown, legacy, bind, Except.bind]
  rfl

/-- And afterwards what the hint says. -/
theorem refId_function_after :
    refId drifting.order "function" (indexed (hinted [])) =
      .ok (some (to_ni newDigest)) (indexed (hinted [])) := by
  obtain ⟨http, notHl, -, -, stripped, nonempty, -, -⟩ := functionUri_plain
  have known : registeredId (some (.ofRows (hinted []))) functionUri =
      .ok (some (to_ni newDigest)) := by
    have found : (LocatorIndex.ofRows (hinted [])).find_content_id_for_uri
        functionUri = .ok (some (to_ni newDigest)) := by
      rw [LocatorTable.find_content_id_for_uri_ofRows, stripped,
        if_neg nonempty]
      simp [hinted, LocatorTable.register, LocatorRow.add, digestRow,
        LocatorTable.blank]
    unfold registeredId
    simp only [found, bind, Except.bind, to_ni_ne_empty, if_false, equalityOr,
      is_ni_or_digest_to_ni, if_true, equality_id_to_ni]
    rfl
  apply refId_same
  show ref_id (some (.ofRows (hinted []))) drifting.order "function" = _
  unfold ref_id
  simp only [function_cited, notHl, http, Bool.false_eq_true, if_false,
    if_true, content_id_from_functionUri, known, bind, Except.bind]
  rfl

/-- The ids read when the Function is this one. -/
def driftingIds (function_id : Digest) : SlotIds :=
  ⟨some (to_ni function_id), some (to_ni newDigest), some (to_ni oldDigest),
    some (to_ni oldDigest), some (to_ni oldDigest), some (to_ni oldDigest)⟩

theorem slotIds_drifting {rows : List LocatorRow} {function_id : Digest}
    (function : refId drifting.order "function" (indexed rows) =
      .ok (some (to_ni function_id)) (indexed rows)) :
    slotIds drifting (indexed rows) =
      .ok (driftingIds function_id) (indexed (hinted rows)) := by
  unfold slotIds
  have infrafunction := @refId_to_ni drifting.function "infrafunction" oldDigest
    (hinted rows) (by rfl)
  have struct := @refId_to_ni drifting.order "structure" oldDigest
    (hinted rows) (by rfl)
  have plant := @refId_to_ni drifting.struct "plant" oldDigest
    (hinted rows) (by rfl)
  have infrastructure := @refId_to_ni drifting.struct "infrastructure" oldDigest
    (hinted rows) (by rfl)
  rw [bind_run_ok function, bind_run_ok (refId_process rows),
    bind_run_ok infrafunction, bind_run_ok struct, bind_run_ok plant,
    bind_run_ok infrastructure]
  rfl

theorem require_ni_to_ni (digest : Digest) (label : String) :
    require_ni (to_ni digest) label = .ok (to_ni digest) := by
  unfold require_ni
  simp only [strip_to_ni, to_ni_ne_empty, if_false, isHttp_to_ni,
    Bool.false_eq_true, is_ni_or_digest_to_ni, if_true, equality_id_to_ni]

theorem driftingIds_present (function_id : Digest) (role : Role) :
    ∃ id, (driftingIds function_id).usageIds
      (optional_ni (some drifting.order_id) "order_id") role = some id := by
  have canonical : ∀ (digest : Digest) (label : String),
      optional_ni (some (to_ni digest)) label = some (to_ni digest) :=
    fun digest label => optional_ni_of (require_ni_to_ni digest label)
  cases role with
  | quantum => exact ⟨_, canonical oldDigest "order_id"⟩
  | function => exact ⟨_, canonical function_id "function_id"⟩
  | process => exact ⟨_, canonical newDigest "process_id"⟩
  | infrafunction => exact ⟨_, canonical oldDigest "infrafunction_id"⟩
  | struct => exact ⟨_, canonical oldDigest "structure_id"⟩
  | plant => exact ⟨_, canonical oldDigest "plant_id"⟩
  | infrastructure => exact ⟨_, canonical oldDigest "infrastructure_id"⟩

/-- A package whose seven ids all resolve is rejected against its own Order
when compiling it registered another id for a locator. -/
theorem sysml_own_rejected :
    ¬ ∀ (graph : OrderGraph) (created : String) (start compiled : Machine)
      (doc : Fields),
      project_sysml_quantum graph created start = .ok doc compiled →
      ((∃ after, validate_sysml_quantum (.obj doc) graph none compiled =
          .ok () after) ↔
        ∃ ids after, expected_usage_ids graph start = .ok ids after ∧
          ∀ role, ∃ id, ids role = some id) := by
  intro always
  have first := slotIds_drifting refId_function_before
  have second := slotIds_drifting refId_function_after
  obtain ⟨doc, made⟩ := @quantum_sysml_returns _ (driftingIds oldDigest) _
    (require_ni_to_ni oldDigest "order_id") fixedCreated
  have built : project_sysml_quantum drifting fixedCreated (indexed []) =
      .ok doc (indexed (hinted [])) := by
    unfold project_sysml_quantum
    rw [bind_run_ok first]
    exact lift_run made _
  have accepted := (always _ _ _ _ _ built).mpr
    ⟨_, _, expected_usage_ids_of first, driftingIds_present oldDigest⟩
  obtain ⟨-, ids, read, accepts⟩ := sysml_accepts built
  obtain ⟨found, later, reread, fresh⟩ :=
    (accepts doc List.mem_cons_self drifting _).mp accepted
  rw [expected_usage_ids_of first] at read
  rw [expected_usage_ids_of second] at reread
  obtain ⟨rfl, -⟩ := EStateM.Result.ok.inj read
  obtain ⟨rfl, -⟩ := EStateM.Result.ok.inj reread
  obtain ⟨id, compiledIn, expected⟩ := fresh .function
  have old := optional_ni_of (require_ni_to_ni oldDigest "function_id")
  have new := optional_ni_of (require_ni_to_ni newDigest "function_id")
  have same : to_ni oldDigest = to_ni newDigest :=
    Option.some.inj ((old.symm.trans compiledIn).trans
      (expected.symm.trans new))
  revert same
  decide +kernel

end Drift

end Sysml

end Cats
