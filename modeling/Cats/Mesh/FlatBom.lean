import Cats.Cas.ContentRef
import Cats.Ldp.Resources

/-!
# The inspect tree of a BOM

The Invoice and the log of a BOM are fetched, and the JSON their slots cite is
nested below `flat`, some expansions deep and never twice on one path.  The
caller's envelope is the state the computation runs on.
-/

namespace Cats

namespace ContentMesh

open Effect

/-- `_FLAT_STEM_ORDER`. -/
def flatStemOrder : List String :=
  ["order", "seed", "data_stages", "structure_as_executed", "runtime_sbom",
    "function_sbom", "structure_sbom", "input_data_sbom", "function",
    "structure", "invoice", "plant_as_executed", "infrastructure_as_executed",
    "object_store_as_executed", "log"]

/-- `ref_uri(obj, stem) or ref_id(obj, stem, cats_home=self.CATS_HOME)`; without
a URI there is no hint to register. -/
def refKey (index : Option LocatorIndex) (obj : Fields) (stem : String) :
    Except Raised (Option String) :=
  match ref_uri obj stem with
  | some uri => .ok (some uri)
  | none => (ref_id index obj stem).map fun found => found.1.filter (· ≠ "")

section

variable (index : Option LocatorIndex)
  (cat : String → Except Raised (List Char))

/-- `self._fetch_ref(obj, stem)`; `None` is the JSON null. -/
def fetch_ref (obj : Fields) (stem : String) : Except Raised Json := do
  match ← refKey index obj stem with
  | none => .ok .null
  | some key => loadText (← cat key)

/-- The loop of `_flatten_keep_uris` over the stems, with what is nested below
each dict. -/
def flatBag (nest : Json → List String → Except Raised Json) (obj : Fields)
    (visited : List String) : List String → Fields → Except Raised Fields
  | [], bag => .ok bag
  | stem :: stems, bag => do
      match ← refKey index obj stem with
      | none => flatBag nest obj visited stems bag
      | some key =>
          if key ∈ visited then flatBag nest obj visited stems bag
          else do
            let payload ← fetch_ref index cat obj stem
            if payload = .null then flatBag nest obj visited stems bag
            else do
              let nested ← nest payload (key :: visited)
              flatBag nest obj visited stems (Fields.set bag stem nested)

/-- `self._flatten_keep_uris(obj, max_depth, visited)`. -/
def flatten_keep_uris : Nat → Json → List String → Except Raised Json
  | 0, obj, _ => .ok obj
  | max_depth + 1, .obj obj, visited => do
      let bag ← flatBag index cat (flatten_keep_uris max_depth) obj visited
        flatStemOrder []
      if bag = [] then .ok (.obj obj)
      else .ok (.obj (Fields.set obj "flat" (.obj bag)))
  | _ + 1, obj, _ => .ok obj

/-- `None`, or the text. -/
def keyOrNull (key : Option String) : Json :=
  match key with
  | none => .null
  | some key => .str key

/-- `bom_response["bom"]`, of which slots are read. -/
def bomOf (bom_response : Json) : Except Raised Fields :=
  match bom_response.get? "bom" with
  | some (.obj bom) => .ok bom
  | some _ => .error ⟨.attributeError, "object has no attribute 'get'"⟩
  | none => .error ⟨.keyError, "'bom'"⟩

/-- The Invoice and the log of a BOM, each flattened below its own locator; a
log that is missing stays null. -/
def flattenBoth (bom : Fields) (max_depth : Nat)
    (invoice_key log_key : Option String) : Except Raised Json := do
  let payload ← fetch_ref index cat bom "invoice"
  if payload = .null then
    .error (.runtimeError "BOM missing invoice_uri / invoice_cid")
  else do
    let visited := invoice_key.toList
    let invoice ← flatten_keep_uris index cat max_depth payload visited
    let found ← fetch_ref index cat bom "log"
    let log ← flatten_keep_uris index cat max_depth found
      (log_key.toList ++ visited)
    .ok (.obj [("invoice", invoice), ("log", log)])

/-- What `flatten_bom` answers for an envelope. -/
def flattened (bom_response : Json) (max_depth : Int) :
    Except Raised Json := do
  let bom ← bomOf bom_response
  let invoice_key ← refKey index bom "invoice"
  let log_key ← refKey index bom "log"
  if max_depth ≤ 0 then
    .ok (.obj [("invoice", .null), ("log", .null),
      ("invoice_uri", keyOrNull invoice_key), ("log_uri", keyOrNull log_key)])
  else flattenBoth index cat bom (max_depth - 1).toNat invoice_key log_key

/-- `flatten_bom(bom_response, max_depth=max_depth)`, on the caller's
envelope. -/
def flatten_bom (max_depth : Int) : Effect Raised Json Json := do
  let bom_response ← get
  match flattened index cat bom_response max_depth with
  | .ok tree => return tree
  | .error raised => throw raised

end

mutual

/-- The value without the bindings of `flat`, at every depth. -/
def stripFlat : Json → Json
  | .arr items => .arr (stripFlatItems items)
  | .obj fields => .obj (stripFlatFields fields)
  | .null => .null
  | .bool value => .bool value
  | .int value => .int value
  | .float text => .float text
  | .str value => .str value

def stripFlatItems : List Json → List Json
  | [] => []
  | item :: items => stripFlat item :: stripFlatItems items

def stripFlatFields : List (String × Json) → List (String × Json)
  | [] => []
  | (name, value) :: fields =>
      if name = "flat" then stripFlatFields fields
      else (name, stripFlat value) :: stripFlatFields fields

end

/-- A value without a `flat` key, at any depth. -/
def NoFlat (value : Json) : Prop := stripFlat value = value

/-- A node holds another one below its `flat`. -/
def Holds (parent : Json) (stem : String) (child : Json) : Prop :=
  ∃ obj bag, parent = .obj obj ∧ Fields.get? obj "flat" = some (.obj bag) ∧
    Fields.get? bag stem = some child

section

variable (index : Option LocatorIndex)
  (cat : String → Except Raised (List Char))

/-- A node cites another one by a locator, below the stem it nests it under. -/
def Cites (parent : Json) (stem key : String) : Prop :=
  ∃ obj, parent = .obj obj ∧ refKey index obj stem = .ok (some key)

/-- The object stored under a locator. -/
def Stored (key : String) (value : Json) : Prop :=
  ∃ text, cat key = .ok text ∧ loadText text = .ok value

/-- A path through an inspect tree, with the locators it goes along. -/
inductive FlatPath : Json → List String → Json → Prop where
  | here (node : Json) : FlatPath node [] node
  | down {parent child node : Json} {stem key : String}
      {locators : List String} :
      Holds parent stem child → Cites index parent stem key →
      FlatPath child locators node → FlatPath parent (key :: locators) node

/-- What is nested below a node is what the node cites under an allowed stem. -/
def NestsCited (node : Json) : Prop :=
  ∀ stem child, Holds node stem child → stem ∈ flatStemOrder ∧
    ∃ key, Cites index node stem key ∧ Stored cat key (stripFlat child)

/-- The tree at the end of a path only adds to what is stored: every node nests
what it cites, no locator comes back, and no path goes deeper. -/
structure OnlyAdds (path : List String) (max_depth : Nat) (tree : Json) :
    Prop where
  nests : ∀ locators node, FlatPath index tree locators node →
    NestsCited index cat node
  fresh : ∀ locators node, FlatPath index tree locators node →
    (locators.reverse ++ path).Nodup
  bounded : ∀ locators node, FlatPath index tree locators node →
    locators.length ≤ max_depth

/-- The Invoice and the log nested in a tree are the stored ones, and what is
nested in them is what they cite. -/
structure Inspects (bom : Fields) (max_depth : Nat) (tree : Json) : Prop where
  invoice : ∃ invoice, tree.get? "invoice" = some invoice ∧
    fetch_ref index cat bom "invoice" = .ok (stripFlat invoice) ∧
    ∃ key, refKey index bom "invoice" = .ok (some key) ∧
      OnlyAdds index cat [key] max_depth invoice
  log : ∃ log, tree.get? "log" = some log ∧
    fetch_ref index cat bom "log" = .ok (stripFlat log) ∧
    ∃ key, refKey index bom "log" = .ok key ∧
      OnlyAdds index cat key.toList max_depth log

/-- `flatten_bom` leaves the envelope alone, answers with the stored Invoice and
log and what they cite, and fetches nothing when it may not expand. -/
structure FlattensOnly (bom_response : Json) (max_depth : Int) : Prop where
  kept : final (flatten_bom index cat max_depth bom_response) = bom_response
  inspects : 1 ≤ max_depth → ∀ tree after,
    flatten_bom index cat max_depth bom_response = .ok tree after →
      ∃ bom, bomOf bom_response = .ok bom ∧
        Inspects index cat bom (max_depth - 1).toNat tree
  unread : max_depth ≤ 0 → ∀ other : String → Except Raised (List Char),
    flatten_bom index other max_depth bom_response =
      flatten_bom index cat max_depth bom_response

end

theorem stripFlatFields_set (fields : Fields) (value : Json) :
    stripFlatFields (fields.set "flat" value) = stripFlatFields fields := by
  induction fields with
  | nil => simp [Fields.set, stripFlatFields]
  | cons field fields induction =>
      obtain ⟨name, old⟩ := field
      by_cases same : name = "flat"
      · simp [Fields.set, stripFlatFields, same]
      · simp [Fields.set, stripFlatFields, same, induction]

/-- A dict without a `flat` key binds none. -/
theorem NoFlat.get? {obj : Fields} (bare : NoFlat (.obj obj)) :
    Fields.get? obj "flat" = none := by
  have stripped : stripFlatFields obj = obj := by
    simpa [NoFlat, stripFlat] using bare
  rw [← stripped]
  clear bare stripped
  induction obj with
  | nil => rfl
  | cons field fields induction =>
      obtain ⟨name, value⟩ := field
      by_cases same : name = "flat"
      · simpa [stripFlatFields, same] using induction
      · simpa [stripFlatFields, same] using induction

theorem not_holds_of_noFlat {node : Json} (bare : NoFlat node) (stem : String)
    (child : Json) : ¬ Holds node stem child := by
  intro holds
  obtain ⟨obj, bag, same, found, _⟩ := holds
  rw [same] at bare
  rw [bare.get?] at found
  cases found

/-- A path that leaves a node goes through what the node holds. -/
theorem FlatPath.of_bare {index : Option LocatorIndex} {tree node : Json}
    {locators : List String} (bare : NoFlat tree)
    (path : FlatPath index tree locators node) :
    locators = [] ∧ node = tree := by
  cases path with
  | here => exact ⟨rfl, rfl⟩
  | down holds _ _ => exact absurd holds (not_holds_of_noFlat bare _ _)

/-- A stored object is its own tree. -/
theorem onlyAdds_of_noFlat {index : Option LocatorIndex}
    {cat : String → Except Raised (List Char)} {path : List String}
    {max_depth : Nat} {value : Json} (bare : NoFlat value)
    (distinct : path.Nodup) : OnlyAdds index cat path max_depth value := by
  constructor
  · intro locators node along
    obtain ⟨_, same⟩ := along.of_bare bare
    rw [same]
    intro stem child holds
    exact absurd holds (not_holds_of_noFlat bare stem child)
  · intro locators node along
    rw [(along.of_bare bare).1]
    exact distinct
  · intro locators node along
    rw [(along.of_bare bare).1]
    exact Nat.zero_le _

section

variable {index : Option LocatorIndex}
  {cat : String → Except Raised (List Char)}

theorem refKey_set_flat {stem : String} (listed : stem ∈ flatStemOrder)
    (obj : Fields) (value : Json) :
    refKey index (obj.set "flat" value) stem = refKey index obj stem := by
  have names : flatStemOrder.all (fun stem =>
      uri_field_name stem ≠ "flat" && cid_field_name stem ≠ "flat") = true := by
    decide +kernel
  have apart := List.all_eq_true.mp names stem listed
  simp only [Bool.and_eq_true, decide_eq_true_eq] at apart
  have uri : ref_uri (obj.set "flat" value) stem = ref_uri obj stem := by
    rw [ref_uri, ref_uri, Fields.get?_set_of_ne obj (Ne.symm apart.1)]
  have legacy : legacyId (obj.set "flat" value) stem = legacyId obj stem := by
    simp only [legacyId, Fields.get?_set_of_ne obj (Ne.symm apart.2),
      Fields.get?_set_of_ne obj (show "flat" ≠ "content_id" by decide)]
  simp only [refKey, ref_id, uri, legacy]

end

section

variable {index : Option LocatorIndex}
  {cat : String → Except Raised (List Char)} {obj : Fields}
  {visited : List String} {nest : Json → List String → Except Raised Json}

theorem stored_of_fetch_ref {stem key : String} {payload : Json}
    (cited : refKey index obj stem = .ok (some key))
    (fetched : fetch_ref index cat obj stem = .ok payload) :
    Stored cat key payload := by
  rw [fetch_ref, cited] at fetched
  obtain ⟨text, read, loaded⟩ :=
    @Raised.bind_returns _ _ (cat key) _ _ fetched
  exact ⟨text, read, loaded⟩

/-- What the loop puts in the bag: under a stem that cites a locator not gone
through, what is nested for the object stored there. -/
theorem flatBag_get? {stems : List String} {bag result : Fields}
    (ran : flatBag index cat nest obj visited stems bag = .ok result)
    {stem : String} {child : Json}
    (found : Fields.get? result stem = some child) :
    Fields.get? bag stem = some child ∨
    (stem ∈ stems ∧ ∃ key payload, refKey index obj stem = .ok (some key) ∧
      key ∉ visited ∧ Stored cat key payload ∧
      nest payload (key :: visited) = .ok child) := by
  induction stems generalizing bag with
  | nil =>
      left
      rw [flatBag, Except.ok.injEq] at ran
      rw [ran]
      exact found
  | cons first stems induction =>
      have later : ∀ {bag : Fields},
          flatBag index cat nest obj visited stems bag = .ok result →
          Fields.get? bag stem = some child ∨
          (stem ∈ first :: stems ∧ ∃ key payload,
            refKey index obj stem = .ok (some key) ∧ key ∉ visited ∧
            Stored cat key payload ∧
            nest payload (key :: visited) = .ok child) := by
        intro bag ran
        rcases induction ran with here | ⟨listed, rest⟩
        · exact .inl here
        · exact .inr ⟨List.mem_cons_of_mem _ listed, rest⟩
      rw [flatBag] at ran
      obtain ⟨found', cited, ran⟩ := Raised.bind_returns ran
      cases found' with
      | none => exact later ran
      | some key =>
          dsimp only at ran
          by_cases gone : key ∈ visited
          · rw [if_pos gone] at ran
            exact later ran
          rw [if_neg gone] at ran
          obtain ⟨payload, fetched, ran⟩ := Raised.bind_returns ran
          have stored := stored_of_fetch_ref cited fetched
          by_cases missing : payload = .null
          · rw [if_pos missing] at ran
            exact later ran
          rw [if_neg missing] at ran
          obtain ⟨inner, made, ran⟩ := Raised.bind_returns ran
          rcases later ran with here | below
          · by_cases same : first = stem
            · subst same
              rw [Fields.get?_set_self, Option.some.injEq] at here
              subst here
              exact .inr ⟨List.mem_cons_self, key, payload, cited, gone, stored,
                made⟩
            · rw [Fields.get?_set_of_ne bag same] at here
              exact .inl here
          · exact .inr below

end

section

variable {index : Option LocatorIndex}
  {cat : String → Except Raised (List Char)}

theorem Holds.of_set {obj bag : Fields} {stem : String} {child : Json}
    (holds : Holds (.obj (obj.set "flat" (.obj bag))) stem child) :
    Fields.get? bag stem = some child := by
  obtain ⟨fields, found, same, bound, nested⟩ := holds
  cases same
  rw [Fields.get?_set_self, Option.some.injEq, Json.obj.injEq] at bound
  rw [bound]
  exact nested

/-- A tree that nests the trees of what it cites only adds. -/
theorem onlyAdds_set {obj bag : Fields} {path : List String}
    {max_depth : Nat} (distinct : path.Nodup)
    (below : ∀ stem child, Fields.get? bag stem = some child →
      stem ∈ flatStemOrder ∧ ∃ key, refKey index obj stem = .ok (some key) ∧
        Stored cat key (stripFlat child) ∧
        OnlyAdds index cat (key :: path) max_depth child) :
    OnlyAdds index cat path (max_depth + 1)
      (.obj (obj.set "flat" (.obj bag))) := by
  have step : ∀ {stem key child}, Holds (.obj (obj.set "flat" (.obj bag))) stem
      child → Cites index (.obj (obj.set "flat" (.obj bag))) stem key →
        OnlyAdds index cat (key :: path) max_depth child := by
    intro stem key child holds cites
    obtain ⟨listed, other, cited, _, adds⟩ := below stem child holds.of_set
    obtain ⟨fields, same, refers⟩ := cites
    cases same
    rw [refKey_set_flat listed, cited, Except.ok.injEq,
      Option.some.injEq] at refers
    exact refers ▸ adds
  constructor
  · intro locators node along
    cases along with
    | here =>
        intro stem child holds
        obtain ⟨listed, key, cited, stored, _⟩ := below stem child holds.of_set
        exact ⟨listed, key, ⟨_, rfl, by rw [refKey_set_flat listed, cited]⟩,
          stored⟩
    | down holds cites rest => exact (step holds cites).nests _ _ rest
  · intro locators node along
    cases along with
    | here => exact distinct
    | down holds cites rest =>
        have fresh := (step holds cites).fresh _ _ rest
        rwa [List.reverse_cons, List.append_assoc, List.singleton_append]
  · intro locators node along
    cases along with
    | here => exact Nat.zero_le _
    | down holds cites rest =>
        exact Nat.succ_le_succ ((step holds cites).bounded _ _ rest)

/-- Where stored objects have no `flat` of their own, a flattened object is the
object and what it cites. -/
theorem flatten_keep_uris_onlyAdds
    (bare : ∀ key value, Stored cat key value → NoFlat value)
    {max_depth : Nat} {obj tree : Json} {visited path : List String}
    (plain : NoFlat obj)
    (ran : flatten_keep_uris index cat max_depth obj visited = .ok tree)
    (distinct : path.Nodup) (within : path ⊆ visited) :
    stripFlat tree = obj ∧ OnlyAdds index cat path max_depth tree := by
  induction max_depth generalizing obj tree visited path with
  | zero =>
      rw [flatten_keep_uris, Except.ok.injEq] at ran
      rw [← ran]
      exact ⟨plain, onlyAdds_of_noFlat plain distinct⟩
  | succ max_depth induction =>
      have alone : tree = obj →
          stripFlat tree = obj ∧
            OnlyAdds index cat path (max_depth + 1) tree := by
        intro same
        rw [same]
        exact ⟨plain, onlyAdds_of_noFlat plain distinct⟩
      cases obj with
      | obj fields =>
          rw [flatten_keep_uris] at ran
          obtain ⟨bag, collected, ran⟩ := Raised.bind_returns ran
          by_cases empty : bag = []
          · rw [if_pos empty] at ran
            exact alone (Except.ok.inj ran).symm
          rw [if_neg empty, Except.ok.injEq] at ran
          rw [← ran]
          constructor
          · rw [stripFlat, stripFlatFields_set]
            exact plain
          · apply onlyAdds_set distinct
            intro stem child found
            rcases flatBag_get? collected found with nothing | ⟨listed, key,
              payload, cited, gone, stored, made⟩
            · cases nothing
            · have new : key ∉ path := fun member => gone (within member)
              obtain ⟨same, adds⟩ := induction (bare key payload stored) made
                (List.nodup_cons.mpr ⟨new, distinct⟩)
                (List.cons_subset_cons key within)
              exact ⟨listed, key, cited, same ▸ stored, adds⟩
      | null => exact alone (Except.ok.inj ran).symm
      | bool value => exact alone (Except.ok.inj ran).symm
      | int value => exact alone (Except.ok.inj ran).symm
      | float text => exact alone (Except.ok.inj ran).symm
      | str value => exact alone (Except.ok.inj ran).symm
      | arr items => exact alone (Except.ok.inj ran).symm

theorem noFlat_of_fetch_ref
    (bare : ∀ key value, Stored cat key value → NoFlat value) {obj : Fields}
    {stem : String} {key : Option String} {payload : Json}
    (cited : refKey index obj stem = .ok key)
    (fetched : fetch_ref index cat obj stem = .ok payload) :
    NoFlat payload := by
  cases key with
  | none =>
      rw [fetch_ref, cited] at fetched
      obtain rfl := Except.ok.inj fetched
      rfl
  | some key => exact bare key payload (stored_of_fetch_ref cited fetched)

/-- What a flattened envelope holds. -/
theorem inspects_of_flattenBoth
    (bare : ∀ key value, Stored cat key value → NoFlat value) {bom : Fields}
    {max_depth : Nat} {invoice_key log_key : Option String} {tree : Json}
    (invoiceCited : refKey index bom "invoice" = .ok invoice_key)
    (logCited : refKey index bom "log" = .ok log_key)
    (ran : flattenBoth index cat bom max_depth invoice_key log_key =
      .ok tree) :
    Inspects index cat bom max_depth tree := by
  rw [flattenBoth] at ran
  obtain ⟨payload, fetched, ran⟩ := Raised.bind_returns ran
  by_cases missing : payload = .null
  · rw [if_pos missing] at ran
    cases ran
  rw [if_neg missing] at ran
  obtain ⟨invoice, invoiceRan, ran⟩ := Raised.bind_returns ran
  obtain ⟨found, logFetched, ran⟩ := Raised.bind_returns ran
  obtain ⟨log, logRan, built⟩ := Raised.bind_returns ran
  have shape := Except.ok.inj built
  have invoicePlain := noFlat_of_fetch_ref bare invoiceCited fetched
  have logPlain := noFlat_of_fetch_ref bare logCited logFetched
  constructor
  · cases invoice_key with
    | none =>
        rw [fetch_ref, invoiceCited] at fetched
        exact absurd (Except.ok.inj fetched).symm missing
    | some key =>
        obtain ⟨same, adds⟩ := flatten_keep_uris_onlyAdds bare invoicePlain
          invoiceRan (List.nodup_singleton key) (List.Subset.refl _)
        refine ⟨invoice, ?_, same ▸ fetched, key, invoiceCited, adds⟩
        rw [← shape]
        rfl
  · have alone : log_key.toList.Nodup := by
      cases log_key with
      | none => exact List.nodup_nil
      | some key => exact List.nodup_singleton key
    obtain ⟨same, adds⟩ := flatten_keep_uris_onlyAdds bare logPlain logRan alone
      (List.subset_append_left _ _)
    refine ⟨log, ?_, same ▸ logFetched, log_key, logCited, adds⟩
    rw [← shape]
    rfl

/-- An inspect tree only adds to what is stored, whatever the graph of what the
objects cite. -/
theorem flatten_bom_flattensOnly
    (bare : ∀ key value, Stored cat key value → NoFlat value)
    (bom_response : Json) (max_depth : Int) :
    FlattensOnly index cat bom_response max_depth := by
  have runs : ∀ cat : String → Except Raised (List Char),
      flatten_bom index cat max_depth bom_response =
        match flattened index cat bom_response max_depth with
        | .ok tree => .ok tree bom_response
        | .error raised => .error raised bom_response := by
    intro cat
    rw [flatten_bom, bind_run_ok (get_run bom_response)]
    cases flattened index cat bom_response max_depth with
    | ok tree => rfl
    | error raised => rfl
  constructor
  · rw [runs]
    cases flattened index cat bom_response max_depth with
    | ok tree => rfl
    | error raised => rfl
  · intro positive tree after ran
    rw [runs] at ran
    cases made : flattened index cat bom_response max_depth with
    | error raised =>
        rw [made] at ran
        cases ran
    | ok result =>
        rw [made] at ran
        obtain ⟨same, _⟩ := EStateM.Result.ok.inj ran
        rw [flattened] at made
        obtain ⟨bom, found, made⟩ := Raised.bind_returns made
        obtain ⟨invoice_key, invoiceCited, made⟩ := Raised.bind_returns made
        obtain ⟨log_key, logCited, made⟩ := Raised.bind_returns made
        rw [if_neg (by omega)] at made
        exact ⟨bom, found, inspects_of_flattenBoth bare invoiceCited logCited
          (same ▸ made)⟩
  · intro shallow other
    rw [runs, runs]
    have same : flattened index other bom_response max_depth =
        flattened index cat bom_response max_depth := by
      simp only [flattened, if_pos shallow]
    rw [same]

end

/-- An Invoice and an Order that cite each other, and a log. -/
def cyclicCat (key : String) : Except Raised (List Char) :=
  if key = "http://n/invoice" then
    .ok "\x7b\"order_uri\": \"http://n/order\"\x7d".toList
  else if key = "http://n/order" then
    .ok "\x7b\"invoice_uri\": \"http://n/invoice\"\x7d".toList
  else .ok "[]".toList

def cyclicResponse : Json :=
  .obj [("bom", .obj [("invoice_uri", .str "http://n/invoice"),
    ("log_uri", .str "http://n/log")])]

theorem noFlat_cyclicCat (key : String) (value : Json)
    (stored : Stored cyclicCat key value) : NoFlat value := by
  obtain ⟨text, read, loaded⟩ := stored
  have invoice : loadText "\x7b\"order_uri\": \"http://n/order\"\x7d".toList =
      .ok (.obj [("order_uri", .str "http://n/order")]) := by decide +kernel
  have order : loadText
      "\x7b\"invoice_uri\": \"http://n/invoice\"\x7d".toList =
        .ok (.obj [("invoice_uri", .str "http://n/invoice")]) := by
    decide +kernel
  have log : loadText "[]".toList = .ok (.arr []) := by decide +kernel
  unfold cyclicCat at read
  split_ifs at read
  · cases read
    rw [invoice] at loaded
    cases loaded
    rfl
  · cases read
    rw [order] at loaded
    cases loaded
    rfl
  · cases read
    rw [log] at loaded
    cases loaded
    rfl

theorem flatten_bom_flattensOnly_cyclic :
    FlattensOnly none cyclicCat cyclicResponse 4 :=
  flatten_bom_flattensOnly noFlat_cyclicCat cyclicResponse 4

example : flattened none cyclicCat cyclicResponse 4 =
    .ok (.obj [
      ("invoice", .obj [("order_uri", .str "http://n/order"),
        ("flat", .obj [("order", .obj [
          ("invoice_uri", .str "http://n/invoice")])])]),
      ("log", .arr [])]) := by
  decide +kernel

end ContentMesh

end Cats
