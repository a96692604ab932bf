import Cats.Mesh.LinkKept
import Cats.Mesh.LinkSides
import Cats.Registry.RefFrame

/-!
# What linking carries over

A link operation mints an Order that differs from the prior one in its refs to
the Function, the Structure and the Invoice, in the documents it cites, in its
endpoint and in the name of its Structure.  A slot that is not replaced names
what it named, and the input of the new Order is the data of the prior Invoice.
-/

namespace Cats

namespace Link

open Effect

section Slots

theorem slotId_run {fields : Fields} {stem : String} {id : ContentId}
    (names : Names fields stem id) (machine : Machine) :
    ContentMesh.slotId (.obj fields) stem machine =
      .ok (some id.text) machine := by
  change Act.withIndex (fun index => ref_id index fields stem) machine = _
  exact BomRead.withIndex_run (names _)

theorem slotId_names {fields : Fields} {stem : String} {id : ContentId}
    (names : Names fields stem id) {machine after : Machine}
    {found : Option String}
    (ran : ContentMesh.slotId (.obj fields) stem machine = .ok found after) :
    found = some id.text ∧ after = machine := by
  rw [slotId_run names machine] at ran
  cases ran
  exact ⟨rfl, rfl⟩

/-- The refs of an object, set one after the other. -/
theorem setRefs_ok {base_url : String} {refs : List (String × String)}
    {obj after : Fields} (ran : setRefs base_url refs obj = .ok after) :
    AgreeOutside (refKeys (refs.map Prod.fst)) obj after := by
  induction refs generalizing obj with
  | nil =>
      cases ran
      exact .refl _ _
  | cons ref refs induction =>
      obtain ⟨pair, first, rest⟩ := Raised.bind_returns ran
      exact (set_ref_ok first).1.trans (induction rest)

theorem setRefs_wellFormed {base_url : String} {refs : List (String × String)}
    {obj after : Fields} (valid : (Json.obj obj).wellFormed = true)
    (ran : setRefs base_url refs obj = .ok after) :
    (Json.obj after).wellFormed = true := by
  induction refs generalizing obj with
  | nil =>
      cases ran
      exact valid
  | cons ref refs induction =>
      obtain ⟨pair, first, rest⟩ := Raised.bind_returns ran
      exact induction (set_ref_wellFormed valid first) rest

/-- A slot that is set among others names its id. -/
theorem setRefs_names (base : BaseUrl) {refs : List (String × String)}
    {obj after : Fields} (ran : setRefs base.text refs obj = .ok after)
    (distinct : SlotStems (refs.map Prod.fst)) {stem value : String}
    (member : (stem, value) ∈ refs) {id : ContentId}
    (spells : ContentId.Spells value id) : Names after stem id := by
  induction refs generalizing obj with
  | nil => cases member
  | cons ref refs induction =>
      obtain ⟨pair, first, rest⟩ := Raised.bind_returns ran
      rcases List.mem_cons.mp member with rfl | member
      · exact (set_ref_names base spells first).agree
          (distinct.given _ List.mem_cons_self) (setRefs_ok rest) distinct.head
      · exact induction rest distinct.tail member

/-- The bytes a callable is bound as. -/
def boundBytes (mesh : Mesh) (obj : Callable) (source_id : String) :
    Except Raised Bytes :=
  if is_stock_function_callable obj then
    (named_bind_payload source_id obj.module_name obj.qualname
      mesh.base_url).map fun payload => mintedBytes (.obj payload)
  else .ok obj.pickled

theorem bind_subproc_ok {mesh : Mesh} {obj : Callable} {source_id id : String}
    {machine after : Machine}
    (ran : bind_subproc mesh obj source_id machine = .ok id after) :
    ∃ bytes, boundBytes mesh obj source_id = .ok bytes ∧
      id = to_ni (sha256_hex bytes) ∧
      after.blob? (sha256_hex bytes) = some bytes := by
  unfold bind_subproc at ran
  unfold boundBytes
  split_ifs at ran ⊢
  · obtain ⟨payload, middle, made, put⟩ := bind_ok ran
    obtain ⟨found, rfl⟩ := lift_ok made
    rw [found]
    exact ⟨_, rfl, put_bytes_ok put⟩
  · exact ⟨_, rfl, put_bytes_ok ran⟩

/-- A slot of a rebuilt object: it names the bind of the callable given for it,
and that is held; without one it names what the prior object named. -/
def SlotRebuilt (mesh : Mesh) (source_id : String) (prior : Json)
    (after : Machine) (rebuilt : Fields) (stem : String) :
    Option Callable → Prop
  | some replacement => ∃ bytes, boundBytes mesh replacement source_id =
      .ok bytes ∧ Names rebuilt stem (.named (sha256_hex bytes)) ∧
        after.blob? (sha256_hex bytes) = some bytes
  | none => ∀ fields, prior = .obj fields → CarriesOver fields rebuilt stem

theorem SlotRebuilt.later {mesh : Mesh} {source_id : String} {prior : Json}
    {middle after : Machine} {rebuilt final : Fields} {stem : String}
    {replacement : Option Callable}
    (set : SlotRebuilt mesh source_id prior middle rebuilt stem replacement)
    (names : ∀ id, Names rebuilt stem id → Names final stem id)
    (keeps : Keeps middle after) :
    SlotRebuilt mesh source_id prior after final stem replacement := by
  cases replacement with
  | some replacement =>
      obtain ⟨bytes, bound, named, held⟩ := set
      exact ⟨bytes, bound, names _ named, keeps _ _ held⟩
  | none =>
      intro fields same id named
      exact names id (set fields same id named)

theorem slotContent_ok {mesh : Mesh} (base : BaseUrl)
    {owner source_id : String} {prior : Json} {stem content_id eid : String}
    {replacement : Option Callable} {machine after : Machine}
    {obj rebuilt : Fields}
    (ran : slotContent mesh owner source_id prior stem replacement machine =
      .ok content_id after)
    (set : set_ref obj stem content_id base.text = .ok (eid, rebuilt)) :
    SlotRebuilt mesh source_id prior after rebuilt stem replacement := by
  cases replacement with
  | some replacement =>
      obtain ⟨bytes, bound, rfl, held⟩ := bind_subproc_ok ran
      refine ⟨bytes, bound, ?_, held⟩
      exact set_ref_names base (ContentId.spells_text (.named _)) set
  | none =>
      rintro fields rfl id names
      obtain ⟨carried, middle, read, given⟩ := bind_ok ran
      obtain ⟨rfl, rfl⟩ := slotId_names names read
      obtain ⟨same, _, rfl⟩ := required_ok_iff.mp given
      cases same
      exact set_ref_names base (ContentId.spells_text id) set

theorem rebuildSlots_ok {mesh : Mesh} (base : BaseUrl)
    (located : mesh.base_url = base.text) {owner source_id : String}
    {prior : Json} {slots : List (String × Option Callable)}
    {obj rebuilt : Fields} {machine after : Machine}
    (ran : rebuildSlots mesh owner source_id prior slots obj machine =
      .ok rebuilt after) (distinct : SlotStems (slots.map Prod.fst)) :
    AgreeOutside (refKeys (slots.map Prod.fst)) obj rebuilt ∧
      ∀ slot ∈ slots,
        SlotRebuilt mesh source_id prior after rebuilt slot.1 slot.2 := by
  induction slots generalizing obj machine with
  | nil =>
      cases ran
      exact ⟨.refl _ _, fun slot member => by cases member⟩
  | cons slot slots induction =>
      obtain ⟨content_id, middle, content, ran⟩ := bind_ok ran
      obtain ⟨⟨eid, next⟩, last, set, rest⟩ := bind_ok ran
      obtain ⟨wrote, rfl⟩ := lift_ok set
      rw [located] at wrote
      obtain ⟨agree, others⟩ := induction rest distinct.tail
      refine ⟨(set_ref_ok wrote).1.trans agree, ?_⟩
      intro other member
      rcases List.mem_cons.mp member with rfl | member
      · apply (slotContent_ok base content wrote).later
        · intro id names
          exact names.agree (distinct.given _ List.mem_cons_self) agree
            distinct.head
        · exact (adds_rebuildSlots mesh _ _ _ _ _).of_ok rest
      · exact others other member

theorem rebuildSlots_wellFormed {mesh : Mesh} {owner source_id : String}
    {prior : Json} {slots : List (String × Option Callable)}
    {obj rebuilt : Fields} {machine after : Machine}
    (valid : (Json.obj obj).wellFormed = true)
    (ran : rebuildSlots mesh owner source_id prior slots obj machine =
      .ok rebuilt after) : (Json.obj rebuilt).wellFormed = true := by
  induction slots generalizing obj machine with
  | nil =>
      cases ran
      exact valid
  | cons slot slots induction =>
      obtain ⟨content_id, middle, content, ran⟩ := bind_ok ran
      obtain ⟨pair, last, set, rest⟩ := bind_ok ran
      exact induction (set_ref_wellFormed valid (lift_ok set).1) rest

end Slots

section Function

theorem slotId_obj {doc : Json} {stem : String} {machine after : Machine}
    {found : Option String}
    (ran : ContentMesh.slotId doc stem machine = .ok found after) :
    ∃ fields, doc = .obj fields := by
  obtain ⟨fields, middle, mapped, _⟩ := bind_ok ran
  have mapping := (lift_ok mapped).1
  cases doc with
  | obj fields => exact ⟨fields, rfl⟩
  | null => cases mapping
  | bool value => cases mapping
  | int value => cases mapping
  | float text => cases mapping
  | str value => cases mapping
  | arr items => cases mapping

/-- The slots of a part of a Function, rebuilt from those of the prior part. -/
def PartRebuilt (mesh : Mesh) (prior : Fields) (part source : String)
    (slots : List (String × Option Callable)) (after : Machine)
    (rebuilt : Fields) : Prop :=
  ∃ source_id prev start middle,
    cat_stem mesh (.obj prior) part start = .ok prev middle ∧
      (∀ id, Names prior source id → source_id = id.text) ∧
      ∀ slot ∈ slots,
        SlotRebuilt mesh source_id prev after rebuilt slot.1 slot.2

/-- The Function that is minted for a prior one: both its parts are minted too,
and it has the prior sources. -/
structure Rebuilt (mesh : Mesh) (prior : Fields) (slots : Slots)
    (after : Machine) (function process infrafunction : Fields) : Prop where
  processMinted : ∃ digest, Names function "process" (.named digest) ∧
    Minted after (to_ni digest) process
  infrafunctionMinted : ∃ digest,
    Names function "infrafunction" (.named digest) ∧
      Minted after (to_ni digest) infrafunction
  sources : ∀ stem ∈ ["process_source", "infrafunction_source"],
    CarriesOver prior function stem
  processSlots : PartRebuilt mesh prior "process" "process_source"
    slots.process after process
  infrafunctionSlots : PartRebuilt mesh prior "infrafunction"
    "infrafunction_source" slots.infrafunction after infrafunction
  wellFormed : ∀ doc ∈ [function, process, infrafunction],
    (Json.obj doc).wellFormed = true

theorem PartRebuilt.later {mesh : Mesh} {prior rebuilt : Fields}
    {part source : String} {slots : List (String × Option Callable)}
    {middle after : Machine}
    (made : PartRebuilt mesh prior part source slots middle rebuilt)
    (keeps : Keeps middle after) :
    PartRebuilt mesh prior part source slots after rebuilt := by
  obtain ⟨source_id, prev, start, last, read, sourced, set⟩ := made
  refine ⟨source_id, prev, start, last, read, sourced, ?_⟩
  intro slot member
  exact (set slot member).later (fun _ names => names) keeps

theorem Rebuilt.later {mesh : Mesh} {prior function process infrafunction : Fields}
    {slots : Slots} {middle after : Machine}
    (rebuilt : Rebuilt mesh prior slots middle function process infrafunction)
    (keeps : Keeps middle after) :
    Rebuilt mesh prior slots after function process infrafunction := by
  constructor
  · obtain ⟨digest, names, minted⟩ := rebuilt.processMinted
    exact ⟨digest, names, minted.later keeps⟩
  · obtain ⟨digest, names, minted⟩ := rebuilt.infrafunctionMinted
    exact ⟨digest, names, minted.later keeps⟩
  · exact rebuilt.sources
  · exact rebuilt.processSlots.later keeps
  · exact rebuilt.infrafunctionSlots.later keeps
  · exact rebuilt.wellFormed

theorem slotStems_process (slots : Slots) :
    SlotStems (slots.process.map Prod.fst) := by
  change SlotStems ["ingress_subproc", "integrated_subproc", "egress_subproc",
    "integration_cache_subproc"]
  exact ⟨by decide, by decide⟩

theorem slotStems_infrafunction (slots : Slots) :
    SlotStems (slots.infrafunction.map Prod.fst) := by
  change SlotStems ["infrafunction_subproc"]
  exact ⟨by decide, by decide⟩

theorem slotStems_function : SlotStems ["process", "infrafunction",
    "process_source", "infrafunction_source"] :=
  ⟨by decide, by decide⟩

theorem sourceIds_ok {prior : Json} {machine after : Machine}
    {process_id infrafunction_id : String}
    (ran : sourceIds prior machine =
      .ok (process_id, infrafunction_id) after) :
    ∃ fields, prior = .obj fields ∧
      (∀ id, Names fields "process_source" id → process_id = id.text) ∧
      ∀ id, Names fields "infrafunction_source" id →
        infrafunction_id = id.text := by
  obtain ⟨process_source, middle, first, ran⟩ := bind_ok ran
  obtain ⟨infrafunction_source, last, second, ran⟩ := bind_ok ran
  obtain ⟨_, _, firstGiven, ran⟩ := bind_ok ran
  obtain ⟨_, _, secondGiven, returned⟩ := bind_ok ran
  cases returned
  obtain ⟨fields, rfl⟩ := slotId_obj first
  refine ⟨fields, rfl, ?_, ?_⟩
  · intro id names
    obtain ⟨rfl, _⟩ := slotId_names names first
    exact (Option.some.inj (required_ok_iff.mp firstGiven).1).symm
  · intro id names
    obtain ⟨rfl, _⟩ := slotId_names names second
    exact (Option.some.inj (required_ok_iff.mp secondGiven).1).symm

theorem rebuild_function_ok {mesh : Mesh} (base : BaseUrl)
    (located : mesh.base_url = base.text) {prior : Json} {slots : Slots}
    {machine after : Machine} {content_id : String}
    (ran : rebuild_function mesh prior slots machine = .ok content_id after) :
    ∃ fields function process infrafunction, prior = .obj fields ∧
      Minted after content_id function ∧
        Rebuilt mesh fields slots after function process infrafunction := by
  unfold rebuild_function at ran
  simp only [bind_ok_iff, Prod.exists, lift_ok_iff] at ran
  obtain ⟨process_source, infrafunction_source, first, sources, prev_process,
    second, processRead, prev_infrafunction, third, infrafunctionRead, process,
    fourth, processSet, infrafunction, fifth, infrafunctionSet, process_id,
    sixth, processPut, eid, start, _, ⟨processWrote, rfl⟩, infrafunction_id,
    seventh, infrafunctionPut, function, _, ⟨refsWrote, rfl⟩, put⟩ := ran
  obtain ⟨fields, rfl, processSource, infrafunctionSource⟩ :=
    sourceIds_ok sources
  rw [located] at processWrote refsWrote
  have toFifth := (adds_rebuildSlots mesh _ _ _ _ _).of_ok infrafunctionSet
  have toSixth := (adds_put_json mesh.base_url _).of_ok processPut
  have toSeventh := (adds_put_json mesh.base_url _).of_ok infrafunctionPut
  have toEnd := (adds_put_json mesh.base_url _).of_ok put
  obtain ⟨rfl, processHeld⟩ := put_json_ok processPut
  obtain ⟨rfl, infrafunctionHeld⟩ := put_json_ok infrafunctionPut
  have tail := slotStems_function.tail
  refine ⟨fields, function, process, infrafunction, rfl, put_json_ok put, ?_⟩
  constructor
  · refine ⟨_, ?_, rfl, toEnd _ _ (toSeventh _ _ processHeld)⟩
    exact (set_ref_names base (ContentId.spells_text (.named _))
      processWrote).agree (slotStems_function.given _ List.mem_cons_self)
      (setRefs_ok refsWrote) slotStems_function.head
  · refine ⟨_, ?_, rfl, toEnd _ _ infrafunctionHeld⟩
    exact setRefs_names base refsWrote tail List.mem_cons_self
      (ContentId.spells_text (.named _))
  · intro stem member id names
    rcases List.mem_pair.mp member with rfl | rfl
    · apply setRefs_names base refsWrote tail
        (List.mem_cons_of_mem _ List.mem_cons_self)
      rw [processSource id names]
      exact ContentId.spells_text id
    · apply setRefs_names base refsWrote tail
        (List.mem_cons_of_mem _ (List.mem_cons_of_mem _ List.mem_cons_self))
      rw [infrafunctionSource id names]
      exact ContentId.spells_text id
  · refine ⟨process_source, prev_process, first, second, processRead,
      processSource, ?_⟩
    intro slot member
    have rebuilt := rebuildSlots_ok base located processSet
      (slotStems_process slots)
    exact (rebuilt.2 slot member).later (fun _ names => names)
      (toFifth.trans (toSixth.trans (toSeventh.trans toEnd)))
  · refine ⟨infrafunction_source, prev_infrafunction, second, third,
      infrafunctionRead, infrafunctionSource, ?_⟩
    intro slot member
    have rebuilt := rebuildSlots_ok base located infrafunctionSet
      (slotStems_infrafunction slots)
    exact (rebuilt.2 slot member).later (fun _ names => names)
      (toSixth.trans (toSeventh.trans toEnd))
  · rw [List.forall_mem_cons, List.forall_mem_cons, List.forall_mem_singleton]
    refine ⟨?_, rebuildSlots_wellFormed rfl processSet,
      rebuildSlots_wellFormed rfl infrafunctionSet⟩
    exact setRefs_wellFormed (set_ref_wellFormed rfl processWrote) refsWrote

end Function

section Pairing

theorem slotStems_pairing : SlotStems pairingStems := ⟨by decide, by decide⟩

/-- The ids that are found are those that are named. -/
theorem priorIds_ok {prior : Json} {stems ids : List String}
    {machine after : Machine}
    (ran : priorIds prior stems machine = .ok ids after) :
    (stems.zip ids).map Prod.fst = stems ∧
      ∀ stem value, (stem, value) ∈ stems.zip ids → ∀ fields id,
        prior = .obj fields → Names fields stem id → value = id.text := by
  induction stems generalizing ids machine with
  | nil =>
      cases ran
      exact ⟨rfl, fun stem value member => by cases member⟩
  | cons stem stems induction =>
      unfold priorIds at ran
      simp only [bind_ok_iff] at ran
      obtain ⟨found, first, read, value, second, given, others, third, rest,
        returned⟩ := ran
      cases returned
      obtain ⟨same, named⟩ := induction rest
      refine ⟨by rw [List.zip_cons_cons, List.map_cons, same], ?_⟩
      intro other text member fields id object names
      subst object
      rw [List.zip_cons_cons] at member
      rcases List.mem_cons.mp member with here | member
      · cases here
        obtain ⟨rfl, _⟩ := slotId_names names read
        exact (Option.some.inj (required_ok_iff.mp given).1).symm
      · exact named other text member fields id rfl names

/-- Only an object has them. -/
theorem priorIds_obj {prior : Json} {ids : List String}
    {machine after : Machine}
    (ran : priorIds prior pairingStems machine = .ok ids after) :
    ∃ fields, prior = .obj fields := by
  obtain ⟨found, middle, read, _⟩ := bind_ok ran
  exact slotId_obj read

theorem priorIds_names {fields : Fields} {stems : List String}
    {ids : String → ContentId}
    (names : ∀ stem ∈ stems, Names fields stem (ids stem))
    {found : List String} {machine after : Machine}
    (ran : priorIds (.obj fields) stems machine = .ok found after) :
    found = stems.map fun stem => (ids stem).text := by
  induction stems generalizing found machine with
  | nil =>
      cases ran
      rfl
  | cons stem stems induction =>
      unfold priorIds at ran
      simp only [bind_ok_iff] at ran
      obtain ⟨id, first, read, value, second, given, others, third, rest,
        returned⟩ := ran
      cases returned
      obtain ⟨rfl, _⟩ := slotId_names (names stem List.mem_cons_self) read
      obtain ⟨same, _⟩ := required_ok_iff.mp given
      cases same
      rw [List.map_cons, induction
        (fun other member => names other (List.mem_cons_of_mem _ member)) rest]

theorem stemIds_names {fields : Fields} {stems : List String}
    {ids : String → ContentId} (names : ∀ stem ∈ stems, Names fields stem (ids stem))
    {found : List (Option String)} {machine after : Machine}
    (ran : stemIds (.obj fields) stems machine = .ok found after) :
    found = stems.map fun stem => some (ids stem).text := by
  induction stems generalizing found machine with
  | nil =>
      cases ran
      rfl
  | cons stem stems induction =>
      unfold stemIds at ran
      simp only [bind_ok_iff] at ran
      obtain ⟨id, first, read, others, second, rest, returned⟩ := ran
      cases returned
      obtain ⟨rfl, _⟩ := slotId_names (names stem List.mem_cons_self) read
      rw [List.map_cons, induction
        (fun other member => names other (List.mem_cons_of_mem _ member)) rest]

/-- Writing refs again changes nothing that they name. -/
theorem respell_ok {mesh : Mesh} (base : BaseUrl)
    (located : mesh.base_url = base.text) {stems : List String}
    {pairing after : Fields} {machine last : Machine}
    (ran : respell mesh stems pairing machine = .ok after last)
    (distinct : SlotStems stems) :
    AgreeOutside (refKeys stems) pairing after ∧
      ∀ stem ∈ stems, CarriesOver pairing after stem := by
  induction stems generalizing pairing machine with
  | nil =>
      cases ran
      exact ⟨.refl _ _, fun stem member => by cases member⟩
  | cons stem stems induction =>
      unfold respell at ran
      obtain ⟨current, first, read, written⟩ := bind_ok ran
      -- What the head does, then the rest of the stems.
      obtain ⟨next, second, agree, kept, rest⟩ : ∃ next second,
          AgreeOutside (refFields stem) pairing next ∧
            CarriesOver pairing next stem ∧
              respell mesh stems next second = .ok after last := by
        cases there : current.filter (· ≠ "") with
        | none =>
            rw [there] at written
            refine ⟨pairing, first, fun _ _ => rfl, ?_, written⟩
            intro id names
            obtain ⟨rfl, _⟩ := slotId_names names read
            simp [id.text_ne_empty] at there
        | some value =>
            rw [there] at written
            obtain ⟨⟨eid, next⟩, second, set, rest⟩ := bind_ok written
            obtain ⟨wrote, same⟩ := lift_ok set
            rw [located] at wrote
            refine ⟨next, second, (set_ref_ok wrote).1, ?_, rest⟩
            intro id names
            obtain ⟨rfl, _⟩ := slotId_names names read
            obtain ⟨same, _⟩ := Option.filter_eq_some_iff.mp there
            cases same
            exact set_ref_names base (ContentId.spells_text id) wrote
      obtain ⟨others, carried⟩ := induction rest distinct.tail
      refine ⟨agree.trans others, ?_⟩
      intro other member id names
      rcases List.mem_cons.mp member with rfl | member
      · exact (kept id names).agree (distinct.given _ List.mem_cons_self) others
          distinct.head
      · apply carried other member
        by_cases same : other = stem
        · subst same
          exact kept id names
        · exact names.agree (distinct.given _ (List.mem_cons_of_mem _ member))
            agree (distinct.disjoint (List.mem_cons_of_mem _ member)
              List.mem_cons_self same)

/-- The pairing that is minted for a prior one: an id that is given is named,
without another directory the rest is carried over, and it is not the prior
one. -/
structure Repaired (prior : Fields) (change : Change) (pairing : Fields) :
    Prop where
  given : ∀ stem value, (stem, some value) ∈ change.overrides →
    ∀ id, ContentId.Spells value id → Names pairing stem id
  carried : change.structure_filepath = none →
    ∀ stem, (stem, none) ∈ change.overrides → CarriesOver prior pairing stem
  changed : ∀ ids : String → ContentId,
    (∀ stem ∈ pairingStems, Names prior stem (ids stem)) →
      ¬ ∀ stem ∈ pairingStems, Names pairing stem (ids stem)
  wellFormed : (Json.obj pairing).wellFormed = true

theorem given_sublist (overrides : List (String × Option String)) :
    ((given overrides).map Prod.fst).Sublist (overrides.map Prod.fst) := by
  induction overrides with
  | nil => exact .slnil
  | cons override overrides induction =>
      obtain ⟨stem, id⟩ := override
      cases id with
      | none => exact .cons _ induction
      | some id => exact .cons_cons _ induction

theorem mem_given {overrides : List (String × Option String)}
    {stem value : String} :
    (stem, value) ∈ given overrides ↔ (stem, some value) ∈ overrides := by
  unfold given
  rw [List.mem_filterMap]
  constructor
  · intro member
    obtain ⟨⟨other, id⟩, member, same⟩ := member
    obtain ⟨text, rfl, paired⟩ := Option.map_eq_some_iff.mp same
    cases paired
    exact member
  · intro member
    exact ⟨_, member, rfl⟩

theorem respell_wellFormed {mesh : Mesh} {stems : List String}
    {pairing after : Fields} {machine last : Machine}
    (valid : (Json.obj pairing).wellFormed = true)
    (ran : respell mesh stems pairing machine = .ok after last) :
    (Json.obj after).wellFormed = true := by
  induction stems generalizing pairing machine with
  | nil =>
      cases ran
      exact valid
  | cons stem stems induction =>
      unfold respell at ran
      obtain ⟨current, first, _, written⟩ := bind_ok ran
      cases there : current.filter (· ≠ "") with
      | none =>
          rw [there] at written
          exact induction valid written
      | some value =>
          rw [there] at written
          obtain ⟨pair, second, set, rest⟩ := bind_ok written
          exact induction (set_ref_wellFormed valid (lift_ok set).1) rest

theorem startPairing_wellFormed {mesh : Mesh} {prev_ids : List String}
    {structure_filepath : Option String} {pairing : Fields}
    {machine after : Machine}
    (start : startPairing mesh prev_ids structure_filepath machine =
      .ok pairing after) : (Json.obj pairing).wellFormed = true := by
  cases structure_filepath with
  | none => exact setRefs_wellFormed rfl (lift_ok start).1
  | some structure_filepath =>
      unfold startPairing structure_pairing at start
      simp only [bind_ok_iff, lift_ok_iff] at start
      obtain ⟨_, _, _, _, _, _, _, _, _, refs, _⟩ := start
      exact setRefs_wellFormed rfl refs

/-- An override that is not given is not among those that are. -/
theorem not_given {overrides : List (String × Option String)}
    (distinct : SlotStems (overrides.map Prod.fst)) {stem : String}
    (member : (stem, none) ∈ overrides) :
    ∀ key ∈ refFields stem, key ∉ refKeys ((given overrides).map Prod.fst) := by
  intro key here inside
  obtain ⟨other, among, shared⟩ := List.mem_flatMap.mp inside
  obtain ⟨⟨other, value⟩, there, rfl⟩ := List.mem_map.mp among
  have apart : overrides.Pairwise fun first second =>
      FieldsApart first.1 second.1 := List.pairwise_map.mp distinct.apart
  have symmetric : Std.Symm fun first second : String × Option String =>
      FieldsApart first.1 second.1 := ⟨fun _ _ apart => Std.Symm.symm _ _ apart⟩
  apply apart.forall member (mem_given.mp there) _ key here shared
  intro same
  cases same

/-- Without another directory the pairing starts as the prior one. -/
theorem startPairing_none {mesh : Mesh} (base : BaseUrl)
    (located : mesh.base_url = base.text) {fields : Fields}
    {prev_ids : List String} {first last : Machine}
    (found : priorIds (.obj fields) pairingStems first = .ok prev_ids last)
    {started : Fields} {machine after : Machine}
    (start : startPairing mesh prev_ids none machine = .ok started after) :
    ∀ stem ∈ pairingStems, CarriesOver fields started stem := by
  obtain ⟨wrote, rfl⟩ := lift_ok start
  rw [located] at wrote
  obtain ⟨stems, values⟩ := priorIds_ok found
  intro stem paired id names
  rw [← stems] at paired
  obtain ⟨⟨other, value⟩, member, rfl⟩ := List.mem_map.mp paired
  apply setRefs_names base wrote (stems.symm ▸ slotStems_pairing) member
  rw [values _ _ member fields id rfl names]
  exact ContentId.spells_text id

theorem resolve_structure_pairing_ok {mesh : Mesh} (base : BaseUrl)
    (located : mesh.base_url = base.text) {prior : Json} {change : Change}
    {pairing : Fields} {machine after : Machine}
    (ran : resolve_structure_pairing mesh prior change machine =
      .ok pairing after) :
    ∃ fields, prior = .obj fields ∧ Repaired fields change pairing := by
  unfold resolve_structure_pairing at ran
  obtain ⟨prev_ids, first, found, resolved⟩ := bind_ok ran
  cases asked : change.requested with
  | false =>
      rw [asked] at resolved
      cases resolved
  | true =>
      rw [asked, if_pos rfl] at resolved
      simp only [bind_ok_iff, lift_ok_iff] at resolved
      obtain ⟨started, second, start, respelled, third, spelled, final, _,
        ⟨overridden, rfl⟩, new_ids, fourth, read, resolved⟩ := resolved
      obtain ⟨fields, rfl⟩ := priorIds_obj found
      refine ⟨fields, rfl, ?_⟩
      have differ : new_ids ≠ prev_ids.map some := by
        intro same
        rw [if_pos same] at resolved
        cases resolved
      rw [if_neg differ] at resolved
      cases resolved
      rw [located] at overridden
      have among : SlotStems ((given change.overrides).map Prod.fst) :=
        slotStems_pairing.sublist (given_sublist change.overrides)
      constructor
      · intro stem value member id spells
        exact setRefs_names base overridden among (mem_given.mpr member) spells
      · intro kept stem member id names
        rw [kept] at start
        have distinct : SlotStems (change.overrides.map Prod.fst) :=
          slotStems_pairing
        have paired : stem ∈ change.overrides.map Prod.fst :=
          List.mem_map.mpr ⟨_, member, rfl⟩
        have started := startPairing_none base located found start stem paired
        have respelled := (respell_ok base located spelled
          slotStems_pairing).2 stem paired
        apply (respelled id (started id names)).agree
          (slotStems_pairing.given stem paired) (setRefs_ok overridden)
        exact not_given distinct member
      · intro ids priorNames names
        apply differ
        rw [stemIds_names names read, priorIds_names priorNames found,
          List.map_map]
        rfl
      · exact setRefs_wellFormed (respell_wellFormed (startPairing_wellFormed
          start) spelled) overridden

end Pairing

end Link

end Cats
