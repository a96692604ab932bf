import Cats.Mesh.LinkedOrder
import Cats.Registry.Lineage

/-!
# The lineage checks accept linked Orders

What a link carries over the checks find carried, and what it mutates they find
mutated: a document that is held under its id is not minted again under that id
unless it is the same document.
-/

namespace Cats

theorem Names.unique {fields : Fields} {stem : String} {id other : ContentId}
    (names : Names fields stem id) (also : Names fields stem other) :
    id = other := by
  have same := (names none).symm.trans (also none)
  apply ContentId.text_injective
  exact Option.some.inj (congrArg Prod.fst (Except.ok.inj same))

namespace Link

open Lineage

/-- A document the Node holds under an id. -/
def Holds (machine : Machine) (id : ContentId) (doc : Fields) : Prop :=
  ∃ digest bytes, id = .named digest ∧ machine.blob? digest = some bytes ∧
    readJson bytes = .ok (.obj doc)

/-- A document that is held is what is minted under its id. -/
theorem Holds.eq_of_minted {start after : Machine} {id : ContentId}
    {doc minted : Fields} {digest : Digest} (holds : Holds start id doc)
    (keeps : Keeps start after) (mints : Minted after (to_ni digest) minted)
    (same : id = .named digest) (valid : (Json.obj minted).wellFormed = true) :
    doc = minted := by
  obtain ⟨own, bytes, rfl, held, read⟩ := holds
  cases same
  have digests : digest = sha256_hex (mintedBytes (.obj minted)) := by
    have ids : ContentId.named digest = .named _ :=
      ContentId.text_injective mints.named
    cases ids
    rfl
  have kept := keeps _ _ held
  rw [digests, mints.held] at kept
  cases kept
  rw [readJson_mintedBytes valid] at read
  cases read
  rfl

/-- The prior Structure is nested in the response as the Node holds it, and
names its components. -/
def Paired (start : Machine) (order : Fields) (paired : ContentId) : Prop :=
  ∃ prior stored, ∃ ids : String → ContentId,
    flatSlot order "structure" = .ok (.obj prior) ∧
      Holds start paired stored ∧ AgreeOutside ["flat"] prior stored ∧
      ∀ stem ∈ pairingStems, Names prior stem (ids stem)

/-- A callable is given for a slot of a part of the prior Function, and its bind
is not what the slot names. -/
def Replaces (mesh : Mesh) (start : Machine) (order : Fields)
    (function : ContentId) (part source : String)
    (slots : List (String × Option Callable)) : Prop :=
  ∃ prior stored id doc source_id stem obj bytes,
    flatSlot order "function" = .ok (.obj prior) ∧
      Holds start function stored ∧ Names stored part id ∧
      Holds start id doc ∧ Names prior source source_id ∧
      (stem, some obj) ∈ slots ∧
      boundBytes mesh obj source_id.text = .ok bytes ∧
      ¬ Names doc stem (.named (sha256_hex bytes))

variable {mesh : Mesh} {start after : Machine} {order linked : Fields}

/-- Another pairing is minted under another id. -/
theorem StructureLinked.mutated {change : Change} {paired paired' : ContentId}
    (links : StructureLinked order change after linked)
    (asked : change.requested = true) (keeps : Keeps start after)
    (nested : Paired start order paired)
    (names : Names linked "structure" paired') : paired ≠ paired' := by
  intro same
  obtain ⟨prior, digest, pairing, name, slot, named, minted, repaired, _⟩ :=
    links.repaired asked
  obtain ⟨also, stored, ids, there, holds, agree, components⟩ := nested
  cases slot.symm.trans there
  have stays := holds.eq_of_minted keeps minted
    (same.trans (names.unique named)) repaired.wellFormed
  subst stays
  apply repaired.changed ids components
  intro stem member
  have apart : ∀ stem ∈ pairingStems, ∀ key ∈ refFields stem,
      key ∉ ["flat"] := by
    decide
  exact (components stem member).agree (slotStems_pairing.given stem member)
    agree (apart stem member)

/-- A part that is minted under the id of the prior part names what that names,
in every slot a callable is given for. -/
theorem PartRebuilt.names {prior rebuilt : Fields} {part source stem : String}
    {slots : List (String × Option Callable)} {obj : Callable} {bytes : Bytes}
    {source_id : ContentId}
    (made : PartRebuilt mesh prior part source slots after rebuilt)
    (sourced : Names prior source source_id) (member : (stem, some obj) ∈ slots)
    (bound : boundBytes mesh obj source_id.text = .ok bytes) :
    Names rebuilt stem (.named (sha256_hex bytes)) := by
  obtain ⟨own, prev, first, middle, _, same, set⟩ := made
  obtain ⟨also, bindsTo, named, _⟩ := set _ member
  rw [same source_id sourced] at bindsTo
  cases bound.symm.trans bindsTo
  exact named

/-- A Function is not minted under its id again when a callable given for one
of its slots is not the one it has there. -/
theorem Replaces.differs {function : ContentId} {digest other : Digest}
    {part source : String} {slots : List (String × Option Callable)}
    {prior minted doc : Fields}
    (replaces : Replaces mesh start order function part source slots)
    (slot : flatSlot order "function" = .ok (.obj prior))
    (keeps : Keeps start after) (mints : Minted after (to_ni digest) minted)
    (valid : (Json.obj minted).wellFormed = true)
    (named : Names minted part (.named other))
    (held : Minted after (to_ni other) doc)
    (validPart : (Json.obj doc).wellFormed = true)
    (made : PartRebuilt mesh prior part source slots after doc) :
    function ≠ .named digest := by
  intro same
  obtain ⟨also, stored, id, priorDoc, source_id, stem, obj, bytes, there, holds,
    cites, holdsPart, sourced, member, bound, differs⟩ := replaces
  cases slot.symm.trans there
  have stays := holds.eq_of_minted keeps mints same valid
  subst stays
  have staysPart := holdsPart.eq_of_minted keeps held (cites.unique named)
    validPart
  subst staysPart
  exact differs (made.names sourced member bound)

theorem FunctionLinked.mutated {slots : Slots} {function function' : ContentId}
    (links : FunctionLinked mesh order slots after linked)
    (keeps : Keeps start after)
    (replaces : Replaces mesh start order function "process" "process_source"
        slots.process ∨
      Replaces mesh start order function "infrafunction" "infrafunction_source"
        slots.infrafunction)
    (names : Names linked "function" function') : function ≠ function' := by
  have asked : slots.requested = true := by
    unfold Slots.requested
    rw [List.any_eq_true]
    rcases replaces with given | given
    · obtain ⟨_, _, _, _, _, stem, obj, _, _, _, _, _, _, member, _⟩ := given
      exact ⟨_, List.mem_append_left _ member, rfl⟩
    · obtain ⟨_, _, _, _, _, stem, obj, _, _, _, _, _, _, member, _⟩ := given
      exact ⟨_, List.mem_append_right _ member, rfl⟩
  obtain ⟨prior, digest, minted, process, infrafunction, slot, named, mints,
    rebuilt⟩ := links.rebuilt asked
  cases names.unique named
  have valid := rebuilt.wellFormed
  rw [List.forall_mem_cons, List.forall_mem_cons, List.forall_mem_singleton]
    at valid
  obtain ⟨validFunction, validProcess, validInfrafunction⟩ := valid
  rcases replaces with given | given
  · obtain ⟨other, cites, held⟩ := rebuilt.processMinted
    exact given.differs slot keeps mints validFunction cites held validProcess
      rebuilt.processSlots
  · obtain ⟨other, cites, held⟩ := rebuilt.infrafunctionMinted
    exact given.differs slot keeps mints validFunction cites held
      validInfrafunction rebuilt.infrafunctionSlots

/-- The data chain of a link is accepted, its Structure is found carried exactly
when no other was asked for, and its Function is found carried without a
callable and mutated with another one. -/
theorem linkOrder_lineage (base : BaseUrl) (located : mesh.base_url = base.text)
    {flat_bom : Act Json} {slots : Slots} {change : Change}
    {request : OrderRequest} {machine : Machine} {invoice : Fields}
    {data function paired : ContentId}
    (starts : Starts flat_bom machine invoice order start)
    (ran : linkOrder mesh flat_bom slots change machine = .ok request after)
    (dataNamed : Names invoice "data" data)
    (functionNamed : Names order "function" function)
    (pairedNamed : Names order "structure" paired)
    (nested : change.requested = true → Paired start order paired) :
    ∃ (next linked : Fields) (function' paired' : ContentId),
      Minted after request.content_id linked ∧
      (∃ digest, Names linked "invoice" (.named digest) ∧
        Minted after (to_ni digest) next) ∧
      assert_invoice_data_chain (.obj invoice) (.obj next) =
        .ok (data.text, data.text) ∧
      (slots.requested = false → function = function') ∧
      (Replaces mesh start order function "process" "process_source"
          slots.process ∨
        Replaces mesh start order function "infrafunction"
          "infrafunction_source" slots.infrafunction → function ≠ function') ∧
      ∀ mode pairing, assert_order_pairing_lineage (.obj order) (.obj linked)
            mode pairing =
          .ok ⟨function.text, function'.text, paired.text, paired'.text⟩ ↔
        mode.Fits function function' ∧
          (pairing = .carried ↔ change.requested = false) := by
  obtain ⟨next, linked, links⟩ := linkOrder_linked base located starts ran
  obtain ⟨function', names⟩ : ∃ id, Names linked "function" id := by
    cases asked : slots.requested with
    | false => exact ⟨function, links.function.carried asked _ functionNamed⟩
    | true =>
        obtain ⟨_, digest, _, _, _, _, named, _⟩ := links.function.rebuilt asked
        exact ⟨_, named⟩
  obtain ⟨paired', pairs⟩ : ∃ id, Names linked "structure" id := by
    cases asked : change.requested with
    | false => exact ⟨paired, (links.pairing.carried asked).1 _ pairedNamed⟩
    | true =>
        obtain ⟨_, digest, _, _, _, named, _⟩ := links.pairing.repaired asked
        exact ⟨_, named⟩
  refine ⟨next, linked, function', paired', links.minted, links.invoiced,
    assert_invoice_data_chain_names dataNamed (links.data _ dataNamed), ?_,
    fun given => links.function.mutated links.kept given names, ?_⟩
  · intro none
    exact (links.function.carried none _ functionNamed).unique names
  · intro mode pairing
    rw [assert_order_pairing_lineage_ok_iff functionNamed names pairedNamed
      pairs]
    apply and_congr_right
    intro _
    unfold PairingMode.Fits
    cases asked : change.requested with
    | false =>
        have same := ((links.pairing.carried asked).1 _ pairedNamed).unique pairs
        simp [same]
    | true =>
        have differ := links.pairing.mutated asked links.kept (nested asked)
          pairs
        simp [differ]

section Held

theorem paired_pairedOrder : Paired pairedNode pairedOrder
    (.named heldDigest) := by
  refine ⟨heldPairing, heldPairing, heldIds, rfl, ⟨heldDigest,
    mintedBytes (.obj heldPairing), rfl, ?_, readJson_mintedBytes rfl⟩,
    .refl _ _, ?_⟩
  · change (if heldDigest = heldDigest then some (mintedBytes
      (.obj heldPairing)) else none) = _
    rw [if_pos rfl]
  · exact names_heldPairing

/-- The checks of the Order that is linked to another plant. -/
theorem linkOrder_lineage_plant : ∃ request after,
    linkOrder shoutedMesh (pure (flatTree pairedOrder)) {}
        { plant_id := some "QmOther" } pairedNode = .ok request after ∧
      ∃ next linked ids, Minted after request.content_id linked ∧
        assert_invoice_data_chain (.obj [("data_uri", .str "QmD"),
          ("flat", .obj [("order", .obj pairedOrder)])]) (.obj next) =
            .ok ("QmD", "QmD") ∧
        assert_order_pairing_lineage (.obj pairedOrder) (.obj linked) .carried
          .mutated = .ok ids := by
  obtain ⟨request, after, ran⟩ := pairedOrder_links
  obtain ⟨next, linked, function', paired', minted, _, chain, carried, _,
    checks⟩ := linkOrder_lineage shoutedBase rfl starts_pairedOrder ran
      data_pairedOrder function_pairedOrder structure_pairedOrder
      fun _ => paired_pairedOrder
  exact ⟨request, after, ran, next, linked, _, minted, chain,
    (checks .carried .mutated).mpr ⟨iff_of_true rfl (carried rfl),
      iff_of_false (by decide) (by decide)⟩⟩

end Held

end Link

end Cats
