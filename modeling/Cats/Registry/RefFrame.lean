import Cats.Registry.RefRoundTrip

/-!
# What setting refs leaves alone

A slot names an id when every reader, whatever its index holds, reads that id
there.  Setting the ref of a stem makes its slot name the id and touches the
two fields of the stem only.
-/

namespace Cats

/-- A slot names an id to every reader. -/
def Names (fields : Fields) (stem : String) (id : ContentId) : Prop :=
  ∀ index, ref_id index fields stem = .ok (some id.text, index)

/-- What the slot of one object names, that of another names too. -/
def CarriesOver (before after : Fields) (stem : String) : Prop :=
  ∀ id, Names before stem id → Names after stem id

/-- The fields of a stem. -/
def refFields (stem : String) : List String :=
  [uri_field_name stem, cid_field_name stem]

/-- The fields of stems. -/
def refKeys (stems : List String) : List String := stems.flatMap refFields

/-- Outside some keys two objects agree. -/
def AgreeOutside (keys : List String) (before after : Fields) : Prop :=
  ∀ key, key ∉ keys → after.get? key = before.get? key

namespace AgreeOutside

variable {keys more : List String} {first second third : Fields}

theorem refl (keys : List String) (fields : Fields) :
    AgreeOutside keys fields fields :=
  fun _ _ => rfl

theorem mono (agree : AgreeOutside keys first second)
    (wider : ∀ key ∈ keys, key ∈ more) : AgreeOutside more first second :=
  fun key outside => agree key fun inside => outside (wider key inside)

theorem trans (left : AgreeOutside keys first second)
    (right : AgreeOutside more second third) :
    AgreeOutside (keys ++ more) first third := by
  intro key outside
  rw [List.mem_append, not_or] at outside
  exact (right key outside.2).trans (left key outside.1)

theorem set (fields : Fields) (key : String) (value : Json) :
    AgreeOutside [key] fields (fields.set key value) := by
  intro other outside
  exact Fields.get?_set_of_ne _ (Ne.symm (List.ne_of_not_mem_cons outside))
    value

theorem erase (fields : Fields) (key : String) :
    AgreeOutside [key] fields (fields.erase key) := by
  intro other outside
  exact Fields.get?_erase_of_ne _ (Ne.symm (List.ne_of_not_mem_cons outside))

end AgreeOutside

/-- Two stems share no field. -/
def FieldsApart (stem other : String) : Prop :=
  ∀ key ∈ refFields stem, key ∉ refFields other

instance : Std.Symm FieldsApart :=
  ⟨fun _ _ apart key inside member => apart key member inside⟩

instance (stem other : String) : Decidable (FieldsApart stem other) :=
  inferInstanceAs (Decidable (∀ key ∈ refFields stem, key ∉ refFields other))

/-- Stems that share no field and do not stand for a bare id. -/
structure SlotStems (stems : List String) : Prop where
  apart : stems.Pairwise FieldsApart
  given : ∀ stem ∈ stems, stem ≠ "" ∧ stem ≠ "content"

namespace SlotStems

variable {stem : String} {stems : List String}

theorem head (distinct : SlotStems (stem :: stems)) :
    ∀ key ∈ refFields stem, key ∉ refKeys stems := by
  intro key member inside
  obtain ⟨other, there, shared⟩ := List.mem_flatMap.mp inside
  exact (List.pairwise_cons.mp distinct.apart).1 other there key member shared

theorem tail (distinct : SlotStems (stem :: stems)) : SlotStems stems :=
  ⟨(List.pairwise_cons.mp distinct.apart).2, fun other member =>
    distinct.given other (List.mem_cons_of_mem _ member)⟩

theorem sublist {fewer : List String} (distinct : SlotStems stems)
    (among : fewer.Sublist stems) : SlotStems fewer :=
  ⟨distinct.apart.sublist among, fun other member =>
    distinct.given other (among.subset member)⟩

theorem disjoint (distinct : SlotStems stems) {other : String}
    (here : stem ∈ stems) (there : other ∈ stems) (differ : stem ≠ other) :
    FieldsApart stem other :=
  distinct.apart.forall here there differ

end SlotStems

section Reading

variable {before after : Fields} {stem : String} {id : ContentId}

/-- Only the two fields of a stem are read for it. -/
theorem ref_id_congr (given : stem ≠ "" ∧ stem ≠ "content")
    (same : ∀ key ∈ refFields stem, after.get? key = before.get? key)
    (index : Option LocatorIndex) :
    ref_id index after stem = ref_id index before stem := by
  have located := same (uri_field_name stem) List.mem_cons_self
  have legacy := same (cid_field_name stem)
    (List.mem_cons_of_mem _ List.mem_cons_self)
  have uri : ref_uri after stem = ref_uri before stem := by
    unfold ref_uri
    rw [located]
  have bare : (decide (stem = "") || decide (stem = "content")) = false := by
    simp [given]
  have kept : legacyId after stem = legacyId before stem := by
    unfold legacyId
    rw [legacy, bare]
    rfl
  unfold ref_id
  rw [uri, kept]

theorem Names.agree (names : Names before stem id)
    (given : stem ≠ "" ∧ stem ≠ "content") {keys : List String}
    (agree : AgreeOutside keys before after)
    (outside : ∀ key ∈ refFields stem, key ∉ keys) : Names after stem id := by
  intro index
  rw [ref_id_congr given (fun key member => agree key (outside key member))]
  exact names index

end Reading

section Setting

variable {obj after : Fields} {stem value base_url eid : String}

theorem set_ref_ok (ran : set_ref obj stem value base_url = .ok (eid, after)) :
    AgreeOutside (refFields stem) obj after ∧
      after.get? (cid_field_name stem) = none := by
  unfold set_ref at ran
  obtain ⟨pair, _, same⟩ := Raised.bind_returns ran
  obtain rfl := (congrArg Prod.snd (Except.ok.inj same))
  constructor
  · exact (AgreeOutside.set obj _ _).trans (AgreeOutside.erase _ _)
  · exact Fields.get?_erase_self _ _

theorem set_ref_wellFormed (valid : (Json.obj obj).wellFormed = true)
    (ran : set_ref obj stem value base_url = .ok (eid, after)) :
    (Json.obj after).wellFormed = true := by
  unfold set_ref at ran
  obtain ⟨pair, _, same⟩ := Raised.bind_returns ran
  obtain rfl := (congrArg Prod.snd (Except.ok.inj same))
  exact Json.wellFormed_erase (Json.wellFormed_set valid _ rfl) _

/-- The slot that is set names the id that the text spells. -/
theorem set_ref_names (base : BaseUrl) {id : ContentId}
    (spells : ContentId.Spells value id)
    (ran : set_ref obj stem value base.text = .ok (eid, after)) :
    Names after stem id := by
  have located : Locates id base.text none := by
    cases id with
    | named digest => exact .node base
    | segment text legal bare => exact .legacy _ fun _ same => by cases same
  obtain ⟨resolved, built, stored⟩ := build_content_ref_located located
  unfold set_ref at ran
  rw [built value spells] at ran
  obtain rfl := (congrArg Prod.snd (Except.ok.inj ran))
  intro index
  apply ref_id_stored stored
  rw [Fields.get?_erase_of_ne _
    (uri_field_name_ne_cid_field_name stem).symm, Fields.get?_set_self]

end Setting

end Cats
