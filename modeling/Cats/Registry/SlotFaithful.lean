import Cats.Cas.Opened
import Cats.Registry.Handoff

/-!
# Slots read at the record's ids

The fetch of a coherent handoff reads every slot of a registry stem at the id
the record has for that stem, wherever the slot stands.  A flattening inlines
what the slots' own URIs address exactly where these ids address the same.
-/

namespace Cats

namespace Handoff

open FlattenRefs

section

variable (cat : Json → Except Raised Fetched)
  (http_get_json : Json → Except Raised Json)

/-- The JSON `content_mesh.cat` has at a locator. -/
def catJson (locator : Json) : Except Raised Json := cat locator >>= Fetched.load

/-- Each slot read at its own URI. -/
def ownContent (_stem uri : String) : Except Raised Json :=
  catJson cat (.str uri)

/-- What the mesh has at an HTTP URI is what the URI answers. -/
def Agrees : Prop :=
  ∀ uri payload, Text.startsWith uri "http" = true →
    catJson cat (.str uri) = .ok payload →
      ∃ answer, http_get_json (.str uri) = .ok answer ∧
        answer.pyEq payload = true

/-- The flattening returns what it returns with each slot read at its own URI,
and every slot it opens is read as its URI's payload. -/
structure SlotFaithful (fetch : String → String → Except Raised Json)
    (allow : Option (List String)) (max_depth : Int) (envelope : Json) :
    Prop where
  returns : ∃ result log,
    flatten_uri_dict allow fetch max_depth envelope [] = .ok result log ∧
      flatten_uri_dict allow (ownContent cat) max_depth envelope [] =
        .ok result log
  own : ∀ slot, Opened allow fetch max_depth.toNat [] envelope slot →
    ∃ payload, fetch slot.stem slot.uri = .ok payload ∧
      catJson cat (.str slot.uri) = .ok payload

end

section

variable {record cat_response : Fields} {cat : Json → Except Raised Fetched}
  {http_get_json : Json → Except Raised Json}

/-- What is fetched is what the mesh has at the locator. -/
theorem make_content_fetch_ref_ok {stem uri : String} {payload : Json}
    (fetched : make_content_fetch_ref record cat http_get_json stem uri =
      .ok payload) :
    catJson cat (locatorOf record stem uri) = .ok payload := by
  obtain ⟨raw, read, fetched⟩ := Raised.bind_returns fetched
  obtain ⟨via_mesh, loaded, fetched⟩ := Raised.bind_returns fetched
  have here : catJson cat (locatorOf record stem uri) = .ok via_mesh := by
    unfold catJson
    rw [read]
    exact loaded
  rw [here]
  by_cases web : Text.startsWith uri "http" = true
  · rw [if_pos web] at fetched
    obtain ⟨via_http, _, fetched⟩ := Raised.bind_returns fetched
    split_ifs at fetched
    exact fetched
  · rw [if_neg web] at fetched
    exact fetched

/-- A locator with the payload of the URI is read without complaint. -/
theorem make_content_fetch_ref_of_same (agrees : Agrees cat http_get_json)
    {stem uri : String} {payload : Json}
    (own : catJson cat (.str uri) = .ok payload)
    (located : catJson cat (locatorOf record stem uri) = .ok payload) :
    make_content_fetch_ref record cat http_get_json stem uri =
      .ok payload := by
  obtain ⟨raw, read, loaded⟩ := Raised.bind_returns located
  unfold make_content_fetch_ref
  simp only [read, loaded, bind, Except.bind]
  by_cases web : Text.startsWith uri "http" = true
  · obtain ⟨answer, answered, same⟩ := agrees uri payload web own
    rw [if_pos web, answered]
    simp only [same, if_true]
  · rw [if_neg web]

/-- An accepted handoff hands out the fetch of its record. -/
theorem fetch_ref_of_accepted {handoff : Envelopes}
    (accepted : assert_control_plane_handoff_coherence record http_get_json
      cat_response (some cat) = .ok handoff) :
    handoff.fetch_ref =
      some (make_content_fetch_ref record cat http_get_json) := by
  obtain ⟨resolved, _, accepted⟩ := Raised.bind_returns accepted
  obtain ⟨locs, _, accepted⟩ := Raised.bind_returns accepted
  obtain ⟨⟨bom_ldp_uri, invoice_uri⟩, _, accepted⟩ :=
    Raised.bind_returns accepted
  obtain ⟨answer, _, accepted⟩ := Raised.bind_returns accepted
  obtain ⟨bom, _, accepted⟩ := Raised.bind_returns accepted
  obtain ⟨_, _, accepted⟩ := Raised.bind_returns accepted
  obtain ⟨answer, _, accepted⟩ := Raised.bind_returns accepted
  obtain ⟨invoice, _, accepted⟩ := Raised.bind_returns accepted
  obtain ⟨_, _, accepted⟩ := Raised.bind_returns accepted
  obtain ⟨answer, _, accepted⟩ := Raised.bind_returns accepted
  obtain ⟨order, _, accepted⟩ := Raised.bind_returns accepted
  obtain ⟨_, _, accepted⟩ := Raised.bind_returns accepted
  rw [← Except.ok.inj accepted]
  rfl

/-- Flattening an envelope of an accepted handoff is faithful exactly where, at
every slot that its own URIs open, the URI and the locator of the record have
the same payload. -/
theorem flatten_slotFaithful_iff {handoff : Envelopes}
    (accepted : assert_control_plane_handoff_coherence record http_get_json
      cat_response (some cat) = .ok handoff)
    {fetch_ref : String → String → Except Raised Json}
    (given : handoff.fetch_ref = some fetch_ref)
    (agrees : Agrees cat http_get_json) (allow : Option (List String))
    (max_depth : Int) (envelope : Json) :
    SlotFaithful cat fetch_ref allow max_depth envelope ↔
      ∀ slot,
        Opened allow (ownContent cat) max_depth.toNat [] envelope slot →
          ∃ payload, catJson cat (.str slot.uri) = .ok payload ∧
            catJson cat (locatorOf record slot.stem slot.uri) =
              .ok payload := by
  rw [fetch_ref_of_accepted accepted, Option.some.injEq] at given
  rw [← given]
  constructor
  · intro faithful slot opened
    have reached : Opened allow
        (make_content_fetch_ref record cat http_get_json) max_depth.toNat []
        envelope slot := by
      apply opened.of_agree
      intro other below
      obtain ⟨payload, fetched, own⟩ := faithful.own other below
      rw [fetched]
      exact own
    obtain ⟨payload, fetched, own⟩ := faithful.own slot reached
    exact ⟨payload, own, make_content_fetch_ref_ok fetched⟩
  · intro located
    have read : ∀ slot,
        Opened allow (ownContent cat) max_depth.toNat [] envelope slot →
          ∃ payload, make_content_fetch_ref record cat http_get_json slot.stem
              slot.uri = .ok payload ∧
            catJson cat (.str slot.uri) = .ok payload := by
      intro slot opened
      obtain ⟨payload, own, there⟩ := located slot opened
      exact ⟨payload, make_content_fetch_ref_of_same agrees own there, own⟩
    have agree : ∀ slot,
        Opened allow (ownContent cat) max_depth.toNat [] envelope slot →
          make_content_fetch_ref record cat http_get_json slot.stem slot.uri =
            ownContent cat slot.stem slot.uri := by
      intro slot opened
      obtain ⟨payload, fetched, own⟩ := read slot opened
      rw [fetched]
      exact own.symm
    constructor
    · have same := flatten_congr max_depth.toNat [] envelope agree
      obtain ⟨result, log, ran⟩ := flatten_returns max_depth.toNat [] envelope
        (fun slot opened => by
          obtain ⟨payload, _, own⟩ := read slot opened
          exact ⟨payload, own⟩) []
      refine ⟨result, log, ?_, ran⟩
      unfold flatten_uri_dict
      rw [same]
      exact ran
    · intro slot opened
      exact read slot (opened.of_agree agree)

end

section InputData

/-- What a Node serves: an Order whose input Invoice cites other data than the
Invoice of its execution does. -/
def served : String → Json
  | "http://n/bom" => .obj [("invoice_uri", .str "http://n/output")]
  | "http://n/output" => .obj [("order_uri", .str "http://n/order"),
      ("data_uri", .str "http://n/after"), ("seed_uri", .str "http://n/seed")]
  | "http://n/order" => .obj [("function_uri", .str "http://n/function"),
      ("structure_uri", .str "http://n/structure"),
      ("invoice_uri", .str "http://n/input")]
  | "http://n/input" => .obj [("data_uri", .str "http://n/before")]
  | "http://n/before" => .arr [.int 1]
  | "http://n/after" => .arr [.int 2]
  | "after" => .arr [.int 2]
  | _ => .obj []

def servedMesh : Json → Except Raised Fetched
  | .str uri => .ok (.value (served uri))
  | _ => .error ⟨.typeError, ""⟩

def servedHttp : Json → Except Raised Json
  | .str uri => .ok (served uri)
  | _ => .error ⟨.typeError, ""⟩

/-- The record of the execution, with the id of its data. -/
def servedRecord : Fields :=
  [("data", .str "after"), ("data_uri", .str "http://n/after"),
    ("locators", .obj [("bom_ldp_uri", .str "http://n/bom"),
      ("invoice_uri", .str "http://n/output")])]

def servedResponse : Fields := [("bom_ldp_uri", .str "http://n/bom")]

def servedHandoff : Envelopes :=
  { bom_ldp_uri := "http://n/bom"
    invoice_uri := "http://n/output"
    bom := [("invoice_uri", .str "http://n/output")]
    invoice := [("order_uri", .str "http://n/order"),
      ("data_uri", .str "http://n/after"), ("seed_uri", .str "http://n/seed")]
    order := [("function_uri", .str "http://n/function"),
      ("structure_uri", .str "http://n/structure"),
      ("invoice_uri", .str "http://n/input")]
    locators := [("bom_ldp_uri", .str "http://n/bom"),
      ("invoice_uri", .str "http://n/output")]
    fetch_ref :=
      some (make_content_fetch_ref servedRecord servedMesh servedHttp) }

theorem served_accepted :
    assert_control_plane_handoff_coherence servedRecord servedHttp
      servedResponse (some servedMesh) = .ok servedHandoff := by
  rfl

theorem served_agrees : Agrees servedMesh servedHttp := by
  intro uri payload _ read
  cases read
  exact ⟨_, rfl, Json.pyEq_refl _⟩

/-- Of an accepted handoff whose mesh and HTTP agree, the Order is not inlined
faithfully: the data of its input Invoice is read at the id of the output data. -/
theorem flatten_order_not_slotFaithful :
    Agrees servedMesh servedHttp ∧
      assert_control_plane_handoff_coherence servedRecord servedHttp
        servedResponse (some servedMesh) = .ok servedHandoff ∧
      ¬ SlotFaithful servedMesh
        (make_content_fetch_ref servedRecord servedMesh servedHttp) none 2
        (.obj servedHandoff.order) := by
  refine ⟨served_agrees, served_accepted, ?_⟩
  intro faithful
  have input : (⟨"invoice", "http://n/input"⟩ : Slot) ∈
      uriByStem none servedHandoff.order := by
    decide
  have data : (⟨"data", "http://n/before"⟩ : Slot) ∈
      uriByStem none [("data_uri", .str "http://n/before")] := by
    decide
  have fetched : make_content_fetch_ref servedRecord servedMesh servedHttp
      "invoice" "http://n/input" = .ok (served "http://n/input") := rfl
  have opened : Opened none
      (make_content_fetch_ref servedRecord servedMesh servedHttp) 2 []
      (.obj servedHandoff.order) ⟨"data", "http://n/before"⟩ :=
    .inside input (by decide) fetched (.here data (by decide))
  obtain ⟨payload, compared, _⟩ := faithful.own _ opened
  cases compared

/-- The data of its output Invoice is. -/
theorem flatten_invoice_slotFaithful :
    SlotFaithful servedMesh
      (make_content_fetch_ref servedRecord servedMesh servedHttp)
      (some ["data"]) 1 (.obj servedHandoff.invoice) := by
  apply (flatten_slotFaithful_iff served_accepted rfl served_agrees _ _ _).mpr
  intro slot opened
  have slots : uriByStem (some ["data"]) servedHandoff.invoice =
      [⟨"data", "http://n/after"⟩] := by
    decide
  cases opened with
  | value member _ below =>
      simp only [servedHandoff, List.mem_cons, List.not_mem_nil, or_false]
        at member
      rcases member with same | same | same
      · rw [same] at below
        cases below
      · rw [same] at below
        cases below
      · rw [same] at below
        cases below
  | here member _ =>
      rw [slots, List.mem_singleton] at member
      rw [member]
      exact ⟨.arr [.int 2], rfl, rfl⟩
  | inside member _ fetched below =>
      rw [slots, List.mem_singleton] at member
      rw [member] at fetched
      cases fetched
      cases below with
      | item member below =>
          rw [List.mem_singleton.mp member] at below
          cases below

end InputData

end Handoff

end Cats
