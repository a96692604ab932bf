import Cats.Cas.Hashlink
import Cats.Ldp.Resources

/-!
# What the routes answer

A GET of an Order, an Invoice or a BOM reads the stored file as JSON and answers
what `jsonify` writes of it.  A Solid pod answers the bytes that were put.
-/

namespace Cats

/-- The status and the body of an answer. -/
structure Response where
  status : ℕ
  body : Bytes

/-- `jsonify(obj)`: the keys are sorted, and the layout is compact outside the
debug mode. -/
def jsonify (debug : Bool) (obj : Json) : Bytes :=
  Utf8.encodeAscii
    (Json.dumps (if debug then .indented else .compact) obj.sortKeys ++ ['\n'])

/-- What an encoder wrote is read as the document. -/
theorem load_written (style : Json.Style) {value : Json}
    (valid : value.wellFormed = true) (floats : value.withFloats = value) :
    readText (Utf8.encodeAscii (Json.dumps style value ++ ['\n'])) >>=
      loadText = .ok value := by
  have read := Json.loads_decode_dumps style valid ['\n']
    (List.all_eq_true.mp rfl)
  obtain ⟨text, decoded, loaded⟩ := Option.bind_eq_some_iff.mp read
  simp only [readText, decoded, bind, Except.bind, loadText, loaded, floats]

/-- `json.loads(raw.decode('utf-8'))` of a file, when there is one. -/
def loadFile (raw : Option Bytes) : Except Raised (Option Json) :=
  match raw with
  | none => .ok none
  | some raw => do
      let text ← readText raw
      (loadText text).map some

/-- `JsonResourceStore.get(content_id)`. -/
def JsonResourceStore.get (store : JsonResourceStore) (content_id : String) :
    Except Raised (Option Json) := do
  let raw ← store.get_bytes content_id
  loadFile raw

/-- The files under `.cats/ldp/boms`, by stem. -/
structure BomLdpStore where
  files : String → Option Bytes

namespace BomLdpStore

/-- `BomLdpStore.put(bom_cid, bom)`. -/
def put (store : BomLdpStore) (bom_cid : String) (bom : Json) :
    Except Raised BomLdpStore := do
  let key ← content_id_fs_key bom_cid "bom_cid"
  .ok { files := Function.update store.files key (some (sortedDocument bom)) }

/-- `BomLdpStore.get(bom_cid)`. -/
def get (store : BomLdpStore) (bom_cid : String) :
    Except Raised (Option Json) := do
  let key ← content_id_fs_key bom_cid "bom_cid"
  loadFile (store.files key)

end BomLdpStore

/-- The body `SolidBomPublisher.publish(bom_cid, bom)` puts. -/
def solidBody (bom : Json) : Bytes := sortedDocument bom

section Route

variable (debug : Bool)

/-- `jsonify({'error': message}), status`. -/
def refusal (message : String) (status : ℕ) : Response :=
  ⟨status, jsonify debug (.obj [("error", .str message)])⟩

/-- The answer to a GET of what a store finds. -/
def answer (found : Except Raised (Option Json)) (invalid : String) :
    Except Raised Response :=
  match found with
  | .error raised =>
      if raised.isValueError then .ok (refusal debug invalid 400)
      else .error raised
  | .ok none => .ok (refusal debug "not found" 404)
  | .ok (some .null) => .ok (refusal debug "not found" 404)
  | .ok (some obj) => .ok ⟨200, jsonify debug obj⟩

/-- `ldp_json_resource(content_id)`, on a GET. -/
def ldp_json_resource (store : JsonResourceStore) (content_id : String) :
    Except Raised Response :=
  answer debug (store.get content_id) s!"invalid {store.kind.name} id"

/-- `ldp_bom_resource(bom_cid)`, on a GET. -/
def ldp_bom_resource (store : BomLdpStore) (bom_cid : String) :
    Except Raised Response :=
  answer debug (store.get bom_cid) "invalid bom_cid"

end Route

end Cats
