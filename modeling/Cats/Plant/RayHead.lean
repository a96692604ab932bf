import Cats.Codec.Json
import Cats.Kubernetes.Quantity
import Cats.Python.Integer
import Cats.Python.Value

/-!
# The head of a Ray cluster

A heal patches the memory of the head container in the RayCluster document, deletes
the head pod, and lets the controller make a new one from the patched template.
What it patches is the first container with a head's name, or the first of all; what
it looks at afterwards is the first container of the pod.
-/

namespace Cats

namespace RayHead

open Kubernetes

/-- `HEAD_MEMORY`. -/
def headMemory : String := "4G"

section Memory

/-- Digits that `str.isdigit` knows and `int` does not read. -/
def otherDigits : List (Nat × Nat) :=
  [(178, 179), (185, 185), (4969, 4977), (6618, 6618), (8304, 8304),
    (8308, 8313), (8320, 8329), (9312, 9320), (9332, 9340), (9352, 9360),
    (9450, 9450), (9461, 9469), (9471, 9471), (10102, 10110), (10112, 10120),
    (10122, 10130), (68160, 68163), (69216, 69224), (69714, 69722),
    (127232, 127242)]

/-- `text.isdigit()`. -/
def isdigit (text : List Char) : Bool :=
  !text.isEmpty && text.all fun character =>
    (Text.decimal? character).isSome || otherDigits.any fun range =>
      range.1 ≤ character.toNat && character.toNat ≤ range.2

/-- `text.replace('gi', 'g')`. -/
def replaceGi : List Char → List Char
  | 'g' :: 'i' :: rest => 'g' :: replaceGi rest
  | character :: rest => character :: replaceGi rest
  | [] => []

/-- `(value or '').strip().lower().replace('gi', 'g')`. -/
def memoryText (value : Json) : Except Raised (List Char) :=
  if value.truthy then
    match value with
    | .str text => .ok (replaceGi (Text.lower (Text.strip text)).toList)
    | other => .error ⟨.attributeError,
        s!"'{other.typeName}' object has no attribute 'strip'"⟩
  else .ok []

/-- The error of `int(text)`. -/
def intError (text : List Char) : Raised :=
  if text.all fun character => (Text.decimal? character).isSome then
    .valueError ("Exceeds the limit (4300 digits) for integer string " ++
      s!"conversion: value has {text.length} digits; use " ++
      "sys.set_int_max_str_digits() to increase the limit")
  else .valueError
    s!"invalid literal for int() with base 10: {Text.repr (String.ofList text)}"

/-- `_memory_is_healed(value)`. -/
def memory_is_healed (value : Json) : Except Raised Bool := do
  let text ← memoryText value
  if text ∈ ["4g".toList, "4096mi".toList, "4000m".toList] then .ok true
  else if isdigit text then
    match Text.int? (String.ofList text) with
    | some number => .ok (decide (4000000000 ≤ number))
    | none => .error (intError text)
  else .ok false

end Memory

section Documents

/-- `doc.get(first, {}).….get(last)`. -/
def descend : List String → Json → Except Raised Json
  | [], doc => .ok doc
  | [key], doc => do
      let fields ← doc.mapping
      .ok ((fields.get? key).getD .null)
  | key :: path, doc => do
      let fields ← doc.mapping
      descend path ((fields.get? key).getD (.obj []))

/-- The document with another value at a path that is there. -/
def replaceAt : List String → Json → Json → Json
  | [], value, _ => value
  | key :: path, value, .obj fields =>
      .obj (Fields.set fields key (replaceAt path value
        ((Fields.get? fields key).getD (.obj []))))
  | _, _, doc => doc

/-- Where the template of the head lists its containers. -/
def headPath : List String :=
  ["spec", "headGroupSpec", "template", "spec", "containers"]

/-- `fields.setdefault(key, value)`: the bindings afterwards. -/
def setdefault (fields : Fields) (key : String) (value : Json) : Fields :=
  match fields.get? key with
  | some _ => fields
  | none => fields.set key value

/-- `container.get('name') in ('ray-head', 'ray-node')`. -/
def isHead (container : Json) : Except Raised Bool := do
  let fields ← container.mapping
  .ok (fields.get? "name" = some (.str "ray-head") ||
    fields.get? "name" = some (.str "ray-node"))

/-- The first container with a head's name. -/
def findHead : List Json → Except Raised (Option Nat)
  | [] => .ok none
  | container :: containers => do
      if ← isHead container then .ok (some 0)
      else do
        let later ← findHead containers
        .ok (later.map (· + 1))

/-- The containers of the template, and which of them `_head_container(doc)` is. -/
def head_container (doc : Json) : Except Raised (List Json × Nat) := do
  let value ← descend headPath doc
  if value.truthy then
    let containers ← value.iterate
    let head ← findHead containers
    .ok (containers, head.getD 0)
  else .error (.runtimeError "RayCluster headGroupSpec has no containers")

/-- What has no method of a dict. -/
def lacks (value : Json) (method : String) : Raised :=
  ⟨.attributeError, s!"'{value.typeName}' object has no attribute '{method}'"⟩

/-- `section['memory'] = HEAD_MEMORY` and `section.setdefault('cpu', '1')`. -/
def withMemory (limits : Json) : Except Raised Json := do
  let changed ← limits.setItem "memory" (.str headMemory)
  match changed with
  | .obj fields => .ok (.obj (setdefault fields "cpu" (.str "1")))
  | other => .error (lacks other "setdefault")

/-- The limits, or the requests, of `resources` with the memory set. -/
def setMemory (key : String) (resources : Fields) : Except Raised Fields := do
  let limits ← withMemory ((resources.get? key).getD (.obj []))
  .ok (resources.set key limits)

/-- The loop of `_upsert_env(container, name, value)`. -/
def upsertItems (name value : String) : List Json → Except Raised (List Json)
  | [] => .ok [.obj [("name", .str name), ("value", .str value)]]
  | item :: items => do
      let fields ← item.mapping
      if fields.get? "name" = some (.str name) then
        .ok (.obj (fields.set "value" (.str value)) :: items)
      else do
        let later ← upsertItems name value items
        .ok (item :: later)

/-- `_upsert_env(container, name, value)`. -/
def upsert_env (container : Fields) (name value : String) :
    Except Raised Fields :=
  match (container.get? "env").getD (.arr []) with
  | .arr items => do
      let changed ← upsertItems name value items
      .ok (container.set "env" (.arr changed))
  | other => do
      let items ← other.iterate
      match items with
      | [] => .error (lacks other "append")
      | _ => .error (lacks (.str "") "get")

/-- What `_set_head_memory(doc)` does to the container. -/
def patchContainer (container : Fields) : Except Raised Fields :=
  match (container.get? "resources").getD (.obj []) with
  | .obj resources => do
      let limited ← setMemory "limits" resources
      let requested ← setMemory "requests" limited
      upsert_env (container.set "resources" (.obj requested))
        "RAY_memory_monitor_refresh_ms" "0"
  | other => .error (lacks other "setdefault")

/-- `_set_head_memory(doc)`. -/
def set_head_memory (doc : Json) : Except Raised Json := do
  let (containers, head) ← head_container doc
  let container ← ((containers[head]?).getD .null).mapping
  let patched ← patchContainer container
  .ok (replaceAt headPath (.arr (containers.set head (.obj patched))) doc)

end Documents

section Pods

/-- `value.get(key) or fallback` of a dict, where the program goes on to call
`get`. -/
def orEmpty (value : Option Json) : Except Raised Fields :=
  match value with
  | some value => if value.truthy then value.mapping else .ok []
  | none => .ok []

/-- The memory of the first container: its `resources`, its limits. -/
def containerMemory (container : Json) : Except Raised Json := do
  let fields ← container.mapping
  let resources ← orEmpty (fields.get? "resources")
  let limits ← ((resources.get? "limits").getD (.obj [])).mapping
  let memory := (limits.get? "memory").getD .null
  .ok (if memory.truthy then memory else .str "")

/-- `_pod_memory(pod)`. -/
def pod_memory (pod : Option Json) : Except Raised Json :=
  match pod with
  | none => .ok (.str "")
  | some pod =>
      if pod.truthy then do
        let value ← descend ["spec", "containers"] pod
        if value.truthy then
          match value with
          | .arr (first :: _) => containerMemory first
          | .obj _ => .error ⟨.keyError, "0"⟩
          | .str _ => .error (lacks (.str "") "get")
          | other => .error ⟨.typeError,
              s!"'{other.typeName}' object is not subscriptable"⟩
        else .ok (.str "")
      else .ok (.str "")

/-- `cond.get('type') == 'Ready' and cond.get('status') == 'True'`, of some
condition. -/
def anyReady : List Json → Except Raised Bool
  | [] => .ok false
  | condition :: conditions => do
      let fields ← condition.mapping
      if fields.get? "type" = some (.str "Ready") &&
          fields.get? "status" = some (.str "True") then .ok true
      else anyReady conditions

/-- `_pod_ready(pod)`. -/
def pod_ready (pod : Option Json) : Except Raised Bool :=
  match pod with
  | none => .ok false
  | some pod =>
      if pod.truthy then do
        let fields ← pod.mapping
        let status ← orEmpty (fields.get? "status")
        if status.get? "phase" = some (.str "Running") then do
          let conditions ← match status.get? "conditions" with
            | some value => if value.truthy then value.iterate else .ok []
            | none => .ok []
          anyReady conditions
        else .ok false
      else .ok false

/-- The uid of the pod that is deleted. -/
def podUid (pod : Option Json) : Except Raised Json := do
  let fields ← orEmpty pod
  descend ["metadata", "uid"] (.obj fields)

/-- A controller that makes the head pod from the template: the pod has its
containers, a uid that is not the one of the pod deleted, and is ready. -/
structure Controller where
  create : Json → Json → Json
  containers : ∀ doc uid,
    descend ["spec", "containers"] (create doc uid) = descend headPath doc
  ready : ∀ doc uid, pod_ready (some (create doc uid)) = .ok true
  fresh : ∀ doc uid, ∃ other, podUid (some (create doc uid)) = .ok other ∧
    other.truthy = true ∧ other ≠ uid

/-- The RayCluster document and the head pod. -/
structure Cluster where
  doc : Json
  pod : Option Json
  deriving DecidableEq

/-- What a heal returns. -/
structure Healed where
  patched : Bool
  rolled : Bool
  memory : Json
  deriving DecidableEq

/-- `_memory_is_healed(_pod_memory(pod)) and _pod_ready(pod)`. -/
def alreadyHealed (pod : Option Json) : Except Raised Bool := do
  let memory ← pod_memory pod
  if ← memory_is_healed memory then pod_ready pod else .ok false

/-- `repr(value)`. -/
def reprOf : Json → String
  | .str text => Text.repr text
  | value => value.toStr

/-- `_wait_new_head(…)`, where the pod is seen as the controller made it. -/
def wait_new_head (pod old_uid : Json) : Except Raised Json := do
  let uid ← podUid (some pod)
  let ready ← pod_ready (some pod)
  if uid.truthy && uid ≠ old_uid && ready then .ok pod
  else do
    let status ← descend ["status", "phase"] pod
    let memory ← pod_memory (some pod)
    .error (.runtimeError ("Ray head pod did not become Ready after restart " ++
      s!"(phase={reprOf status}, memory={reprOf memory}). " ++
      "Raise Docker Desktop memory if the pod is Pending."))

/-- `container['resources']['limits']['memory']`. -/
def specMemory (container : Json) : Except Raised Json := do
  let resources ← container.item "resources"
  let limits ← resources.item "limits"
  limits.item "memory"

variable (controller : Controller)

/-- `heal_live_ray_head(…)`, where every command succeeds. -/
def heal_live_ray_head (cluster : Cluster) :
    Except Raised (Healed × Cluster) := do
  if ← alreadyHealed cluster.pod then
    .ok (⟨false, false, .str headMemory⟩, cluster)
  else do
    let doc ← set_head_memory cluster.doc
    let (containers, head) ← head_container doc
    let spec_memory ← specMemory ((containers[head]?).getD .null)
    if ← memory_is_healed spec_memory then do
      let old_uid ← podUid cluster.pod
      let pod ← wait_new_head (controller.create doc old_uid) old_uid
      let live_memory ← pod_memory (some pod)
      if ← memory_is_healed live_memory then
        .ok (⟨true, true, live_memory⟩, ⟨doc, some pod⟩)
      else .error (.runtimeError ("Ray head pod came back with memory " ++
        s!"{reprOf live_memory}, want {headMemory}"))
    else .error (.runtimeError
      s!"RayCluster spec memory stayed {reprOf spec_memory}")

end Pods

end RayHead

end Cats
