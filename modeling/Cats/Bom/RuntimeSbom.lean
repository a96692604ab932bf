import Cats.Bom.ImageRefs
import Cats.Codec.JsonSort

/-!
# The runtime SBOM

Each image ref is resolved to a digest by `docker image inspect` and cataloged
by Syft; both commands may be missing, fail, run out of time or print anything.
What comes out is a CycloneDX document that the Invoice cites.
-/

namespace Cats

namespace Sbom

/-- How a command ends: it cannot be run or runs out of time, or it exits. -/
inductive Outcome where
  | failed
  | exited (returncode : Int) (stdout stderr : Bytes)

/-- The commands of a Node, and how each ends on an image. -/
structure Tools where
  docker : Bool
  syft : Option String
  inspected : String → Outcome
  cataloged : String → Outcome

/-- `subprocess.run(args, capture_output=True, text=True, …)` where `OSError` and
`TimeoutExpired` are caught: the exit code and the text printed. -/
def subprocess_run (args : List String) (outcome : Outcome) :
    Except Raised (Option (Int × List Char)) :=
  if args.any fun arg => arg.toList.contains '\x00' then
    .error (.valueError "embedded null byte")
  else
    match outcome with
    | .failed => .ok none
    | .exited returncode stdout stderr => do
        let out ← readText stdout
        let _ ← readText stderr
        .ok (some (returncode, out))

section Docker

/-- `text.lower()`; one letter becomes two characters. -/
def lowered (text : String) : String :=
  String.ofList (text.toList.flatMap fun character =>
    if character = '\u0130' then ['i', '\u0307'] else [character.toLower])

/-- `text.split('@', 1)[1]`. -/
def afterAt (text : String) : Option String :=
  (Text.partition? '@' text.toList).map fun parts => String.ofList parts.2

/-- The sixty-four characters after `sha256:`. -/
def sha256Of (text : String) : Option String :=
  let digest := Text.strip text
  if Text.startsWith (lowered digest) "sha256:" then
    let hex_digest :=
      lowered (Text.strip (String.ofList (digest.toList.drop 7)))
    if hex_digest.toList.length = 64 then some hex_digest else none
  else none

/-- The digest a ref carries itself. -/
def ownDigest (raw : String) : Option String :=
  (afterAt raw).bind fun rest =>
    if Text.occursIn "sha256:".toList rest.toList then sha256Of rest else none

/-- The first digest of `RepoDigests`. -/
def repoDigest : List Json → Option String
  | [] => none
  | .str item :: items =>
      match (afterAt item).bind sha256Of with
      | some hex_digest => some hex_digest
      | none => repoDigest items
  | _ :: items => repoDigest items

/-- The list `docker image inspect` prints. -/
def repoDigests (stdout : List Char) : List Json :=
  let text := Text.stripChars stdout
  match Json.loads (if text = [] then ['[', ']'] else text) with
  | some (.arr digests) => digests
  | _ => []

/-- `docker_image_digest(ref)`. -/
def docker_image_digest (tools : Tools) (ref : String) :
    Except Raised (Option String) :=
  let raw := Text.strip ref
  if raw = "" then .ok none
  else
    match ownDigest raw with
    | some hex_digest => .ok (some hex_digest)
    | none =>
        if tools.docker then do
          let proc ← subprocess_run
            ["docker", "image", "inspect", "--format",
              "\x7b\x7bjson .RepoDigests\x7d\x7d", raw] (tools.inspected raw)
          match proc with
          | none => .ok none
          | some (returncode, stdout) =>
              .ok (if returncode = 0 then repoDigest (repoDigests stdout)
                else none)
        else .ok none

end Docker

section Purl

/-- `is_legacy_cid(content_id)`. -/
def is_legacy_cid (content_id : String) : Bool :=
  let value := Text.strip content_id
  value ≠ "" && !is_ni_or_digest value && isCidSegment value

/-- `_require_token(value, label=label)`. -/
def require_token (value label : String) : Except Raised String :=
  if Text.strip value = "" then .error (.valueError s!"{label} is required")
  else .ok (Text.strip value)

/-- `_digest_hex(token)`. -/
def digest_hex (token : String) : Except Raised Digest :=
  let stripped := Text.strip token
  let value := if Text.startsWith (lowered stripped) "sha256:" then
    String.ofList (stripped.toList.drop 7) else stripped
  if is_legacy_cid value then
    .error (.valueError s!"legacy CID is not an OCI digest: {Text.repr token}")
  else if is_ni_or_digest value then from_ni value
  else .error (.valueError
    s!"OCI digest must be ni: or hex sha-256: {Text.repr token}")

/-- `fru_purl('oci', content_id, name=name)`. -/
def oci_purl (name content_id : String) : Except Raised String := do
  let image ← require_token name "name"
  let token ← require_token content_id "content_id or version"
  let hex_digest ← digest_hex token
  .ok s!"pkg:oci/{image}@sha256:{hex_digest.hex}"

/-- `_oci_name(ref)`. -/
def oci_name (ref : String) : String :=
  let base := Text.strip (String.ofList (ref.toList.takeWhile (· ≠ '@')))
  let base := if Text.startsWith base "docker.io/" then
    String.ofList (base.toList.drop "docker.io/".toList.length) else base
  if (base.toList.rtakeWhile (· ≠ '/')).contains ':' then
    String.ofList (base.toList.rdropWhile (· ≠ ':')).dropLast
  else base

/-- `cdx_oci_component(name, digest_hex)`. -/
def cdx_oci_component (name digest : String) : Except Raised Json := do
  let stripped := lowered (Text.strip digest)
  let hex_digest := if Text.startsWith stripped "sha256:" then
    String.ofList (stripped.toList.drop 7) else stripped
  let purl ← oci_purl name hex_digest
  .ok (.obj [("name", .str name), ("purl", .str purl),
    ("type", .str "container"), ("version", .str s!"sha256:{hex_digest}")])

/-- `str(value or fallback)`. -/
def textOr (value : Option Json) (fallback : String) : String :=
  match value with
  | some value => if value.truthy then value.toStr else fallback
  | none => fallback

/-- `cdx_component_from_syft_artifact(artifact)`. -/
def cdx_component_from_syft_artifact : Json → Option Json
  | .obj artifact =>
      match Fields.get? artifact "purl" with
      | some (.str purl) =>
          if Text.strip purl = "" then none
          else some (.obj
            [("name", .str (Text.strip (textOr (Fields.get? artifact "name")
              purl))),
              ("purl", .str (Text.strip purl)), ("type", .str "library"),
              ("version", .str (textOr (Fields.get? artifact "version") ""))])
      | _ => none
  | _ => none

end Purl

section Syft

/-- `syft_binary(explicit)`. -/
def syft_binary (tools : Tools) (explicit : Option String) : Option String :=
  match explicit with
  | some path =>
      if Text.strip path = "" then tools.syft else some (Text.strip path)
  | none => tools.syft

/-- `run_syft(image, syft_bin=syft_bin)`: the document, and whether time was
taken. -/
def run_syft (tools : Tools) (syft_bin : Option String) (image : String) :
    Except Raised (Option Fields × Bool) :=
  match syft_binary tools syft_bin with
  | none => .ok (none, false)
  | some binary => do
      let proc ← subprocess_run [binary, image, "-o", "syft-json"]
        (tools.cataloged image)
      match proc with
      | none => .ok (none, false)
      | some (returncode, stdout) =>
          if returncode = 0 then
            match Json.loads stdout with
            | some (.obj doc) => .ok (some doc, true)
            | _ => .ok (none, true)
          else .ok (none, true)

/-- `doc.get('artifacts') or []`, as the loop visits it. -/
def artifactsOf (doc : Fields) : Except Raised (List Json) :=
  match doc.get? "artifacts" with
  | some value => if value.truthy then value.iterate else .ok []
  | none => .ok []

end Syft

section Projecting

variable (tools : Tools) (syft_bin : Option String)

/-- What the loop over the refs gathers. -/
structure Gathered where
  components : List Json
  syft_docs : List Json
  syft_ran : Bool

/-- The component of a ref, where its digest was resolved. -/
def imageOf (ref : String) : Option String → Except Raised (List Json)
  | none => .ok []
  | some digest =>
      if digest = "" then .ok []
      else (cdx_oci_component (oci_name ref) digest).map ([·])

/-- One turn of the loop. -/
def gather (ref : String) : Except Raised Gathered := do
  let digest ← docker_image_digest tools ref
  let image ← imageOf ref digest
  let (doc, ran) ← run_syft tools syft_bin ref
  match doc with
  | none => .ok { components := image, syft_docs := [], syft_ran := ran }
  | some doc => do
      let artifacts ← artifactsOf doc
      .ok
        { components :=
            image ++ artifacts.filterMap cdx_component_from_syft_artifact
          syft_docs := [.obj doc]
          syft_ran := ran }

/-- The loop over the refs. -/
def gatherAll : List String → Except Raised Gathered
  | [] => .ok { components := [], syft_docs := [], syft_ran := false }
  | ref :: refs => do
      let first ← gather tools syft_bin ref
      let rest ← gatherAll refs
      .ok
        { components := first.components ++ rest.components
          syft_docs := first.syft_docs ++ rest.syft_docs
          syft_ran := first.syft_ran || rest.syft_ran }

/-- `str(item.get(key) or '')`. -/
def sortText (item : Json) (key : String) : String :=
  match item with
  | .obj fields => textOr (Fields.get? fields key) ""
  | _ => ""

/-- The order of the sort keys of two components. -/
def sortsBefore (left right : Json) : Bool :=
  let keys := ["purl", "name", "version"]
  decide (keys.map (sortText left) ≤ keys.map (sortText right))

/-- `FIXED_CREATED`. -/
def fixedCreated : String := "1970-01-01T00:00:00Z"

/-- `cyclonedx_16(subject_id=subject, components=components, …)` of a canonical
id; `serial` is the version 5 UUID of a name. -/
def cyclonedx_16 (serial : String → String) (subject : String)
    (components : List Json) (created : String) : Json :=
  .obj [("bomFormat", .str "CycloneDX"), ("specVersion", .str "1.6"),
    ("serialNumber", .str ("urn:uuid:" ++ serial subject)),
    ("version", .int 1),
    ("metadata", .obj [("timestamp", .str created),
      ("component", .obj [("type", .str "platform"),
        ("name", .str "structure_as_executed"),
        ("purl", .str ("pkg:generic/cats/structure@" ++ subject))])]),
    ("components", .arr (components.mergeSort sortsBefore))]

/-- The id `put_projection(mesh, obj, media_type=…)` returns. -/
def put_projection (obj : Json) : String :=
  to_ni (sha256_hex (Utf8.encodeAscii
    (Json.dumps .standard obj.sortKeys ++ ['\n'])))

/-- `require_ni(content_id, label=label)`. -/
def require_ni (content_id label : String) : Except Raised String :=
  let token := Text.strip content_id
  if token = "" then .error (.valueError s!"{label} is required")
  else if is_http_uri token then do
    let found ← content_id_from_uri none token
    match found with
    | some id =>
        if is_ni_or_digest id then equality_id id
        else .error (.valueError
          s!"{label} HTTP locator is not a CAS digest: {Text.repr token}")
    | none => .error (.valueError
        s!"{label} HTTP locator is not a CAS digest: {Text.repr token}")
  else if is_ni_or_digest token then equality_id token
  else .error (.valueError
    s!"{label} must be ni: or hex sha-256: {Text.repr token}")

/-- What `project_structure_runtime` puts and returns. -/
structure Projected where
  cdx : Json
  syft : Option Json
  syft_ran : Bool

/-- `out['runtime_cdx']`. -/
def Projected.runtime_cdx (projected : Projected) : String :=
  put_projection projected.cdx

/-- `out['runtime_syft']`. -/
def Projected.runtime_syft (projected : Projected) : Option String :=
  projected.syft.map put_projection

variable (fetch : String → Except Raised Json)
  (fetch_bytes : String → Except Raised Bytes) (index : Option LocatorIndex)
  (serial : String → String)

/-- `project_structure_runtime(…)`. -/
def project_structure_runtime (structure_as_executed_id : String)
    (structureDoc : Option Json) (image_refs : List String)
    (created : String) : Except Raised Projected := do
  let subject ← require_ni structure_as_executed_id "structure_as_executed_id"
  let refs ← collect_image_refs fetch fetch_bytes index structureDoc image_refs
  let gathered ← gatherAll tools syft_bin refs
  .ok
    { cdx := cyclonedx_16 serial subject gathered.components created
      syft := match gathered.syft_docs with
        | [] => none
        | [doc] => some doc
        | docs => some (.obj [("documents", .arr docs)])
      syft_ran := gathered.syft_ran }

/-- `put_runtime_sbom_nest(mesh, runtime)`. -/
def put_runtime_sbom_nest (base_url : String) (runtime : Projected) :
    Except Raised String := do
  let (_, nest) ← set_ref [] "cyclonedx" runtime.runtime_cdx base_url
  let nest ← match runtime.runtime_syft with
    | some syft_id => (set_ref nest "syft" syft_id base_url).map Prod.snd
    | none => .ok nest
  .ok (to_ni (sha256_hex (mintedBytes (.obj nest))))

/-- `cats_sbom_enabled()`. -/
def cats_sbom_enabled (value : Option String) : Bool :=
  ["1", "true", "yes", "on"].contains
    (Text.lower (Text.strip (value.getD "")))

/-- `attach_runtime_sbom(invoice, mesh, …)`: the nest, and the Invoice. -/
def attach_runtime_sbom (cats_sbom : Option String) (base_url : String)
    (invoice : Fields) (structure_as_executed_id : String)
    (structureDoc : Option Json) (image_refs : List String) :
    Except Raised (Option String × Fields) :=
  if cats_sbom_enabled cats_sbom then do
    let runtime ← project_structure_runtime tools syft_bin fetch fetch_bytes
      index serial structure_as_executed_id structureDoc image_refs
      fixedCreated
    let nest_id ← put_runtime_sbom_nest base_url runtime
    let (_, attached) ← set_ref invoice "runtime_sbom" nest_id base_url
    .ok (some nest_id, attached)
  else .ok (none, invoice)

end Projecting

end Sbom

end Cats
