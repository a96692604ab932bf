import Cats.Bom.RuntimeSbom
import Mathlib.Data.Bool.AllAny

/-!
# What a ref fails on

A command raises where an argument has a NUL or what it prints is not text; the
component of an image raises where the sixty-four characters are no digest or no
name stands before them; a catalog raises where its artifacts are nothing to loop
over.  Everything else is skipped.
-/

namespace Cats

namespace Sbom

/-- What the command prints is text. -/
def Outcome.Readable : Outcome → Prop
  | .failed => True
  | .exited _ stdout stderr =>
      (Utf8.decode stdout).isSome = true ∧ (Utf8.decode stderr).isSome = true

/-- The command is asked for the digest: the ref carries none. -/
def Inspected (tools : Tools) (ref : String) : Prop :=
  Text.strip ref ≠ "" ∧ ownDigest (Text.strip ref) = none ∧
    tools.docker = true

/-- The first digest of sixty-four characters, of the ref itself or of those the
command prints. -/
def Digests (tools : Tools) (ref digest : String) : Prop :=
  (Text.strip ref ≠ "" ∧ ownDigest (Text.strip ref) = some digest) ∨
    (Inspected tools ref ∧ ∃ stdout stderr text,
      tools.inspected (Text.strip ref) = .exited 0 stdout stderr ∧
        Utf8.decode stdout = some text ∧
        repoDigest (repoDigests text) = some digest)

/-- Something a loop visits, or nothing to loop over. -/
def Visitable : Json → Prop
  | .arr _ => True
  | .obj _ => True
  | .str _ => True
  | value => value.truthy = false

/-- A ref the projection gets over. -/
structure RefOk (tools : Tools) (syft_bin : Option String) (ref : String) :
    Prop where
  inspects : Inspected tools ref → '\x00' ∉ (Text.strip ref).toList ∧
    (tools.inspected (Text.strip ref)).Readable
  digests : ∀ digest, Digests tools ref digest →
    isHexSha256 digest = true ∧ Text.strip (oci_name ref) ≠ ""
  catalogs : ∀ binary, syft_binary tools syft_bin = some binary →
    '\x00' ∉ binary.toList ∧ '\x00' ∉ ref.toList ∧
      (tools.cataloged ref).Readable
  artifacts : ∀ binary stdout stderr text doc value,
    syft_binary tools syft_bin = some binary →
    tools.cataloged ref = .exited 0 stdout stderr →
    Utf8.decode stdout = some text → Json.loads text = some (.obj doc) →
    Fields.get? doc "artifacts" = some value → Visitable value

def IsOci : Json → Prop
  | .obj fields => Fields.get? fields "type" = some (.str "container")
  | _ => False

/-- An image with a name and a sha-256. -/
def Resolved (component : Json) : Prop :=
  ∃ name image hex : String, component = .obj [("name", .str name),
      ("purl", .str s!"pkg:oci/{image}@sha256:{hex}"),
      ("type", .str "container"), ("version", .str s!"sha256:{hex}")] ∧
    name ≠ "" ∧ isHexSha256 hex = true

section Texts

theorem toLower_ne_dotted {character : Char} (apart : character ≠ '\u0130') :
    character.toLower ≠ '\u0130' := by
  intro same
  delta Char.toLower at same
  split_ifs at same with upper
  · have above : 65 ≤ character.val.toNat := upper.1
    have below : character.val.toNat ≤ 90 := upper.2
    have offset : ('a'.val - 'A'.val).toNat = 32 := by decide
    have value := congrArg (fun other : Char => other.val.toNat) same
    have dotted : ('\u0130' : Char).val.toNat = 304 := rfl
    simp only [UInt32.toNat_add, offset, dotted] at value
    omega
  · exact apart same

/-- A character that lowering leaves alone. -/
def Settled (character : Char) : Prop :=
  character ≠ '\u0130' ∧ character.toLower = character

theorem settled_of_mem_lowered {text : String} {character : Char}
    (member : character ∈ (lowered text).toList) : Settled character := by
  rw [lowered, String.toList_ofList, List.mem_flatMap] at member
  obtain ⟨origin, _, inside⟩ := member
  split_ifs at inside with dotted
  · rcases List.mem_cons.mp inside with same | inside
    · rw [same]
      constructor
      · decide
      · decide
    · rw [List.mem_singleton.mp inside]
      constructor
      · decide
      · decide
  · rw [List.mem_singleton.mp inside]
    constructor
    · exact toLower_ne_dotted dotted
    · exact Text.toLower_toLower origin

theorem lowered_of_settled {text : String}
    (settled : ∀ character ∈ text.toList, Settled character) :
    lowered text = text := by
  apply String.toList_injective
  rw [lowered, String.toList_ofList]
  have each : ∀ list : List Char, (∀ character ∈ list, Settled character) →
      list.flatMap (fun character => if character = '\u0130' then
        ['i', '\u0307'] else [character.toLower]) = list := by
    intro list
    induction list with
    | nil => exact fun _ => rfl
    | cons character list induction =>
        intro settled
        obtain ⟨first, rest⟩ := List.forall_mem_cons.mp settled
        rw [List.flatMap_cons, if_neg first.1, first.2, induction rest]
        rfl
  exact each text.toList settled

theorem isSpace_of_mem_lowerings {character origin : Char}
    (visible : Text.isSpace origin = false)
    (member : character ∈ if origin = '\u0130' then ['i', '\u0307']
      else [origin.toLower]) : Text.isSpace character = false := by
  split_ifs at member
  · rcases List.mem_cons.mp member with same | member
    · rw [same]
      decide
    · rw [List.mem_singleton.mp member]
      decide
  · rw [List.mem_singleton.mp member]
    exact Text.isSpace_toLower visible

/-- Lowering a stripped text leaves nothing to strip. -/
theorem strip_lowered_strip (text : String) :
    Text.strip (lowered (Text.strip text)) = lowered (Text.strip text) := by
  apply String.toList_injective
  rw [Text.toList_strip]
  generalize shape : (fun character : Char => if character = '\u0130' then
    ['i', '\u0307'] else [character.toLower]) = lower
  have nonempty : ∀ character, lower character ≠ [] := by
    intro character
    rw [← shape]
    dsimp only
    split_ifs
    · exact List.cons_ne_nil _ _
    · exact List.cons_ne_nil _ _
  have whole : (lowered (Text.strip text)).toList =
      (Text.strip text).toList.flatMap lower := by
    rw [lowered, String.toList_ofList, shape]
  rw [whole, Text.toList_strip]
  apply Text.stripChars_eq_self
  · intro character first
    cases stripped : Text.stripChars text.toList with
    | nil =>
        rw [stripped] at first
        cases first
    | cons origin rest =>
        have visible := Text.stripChars_head text.toList origin (by
          rw [stripped]
          rfl)
        rw [stripped, List.flatMap_cons,
          List.head?_append_of_ne_nil _ (nonempty origin)] at first
        apply isSpace_of_mem_lowerings visible
        have inside := List.mem_of_mem_head? first
        rw [← shape] at inside
        exact inside
  · intro character last
    rcases List.eq_nil_or_concat (Text.stripChars text.toList) with
      stripped | ⟨front, origin, stripped⟩
    · rw [stripped] at last
      cases last
    · have visible := Text.stripChars_last text.toList origin (by
        rw [stripped]
        simp)
      rw [stripped, List.concat_eq_append, List.flatMap_append,
        List.flatMap_singleton,
        List.getLast?_append_of_ne_nil _ (nonempty origin)] at last
      apply isSpace_of_mem_lowerings visible
      have inside := List.mem_of_getLast? last
      rw [← shape] at inside
      exact inside

/-- The sixty-four characters read off a text. -/
structure Candidate (digest : String) : Prop where
  length : digest.toList.length = 64
  strip : Text.strip digest = digest
  lowered : lowered digest = digest

theorem candidate_of_sha256Of {text digest : String}
    (found : sha256Of text = some digest) : Candidate digest := by
  unfold sha256Of at found
  dsimp only at found
  split_ifs at found with marked long
  have same := Option.some.inj found
  rw [← same]
  constructor
  · exact long
  · exact strip_lowered_strip _
  · exact lowered_of_settled fun character member =>
      settled_of_mem_lowered member

/-- A pinned ref carries its sixty-four characters, hexadecimal or not. -/
theorem ownDigest_pinned {name pinned : List Char} (single : '@' ∉ name)
    (length : pinned.length = 64)
    (settled : ∀ character ∈ pinned, Settled character)
    (visible : ∀ character ∈ pinned, Text.isSpace character = false) :
    ownDigest (String.ofList (name ++ '@' :: ("sha256:".toList ++ pinned))) =
      some (String.ofList pinned) := by
  have after : afterAt (String.ofList
      (name ++ '@' :: ("sha256:".toList ++ pinned))) =
        some (String.ofList ("sha256:".toList ++ pinned)) := by
    have passed : ∀ character ∈ name, decide (character ≠ '@') = true := by
      intro character member
      apply decide_eq_true
      intro same
      rw [same] at member
      exact single member
    unfold afterAt Text.partition?
    rw [String.toList_ofList, List.dropWhile_append_of_pos passed]
    rfl
  have whole : (String.ofList ("sha256:".toList ++ pinned)).toList =
      "sha256:".toList ++ pinned := String.toList_ofList
  have strip_pinned : Text.strip (String.ofList pinned) =
      String.ofList pinned := by
    apply Text.strip_eq_self
    rw [String.toList_ofList]
    exact visible
  have strip_whole : Text.strip (String.ofList
      ("sha256:".toList ++ pinned)) =
        String.ofList ("sha256:".toList ++ pinned) := by
    apply Text.strip_eq_self
    rw [String.toList_ofList, List.forall_mem_append]
    constructor
    · exact List.all_iff_forall_prop.mp (by decide +kernel)
    · exact visible
  have lowered_pinned : lowered (String.ofList pinned) =
      String.ofList pinned := by
    apply lowered_of_settled
    rw [String.toList_ofList]
    exact settled
  have marked : Text.startsWith (lowered (String.ofList
      ("sha256:".toList ++ pinned))) "sha256:" = true := by
    rw [lowered_of_settled]
    · rw [Text.startsWith_iff, whole]
      exact List.prefix_append _ _
    · rw [whole]
      intro character member
      rcases List.mem_append.mp member with start | inside
      · have listed : ∀ other ∈ "sha256:".toList,
            other ≠ '\u0130' ∧ other.toLower = other :=
          List.all_iff_forall_prop.mp (by decide +kernel)
        exact listed character start
      · exact settled character inside
  have occurs : Text.occursIn "sha256:".toList
      (String.ofList ("sha256:".toList ++ pinned)).toList = true := by
    rw [Text.occursIn_iff, whole]
    exact (List.prefix_append _ _).isInfix
  have tail : (String.ofList ("sha256:".toList ++ pinned)).toList.drop 7 =
      pinned := by
    rw [whole]
    rfl
  have long : (String.ofList pinned).toList.length = 64 := by
    rw [String.toList_ofList]
    exact length
  unfold ownDigest sha256Of
  rw [after]
  simp only [Option.bind_some, occurs, if_true, strip_whole, marked, tail,
    strip_pinned, lowered_pinned, long]

theorem candidate_of_ownDigest {raw digest : String}
    (found : ownDigest raw = some digest) : Candidate digest := by
  obtain ⟨rest, _, found⟩ := Option.bind_eq_some_iff.mp found
  split_ifs at found
  exact candidate_of_sha256Of found

theorem candidate_of_repoDigest {items : List Json} {digest : String}
    (found : repoDigest items = some digest) : Candidate digest := by
  induction items with
  | nil => cases found
  | cons item items induction =>
      cases item with
      | str text =>
          rw [repoDigest] at found
          cases here : (afterAt text).bind sha256Of with
          | none =>
              rw [here] at found
              exact induction found
          | some first =>
              rw [here] at found
              cases found
              obtain ⟨rest, _, read⟩ := Option.bind_eq_some_iff.mp here
              exact candidate_of_sha256Of read
      | null => exact induction found
      | bool value => exact induction found
      | int value => exact induction found
      | float value => exact induction found
      | arr values => exact induction found
      | obj fields => exact induction found

theorem candidate_of_digests {tools : Tools} {ref digest : String}
    (digests : Digests tools ref digest) : Candidate digest := by
  rcases digests with ⟨_, own⟩ | ⟨_, stdout, stderr, text, _, _, found⟩
  · exact candidate_of_ownDigest own
  · exact candidate_of_repoDigest found

end Texts

section Commands

/-- A command is heard out exactly when no argument has a NUL and what it prints
is text. -/
theorem subprocess_run_iff {args : List String} {outcome : Outcome} :
    (∃ proc, subprocess_run args outcome = .ok proc) ↔
      (∀ arg ∈ args, '\x00' ∉ arg.toList) ∧ outcome.Readable := by
  unfold subprocess_run
  split_ifs with null
  · constructor
    · intro returned
      obtain ⟨proc, returned⟩ := returned
      cases returned
    · intro clear
      obtain ⟨arg, member, inside⟩ := List.any_eq_true.mp null
      rw [List.contains_iff_mem] at inside
      exact absurd inside (clear.1 arg member)
  · have clear : ∀ arg ∈ args, '\x00' ∉ arg.toList := by
      intro arg member inside
      apply null
      apply List.any_eq_true.mpr
      exact ⟨arg, member, List.contains_iff_mem.mpr inside⟩
    cases outcome with
    | failed => exact ⟨fun _ => ⟨clear, trivial⟩, fun _ => ⟨none, rfl⟩⟩
    | exited returncode stdout stderr =>
        constructor
        · intro returned
          obtain ⟨proc, returned⟩ := returned
          obtain ⟨out, read, returned⟩ := Raised.bind_returns returned
          obtain ⟨err, reads, returned⟩ := Raised.bind_returns returned
          refine ⟨clear, ?_, ?_⟩
          · unfold readText at read
            cases decoded : Utf8.decode stdout with
            | none =>
                rw [decoded] at read
                cases read
            | some text => rfl
          · unfold readText at reads
            cases decoded : Utf8.decode stderr with
            | none =>
                rw [decoded] at reads
                cases reads
            | some text => rfl
        · intro readable
          obtain ⟨out, decoded⟩ := Option.isSome_iff_exists.mp readable.2.1
          obtain ⟨err, decodes⟩ := Option.isSome_iff_exists.mp readable.2.2
          refine ⟨some (returncode, out), ?_⟩
          simp only [readText, decoded, decodes, bind, Except.bind]

/-- What is heard is what the command printed. -/
theorem subprocess_run_some {args : List String} {outcome : Outcome}
    {returncode : Int} {text : List Char}
    (heard : subprocess_run args outcome = .ok (some (returncode, text))) :
    ∃ stdout stderr, outcome = .exited returncode stdout stderr ∧
      Utf8.decode stdout = some text := by
  unfold subprocess_run at heard
  split_ifs at heard
  cases outcome with
  | failed => cases heard
  | exited code stdout stderr =>
      obtain ⟨out, read, heard⟩ := Raised.bind_returns heard
      obtain ⟨err, reads, heard⟩ := Raised.bind_returns heard
      cases heard
      refine ⟨stdout, stderr, rfl, ?_⟩
      unfold readText at read
      cases decoded : Utf8.decode stdout with
      | none =>
          rw [decoded] at read
          cases read
      | some found =>
          rw [decoded] at read
          cases read
          rfl

/-- A command that is heard out and prints a text is heard to print it. -/
theorem subprocess_run_of_decode {args : List String} {outcome : Outcome}
    {proc : Option (Int × List Char)} {returncode : Int} {stdout stderr : Bytes}
    {text : List Char} (heard : subprocess_run args outcome = .ok proc)
    (exits : outcome = .exited returncode stdout stderr)
    (decoded : Utf8.decode stdout = some text) :
    proc = some (returncode, text) := by
  rw [exits] at heard
  unfold subprocess_run at heard
  split_ifs at heard
  obtain ⟨out, read, heard⟩ := Raised.bind_returns heard
  obtain ⟨err, reads, heard⟩ := Raised.bind_returns heard
  cases heard
  unfold readText at read
  rw [decoded] at read
  cases read
  rfl

/-- The arguments `docker image inspect` is started with. -/
theorem docker_args_clear {raw : String} :
    (∀ arg ∈ ["docker", "image", "inspect", "--format",
      "\x7b\x7bjson .RepoDigests\x7d\x7d", raw], '\x00' ∉ arg.toList) ↔
      '\x00' ∉ raw.toList := by
  simp only [List.forall_mem_cons, List.not_mem_nil, IsEmpty.forall_iff,
    implies_true, and_true]
  constructor
  · intro clear
    exact clear.2.2.2.2.2
  · intro clear
    refine ⟨?_, ?_, ?_, ?_, ?_, clear⟩
    · decide
    · decide
    · decide
    · decide
    · decide

/-- The digest is resolved, or given up, exactly where the command is not asked
or is heard out. -/
theorem docker_image_digest_iff {tools : Tools} {ref : String} :
    (∃ digest, docker_image_digest tools ref = .ok digest) ↔
      (Inspected tools ref → '\x00' ∉ (Text.strip ref).toList ∧
        (tools.inspected (Text.strip ref)).Readable) := by
  unfold docker_image_digest
  dsimp only
  by_cases blank : Text.strip ref = ""
  · rw [if_pos blank]
    exact ⟨fun _ inspected => absurd blank inspected.1, fun _ => ⟨none, rfl⟩⟩
  · rw [if_neg blank]
    cases own : ownDigest (Text.strip ref) with
    | some digest =>
        constructor
        · intro _ inspected
          rw [inspected.2.1] at own
          cases own
        · intro _
          exact ⟨some digest, rfl⟩
    | none =>
        dsimp only
        split_ifs with docker
        · have asked : Inspected tools ref := ⟨blank, own, docker⟩
          constructor
          · intro returned _
            obtain ⟨digest, returned⟩ := returned
            obtain ⟨proc, heard, _⟩ := Raised.bind_returns returned
            have clear := subprocess_run_iff.mp ⟨proc, heard⟩
            exact ⟨docker_args_clear.mp clear.1, clear.2⟩
          · intro heard
            have clear := heard asked
            obtain ⟨proc, heard⟩ := subprocess_run_iff.mpr
              ⟨docker_args_clear.mpr clear.1, clear.2⟩
            rw [heard]
            cases proc with
            | none => exact ⟨none, rfl⟩
            | some result => exact ⟨_, rfl⟩
        · constructor
          · intro _ inspected
            exact absurd inspected.2.2 docker
          · intro _
            exact ⟨none, rfl⟩

/-- The digest resolved is the first of sixty-four characters. -/
theorem docker_image_digest_some {tools : Tools} {ref : String}
    {found : Option String}
    (returned : docker_image_digest tools ref = .ok found) (digest : String) :
    found = some digest ↔ Digests tools ref digest := by
  unfold docker_image_digest at returned
  dsimp only at returned
  by_cases blank : Text.strip ref = ""
  · rw [if_pos blank] at returned
    cases returned
    constructor
    · intro same
      cases same
    · intro digests
      rcases digests with ⟨named, _⟩ | ⟨inspected, _⟩
      · exact absurd blank named
      · exact absurd blank inspected.1
  · rw [if_neg blank] at returned
    cases own : ownDigest (Text.strip ref) with
    | some first =>
        rw [own] at returned
        cases returned
        constructor
        · intro same
          cases same
          exact .inl ⟨blank, own⟩
        · intro digests
          rcases digests with ⟨_, named⟩ | ⟨inspected, _⟩
          · rw [← named, own]
          · rw [inspected.2.1] at own
            cases own
    | none =>
        rw [own] at returned
        dsimp only at returned
        split_ifs at returned with docker
        · obtain ⟨proc, heard, returned⟩ := Raised.bind_returns returned
          have asked : Inspected tools ref := ⟨blank, own, docker⟩
          constructor
          · intro same
            cases proc with
            | none =>
                cases returned
                cases same
            | some result =>
                obtain ⟨returncode, text⟩ := result
                obtain ⟨stdout, stderr, exits, decoded⟩ :=
                  subprocess_run_some heard
                have picked := Except.ok.inj returned
                rw [same] at picked
                split_ifs at picked with zero
                rw [zero] at exits
                exact .inr
                  ⟨asked, stdout, stderr, text, exits, decoded, picked⟩
          · intro digests
            rcases digests with
              ⟨_, named⟩ | ⟨_, stdout, stderr, text, exits, decoded, picked⟩
            · rw [named] at own
              cases own
            · rw [subprocess_run_of_decode heard exits decoded] at returned
              dsimp only at returned
              rw [if_pos rfl, picked] at returned
              exact (Except.ok.inj returned).symm
        · cases returned
          constructor
          · intro same
            cases same
          · intro digests
            rcases digests with ⟨_, named⟩ | ⟨inspected, _⟩
            · rw [named] at own
              cases own
            · exact absurd inspected.2.2 docker

end Commands

section Components

/-- A hexadecimal digest starts with hexadecimal digits only. -/
theorem startsWith_of_hex {digest start : String} {first : Char}
    {rest : List Char} (hex : isHexSha256 digest = true)
    (starts : start.toList = first :: rest)
    (apart : Hex.isDigit first = false) :
    Text.startsWith digest start = false := by
  apply Bool.eq_false_iff.mpr
  intro marked
  obtain ⟨tail, same⟩ := Text.startsWith_iff.mp marked
  have digit : Hex.isDigit first = true := by
    apply List.all_eq_true.mp (Bool.and_eq_true_iff.mp hex).2
    rw [← same, starts]
    exact List.mem_cons_self
  rw [apart] at digit
  cases digit

theorem startsWith_sha256_of_hex {digest : String}
    (hex : isHexSha256 digest = true) :
    Text.startsWith digest "sha256:" = false :=
  startsWith_of_hex hex rfl (by decide)

theorem digest_hex_of_hex {digest : String} (hex : isHexSha256 digest = true) :
    digest_hex digest = .ok ⟨digest, hex⟩ := by
  have stripped : Text.strip digest = digest := Digest.strip_hex ⟨digest, hex⟩
  have lower : lowered digest = digest := by
    apply lowered_of_settled
    intro character member
    have digit := List.all_eq_true.mp (Bool.and_eq_true_iff.mp hex).2 character
      member
    constructor
    · intro same
      rw [same] at digit
      cases digit
    · exact Hex.toLower_of_isDigit digit
  have named : is_ni_or_digest digest = true :=
    is_ni_or_digest_hex ⟨digest, hex⟩
  have legacy : is_legacy_cid digest = false := by
    unfold is_legacy_cid
    dsimp only
    rw [stripped, named]
    rw [Bool.not_true, Bool.and_false, Bool.false_and]
  unfold digest_hex
  simp only [stripped, lower, startsWith_sha256_of_hex hex, legacy, named,
    Bool.false_eq_true, if_false, if_true]
  exact from_ni_hex ⟨digest, hex⟩

theorem hex_of_resolved {name purl digest : String}
    (resolved : Resolved (.obj [("name", .str name), ("purl", .str purl),
      ("type", .str "container"), ("version", .str s!"sha256:{digest}")])) :
    isHexSha256 digest = true := by
  obtain ⟨given, image, hex, same, _, isHex⟩ := resolved
  simp only [Json.obj.injEq, List.cons.injEq, Prod.mk.injEq, Json.str.injEq,
    true_and, and_true] at same
  have version := congrArg String.toList same.2.2
  simp only [String.toList_append] at version
  have digits : digest.toList = hex.toList := List.append_cancel_left version
  rw [String.toList_injective digits]
  exact isHex

theorem require_token_ok {value label token : String}
    (required : require_token value label = .ok token) :
    Text.strip value ≠ "" ∧ token = Text.strip value := by
  unfold require_token at required
  split_ifs at required with blank
  cases required
  exact ⟨blank, rfl⟩

/-- The component of the first sixty-four characters is resolved exactly where
they are hexadecimal and the image has a name. -/
theorem cdx_oci_component_iff {name digest : String}
    (candidate : Candidate digest) :
    (∃ component, cdx_oci_component name digest = .ok component ∧
        Resolved component) ↔
      isHexSha256 digest = true ∧ Text.strip name ≠ "" := by
  unfold cdx_oci_component
  dsimp only
  rw [candidate.strip, candidate.lowered]
  constructor
  · intro built
    obtain ⟨component, built, resolved⟩ := built
    obtain ⟨purl, made, built⟩ := Raised.bind_returns built
    obtain ⟨image, named, made⟩ := Raised.bind_returns made
    cases built
    have hex := hex_of_resolved resolved
    split_ifs at hex with marked
    · -- What is left after a second `sha256:` is too short.
      have length := of_decide_eq_true (Bool.and_eq_true_iff.mp hex).1
      rw [String.toList_ofList, List.length_drop, candidate.length] at length
      cases length
    · exact ⟨hex, (require_token_ok named).1⟩
  · intro good
    obtain ⟨hex, named⟩ := good
    have nonempty : Text.strip digest ≠ "" := by
      rw [candidate.strip]
      intro empty
      have length := candidate.length
      rw [empty] at length
      cases length
    have image : oci_purl name digest =
        .ok s!"pkg:oci/{Text.strip name}@sha256:{digest}" := by
      unfold oci_purl require_token
      rw [if_neg named, if_neg nonempty, candidate.strip]
      simp only [bind, Except.bind, digest_hex_of_hex hex]
    refine ⟨.obj [("name", .str name),
      ("purl", .str s!"pkg:oci/{Text.strip name}@sha256:{digest}"),
      ("type", .str "container"), ("version", .str s!"sha256:{digest}")],
      ?_, name, Text.strip name, digest, rfl, ?_, hex⟩
    · simp only [startsWith_sha256_of_hex hex, Bool.false_eq_true, if_false,
        image, bind, Except.bind]
    · intro empty
      rw [empty] at named
      exact named (by decide)

/-- No cataloged package is an image. -/
theorem not_isOci_of_artifact {artifact component : Json}
    (built : cdx_component_from_syft_artifact artifact = some component) :
    ¬ IsOci component := by
  cases artifact with
  | obj fields =>
      rw [cdx_component_from_syft_artifact] at built
      cases found : Fields.get? fields "purl" with
      | none =>
          rw [found] at built
          cases built
      | some value =>
          rw [found] at built
          cases value with
          | str purl =>
              dsimp only at built
              split_ifs at built
              cases built
              intro kind
              have same : some (Json.str "library") =
                some (Json.str "container") := kind
              injection same with same
              injection same with same
              exact absurd same (by decide)
          | _ => cases built
  | _ => cases built

theorem isOci_of_built {name digest : String} {component : Json}
    (built : cdx_oci_component name digest = .ok component) :
    IsOci component := by
  obtain ⟨purl, _, built⟩ := Raised.bind_returns built
  cases built
  rfl

end Components

section Catalogs

/-- A value is visited exactly where a loop can go over it. -/
theorem visitable_iff {value : Json} :
    (∃ items, (if value.truthy then value.iterate else .ok []) =
        (.ok items : Except Raised (List Json))) ↔ Visitable value := by
  have visited : ∀ items, value.iterate = .ok items →
      ∃ items, (if value.truthy then value.iterate else .ok []) =
        (.ok items : Except Raised (List Json)) := by
    intro items iterated
    split_ifs
    · exact ⟨items, iterated⟩
    · exact ⟨[], rfl⟩
  have scalar : (∀ items, value.iterate ≠ .ok items) →
      ((∃ items, (if value.truthy then value.iterate else .ok []) =
        (.ok items : Except Raised (List Json))) ↔ value.truthy = false) := by
    intro raises
    constructor
    · intro returned
      obtain ⟨items, returned⟩ := returned
      split_ifs at returned with truth
      · exact absurd returned (raises items)
      · exact Bool.eq_false_iff.mpr truth
    · intro falsy
      rw [falsy]
      exact ⟨[], rfl⟩
  cases value with
  | arr items => exact ⟨fun _ => trivial, fun _ => visited items rfl⟩
  | obj fields => exact ⟨fun _ => trivial, fun _ => visited _ rfl⟩
  | str text => exact ⟨fun _ => trivial, fun _ => visited _ rfl⟩
  | null => exact scalar fun items same => by cases same
  | bool value => exact scalar fun items same => by cases same
  | int value => exact scalar fun items same => by cases same
  | float value => exact scalar fun items same => by cases same

theorem artifactsOf_iff {doc : Fields} :
    (∃ artifacts, artifactsOf doc = .ok artifacts) ↔
      ∀ value, Fields.get? doc "artifacts" = some value → Visitable value := by
  unfold artifactsOf
  cases found : Fields.get? doc "artifacts" with
  | none =>
      constructor
      · intro _ value same
        cases same
      · intro _
        exact ⟨[], rfl⟩
  | some value =>
      constructor
      · intro returned other same
        cases same
        exact visitable_iff.mp returned
      · intro every
        exact visitable_iff.mpr (every value rfl)

/-- The arguments Syft is started with. -/
theorem syft_args_clear {binary image : String} :
    (∀ arg ∈ [binary, image, "-o", "syft-json"], '\x00' ∉ arg.toList) ↔
      '\x00' ∉ binary.toList ∧ '\x00' ∉ image.toList := by
  simp only [List.forall_mem_cons, List.not_mem_nil, IsEmpty.forall_iff,
    implies_true, and_true]
  constructor
  · intro clear
    exact ⟨clear.1, clear.2.1⟩
  · intro clear
    refine ⟨clear.1, clear.2, ?_, ?_⟩
    · decide
    · decide

/-- A catalog is read, or given up, exactly where the command is missing or is
heard out. -/
theorem run_syft_iff {tools : Tools} {syft_bin : Option String}
    {image : String} :
    (∃ result, run_syft tools syft_bin image = .ok result) ↔
      ∀ binary, syft_binary tools syft_bin = some binary →
        '\x00' ∉ binary.toList ∧ '\x00' ∉ image.toList ∧
          (tools.cataloged image).Readable := by
  unfold run_syft
  cases located : syft_binary tools syft_bin with
  | none =>
      constructor
      · intro _ binary same
        cases same
      · intro _
        exact ⟨_, rfl⟩
  | some binary =>
      constructor
      · intro returned other same
        cases same
        obtain ⟨result, returned⟩ := returned
        obtain ⟨proc, heard, _⟩ := Raised.bind_returns returned
        have clear := subprocess_run_iff.mp ⟨proc, heard⟩
        have args := syft_args_clear.mp clear.1
        exact ⟨args.1, args.2, clear.2⟩
      · intro every
        obtain ⟨named, given, readable⟩ := every binary rfl
        obtain ⟨proc, heard⟩ := subprocess_run_iff.mpr
          ⟨syft_args_clear.mpr ⟨named, given⟩, readable⟩
        simp only [heard, bind, Except.bind]
        cases proc with
        | none => exact ⟨_, rfl⟩
        | some result =>
            obtain ⟨returncode, text⟩ := result
            dsimp only
            split_ifs
            · split
              · exact ⟨_, rfl⟩
              · exact ⟨_, rfl⟩
            · exact ⟨_, rfl⟩

/-- The document of a catalog is the object the command printed. -/
theorem run_syft_some {tools : Tools} {syft_bin : Option String}
    {image : String} {found : Option Fields} {ran : Bool}
    (returned : run_syft tools syft_bin image = .ok (found, ran))
    (doc : Fields) :
    found = some doc ↔ ∃ binary stdout stderr text,
      syft_binary tools syft_bin = some binary ∧
        tools.cataloged image = .exited 0 stdout stderr ∧
        Utf8.decode stdout = some text ∧ Json.loads text = some (.obj doc) := by
  unfold run_syft at returned
  cases located : syft_binary tools syft_bin with
  | none =>
      rw [located] at returned
      cases returned
      constructor
      · intro same
        cases same
      · intro printed
        obtain ⟨_, _, _, _, same, _⟩ := printed
        cases same
  | some binary =>
      rw [located] at returned
      obtain ⟨proc, heard, returned⟩ := Raised.bind_returns returned
      constructor
      · intro same
        cases proc with
        | none =>
            cases returned
            cases same
        | some result =>
            obtain ⟨returncode, text⟩ := result
            obtain ⟨stdout, stderr, exits, decoded⟩ := subprocess_run_some heard
            dsimp only at returned
            split_ifs at returned with zero
            · rw [zero] at exits
              split at returned
              · rename_i loaded
                cases returned
                cases same
                exact
                  ⟨binary, stdout, stderr, text, rfl, exits, decoded, loaded⟩
              · cases returned
                cases same
            · cases returned
              cases same
      · intro printed
        obtain ⟨other, stdout, stderr, text, _, exits, decoded, loaded⟩ :=
          printed
        rw [subprocess_run_of_decode heard exits decoded] at returned
        dsimp only at returned
        rw [if_pos rfl, loaded] at returned
        cases returned
        rfl

end Catalogs

end Sbom

end Cats
