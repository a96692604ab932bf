import Cats.Plant.RayCompute
import Cats.Posix.Files

/-!
# The result of a job

A job leaves its objects below `jobs/<id>/result` of the scratch store.  They
are downloaded to a directory, listed by name, and read by name.
-/

namespace Cats

namespace ObjStore

open Effect

/-- A component a file can have. -/
def isName (part : List Char) : Bool :=
  part ≠ [] && part ≠ ['.'] && part ≠ ['.', '.'] && !Disk.hasNul part

/-- The objects of a store, by their paths `bucket/key`. -/
structure Scratch where
  objects : List (String × Bytes)
  distinct : (objects.map Prod.fst).Nodup
  named : ∀ object ∈ objects, ∀ part ∈ Text.splitOn '/' object.1.toList,
    isName part = true

/-- The objects below a path, in the order they are listed. -/
def Scratch.below (store : Scratch) (base : String) : List (String × Bytes) :=
  store.objects.filter fun object => Text.startsWith object.1 (base ++ "/")

/-- The files of `get_file_info(FileSelector(base, recursive=True))`. -/
def Scratch.get_file_infos (store : Scratch) (base : String) :
    Except Raised (List (String × Bytes)) :=
  if store.below base = [] then .error ⟨.fileNotFoundError, base⟩
  else .ok (store.below base)

/-- The loop of `download_job_result_prefix`. -/
def download (output : String) : List (String × Bytes) → Act Unit
  | [] => pure ()
  | file_info :: infos => do
      Disk.writeFile (Posix.join output (Posix.basename file_info.1))
        file_info.2
      download output infos

/-- `f"{config['bucket']}/{job_prefix}/result"`. -/
def result_key (bucket job_prefix : String) : String :=
  bucket ++ "/" ++ job_prefix ++ "/result"

/-- `download_job_result_prefix(config, job_prefix, output)`. -/
def download_job_result_prefix (store : Scratch) (bucket job_prefix output :
    String) : Act Unit := do
  Disk.makedirs output
  let infos ← Act.lift (store.get_file_infos (result_key bucket job_prefix))
  download output infos

/-- The text a `$` ends at: a line feed may follow. -/
def beforeEnd (text : List Char) : List Char :=
  if text.getLast? = some '\n' then text.dropLast else text

def isHexDigit (character : Char) : Bool :=
  character.isDigit || ('a' ≤ character && character ≤ 'f') ||
    ('A' ≤ character && character ≤ 'F')

/-- `_JOB_UUID_RE.match(job_uuid)`. -/
def isJobUuid (job_uuid : String) : Bool :=
  let groups := Text.splitOn '-' (beforeEnd job_uuid.toList)
  groups.map List.length = [8, 4, 4, 4, 12] &&
    groups.all fun group => group.all isHexDigit

/-- `_SAFE_NAME_RE.match(name)`. -/
def isSafeName (name : String) : Bool :=
  let text := beforeEnd name.toList
  !text.isEmpty && text.all fun character =>
    character.isAlphanum || ".-_".toList.contains character

/-- `list_job_files(config, job_uuid)`. -/
def list_job_files (store : Scratch) (bucket job_uuid : String) :
    Except Raised (List String) :=
  if isJobUuid job_uuid then
    match store.get_file_infos (result_key bucket ("jobs/" ++ job_uuid)) with
    | .error _ => .ok []
    | .ok infos => .ok (RayCompute.sortedNames
        (infos.map fun info => Posix.basename info.1))
  else .error (.valueError "invalid job_uuid")

/-- `read_job_file(config, job_uuid, name)`. -/
def read_job_file (store : Scratch) (bucket job_uuid name : String) :
    Except Raised Bytes :=
  if isJobUuid job_uuid then
    if isSafeName name then
      let path := result_key bucket ("jobs/" ++ job_uuid) ++ "/" ++ name
      match store.objects.find? fun object => object.1 = path with
      | some object => .ok object.2
      | none => .error ⟨.fileNotFoundError, path⟩
    else .error (.valueError "invalid file name")
  else .error (.valueError "invalid job_uuid")

/-- The path of an object from a path above it. -/
def relative (base : String) (object : String × Bytes) : Path :=
  Text.splitOn '/' (object.1.toList.drop (base ++ "/").toList.length)

section Below

variable {store : Scratch} {base : String}

theorem mem_below {object : String × Bytes} :
    object ∈ store.below base ↔ object ∈ store.objects ∧
      ∃ rest, object.1.toList = (base ++ "/").toList ++ rest := by
  rw [Scratch.below, List.mem_filter, Text.startsWith_iff]
  constructor
  · intro member
    obtain ⟨rest, same⟩ := member.2
    exact ⟨member.1, rest, same.symm⟩
  · intro member
    obtain ⟨stored, rest, same⟩ := member
    exact ⟨stored, rest, same.symm⟩

theorem relative_of_rest {object : String × Bytes} {rest : List Char}
    (shape : object.1.toList = (base ++ "/").toList ++ rest) :
    relative base object = Text.splitOn '/' rest := by
  rw [relative, shape, List.drop_left]

theorem splitOn_below {object : String × Bytes} {rest : List Char}
    (shape : object.1.toList = (base ++ "/").toList ++ rest) :
    Text.splitOn '/' object.1.toList =
      Text.splitOn '/' base.toList ++ relative base object := by
  have text : (base ++ "/").toList ++ rest = base.toList ++ '/' :: rest := by
    simp
  rw [relative_of_rest shape, ← Posix.splitOn_append, ← text, shape]

theorem relative_ne_nil (object : String × Bytes) :
    relative base object ≠ [] := Posix.splitOn_ne_nil '/' _

/-- The last component of the path is the name. -/
theorem relative_basename {object : String × Bytes}
    (member : object ∈ store.below base) :
    ∃ front, relative base object =
      front ++ [(Posix.basename object.1).toList] := by
  obtain ⟨_, rest, shape⟩ := mem_below.mp member
  obtain ⟨front, whole⟩ := Posix.splitOn_basename object.1
  have split := splitOn_below shape
  obtain ⟨before, last, same⟩ : ∃ before last,
      relative base object = before ++ [last] :=
    ⟨_, _, (List.dropLast_append_getLast (relative_ne_nil object)).symm⟩
  rw [whole, same, ← List.append_assoc] at split
  have ends := (List.append_inj' split rfl).2
  rw [List.cons.injEq] at ends
  exact ⟨before, by rw [same, ends.1]⟩

theorem relative_injective {left right : String × Bytes}
    (first : left ∈ store.below base) (second : right ∈ store.below base)
    (same : relative base left = relative base right) : left = right := by
  obtain ⟨leftStored, leftRest, leftShape⟩ := mem_below.mp first
  obtain ⟨rightStored, rightRest, rightShape⟩ := mem_below.mp second
  rw [relative_of_rest leftShape, relative_of_rest rightShape] at same
  have paths : left.1 = right.1 := by
    apply String.toList_injective
    rw [leftShape, rightShape, Posix.splitOn_injective same]
  exact List.inj_on_of_nodup_map store.distinct leftStored rightStored paths

/-- The name of an object is a component a file can have. -/
theorem isName_basename {object : String × Bytes}
    (member : object ∈ store.below base) :
    isName (Posix.basename object.1).toList = true := by
  obtain ⟨front, whole⟩ := Posix.splitOn_basename object.1
  apply store.named object (mem_below.mp member).1
  rw [whole]
  exact List.mem_append_right front List.mem_cons_self

theorem noSlash_basename (path : String) :
    '/' ∉ (Posix.basename path).toList := by
  intro member
  rw [Posix.basename, String.toList_ofList] at member
  have kept := List.mem_rtakeWhile_imp member
  simp at kept

/-- An object lies directly below the path. -/
def Direct (base : String) (object : String × Bytes) : Prop :=
  ∃ name, relative base object = [name]

theorem direct_iff {object : String × Bytes}
    (member : object ∈ store.below base) :
    Direct base object ↔
      object.1 = base ++ "/" ++ Posix.basename object.1 := by
  obtain ⟨_, rest, shape⟩ := mem_below.mp member
  obtain ⟨front, last⟩ := relative_basename member
  constructor
  · intro direct
    obtain ⟨name, alone⟩ := direct
    rw [alone, ← List.nil_append [name]] at last
    have ends := (List.append_inj' last rfl).2
    have same : Text.splitOn '/' rest =
        Text.splitOn '/' (Posix.basename object.1).toList := by
      rw [← relative_of_rest shape, alone, ends,
        Posix.splitOn_of_notMem (noSlash_basename object.1)]
    apply String.toList_injective
    rw [String.toList_append, ← Posix.splitOn_injective same, shape]
  · intro same
    have text := congrArg String.toList same
    rw [String.toList_append, shape] at text
    refine ⟨(Posix.basename object.1).toList, ?_⟩
    rw [relative_of_rest shape, List.append_cancel_left text,
      Posix.splitOn_of_notMem (noSlash_basename _)]

end Below

section Download

/-- Where an object is downloaded to. -/
def target (output : String) (object : String × Bytes) : Path :=
  Posix.resolve output ++ [(Posix.basename object.1).toList]

variable {store : Scratch} {base output : String}

theorem resolve_target {object : String × Bytes}
    (member : object ∈ store.below base) :
    Posix.resolve (Posix.join output (Posix.basename object.1)) =
      target output object := by
  have named := isName_basename member
  simp only [isName, Bool.and_eq_true, decide_eq_true_eq] at named
  exact Posix.resolve_join_name _ _ (noSlash_basename object.1)
    named.1.1.1 named.1.1.2 named.1.2

/-- The loop writes one file for each object, in order. -/
theorem download_ok {infos : List (String × Bytes)} {machine after : Machine}
    (among : ∀ info ∈ infos, info ∈ store.below base)
    (ran : download output infos machine = .ok () after) :
    Wrote machine after (infos.map fun info => (target output info, info.2)) := by
  induction infos generalizing machine with
  | nil =>
      cases ran
      exact Wrote.refl _
  | cons info infos induction =>
      obtain ⟨_, middle, written, rest⟩ := bind_ok ran
      have first := Disk.writeFile_ok written
      rw [resolve_target (among info List.mem_cons_self)] at first
      exact first.trans (induction
        (fun other member => among other (List.mem_cons_of_mem info member))
        rest)

theorem get_file_infos_ok {infos : List (String × Bytes)}
    (listed : store.get_file_infos base = .ok infos) :
    infos = store.below base := by
  unfold Scratch.get_file_infos at listed
  split_ifs at listed
  cases listed
  rfl

theorem download_job_result_prefix_ok {bucket job_prefix : String}
    {machine after : Machine}
    (ran : download_job_result_prefix store bucket job_prefix output machine =
      .ok () after) :
    Wrote machine after
      ((store.below (result_key bucket job_prefix)).map fun info =>
        (target output info, info.2)) := by
  obtain ⟨_, middle, made, ran⟩ := bind_ok ran
  have silent := wrote_of_ok (Disk.fileless_makedirs output) made
  obtain ⟨infos, between, listed, ran⟩ := bind_ok ran
  obtain ⟨found, same⟩ := lift_ok listed
  rw [get_file_infos_ok found, same] at ran
  have written := silent.trans (download_ok (fun _ member => member) ran)
  rwa [List.nil_append] at written

/-- The files below a directory are the objects below a path. -/
def SameFiles (store : Scratch) (base output : String) (machine : Machine) :
    Prop :=
  ∀ path data, machine.file? (Posix.resolve output ++ path) = some data ↔
    ∃ object ∈ store.below base,
      relative base object = path ∧ object.2 = data

/-- Nothing is in a directory, or it is not there. -/
def Fresh (output : String) (machine : Machine) : Prop :=
  ∀ path, machine.file? (Posix.resolve output ++ path) = none

/-- Once the objects are written over a fresh directory, its files are the
objects exactly when no object lies deeper. -/
theorem sameFiles_iff {machine after : Machine} (fresh : Fresh output machine)
    (wrote : Wrote machine after ((store.below base).map fun info =>
      (target output info, info.2))) :
    SameFiles store base output after ↔
      ∀ object ∈ store.below base, Direct base object := by
  constructor
  · intro same object member
    have there := (same _ _).mpr ⟨object, member, rfl, rfl⟩
    rw [wrote.files] at there
    have written : Posix.resolve output ++ relative base object ∈
        ((store.below base).map fun info => (target output info, info.2)).map
          Prod.fst := by
      by_contra absent
      rw [overlay_of_notMem absent, fresh] at there
      cases there
    rw [List.map_map, List.mem_map] at written
    obtain ⟨other, _, where_⟩ := written
    exact ⟨(Posix.basename other.1).toList,
      (List.append_cancel_left where_).symm⟩
  · intro direct path data
    have places : ∀ object ∈ store.below base,
        target output object = Posix.resolve output ++ relative base object := by
      intro object member
      obtain ⟨name, alone⟩ := direct object member
      obtain ⟨front, last⟩ := relative_basename member
      rw [alone, ← List.nil_append [name]] at last
      rw [target, alone, (List.append_inj' last rfl).2]
    rw [wrote.files]
    constructor
    · intro there
      by_cases written : Posix.resolve output ++ path ∈
          ((store.below base).map fun info => (target output info, info.2)).map
            Prod.fst
      · obtain ⟨found, member, value⟩ := overlay_of_mem written
        rw [value, Option.some.injEq] at there
        rw [← there]
        obtain ⟨object, below, same⟩ := List.mem_map.mp member
        rw [Prod.mk.injEq, places object below] at same
        exact ⟨object, below, List.append_cancel_left same.1, same.2⟩
      · rw [overlay_of_notMem written, fresh] at there
        cases there
    · intro stored
      obtain ⟨object, member, rfl, rfl⟩ := stored
      have written : Posix.resolve output ++ relative base object ∈
          ((store.below base).map fun info => (target output info, info.2)).map
            Prod.fst := by
        rw [List.map_map, List.mem_map]
        exact ⟨object, member, places object member⟩
      obtain ⟨found, among, value⟩ := overlay_of_mem written
      obtain ⟨other, below, same⟩ := List.mem_map.mp among
      rw [Prod.mk.injEq, places other below] at same
      have one := relative_injective below member
        (List.append_cancel_left same.1)
      rw [value, ← same.2, one]

end Download

section Reading

variable {store : Scratch} {bucket job_uuid : String}

/-- What is listed has distinct names and can be read. -/
def Readable (store : Scratch) (bucket job_uuid : String) : Prop :=
  ∀ names, list_job_files store bucket job_uuid = .ok names →
    names.Nodup ∧ ∀ name ∈ names, ∃ data,
      read_job_file store bucket job_uuid name = .ok data

/-- The listed names are those of the objects. -/
theorem list_job_files_ok (valid : isJobUuid job_uuid = true) :
    ∃ names, list_job_files store bucket job_uuid = .ok names ∧
      names.Perm ((store.below (result_key bucket ("jobs/" ++ job_uuid))).map
        fun info => Posix.basename info.1) := by
  unfold list_job_files Scratch.get_file_infos
  rw [if_pos valid]
  by_cases none : store.below (result_key bucket ("jobs/" ++ job_uuid)) = []
  · rw [if_pos none]
    exact ⟨[], rfl, by rw [none]; exact List.Perm.refl _⟩
  · rw [if_neg none]
    exact ⟨_, rfl, List.mergeSort_perm _ _⟩

theorem read_job_file_iff (valid : isJobUuid job_uuid = true) (name : String) :
    (∃ data, read_job_file store bucket job_uuid name = .ok data) ↔
      isSafeName name = true ∧ ∃ object ∈ store.objects,
        object.1 =
          result_key bucket ("jobs/" ++ job_uuid) ++ "/" ++ name := by
  unfold read_job_file
  rw [if_pos valid]
  by_cases safe : isSafeName name = true
  · rw [if_pos safe]
    dsimp only
    cases found : store.objects.find? fun object => object.1 =
        result_key bucket ("jobs/" ++ job_uuid) ++ "/" ++ name with
    | none =>
        have absent := List.find?_eq_none.mp found
        constructor
        · intro read
          obtain ⟨data, same⟩ := read
          cases same
        · intro stored
          obtain ⟨_, object, member, same⟩ := stored
          exact absurd (decide_eq_true same) (absent object member)
    | some object =>
        have here := List.find?_some found
        have member := List.mem_of_find?_eq_some found
        constructor
        · intro _
          exact ⟨safe, object, member, of_decide_eq_true here⟩
        · intro _
          exact ⟨object.2, rfl⟩
  · rw [if_neg safe]
    constructor
    · intro read
      obtain ⟨data, same⟩ := read
      cases same
    · intro stored
      exact absurd stored.1 safe

/-- The names can all be read, each for its own object, exactly when every
object lies directly below the result and has a safe name. -/
theorem readable_iff (valid : isJobUuid job_uuid = true) :
    Readable store bucket job_uuid ↔
      ∀ object ∈ store.below (result_key bucket ("jobs/" ++ job_uuid)),
        Direct (result_key bucket ("jobs/" ++ job_uuid)) object ∧
        isSafeName (Posix.basename object.1) = true := by
  obtain ⟨names, listed, same⟩ :=
    @list_job_files_ok store bucket job_uuid valid
  constructor
  · intro readable object member
    obtain ⟨distinct, read⟩ := readable names listed
    have among : Posix.basename object.1 ∈ names :=
      same.mem_iff.mpr (List.mem_map.mpr ⟨object, member, rfl⟩)
    obtain ⟨safe, other, stored, there⟩ :=
      (read_job_file_iff valid _).mp (read _ among)
    have below : other ∈
        store.below (result_key bucket ("jobs/" ++ job_uuid)) := by
      rw [mem_below]
      exact ⟨stored, _, by rw [there, String.toList_append]⟩
    have name : Posix.basename other.1 = Posix.basename object.1 := by
      have text : other.1 = Posix.join
          (result_key bucket ("jobs/" ++ job_uuid) ++ "/")
          (Posix.basename object.1) := by
        have relative := Posix.relative_of_noSlash (noSlash_basename object.1)
        have ended : Text.endsWith
            (result_key bucket ("jobs/" ++ job_uuid) ++ "/") "/" = true := by
          rw [Text.endsWith_iff, String.toList_append]
          exact List.suffix_append _ _
        rw [there, Posix.join, relative, ended, Bool.or_true]
        rfl
      rw [text, Posix.basename_join _ (noSlash_basename object.1)]
    have one := List.inj_on_of_nodup_map (same.nodup_iff.mp distinct) below
      member name
    rw [one] at there
    exact ⟨(direct_iff member).mpr there, safe⟩
  · intro good others listedToo
    rw [listed, Except.ok.injEq] at listedToo
    subst listedToo
    constructor
    · rw [same.nodup_iff]
      apply List.Nodup.map_on
      · intro left first right second names
        have leftPath := (direct_iff first).mp (good left first).1
        have rightPath := (direct_iff second).mp (good right second).1
        have paths : left.1 = right.1 := by
          rw [leftPath, rightPath, names]
        exact List.inj_on_of_nodup_map store.distinct (mem_below.mp first).1
          (mem_below.mp second).1 paths
      · exact (List.Nodup.of_map _ store.distinct).filter _
    · intro name among
      obtain ⟨object, member, rfl⟩ := List.mem_map.mp (same.mem_iff.mp among)
      rw [read_job_file_iff valid]
      exact ⟨(good object member).2, object, (mem_below.mp member).1,
        (direct_iff member).mp (good object member).1⟩

end Reading

section Result

/-- Nothing of a job's result is lost on its way to the Node. -/
structure LosesNothing (store : Scratch) (bucket job_uuid output : String)
    (after : Machine) : Prop where
  files : SameFiles store (result_key bucket ("jobs/" ++ job_uuid)) output after
  names : Readable store bucket job_uuid

/-- Exactly the results that lie flat, under safe names, come through. -/
theorem losesNothing_iff {store : Scratch} {bucket job_uuid output : String}
    {machine after : Machine} (valid : isJobUuid job_uuid = true)
    (fresh : Fresh output machine)
    (ran : download_job_result_prefix store bucket ("jobs/" ++ job_uuid) output
      machine = .ok () after) :
    LosesNothing store bucket job_uuid output after ↔
      ∀ object ∈ store.below (result_key bucket ("jobs/" ++ job_uuid)),
        Direct (result_key bucket ("jobs/" ++ job_uuid)) object ∧
        isSafeName (Posix.basename object.1) = true := by
  have wrote := download_job_result_prefix_ok ran
  constructor
  · intro nothing
    exact (readable_iff valid).mp nothing.names
  · intro good
    exact { files := (sameFiles_iff fresh wrote).mpr fun object member =>
              (good object member).1
            names := (readable_iff valid).mpr good }

def someJob : String := "00000000-0000-0000-0000-000000000000"

/-- A result of one object. -/
def oneObject (key : String)
    (named : ∀ part ∈ Text.splitOn '/'
      (result_key "b" ("jobs/" ++ someJob) ++ "/" ++ key).toList,
      isName part = true) : Scratch where
  objects := [(result_key "b" ("jobs/" ++ someJob) ++ "/" ++ key, [1])]
  distinct := List.nodup_singleton _
  named object member := by
    rw [List.mem_singleton] at member
    rw [member]
    exact named

def flatResult : Scratch := oneObject "a.csv" (by decide +kernel)

def partResult : Scratch := oneObject "part-00000/a.csv" (by decide +kernel)

def emptyMachine : Machine where
  home := none
  disk _ := none
  writes := []
  gets := 0

theorem fresh_emptyMachine : Fresh "/o" emptyMachine := by
  intro path
  rw [Machine.file?, Machine.inode?]
  split_ifs
  · rfl
  · rfl

def returned {α : Type} : EStateM.Result Raised Machine α → Bool
  | .ok _ _ => true
  | .error _ _ => false

theorem exists_of_returned {result : EStateM.Result Raised Machine Unit}
    (ran : returned result = true) : ∃ after, result = .ok () after := by
  cases result with
  | ok value after => exact ⟨after, rfl⟩
  | error raised after => cases ran

theorem isJobUuid_someJob : isJobUuid someJob = true := by decide +kernel

theorem losesNothing_iff_flat : ∃ after,
    download_job_result_prefix flatResult "b" ("jobs/" ++ someJob) "/o"
      emptyMachine = .ok () after ∧
    (LosesNothing flatResult "b" someJob "/o" after ↔
      ∀ object ∈ flatResult.below (result_key "b" ("jobs/" ++ someJob)),
        Direct (result_key "b" ("jobs/" ++ someJob)) object ∧
        isSafeName (Posix.basename object.1) = true) := by
  obtain ⟨after, ran⟩ := @exists_of_returned
    ( download_job_result_prefix flatResult "b" ("jobs/" ++ someJob) "/o"
      emptyMachine) (by decide +kernel)
  exact ⟨after, ran,
    losesNothing_iff isJobUuid_someJob fresh_emptyMachine ran⟩

/-- A shard that lies in its own prefix does not keep its place. -/
theorem loses_place : ¬ ∀ (store : Scratch) (bucket job_uuid output : String)
    (machine after : Machine), isJobUuid job_uuid = true →
    Fresh output machine →
    download_job_result_prefix store bucket ("jobs/" ++ job_uuid) output
      machine = .ok () after →
    LosesNothing store bucket job_uuid output after := by
  intro nothing
  obtain ⟨after, ran⟩ := @exists_of_returned
    ( download_job_result_prefix partResult "b" ("jobs/" ++ someJob) "/o"
      emptyMachine) (by decide +kernel)
  have names := (nothing partResult "b" someJob "/o" emptyMachine after
    isJobUuid_someJob fresh_emptyMachine ran).names
  have listed : list_job_files partResult "b" someJob = .ok ["a.csv"] := by
    decide +kernel
  obtain ⟨data, read⟩ := (names _ listed).2 "a.csv" List.mem_cons_self
  have missing : read_job_file partResult "b" someJob "a.csv" =
      .error ⟨.fileNotFoundError,
        result_key "b" ("jobs/" ++ someJob) ++ "/" ++ "a.csv"⟩ := by
    decide +kernel
  rw [missing] at read
  cases read

end Result

end ObjStore

end Cats
