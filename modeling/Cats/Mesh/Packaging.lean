import Cats.AddressStore.Contained

/-!
# Structure packaging

The root of a Structure is three files; `plant/` and `infrastructure/` lie
beside them.  `materialize_structure_root_files` copies what it finds of the
three into the Structure home, which it makes and does not empty.
-/

namespace Cats

open Effect

namespace Packaging

def structureRootDirname : String := "structure-root"

def structureRootFiles : List String :=
  ["main.tf", "outputs.tf", ".terraform.lock.hcl"]

def structureApplyResidueDirs : List String :=
  [".terraform", ".terraform-data", "__pycache__"]

def structureApplyResidueFiles : List String :=
  ["terraform.tfstate", "terraform.tfstate.backup",
    ".terraform.tfstate.lock.info", "terraform.tfstate.lock.info",
    ".applied-structure.id", ".applied-structure.cid"]

/-- `is_structure_apply_residue(rel)`. -/
def is_structure_apply_residue (rel : String) : Bool :=
  let parts := Text.splitOn '/' (rel.toList.map fun character =>
    if character = '\\' then '/' else character)
  let name := String.ofList (parts.getLastD [])
  parts.any (fun part => structureApplyResidueDirs.contains
      (String.ofList part)) ||
    structureApplyResidueFiles.contains name || Text.endsWith name ".pyc"

/-- Where `shutil.copy2(src, dst)` writes. -/
def copyTarget (machine : Machine) (src dst : String) : String :=
  if Disk.isDir machine dst then Posix.join dst (Posix.basename src) else dst

/-- `shutil.copy2(src, dst)`. -/
def copy2 (src dst : String) : Act Unit := do
  let machine ← get
  let data ← Disk.readFile src
  if Posix.resolve src = Posix.resolve (copyTarget machine src dst) then
    throw ⟨.sameFileError, s!"{Text.repr src} and {Text.repr
      (copyTarget machine src dst)} are the same file"⟩
  else Disk.writeFile (copyTarget machine src dst) data

/-- The directories the fetched files may be in. -/
def rootCandidates (machine : Machine) (fetched_root_dir : String) :
    List String :=
  let nested := Posix.join fetched_root_dir structureRootDirname
  if Disk.isDir machine nested then [fetched_root_dir, nested]
  else [fetched_root_dir]

/-- The first candidate with all files, else the first with any. -/
def rootSource (machine : Machine) (fetched_root_dir : String) :
    Option String :=
  let candidates := rootCandidates machine fetched_root_dir
  let has (candidate name : String) : Bool :=
    Disk.isFile machine (Posix.join candidate name)
  candidates.find? (fun candidate => structureRootFiles.all (has candidate)) <|>
    candidates.find? fun candidate => structureRootFiles.any (has candidate)

/-- Copy the named files that are there. -/
def copyRootFiles (source_dir structure_home : String) :
    List String → Act Unit
  | [] => pure ()
  | name :: names => do
      let machine ← get
      if Disk.isFile machine (Posix.join source_dir name) then do
        copy2 (Posix.join source_dir name) (Posix.join structure_home name)
        copyRootFiles source_dir structure_home names
      else copyRootFiles source_dir structure_home names

/-- `materialize_structure_root_files(fetched_root_dir, structure_home)`. -/
def materialize_structure_root_files (fetched_root_dir structure_home : String) :
    Act Unit := do
  Disk.makedirs structure_home
  let machine ← get
  match rootSource machine fetched_root_dir with
  | none => throw (.runtimeError
      (s!"Structure root_cid fetch at {Text.repr fetched_root_dir} has none " ++
        "of ('main.tf', 'outputs.tf', '.terraform.lock.hcl')"))
  | some source_dir =>
      copyRootFiles source_dir structure_home structureRootFiles

section Containment

variable {bounds : Bounds} {start : List Write}

/-- A copy into a place below which all is allowed stays there. -/
theorem confined_copy2 {source_dir structure_home name : String}
    (plain : AddressStore.PlainName name)
    (below : ∀ write, Posix.resolve structure_home <+: write.path →
      bounds.allowed write) :
    Confined bounds start (copy2 (Posix.join source_dir name)
      (Posix.join structure_home name)) := by
  unfold copy2
  refine Confined.bind (confined_of_reads AddressStore.reads_get)
    fun _ machine => ?_
  refine Confined.bind (confined_of_reads (Disk.reads_readFile _))
    fun _ data => ?_
  refine Triple.ite (fun _ => confined_throw _) fun _ => ?_
  refine Disk.confined_writeFile data (below _ ?_)
  unfold copyTarget
  split_ifs
  · rw [Posix.basename_join source_dir plain.noSlash, plain.resolve_join,
      plain.resolve_join, List.append_assoc]
    exact List.prefix_append _ _
  · rw [plain.resolve_join]
    exact List.prefix_append _ _

theorem plainName_structureRootFiles :
    ∀ name ∈ structureRootFiles, AddressStore.PlainName name := by
  have checked : ∀ name ∈ structureRootFiles, '/' ∉ name.toList ∧
      Posix.leads name.toList = true ∧ name.toList ≠ ['.', '.'] := by
    decide
  exact fun name member =>
    ⟨(checked name member).1, (checked name member).2.1,
      (checked name member).2.2⟩

theorem plainName_structureRootDirname :
    AddressStore.PlainName structureRootDirname :=
  ⟨by decide, by decide, by decide⟩

theorem confined_copyRootFiles {source_dir structure_home : String}
    (below : ∀ write, Posix.resolve structure_home <+: write.path →
      bounds.allowed write) {names : List String}
    (plain : ∀ name ∈ names, AddressStore.PlainName name) :
    Confined bounds start
      (copyRootFiles source_dir structure_home names) := by
  induction names with
  | nil => exact confined_pure ()
  | cons name names induction =>
      have later := induction fun other member =>
        plain other (List.mem_cons_of_mem name member)
      unfold copyRootFiles
      refine Confined.bind (confined_of_reads AddressStore.reads_get)
        fun _ machine => ?_
      refine Triple.ite (fun _ => ?_) fun _ => later
      exact (confined_copy2 (plain name List.mem_cons_self) below).bind
        fun _ _ => later

/-- The root files are written in the Structure home. -/
theorem confined_materialize_structure_root_files
    (fetched_root_dir : String) {structure_home : String}
    (stays : bounds.Stays (fun path => ∀ write, path <+: write.path →
      bounds.allowed write) [] (Posix.parts structure_home)) :
    Confined bounds start
      (materialize_structure_root_files fetched_root_dir structure_home) := by
  unfold materialize_structure_root_files
  refine Confined.bind (Disk.confined_makedirs stays) fun below _ => ?_
  refine Confined.bind (confined_of_reads AddressStore.reads_get)
    fun _ machine => ?_
  cases rootSource machine fetched_root_dir with
  | none => exact confined_throw _
  | some source_dir =>
      exact confined_copyRootFiles below plainName_structureRootFiles

end Containment

end Packaging

end Cats
