import Cats.Cas.FileMap
import Cats.Plant.PartitionLayout

/-!
# Partitioned ingress

`run_partition_ingress` fetches the input, lists its visible files and writes
a layout of as many parts as asked for.  The layout is given by the paths and
bytes of its files.
-/

namespace Cats

namespace RayIo

open PartitionLayout

/-- `name.startswith('.')`. -/
def isHidden (name : String) : Bool := Text.startsWith name "."

mutual

/-- The files `collect_input_files` finds below a directory. -/
def collect (rel_dir : String) : Directory → List Entry
  | .node files dirs =>
      (files.filter fun file => !isHidden file.1).map
        (fun file => (relName rel_dir file.1, file.2)) ++
        collectAll rel_dir dirs

def collectAll (rel_dir : String) : List (String × Directory) → List Entry
  | [] => []
  | (name, directory) :: dirs =>
      (if isHidden name then []
        else collect (relName rel_dir name) directory) ++
        collectAll rel_dir dirs

end

/-- `collect_input_files(root)`. -/
def collect_input_files (root : Directory) : List Entry :=
  (collect "." root).mergeSort pathOrder

mutual

/-- No file and no directory is hidden. -/
def Visible : Directory → Prop
  | .node files dirs =>
      (∀ file ∈ files, isHidden file.1 = false) ∧ VisibleAll dirs

def VisibleAll : List (String × Directory) → Prop
  | [] => True
  | (name, directory) :: dirs =>
      isHidden name = false ∧ Visible directory ∧ VisibleAll dirs

end

mutual

theorem collect_of_visible {directory : Directory}
    (visible : Visible directory) (rel_dir : String) :
    collect rel_dir directory =
      directory.walk (fun _ => false) rel_dir := by
  cases directory with
  | node files dirs =>
      obtain ⟨shown, below⟩ := visible
      have kept : files.filter (fun file => !isHidden file.1) = files :=
        List.filter_eq_self.mpr fun file member => by simp [shown file member]
      rw [collect, Directory.walk, kept, collectAll_of_visible below rel_dir]
      congr 1
      exact (List.filter_eq_self.mpr fun _ _ => rfl).symm

theorem collectAll_of_visible {dirs : List (String × Directory)}
    (visible : VisibleAll dirs) (rel_dir : String) :
    collectAll rel_dir dirs =
      Directory.walkAll (fun _ => false) rel_dir dirs := by
  cases dirs with
  | nil => rfl
  | cons entry dirs =>
      obtain ⟨name, directory⟩ := entry
      obtain ⟨shown, below, later⟩ := visible
      rw [collectAll, Directory.walkAll, shown,
        collect_of_visible below, collectAll_of_visible later]

end

/-- A visible directory is collected whole. -/
theorem collect_input_files_perm {directory : Directory}
    (visible : Visible directory) :
    (collect_input_files directory).Perm (directory.allFiles) := by
  have same := collect_of_visible visible "."
  rw [collect_input_files, same]
  exact List.mergeSort_perm _ _

/-- What the input id names. -/
inductive Source where
  | tree (directory : Directory)
  | blob (data : Bytes)

/-- One byte shard for each part. -/
def shardLayout (shards : List Bytes) : List Entry :=
  shards.zipIdx.map fun shard => (part_name shard.2, shard.1)

/-- One bag of files for each part. -/
def bagLayout (bags : List (List Entry)) : List Entry :=
  bags.zipIdx.flatMap fun bag => (write_shard_tree bag.1).map fun file =>
    (part_name bag.2 ++ "/" ++ file.1, file.2)

/-- `run_partition_ingress(mesh, input_dir_id, num_partitions=num_partitions)`,
up to the `put_dir` of the layout it makes. -/
def run_partition_ingress (source : Source) (num_partitions : Nat) :
    Except Raised (List Entry) :=
  if num_partitions < 2 then
    .error (.valueError "partition_ingress requires num_partitions >= 2")
  else
    match source with
    -- the directory for the input is there before the blob is written to it
    | .blob _ => .error ⟨.isADirectoryError, "Is a directory"⟩
    | .tree directory =>
        match collect_input_files directory with
        | [(_, data)] => do
            let shards ← split_file_bytes data num_partitions
            .ok (shardLayout shards)
        | files => do
            let bags ← round_robin_paths files num_partitions
            .ok (bagLayout bags)

end RayIo

end Cats
