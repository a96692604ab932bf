import Cats.Plant.Landing
import Cats.Plant.RayCompute
import Cats.Python.Integer

/-!
# The partition count of an execution

The Processor reads `CATS_IO_PARTITIONS` once.  Ingress and the Seed are given
its number; the submitted job reads the variable again, from the environment
its own driver has.
-/

namespace Cats

namespace PartitionCount

open PartitionLayout RayIo RayCompute Landing

variable {Row : Type}

abbrev Environ := String → Option String

/-- `text or '1'`. -/
def orOne (text : String) : String := if text = "" then "1" else text

/-- `os.environ.get('CATS_IO_PARTITIONS', '1')`. -/
def raw (environ : Environ) : String :=
  (environ "CATS_IO_PARTITIONS").getD "1"

/-- `_io_partitions()`. -/
def io_partitions (environ : Environ) : Except Raised Nat :=
  let raw := orOne (Text.strip (raw environ))
  match Text.int? raw with
  | none =>
      .error (.valueError
        s!"CATS_IO_PARTITIONS must be an int, got {Text.repr raw}")
  | some n =>
      if n < 1 then
        .error (.valueError s!"CATS_IO_PARTITIONS must be >= 1, got {n}")
      else .ok n.toNat

/-- `num_partitions` in the job entrypoint. -/
def entrypoint_partitions (environ : Environ) : Int :=
  -- `except ValueError: num_partitions = 1`
  (Text.int? (orOne (raw environ))).getD 1

inductive BatchFn where
  | function_0
  | function_1
  deriving DecidableEq, Repr

/-- `compute.run_transfer(batch_fn, 'input', zip_with_range=…,
num_partitions=…)`. -/
abbrev ComputePort (Row : Type) :=
  BatchFn → Bool → Int → Except Raised (Dataset Row)

/-- A call of a hotF: what it and its `ComputePort` were given, and what it
returned. -/
structure Called (Row : Type) where
  hotF : Int
  compute : Int
  ds_out : Dataset Row

/-- A hotF hands its `num_partitions` on. -/
def transfer (compute : ComputePort Row) (batch_fn : BatchFn)
    (zip_with_range : Bool) (num_partitions : Int) :
    Except Raised (Called Row) :=
  match compute batch_fn zip_with_range num_partitions with
  | .error raised => .error raised
  | .ok ds_out =>
      .ok { hotF := num_partitions, compute := num_partitions, ds_out := ds_out }

def process_0 (compute : ComputePort Row) (num_partitions : Int) :
    Except Raised (Called Row) :=
  transfer compute .function_0 true num_partitions

def process_1 (compute : ComputePort Row) (num_partitions : Int) :
    Except Raised (Called Row) :=
  transfer compute .function_1 false num_partitions

/-- The hotFs an Order can name. -/
inductive Process where
  | process_0
  | process_1
  deriving DecidableEq, Repr

def Process.call : Process → ComputePort Row → Int → Except Raised (Called Row)
  | .process_0 => PartitionCount.process_0
  | .process_1 => PartitionCount.process_1

/-- The `runtime_env` of a submitted job. -/
structure RuntimeEnv where
  working_dir : String
  env_vars : List (String × String) := []

structure Submission where
  entrypoint : String
  runtime_env : RuntimeEnv

/-- `RayPlantPort.submit_job(entrypoint=…, working_dir=…)`. -/
def submit_job (entrypoint working_dir : String) : Submission where
  entrypoint := entrypoint
  runtime_env := { working_dir := working_dir }

/-- The environment of a job's driver: the pod's own and the `env_vars`. -/
def driverEnviron (pod : Environ) (runtime_env : RuntimeEnv) : Environ :=
  fun name =>
    match runtime_env.env_vars.lookup name with
    | some text => some text
    | none => pod name

/-- The hotF in the job; a `TypeError` is taken for one without
`num_partitions`. -/
def callHotF (subproc : Int → Except Raised (Called Row))
    (num_partitions : Int) : Except Raised (Called Row) :=
  match subproc num_partitions with
  | .ok called => .ok called
  | .error raised =>
      if raised.kind = .typeError then subproc 1 else .error raised

/-- `entrypoint.py`: the call it made and what it landed. -/
def entrypoint (environ : Environ) (ray : Ray Row)
    (subproc : Int → Except Raised (Called Row))
    (object_store_output_key : String) :
    Except Raised (Called Row × List (Landed Row)) := do
  let num_partitions := entrypoint_partitions environ
  let called ← callHotF subproc num_partitions
  .ok (called, land ray object_store_output_key num_partitions called.ds_out)

/-- What an execution meets. -/
structure Site (Row : Type) where
  /-- `os.environ` of the submitting process. -/
  environ : Environ
  pod : Environ
  ray : Ray Row
  compute : ComputePort Row
  integrated_subproc : Process
  source : Source
  /-- Where ingress is itself a job (`CATS_IO_VIA_JOB`), whether that job gets
  to its `run_partition_ingress`. -/
  io_job : Except Raised Unit
  working_dir : String
  object_store_output_key : String

/-- `Processor.Ingress`: the layout it makes, `none` where it migrates. -/
def Ingress (site : Site Row) (num_partitions : Nat) :
    Except Raised (Option (List Entry)) :=
  if 1 < num_partitions then do
    site.io_job
    let layout ← run_partition_ingress site.source num_partitions
    .ok (some layout)
  else .ok none

/-- What is left of an execution, as far as it shows the count. -/
structure Executed (Row : Type) where
  /-- `seed['num_partitions']`. -/
  seed : Nat
  layout : Option (List Entry)
  called : Called Row
  landed : List (Landed Row)
  /-- `os.environ` of the submitting process afterwards. -/
  environ : Environ

/-- One execution, as far as it carries the count. -/
def execute (site : Site Row) : Except Raised (Executed Row) := do
  let num_partitions ← io_partitions site.environ
  let layout ← Ingress site num_partitions
  let environ := Function.update site.environ "CATS_IO_PARTITIONS"
    (some (Text.ofNat num_partitions))
  let job := submit_job "python entrypoint.py" site.working_dir
  let ran ← entrypoint (driverEnviron site.pod job.runtime_env) site.ray
    (site.integrated_subproc.call site.compute) site.object_store_output_key
  .ok { seed := num_partitions, layout := layout, called := ran.1,
        landed := ran.2, environ := environ }

/-- The parts of a layout. -/
def layoutParts (layout : List Entry) : Nat :=
  ((rootEntries layout).filter fun name => Text.startsWith name "part-").length

/-- The `part-*` outputs below a key. -/
def landedParts (object_store_output_key : String)
    (landed : List (Landed Row)) : Nat :=
  (landed.filter fun place =>
    Text.startsWith place.key (object_store_output_key ++ "/part-")).length

section Job

theorem call_ok {process : Process} {compute : ComputePort Row}
    {num_partitions : Int} {called : Called Row}
    (ran : process.call compute num_partitions = .ok called) :
    called.hotF = num_partitions ∧ called.compute = num_partitions := by
  have handed : ∀ batch_fn zip_with_range,
      transfer compute batch_fn zip_with_range num_partitions = .ok called →
      called.hotF = num_partitions ∧ called.compute = num_partitions := by
    intro batch_fn zip_with_range same
    unfold transfer at same
    split at same
    · cases same
    · cases same
      exact ⟨rfl, rfl⟩
  cases process with
  | process_0 => exact handed _ _ ran
  | process_1 => exact handed _ _ ran

/-- The hotF raises a `TypeError` when it is told the count. -/
def TypeErrorAt (subproc : Int → Except Raised (Called Row))
    (num_partitions : Int) : Prop :=
  ∃ raised, subproc num_partitions = .error raised ∧ raised.kind = .typeError

/-- The count a hotF that returned was given. -/
theorem callHotF_ok {process : Process} {compute : ComputePort Row}
    {num_partitions : Int} {called : Called Row}
    (ran : callHotF (process.call compute) num_partitions = .ok called) :
    (TypeErrorAt (process.call compute) num_partitions ∧
      called.hotF = 1 ∧ called.compute = 1) ∨
    (¬ TypeErrorAt (process.call compute) num_partitions ∧
      called.hotF = num_partitions ∧ called.compute = num_partitions) := by
  unfold callHotF at ran
  cases first : process.call compute num_partitions with
  | ok other =>
      rw [first] at ran
      cases ran
      apply Or.inr
      constructor
      · intro atCount
        obtain ⟨raised, failed, _⟩ := atCount
        rw [first] at failed
        cases failed
      · exact call_ok first
  | error raised =>
      rw [first] at ran
      dsimp only at ran
      by_cases typeError : raised.kind = .typeError
      · rw [if_pos typeError] at ran
        exact .inl ⟨⟨raised, first, typeError⟩, call_ok ran⟩
      · rw [if_neg typeError] at ran
        cases ran

/-- A job is not given the variable. -/
theorem driverEnviron_submit_job (pod : Environ)
    (entrypoint working_dir : String) :
    driverEnviron pod (submit_job entrypoint working_dir).runtime_env = pod :=
  rfl

theorem landedParts_land (ray : Ray Row) (object_store_output_key : String)
    (num_partitions : Int) (ds_out : Dataset Row) :
    landedParts object_store_output_key
      (land ray object_store_output_key num_partitions ds_out) =
      if 1 < num_partitions then num_partitions.toNat else 0 := by
  by_cases several : 1 < num_partitions
  · have parts : ∀ place ∈
        land ray object_store_output_key num_partitions ds_out,
        Text.startsWith place.key (object_store_output_key ++ "/part-") =
          true := by
      intro place member
      rw [land, if_pos several, List.mem_map] at member
      obtain ⟨shard, _, rfl⟩ := member
      have marked : (object_store_output_key ++ "/part-").toList ++
          pad shard.2 = (partKey object_store_output_key shard.2).toList := by
        simp [partKey, part_name]
      rw [Text.startsWith_iff, ← marked]
      exact List.prefix_append _ _
    rw [landedParts, List.filter_eq_self.mpr parts, if_pos several, land,
      if_pos several, List.length_map, List.length_zipIdx, length_shardsOf]
  · have notPart : Text.startsWith object_store_output_key
        (object_store_output_key ++ "/part-") = false := by
      rw [Bool.eq_false_iff, ne_eq, Text.startsWith_iff]
      intro longer
      have lengths := longer.length_le
      rw [String.toList_append, List.length_append] at lengths
      have positive : 0 < "/part-".toList.length := by decide
      omega
    rw [landedParts, land, if_neg several, if_neg several,
      List.filter_cons, notPart]
    rfl

end Job

section Layout

theorem layoutParts_of_parted {layout : List Entry} {count : Nat}
    (parted : Parted layout count) : layoutParts layout = count := by
  have roots := rootEntries_perm parted
  have named : ∀ name ∈ rootEntries layout,
      Text.startsWith name "part-" = true := by
    intro name member
    obtain ⟨index, _, rfl⟩ := mem_partNames.mp (roots.mem_iff.mp member)
    exact startsWith_part_name index
  rw [layoutParts, List.filter_eq_self.mpr named, roots.length_eq,
    length_partNames]

theorem run_partition_ingress_parted {source : Source} {num_partitions : Nat}
    {layout : List Entry}
    (made : run_partition_ingress source num_partitions = .ok layout) :
    Parted layout num_partitions := by
  unfold run_partition_ingress at made
  split_ifs at made
  cases source with
  | blob data => cases made
  | tree directory =>
      dsimp only at made
      split at made
      · obtain ⟨shards, cut, same⟩ := Raised.bind_returns made
        cases same
        obtain ⟨count, _⟩ := split_file_bytes_ok cut
        intro name
        rw [topLevel_shardLayout, count]
      · obtain ⟨bags, dealt, same⟩ := Raised.bind_returns made
        cases same
        obtain ⟨count, _⟩ := round_robin_paths_ok dealt
        have parted := parted_bagLayout bags
        rwa [count] at parted

/-- Ingress makes as many parts as it is told. -/
theorem Ingress_parts {site : Site Row} {num_partitions : Nat}
    {layout : Option (List Entry)}
    (made : Ingress site num_partitions = .ok layout)
    (several : 2 ≤ num_partitions) :
    layout.map layoutParts = some num_partitions := by
  have more : 1 < num_partitions := several
  rw [Ingress, if_pos more] at made
  obtain ⟨_, _, made⟩ := Raised.bind_returns made
  obtain ⟨parts, ingressed, same⟩ := Raised.bind_returns made
  cases same
  rw [Option.map_some,
    layoutParts_of_parted (run_partition_ingress_parted ingressed)]

end Layout

section Execution

/-- What an execution shows is the one count everywhere. -/
structure OneCount (object_store_output_key : String) (n : Nat)
    (executed : Executed Row) : Prop where
  seed : executed.seed = n
  ingress : 2 ≤ n → executed.layout.map layoutParts = some n
  hotF : executed.called.hotF = n
  compute : executed.called.compute = n
  landed : 2 ≤ n → landedParts object_store_output_key executed.landed = n

/-- The job is told the count: its pod has it, or the hotF falls back to the
one partition there is. -/
def JobTold (site : Site Row) (n : Nat) : Prop :=
  (TypeErrorAt (site.integrated_subproc.call site.compute)
      (entrypoint_partitions site.pod) ∧ n = 1) ∨
  (¬ TypeErrorAt (site.integrated_subproc.call site.compute)
      (entrypoint_partitions site.pod) ∧ entrypoint_partitions site.pod = n)

/-- The steps of an execution that returned. -/
theorem execute_ok {site : Site Row} {executed : Executed Row}
    (ran : execute site = .ok executed) :
    io_partitions site.environ = .ok executed.seed ∧
    Ingress site executed.seed = .ok executed.layout ∧
    callHotF (site.integrated_subproc.call site.compute)
      (entrypoint_partitions site.pod) = .ok executed.called ∧
    executed.landed = land site.ray site.object_store_output_key
      (entrypoint_partitions site.pod) executed.called.ds_out := by
  obtain ⟨n, accepted, ran⟩ := Raised.bind_returns ran
  obtain ⟨layout, made, ran⟩ := Raised.bind_returns ran
  obtain ⟨job, entered, same⟩ := Raised.bind_returns ran
  rw [driverEnviron_submit_job] at entered
  obtain ⟨called, answered, landed⟩ := Raised.bind_returns entered
  cases landed
  cases same
  exact ⟨accepted, made, answered, rfl⟩

/-- The submitting process keeps its count for its next execution. -/
theorem io_partitions_update (environ : Environ) {n : Nat} (positive : 1 ≤ n)
    (short : (Nat.toDigits 10 n).length ≤ Text.maxStrDigits) :
    io_partitions (Function.update environ "CATS_IO_PARTITIONS"
      (some (Text.ofNat n))) = .ok n := by
  have read := Text.int?_ofNat short
  have visible : Text.strip (Text.ofNat n) = Text.ofNat n := by
    apply Text.strip_eq_self
    intro character member
    rw [Text.ofNat, String.toList_ofList] at member
    exact Text.isSpace_of_isDigit
      (Nat.isDigit_of_mem_toDigits (by omega) (by omega) member)
  have some : Text.ofNat n ≠ "" := by
    intro empty
    have digits := congrArg String.toList empty
    rw [Text.ofNat, String.toList_ofList] at digits
    exact Nat.toDigits_ne_nil digits
  have notLess : ¬ (n : Int) < 1 := by omega
  simp only [io_partitions, raw, Function.update_self, Option.getD_some,
    visible, orOne, if_neg some, read, if_neg notLess, Int.toNat_natCast]

end Execution

section Runs

/-- A hotF that returns three rows, for an input without files. -/
def plainSite (environ pod : Environ) : Site Nat where
  environ := environ
  pod := pod
  ray := contiguous Nat true
  compute _ _ _ := .ok [[1, 2, 3]]
  integrated_subproc := .process_0
  source := .tree (.node [] [])
  io_job := .ok ()
  working_dir := "/tmp/infrafunction_job_0"
  object_store_output_key := "scratch/jobs/0/result"

/-- `CATS_IO_PARTITIONS=2`. -/
def two : Environ := fun name =>
  if name = "CATS_IO_PARTITIONS" then some "2" else none

theorem io_partitions_two : io_partitions two = .ok 2 := by decide +kernel

theorem ingress_two : run_partition_ingress (.tree (.node [] [])) 2 =
    .ok (bagLayout [[], []]) := by decide +kernel

theorem io_partitions_plainSite (pod : Environ) :
    io_partitions (plainSite two pod).environ = .ok 2 := by
  rw [plainSite]
  exact io_partitions_two

theorem execute_two (pod : Environ) :
    ∃ executed, execute (plainSite two pod) = .ok executed ∧
      executed.called.hotF = entrypoint_partitions pod := by
  have made : Ingress (plainSite two pod) 2 =
      .ok (some (bagLayout [[], []])) := by
    have several : 1 < 2 := by omega
    rw [Ingress, if_pos several]
    simp only [plainSite, ingress_two, bind, Except.bind]
  unfold execute
  rw [io_partitions_plainSite]
  dsimp only [bind, Except.bind]
  rw [made]
  exact ⟨_, rfl, rfl⟩

end Runs

end PartitionCount

end Cats
