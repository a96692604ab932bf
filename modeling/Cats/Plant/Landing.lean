import Cats.Plant.PartitionLayout
import Mathlib.Data.List.Perm.Basic

/-!
# Landing a Ray Dataset

The job entrypoint writes the Dataset of the hotF to the object store: whole,
or cut into as many shards as there are partitions.  Ray is a parameter: what
the program relies on is how `split` treats the rows of a Dataset and that
`write_csv` writes them.
-/

namespace Cats

namespace Landing

open PartitionLayout

variable {Row : Type}

/-- A Dataset by its blocks. -/
abbrev Dataset (Row : Type) := List (List Row)

def rows (dataset : Dataset Row) : List Row := dataset.flatten

/-- The rows of several Datasets. -/
def allRows (shards : List (Dataset Row)) : List Row := shards.flatMap rows

/-- The Ray that is installed. -/
structure Ray (Row : Type) where
  /-- Whether `split` knows the keyword `equal`. -/
  takesEqual : Bool
  /-- `dataset.split(n, equal=True)`. -/
  splitEqual : Dataset Row → Nat → List (Dataset Row)
  /-- `dataset.split(n)`. -/
  split : Dataset Row → Nat → List (Dataset Row)
  /-- `dataset.write_csv(…)`: the objects by name. -/
  write_csv : Dataset Row → List (String × List Row)
  length_splitEqual : ∀ dataset n, (splitEqual dataset n).length = n
  even : ∀ dataset n, ∀ shard ∈ splitEqual dataset n,
    (rows shard).length = (rows dataset).length / n
  dropping : ∀ dataset n, ∃ dropped,
    (allRows (splitEqual dataset n) ++ dropped).Perm (rows dataset)
  length_split : ∀ dataset n, (split dataset n).length = n
  keeping : ∀ dataset n, 0 < n →
    (allRows (split dataset n)).Perm (rows dataset)
  writes : ∀ dataset,
    ((write_csv dataset).flatMap Prod.snd).Perm (rows dataset)

/-- The objects under a key, by name. -/
structure Landed (Row : Type) where
  key : String
  objects : List (String × List Row)

/-- `'{}/part-{:05d}'.format(object_store_output_key, i)`. -/
def partKey (object_store_output_key : String) (index : Nat) : String :=
  object_store_output_key ++ "/" ++ part_name index

/-- The shards that are landed when there are several partitions. -/
def shardsOf (ray : Ray Row) (ds_out : Dataset Row) (num_partitions : Nat) :
    List (Dataset Row) :=
  if ray.takesEqual then ray.splitEqual ds_out num_partitions
  -- `except TypeError`
  else ray.split ds_out num_partitions

/-- The end of the entrypoint: what it writes below the result key. -/
def land (ray : Ray Row) (object_store_output_key : String)
    (num_partitions : Int) (ds_out : Dataset Row) : List (Landed Row) :=
  if 1 < num_partitions then
    (shardsOf ray ds_out num_partitions.toNat).zipIdx.map fun shard =>
      { key := partKey object_store_output_key shard.2
        objects := ray.write_csv shard.1 }
  else
    [{ key := object_store_output_key
       objects := ray.write_csv ds_out }]

/-- The rows of all objects written. -/
def landedRows (landed : List (Landed Row)) : List Row :=
  landed.flatMap fun place => place.objects.flatMap Prod.snd

/-- The keys of as many parts, in order. -/
def partKeys (object_store_output_key : String) (count : Nat) : List String :=
  (List.range count).map (partKey object_store_output_key)

theorem partKey_injective {object_store_output_key : String}
    {left right : Nat} (same : partKey object_store_output_key left =
      partKey object_store_output_key right) : left = right := by
  have text := congrArg String.toList same
  simp only [partKey, String.toList_append] at text
  exact part_name_injective
    (String.toList_injective (List.append_cancel_left text))

theorem nodup_partKeys (object_store_output_key : String) (count : Nat) :
    (partKeys object_store_output_key count).Nodup :=
  List.Nodup.map (fun _ _ same => partKey_injective same) List.nodup_range

section Rows

variable (ray : Ray Row)

theorem length_shardsOf (ds_out : Dataset Row) (num_partitions : Nat) :
    (shardsOf ray ds_out num_partitions).length = num_partitions := by
  unfold shardsOf
  split_ifs
  · exact ray.length_splitEqual ds_out num_partitions
  · exact ray.length_split ds_out num_partitions

/-- The keys are those of the parts. -/
theorem keys_land {num_partitions : Nat} (several : 1 < num_partitions)
    (object_store_output_key : String) (ds_out : Dataset Row) :
    (land ray object_store_output_key num_partitions ds_out).map Landed.key =
      partKeys object_store_output_key num_partitions := by
  have more : 1 < (num_partitions : Int) := by omega
  have indices := congrArg (List.map (partKey object_store_output_key))
    (List.zipIdx_map_snd 0 (shardsOf ray ds_out num_partitions))
  rw [List.map_map, ← List.range_eq_range', length_shardsOf] at indices
  rw [land, if_pos more, Int.toNat_natCast, List.map_map, partKeys, ← indices]
  rfl

/-- What is landed is the rows of the shards. -/
theorem landedRows_perm {num_partitions : Nat} (several : 1 < num_partitions)
    (object_store_output_key : String) (ds_out : Dataset Row) :
    (landedRows (land ray object_store_output_key num_partitions
      ds_out)).Perm (allRows (shardsOf ray ds_out num_partitions)) := by
  have more : 1 < (num_partitions : Int) := by omega
  have shards := congrArg (List.flatMap fun shard =>
      (ray.write_csv shard).flatMap Prod.snd)
    (List.zipIdx_map_fst 0 (shardsOf ray ds_out num_partitions))
  rw [List.flatMap_map] at shards
  rw [landedRows, land, if_pos more, Int.toNat_natCast, List.flatMap_map]
  dsimp only
  rw [shards, allRows]
  exact List.Perm.flatMap_left _ fun shard _ => ray.writes shard

theorem landedRows_whole {num_partitions : Nat} (one : num_partitions ≤ 1)
    (object_store_output_key : String) (ds_out : Dataset Row) :
    (landedRows (land ray object_store_output_key num_partitions
      ds_out)).Perm (rows ds_out) := by
  have notMore : ¬ 1 < (num_partitions : Int) := by omega
  rw [landedRows, land, if_neg notMore, List.flatMap_singleton]
  exact ray.writes ds_out

theorem length_allRows {shards : List (Dataset Row)} {size : Nat}
    (even : ∀ shard ∈ shards, (rows shard).length = size) :
    (allRows shards).length = shards.length * size := by
  induction shards with
  | nil => simp [allRows]
  | cons shard shards induction =>
      have later := induction fun other member =>
        even other (List.mem_cons_of_mem shard member)
      rw [allRows] at later ⊢
      rw [List.flatMap_cons, List.length_append, later, List.length_cons,
        Nat.succ_mul, even shard List.mem_cons_self, Nat.add_comm]

/-- Equal shards have all rows exactly when the rows divide evenly. -/
theorem splitEqual_keeps_iff (ds_out : Dataset Row) (num_partitions : Nat) :
    (allRows (ray.splitEqual ds_out num_partitions)).Perm (rows ds_out) ↔
      num_partitions ∣ (rows ds_out).length := by
  have length := length_allRows (ray.even ds_out num_partitions)
  rw [ray.length_splitEqual] at length
  constructor
  · intro kept
    rw [← kept.length_eq, length]
    exact Nat.dvd_mul_right _ _
  · intro divides
    obtain ⟨dropped, whole⟩ := ray.dropping ds_out num_partitions
    have total := whole.length_eq
    rw [List.length_append, length, Nat.mul_div_cancel' divides] at total
    have none : dropped = [] := by
      rw [← List.length_eq_zero_iff]
      omega
    rwa [none, List.append_nil] at whole

/-- The objects have exactly the rows of the Dataset, and several partitions
have one prefix each. -/
structure Conserves (object_store_output_key : String) (num_partitions : Nat)
    (ds_out : Dataset Row) : Prop where
  rows : (landedRows (land ray object_store_output_key num_partitions
    ds_out)).Perm (rows ds_out)
  prefixes : 1 < num_partitions →
    (land ray object_store_output_key num_partitions ds_out).map Landed.key =
      partKeys object_store_output_key num_partitions ∧
    (partKeys object_store_output_key num_partitions).Nodup

end Rows

section Contiguous

/-- The rows between two bounds. -/
def between (bound : Nat → Nat) (all : List Row) (index : Nat) : List Row :=
  (all.drop (bound index)).take (bound (index + 1) - bound index)

/-- Consecutive stretches are the rows up to the last bound. -/
theorem flatMap_between {bound : Nat → Nat} (start : bound 0 = 0)
    (grows : ∀ index, bound index ≤ bound (index + 1)) (all : List Row)
    (count : Nat) :
    (List.range count).flatMap (between bound all) = all.take (bound count) := by
  induction count with
  | zero => rw [List.range_zero, List.flatMap_nil, start, List.take_zero]
  | succ count induction =>
      have apart := Nat.add_sub_cancel' (grows count)
      rw [List.range_succ, List.flatMap_append, List.flatMap_singleton,
        induction, between, ← List.take_add, apart]

/-- The shards between the bounds, of one block each. -/
def shardsBetween (bound : Nat → Nat) (all : List Row) (count : Nat) :
    List (Dataset Row) :=
  (List.range count).map fun index => [between bound all index]

theorem allRows_shardsBetween {bound : Nat → Nat} (start : bound 0 = 0)
    (grows : ∀ index, bound index ≤ bound (index + 1)) (all : List Row)
    (count : Nat) :
    allRows (shardsBetween bound all count) = all.take (bound count) := by
  rw [← flatMap_between start grows all count, allRows, shardsBetween,
    List.flatMap_map]
  simp only [rows, List.flatten_singleton]

def evenBound (size count index : Nat) : Nat := index * (size / count)

def fairBound (size count index : Nat) : Nat := index * size / count

theorem evenBound_le (size count : Nat) {index : Nat} (low : index ≤ count) :
    evenBound size count index ≤ size :=
  calc index * (size / count)
      ≤ count * (size / count) := Nat.mul_le_mul_right _ low
    _ ≤ size := Nat.mul_div_le size count

theorem fairBound_grows (size count index : Nat) :
    fairBound size count index ≤ fairBound size count (index + 1) :=
  Nat.div_le_div_right (Nat.mul_le_mul_right size (Nat.le_succ index))

/-- A Ray that cuts a Dataset into consecutive stretches and writes one object
a block. -/
def contiguous (Row : Type) (takesEqual : Bool) : Ray Row where
  takesEqual := takesEqual
  splitEqual dataset count :=
    shardsBetween (evenBound (rows dataset).length count) (rows dataset) count
  split dataset count :=
    shardsBetween (fairBound (rows dataset).length count) (rows dataset) count
  write_csv dataset :=
    dataset.zipIdx.map fun block => (toString block.2 ++ ".csv", block.1)
  length_splitEqual dataset count := by
    rw [shardsBetween, List.length_map, List.length_range]
  even dataset count shard member := by
    obtain ⟨index, low, rfl⟩ := List.mem_map.mp member
    have fits := evenBound_le (rows dataset).length count
      (Nat.succ_le_of_lt (List.mem_range.mp low))
    simp only [rows, List.flatten_singleton, between, List.length_take,
      List.length_drop, evenBound, Nat.succ_mul] at fits ⊢
    generalize dataset.flatten.length / count = size at fits ⊢
    omega
  dropping dataset count := by
    refine ⟨(rows dataset).drop (evenBound (rows dataset).length count count),
      ?_⟩
    have grows : ∀ index, evenBound (rows dataset).length count index ≤
        evenBound (rows dataset).length count (index + 1) :=
      fun index => Nat.mul_le_mul_right _ (Nat.le_succ index)
    have start : evenBound (rows dataset).length count 0 = 0 :=
      Nat.zero_mul _
    rw [allRows_shardsBetween start grows, List.take_append_drop]
  length_split dataset count := by
    rw [shardsBetween, List.length_map, List.length_range]
  keeping dataset count positive := by
    have start : fairBound (rows dataset).length count 0 = 0 := by
      simp [fairBound]
    have last : fairBound (rows dataset).length count count =
        (rows dataset).length := Nat.mul_div_cancel_left _ positive
    rw [allRows_shardsBetween start (fairBound_grows _ _), last,
      List.take_length]
  writes dataset := by
    have blocks := congrArg List.flatten (List.zipIdx_map_fst 0 dataset)
    rw [List.flatMap_map]
    rw [← List.flatMap_def] at blocks
    rw [rows, ← blocks]

end Contiguous

end Landing

end Cats
