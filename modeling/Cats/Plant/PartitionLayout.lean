import Cats.Codec.Hex
import Cats.Raised
import Mathlib.Data.List.Basic
import Mathlib.Data.List.Nodup
import Mathlib.Data.String.Basic

/-!
# Partition layouts

A layout is a directory of `part-NNNNN` entries.  A single file is cut into
byte shards of nearly equal size; several files are dealt round-robin into
bags, and a bag without files gets a marker.
-/

namespace Cats

namespace PartitionLayout

/-- `f'{index:05d}'`. -/
def pad (index : Nat) : List Char :=
  List.replicate (5 - (Nat.toDigits 10 index).length) '0' ++
    Nat.toDigits 10 index

/-- `part_name(index)`; every caller counts from zero. -/
def part_name (index : Nat) : String := "part-" ++ String.ofList (pad index)

theorem pad_injective {left right : Nat} (same : pad left = pad right) :
    left = right := by
  have value : ∀ index, Nat.ofDigitChars 10 (pad index) 0 = index := by
    intro index
    rw [pad, Nat.ofDigitChars_append, Nat.ofDigitChars_replicate_zero,
      Nat.mul_zero, Nat.ofDigitChars_ten_toDigits]
  rw [← value left, same, value right]

theorem toList_part_name (index : Nat) :
    (part_name index).toList = "part-".toList ++ pad index := by
  simp [part_name]

theorem part_name_injective {left right : Nat}
    (same : part_name left = part_name right) : left = right := by
  have text := congrArg String.toList same
  rw [toList_part_name, toList_part_name] at text
  exact pad_injective (List.append_cancel_left text)

theorem isDigit_of_mem_pad {index : Nat} {character : Char}
    (member : character ∈ pad index) : character.isDigit = true := by
  rcases List.mem_append.mp member with zeros | digits
  · rw [List.eq_of_mem_replicate zeros]
    rfl
  · exact Nat.isDigit_of_mem_toDigits (by omega) (by omega) digits

/-- The names of the first parts, in order. -/
def partNames (count : Nat) : List String := (List.range count).map part_name

theorem nodup_partNames (count : Nat) : (partNames count).Nodup :=
  List.Nodup.map (fun _ _ same => part_name_injective same) List.nodup_range

theorem length_partNames (count : Nat) : (partNames count).length = count := by
  simp [partNames]

/-- The loop of `split_file_bytes`. -/
def shardsFrom (data : Bytes) (base rem : Nat) (offset : Nat) :
    List Nat → List Bytes
  | [] => []
  | index :: indices =>
      let size := base + if index < rem then 1 else 0
      (data.drop offset).take size ::
        shardsFrom data base rem (offset + size) indices

/-- `split_file_bytes(data, num_partitions)`. -/
def split_file_bytes (data : Bytes) (num_partitions : Nat) :
    Except Raised (List Bytes) :=
  if num_partitions < 1 then
    .error (.valueError s!"num_partitions must be >= 1, got {num_partitions}")
  else if num_partitions = 1 then .ok [data]
  else if data.length = 0 then .ok (List.replicate num_partitions [])
  else .ok (shardsFrom data (data.length / num_partitions)
    (data.length % num_partitions) 0 (List.range num_partitions))

theorem length_shardsFrom (data : Bytes) (base rem offset : Nat)
    (indices : List Nat) :
    (shardsFrom data base rem offset indices).length = indices.length := by
  induction indices generalizing offset with
  | nil => rfl
  | cons index indices induction => simp [shardsFrom, induction]

/-- Shards are cut one after the other. -/
theorem flatten_shardsFrom (data : Bytes) (base rem offset : Nat)
    (indices : List Nat) :
    (shardsFrom data base rem offset indices).flatten =
      (data.drop offset).take
        (base * indices.length + (indices.filter (· < rem)).length) := by
  induction indices generalizing offset with
  | nil => simp [shardsFrom]
  | cons index indices induction =>
      have size : base * (index :: indices).length +
          ((index :: indices).filter (· < rem)).length =
            (base + if index < rem then 1 else 0) +
              (base * indices.length +
                (indices.filter (· < rem)).length) := by
        rw [List.length_cons, Nat.mul_succ, List.filter_cons]
        by_cases early : index < rem
        · simp only [early, decide_true, if_true, List.length_cons]
          omega
        · simp only [early, decide_false, if_false, Bool.false_eq_true]
          omega
      rw [size, shardsFrom]
      generalize base + (if index < rem then 1 else 0) = width
      rw [List.flatten_cons, induction]
      generalize base * indices.length +
        (indices.filter (· < rem)).length = others
      rw [List.take_add, List.drop_drop]

theorem length_filter_range (count rem : Nat) (small : rem ≤ count) :
    ((List.range count).filter (· < rem)).length = rem := by
  induction count with
  | zero =>
      obtain rfl : rem = 0 := by omega
      rfl
  | succ count induction =>
      rw [List.range_succ, List.filter_append, List.length_append]
      by_cases whole : rem = count + 1
      · have all : (List.range count).filter (· < rem) = List.range count := by
          apply List.filter_eq_self.mpr
          intro index member
          have bound := List.mem_range.mp member
          simp only [decide_eq_true_eq]
          omega
        have last : count < rem := by omega
        rw [all, List.filter_singleton, decide_eq_true last]
        simp [whole]
      · have past : ¬ count < rem := by omega
        rw [induction (by omega), List.filter_singleton]
        simp [past]

/-- The shards are as many as asked for, and make up the file. -/
theorem split_file_bytes_ok {data : Bytes} {num_partitions : Nat}
    {shards : List Bytes}
    (split : split_file_bytes data num_partitions = .ok shards) :
    shards.length = num_partitions ∧ shards.flatten = data := by
  unfold split_file_bytes at split
  split_ifs at split with negative one empty
  · obtain rfl := Except.ok.inj split
    exact ⟨one.symm, by simp⟩
  · obtain rfl := Except.ok.inj split
    rw [List.length_eq_zero_iff] at empty
    subst empty
    refine ⟨List.length_replicate, ?_⟩
    rw [List.flatten_eq_nil_iff]
    exact fun shard member => List.eq_of_mem_replicate member
  · obtain rfl := Except.ok.inj split
    constructor
    · rw [length_shardsFrom, List.length_range]
    · have small : data.length % num_partitions ≤ num_partitions :=
        (Nat.mod_lt _ (by omega)).le
      rw [flatten_shardsFrom, length_filter_range _ _ small,
        List.length_range, List.drop_zero, Nat.div_add_mod']
      exact List.take_length

/-- A file can be cut into any number of shards but none. -/
theorem split_file_bytes_returns (data : Bytes) {num_partitions : Nat}
    (positive : 1 ≤ num_partitions) :
    ∃ shards, split_file_bytes data num_partitions = .ok shards := by
  have notLess : ¬ num_partitions < 1 := by omega
  unfold split_file_bytes
  rw [if_neg notLess]
  split_ifs
  · exact ⟨_, rfl⟩
  · exact ⟨_, rfl⟩
  · exact ⟨_, rfl⟩

section Dealing

variable {α : Type}

/-- The loop of `round_robin_paths`. -/
def dealFrom (num_partitions : Nat) : Nat → List α → List (List α) →
    List (List α)
  | _, [], bags => bags
  | index, path :: paths, bags =>
      dealFrom num_partitions (index + 1) paths
        (bags.modify (index % num_partitions) (· ++ [path]))

theorem length_dealFrom (num_partitions index : Nat) (paths : List α)
    (bags : List (List α)) :
    (dealFrom num_partitions index paths bags).length = bags.length := by
  induction paths generalizing index bags with
  | nil => rfl
  | cons path paths induction => rw [dealFrom, induction, List.length_modify]

theorem flatten_modify_perm {bags : List (List α)} {index : Nat} (path : α)
    (inside : index < bags.length) :
    (bags.modify index (· ++ [path])).flatten.Perm (path :: bags.flatten) := by
  induction bags generalizing index with
  | nil => simp at inside
  | cons bag bags induction =>
      cases index with
      | zero =>
          rw [List.modify_zero_cons, List.flatten_cons, List.flatten_cons,
            List.append_assoc, List.singleton_append]
          exact List.perm_middle
      | succ index =>
          rw [List.modify_succ_cons, List.flatten_cons, List.flatten_cons]
          have later := induction (Nat.lt_of_succ_lt_succ inside)
          exact (later.append_left bag).trans List.perm_middle

/-- Dealing puts every path in one bag. -/
theorem flatten_dealFrom_perm {num_partitions : Nat} (index : Nat)
    (paths : List α) {bags : List (List α)}
    (length : bags.length = num_partitions) (positive : 1 ≤ num_partitions) :
    (dealFrom num_partitions index paths bags).flatten.Perm
      (paths ++ bags.flatten) := by
  induction paths generalizing index bags with
  | nil => exact List.Perm.refl _
  | cons path paths induction =>
      have inside : index % num_partitions < bags.length := by
        rw [length]
        exact Nat.mod_lt _ positive
      have dealt := @induction (index + 1)
        (bags.modify (index % num_partitions) (· ++ [path]))
        (by rw [List.length_modify, length])
      rw [dealFrom]
      apply dealt.trans
      apply ((flatten_modify_perm path inside).append_left paths).trans
      exact List.perm_middle

end Dealing

/-- A relative path with the bytes of its file. -/
abbrev Entry := String × Bytes

/-- The order in which `sorted` puts paths, by component. -/
def pathOrder (left right : Entry) : Bool :=
  decide (Text.splitOn '/' left.1.toList ≤ Text.splitOn '/' right.1.toList)

/-- `round_robin_paths(paths, num_partitions)`. -/
def round_robin_paths (paths : List Entry) (num_partitions : Nat) :
    Except Raised (List (List Entry)) :=
  if num_partitions < 1 then
    .error (.valueError s!"num_partitions must be >= 1, got {num_partitions}")
  else .ok (dealFrom num_partitions 0 (paths.mergeSort pathOrder)
    (List.replicate num_partitions []))

/-- The bags are as many as asked for and hold every path once. -/
theorem round_robin_paths_ok {paths : List Entry} {num_partitions : Nat}
    {bags : List (List Entry)}
    (dealt : round_robin_paths paths num_partitions = .ok bags) :
    bags.length = num_partitions ∧ bags.flatten.Perm paths := by
  unfold round_robin_paths at dealt
  split_ifs at dealt with negative
  obtain rfl := Except.ok.inj dealt
  constructor
  · rw [length_dealFrom, List.length_replicate]
  · have empty : (List.replicate num_partitions ([] : List Entry)).flatten =
        [] := by
      rw [List.flatten_eq_nil_iff]
      exact fun bag member => List.eq_of_mem_replicate member
    have positive : 1 ≤ num_partitions := by omega
    have count : (List.replicate num_partitions ([] : List Entry)).length =
        num_partitions := List.length_replicate
    have perm := flatten_dealFrom_perm 0 (paths.mergeSort pathOrder) count
      positive
    rw [empty, List.append_nil] at perm
    exact perm.trans (List.mergeSort_perm _ _)

/-- `write_shard_tree(bag, dest_dir, source_root=source_root)`: what the
directory holds then, by path below it. -/
def write_shard_tree (bag : List Entry) : List Entry :=
  match bag with
  | [] => [(".empty", [])]
  | bag => bag

end PartitionLayout

end Cats
