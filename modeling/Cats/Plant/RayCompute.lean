import Cats.Plant.RayIo
import Mathlib.Data.List.Dedup
import Mathlib.Data.List.Count

/-!
# Reading partitions

`run_transfer` reads the parts of a layout when it finds as many as it was
told, and the whole tree otherwise.  A tree is given by the paths and bytes of
its files, a row by the bytes of its line.
-/

namespace Cats

namespace RayCompute

open PartitionLayout RayIo

/-- The lines a text ends, when it follows the beginning of a line. -/
def linesFrom (line : Bytes) : Bytes → List Bytes
  | [] => []
  | byte :: data =>
      if byte = 10 then line :: linesFrom [] data
      else linesFrom (line ++ [byte]) data

/-- `ray.data.read_csv` of one file: the lines after the header. -/
def csvRows (data : Bytes) : List Bytes := (linesFrom [] data).tail

/-- The rows of some files. -/
def rowsOf (tree : List Entry) : List Bytes :=
  tree.flatMap fun file => csvRows file.2

/-- The entry of the root that a file is or lies in. -/
def topLevel (file : Entry) : String :=
  String.ofList (file.1.toList.takeWhile (· ≠ '/'))

/-- The entries of the root. -/
def rootEntries (tree : List Entry) : List String :=
  (tree.map topLevel).dedup

def sortedNames (names : List String) : List String :=
  names.mergeSort fun left right => decide (left ≤ right)

/-- `_part_inputs(input_path, num_partitions)`: the entries to read. -/
def part_inputs (tree : List Entry) (num_partitions : Nat) :
    Option (List String) :=
  let parts := (rootEntries tree).filter fun name =>
    Text.startsWith name "part-"
  let shards := sortedNames (parts.filter fun name =>
    !Text.endsWith name ".car")
  if shards.length = num_partitions then some shards
  else
    let cars := sortedNames (parts.filter fun name => Text.endsWith name ".car")
    if cars.length = num_partitions then
      some (cars.map fun car =>
        let stem := String.ofList (car.toList.take (car.toList.length - 4))
        if stem ∈ rootEntries tree then stem else car)
    else none

/-- `_read_csv_paths(ray, paths)`. -/
def read_csv_paths (tree : List Entry) (paths : List String) : List Bytes :=
  if paths.any fun path => Text.endsWith (Text.lower path) ".car" then
    rowsOf tree
  else paths.flatMap fun path =>
    rowsOf (tree.filter fun file => topLevel file = path)

/-- The rows `run_transfer(batch_fn, input_path, num_partitions=…)` reads. -/
def run_transfer_rows (tree : List Entry) (num_partitions : Nat) : List Bytes :=
  if 1 < num_partitions then
    match part_inputs tree num_partitions with
    | some paths => read_csv_paths tree paths
    | none => rowsOf tree
  else rowsOf tree

section Lines

/-- A line end. -/
def ends (data : Bytes) : Bool := data.contains 10

theorem linesFrom_append {start : Bytes} (noEnd : ends start = false)
    (line data : Bytes) :
    linesFrom line (start ++ data) = linesFrom (line ++ start) data := by
  induction start generalizing line with
  | nil => rw [List.nil_append, List.append_nil]
  | cons byte start induction =>
      simp only [ends, List.contains_cons, Bool.or_eq_false_iff,
        beq_eq_false_iff_ne] at noEnd
      have different : byte ≠ 10 := Ne.symm noEnd.1
      rw [List.cons_append, linesFrom, if_neg different,
        induction (by simpa [ends] using noEnd.2), List.append_assoc,
        List.singleton_append]

theorem linesFrom_noEnd {data : Bytes} (noEnd : ends data = false)
    (line : Bytes) : linesFrom line data = [] := by
  have whole := linesFrom_append noEnd line []
  rw [List.append_nil] at whole
  rw [whole, linesFrom]

/-- What follows the last line end belongs to no line. -/
theorem linesFrom_append_noEnd {rest : Bytes} (noEnd : ends rest = false)
    (line data : Bytes) :
    linesFrom line (data ++ rest) = linesFrom line data := by
  induction data generalizing line with
  | nil => rw [List.nil_append, linesFrom_noEnd noEnd, linesFrom]
  | cons byte data induction =>
      rw [List.cons_append, linesFrom, linesFrom, induction, induction]

/-- Only the first line depends on what stands before the text. -/
theorem tail_linesFrom (line other data : Bytes) :
    (linesFrom line data).tail = (linesFrom other data).tail := by
  induction data generalizing line other with
  | nil => rfl
  | cons byte data induction =>
      rw [linesFrom, linesFrom]
      split_ifs
      · rfl
      · exact induction _ _

theorem length_linesFrom (line data : Bytes) :
    (linesFrom line data).length = data.count 10 := by
  induction data generalizing line with
  | nil => rfl
  | cons byte data induction =>
      rw [linesFrom, List.count_cons]
      split_ifs with same ended
      · rw [List.length_cons, induction]
      · simp [same] at ended
      · simp_all
      · rw [induction, Nat.add_zero]

theorem length_csvRows (data : Bytes) :
    (csvRows data).length = data.count 10 - 1 := by
  rw [csvRows, List.length_tail, length_linesFrom]

theorem csvRows_noEnd {data : Bytes} (noEnd : ends data = false) :
    csvRows data = [] := by
  rw [csvRows, linesFrom_noEnd noEnd, List.tail_nil]

theorem ends_iff {data : Bytes} : ends data = true ↔ 0 < data.count 10 := by
  rw [ends, List.contains_iff_mem, List.count_pos_iff]

end Lines

section Shards

/-- The rows of the shards of a file. -/
def shardRows (shards : List Bytes) : List Bytes := shards.flatMap csvRows

theorem ends_flatten {shards : List Bytes}
    (none : ∀ shard ∈ shards, ends shard = false) :
    ends shards.flatten = false := by
  induction shards with
  | nil => rfl
  | cons shard shards induction =>
      have first := none shard List.mem_cons_self
      have later := induction fun other member =>
        none other (List.mem_cons_of_mem shard member)
      rw [List.flatten_cons]
      simp only [ends, List.contains_eq_mem, List.mem_append,
        decide_eq_false_iff_not, not_or] at first later ⊢
      exact ⟨first, later⟩

theorem shardRows_none {shards : List Bytes}
    (none : ∀ shard ∈ shards, ends shard = false) : shardRows shards = [] := by
  rw [shardRows, List.flatMap_eq_nil_iff]
  exact fun shard member => csvRows_noEnd (none shard member)

/-- Where one shard has all line ends, its rows are those of the file. -/
theorem shardRows_of_one {shards : List Bytes}
    (one : (shards.countP ends) ≤ 1) :
    shardRows shards = csvRows shards.flatten := by
  induction shards with
  | nil => rfl
  | cons shard shards induction =>
      rw [List.countP_cons] at one
      rw [List.flatten_cons]
      by_cases here : ends shard = true
      · have rest : ∀ other ∈ shards, ends other = false := by
          have zero : shards.countP ends = 0 := by
            simp only [here, if_true] at one
            omega
          intro other member
          exact Bool.eq_false_iff.mpr (List.countP_eq_zero.mp zero other member)
        rw [csvRows, linesFrom_append_noEnd (ends_flatten rest)]
        have quiet := shardRows_none rest
        rw [shardRows] at quiet ⊢
        rw [List.flatMap_cons, quiet, List.append_nil, csvRows]
      · have absent := Bool.eq_false_iff.mpr here
        have fewer : shards.countP ends ≤ 1 := by omega
        have later := induction fewer
        rw [shardRows] at later ⊢
        rw [List.flatMap_cons, csvRows_noEnd absent, List.nil_append, later,
          csvRows, csvRows, linesFrom_append absent]
        exact tail_linesFrom _ _ _

/-- Every shard with a line end gives up one line. -/
theorem length_shardRows (shards : List Bytes) :
    (shardRows shards).length + shards.countP ends =
      shards.flatten.count 10 := by
  induction shards with
  | nil => rfl
  | cons shard shards induction =>
      rw [shardRows] at induction ⊢
      rw [List.flatMap_cons, List.length_append, length_csvRows,
        List.countP_cons, List.flatten_cons, List.count_append, ← induction]
      by_cases here : ends shard = true
      · have positive := ends_iff.mp here
        rw [if_pos here]
        omega
      · have zero : shard.count 10 = 0 := by
          have notPositive : ¬ 0 < shard.count 10 := fun positive =>
            here (ends_iff.mpr positive)
          omega
        rw [if_neg here]
        omega

/-- Shards keep the rows of their file exactly when at most one of them has a
line end. -/
theorem shardRows_perm_iff (shards : List Bytes) :
    (shardRows shards).Perm (csvRows shards.flatten) ↔
      shards.countP ends ≤ 1 := by
  constructor
  · intro same
    have lengths := same.length_eq
    have total := length_shardRows shards
    rw [length_csvRows] at lengths
    omega
  · intro one
    rw [shardRows_of_one one]

end Shards

section Layouts

variable {layout : List Entry} {count : Nat}

theorem noSlash_part_name (index : Nat) : '/' ∉ (part_name index).toList := by
  intro member
  rw [toList_part_name] at member
  rcases List.mem_append.mp member with start | digits
  · revert start
    decide
  · have digit := isDigit_of_mem_pad digits
    revert digit
    decide

theorem topLevel_plain {name : String} (plain : '/' ∉ name.toList)
    (data : Bytes) : topLevel (name, data) = name := by
  have whole : name.toList.takeWhile (· ≠ '/') = name.toList := by
    rw [List.takeWhile_eq_self_iff]
    intro character member
    have different : character ≠ '/' := fun same => plain (same ▸ member)
    simpa using different
  rw [topLevel, whole, String.ofList_toList]

theorem topLevel_below {name : String} (plain : '/' ∉ name.toList)
    (rel : String) (data : Bytes) :
    topLevel (name ++ "/" ++ rel, data) = name := by
  have whole := topLevel_plain plain data
  have passed : ∀ character ∈ name.toList, decide (character ≠ '/') = true := by
    intro character member
    have different : character ≠ '/' := fun same => plain (same ▸ member)
    simpa using different
  have text : (name ++ "/" ++ rel).toList = name.toList ++ '/' :: rel.toList := by
    simp
  rw [topLevel]
  dsimp only
  rw [text, List.takeWhile_append_of_pos passed, List.takeWhile_cons]
  simp

/-- A layout has the parts `part-00000` up to its count at its root. -/
def Parted (layout : List Entry) (count : Nat) : Prop :=
  ∀ name, name ∈ layout.map topLevel ↔ name ∈ partNames count

theorem mem_partNames {name : String} :
    name ∈ partNames count ↔ ∃ index < count, part_name index = name := by
  simp [partNames]

theorem rootEntries_perm (parted : Parted layout count) :
    (rootEntries layout).Perm (partNames count) := by
  have distinct : (rootEntries layout).Nodup := List.nodup_dedup _
  rw [List.perm_ext_iff_of_nodup distinct (nodup_partNames count)]
  intro name
  rw [rootEntries, List.mem_dedup]
  exact parted name

theorem startsWith_part_name (index : Nat) :
    Text.startsWith (part_name index) "part-" = true := by
  rw [Text.startsWith_iff, toList_part_name]
  exact List.prefix_append _ _

theorem toLower_of_isDigit {character : Char}
    (digit : character.isDigit = true) : character.toLower = character := by
  delta Char.toLower
  split_ifs with upper
  · delta Char.isDigit at digit
    simp only [Bool.and_eq_true, decide_eq_true_eq] at digit
    exfalso
    have small : character.val.toNat ≤ 57 := digit.2
    have large : 65 ≤ character.val.toNat := upper.1
    omega
  · rfl

/-- A part is no `.car` file, in any case. -/
theorem notCar_part_name (index : Nat) :
    Text.endsWith (part_name index) ".car" = false ∧
      Text.endsWith (Text.lower (part_name index)) ".car" = false := by
  have digits : pad index ≠ [] := by
    intro empty
    have tail := (List.append_eq_nil_iff.mp empty).2
    exact Nat.toDigits_ne_nil tail
  obtain ⟨start, last, split⟩ : ∃ start last, pad index = start ++ [last] :=
    ⟨_, _, (List.dropLast_append_getLast digits).symm⟩
  have member : last ∈ pad index := by
    rw [split]
    simp
  have digit := isDigit_of_mem_pad member
  have notR : last ≠ 'r' := by
    intro same
    rw [same] at digit
    revert digit
    decide
  have notCar : ∀ {text : String} {front : List Char},
      text.toList = front ++ [last] → Text.endsWith text ".car" = false := by
    intro text front whole
    rw [Bool.eq_false_iff, ne_eq, Text.endsWith_iff, whole]
    intro suffix
    obtain ⟨before, same⟩ := suffix
    have ends := congrArg List.getLast? same
    rw [List.getLast?_concat] at ends
    simp at ends
    exact notR ends.symm
  constructor
  · apply notCar
    rw [toList_part_name, split, ← List.append_assoc]
  · apply notCar
    rw [Text.toList_lower, toList_part_name, split, ← List.append_assoc,
      List.map_append, List.map_singleton, toLower_of_isDigit digit]

/-- Every entry at the root of a layout is a part, and none is a `.car`. -/
theorem partEntries_parted (parted : Parted layout count) :
    (rootEntries layout).filter (fun name => Text.startsWith name "part-") =
        rootEntries layout ∧
      (rootEntries layout).filter (fun name => !Text.endsWith name ".car") =
        rootEntries layout := by
  have named : ∀ name ∈ rootEntries layout, ∃ index, part_name index = name := by
    intro name member
    obtain ⟨index, _, same⟩ :=
      mem_partNames.mp ((rootEntries_perm parted).mem_iff.mp member)
    exact ⟨index, same⟩
  constructor
  · apply List.filter_eq_self.mpr
    intro name member
    obtain ⟨index, rfl⟩ := named name member
    exact startsWith_part_name index
  · apply List.filter_eq_self.mpr
    intro name member
    obtain ⟨index, rfl⟩ := named name member
    rw [(notCar_part_name index).1]
    rfl

/-- The reader finds the parts of a layout. -/
theorem part_inputs_parted (parted : Parted layout count) :
    ∃ paths, part_inputs layout count = some paths ∧
      paths.Perm (partNames count) := by
  have roots := rootEntries_perm parted
  obtain ⟨parts, shards⟩ := partEntries_parted parted
  have sorted : (sortedNames (rootEntries layout)).Perm (partNames count) :=
    (List.mergeSort_perm _ _).trans roots
  have length : (sortedNames (rootEntries layout)).length = count := by
    rw [sorted.length_eq, length_partNames]
  refine ⟨sortedNames (rootEntries layout), ?_, sorted⟩
  unfold part_inputs
  dsimp only
  rw [parts, shards, if_pos length]

/-- Grouping by a key that takes listed values loses nothing. -/
theorem flatMap_filter_perm {α β : Type} [DecidableEq β] (key : α → β)
    {keys : List β} (distinct : keys.Nodup) {items : List α}
    (covered : ∀ item ∈ items, key item ∈ keys) :
    (keys.flatMap fun k => items.filter fun item => key item = k).Perm
      items := by
  induction keys generalizing items with
  | nil =>
      have empty : items = [] := by
        rw [List.eq_nil_iff_forall_not_mem]
        exact fun item member => by simpa using covered item member
      rw [empty]
      exact List.Perm.refl _
  | cons k keys induction =>
      obtain ⟨fresh, rest⟩ := List.nodup_cons.mp distinct
      have others : ∀ other ∈ keys, (items.filter fun item => key item = other) =
          (items.filter fun item => !decide (key item = k)).filter
            fun item => key item = other := by
        intro other member
        rw [List.filter_filter]
        apply List.filter_congr
        intro item _
        by_cases same : key item = other
        · have different : other ≠ k := by
            intro equal
            exact fresh (equal ▸ member)
          rw [same, decide_eq_false different, decide_eq_true rfl]
          rfl
        · rw [decide_eq_false same]
          rfl
      have left : ∀ item ∈ items.filter (fun item => !decide (key item = k)),
          key item ∈ keys := by
        intro item member
        rw [List.mem_filter] at member
        have among := covered item member.1
        have different : key item ≠ k := by simpa using member.2
        exact (List.mem_cons.mp among).resolve_left different
      have later := induction rest left
      rw [List.flatMap_cons, List.flatMap_congr others]
      exact (later.append_left _).trans (List.filter_append_perm _ _)

/-- A parted layout is read whole. -/
theorem run_transfer_rows_parted (parted : Parted layout count)
    (several : 1 < count) :
    (run_transfer_rows layout count).Perm (rowsOf layout) := by
  obtain ⟨paths, found, same⟩ := part_inputs_parted parted
  have noCar : (paths.any fun path =>
      Text.endsWith (Text.lower path) ".car") = false := by
    rw [List.any_eq_false]
    intro path member
    obtain ⟨index, _, rfl⟩ := mem_partNames.mp (same.mem_iff.mp member)
    rw [(notCar_part_name index).2]
    exact Bool.false_ne_true
  have distinct : paths.Nodup := same.nodup_iff.mpr (nodup_partNames count)
  have covered : ∀ file ∈ layout, topLevel file ∈ paths := by
    intro file member
    rw [same.mem_iff]
    exact (parted _).mp (List.mem_map_of_mem member)
  have grouped := flatMap_filter_perm topLevel distinct covered
  unfold run_transfer_rows read_csv_paths
  rw [if_pos several, found]
  dsimp only
  rw [noCar, if_neg Bool.false_ne_true]
  have rows := grouped.flatMap_right fun file => csvRows file.2
  rw [List.flatMap_assoc] at rows
  exact rows

theorem topLevel_shardLayout (shards : List Bytes) :
    (shardLayout shards).map topLevel = partNames shards.length := by
  have named : ∀ shard : Bytes × Nat,
      topLevel (part_name shard.2, shard.1) = part_name shard.2 :=
    fun shard => topLevel_plain (noSlash_part_name shard.2) shard.1
  have indices := congrArg (List.map part_name) (List.zipIdx_map_snd 0 shards)
  rw [List.map_map, ← List.range_eq_range'] at indices
  rw [shardLayout, List.map_map, partNames, ← indices]
  exact List.map_congr_left fun shard _ => named shard

theorem rowsOf_shardLayout (shards : List Bytes) :
    rowsOf (shardLayout shards) = shardRows shards := by
  have files := congrArg (List.flatMap csvRows) (List.zipIdx_map_fst 0 shards)
  rw [List.flatMap_map] at files
  rw [rowsOf, shardLayout, List.flatMap_map, shardRows]
  exact files

/-- The marker of an empty bag has no rows. -/
theorem rowsOf_write_shard_tree (bag : List Entry) :
    rowsOf (write_shard_tree bag) = rowsOf bag := by
  cases bag with
  | nil => rfl
  | cons file bag => rfl

theorem write_shard_tree_ne_nil (bag : List Entry) :
    write_shard_tree bag ≠ [] := by
  cases bag with
  | nil => exact List.cons_ne_nil _ _
  | cons file bag => exact List.cons_ne_nil _ _

theorem parted_bagLayout (bags : List (List Entry)) :
    Parted (bagLayout bags) bags.length := by
  have indices : ∀ index, (∃ bag, (bag, index) ∈ bags.zipIdx) ↔
      index < bags.length := by
    intro index
    constructor
    · rintro ⟨bag, member⟩
      exact (List.mem_zipIdx' member).1
    · intro inside
      exact ⟨bags[index], List.mem_zipIdx_iff_getElem?.mpr
        (List.getElem?_eq_getElem inside)⟩
  intro name
  rw [mem_partNames]
  constructor
  · intro member
    obtain ⟨file, among, rfl⟩ := List.mem_map.mp member
    obtain ⟨⟨bag, index⟩, here, within⟩ := List.mem_flatMap.mp among
    obtain ⟨inner, _, rfl⟩ := List.mem_map.mp within
    refine ⟨index, (indices index).mp ⟨bag, here⟩, ?_⟩
    exact (topLevel_below (noSlash_part_name index) _ _).symm
  · rintro ⟨index, inside, rfl⟩
    obtain ⟨bag, here⟩ := (indices index).mpr inside
    obtain ⟨inner, within⟩ :=
      List.exists_mem_of_ne_nil _ (write_shard_tree_ne_nil bag)
    rw [List.mem_map]
    refine ⟨(part_name index ++ "/" ++ inner.1, inner.2), ?_,
      topLevel_below (noSlash_part_name index) _ _⟩
    exact List.mem_flatMap.mpr
      ⟨(bag, index), here, List.mem_map.mpr ⟨inner, within, rfl⟩⟩

theorem rowsOf_bagLayout (bags : List (List Entry)) :
    rowsOf (bagLayout bags) = rowsOf bags.flatten := by
  have bagRows : ∀ bag : List Entry × Nat,
      ((write_shard_tree bag.1).map fun file =>
        (part_name bag.2 ++ "/" ++ file.1, file.2)).flatMap
          (fun file => csvRows file.2) = rowsOf bag.1 := by
    intro bag
    rw [List.flatMap_map]
    exact rowsOf_write_shard_tree bag.1
  have whole := congrArg (List.flatMap rowsOf) (List.zipIdx_map_fst 0 bags)
  rw [List.flatMap_map] at whole
  have nested : rowsOf bags.flatten = bags.flatMap rowsOf := by
    rw [rowsOf, List.flatten_eq_flatMap, List.flatMap_assoc]
    rfl
  rw [nested, ← whole, rowsOf, bagLayout, List.flatMap_assoc]
  exact List.flatMap_congr fun bag _ => bagRows bag

end Layouts

section Agreement

/-- The parts of the layout that ingress makes have the rows of the input. -/
def ReadAlike (directory : Directory) (num_partitions : Nat) : Prop :=
  ∃ layout, run_partition_ingress (.tree directory) num_partitions =
      .ok layout ∧
    (run_transfer_rows layout num_partitions).Perm
      (run_transfer_rows directory.allFiles 1)

/-- A lone file has all its line ends in one of its byte shards. -/
def LoneFileUncut (directory : Directory) (num_partitions : Nat) : Prop :=
  ∀ file shards, directory.allFiles = [file] →
    split_file_bytes file.2 num_partitions = .ok shards →
      shards.countP ends ≤ 1

variable {directory : Directory} {num_partitions : Nat}

theorem run_transfer_rows_plain (tree : List Entry) :
    run_transfer_rows tree 1 = rowsOf tree := by
  rw [run_transfer_rows, if_neg (Nat.lt_irrefl 1)]

/-- Several files, or none, are dealt into bags. -/
theorem run_partition_ingress_bags (several : 2 ≤ num_partitions)
    (notOne : ∀ file, collect_input_files directory ≠ [file]) :
    ∃ bags, round_robin_paths (collect_input_files directory)
        num_partitions = .ok bags ∧
      run_partition_ingress (.tree directory) num_partitions =
        .ok (bagLayout bags) := by
  obtain ⟨bags, dealt⟩ : ∃ bags, round_robin_paths
      (collect_input_files directory) num_partitions = .ok bags := by
    have notLess : ¬ num_partitions < 1 := by omega
    unfold round_robin_paths
    rw [if_neg notLess]
    exact ⟨_, rfl⟩
  refine ⟨bags, dealt, ?_⟩
  have notFew : ¬ num_partitions < 2 := by omega
  unfold run_partition_ingress
  rw [if_neg notFew]
  dsimp only
  cases files : collect_input_files directory with
  | nil =>
      rw [files] at dealt
      simp only [dealt, bind, Except.bind]
  | cons file rest =>
      cases rest with
      | nil => exact absurd files (notOne file)
      | cons other rest =>
          rw [files] at dealt
          simp only [dealt, bind, Except.bind]

/-- Several files, or none, keep their rows. -/
theorem readAlike_of_several (visible : Visible directory)
    (several : 2 ≤ num_partitions)
    (notOne : ∀ file, collect_input_files directory ≠ [file]) :
    ReadAlike directory num_partitions := by
  obtain ⟨bags, dealt, ingress⟩ := run_partition_ingress_bags several notOne
  obtain ⟨count, whole⟩ := round_robin_paths_ok dealt
  refine ⟨bagLayout bags, ingress, ?_⟩
  have parted := parted_bagLayout bags
  rw [count] at parted
  apply (run_transfer_rows_parted parted several).trans
  rw [run_transfer_rows_plain, rowsOf_bagLayout]
  exact (whole.trans (collect_input_files_perm visible)).flatMap_right _

/-- A lone file keeps its rows exactly when no shard but one has a line
end. -/
theorem readAlike_lone_iff {file : Entry} {shards : List Bytes}
    (visible : Visible directory) (several : 2 ≤ num_partitions)
    (lone : collect_input_files directory = [file])
    (split : split_file_bytes file.2 num_partitions = .ok shards) :
    ReadAlike directory num_partitions ↔ shards.countP ends ≤ 1 := by
  obtain ⟨count, whole⟩ := split_file_bytes_ok split
  have ingress : run_partition_ingress (.tree directory) num_partitions =
      .ok (shardLayout shards) := by
    have notFew : ¬ num_partitions < 2 := by omega
    unfold run_partition_ingress
    rw [if_neg notFew]
    dsimp only
    rw [lone]
    simp only [split, bind, Except.bind]
  have parted : Parted (shardLayout shards) num_partitions := by
    intro name
    rw [topLevel_shardLayout, count]
  have parts := run_transfer_rows_parted parted several
  rw [rowsOf_shardLayout] at parts
  have plain : run_transfer_rows directory.allFiles 1 =
      csvRows shards.flatten := by
    have files := collect_input_files_perm visible
    rw [lone] at files
    rw [run_transfer_rows_plain, List.perm_singleton.mp files.symm, whole]
    simp [rowsOf]
  rw [← shardRows_perm_iff, ReadAlike, plain]
  constructor
  · rintro ⟨layout, made, alike⟩
    rw [ingress, Except.ok.injEq] at made
    rw [← made] at alike
    exact parts.symm.trans alike
  · intro alike
    exact ⟨shardLayout shards, ingress, parts.trans alike⟩

/-- Partitioned and plain reading agree exactly when a lone file is not cut
between its line ends. -/
theorem partitioned_read_iff (visible : Visible directory)
    (several : 2 ≤ num_partitions) :
    ReadAlike directory num_partitions ↔
      LoneFileUncut directory num_partitions := by
  have files := collect_input_files_perm visible
  by_cases one : ∃ file, collect_input_files directory = [file]
  · obtain ⟨file, lone⟩ := one
    have alone : directory.allFiles = [file] := by
      rw [lone] at files
      exact List.perm_singleton.mp files.symm
    have positive : 1 ≤ num_partitions := by omega
    obtain ⟨shards, split⟩ := split_file_bytes_returns file.2 positive
    rw [readAlike_lone_iff visible several lone split]
    constructor
    · intro uncut other cut same splits
      rw [alone, List.singleton_inj] at same
      rw [← same, split, Except.ok.injEq] at splits
      rwa [← splits]
    · exact fun uncut => uncut file shards alone split
  · have notOne : ∀ file, collect_input_files directory ≠ [file] :=
      fun file lone => one ⟨file, lone⟩
    constructor
    · intro _ file shards same
      rw [same] at files
      exact absurd (List.perm_singleton.mp files) (notOne file)
    · exact fun _ => readAlike_of_several visible several notOne

/-- One file of a header and one row. -/
def oneRow : Directory := .node [("a.csv", [104, 10, 49, 10])] []

theorem partitioned_read_iff_oneRow :
    ReadAlike oneRow 2 ↔ LoneFileUncut oneRow 2 :=
  partitioned_read_iff ⟨by decide, trivial⟩ (by decide)

/-- Cut in two, the file loses its row. -/
theorem partitioned_read_loses : ¬ ∀ (directory : Directory)
    (num_partitions : Nat), Visible directory → 2 ≤ num_partitions →
      ReadAlike directory num_partitions := by
  intro alike
  have visible : Visible oneRow := ⟨by decide, trivial⟩
  have lone : collect_input_files oneRow =
      [("a.csv", [104, 10, 49, 10])] := by
    decide +kernel
  have split : split_file_bytes [104, 10, 49, 10] 2 =
      .ok [[104, 10], [49, 10]] := by
    decide +kernel
  have uncut := (readAlike_lone_iff visible (by decide) lone split).mp
    (alike oneRow 2 visible (by decide))
  revert uncut
  decide

end Agreement

end RayCompute

end Cats
