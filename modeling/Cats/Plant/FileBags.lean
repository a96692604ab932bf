import Cats.Cas.TreeIdentity
import Cats.Plant.ShardOrder

/-!
# Bags of files

An input of no file or of several is dealt into as many bags as there are
parts.  Every visible file is copied into one of them, and neither the bags nor
the layout show in what order the file system listed the input.
-/

namespace Cats

namespace FileBags

open PartitionLayout RayIo RayCompute ShardOrder

section Collecting

/-- No name of a path is hidden, from some depth on. -/
def shownBelow (depth : ℕ) (file : Entry) : Bool :=
  ((components file.1).drop depth).all fun part =>
    !isHidden (String.ofList part)

/-- The files without a hidden name in their paths. -/
def visibleFiles (directory : Directory) : List Entry :=
  directory.allFiles.filter (shownBelow 0)

theorem shownBelow_relName {name : String} (named : FileName name)
    (rel_dir : String) (data : Bytes) :
    shownBelow (wayTo rel_dir).length (relName rel_dir name, data) =
      !isHidden name := by
  rw [shownBelow, Directory.components_relName named, List.drop_left]
  simp

/-- Below a directory a path is shown if the name of the directory and the rest
of the path are. -/
theorem shownBelow_directory {name : String} (named : FileName name)
    {directory : Directory} (proper : directory.Proper) (rel_dir : String)
    {file : Entry}
    (member : file ∈ directory.walk (fun _ => false) (relName rel_dir name)) :
    shownBelow (wayTo rel_dir).length file =
      (!isHidden name &&
        shownBelow (wayTo (relName rel_dir name)).length file) := by
  obtain ⟨tail, whole, _⟩ :=
    Directory.walk_below proper (relName rel_dir name) file member
  rw [shownBelow, shownBelow, whole, List.drop_left,
    Directory.wayTo_relName named, List.append_assoc, List.drop_left]
  simp

mutual

/-- What is collected below a directory is what is shown there. -/
theorem collect_eq_filter {directory : Directory} (proper : directory.Proper)
    (rel_dir : String) :
    collect rel_dir directory = (directory.walk (fun _ => false) rel_dir).filter
      (shownBelow (wayTo rel_dir).length) := by
  cases directory with
  | node files dirs =>
      obtain ⟨named, _, properDirs⟩ := proper
      have here : ((files.map fun file =>
          (relName rel_dir file.1, file.2)).filter fun _ => !false).filter
            (shownBelow (wayTo rel_dir).length) =
          (files.filter fun file => !isHidden file.1).map fun file =>
            (relName rel_dir file.1, file.2) := by
        have whole : (files.map fun file =>
            (relName rel_dir file.1, file.2)).filter (fun _ => !false) =
            files.map fun file => (relName rel_dir file.1, file.2) :=
          List.filter_eq_self.mpr fun _ _ => rfl
        rw [whole, List.filter_map]
        congr 1
        apply List.filter_congr
        intro file member
        exact shownBelow_relName (named file member) rel_dir file.2
      rw [collect, Directory.walk, List.filter_append, here,
        collectAll_eq_filter properDirs rel_dir]

theorem collectAll_eq_filter {dirs : List (String × Directory)}
    (proper : Directory.ProperAll dirs) (rel_dir : String) :
    collectAll rel_dir dirs =
      (Directory.walkAll (fun _ => false) rel_dir dirs).filter
        (shownBelow (wayTo rel_dir).length) := by
  cases dirs with
  | nil => rfl
  | cons entry dirs =>
      obtain ⟨name, directory⟩ := entry
      obtain ⟨named, properHere, properLater⟩ := proper
      have below : (directory.walk (fun _ => false)
          (relName rel_dir name)).filter (shownBelow (wayTo rel_dir).length) =
          if isHidden name then []
            else collect (relName rel_dir name) directory := by
        rw [List.filter_congr fun file member =>
          shownBelow_directory named properHere rel_dir member]
        cases hidden : isHidden name with
        | true =>
            rw [if_pos rfl]
            exact List.filter_eq_nil_iff.mpr fun _ _ => by simp
        | false =>
            rw [if_neg Bool.false_ne_true,
              collect_eq_filter properHere (relName rel_dir name)]
            apply List.filter_congr
            intro file _
            exact Bool.true_and _
      rw [collectAll, Directory.walkAll, List.filter_append,
        if_neg Bool.false_ne_true, below,
        collectAll_eq_filter properLater rel_dir]

end

/-- The visible files are collected, whatever else the directory holds. -/
theorem collect_visible {directory : Directory} (proper : directory.Proper) :
    collect "." directory = visibleFiles directory := by
  rw [collect_eq_filter proper ".", Directory.wayTo_dot]
  rfl

end Collecting

section Sorting

theorem pathOrder_trans (first second third : Entry)
    (low : pathOrder first second = true)
    (high : pathOrder second third = true) :
    pathOrder first third = true := by
  rw [pathOrder, decide_eq_true_eq] at low high ⊢
  exact le_trans low high

theorem pathOrder_total (first second : Entry) :
    (pathOrder first second || pathOrder second first) = true := by
  rw [Bool.or_eq_true, pathOrder, pathOrder, decide_eq_true_eq,
    decide_eq_true_eq]
  exact le_total _ _

theorem eq_of_pathOrder {first second : Entry}
    (low : pathOrder first second = true)
    (high : pathOrder second first = true) : first.1 = second.1 := by
  rw [pathOrder, decide_eq_true_eq] at low high
  exact components_injective (le_antisymm low high)

/-- Files of distinct paths have one sorted list. -/
theorem sorted_of_perm {left right : List Entry}
    (distinct : (left.map Prod.fst).Nodup) (same : left.Perm right) :
    left.mergeSort pathOrder = right.mergeSort pathOrder := by
  apply mergeSort_eq_of_perm pathOrder_trans pathOrder_total _ same
  intro first here second there low high
  exact List.inj_on_of_nodup_map distinct here there
    (eq_of_pathOrder low high)

variable {directory other : Directory}

theorem nodup_visibleFiles (proper : directory.Proper) :
    ((visibleFiles directory).map Prod.fst).Nodup :=
  (Directory.nodup_files_names proper).sublist
    (List.filter_sublist.map Prod.fst)

theorem collect_input_files_visible (proper : directory.Proper) :
    collect_input_files directory =
      (visibleFiles directory).mergeSort pathOrder := by
  rw [collect_input_files, collect_visible proper]

/-- Directories with the same files are dealt alike. -/
theorem run_partition_ingress_of_perm (proper : directory.Proper)
    (properOther : other.Proper)
    (same : directory.allFiles.Perm other.allFiles) (num_partitions : ℕ) :
    run_partition_ingress (.tree other) num_partitions =
      run_partition_ingress (.tree directory) num_partitions := by
  have collected : collect_input_files directory =
      collect_input_files other := by
    rw [collect_input_files_visible proper,
      collect_input_files_visible properOther]
    exact sorted_of_perm (nodup_visibleFiles proper) (same.filter _)
  rw [run_partition_ingress, run_partition_ingress, collected]

end Sorting

section Dealing

variable {α : Type} {count : ℕ}

/-- After some files every bag has as many as their division gives it. -/
def Even (count dealt : ℕ) (bags : List (List α)) : Prop :=
  bags.map List.length =
    (List.range count).map (width (dealt / count) (dealt % count))

/-- The next file goes to the first of the shorter bags. -/
theorem width_succ (positive : 1 ≤ count) {dealt index : ℕ}
    (inside : index < count) :
    width ((dealt + 1) / count) ((dealt + 1) % count) index =
      width (dealt / count) (dealt % count) index +
        if dealt % count = index then 1 else 0 := by
  have below : dealt % count < count := Nat.mod_lt _ positive
  have parts := Nat.div_add_mod dealt count
  by_cases last : dealt % count + 1 = count
  · have next : dealt + 1 = count * (dealt / count + 1) := by
      rw [Nat.mul_succ]
      omega
    have quotient : (dealt + 1) / count = dealt / count + 1 := by
      rw [next, Nat.mul_div_cancel_left _ positive]
    have remainder : (dealt + 1) % count = 0 := by
      rw [next, Nat.mul_mod_right]
    rw [width, width, quotient, remainder, if_neg (Nat.not_lt_zero _)]
    split_ifs <;> omega
  · have small : dealt % count + 1 < count := by omega
    have next : dealt + 1 = count * (dealt / count) + (dealt % count + 1) := by
      omega
    have quotient : (dealt + 1) / count = dealt / count := by
      rw [next, Nat.mul_add_div positive, Nat.div_eq_of_lt small,
        Nat.add_zero]
    have remainder : (dealt + 1) % count = dealt % count + 1 := by
      rw [next, Nat.mul_add_mod, Nat.mod_eq_of_lt small]
    rw [width, width, quotient, remainder]
    split_ifs <;> omega

theorem even_step (positive : 1 ≤ count) {dealt : ℕ} {bags : List (List α)}
    (even : Even count dealt bags) (path : α) :
    Even count (dealt + 1)
      (bags.modify (dealt % count) (· ++ [path])) := by
  apply List.ext_getElem?
  intro index
  have before := congrArg (fun sizes => sizes[index]?) even
  rw [List.getElem?_map, List.getElem?_map] at before
  rw [List.getElem?_map, List.getElem?_map, List.getElem?_modify]
  by_cases inside : index < count
  · rw [List.getElem?_range inside] at before ⊢
    cases found : bags[index]? with
    | none =>
        rw [found] at before
        cases before
    | some bag =>
        rw [found] at before
        have size : bag.length = width (dealt / count) (dealt % count) index :=
          Option.some.inj before
        rw [Option.map_some, width_succ positive inside, ← size]
        by_cases here : dealt % count = index
        · simp [here]
        · simp [here]
  · have outside : (List.range count)[index]? = none := by
      rw [List.getElem?_eq_none_iff, List.length_range]
      exact not_lt.mp inside
    rw [outside, Option.map_none, Option.map_eq_none_iff] at before
    rw [outside, before]
    rfl

/-- Dealing leaves the bags even. -/
theorem even_dealFrom (positive : 1 ≤ count) (paths : List α) {dealt : ℕ}
    {bags : List (List α)} (even : Even count dealt bags) :
    Even count (dealt + paths.length)
      (dealFrom count dealt paths bags) := by
  induction paths generalizing dealt bags with
  | nil => exact even
  | cons path paths induction =>
      have later := induction (even_step positive even path)
      rw [List.length_cons, Nat.add_comm paths.length 1, ← Nat.add_assoc]
      exact later

end Dealing

section Parts

/-- What a file is called below the entry of a name, if it lies there. -/
def below? (name : String) (file : Entry) : Option Entry :=
  match components file.1 with
  | first :: rest =>
      if first = name.toList then some (Directory.pathText rest, file.2) else none
  | [] => none

/-- What lies in a part of a layout, by path below it. -/
def partFiles (layout : List Entry) (index : ℕ) : List Entry :=
  layout.filterMap (below? (part_name index))

/-- What was copied into a part: its files without the marker. -/
def bagOf (layout : List Entry) (index : ℕ) : List Entry :=
  (partFiles layout index).filter fun file => file.1 ≠ ".empty"

theorem below?_part (index other : ℕ) (file : Entry) :
    below? (part_name other) (part_name index ++ "/" ++ file.1, file.2) =
      if index = other then some file else none := by
  have parts : components (part_name index ++ "/" ++ file.1) =
      (part_name index).toList :: components file.1 := by
    have text : (part_name index ++ "/" ++ file.1).toList =
        (part_name index).toList ++ '/' :: file.1.toList := by
      simp
    rw [components, text, Posix.splitOn_append,
      Posix.splitOn_of_notMem (noSlash_part_name index)]
    rfl
  rw [below?]
  dsimp only
  rw [parts]
  dsimp only
  by_cases same : index = other
  · rw [if_pos same, if_pos (by rw [same]),
      Directory.pathText_components]
  · rw [if_neg same, if_neg fun names =>
      same (part_name_injective (String.toList_injective names))]

theorem filterMap_below?_bag (index other : ℕ) (bag : List Entry) :
    (bag.map fun file => (part_name index ++ "/" ++ file.1, file.2)).filterMap
        (below? (part_name other)) =
      if index = other then bag else [] := by
  induction bag with
  | nil => split_ifs <;> rfl
  | cons file bag induction =>
      rw [List.map_cons, List.filterMap_cons, below?_part, induction]
      by_cases same : index = other
      · simp [same]
      · simp [same]

/-- A part holds the bag of its index. -/
theorem partFiles_zipIdx (bags : List (List Entry)) (start index : ℕ) :
    ((bags.zipIdx start).flatMap fun bag =>
      (write_shard_tree bag.1).map fun file =>
        (part_name bag.2 ++ "/" ++ file.1, file.2)).filterMap
          (below? (part_name index)) =
      if start ≤ index then
        ((bags[index - start]?).map write_shard_tree).getD [] else [] := by
  induction bags generalizing start with
  | nil => split_ifs <;> rfl
  | cons bag bags induction =>
      rw [List.zipIdx_cons, List.flatMap_cons, List.filterMap_append,
        filterMap_below?_bag, induction]
      by_cases here : start = index
      · rw [if_pos here, if_neg (by omega), if_pos here.le, here, Nat.sub_self]
        simp
      · rw [if_neg here]
        by_cases later : start ≤ index
        · have next : index - start = index - (start + 1) + 1 := by omega
          rw [if_pos later, if_pos (by omega), next, List.getElem?_cons_succ,
            List.nil_append]
        · rw [if_neg later, if_neg (by omega)]
          rfl

theorem partFiles_bagLayout (bags : List (List Entry)) (index : ℕ) :
    partFiles (bagLayout bags) index =
      ((bags[index]?).map write_shard_tree).getD [] := by
  have found := partFiles_zipIdx bags 0 index
  rwa [if_pos (Nat.zero_le _), Nat.sub_zero] at found

/-- Without the marker a part holds what was dealt to it. -/
theorem bagOf_bagLayout {bags : List (List Entry)}
    (unmarked : ∀ bag ∈ bags, ∀ file ∈ bag, file.1 ≠ ".empty")
    (index : ℕ) : bagOf (bagLayout bags) index = (bags[index]?).getD [] := by
  rw [bagOf, partFiles_bagLayout]
  cases found : bags[index]? with
  | none => rfl
  | some bag =>
      rw [Option.map_some, Option.getD_some, Option.getD_some]
      cases bag with
      | nil => decide
      | cons file bag =>
          apply List.filter_eq_self.mpr
          intro other member
          exact decide_eq_true (unmarked (file :: bag)
            (List.mem_of_getElem? found) other member)

end Parts

section Absolute

/-- `path.relative_to(root)`, `none` where it raises. -/
def relative_to (path root : Path) : Option Path :=
  if root.isPrefixOf path then some (path.drop root.length) else none

/-- `write_shard_tree(bag, dest_dir, source_root=source_root)`: what the
directory holds then, the bag given by absolute paths. -/
def write_shard_tree_at (source_root : Path) (bag : List (Path × Bytes)) :
    List Entry :=
  match bag with
  | [] => [(".empty", [])]
  | bag => bag.map fun src =>
      -- `except ValueError: rel = src.name`
      let rel := (relative_to src.1 source_root).getD src.1.getLast?.toList
      (Directory.pathText rel, src.2)

/-- A file of the input by its absolute path. -/
def absolute (source_root : Path) (file : Entry) : Path × Bytes :=
  (source_root ++ components file.1, file.2)

/-- The order in which `sorted` puts absolute paths. -/
def absoluteOrder (left right : Path × Bytes) : Bool :=
  decide (left.1 ≤ right.1)

/-- The bags of `run_partition_ingress` copied into its layout, with every path
absolute until it is copied. -/
def layoutAt (source_root : Path) (directory : Directory)
    (num_partitions : ℕ) : List Entry :=
  let files := ((collect "." directory).map (absolute source_root)).mergeSort
    absoluteOrder
  let bags := dealFrom num_partitions 0 (files.mergeSort absoluteOrder)
    (List.replicate num_partitions [])
  bags.zipIdx.flatMap fun bag =>
    (write_shard_tree_at source_root bag.1).map fun file =>
      (part_name bag.2 ++ "/" ++ file.1, file.2)

variable (source_root : Path)

theorem relative_to_below (rel : Path) :
    relative_to (source_root ++ rel) source_root = some rel := by
  rw [relative_to, if_pos (List.isPrefixOf_iff_prefix.mpr
    (List.prefix_append _ _)), List.drop_left]

/-- Below the source every file keeps its relative path. -/
theorem write_shard_tree_at_absolute (bag : List Entry) :
    write_shard_tree_at source_root (bag.map (absolute source_root)) =
      write_shard_tree bag := by
  have kept : ∀ file : Entry,
      (Directory.pathText ((relative_to (absolute source_root file).1
        source_root).getD (absolute source_root file).1.getLast?.toList),
          (absolute source_root file).2) = file := by
    intro file
    rw [absolute, relative_to_below, Option.getD_some,
      Directory.pathText_components]
  cases bag with
  | nil => rfl
  | cons file bag =>
      have whole : write_shard_tree_at source_root
          ((file :: bag).map (absolute source_root)) =
          ((file :: bag).map (absolute source_root)).map fun src =>
            (Directory.pathText ((relative_to src.1 source_root).getD
              src.1.getLast?.toList), src.2) := rfl
      rw [whole, List.map_map]
      exact (List.map_congr_left fun other _ => kept other).trans
        (List.map_id _)

theorem append_left_lt_iff {left right : Path} :
    source_root ++ left < source_root ++ right ↔ left < right := by
  induction source_root with
  | nil => rfl
  | cons name source_root induction =>
      rw [List.cons_append, List.cons_append, ← induction]
      constructor
      · intro less
        cases less with
        | rel smaller => exact absurd smaller (lt_irrefl name)
        | cons rest => exact rest
      · exact List.Lex.cons

theorem absoluteOrder_absolute (left right : Entry) :
    pathOrder left right =
      absoluteOrder (absolute source_root left)
        (absolute source_root right) := by
  have above : source_root ++ components left.1 ≤
      source_root ++ components right.1 ↔
        components left.1 ≤ components right.1 := by
    rw [← not_lt, ← not_lt, not_iff_not]
    exact append_left_lt_iff source_root
  exact decide_eq_decide.mpr above.symm

theorem sorted_absolute (files : List Entry) :
    (files.map (absolute source_root)).mergeSort absoluteOrder =
      (files.mergeSort pathOrder).map (absolute source_root) :=
  (List.map_mergeSort fun left _ right _ =>
    absoluteOrder_absolute source_root left right).symm

/-- Files are dealt by their positions. -/
theorem dealFrom_map {α β : Type} (place : α → β) (num_partitions : ℕ)
    (paths : List α) (index : ℕ) (bags : List (List α)) :
    dealFrom num_partitions index (paths.map place)
        (bags.map (List.map place)) =
      (dealFrom num_partitions index paths bags).map (List.map place) := by
  induction paths generalizing index bags with
  | nil => rfl
  | cons path paths induction =>
      have next : (bags.map (List.map place)).modify (index % num_partitions)
          (· ++ [place path]) =
          (bags.modify (index % num_partitions) (· ++ [path])).map
            (List.map place) := by
        apply List.ext_getElem?
        intro other
        rw [List.getElem?_modify, List.getElem?_map, List.getElem?_map,
          List.getElem?_modify]
        cases bags[other]? with
        | none => rfl
        | some bag =>
            by_cases here : index % num_partitions = other
            · simp [here]
            · simp [here]
      rw [List.map_cons, dealFrom, dealFrom, next, induction]

/-- No name is fallen back to: the layout is that of the relative paths. -/
theorem layoutAt_eq {directory : Directory} {num_partitions : ℕ}
    {bags : List (List Entry)} (positive : 1 ≤ num_partitions)
    (dealt : round_robin_paths (collect_input_files directory)
      num_partitions = .ok bags) :
    layoutAt source_root directory num_partitions = bagLayout bags := by
  unfold round_robin_paths at dealt
  rw [if_neg (by omega)] at dealt
  obtain rfl := Except.ok.inj dealt
  have empty : List.replicate num_partitions ([] : List (Path × Bytes)) =
      (List.replicate num_partitions ([] : List Entry)).map
        (List.map (absolute source_root)) := by
    rw [List.map_replicate]
    rfl
  rw [layoutAt]
  rw [sorted_absolute, sorted_absolute, empty, dealFrom_map, bagLayout,
    List.zipIdx_map, List.flatMap_map]
  apply List.flatMap_congr
  intro bag _
  exact congrArg _ (write_shard_tree_at_absolute source_root bag.1)

end Absolute

section Layout

/-- A layout into which the visible files of a directory are dealt. -/
structure Dealt (directory : Directory) (num_partitions : ℕ)
    (layout : List Entry) : Prop where
  parts : Parted layout num_partitions
  directories : ∀ file ∈ layout, ∃ index < num_partitions, ∃ rel,
    file.1 = part_name index ++ "/" ++ rel
  once : ∀ file ∈ visibleFiles directory, ∃! index, index < num_partitions ∧
    file ∈ partFiles layout index
  even : ∀ left < num_partitions, ∀ right < num_partitions,
    (bagOf layout left).length ≤ (bagOf layout right).length + 1
  union : ((List.range num_partitions).flatMap (bagOf layout)).Perm
    (visibleFiles directory)
  apart : ∀ index, (partFiles layout index).Pairwise fun left right =>
    Apart (components left.1) (components right.1)

variable {directory : Directory} {num_partitions : ℕ}

theorem ne_empty_of_shown {file : Entry}
    (shown : shownBelow 0 file = true) : file.1 ≠ ".empty" := by
  intro marker
  rw [shownBelow, marker] at shown
  revert shown
  decide

/-- The bags that round-robin makes of some files. -/
structure Bags (files : List Entry) (num_partitions : ℕ)
    (bags : List (List Entry)) : Prop where
  count : bags.length = num_partitions
  whole : bags.flatten.Perm files
  even : Even num_partitions files.length bags

theorem round_robin_paths_bags {files : List Entry} {bags : List (List Entry)}
    (positive : 1 ≤ num_partitions)
    (dealt : round_robin_paths files num_partitions = .ok bags) :
    Bags files num_partitions bags := by
  obtain ⟨count, whole⟩ := round_robin_paths_ok dealt
  constructor
  · exact count
  · exact whole
  · unfold round_robin_paths at dealt
    rw [if_neg (by omega)] at dealt
    obtain rfl := Except.ok.inj dealt
    have start : Even num_partitions 0
        (List.replicate num_partitions ([] : List Entry)) := by
      rw [Even, List.map_replicate, Nat.zero_div, Nat.zero_mod]
      symm
      rw [List.eq_replicate_iff]
      constructor
      · rw [List.length_map, List.length_range]
      · intro size member
        obtain ⟨index, _, same⟩ := List.mem_map.mp member
        rw [← same, width, if_neg (Nat.not_lt_zero index)]
        rfl
    have ended := even_dealFrom positive (files.mergeSort pathOrder) start
    rwa [Nat.zero_add, List.length_mergeSort] at ended

/-- A file lies in one bag only. -/
theorem eq_of_mem_bags {α : Type} {bags : List (List α)} {left right : List α}
    {file : α} {index other : ℕ} (distinct : bags.flatten.Nodup)
    (first : bags[index]? = some left) (inLeft : file ∈ left)
    (second : bags[other]? = some right) (inRight : file ∈ right) :
    index = other := by
  have disjoint := (List.nodup_flatten.mp distinct).2
  rw [List.pairwise_iff_getElem] at disjoint
  obtain ⟨inside, rfl⟩ := List.getElem?_eq_some_iff.mp first
  obtain ⟨otherInside, rfl⟩ := List.getElem?_eq_some_iff.mp second
  rcases lt_trichotomy index other with less | same | more
  · exact absurd inRight (disjoint index other inside otherInside less inLeft)
  · exact same
  · exact absurd inLeft (disjoint other index otherInside inside more inRight)

/-- The bags, each in its part, are a layout of the files. -/
theorem dealt_bagLayout (proper : directory.Proper) {bags : List (List Entry)}
    (made : Bags (visibleFiles directory) num_partitions bags) :
    Dealt directory num_partitions (bagLayout bags) := by
  have shown : ∀ bag ∈ bags, ∀ file ∈ bag, shownBelow 0 file = true := by
    intro bag member file inside
    have among := made.whole.mem_iff.mp
      (List.mem_flatten.mpr ⟨bag, member, inside⟩)
    exact (List.mem_filter.mp among).2
  have bagged : ∀ index,
      bagOf (bagLayout bags) index = (bags[index]?).getD [] :=
    bagOf_bagLayout fun bag member file inside =>
      ne_empty_of_shown (shown bag member file inside)
  have sizes : ∀ index < num_partitions,
      (bagOf (bagLayout bags) index).length =
        width ((visibleFiles directory).length / num_partitions)
          ((visibleFiles directory).length % num_partitions) index := by
    intro index inside
    have even := congrArg (fun sizes => sizes[index]?) made.even
    rw [List.getElem?_map, List.getElem?_map,
      List.getElem?_range inside] at even
    rw [bagged]
    cases found : bags[index]? with
    | none =>
        rw [found] at even
        cases even
    | some bag =>
        rw [found] at even
        exact Option.some.inj even
  have distinct : bags.flatten.Nodup :=
    made.whole.nodup_iff.mpr (List.Nodup.of_map _ (nodup_visibleFiles proper))
  have spread : bags.flatten.Pairwise fun left right =>
      Apart (components left.1) (components right.1) := by
    apply (made.whole.pairwise_iff fun apart => apart_symm apart).mpr
    exact (Directory.walk_apart proper ".").sublist List.filter_sublist
  constructor
  · have parted := parted_bagLayout bags
    rwa [made.count] at parted
  · intro file member
    obtain ⟨⟨bag, index⟩, here, within⟩ := List.mem_flatMap.mp member
    obtain ⟨inner, _, rfl⟩ := List.mem_map.mp within
    exact ⟨index, made.count ▸ (List.mem_zipIdx' here).1, inner.1, rfl⟩
  · intro file visible
    have plain := ne_empty_of_shown (List.mem_filter.mp visible).2
    have held : ∀ index, file ∈ partFiles (bagLayout bags) index ↔
        file ∈ (bags[index]?).getD [] := by
      intro index
      rw [← bagged index, bagOf, List.mem_filter]
      simp [plain]
    obtain ⟨bag, member, inside⟩ := List.mem_flatten.mp
      (made.whole.mem_iff.mpr visible)
    obtain ⟨index, found⟩ := List.getElem?_of_mem member
    refine ⟨index, ⟨?_, ?_⟩, ?_⟩
    · rw [← made.count]
      exact (List.getElem?_eq_some_iff.mp found).1
    · rw [held, found]
      exact inside
    · intro other also
      have there := (held other).mp also.2
      cases second : bags[other]? with
      | none =>
          rw [second] at there
          cases there
      | some twin =>
          rw [second] at there
          exact eq_of_mem_bags distinct second there found inside
  · intro left leftInside right rightInside
    rw [sizes left leftInside, sizes right rightInside, width, width]
    split_ifs <;> omega
  · have each : (List.range num_partitions).flatMap
        (bagOf (bagLayout bags)) = bags.flatten := by
      rw [flatten_eq_flatMap_range, made.count]
      apply List.flatMap_congr
      intro index _
      exact bagged index
    rw [each]
    exact made.whole
  · intro index
    rw [partFiles_bagLayout]
    cases found : bags[index]? with
    | none => exact List.Pairwise.nil
    | some bag =>
        have inBag := spread.sublist
          (List.sublist_flatten_of_mem (List.mem_of_getElem? found))
        cases bag with
        | nil => exact List.pairwise_singleton _ _
        | cons file bag => exact inBag

end Layout

/-- Ingress of no file or of several makes a layout into which the visible files
are dealt: each keeps its relative path and bytes in one part, and the order in
which the file system lists the input, or the layout, does not show. -/
theorem file_bags_partition {directory : Directory} (proper : directory.Proper)
    {num_partitions : ℕ} (several : 2 ≤ num_partitions)
    (notOne : (visibleFiles directory).length ≠ 1) :
    ∃ layout, run_partition_ingress (.tree directory) num_partitions =
        .ok layout ∧
      Dealt directory num_partitions layout ∧
      (∀ source_root,
        layoutAt source_root directory num_partitions = layout) ∧
      (∀ other : Directory, other.Proper →
        directory.allFiles.Perm other.allFiles →
          run_partition_ingress (.tree other) num_partitions = .ok layout) ∧
      ∀ laid : Directory, laid.Proper → laid.allFiles.Perm layout →
        treeId laid.allFiles = treeId layout := by
  have collected := collect_input_files_visible proper
  have notLone : ∀ file, collect_input_files directory ≠ [file] := by
    intro file lone
    apply notOne
    have length := congrArg List.length lone
    rw [collected, List.length_mergeSort] at length
    exact length
  have positive : 1 ≤ num_partitions := by omega
  obtain ⟨bags, dealt, ingress⟩ := run_partition_ingress_bags several notLone
  have made := round_robin_paths_bags positive dealt
  have perm : (collect_input_files directory).Perm (visibleFiles directory) := by
    rw [collected]
    exact List.mergeSort_perm _ _
  have whole : Bags (visibleFiles directory) num_partitions bags := by
    constructor
    · exact made.count
    · exact made.whole.trans perm
    · rw [← perm.length_eq]
      exact made.even
  refine ⟨bagLayout bags, ingress, dealt_bagLayout proper whole, ?_, ?_, ?_⟩
  · exact fun source_root => layoutAt_eq source_root positive dealt
  · intro other properOther same
    rw [run_partition_ingress_of_perm proper properOther same, ingress]
  · intro laid properLaid same
    rw [treeId, treeId,
      treeDocument_perm (Directory.nodup_files_names properLaid) same]

/-- Two files, listed out of order. -/
def twoFiles : Directory := .node [("b.csv", [1]), ("a.csv", [2])] []

theorem proper_twoFiles : twoFiles.Proper := by
  refine ⟨?_, by decide, trivial⟩
  intro file member
  rcases List.mem_pair.mp member with first | second
  · rw [first]
    constructor <;> decide
  · rw [second]
    constructor <;> decide

theorem file_bags_partition_twoFiles :
    ∃ layout, run_partition_ingress (.tree twoFiles) 3 = .ok layout ∧
      Dealt twoFiles 3 layout ∧
      (∀ source_root, layoutAt source_root twoFiles 3 = layout) ∧
      (∀ other : Directory, other.Proper →
        twoFiles.allFiles.Perm other.allFiles →
          run_partition_ingress (.tree other) 3 = .ok layout) ∧
      ∀ laid : Directory, laid.Proper → laid.allFiles.Perm layout →
        treeId laid.allFiles = treeId layout :=
  file_bags_partition proper_twoFiles (by decide) (by decide)

end FileBags

end Cats
