import Cats.Cas.Tree

/-!
# The file map of a directory

A directory is, to the store, a finite map from relative paths to bytes.  Its
names are proper file names, none twice, so no path is met twice and no file
lies below another.
-/

namespace Cats

/-- A name a file can have. -/
structure FileName (name : String) : Prop where
  nonempty : name.toList ≠ []
  notDot : name.toList ≠ ['.']
  notParent : name.toList ≠ ['.', '.']
  noSlash : '/' ∉ name.toList
  noNul : Disk.hasNul name.toList = false

mutual

/-- Proper names, none twice in one directory. -/
def Directory.Proper : Directory → Prop
  | .node files dirs =>
      (∀ file ∈ files, FileName file.1) ∧
        (files.map Prod.fst ++ dirs.map Prod.fst).Nodup ∧
        Directory.ProperAll dirs

def Directory.ProperAll : List (String × Directory) → Prop
  | [] => True
  | (name, directory) :: dirs =>
      FileName name ∧ directory.Proper ∧ Directory.ProperAll dirs

end

/-- The components of a relative path. -/
def components (rel : String) : Path := Text.splitOn '/' rel.toList

theorem components_injective {left right : String}
    (same : components left = components right) : left = right :=
  String.toList_injective (Posix.splitOn_injective same)

/-- The components of a directory the walk has come to. -/
def wayTo (rel_dir : String) : Path :=
  if rel_dir = "." then [] else components rel_dir

/-- The files of a directory that are not ignored, by the components of their
paths. -/
def Directory.keptMap (directory : Directory) (ignore : String → Bool) :
    List (Path × Bytes) :=
  (directory.files ignore).map fun file => (components file.1, file.2)

/-- Every file of a directory. -/
abbrev Directory.allFiles (directory : Directory) : List (String × Bytes) :=
  directory.files fun _ => false

/-- The file map of a directory. -/
def Directory.fileMap (directory : Directory) : List (Path × Bytes) :=
  directory.keptMap fun _ => false

/-- Neither path leads to or past the other. -/
def Apart (left right : Path) : Prop :=
  ¬ left <+: right ∧ ¬ right <+: left

theorem apart_symm {left right : Path} (apart : Apart left right) :
    Apart right left :=
  ⟨apart.2, apart.1⟩

/-- Paths that part at some component are apart. -/
theorem apart_of_ne {way leftTail rightTail : Path} {left right : List Char}
    (different : left ≠ right) :
    Apart (way ++ left :: leftTail) (way ++ right :: rightTail) := by
  constructor
  · intro longer
    rw [List.prefix_append_right_inj, List.cons_prefix_cons] at longer
    exact different longer.1
  · intro longer
    rw [List.prefix_append_right_inj, List.cons_prefix_cons] at longer
    exact different longer.1.symm

namespace Directory

section Walk

theorem wayTo_dot : wayTo "." = [] := if_pos rfl

theorem components_relName {name : String} (named : FileName name)
    (rel_dir : String) :
    components (relName rel_dir name) = wayTo rel_dir ++ [name.toList] := by
  unfold relName wayTo components
  split_ifs with top
  · rw [Posix.splitOn_of_notMem named.noSlash, List.nil_append]
  · have text : (rel_dir ++ "/" ++ name).toList =
        rel_dir.toList ++ '/' :: name.toList := by
      simp
    rw [text, Posix.splitOn_append, Posix.splitOn_of_notMem named.noSlash]

theorem wayTo_relName {name : String} (named : FileName name)
    (rel_dir : String) :
    wayTo (relName rel_dir name) = wayTo rel_dir ++ [name.toList] := by
  have notTop : relName rel_dir name ≠ "." := by
    intro same
    have text := congrArg components same
    rw [components_relName named] at text
    have dot : components "." = [] ++ [['.']] := by decide
    rw [dot] at text
    have last := (List.append_inj' text rfl).2
    rw [List.cons.injEq] at last
    exact named.notDot last.1
  rw [← components_relName named, wayTo, if_neg notTop]

variable {ignore : String → Bool}

mutual

/-- Every file of a walk lies below where the walk began, under proper
names. -/
theorem walk_below {directory : Directory} (proper : directory.Proper)
    (rel_dir : String) : ∀ file ∈ directory.walk ignore rel_dir,
      ∃ tail, components file.1 = wayTo rel_dir ++ tail ∧ tail ≠ [] ∧
        ∀ part ∈ tail, FileName (String.ofList part) := by
  cases directory with
  | node files dirs =>
      obtain ⟨named, _, properDirs⟩ := proper
      intro file member
      rw [walk] at member
      rcases List.mem_append.mp member with here | deeper
      · obtain ⟨original, among, rfl⟩ :=
          List.mem_map.mp (List.mem_filter.mp here).1
        have name := named original among
        refine ⟨[original.1.toList], components_relName name rel_dir,
          List.cons_ne_nil _ _, ?_⟩
        intro part only
        rw [List.mem_singleton.mp only, String.ofList_toList]
        exact name
      · obtain ⟨name, tail, _, whole, named⟩ :=
          walkAll_below properDirs rel_dir file deeper
        exact ⟨name :: tail, whole, List.cons_ne_nil _ _, named.2⟩

theorem walkAll_below {dirs : List (String × Directory)}
    (proper : ProperAll dirs) (rel_dir : String) :
    ∀ file ∈ walkAll ignore rel_dir dirs,
      ∃ name tail, name ∈ dirs.map (fun entry => entry.1.toList) ∧
        components file.1 = wayTo rel_dir ++ name :: tail ∧
        (tail ≠ [] ∧ ∀ part ∈ name :: tail, FileName (String.ofList part)) := by
  cases dirs with
  | nil =>
      intro file member
      cases member
  | cons entry dirs =>
      obtain ⟨name, directory⟩ := entry
      obtain ⟨named, properHere, properLater⟩ := proper
      intro file member
      rw [walkAll] at member
      rcases List.mem_append.mp member with here | later
      · split_ifs at here
        · cases here
        · obtain ⟨tail, whole, some, parts⟩ :=
            walk_below properHere (relName rel_dir name) file here
          rw [wayTo_relName named, List.append_assoc] at whole
          refine ⟨name.toList, tail, List.mem_cons_self, whole, some, ?_⟩
          intro part among
          rcases List.mem_cons.mp among with first | deeper
          · rw [first, String.ofList_toList]
            exact named
          · exact parts part deeper
      · obtain ⟨other, tail, among, whole⟩ :=
          walkAll_below properLater rel_dir file later
        exact ⟨other, tail, List.mem_cons_of_mem _ among, whole⟩

end

mutual

/-- The files of a walk are apart from each other. -/
theorem walk_apart {directory : Directory} (proper : directory.Proper)
    (rel_dir : String) : (directory.walk ignore rel_dir).Pairwise
      fun left right => Apart (components left.1) (components right.1) := by
  cases directory with
  | node files dirs =>
      obtain ⟨named, distinct, properDirs⟩ := proper
      rw [List.nodup_append] at distinct
      rw [walk, List.pairwise_append]
      refine ⟨?_, walkAll_apart properDirs distinct.2.1 rel_dir, ?_⟩
      · apply List.Pairwise.filter
        rw [List.pairwise_map]
        have names := List.pairwise_map.mp distinct.1
        apply names.imp_of_mem
        intro left right first second different
        dsimp only
        rw [components_relName (named left first),
          components_relName (named right second)]
        exact apart_of_ne fun same =>
          different (String.toList_injective same)
      · intro left here right deeper
        obtain ⟨original, among, rfl⟩ :=
          List.mem_map.mp (List.mem_filter.mp here).1
        obtain ⟨name, tail, inside, whole, _⟩ :=
          walkAll_below properDirs rel_dir right deeper
        obtain ⟨entry, entryMember, rfl⟩ := List.mem_map.mp inside
        dsimp only
        rw [components_relName (named original among), whole]
        apply apart_of_ne
        intro same
        exact distinct.2.2 _ (List.mem_map_of_mem among) _
          (List.mem_map_of_mem entryMember) (String.toList_injective same)

theorem walkAll_apart {dirs : List (String × Directory)}
    (proper : ProperAll dirs) (distinct : (dirs.map Prod.fst).Nodup)
    (rel_dir : String) : (walkAll ignore rel_dir dirs).Pairwise
      fun left right => Apart (components left.1) (components right.1) := by
  cases dirs with
  | nil => exact List.Pairwise.nil
  | cons entry dirs =>
      obtain ⟨name, directory⟩ := entry
      obtain ⟨named, properHere, properLater⟩ := proper
      obtain ⟨fresh, distinctLater⟩ := List.nodup_cons.mp distinct
      rw [walkAll, List.pairwise_append]
      refine ⟨?_, walkAll_apart properLater distinctLater rel_dir, ?_⟩
      · split_ifs
        · exact List.Pairwise.nil
        · exact walk_apart properHere (relName rel_dir name)
      · intro left here right later
        split_ifs at here
        · cases here
        · obtain ⟨leftTail, leftWhole, _⟩ :=
            walk_below properHere (relName rel_dir name) left here
          obtain ⟨other, rightTail, inside, rightWhole, _⟩ :=
            walkAll_below properLater rel_dir right later
          obtain ⟨entry, entryMember, rfl⟩ := List.mem_map.mp inside
          rw [wayTo_relName named, List.append_assoc] at leftWhole
          rw [leftWhole, rightWhole]
          apply apart_of_ne
          intro same
          apply fresh
          rw [String.toList_injective same]
          exact List.mem_map.mpr ⟨entry, entryMember, rfl⟩

end

end Walk

section Map

variable {directory : Directory} {ignore : String → Bool}

/-- The path of a file is some proper names. -/
theorem names_of_mem_files (proper : directory.Proper) {file : String × Bytes}
    (member : file ∈ directory.files ignore) :
    components file.1 ≠ [] ∧
      ∀ part ∈ components file.1, FileName (String.ofList part) := by
  obtain ⟨tail, whole, some, parts⟩ := walk_below proper "." file member
  rw [wayTo_dot, List.nil_append] at whole
  rw [whole]
  exact ⟨some, parts⟩

theorem names_of_mem_keptMap (proper : directory.Proper) {path : Path}
    {data : Bytes} (member : (path, data) ∈ directory.keptMap ignore) :
    path ≠ [] ∧ ∀ part ∈ path, FileName (String.ofList part) := by
  obtain ⟨file, among, same⟩ := List.mem_map.mp member
  rw [Prod.mk.injEq] at same
  rw [← same.1]
  exact names_of_mem_files proper among

theorem keptMap_apart (proper : directory.Proper) :
    (directory.keptMap ignore).Pairwise fun left right =>
      Apart left.1 right.1 :=
  List.pairwise_map.mpr (walk_apart proper ".")

/-- No file lies at or below another. -/
theorem eq_of_keptMap_prefix (proper : directory.Proper)
    {left right : Path × Bytes} (first : left ∈ directory.keptMap ignore)
    (second : right ∈ directory.keptMap ignore) (above : left.1 <+: right.1) :
    left = right := by
  have symmetric : Std.Symm fun left right : Path × Bytes =>
      Apart left.1 right.1 := ⟨fun _ _ apart => apart_symm apart⟩
  by_contra different
  exact ((keptMap_apart proper).forall first second different).1 above

theorem nodup_keptMap_paths (proper : directory.Proper) :
    ((directory.keptMap ignore).map Prod.fst).Nodup := by
  rw [List.Nodup, List.pairwise_map]
  apply (keptMap_apart proper).imp
  intro left right apart same
  exact apart.1 (same ▸ List.prefix_refl _)

theorem nodup_files_names (proper : directory.Proper) :
    ((directory.files ignore).map Prod.fst).Nodup := by
  have paths := @nodup_keptMap_paths directory ignore proper
  rw [keptMap, List.map_map] at paths
  have through : (Prod.fst ∘ fun file : String × Bytes =>
      (components file.1, file.2)) = components ∘ Prod.fst := rfl
  rw [through, ← List.map_map] at paths
  exact List.Nodup.of_map _ paths

end Map

section Ignoring

variable {ignore : String → Bool}

/-- The text of a path. -/
def pathText (path : Path) : String :=
  String.ofList (List.intercalate ['/'] path)

theorem pathText_components (rel : String) : pathText (components rel) = rel := by
  apply String.toList_injective
  rw [pathText, String.toList_ofList, components, Posix.intercalate_splitOn]

theorem pathText_relName {name : String} (named : FileName name)
    (rel_dir : String) :
    pathText (wayTo rel_dir ++ [name.toList]) = relName rel_dir name := by
  rw [← components_relName named, pathText_components]

/-- No directory between the start of a walk and a file is ignored. -/
def Open (ignore : String → Bool) (start path : Path) : Prop :=
  ∀ way, start <+: way → way ≠ start → way <+: path → way ≠ path →
    ignore (pathText way) = false

theorem open_child (start : Path) (name : List Char) :
    Open ignore start (start ++ [name]) := by
  intro way above below inside short
  obtain ⟨rest, rfl⟩ := above
  have tail := (List.prefix_append_right_inj _).mp inside
  cases rest with
  | nil => exact absurd (List.append_nil start) below
  | cons first rest =>
      obtain ⟨same, deeper⟩ := List.cons_prefix_cons.mp tail
      rw [same, List.prefix_nil.mp deeper] at short
      exact absurd rfl short

theorem open_below_iff {start tail : Path} {name : List Char}
    (some : tail ≠ []) :
    Open ignore start (start ++ name :: tail) ↔
      ignore (pathText (start ++ [name])) = false ∧
        Open ignore (start ++ [name]) (start ++ name :: tail) := by
  have whole : start ++ name :: tail = (start ++ [name]) ++ tail := by
    rw [List.append_assoc]
    rfl
  constructor
  · intro opened
    constructor
    · apply opened _ (List.prefix_append _ _)
      · intro same
        have lengths := congrArg List.length same
        rw [List.length_append, List.length_singleton] at lengths
        omega
      · rw [whole]
        exact List.prefix_append _ _
      · rw [whole]
        intro same
        exact some (List.self_eq_append_right.mp same)
    · intro way above below inside short
      apply opened way ((List.prefix_append _ _).trans above) _ inside short
      intro same
      rw [same] at above
      have lengths := above.length_le
      rw [List.length_append, List.length_singleton] at lengths
      omega
  · intro opened way above below inside short
    by_cases here : way = start ++ [name]
    · rw [here]
      exact opened.1
    · have deeper : start ++ [name] <+: way := by
        obtain ⟨rest, rfl⟩ := above
        have within := (List.prefix_append_right_inj _).mp inside
        cases rest with
        | nil => exact absurd (List.append_nil start) below
        | cons first rest =>
            obtain ⟨same, _⟩ := List.cons_prefix_cons.mp within
            rw [same, List.prefix_append_right_inj]
            exact ⟨rest, rfl⟩
      exact opened.2 way deeper here inside short

mutual

/-- A walk comes to the files that are not ignored, below directories that are
not. -/
theorem mem_walk_iff {directory : Directory} (proper : directory.Proper)
    (rel_dir : String) (file : String × Bytes) :
    file ∈ directory.walk ignore rel_dir ↔
      file ∈ directory.walk (fun _ => false) rel_dir ∧
        ignore file.1 = false ∧
        Open ignore (wayTo rel_dir) (components file.1) := by
  cases directory with
  | node files dirs =>
      obtain ⟨named, _, properDirs⟩ := proper
      have deeper := @mem_walkAll_iff dirs properDirs rel_dir file
      rw [walk, walk, List.mem_append, List.mem_append, deeper]
      constructor
      · intro member
        rcases member with here | below
        · obtain ⟨listed, kept⟩ := List.mem_filter.mp here
          obtain ⟨original, among, rfl⟩ := List.mem_map.mp listed
          refine ⟨.inl (List.mem_filter.mpr ⟨listed, rfl⟩), by simpa using kept,
            ?_⟩
          rw [components_relName (named original among)]
          exact open_child _ _
        · exact ⟨.inr below.1, below.2⟩
      · intro member
        obtain ⟨listed, kept, opened⟩ := member
        rcases listed with here | below
        · exact .inl (List.mem_filter.mpr ⟨(List.mem_filter.mp here).1, by
            simpa using kept⟩)
        · exact .inr ⟨below, kept, opened⟩

theorem mem_walkAll_iff {dirs : List (String × Directory)}
    (proper : ProperAll dirs) (rel_dir : String) (file : String × Bytes) :
    file ∈ walkAll ignore rel_dir dirs ↔
      file ∈ walkAll (fun _ => false) rel_dir dirs ∧
        ignore file.1 = false ∧
        Open ignore (wayTo rel_dir) (components file.1) := by
  cases dirs with
  | nil =>
      constructor
      · intro member
        cases member
      · intro member
        cases member.1
  | cons entry dirs =>
      obtain ⟨name, directory⟩ := entry
      obtain ⟨named, properHere, properLater⟩ := proper
      have inside := @mem_walk_iff directory properHere
        (relName rel_dir name) file
      have later := @mem_walkAll_iff dirs properLater rel_dir file
      have opens : file ∈ directory.walk (fun _ => false)
          (relName rel_dir name) →
          (Open ignore (wayTo rel_dir) (components file.1) ↔
            ignore (relName rel_dir name) = false ∧
              Open ignore (wayTo (relName rel_dir name))
                (components file.1)) := by
        intro member
        obtain ⟨tail, whole, some, _⟩ :=
          walk_below properHere (relName rel_dir name) file member
        rw [wayTo_relName named, List.append_assoc] at whole
        rw [wayTo_relName named, whole, ← pathText_relName named]
        exact open_below_iff some
      rw [walkAll, walkAll, List.mem_append, List.mem_append, later,
        if_neg Bool.false_ne_true]
      constructor
      · intro member
        rcases member with here | below
        · split_ifs at here with ignored
          · cases here
          · obtain ⟨listed, kept, opened⟩ := inside.mp here
            exact ⟨.inl listed, kept, (opens listed).mpr
              ⟨Bool.eq_false_iff.mpr ignored, opened⟩⟩
        · exact ⟨.inr below.1, below.2⟩
      · intro member
        obtain ⟨listed, kept, opened⟩ := member
        rcases listed with here | below
        · obtain ⟨entered, deeper⟩ := (opens here).mp opened
          apply Or.inl
          rw [entered, if_neg Bool.false_ne_true]
          exact inside.mpr ⟨here, kept, deeper⟩
        · exact .inr ⟨below, kept, opened⟩

end

/-- The files `put_tree` keeps of a directory. -/
theorem mem_files_iff {directory : Directory} (proper : directory.Proper)
    (file : String × Bytes) :
    file ∈ directory.files ignore ↔ file ∈ directory.allFiles ∧
      ignore file.1 = false ∧ Open ignore [] (components file.1) := by
  rw [files, mem_walk_iff proper, wayTo_dot]
  rfl

end Ignoring

end Directory

end Cats
