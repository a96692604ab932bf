import Cats.Mesh.Packaging
import Cats.Structure.Transport

/-!
# What Terraform leaves in a Structure home

`plant/` and `infrastructure/` are put without the residue of an apply.  The
predicate is asked for files and, before the walk enters them, for
directories.
-/

namespace Cats

namespace Packaging

/-- The files of a tree that are no residue. -/
def asCode (tree : Directory) : List (String × Bytes) :=
  tree.allFiles.filter fun file => !is_structure_apply_residue file.1

/-- Two trees agree on all files that are no residue. -/
def AgreeAsCode (left right : Directory) : Prop :=
  ∀ file, file ∈ asCode left ↔ file ∈ asCode right

/-- No directory above a file is taken for residue. -/
def Exposed (rel : String) : Prop :=
  Directory.Open is_structure_apply_residue [] (components rel)

/-- Two trees get one id exactly when they agree. -/
def SameIdIffAgree (store : CasHttpStore) (left right : Directory) : Prop :=
  ∃ leftId leftStore rightId rightStore,
    put_tree store left is_structure_apply_residue =
      .ok (leftId, leftStore) ∧
    put_tree store right is_structure_apply_residue =
      .ok (rightId, rightStore) ∧
    (leftId = rightId ↔ AgreeAsCode left right)

/-- The files kept of a tree have no backslash in their paths, and their bytes
are in play. -/
structure KeptInPlay (seen : Set Bytes) (tree : Directory) : Prop where
  plain : PlainPaths (tree.files is_structure_apply_residue)
  data : ∀ file ∈ tree.files is_structure_apply_residue, file.2 ∈ seen
  manifest : treeDocument (tree.files is_structure_apply_residue) ∈ seen

section Trees

variable {seen : Set Bytes} {store : CasHttpStore} {left right : Directory}

theorem mem_asCode {tree : Directory} {file : String × Bytes} :
    file ∈ asCode tree ↔ file ∈ tree.allFiles ∧
      is_structure_apply_residue file.1 = false := by
  rw [asCode, List.mem_filter, Bool.not_eq_true']

/-- Kept are the files that are no residue and not hidden below a directory
that is taken for some. -/
theorem mem_kept_iff {tree : Directory} (proper : tree.Proper)
    (file : String × Bytes) :
    file ∈ tree.files is_structure_apply_residue ↔
      file ∈ asCode tree ∧ Exposed file.1 := by
  rw [Directory.mem_files_iff proper, mem_asCode, and_assoc]
  rfl

/-- A file on which two trees differ. -/
def DifferOn (left right : Directory) (file : String × Bytes) : Prop :=
  ¬ (file ∈ asCode left ↔ file ∈ asCode right)

/-- The ids of two trees are equal when they keep the same files. -/
theorem put_trees (leftProper : left.Proper) (rightProper : right.Proper)
    (within : store.Within seen) (apart : Set.InjOn sha256_hex seen)
    (leftKept : KeptInPlay seen left) (rightKept : KeptInPlay seen right) :
    ∃ leftStore rightStore,
      put_tree store left is_structure_apply_residue =
        .ok (treeId (left.files is_structure_apply_residue), leftStore) ∧
      put_tree store right is_structure_apply_residue =
        .ok (treeId (right.files is_structure_apply_residue), rightStore) ∧
      (treeId (left.files is_structure_apply_residue) =
          treeId (right.files is_structure_apply_residue) ↔
        (left.files is_structure_apply_residue).Perm
          (right.files is_structure_apply_residue)) := by
  obtain ⟨leftStore, leftPut, _⟩ := put_tree_plain leftProper leftKept.plain
    within apart leftKept.data leftKept.manifest
  obtain ⟨rightStore, rightPut, _⟩ := put_tree_plain rightProper
    rightKept.plain within apart rightKept.data rightKept.manifest
  have documents := treeDocument_eq_iff apart leftKept.data rightKept.data
    (Directory.nodup_files_names leftProper)
    (Directory.nodup_files_names rightProper)
  refine ⟨leftStore, rightStore, leftPut, rightPut, ?_⟩
  rw [← documents]
  constructor
  · intro same
    exact apart leftKept.manifest rightKept.manifest (to_ni_injective same)
  · intro same
    rw [treeId, treeId, same]

theorem kept_perm_iff (leftProper : left.Proper) (rightProper : right.Proper) :
    (left.files is_structure_apply_residue).Perm
        (right.files is_structure_apply_residue) ↔
      ∀ file, Exposed file.1 → ¬ DifferOn left right file := by
  rw [List.perm_ext_iff_of_nodup
    (List.Nodup.of_map _ (Directory.nodup_files_names leftProper))
    (List.Nodup.of_map _ (Directory.nodup_files_names rightProper))]
  constructor
  · intro same file exposed differ
    have both := same file
    rw [mem_kept_iff leftProper, mem_kept_iff rightProper,
      and_iff_left exposed, and_iff_left exposed] at both
    exact differ both
  · intro alike file
    rw [mem_kept_iff leftProper, mem_kept_iff rightProper]
    constructor
    · intro member
      exact ⟨(not_not.mp (alike file member.2)).mp member.1, member.2⟩
    · intro member
      exact ⟨(not_not.mp (alike file member.2)).mpr member.1, member.2⟩

/-- An id tells trees apart exactly when they differ on a file in the open, if
they differ at all. -/
theorem sameIdIffAgree_iff (leftProper : left.Proper)
    (rightProper : right.Proper) (within : store.Within seen)
    (apart : Set.InjOn sha256_hex seen) (leftKept : KeptInPlay seen left)
    (rightKept : KeptInPlay seen right) :
    SameIdIffAgree store left right ↔
      (∃ file, DifferOn left right file) →
        ∃ file, Exposed file.1 ∧ DifferOn left right file := by
  obtain ⟨leftStore, rightStore, leftPut, rightPut, ids⟩ :=
    put_trees leftProper rightProper within apart leftKept rightKept
  rw [kept_perm_iff leftProper rightProper] at ids
  constructor
  · intro law differ
    obtain ⟨leftId, otherLeft, rightId, otherRight, first, second, same⟩ := law
    rw [leftPut] at first
    rw [rightPut] at second
    cases first
    cases second
    by_contra hidden
    obtain ⟨file, different⟩ := differ
    apply different
    apply same.mp
    apply ids.mpr
    intro other exposed apartHere
    exact hidden ⟨other, exposed, apartHere⟩
  · intro seenIfAny
    refine ⟨_, leftStore, _, rightStore, leftPut, rightPut, ?_⟩
    rw [ids]
    constructor
    · intro alike file
      by_contra different
      obtain ⟨other, exposed, apartHere⟩ := seenIfAny ⟨file, different⟩
      exact alike other exposed apartHere
    · intro agree file _ different
      exact different (agree file)

end Trees

section Small

open Transport

theorem kept_oneFile : (oneFile "main.tf").files is_structure_apply_residue =
    (oneFile "main.tf").allFiles := by decide +kernel

theorem keptInPlay_oneFile :
    KeptInPlay { data | data ∈ oneFileBytes "main.tf" } (oneFile "main.tf") where
  plain := by
    rw [kept_oneFile]
    intro file member
    rw [List.mem_singleton.mp member]
    decide
  data := by
    rw [kept_oneFile]
    exact (inPlay_oneFile "main.tf").data
  manifest := by
    rw [kept_oneFile]
    exact (inPlay_oneFile "main.tf").manifest

theorem keptInPlay_nothing {tree : Directory} {seen : Set Bytes}
    (nothing : tree.files is_structure_apply_residue = [])
    (manifest : treeDocument [] ∈ seen) : KeptInPlay seen tree where
  plain := by
    rw [nothing]
    intro file member
    cases member
  data := by
    rw [nothing]
    intro file member
    cases member
  manifest := by
    rw [nothing]
    exact manifest

theorem fileName_main : FileName "main.tf" where
  nonempty := by decide
  notDot := by decide
  notParent := by decide
  noSlash := by decide
  noNul := by decide

theorem sameIdIffAgree_iff_small :
    SameIdIffAgree .empty (oneFile "main.tf") noFile ↔
      ((∃ file, DifferOn (oneFile "main.tf") noFile file) →
        ∃ file, Exposed file.1 ∧ DifferOn (oneFile "main.tf") noFile file) :=
  sameIdIffAgree_iff (proper_oneFile fileName_main) proper_noFile
    (within_empty _) (@injOn_of_list (oneFileBytes "main.tf") (by decide +kernel))
    keptInPlay_oneFile
    (keptInPlay_nothing rfl (inPlay_noFile "main.tf").manifest)

/-- A file in a directory with the name of a compiled file. -/
def hiddenTree : Directory := .node [] [("x.pyc", oneFile "main.tf")]

theorem proper_hiddenTree : hiddenTree.Proper := by
  have named : FileName "x.pyc" :=
    { nonempty := by decide
      notDot := by decide
      notParent := by decide
      noSlash := by decide
      noNul := by decide }
  refine ⟨?_, List.nodup_singleton _, named, proper_oneFile fileName_main,
    trivial⟩
  intro file member
  cases member

theorem kept_hiddenTree : hiddenTree.files is_structure_apply_residue = [] := by
  decide +kernel

/-- What lies in such a directory does not count. -/
theorem hidden_file_ignored : ¬ ∀ (seen : Set Bytes) (store : CasHttpStore)
    (left right : Directory), left.Proper → right.Proper →
    store.Within seen → Set.InjOn sha256_hex seen → KeptInPlay seen left →
    KeptInPlay seen right → SameIdIffAgree store left right := by
  intro law
  have within := within_empty { data | data ∈ [treeDocument []] }
  have apart := @injOn_of_list [treeDocument []] (by
    intro left first right second _
    rw [List.mem_singleton.mp first, List.mem_singleton.mp second])
  have hidden := @keptInPlay_nothing hiddenTree
    { data | data ∈ [treeDocument []] } kept_hiddenTree List.mem_cons_self
  have nothing := @keptInPlay_nothing noFile
    { data | data ∈ [treeDocument []] } rfl List.mem_cons_self
  obtain ⟨leftId, leftStore, rightId, rightStore, first, second, same⟩ :=
    law _ .empty hiddenTree noFile proper_hiddenTree proper_noFile within apart
      hidden nothing
  obtain ⟨_, _, leftPut, rightPut, ids⟩ := put_trees proper_hiddenTree
    proper_noFile within apart hidden nothing
  rw [leftPut] at first
  rw [rightPut] at second
  cases first
  cases second
  have kept : (noFile.files is_structure_apply_residue) = [] := rfl
  have agree := same.mp (by rw [kept_hiddenTree, kept])
  have there : ("x.pyc/main.tf", [1]) ∈ asCode hiddenTree := by decide +kernel
  have missing := (agree _).mp there
  cases missing

end Small

end Packaging

end Cats
