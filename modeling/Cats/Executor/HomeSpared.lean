import Cats.Executor.Delivered

/-!
# The Job result and `CATS_HOME`

The result directory is refused inside `CATS_HOME`.  It may still hold
`CATS_HOME`: then the only place the run writes to that can be `CATS_HOME`
itself is the directory of the copies.
-/

namespace Cats

open Effect

namespace JobResult

/-- A directory that stays one, with every file below it as it was. -/
structure Spared (home : Path) (before after : Machine) : Prop where
  dir : before.inode? home = some .dir → after.inode? home = some .dir
  files : before.inode? home = some .dir →
    ∀ path, home <+: path → after.file? path = before.file? path

namespace Spared

variable {home : Path}

theorem of_disk {before after : Machine} (same : after.disk = before.disk) :
    Spared home before after := by
  have inodes : after.inode? = before.inode? := by
    funext path
    simp only [Machine.inode?, same]
  constructor
  · intro directory
    rw [inodes]
    exact directory
  · intro _ path _
    simp only [Machine.file?, inodes]

theorem refl (machine : Machine) : Spared home machine machine := of_disk rfl

theorem trans {first second third : Machine} (left : Spared home first second)
    (right : Spared home second third) : Spared home first third := by
  constructor
  · intro directory
    exact right.dir (left.dir directory)
  · intro directory path below
    exact (right.files (left.dir directory) path below).trans
      (left.files directory path below)

/-- Something new at a place that is not the directory itself, and is below it
only as a directory. -/
theorem put {machine : Machine} {path : Path} {inode : Inode}
    {content : Option Bytes}
    (other : machine.inode? home = some .dir → path ≠ home)
    (fresh : machine.inode? home = some .dir → home <+: path →
      inode = .dir ∧ machine.inode? path = none) :
    Spared home machine
      { machine with
        disk := Function.update machine.disk path (some inode)
        writes := machine.writes ++ [⟨path, content⟩] } := by
  constructor
  · intro directory
    have differ := (other directory).symm
    simp only [Machine.inode?] at directory ⊢
    split_ifs at directory ⊢ with root
    · rfl
    · rwa [Function.update_of_ne differ]
  · intro directory place below
    by_cases same : place = path
    · subst same
      obtain ⟨rfl, absent⟩ := fresh directory below
      have nonroot : place ≠ [] := by
        rintro rfl
        simp [Machine.inode?] at absent
      simp [Machine.file?, absent]
      simp [Machine.inode?, nonroot]
    · simp [Machine.file?, Machine.inode?, Function.update_of_ne same]

end Spared

/-- A computation that spares the directory. -/
abbrev Spares {α : Type} (home : Path) (action : Act α) : Prop :=
  Relates (Spared home) action

section Spares

variable {home : Path}

theorem spares_bind {α β : Type} {action : Act α} {next : α → Act β}
    (first : Spares home action) (later : ∀ value, Spares home (next value)) :
    Spares home (action >>= next) :=
  Relates.bind (fun left right => left.trans right) first later

theorem spares_of_gathers {α : Type} {action : Act α}
    (gathers : Gathers action) : Spares home action :=
  fun machine => .of_disk (gathers machine).disk

theorem spares_mkdir (path : Path) (isLast : Bool) :
    Spares home (Disk.mkdir path isLast) := by
  intro machine
  unfold Disk.mkdir
  rw [bind_run_ok (get_run machine)]
  cases found : machine.inode? path with
  | none =>
      apply Spared.put
      · intro directory same
        rw [same] at found
        exact nomatch found.symm.trans directory
      · intro _ _
        exact ⟨rfl, found⟩
  | some inode =>
      cases inode with
      | dir => exact .refl machine
      | file data => exact .refl machine

theorem spares_mkdirsFrom (here : Path) (parts : List (List Char)) :
    Spares home (Disk.mkdirsFrom here parts) := by
  induction parts generalizing here with
  | nil => exact fun machine => .refl machine
  | cons part parts induction =>
      apply Relates.ite
      · intro _
        exact fun machine => .refl machine
      · intro _
        exact spares_bind (spares_mkdir _ _) fun _ => induction _

theorem spares_mkdirParents (parts : List (List Char)) :
    Spares home (Disk.mkdirParents parts) :=
  Relates.ite (fun _ => fun machine => .refl machine)
    (fun _ => spares_mkdirsFrom [] parts)

/-- A file is not written over a directory. -/
theorem spares_writeAt {path : Path} (only : home <+: path → path = home)
    (data : Bytes) : Spares home (Disk.writeAt path data) := by
  intro machine
  unfold Disk.writeAt
  rw [bind_run_ok (get_run machine)]
  by_cases directory : machine.inode? path = some .dir
  · rw [if_pos directory]
    exact .refl machine
  · rw [if_neg directory]
    by_cases parent : machine.inode? path.dropLast = some .dir
    · rw [if_pos parent]
      apply Spared.put
      · intro there same
        rw [same] at directory
        exact directory there
      · intro there below
        rw [only below] at directory
        exact absurd there directory
    · rw [if_neg parent]
      split_ifs <;> exact .refl machine

end Spares

section Run

variable {host : Host} {cats_home : String} {bom_response : Fields}
  {result_dir : Option String} {before : Machine} {home dest : Path}

/-- The place of a copy is below `CATS_HOME` only where it is `CATS_HOME`. -/
theorem below_fileOf {name : String} (outside : ¬ home <+: dest)
    (below : home <+: fileOf dest name) : fileOf dest name = home := by
  rcases List.prefix_concat_iff.mp below with same | inside
  · exact same.symm
  · exact absurd inside outside

theorem spares_copyBlobs {dest_cas : Path} (outside : ¬ home <+: dest_cas)
    (content_ids : List String) :
    Spares home (copyBlobs dest_cas content_ids) := by
  induction content_ids with
  | nil => exact fun machine => .refl machine
  | cons content_id content_ids induction =>
      apply spares_bind
      · apply spares_bind (spares_of_gathers (gathers_blobOf content_id))
        intro blob
        apply spares_bind
          (spares_of_gathers (gathers_of_reads (AddressStore.reads_lift _)))
        intro key
        apply spares_bind (spares_mkdirParents dest_cas)
        intro _
        exact spares_writeAt (below_fileOf outside) blob
      · intro _
        exact induction

/-- The result directory is not inside `CATS_HOME`. -/
theorem notBelow_of_resolved
    (resolved : resolve_result_dir host cats_home result_dir = .ok dest) :
    ¬ host.resolve cats_home <+: dest := by
  unfold resolve_result_dir at resolved
  dsimp only at resolved
  split_ifs at resolved with blank inside
  · cases resolved
    exact inside
  · rename_i outside
    cases resolved
    exact outside

theorem spares_writeDocuments {bom invoice : Fields} {invoice_id : String}
    (outside : ¬ home <+: dest) :
    Spares home (writeDocuments dest bom_response bom invoice invoice_id) := by
  apply spares_bind (spares_writeAt (below_fileOf outside) _)
  intro _
  apply spares_bind (spares_writeAt (below_fileOf outside) _)
  intro _
  exact spares_writeAt (below_fileOf outside) _

/-- What a run does in the result directory. -/
theorem spares_placed {bom : Fields} (outside : ¬ home <+: dest)
    (copies : ¬ home <+: fileOf dest "cas") :
    Spares home (do
      Disk.mkdirParents dest
      let (invoice_id, invoice) ← citedInvoice bom
      let found ← cited_content_ids bom_response bom invoice invoice_id
      copyBlobs (fileOf dest "cas") found
      writeDocuments dest bom_response bom invoice invoice_id
      pure dest) := by
  apply spares_bind (spares_mkdirParents dest)
  intro _
  apply spares_bind (spares_of_gathers (gathers_citedInvoice bom))
  intro named
  apply spares_bind
    (spares_of_gathers (gathers_cited_content_ids bom_response bom _ _))
  intro found
  apply spares_bind (spares_copyBlobs copies found)
  intro _
  apply spares_bind (spares_writeDocuments outside)
  intro _
  exact fun machine => .refl machine

end Run

end JobResult

end Cats
