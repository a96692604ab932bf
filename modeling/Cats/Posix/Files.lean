import Cats.AddressStore.Frame

/-!
# What disk operations do to files

`Wrote` accounts for the files a computation wrote: they are appended to the
log in order and laid over the files that were there.  Making directories
writes no file.
-/

namespace Cats

open Effect

/-- The last binding of a path wins. -/
def overlay (written : List (Path × Bytes)) (files : Path → Option Bytes) :
    Path → Option Bytes :=
  written.foldl (fun files entry =>
    Function.update files entry.1 (some entry.2)) files

@[simp] theorem overlay_nil (files : Path → Option Bytes) :
    overlay [] files = files := rfl

theorem overlay_append (first second : List (Path × Bytes))
    (files : Path → Option Bytes) :
    overlay (first ++ second) files = overlay second (overlay first files) :=
  List.foldl_append ..

theorem overlay_of_notMem {written : List (Path × Bytes)}
    {files : Path → Option Bytes} {path : Path}
    (absent : path ∉ written.map Prod.fst) :
    overlay written files path = files path := by
  induction written generalizing files with
  | nil => rfl
  | cons entry written induction =>
      simp only [List.map_cons, List.mem_cons, not_or] at absent
      have rest : overlay written
          (Function.update files entry.1 (some entry.2)) path = _ :=
        induction absent.2
      rw [Function.update_of_ne absent.1] at rest
      exact rest

/-- A written path holds what some entry wrote there. -/
theorem overlay_of_mem {written : List (Path × Bytes)}
    {files : Path → Option Bytes} {path : Path}
    (member : path ∈ written.map Prod.fst) :
    ∃ data, (path, data) ∈ written ∧
      overlay written files path = some data := by
  induction written generalizing files with
  | nil => simp at member
  | cons entry written induction =>
      by_cases later : path ∈ written.map Prod.fst
      · obtain ⟨data, found, value⟩ := induction later
        exact ⟨data, by simp [found], value⟩
      · have same : path = entry.1 := by
          simp only [List.map_cons, List.mem_cons] at member
          exact member.resolve_right later
        refine ⟨entry.2, by simp [same], ?_⟩
        have rest : overlay written
            (Function.update files entry.1 (some entry.2)) path = _ :=
          overlay_of_notMem later
        rw [same, Function.update_self] at rest
        rw [same]
        exact rest

/-- The entry whose path is not written again stays. -/
theorem overlay_last {earlier later : List (Path × Bytes)}
    {files : Path → Option Bytes} {path : Path} {data : Bytes}
    (last : path ∉ later.map Prod.fst) :
    overlay (earlier ++ (path, data) :: later) files path = some data := by
  rw [overlay_append]
  have rest : overlay later
      (Function.update (overlay earlier files) path (some data)) path = _ :=
    overlay_of_notMem last
  rw [Function.update_self] at rest
  exact rest

/-- The files among logged writes, in order. -/
def fileWrites (writes : List Write) : List (Path × Bytes) :=
  writes.filterMap fun write => write.content.map fun data =>
    (write.path, data)

theorem fileWrites_append (first second : List Write) :
    fileWrites (first ++ second) = fileWrites first ++ fileWrites second :=
  List.filterMap_append

/-- From one state to another exactly these files were written. -/
structure Wrote (before after : Machine) (written : List (Path × Bytes)) :
    Prop where
  home : after.home = before.home
  log : fileWrites after.writes = fileWrites before.writes ++ written
  files : after.file? = overlay written before.file?

namespace Wrote

theorem of_same {before after : Machine} (same : Machine.Same before after) :
    Wrote before after [] := by
  refine ⟨same.home, by rw [same.writes, List.append_nil], ?_⟩
  funext path
  simp only [overlay_nil, Machine.file?, Machine.inode?, same.disk]

theorem refl (machine : Machine) : Wrote machine machine [] :=
  of_same (.refl machine)

theorem trans {first second third : Machine}
    {left right : List (Path × Bytes)} (start : Wrote first second left)
    (rest : Wrote second third right) : Wrote first third (left ++ right) := by
  refine ⟨rest.home.trans start.home, ?_, ?_⟩
  · rw [rest.log, start.log, List.append_assoc]
  · rw [rest.files, start.files, overlay_append]

theorem trans_nil {first second third : Machine}
    (start : Wrote first second []) (rest : Wrote second third []) :
    Wrote first third [] := start.trans rest

end Wrote

/-- A computation that writes no file. -/
abbrev Fileless {α : Type} (action : Act α) : Prop :=
  Relates (fun before after => Wrote before after []) action

theorem fileless_of_reads {α : Type} {action : Act α}
    (reads : AddressStore.Reads action) : Fileless action :=
  fun machine => Wrote.of_same (reads machine)

theorem fileless_bind {α β : Type} {action : Act α} {next : α → Act β}
    (first : Fileless action) (later : ∀ value, Fileless (next value)) :
    Fileless (action >>= next) :=
  Relates.bind (fun left right => left.trans_nil right) first later

theorem wrote_of_ok {α : Type} {action : Act α} {machine after : Machine}
    {value : α} (fileless : Fileless action)
    (ran : action machine = .ok value after) : Wrote machine after [] := by
  have related := fileless machine
  rwa [ran] at related

namespace Disk

theorem wrote_put_dir {machine : Machine} {path : Path}
    (absent : machine.inode? path = none) :
    Wrote machine
      { machine with
        disk := Function.update machine.disk path (some .dir)
        writes := machine.writes ++ [⟨path, none⟩] } [] := by
  refine ⟨rfl, by simp [fileWrites], ?_⟩
  funext other
  by_cases same : other = path
  · subst same
    have nonroot : other ≠ [] := by
      rintro rfl
      simp [Machine.inode?] at absent
    simp only [Machine.inode?, nonroot, if_false] at absent
    simp [Machine.file?, Machine.inode?, nonroot, absent]
  · simp [Machine.file?, Machine.inode?, Function.update_of_ne same]

theorem wrote_put_file (machine : Machine) {path : Path} (nonroot : path ≠ [])
    (data : Bytes) :
    Wrote machine
      { machine with
        disk := Function.update machine.disk path (some (.file data))
        writes := machine.writes ++ [⟨path, some data⟩] } [(path, data)] := by
  refine ⟨rfl, by simp [fileWrites], ?_⟩
  funext other
  by_cases same : other = path
  · subst same
    simp [Machine.file?, Machine.inode?, overlay, nonroot]
  · simp [Machine.file?, Machine.inode?, overlay, Function.update_of_ne same]

theorem fileless_mkdir (path : Path) (isLast : Bool) :
    Fileless (mkdir path isLast) := by
  intro machine
  unfold mkdir
  rw [bind_run_ok (get_run machine)]
  cases found : machine.inode? path with
  | none => exact wrote_put_dir found
  | some inode =>
      cases inode with
      | dir => exact Wrote.refl machine
      | file data => exact Wrote.refl machine

theorem fileless_mkdirsFrom (here : Path) (parts : List (List Char)) :
    Fileless (mkdirsFrom here parts) := by
  induction parts generalizing here with
  | nil => exact fun machine => Wrote.refl machine
  | cons part parts induction =>
      refine Relates.ite (fun _ => fun machine => Wrote.refl machine)
        (fun _ => ?_)
      exact fileless_bind (fileless_mkdir _ _) fun _ => induction _

theorem fileless_checkNul (path : String) : Fileless (checkNul path) := by
  unfold checkNul
  split_ifs
  · exact fun machine => Wrote.refl machine
  · exact fun machine => Wrote.refl machine

theorem fileless_makedirs (path : String) : Fileless (makedirs path) :=
  Relates.ite (fun _ => fun machine => Wrote.refl machine)
    (fun _ => fileless_mkdirsFrom [] (Posix.parts path))

theorem fileless_mkdirParents (parts : List (List Char)) :
    Fileless (mkdirParents parts) :=
  Relates.ite (fun _ => fun machine => Wrote.refl machine)
    (fun _ => fileless_mkdirsFrom [] parts)

/-- A write that returned wrote that one file. -/
theorem writeAt_ok {path : Path} {data : Bytes} {machine after : Machine}
    (ran : writeAt path data machine = .ok () after) :
    Wrote machine after [(path, data)] := by
  unfold writeAt at ran
  rw [bind_run_ok (get_run machine)] at ran
  split_ifs at ran with directory parent
  · simp at ran
  · have state : after = _ := (EStateM.Result.ok.inj ran).2.symm
    have nonroot : path ≠ [] := by
      rintro rfl
      simp [Machine.inode?] at directory
    rw [state]
    exact wrote_put_file machine nonroot data
  · simp at ran
  · simp at ran

theorem writeFile_ok {path : String} {data : Bytes} {machine after : Machine}
    (ran : writeFile path data machine = .ok () after) :
    Wrote machine after [(Posix.resolve path, data)] := by
  obtain ⟨_, middle, checked, rest⟩ := bind_ok ran
  exact (wrote_of_ok (fileless_checkNul path) checked).trans (writeAt_ok rest)

end Disk

end Cats
