import Cats.AddressStore.Agreement
import Cats.Mesh.Containment
import Cats.Posix.Planned

/-!
# Orders whose content peers serve

On a Node with empty stores, content at plain `http` locators is what the
network answers.  When all that an Order cites is served and nothing on the
disk is in the way, `getEnhancedBom` returns.
-/

namespace Cats

open Effect

theorem readManifest?_mintedBytes {obj : Json}
    (valid : obj.wellFormed = true) :
    readManifest? (mintedBytes obj) = manifestEntries? obj := by
  have read := Json.loads_decode_dumps .standard valid ['\n']
    (List.all_eq_true.mp rfl)
  unfold readManifest? mintedBytes
  rw [read]
  rfl

/-- The network answers every GET of this plain locator alike. -/
structure Serves (net : Network) (uri : String) (data : Bytes) : Prop where
  http : is_http_uri uri = true
  path : ∃ path, Url.path uri = .ok path ∧
    AddressStore.casPathDigest? path = none
  answer : ∀ gets, net.answer gets uri = some data

namespace AddressStore

variable {net : Network}

/-- Served content is fetched. -/
theorem cat_bytes_served {uri : String} {data : Bytes}
    (serves : Serves net uri data) {machine : Machine}
    (bare : machine.home = some bareHome) :
    cat_bytes net uri none machine =
      .ok data { machine with gets := machine.gets + 1 } := by
  obtain ⟨path, parsed, notCas⟩ := serves.path
  have notHl := notHashlink_of_http serves.http
  have nothing : local_ldp_bytes machine.home uri = .ok none := by
    rw [bare]
    exact (local_ldp_bytes_bare parsed :
      local_ldp_bytes (bareMachine (some .empty)).home uri = .ok none)
  have fetched : fetchUri net uri machine =
      .ok (data, none) { machine with gets := machine.gets + 1 } := by
    unfold fetchUri
    rw [bind_run_ok (get_run machine), nothing]
    have answered : urlopen net uri machine =
        .ok data { machine with gets := machine.gets + 1 } := by
      unfold urlopen
      rw [bind_run_ok (get_run machine)]
      simp only [serves.answer]
      rfl
    simp only [Act.lift]
    rw [bind_run_ok (pure_run none machine)]
    simp only []
    rw [bind_run_ok answered]
    rfl
  have unnamed : resolve_expect_digest (machine.home.map Home.index) uri none =
      .ok none := by
    rw [bare]
    simp [resolve_expect_digest, Option.filter, parsed, notCas, indexedDigest,
      bareHome, find_nothing, Except.bind, bind]
  simp only [cat_bytes, notHl, catPlain, serves.http, Bool.false_eq_true,
    if_false, if_true, catHttp]
  rw [bind_run_ok fetched]
  simp only []
  rw [bind_run_ok (get_run _), unnamed]
  rfl

section Runs

variable {plan : Plan} {known : Path → Prop} {held : Path → Bytes → Prop}

theorem runs_cat_bytes {uri : String} {data : Bytes}
    (serves : Serves net uri data) :
    Runs plan (some bareHome) known held (cat_bytes net uri none)
      (fun value machine => value = data ∧
        Kept plan (some bareHome) known held machine) := by
  intro machine kept
  refine ⟨data, _, cat_bytes_served serves kept.home, rfl, ?_⟩
  exact kept.same ⟨rfl, rfl, rfl⟩

theorem runs_lift {α : Type} {result : Except Raised α} {value : α}
    (returned : result = .ok value) :
    Runs plan (some bareHome) known held (Act.lift result)
      (fun found machine => found = value ∧
        Kept plan (some bareHome) known held machine) := by
  rw [returned]
  exact Completes.pure fun _ kept => ⟨rfl, kept⟩

/-- A place whose way is planned. -/
structure Reaches (plan : Plan) (place : String) : Prop where
  noNul : ∀ part ∈ Posix.parts place, Disk.hasNul part = false
  planned : ∀ way, way <+: Posix.parts place → way ≠ [] →
    plan.dir (way.foldl Posix.enter [])

variable {place name : String}

theorem runs_makeParent (plain : PlainName name)
    (reaches : Reaches plan place) :
    Runs plan (some bareHome) known held (makeParent (Posix.join place name))
      (fun _ => Kept plan (some bareHome)
        (fun path => known path ∨ path = Posix.resolve place) held) := by
  have parent := Posix.parts_dirname_join place plain.noSlash
  obtain ⟨noNul, planned⟩ := reaches
  rw [Posix.resolve_eq_foldl]
  unfold makeParent
  generalize Posix.dirname (Posix.join place name) = directory at parent ⊢
  rw [← parent] at noNul planned ⊢
  by_cases here : directory = ""
  · rw [if_pos here]
    apply Completes.pure
    intro machine kept
    rw [here]
    exact kept.root
  · rw [if_neg here, ← Posix.resolve_eq_foldl]
    exact Disk.runs_makedirs here noNul planned

/-- A planned file below a place that can be made. -/
structure Accepts (plan : Plan) (held : Path → Bytes → Prop)
    (place name : String) (data : Bytes) : Prop where
  plain : PlainName name
  noNul : Disk.hasNul name.toList = false
  planned : plan.file (Posix.resolve place ++ [name.toList])
  fresh : ∀ old, held (Posix.resolve place ++ [name.toList]) old → old = data

theorem hasNul_join {data : Bytes} (reaches : Reaches plan place)
    (accepts : Accepts plan held place name data) :
    Disk.hasNul (Posix.join place name).toList = false := by
  apply Disk.hasNul_eq_false
  rw [accepts.plain.parts_join]
  intro part member
  rcases List.mem_append.mp member with above | last
  · exact reaches.noNul part above
  · rw [List.mem_singleton.mp last]
    exact accepts.noNul

theorem runs_writeFile_join {data : Bytes} (reaches : Reaches plan place)
    (accepts : Accepts plan held place name data)
    (parent : known (Posix.resolve place)) :
    Runs plan (some bareHome) known held
      (Disk.writeFile (Posix.join place name) data)
      (fun _ => Kept plan (some bareHome) known fun path bytes =>
        held path bytes ∨ path = Posix.resolve place ++ [name.toList] ∧
          bytes = data) := by
  have here := accepts.plain.resolve_join place
  have written : Runs plan (some bareHome) known held
      (Disk.writeFile (Posix.join place name) data) _ :=
    Disk.runs_writeFile data (hasNul_join reaches accepts)
      (here ▸ accepts.planned)
      (by rw [here, List.dropLast_concat]; exact parent)
      (by rw [here]; simp) (by rw [here]; exact accepts.fresh)
  rwa [here] at written

/-- A served blob lands in its file. -/
theorem runs_get_blob {uri : String} {data : Bytes}
    (serves : Serves net uri data) (notTree : readManifest? data = none)
    (reaches : Reaches plan place)
    (accepts : Accepts plan held place name data) :
    Runs plan (some bareHome) known held
      (AddressStore.get net uri (Posix.join place name) none)
      (fun _ => Kept plan (some bareHome)
        (fun path => known path ∨ path = Posix.resolve place)
        fun path bytes => held path bytes ∨
          path = Posix.resolve place ++ [name.toList] ∧ bytes = data) := by
  unfold AddressStore.get
  rw [serves.http]
  apply Completes.bind_known (runs_cat_bytes serves)
  simp only [notTree]
  unfold writeBlob
  exact Completes.bind (runs_makeParent accepts.plain reaches)
    fun _ => runs_writeFile_join reaches accepts (.inr rfl)

/-- One file of a served tree. -/
structure ServedFile where
  name : String
  uri : String
  data : Bytes

def ServedFile.entry (file : ServedFile) : String × Json :=
  (file.name, .str file.uri)

/-- What is held once a tree lies below the place. -/
def heldTree (held : Path → Bytes → Prop) (place : String)
    (tree : List ServedFile) (path : Path) (bytes : Bytes) : Prop :=
  held path bytes ∨ ∃ file ∈ tree,
    path = Posix.resolve place ++ [file.name.toList] ∧ bytes = file.data

/-- The tree's files are served and may lie below the place. -/
structure TreeAccepted (net : Network) (plan : Plan)
    (held : Path → Bytes → Prop) (place : String) (file : ServedFile) :
    Prop where
  serves : Serves net file.uri file.data
  safe : safePath? file.name = some file.name
  plain : PlainName file.name
  noNul : Disk.hasNul file.name.toList = false
  planned : plan.file (Posix.resolve place ++ [file.name.toList])
  fresh : ∀ old, ¬ held (Posix.resolve place ++ [file.name.toList]) old

theorem runs_writeEntries {tree : List ServedFile}
    (reaches : Reaches plan place)
    (accepted : ∀ file ∈ tree, TreeAccepted net plan held place file)
    (distinct : (tree.map ServedFile.name).Nodup) :
    Runs plan (some bareHome) known held
      (writeEntries net place (tree.map ServedFile.entry))
      (fun _ => Kept plan (some bareHome) known
        (heldTree held place tree)) := by
  induction tree generalizing known held with
  | nil =>
      apply Completes.pure
      intro machine kept
      exact kept.mono (fun _ member => member) (by simp [heldTree])
  | cons file tree induction =>
      have here := accepted file List.mem_cons_self
      rw [List.map_cons, List.nodup_cons] at distinct
      simp only [List.map_cons, ServedFile.entry, writeEntries, here.safe]
      have way := here.plain.parts_join place
      rw [way, List.dropLast_concat]
      apply Completes.bind
        (Disk.runs_mkdirParents reaches.noNul reaches.planned)
      intro _
      apply Completes.bind_known (runs_cat_bytes here.serves)
      apply Completes.bind (runs_writeFile_join reaches
        ⟨here.plain, here.noNul, here.planned,
          fun old member => absurd member (here.fresh old)⟩
        (.inr (Posix.resolve_eq_foldl place)))
      intro _
      apply Completes.conseq (induction ?_ distinct.2)
      · exact fun _ kept => kept
      · intro _ machine kept
        apply kept.mono
        · exact fun _ member => .inl member
        · intro path bytes member
          rcases member with old | ⟨other, among, equal⟩
          · exact .inl (.inl old)
          · rcases List.mem_cons.mp among with rfl | later
            · exact .inl (.inr equal)
            · exact .inr ⟨other, later, equal⟩
      · intro other later
        have others := accepted other (List.mem_cons_of_mem file later)
        refine ⟨others.serves, others.safe, others.plain, others.noNul,
          others.planned, ?_⟩
        intro old member
        rcases member with member | ⟨same, _⟩
        · exact others.fresh old member
        · have names := List.append_cancel_left same
          simp only [List.cons.injEq, and_true] at names
          apply distinct.1
          rw [← String.toList_injective names]
          exact List.mem_map_of_mem later

/-- A served tree lands below its directory. -/
theorem runs_get_tree {uri : String} {listing : Bytes}
    {tree : List ServedFile} (serves : Serves net uri listing)
    (listed : readManifest? listing = some (tree.map ServedFile.entry))
    (nonempty : place ≠ "") (reaches : Reaches plan place)
    (accepted : ∀ file ∈ tree, TreeAccepted net plan held place file)
    (distinct : (tree.map ServedFile.name).Nodup) :
    Runs plan (some bareHome) known held
      (AddressStore.get net uri place none)
      (fun _ => Kept plan (some bareHome) known
        (heldTree held place tree)) := by
  have notHl := notHashlink_of_http serves.http
  unfold AddressStore.get
  rw [serves.http]
  apply Completes.bind_known (runs_cat_bytes serves)
  simp only [listed]
  unfold expandManifest
  apply Completes.get_bind
  intro machine kept
  have chosen : manifestId (machine.home.map Home.index) uri none = .ok uri := by
    rw [kept.home]
    simp [manifestId, notHl, serves.http, bareHome, find_nothing, Except.bind,
      bind, Option.filter]
  rw [chosen]
  have rest : Runs plan (some bareHome) known held (do
      let manifest_id ← Act.lift (.ok uri)
      Disk.makedirs place
      materialize_tree net manifest_id place)
      (fun _ => Kept plan (some bareHome) known
        (heldTree held place tree)) := by
    apply Completes.bind_known (runs_lift rfl)
    apply Completes.bind
      (Disk.runs_makedirs nonempty reaches.noNul reaches.planned)
    intro _
    unfold materialize_tree
    apply Completes.bind_known (runs_cat_bytes serves)
    apply Completes.bind_known (runs_lift (manifestOf_of_read listed))
    apply Completes.bind
      (Disk.runs_mkdirParents reaches.noNul reaches.planned)
    intro _
    apply (runs_writeEntries reaches accepted distinct).conseq
      (fun _ kept => kept)
    intro _ state after
    exact after.mono (fun _ member => .inl (.inl member))
      (fun _ _ member => member)
  intro state same
  rw [same]
  exact rest machine kept

end Runs

end AddressStore

end Cats
