import Cats.Ldp.Kept
import Cats.Mesh.Link
import Cats.Posix.Contained

/-!
# Linking keeps the blobs

No step of a link operation takes a blob away: what was minted early in a run
is there at its end.
-/

namespace Cats

open Effect

section Reading

variable (net : Network)

theorem adds_slotId (doc : Json) (stem : String) :
    Adds (ContentMesh.slotId doc stem) :=
  adds_bind (adds_lift _) fun _ => adds_withIndex _

theorem adds_required (missing : String) (id : Option String) :
    Adds (ContentMesh.required missing id) := by
  unfold ContentMesh.required
  cases id.filter (· ≠ "") with
  | some id => exact adds_pure id
  | none => exact adds_throw _

theorem adds_slotLocator (doc : Json) (stem missing : String) :
    Adds (ContentMesh.slotLocator doc stem missing) := by
  apply adds_bind (adds_lift _)
  intro fields
  cases ref_uri fields stem with
  | some uri => exact adds_pure uri
  | none =>
      apply adds_bind (adds_slotId doc stem)
      intro id
      exact adds_required missing id

theorem adds_cat_bytes (content_id : String) (expect : Option String) :
    Adds (AddressStore.cat_bytes net content_id expect) :=
  adds_of_reads (AddressStore.reads_cat_bytes net content_id expect)

theorem adds_catDocument (content_id : String) :
    Adds (ContentMesh.catDocument net content_id) :=
  adds_bind (adds_cat_bytes net content_id none) fun _ => adds_lift _

theorem adds_fetchKey (token : String) : Adds (BomRead.fetchKey token) :=
  adds_bind adds_get fun _ => adds_lift _

theorem adds_make_fetch (token : String) : Adds (BomRead.make_fetch net token) :=
  adds_bind (adds_fetchKey token) fun key => adds_catDocument net key

theorem adds_fetch_bytes (token : String) :
    Adds (BomRead.fetch_bytes net token) :=
  adds_bind (adds_fetchKey token) fun key => adds_cat_bytes net key none

theorem adds_stemToken (fields : Fields) (stem : String) :
    Adds (BomRead.stemToken (.obj fields) stem) := by
  unfold BomRead.stemToken
  cases BomRead.stem_uri (.obj fields) stem with
  | some uri => exact adds_pure _
  | none =>
      have read : Adds (BomRead.stem_id (.obj fields) stem) := by
        unfold BomRead.stem_id
        exact adds_withIndex _
      exact adds_bind read fun _ => adds_pure _

end Reading

namespace Ebom

variable (mesh : Projector)

theorem adds_put_projection (obj : Json) (media_type : String) :
    Adds (put_projection mesh obj media_type) :=
  adds_put_bytes _ _ _

theorem adds_uv_lock_from_manifests (manifests : List Json) :
    Adds (uv_lock_from_manifests mesh manifests) := by
  induction manifests with
  | nil => exact adds_pure []
  | cons manifest manifests induction =>
      unfold uv_lock_from_manifests
      split
      · exact induction
      · split
        · split_ifs
          · exact induction
          · apply adds_tryCatch _ fun _ => adds_pure []
            exact adds_bind (adds_fetch_bytes mesh.net _) fun _ => adds_lift _
        · exact induction

theorem adds_sourceTrees (doc : Fields) (stems : List (String × String)) :
    Adds (sourceTrees mesh doc stems) := by
  induction stems with
  | nil => exact adds_pure []
  | cons stem stems induction =>
      apply adds_bind (adds_stemToken doc stem.1)
      intro token
      cases token with
      | none => exact induction
      | some token =>
          apply adds_bind (adds_make_fetch mesh.net token)
          intro payload
          apply adds_bind induction
          intro rest
          cases payload <;> exact adds_pure _

theorem adds_project_function_source (function : Fields)
    (function_id : String) :
    Adds (project_function_source mesh function function_id) := by
  apply adds_bind (adds_lift _)
  intro subject
  apply adds_bind (adds_sourceTrees mesh function _)
  intro trees
  apply adds_bind (adds_uv_lock_from_manifests mesh _)
  intro pypi
  apply adds_bind (adds_lift _)
  intro doc
  exact adds_put_projection mesh doc mediaLinked

theorem adds_project_structure_source (pairing : Fields)
    (structure_id : String) :
    Adds (project_structure_source mesh pairing structure_id) := by
  apply adds_bind (adds_lift _)
  intro subject
  apply adds_bind (adds_sourceTrees mesh pairing _)
  intro trees
  apply adds_bind (adds_lift _)
  intro doc
  exact adds_put_projection mesh doc mediaLinked

theorem adds_promised (data_id : String) : Adds (promised mesh data_id) := by
  apply Relates.ite
  · intro _
    apply adds_bind (adds_lift _)
    intro subject
    apply adds_bind (adds_lift _)
    intro contract
    exact adds_bind (adds_put_projection mesh _ _) fun _ => adds_pure _
  · exact fun _ => adds_pure none

theorem adds_project_input_data (data_id : String)
    (conforms_to : Option String) :
    Adds (project_input_data mesh data_id conforms_to) := by
  apply adds_bind (adds_lift _)
  intro subject
  apply adds_bind (adds_lift _)
  intro dcat
  apply adds_bind (adds_lift _)
  intro spdx
  apply adds_bind (adds_put_projection mesh dcat _)
  intro data_dcat
  exact adds_bind (adds_put_projection mesh spdx _) fun _ => adds_pure _

theorem adds_put_input_data_sbom_nest (data_dcat data_spdx : String) :
    Adds (put_input_data_sbom_nest mesh data_dcat data_spdx) := by
  apply Relates.ite
  · exact fun _ => adds_throw _
  · intro _
    apply Relates.ite
    · exact fun _ => adds_throw _
    · intro _
      apply adds_bind (adds_lift _)
      intro first
      apply adds_bind (adds_lift _)
      intro second
      exact adds_put_json _ _

theorem adds_attach_ebom_stems (cats_sbom : Option String) (order : Fields)
    (sources : Sources) :
    Adds (attach_ebom_stems mesh cats_sbom order sources) := by
  apply Relates.ite
  · intro _
    apply adds_bind (adds_project_function_source mesh _ _)
    intro function_spdx
    apply adds_bind (adds_project_structure_source mesh _ _)
    intro structure_spdx
    apply adds_bind (adds_promised mesh _)
    intro conforms_to
    apply adds_bind (adds_project_input_data mesh _ _)
    intro lots
    apply adds_bind (adds_put_input_data_sbom_nest mesh _ _)
    intro nest_id
    apply adds_bind (adds_lift _)
    intro _
    apply adds_bind (adds_lift _)
    intro _
    apply adds_bind (adds_lift _)
    intro _
    exact adds_pure _
  · exact fun _ => adds_pure order

end Ebom

namespace Link

variable (mesh : Mesh)

section Trees

theorem adds_put_tree (directory : String) (ignore : String → Bool) :
    Adds (put_tree mesh directory ignore) := by
  intro machine
  unfold put_tree
  cases local_home : machine.home with
  | none =>
      have raised : Transport.localHome machine =
          .error (.runtimeError "CATS_HOME is required") machine := by
        unfold Transport.localHome
        rw [bind_run_ok (get_run machine), local_home]
        rfl
      rw [bind_run_error raised]
      exact .refl machine
  | some home =>
      have found : Transport.localHome machine = .ok home machine := by
        unfold Transport.localHome
        rw [bind_run_ok (get_run machine), local_home]
        rfl
      rw [bind_run_ok found, bind_run_ok (get_run machine)]
      split_ifs
      · exact .refl machine
      · cases put : Cats.put_tree home.cas
            (mesh.walk machine (Posix.resolve directory)) ignore with
        | error raised =>
            rw [bind_run_error (show Act.lift (.error raised) machine =
              .error raised machine from rfl)]
            exact .refl machine
        | ok pair =>
            rw [bind_run_ok (show Act.lift (.ok pair) machine =
              .ok pair machine from rfl)]
            cases indexed : home.index.put_cas_node_locator pair.1
                mesh.base_url (some "application/json") with
            | error raised =>
                rw [bind_run_error (show Act.lift (.error raised) machine =
                  .error raised machine from rfl)]
                exact .refl machine
            | ok index =>
                rw [bind_run_ok (show Act.lift (.ok index) machine =
                  .ok index machine from rfl), bind_run_ok (modify_run _ _)]
                intro digest blob held
                unfold Machine.blob? at held
                rw [local_home] at held
                exact put_tree_keeps put held

theorem adds_copy2 (src dst : String) : Adds (Packaging.copy2 src dst) := by
  unfold Packaging.copy2
  apply adds_bind adds_get
  intro machine
  apply adds_bind (adds_of_reads (Disk.reads_readFile src))
  intro data
  apply Relates.ite
  · exact fun _ => adds_throw _
  · exact fun _ => Disk.adds_writeFile _ data

theorem adds_stageRootFiles (structure_filepath staging_dir : String)
    (names : List String) :
    Adds (stageRootFiles structure_filepath staging_dir names) := by
  induction names with
  | nil => exact adds_pure []
  | cons name names induction =>
      unfold stageRootFiles
      apply adds_bind adds_get
      intro machine
      apply Relates.ite
      · intro _
        apply adds_bind (adds_copy2 _ _)
        intro _
        exact induction
      · intro _
        apply adds_bind induction
        intro missing
        exact adds_pure _

theorem adds_stage_structure_root (structure_filepath parent : String) :
    Adds (stage_structure_root structure_filepath parent) := by
  apply adds_bind (adds_of_fileless (Disk.fileless_makedirs _))
  intro _
  apply adds_bind (adds_stageRootFiles _ _ _)
  intro missing
  apply Relates.ite
  · exact fun _ => adds_pure _
  · intro _
    exact adds_bind (Disk.adds_rmtree parent) fun _ => adds_throw _

theorem adds_putRoot (structure_filepath : String) :
    Adds (putRoot mesh structure_filepath) := by
  apply adds_bind (Disk.adds_mkdtemp _)
  intro _
  apply adds_bind
  · apply adds_tryCatch
    · exact adds_bind (adds_stage_structure_root _ _)
        fun _ => adds_put_tree mesh _ _
    · intro raised
      exact adds_bind (Disk.adds_rmtree _) fun _ => adds_throw raised
  · intro root_id
    exact adds_bind (Disk.adds_rmtree _) fun _ => adds_pure root_id

theorem adds_structure_pairing (structure_filepath : String) :
    Adds (structure_pairing mesh structure_filepath) := by
  apply adds_bind (adds_putRoot mesh _)
  intro root_id
  apply adds_bind (adds_put_tree mesh _ _)
  intro plant_id
  apply adds_bind (adds_put_tree mesh _ _)
  intro infrastructure_id
  exact adds_lift _

end Trees

section Function

theorem adds_bind_subproc (obj : Callable) (source_id : String) :
    Adds (bind_subproc mesh obj source_id) := by
  apply Relates.ite
  · exact fun _ => adds_bind (adds_lift _) fun _ => adds_put_json _ _
  · exact fun _ => adds_put_bytes _ _ _

theorem adds_cat_stem (obj : Json) (stem : String) :
    Adds (cat_stem mesh obj stem) :=
  adds_bind (adds_slotLocator obj stem _) fun _ => adds_catDocument mesh.net _

theorem adds_slotContent (owner source_id : String) (prior : Json)
    (stem : String) (replacement : Option Callable) :
    Adds (slotContent mesh owner source_id prior stem replacement) := by
  cases replacement with
  | some obj => exact adds_bind_subproc mesh obj source_id
  | none => exact adds_bind (adds_slotId prior stem) fun _ => adds_required _ _

theorem adds_rebuildSlots (owner source_id : String) (prior : Json)
    (slots : List (String × Option Callable)) (obj : Fields) :
    Adds (rebuildSlots mesh owner source_id prior slots obj) := by
  induction slots generalizing obj with
  | nil => exact adds_pure obj
  | cons slot slots induction =>
      apply adds_bind (adds_slotContent mesh owner source_id prior slot.1 slot.2)
      intro content_id
      exact adds_bind (adds_lift _) fun pair => induction pair.2

theorem adds_sourceIds (prev_function : Json) :
    Adds (sourceIds prev_function) := by
  apply adds_bind (adds_slotId _ _)
  intro process_source
  apply adds_bind (adds_slotId _ _)
  intro infrafunction_source
  apply adds_bind (adds_required _ _)
  intro process_source_id
  exact adds_bind (adds_required _ _) fun _ => adds_pure _

theorem adds_rebuild_function (prev_function : Json) (slots : Slots) :
    Adds (rebuild_function mesh prev_function slots) := by
  apply adds_bind (adds_sourceIds _)
  intro sources
  apply adds_bind (adds_cat_stem mesh _ _)
  intro prev_process
  apply adds_bind (adds_cat_stem mesh _ _)
  intro prev_infrafunction
  apply adds_bind (adds_rebuildSlots mesh _ _ _ _ _)
  intro process
  apply adds_bind (adds_rebuildSlots mesh _ _ _ _ _)
  intro infrafunction
  apply adds_bind (adds_put_json _ _)
  intro process_id
  apply adds_bind (adds_lift _)
  intro function
  apply adds_bind (adds_put_json _ _)
  intro infrafunction_id
  apply adds_bind (adds_lift _)
  intro function
  exact adds_put_json _ _

theorem adds_nextFunction (order : Fields) (slots : Slots)
    (function_id : String) :
    Adds (nextFunction mesh order slots function_id) := by
  apply Relates.ite
  · exact fun _ => adds_bind (adds_lift _) fun _ => adds_rebuild_function mesh _ _
  · exact fun _ => adds_pure _

end Function

section Pairing

theorem adds_priorIds (prev_structure : Json) (stems : List String) :
    Adds (priorIds prev_structure stems) := by
  induction stems with
  | nil => exact adds_pure []
  | cons stem stems induction =>
      apply adds_bind (adds_slotId prev_structure stem)
      intro found
      apply adds_bind (adds_required _ found)
      intro id
      exact adds_bind induction fun _ => adds_pure _

theorem adds_startPairing (prev_ids : List String)
    (structure_filepath : Option String) :
    Adds (startPairing mesh prev_ids structure_filepath) := by
  cases structure_filepath with
  | some structure_filepath => exact adds_structure_pairing mesh _
  | none => exact adds_lift _

theorem adds_respell (stems : List String) (pairing : Fields) :
    Adds (respell mesh stems pairing) := by
  induction stems generalizing pairing with
  | nil => exact adds_pure pairing
  | cons stem stems induction =>
      apply adds_bind (adds_slotId (.obj pairing) stem)
      intro current
      cases current.filter (· ≠ "") with
      | none => exact induction pairing
      | some id => exact adds_bind (adds_lift _) fun pair => induction pair.2

theorem adds_stemIds (pairing : Json) (stems : List String) :
    Adds (stemIds pairing stems) := by
  induction stems with
  | nil => exact adds_pure []
  | cons stem stems induction =>
      apply adds_bind (adds_slotId pairing stem)
      intro id
      exact adds_bind induction fun _ => adds_pure _

theorem adds_resolve_structure_pairing (prev_structure : Json)
    (change : Change) :
    Adds (resolve_structure_pairing mesh prev_structure change) := by
  apply adds_bind (adds_priorIds prev_structure pairingStems)
  intro prev_ids
  apply Relates.ite
  · intro _
    apply adds_bind (adds_startPairing mesh prev_ids _)
    intro pairing
    apply adds_bind (adds_respell mesh pairingStems pairing)
    intro pairing
    apply adds_bind (adds_lift _)
    intro pairing
    apply adds_bind (adds_stemIds _ pairingStems)
    intro new_ids
    apply Relates.ite
    · exact fun _ => adds_throw _
    · exact fun _ => adds_pure _
  · exact fun _ => adds_throw _

end Pairing

section Requests

theorem adds_catFields (content_id : String) :
    Adds (catFields mesh content_id) := by
  apply adds_bind
  · exact adds_tryCatch (adds_catDocument mesh.net content_id)
      fun _ => adds_pure _
  · intro obj
    cases obj <;> exact adds_pure _

theorem adds_publish (invoice_id : String) (invoice : Fields)
    (order_id : String) (order : Fields) :
    Adds (publish mesh invoice_id invoice order_id order) := by
  apply adds_bind (adds_putResource _ _ _)
  intro _
  apply adds_bind (adds_putResource _ _ _)
  intro _
  apply adds_bind (adds_lift _)
  intro invoice_uri
  apply adds_bind (adds_lift _)
  intro order_uri
  apply adds_bind (adds_registerLocator _ _ _)
  intro _
  exact adds_bind (adds_registerLocator _ _ _) fun _ => adds_pure _

theorem adds_order_request_from_prior (order : Fields)
    (function_id structure_id data_id : String) (structure_filepath : Json) :
    Adds (order_request_from_prior mesh order function_id structure_id data_id
      structure_filepath) := by
  apply adds_bind (adds_lift _)
  intro invoice
  apply adds_bind (adds_put_json _ _)
  intro invoice_id
  apply adds_bind (adds_lift _)
  intro order
  apply adds_bind (adds_catFields mesh _)
  intro function
  apply adds_bind (adds_catFields mesh _)
  intro pairing
  apply adds_bind (Ebom.adds_attach_ebom_stems _ _ _ _)
  intro order
  apply adds_bind (adds_put_json _ _)
  intro order_id
  exact adds_publish mesh _ _ _ _

theorem adds_nextStructure (order : Fields) (change : Change)
    (structure_id : String) :
    Adds (nextStructure mesh order change structure_id) := by
  apply Relates.ite
  · intro _
    apply adds_bind (adds_lift _)
    intro prev_structure
    apply adds_bind (adds_resolve_structure_pairing mesh _ _)
    intro pairing
    apply adds_bind (adds_put_json _ _)
    intro structure_id
    exact adds_bind (adds_lift _) fun _ => adds_pure _
  · exact fun _ => adds_pure _

end Requests

end Link

end Cats
