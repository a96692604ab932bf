import Cats.Python.Lines
import Cats.Raised

/-!
# Healing a stale Plant

Two healers compare the clusters on the host with the Terraform state.  One
deletes a cluster the state does not hold, the other removes from the state the
resources of a cluster that is gone.  Each of the commands they look through
may fail.
-/

namespace Cats

namespace Plant

open Effect

/-- `_KIND_CLUSTER_NAME`. -/
def kindClusterName : String := "cats"

/-- `_KIND_CLUSTER_RESOURCE`. -/
def kindClusterResource : String := "module.plant.kind_cluster.default"

/-- `_KIND_DEPENDENT_RESOURCES`. -/
def kindDependentResources : List String :=
  ["module.plant.helm_release.ray-cluster",
    "module.plant.helm_release.kuberay-operator",
    "module.plant.kubernetes_service.ray_dashboard_nodeport"]

/-- `(*_KIND_DEPENDENT_RESOURCES, _KIND_CLUSTER_RESOURCE)`. -/
def plantResources : List String :=
  kindDependentResources ++ [kindClusterResource]

/-- `f'{cluster_name}-control-plane'`. -/
def controlPlane (cluster_name : String) : String :=
  cluster_name ++ "-control-plane"

/-- The host: the clusters kind lists, the containers there are, each with
whether it runs, and the addresses in the Terraform state. -/
structure Host where
  clusters : List String
  containers : List (String × Bool)
  state : List String
  named : ∀ name ∈ clusters, Text.IsLine name
  addressed : ∀ resource ∈ state, Text.IsLine resource

/-- What was done to a host. -/
inductive Deed where
  | deleteCluster (name : String)
  | stateRm (resources : List String)

/-- A host, and what was done to it, each deed with the host it was done to. -/
structure Site where
  host : Host
  deeds : List (Deed × Host)

abbrev Healing (α : Type) : Type := Effect Raised Site α

/-- `subprocess.CompletedProcess`. -/
structure Proc where
  returncode : Nat
  stdout : String
  stderr : String

/-- The commands that fail while a healer runs, each with the text it ends
with. -/
structure Failures where
  getClusters : Option String
  inspect : Option String
  stateList : Option String
  deleteCluster : Option String
  stateRm : Option String

/-- A command that fails changes nothing. -/
def subproc_run (failure : Option String) (command : Healing String) :
    Healing Proc :=
  match failure with
  | some stderr => pure ⟨1, "", stderr⟩
  | none => do
      let stdout ← command
      return ⟨0, stdout, ""⟩

/-- `kind get clusters`. -/
def getClusters : Healing String := do
  let site ← get
  return String.ofList (Text.printLines site.host.clusters)

/-- What docker answers about a container, from whether it runs; it fails of
itself where there is none. -/
def inspected (failures : Failures) : Option Bool → Healing Proc
  | none => return ⟨1, "", "Error: No such object"⟩
  | some running =>
      subproc_run failures.inspect
        (pure (if running then "true\n" else "false\n"))

/-- `docker inspect -f "{{.State.Running}}" container`. -/
def inspect (failures : Failures) (container : String) : Healing Proc := do
  let site ← get
  inspected failures (site.host.containers.lookup container)

/-- `terraform state list`. -/
def stateList : Healing String := do
  let site ← get
  return String.ofList (Text.printLines site.host.state)

/-- The host without a cluster. -/
def Host.deleteCluster (host : Host) (name : String) : Host where
  clusters := host.clusters.filter (· ≠ name)
  containers := host.containers.filter fun container =>
    container.1 ≠ controlPlane name
  state := host.state
  named other member := host.named other (List.mem_of_mem_filter member)
  addressed := host.addressed

/-- The host whose state lacks the resources. -/
def Host.stateRm (host : Host) (resources : List String) : Host where
  clusters := host.clusters
  containers := host.containers
  state := host.state.filter fun resource => resource ∉ resources
  named := host.named
  addressed resource member :=
    host.addressed resource (List.mem_of_mem_filter member)

/-- `kind delete cluster --name name`. -/
def deleteCluster (name : String) : Healing String := do
  modify fun site => ⟨site.host.deleteCluster name,
    site.deeds ++ [(.deleteCluster name, site.host)]⟩
  return ""

/-- `terraform state rm resources`. -/
def stateRm (resources : List String) : Healing String := do
  modify fun site => ⟨site.host.stateRm resources,
    site.deeds ++ [(.stateRm resources, site.host)]⟩
  return ""

/-- `_kind_cluster_names()`. -/
def kind_cluster_names (failures : Failures) : Healing (List String) := do
  let proc ← subproc_run failures.getClusters getClusters
  if proc.returncode ≠ 0 then return []
  else return Text.strippedLines proc.stdout

/-- `_kind_control_plane_running(cluster_name)`. -/
def kind_control_plane_running (failures : Failures) (cluster_name : String) :
    Healing Bool := do
  let proc ← inspect failures (controlPlane cluster_name)
  if proc.returncode ≠ 0 then return false
  else return Text.lower (Text.strip proc.stdout) = "true"

/-- `_kind_cluster_usable(cluster_name)`. -/
def kind_cluster_usable (failures : Failures) (cluster_name : String) :
    Healing Bool := do
  let names ← kind_cluster_names failures
  if cluster_name ∈ names then kind_control_plane_running failures cluster_name
  else return false

/-- `_delete_kind_cluster(cluster_name)`. -/
def delete_kind_cluster (failures : Failures) (cluster_name : String) :
    Healing Unit := do
  let proc ← subproc_run failures.deleteCluster (deleteCluster cluster_name)
  if proc.returncode ≠ 0 then
    throw (.runtimeError s!"Failed to delete kind cluster \"{cluster_name}\": {Text.strip proc.stderr}")
  else return ()

/-- `_terraform_state_resources(terraform_bin, structure_home)`. -/
def terraform_state_resources (failures : Failures) :
    Healing (List String) := do
  let proc ← subproc_run failures.stateList stateList
  if proc.returncode ≠ 0 then return []
  else return Text.strippedLines proc.stdout

def cleanup_orphan_kind_cluster (failures : Failures) : Healing Unit := do
  let usable ← kind_cluster_usable failures kindClusterName
  if !usable then return ()
  else
    let state ← terraform_state_resources failures
    if kindClusterResource ∈ state then return ()
    else delete_kind_cluster failures kindClusterName

/-- The last part of `cleanup_stale_kind_cluster_state`. -/
def removeStaleResources (failures : Failures) (state : List String) :
    Healing Unit := do
  let stale_resources := plantResources.filter (· ∈ state)
  if stale_resources = [] then return ()
  else
    let proc ← subproc_run failures.stateRm (stateRm stale_resources)
    if proc.returncode ≠ 0 then
      throw (.runtimeError s!"Failed to remove stale Terraform state for \"{kindClusterName}\": {Text.strip proc.stderr}")
    else return ()

def cleanup_stale_kind_cluster_state (failures : Failures) :
    Healing Unit := do
  let state ← terraform_state_resources failures
  let clusters ← kind_cluster_names failures
  let listed := decide (kindClusterName ∈ clusters)
  let usable ←
    if listed then kind_control_plane_running failures kindClusterName
    else pure false
  if usable then return ()
  else
    if listed && !usable then delete_kind_cluster failures kindClusterName
    removeStaleResources failures state

/-- `cleanup_stale_plant_state`, with what fails while each of its healers
runs. -/
def cleanup_stale_plant_state (orphan stale : Failures) : Healing Unit := do
  cleanup_orphan_kind_cluster orphan
  cleanup_stale_kind_cluster_state stale

end Plant

end Cats
