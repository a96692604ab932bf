import Cats.Plant.StaleState
import Mathlib.Data.Bool.AllAny

/-!
# When healing a Plant is sound

Healing leaves a usable cluster that the state holds, or no trace of the Plant
in the state.  It destroys a live Plant only where a probe failed and its empty
answer was taken for an absence; which failures those are is stated exactly.
-/

namespace Cats

namespace Plant

open Effect

/-- The control plane of a cluster runs. -/
def Host.Runs (host : Host) (cluster_name : String) : Prop :=
  host.containers.lookup (controlPlane cluster_name) = some true

/-- The Plant cluster is listed, and its control plane runs. -/
def Host.Usable (host : Host) : Prop :=
  kindClusterName ∈ host.clusters ∧ host.Runs kindClusterName

/-- The Terraform state holds the Plant cluster. -/
def Host.Managed (host : Host) : Prop := kindClusterResource ∈ host.state

instance (host : Host) (cluster_name : String) :
    Decidable (host.Runs cluster_name) :=
  inferInstanceAs (Decidable (_ = _))

instance (host : Host) : Decidable host.Usable :=
  inferInstanceAs (Decidable (_ ∧ _))

instance (host : Host) : Decidable host.Managed :=
  inferInstanceAs (Decidable (_ ∈ _))

/-- The clusters a healer sees. -/
def Failures.clusters (failures : Failures) (host : Host) : List String :=
  if failures.getClusters = none then host.clusters else []

/-- The state a healer sees. -/
def Failures.state (failures : Failures) (host : Host) : List String :=
  if failures.stateList = none then host.state else []

/-- Whether a healer sees that the control plane runs. -/
def Failures.running (failures : Failures) (host : Host)
    (cluster_name : String) : Bool :=
  decide (failures.inspect = none ∧ host.Runs cluster_name)

/-- Whether a healer sees that the Plant cluster is usable. -/
def Failures.usable (failures : Failures) (host : Host) : Bool :=
  decide (kindClusterName ∈ failures.clusters host) &&
    failures.running host kindClusterName

section Looking

variable (failures : Failures) (site : Site)

theorem subproc_run_ok {command : Healing String} {stdout : String}
    {site after : Site} (ran : command site = .ok stdout after) :
    subproc_run none command site = .ok ⟨0, stdout, ""⟩ after := by
  rw [subproc_run, bind_run_ok ran]
  rfl

theorem kind_cluster_names_run :
    kind_cluster_names failures site =
      .ok (failures.clusters site.host) site := by
  unfold kind_cluster_names Failures.clusters
  cases failures.getClusters with
  | some stderr => rfl
  | none =>
      have printed : getClusters site = .ok
        (String.ofList (Text.printLines site.host.clusters)) site := rfl
      rw [bind_run_ok (subproc_run_ok printed)]
      simp [Text.strippedLines_printLines site.host.named]

theorem terraform_state_resources_run :
    terraform_state_resources failures site =
      .ok (failures.state site.host) site := by
  unfold terraform_state_resources Failures.state
  cases failures.stateList with
  | some stderr => rfl
  | none =>
      have printed : stateList site = .ok
        (String.ofList (Text.printLines site.host.state)) site := rfl
      rw [bind_run_ok (subproc_run_ok printed)]
      simp [Text.strippedLines_printLines site.host.addressed]

theorem inspect_run (container : String) :
    inspect failures container site =
      inspected failures (site.host.containers.lookup container) site := rfl

theorem kind_control_plane_running_run (cluster_name : String) :
    kind_control_plane_running failures cluster_name site =
      .ok (failures.running site.host cluster_name) site := by
  have answer := inspect_run failures site (controlPlane cluster_name)
  cases found : site.host.containers.lookup (controlPlane cluster_name) with
  | none =>
      rw [found] at answer
      rw [kind_control_plane_running, bind_run_ok answer]
      simp [Failures.running, Host.Runs, found]
  | some running =>
      rw [found, inspected] at answer
      cases failed : failures.inspect with
      | some stderr =>
          rw [failed] at answer
          rw [kind_control_plane_running, bind_run_ok answer]
          simp [Failures.running, Host.Runs, found, failed]
      | none =>
          rw [failed] at answer
          rw [kind_control_plane_running,
            bind_run_ok (answer.trans (subproc_run_ok rfl))]
          cases running with
          | true =>
              have read : Text.lower (Text.strip "true\n") = "true" := by decide
              simp [Failures.running, Host.Runs, found, failed, read]
          | false =>
              have read : Text.lower (Text.strip "false\n") ≠ "true" := by
                decide
              simp [Failures.running, Host.Runs, found, failed, read]

theorem kind_cluster_usable_run :
    kind_cluster_usable failures kindClusterName site =
      .ok (failures.usable site.host) site := by
  rw [kind_cluster_usable, bind_run_ok (kind_cluster_names_run failures site)]
  unfold Failures.usable
  by_cases listed : kindClusterName ∈ failures.clusters site.host
  · rw [if_pos listed, kind_control_plane_running_run]
    simp [listed]
  · rw [if_neg listed]
    simp [listed]

end Looking

/-- The site after a cluster was deleted. -/
def Site.deleteCluster (site : Site) (name : String) : Site :=
  ⟨site.host.deleteCluster name,
    site.deeds ++ [(.deleteCluster name, site.host)]⟩

/-- The site after resources were removed from the state. -/
def Site.stateRm (site : Site) (resources : List String) : Site :=
  ⟨site.host.stateRm resources,
    site.deeds ++ [(.stateRm resources, site.host)]⟩

/-- The resources of the Plant that a healer finds in the state. -/
def Failures.staleResources (failures : Failures) (host : Host) :
    List String :=
  plantResources.filter (· ∈ failures.state host)

section Healers

variable (failures : Failures) (site : Site)

theorem delete_kind_cluster_run (cluster_name : String) :
    (∃ error, failures.deleteCluster ≠ none ∧
      delete_kind_cluster failures cluster_name site = .error error site) ∨
    (failures.deleteCluster = none ∧
      delete_kind_cluster failures cluster_name site =
        .ok () (site.deleteCluster cluster_name)) := by
  unfold delete_kind_cluster
  cases failures.deleteCluster with
  | some stderr =>
      left
      exact ⟨_, by simp, rfl⟩
  | none =>
      right
      have deleted : deleteCluster cluster_name site =
        .ok "" (site.deleteCluster cluster_name) := rfl
      rw [bind_run_ok (subproc_run_ok deleted)]
      exact ⟨rfl, rfl⟩

theorem removeStaleResources_run (state : List String) :
    (plantResources.filter (· ∈ state) = [] ∧
      removeStaleResources failures state site = .ok () site) ∨
    (∃ error, failures.stateRm ≠ none ∧
      removeStaleResources failures state site = .error error site) ∨
    (plantResources.filter (· ∈ state) ≠ [] ∧ failures.stateRm = none ∧
      removeStaleResources failures state site =
        .ok () (site.stateRm (plantResources.filter (· ∈ state)))) := by
  unfold removeStaleResources
  by_cases nothing : plantResources.filter (· ∈ state) = []
  · left
    exact ⟨nothing, by simp [nothing]⟩
  · right
    simp only [if_neg nothing]
    cases failures.stateRm with
    | some stderr =>
        left
        exact ⟨_, by simp, rfl⟩
    | none =>
        right
        have removed : stateRm (plantResources.filter (· ∈ state)) site =
          .ok "" (site.stateRm (plantResources.filter (· ∈ state))) := rfl
        rw [bind_run_ok (subproc_run_ok removed)]
        exact ⟨nothing, rfl, rfl⟩

theorem cleanup_orphan_kind_cluster_run :
    cleanup_orphan_kind_cluster failures site =
      if failures.usable site.host = true ∧
          kindClusterResource ∉ failures.state site.host then
        delete_kind_cluster failures kindClusterName site
      else .ok () site := by
  rw [cleanup_orphan_kind_cluster,
    bind_run_ok (kind_cluster_usable_run failures site)]
  cases usable : failures.usable site.host with
  | false => simp
  | true =>
      simp only [Bool.not_true, Bool.false_eq_true, if_false, true_and]
      rw [bind_run_ok (terraform_state_resources_run failures site)]
      by_cases managed : kindClusterResource ∈ failures.state site.host
      · simp [managed]
      · simp [managed]

theorem cleanup_stale_kind_cluster_state_run :
    cleanup_stale_kind_cluster_state failures site =
      if failures.usable site.host = true then .ok () site
      else if kindClusterName ∈ failures.clusters site.host then
        (delete_kind_cluster failures kindClusterName >>= fun _ =>
          removeStaleResources failures (failures.state site.host)) site
      else
        removeStaleResources failures (failures.state site.host) site := by
  rw [cleanup_stale_kind_cluster_state,
    bind_run_ok (terraform_state_resources_run failures site),
    bind_run_ok (kind_cluster_names_run failures site)]
  by_cases listed : kindClusterName ∈ failures.clusters site.host
  · simp only [listed, decide_true, if_true]
    rw [bind_run_ok (kind_control_plane_running_run failures site _)]
    cases running : failures.running site.host kindClusterName with
    | true => simp [Failures.usable, listed, running]
    | false => simp [Failures.usable, listed, running]
  · simp only [listed, decide_false, Bool.false_eq_true, if_false]
    simp [Failures.usable, listed]

end Healers

/-- A deed that destroys nothing live: a running cluster is deleted only where
the state does not hold it, and resources are removed only where the cluster is
absent or stopped. -/
def Deed.Warranted : Deed → Host → Prop
  | .deleteCluster name, host => host.Runs name → ¬ host.Managed
  | .stateRm _, host => ¬ host.Usable

/-- Everything done to a site was warranted. -/
def Site.Warranted (site : Site) : Prop :=
  ∀ deed ∈ site.deeds, deed.1.Warranted deed.2

/-- The failures that cannot make the second healer destroy a live Plant: where
the clusters are listed, docker answers or there is nothing to lose; where they
are not, there are no resources to remove. -/
def Failures.SparesPlant (failures : Failures) (host : Host) : Prop :=
  if failures.getClusters = none then
    failures.inspect ≠ none → host.Managed → failures.deleteCluster ≠ none
  else
    failures.stateList = none →
      (∃ resource ∈ plantResources, resource ∈ host.state) →
        failures.stateRm ≠ none

/-- A healer takes a live cluster for an orphan. -/
def Failures.SeesOrphan (failures : Failures) (host : Host) : Prop :=
  failures.getClusters = none ∧ failures.inspect = none ∧
    (failures.stateList = none → ¬ host.Managed)

instance (failures : Failures) (host : Host) :
    Decidable (failures.SeesOrphan host) :=
  inferInstanceAs (Decidable (_ ∧ _ ∧ (_ → _)))

/-- No failure makes the healers destroy a live Plant. -/
def SparesPlant (orphan stale : Failures) (host : Host) : Prop :=
  host.Usable →
    if orphan.SeesOrphan host then
      host.Managed → orphan.deleteCluster ≠ none
    else stale.SparesPlant host

namespace Site

theorem warranted_append {site : Site} {host before : Host}
    {deed : Deed} :
    (⟨host, site.deeds ++ [(deed, before)]⟩ : Site).Warranted ↔
      site.Warranted ∧ deed.Warranted before := by
  simp [Warranted, or_imp, forall_and]

theorem warranted_deleteCluster {site : Site} {name : String} :
    (site.deleteCluster name).Warranted ↔
      site.Warranted ∧ (site.host.Runs name → ¬ site.host.Managed) :=
  warranted_append

theorem warranted_stateRm {site : Site} {resources : List String} :
    (site.stateRm resources).Warranted ↔
      site.Warranted ∧ ¬ site.host.Usable :=
  warranted_append

/-- A deleted cluster is not listed. -/
theorem not_listed_deleteCluster (site : Site) :
    kindClusterName ∉ (site.deleteCluster kindClusterName).host.clusters := by
  intro listed
  have kept := (List.mem_filter.mp listed).2
  simp at kept

theorem not_usable_deleteCluster (site : Site) :
    ¬ (site.deleteCluster kindClusterName).host.Usable :=
  fun usable => site.not_listed_deleteCluster usable.1

end Site

theorem usable_iff {failures : Failures} {host : Host} :
    failures.usable host = true ↔
      failures.getClusters = none ∧ host.Usable ∧ failures.inspect = none := by
  unfold Failures.usable Failures.running Failures.clusters
  by_cases seen : failures.getClusters = none
  · simp [seen, Host.Usable]
    tauto
  · simp [seen]

section Warranted

variable (failures : Failures) (site : Site)

theorem removeStaleResources_warranted_iff (state : List String) :
    (final (removeStaleResources failures state site)).Warranted ↔
      site.Warranted ∧ ((∃ resource ∈ plantResources, resource ∈ state) →
        failures.stateRm = none → ¬ site.host.Usable) := by
  have found : plantResources.filter (· ∈ state) ≠ [] ↔
      ∃ resource ∈ plantResources, resource ∈ state := by
    simp [List.filter_eq_nil_iff]
  obtain ⟨nothing, ran⟩ | ⟨error, failed, ran⟩ | ⟨some, removed, ran⟩ :=
    removeStaleResources_run failures site state
  · rw [ran, final_ok, ← found]
    simp [nothing]
  · rw [ran, final_error]
    simp [failed]
  · rw [ran, final_ok, Site.warranted_stateRm]
    simp [found.mp some, removed]

/-- What the second healer does to a site is warranted unless a failure makes it
destroy a live Plant. -/
theorem cleanup_stale_kind_cluster_state_warranted_iff :
    (final (cleanup_stale_kind_cluster_state failures site)).Warranted ↔
      site.Warranted ∧ (site.host.Usable → failures.SparesPlant site.host) := by
  rw [cleanup_stale_kind_cluster_state_run]
  by_cases usable : failures.usable site.host = true
  · rw [if_pos usable, final_ok]
    obtain ⟨seen, live, answered⟩ := usable_iff.mp usable
    simp [Failures.SparesPlant, seen, answered]
  rw [if_neg usable]
  by_cases seen : failures.getClusters = none
  · by_cases listed : kindClusterName ∈ site.host.clusters
    · rw [if_pos (by simp [Failures.clusters, seen, listed])]
      have blind : site.host.Usable → failures.inspect ≠ none := by
        intro live answered
        exact usable (usable_iff.mpr ⟨seen, live, answered⟩)
      obtain ⟨error, failed, ran⟩ | ⟨deleted, ran⟩ :=
        delete_kind_cluster_run failures site kindClusterName
      · rw [bind_run_error ran, final_error]
        simp [Failures.SparesPlant, seen, failed]
      · rw [bind_run_ok ran, removeStaleResources_warranted_iff,
          Site.warranted_deleteCluster]
        have gone := site.not_usable_deleteCluster
        have usableIff : site.host.Usable ↔ site.host.Runs kindClusterName :=
          ⟨And.right, And.intro listed⟩
        simp [Failures.SparesPlant, seen, deleted, gone, ← usableIff]
        grind
    · rw [if_neg (by simp [Failures.clusters, seen, listed]),
        removeStaleResources_warranted_iff]
      have absent : ¬ site.host.Usable := fun live => listed live.1
      simp [absent]
  · rw [if_neg (by simp [Failures.clusters, seen]),
      removeStaleResources_warranted_iff]
    cases listed : failures.stateList with
    | some stderr => simp [Failures.SparesPlant, Failures.state, seen, listed]
    | none =>
        simp only [Failures.SparesPlant, Failures.state, seen, listed,
          if_true, if_false, true_implies]
        grind

end Warranted

/-- Every probe of a healer succeeds. -/
structure Failures.Probes (failures : Failures) : Prop where
  getClusters : failures.getClusters = none
  inspect : failures.inspect = none
  stateList : failures.stateList = none

/-- A host with nothing to heal. -/
structure Host.Settled (host : Host) : Prop where
  usable : host.Usable ↔ host.Managed
  cleared : ¬ host.Usable → ∀ resource ∈ plantResources,
    resource ∉ host.state
  gone : ¬ host.Usable → kindClusterName ∉ host.clusters

/-- What healing leaves of a host. -/
structure Host.Healed (before after : Host) : Prop where
  settled : after.Settled
  others : after.state.filter (· ∉ plantResources) =
    before.state.filter (· ∉ plantResources)

/-- Where every probe succeeds, healing returns unless a deletion fails, and
once it has returned there is nothing left to heal. -/
def Converges (orphan stale : Failures) (host : Host) : Prop :=
  orphan.Probes → stale.Probes →
    (orphan.deleteCluster = none → stale.deleteCluster = none →
      stale.stateRm = none → ∃ after,
        cleanup_stale_plant_state orphan stale ⟨host, []⟩ = .ok () after) ∧
    ∀ after, cleanup_stale_plant_state orphan stale ⟨host, []⟩ =
        .ok () after →
      host.Healed after.host ∧ ∀ orphan' stale' : Failures,
        orphan'.Probes → stale'.Probes →
          cleanup_stale_plant_state orphan' stale' after = .ok () after

/-- Whatever fails, only what is stale is destroyed. -/
def DestroysOnlyStale (orphan stale : Failures) (host : Host) : Prop :=
  (final (cleanup_stale_plant_state orphan stale ⟨host, []⟩)).Warranted

theorem destroysOnlyStale_iff (orphan stale : Failures) (host : Host) :
    DestroysOnlyStale orphan stale host ↔ SparesPlant orphan stale host := by
  have start : (⟨host, []⟩ : Site).Warranted := by simp [Site.Warranted]
  have sees : orphan.usable host = true ∧
      kindClusterResource ∉ orphan.state host ↔
        host.Usable ∧ orphan.SeesOrphan host := by
    rw [usable_iff]
    unfold Failures.SeesOrphan Failures.state Host.Managed
    by_cases listed : orphan.stateList = none
    · simp [listed]
      tauto
    · simp [listed]
      tauto
  unfold DestroysOnlyStale SparesPlant cleanup_stale_plant_state
  have ran := cleanup_orphan_kind_cluster_run orphan ⟨host, []⟩
  by_cases orphaned : host.Usable ∧ orphan.SeesOrphan host
  · rw [if_pos (sees.mpr orphaned)] at ran
    obtain ⟨error, failed, deletion⟩ | ⟨deleted, deletion⟩ :=
      delete_kind_cluster_run orphan ⟨host, []⟩ kindClusterName
    · rw [bind_run_error (ran.trans deletion), final_error]
      simp [start, orphaned.2, failed]
    · rw [bind_run_ok (ran.trans deletion),
        cleanup_stale_kind_cluster_state_warranted_iff,
        Site.warranted_deleteCluster]
      have gone := Site.not_usable_deleteCluster ⟨host, []⟩
      simp [start, gone, orphaned, deleted, orphaned.1.2]
  · rw [if_neg (fun seen => orphaned (sees.mp seen))] at ran
    rw [bind_run_ok ran, cleanup_stale_kind_cluster_state_warranted_iff]
    simp only [start, true_and]
    apply forall_congr'
    intro live
    rw [if_neg fun orphan => orphaned ⟨live, orphan⟩]

section Converges

variable {orphan stale failures : Failures} {site after : Site}

theorem Failures.Probes.usable_iff (probes : failures.Probes) {host : Host} :
    failures.usable host = true ↔ host.Usable := by
  rw [Plant.usable_iff]
  simp [probes.getClusters, probes.inspect]

theorem Failures.Probes.state (probes : failures.Probes) (host : Host) :
    failures.state host = host.state := by
  rw [Failures.state, if_pos probes.stateList]

theorem Failures.Probes.clusters (probes : failures.Probes) (host : Host) :
    failures.clusters host = host.clusters := by
  rw [Failures.clusters, if_pos probes.getClusters]

/-- Healing a settled host does nothing. -/
theorem cleanup_stale_plant_state_settled (first : orphan.Probes)
    (second : stale.Probes) (settled : site.host.Settled) :
    cleanup_stale_plant_state orphan stale site = .ok () site := by
  have kept : cleanup_orphan_kind_cluster orphan site = .ok () site := by
    rw [cleanup_orphan_kind_cluster_run, if_neg]
    intro seen
    rw [first.usable_iff, first.state] at seen
    exact seen.2 (settled.usable.mp seen.1)
  rw [cleanup_stale_plant_state, bind_run_ok kept,
    cleanup_stale_kind_cluster_state_run]
  by_cases usable : site.host.Usable
  · rw [if_pos (second.usable_iff.mpr usable)]
  · rw [if_neg (mt second.usable_iff.mp usable), second.clusters,
      if_neg (settled.gone usable), second.state, removeStaleResources]
    have nothing : plantResources.filter (· ∈ site.host.state) = [] := by
      rw [List.filter_eq_nil_iff]
      intro resource member found
      exact settled.cleared usable resource member (of_decide_eq_true found)
    rw [nothing]
    rfl

/-- The first healer leaves no usable cluster that the state does not hold. -/
theorem cleanup_orphan_kind_cluster_ok (probes : failures.Probes)
    (ran : cleanup_orphan_kind_cluster failures site = .ok () after) :
    (after.host.Usable → after.host.Managed) ∧
      after.host.state = site.host.state := by
  simp only [cleanup_orphan_kind_cluster_run, probes.usable_iff,
    probes.state] at ran
  by_cases orphaned : site.host.Usable ∧ kindClusterResource ∉ site.host.state
  · rw [if_pos orphaned] at ran
    obtain ⟨error, _, deletion⟩ | ⟨_, deletion⟩ :=
      delete_kind_cluster_run failures site kindClusterName
    · cases ran.symm.trans deletion
    · cases ran.symm.trans deletion
      exact ⟨fun usable => absurd usable site.not_usable_deleteCluster, rfl⟩
  · rw [if_neg orphaned] at ran
    cases ran
    constructor
    · intro usable
      by_contra absent
      exact orphaned ⟨usable, absent⟩
    · rfl

/-- Removing what is stale from the state of a host without the cluster settles
it. -/
theorem removeStaleResources_ok
    (absent : kindClusterName ∉ site.host.clusters)
    (ran : removeStaleResources failures site.host.state site =
      .ok () after) :
    site.host.Healed after.host := by
  have gone : ¬ site.host.Usable := fun usable => absent usable.1
  obtain ⟨nothing, removal⟩ | ⟨error, _, removal⟩ | ⟨_, _, removal⟩ :=
    removeStaleResources_run failures site site.host.state
  · cases ran.symm.trans removal
    have cleared : ∀ resource ∈ plantResources,
        resource ∉ site.host.state := by
      simpa [List.filter_eq_nil_iff] using nothing
    constructor
    · constructor
      · constructor
        · exact fun usable => absurd usable gone
        · exact fun managed => absurd managed
            (cleared kindClusterResource (by decide))
      · exact fun _ => cleared
      · exact fun _ => absent
    · rfl
  · cases ran.symm.trans removal
  · cases ran.symm.trans removal
    have cleared : ∀ resource ∈ plantResources,
        resource ∉ (site.stateRm (plantResources.filter
          (· ∈ site.host.state))).host.state := by
      intro resource member found
      have held := List.mem_filter.mp found
      simp [member, held.1] at held
    constructor
    · constructor
      · constructor
        · exact fun usable => absurd usable gone
        · exact fun managed => absurd managed
            (cleared kindClusterResource (by decide))
      · exact fun _ => cleared
      · exact fun _ => absent
    · simp only [Site.stateRm, Host.stateRm, List.filter_filter]
      apply List.filter_congr
      intro resource member
      simp only [List.mem_filter, decide_not]
      by_cases planted : resource ∈ plantResources
      · simp [planted]
      · simp [planted]

/-- The second healer settles a host whose usable cluster the state holds. -/
theorem cleanup_stale_kind_cluster_state_ok (probes : failures.Probes)
    (managed : site.host.Usable → site.host.Managed)
    (ran : cleanup_stale_kind_cluster_state failures site = .ok () after) :
    site.host.Healed after.host := by
  simp only [cleanup_stale_kind_cluster_state_run, probes.usable_iff,
    probes.clusters, probes.state] at ran
  by_cases usable : site.host.Usable
  · rw [if_pos usable] at ran
    cases ran
    constructor
    · constructor
      · exact ⟨managed, fun _ => usable⟩
      · exact fun gone => absurd usable gone
      · exact fun gone => absurd usable gone
    · rfl
  rw [if_neg usable] at ran
  by_cases listed : kindClusterName ∈ site.host.clusters
  · rw [if_pos listed] at ran
    obtain ⟨_, middle, deletion, removal⟩ := bind_ok ran
    obtain ⟨error, _, failed⟩ | ⟨_, deleted⟩ :=
      delete_kind_cluster_run failures site kindClusterName
    · cases deletion.symm.trans failed
    · cases deletion.symm.trans deleted
      have healed := removeStaleResources_ok site.not_listed_deleteCluster
        removal
      exact ⟨healed.settled, healed.others⟩
  · rw [if_neg listed] at ran
    exact removeStaleResources_ok listed ran

theorem exists_removeStaleResources (succeeds : failures.stateRm = none)
    (state : List String) :
    ∃ after, removeStaleResources failures state site = .ok () after := by
  obtain ⟨_, ran⟩ | ⟨_, failed, _⟩ | ⟨_, _, ran⟩ :=
    removeStaleResources_run failures site state
  · exact ⟨_, ran⟩
  · exact absurd succeeds failed
  · exact ⟨_, ran⟩

theorem exists_delete_kind_cluster (succeeds : failures.deleteCluster = none)
    (cluster_name : String) :
    ∃ after, delete_kind_cluster failures cluster_name site = .ok () after := by
  obtain ⟨_, failed, _⟩ | ⟨_, ran⟩ :=
    delete_kind_cluster_run failures site cluster_name
  · exact absurd succeeds failed
  · exact ⟨_, ran⟩

/-- Healing whose deletions succeed returns. -/
theorem exists_cleanup_stale_plant_state
    (first : orphan.deleteCluster = none) (second : stale.deleteCluster = none)
    (removal : stale.stateRm = none) :
    ∃ after, cleanup_stale_plant_state orphan stale site = .ok () after := by
  have healed : ∃ middle,
      cleanup_orphan_kind_cluster orphan site = .ok () middle := by
    rw [cleanup_orphan_kind_cluster_run]
    split
    · exact exists_delete_kind_cluster first kindClusterName
    · exact ⟨site, rfl⟩
  obtain ⟨middle, orphaned⟩ := healed
  rw [cleanup_stale_plant_state, bind_run_ok orphaned,
    cleanup_stale_kind_cluster_state_run]
  split
  · exact ⟨middle, rfl⟩
  · split
    · obtain ⟨deleted, ran⟩ := exists_delete_kind_cluster second kindClusterName
      rw [bind_run_ok ran]
      exact exists_removeStaleResources removal _
    · exact exists_removeStaleResources removal _

theorem converges (orphan stale : Failures) (host : Host) :
    Converges orphan stale host := by
  intro first second
  constructor
  · exact exists_cleanup_stale_plant_state
  · intro after ran
    obtain ⟨_, middle, orphaned, rest⟩ := bind_ok ran
    obtain ⟨managed, same⟩ := cleanup_orphan_kind_cluster_ok first orphaned
    have healed := cleanup_stale_kind_cluster_state_ok second managed rest
    constructor
    · exact ⟨healed.settled, healed.others.trans (by rw [same])⟩
    · intro orphan' stale' first' second'
      exact cleanup_stale_plant_state_settled first' second' healed.settled

end Converges

/-- Healing converges, and destroys only what is stale, exactly where no failure
makes it take a live Plant for a stale one. -/
theorem cleanup_stale_plant_state_sound_iff (orphan stale : Failures)
    (host : Host) :
    Converges orphan stale host ∧ DestroysOnlyStale orphan stale host ↔
      SparesPlant orphan stale host := by
  rw [destroysOnlyStale_iff]
  exact and_iff_right (converges orphan stale host)

/-- A host whose Plant is live and managed. -/
def liveHost : Host where
  clusters := [kindClusterName]
  containers := [(controlPlane kindClusterName, true)]
  state := [kindClusterResource]
  named := by
    intro name member
    rw [List.mem_singleton.mp member]
    exact ⟨by decide, by decide, List.all_iff_forall_prop.mp (by decide)⟩
  addressed := by
    intro resource member
    rw [List.mem_singleton.mp member]
    exact ⟨by decide, by decide, List.all_iff_forall_prop.mp (by decide)⟩

/-- `terraform state list` fails, and nothing else. -/
def lockedState : Failures where
  getClusters := none
  inspect := none
  stateList := some "Error: Error acquiring the state lock"
  deleteCluster := none
  stateRm := none

/-- Where the state cannot be listed, a live managed cluster is deleted as an
orphan. -/
theorem live_cluster_deleted :
    ¬ (Converges lockedState lockedState liveHost ∧
      DestroysOnlyStale lockedState lockedState liveHost) := by
  intro sound
  have spared := (destroysOnlyStale_iff _ _ _).mp sound.2 (by decide)
  have orphan : lockedState.SeesOrphan liveHost := by decide
  rw [if_pos orphan] at spared
  exact spared (by decide) rfl

end Plant

end Cats
