import Cats.Plant.HeadMemory

/-!
# When healing the head converges

The patch touches the memory of one container and one environment variable.  The
pod that is made of the patched template is judged by its first container, so it is
healed exactly if that is the container patched, or had enough memory before.
-/

namespace Cats

namespace RayHead

open Kubernetes

section Patch

/-- What is read at a path of keys. -/
def lookup : List String → Json → Option Json
  | [], doc => some doc
  | key :: path, doc => (doc.get? key).bind (lookup path)

/-- Replacing what is at a path puts the value there. -/
theorem descend_replaceAt {path : List String} {doc old : Json}
    (there : descend path doc = .ok old) (some : path ≠ []) (value : Json) :
    descend path (replaceAt path value doc) = .ok value := by
  induction path generalizing doc with
  | nil => exact absurd rfl some
  | cons key path induction =>
      cases path with
      | nil =>
          obtain ⟨fields, mapped, -⟩ := Raised.bind_returns there
          cases doc with
          | obj bindings =>
              simp [descend, replaceAt, Json.mapping, bind, Except.bind]
          | _ => cases mapped
      | cons next path =>
          obtain ⟨fields, mapped, deeper⟩ := Raised.bind_returns there
          cases doc with
          | obj bindings =>
              obtain rfl := Except.ok.inj mapped
              have inner := induction deeper (List.cons_ne_nil _ _)
              rw [replaceAt]
              show descend (next :: path) (((Fields.set bindings key _).get?
                key).getD (.obj [])) = _
              rw [Fields.get?_set_self]
              exact inner
          | _ => cases mapped

/-- Neither path leads through the other. -/
def Apart (left right : List String) : Prop := ¬ left <+: right ∧ ¬ right <+: left

/-- Replacing what is at a path changes nothing elsewhere. -/
theorem lookup_replaceAt {path other : List String} (apart : Apart path other)
    (value doc : Json) :
    lookup other (replaceAt path value doc) = lookup other doc := by
  induction path generalizing other doc with
  | nil => exact absurd List.nil_prefix apart.1
  | cons key path induction =>
      cases other with
      | nil => exact absurd List.nil_prefix apart.2
      | cons name rest =>
          cases doc with
          | obj fields =>
              rw [replaceAt, lookup, lookup, Json.get?_obj, Json.get?_obj]
              by_cases same : key = name
              · subst name
                have deeper : Apart path rest := by
                  constructor
                  · intro leads
                    exact apart.1 ((List.prefix_cons_inj key).mpr leads)
                  · intro leads
                    exact apart.2 ((List.prefix_cons_inj key).mpr leads)
                rw [Fields.get?_set_self, Option.bind_some, induction deeper]
                cases found : Fields.get? fields key with
                | some inner => rfl
                | none =>
                    cases rest with
                    | nil => exact absurd List.nil_prefix deeper.2
                    | cons next rest => rfl
              · rw [Fields.get?_set_of_ne _ same]
          | _ => rfl

/-- The limits, or the requests, before and after. -/
structure Raised4G (before after : Fields) : Prop where
  memory : after.get? "memory" = some (.str headMemory)
  cpu : after.get? "cpu" = some ((before.get? "cpu").getD (.str "1"))
  others : ∀ key, key ≠ "memory" → key ≠ "cpu" →
    after.get? key = before.get? key

theorem get?_setdefault (fields : Fields) (key : String) (value : Json)
    (other : String) :
    (setdefault fields key value).get? other =
      if key = other then some ((fields.get? key).getD value)
      else fields.get? other := by
  unfold setdefault
  cases found : fields.get? key with
  | some old =>
      split_ifs with same
      · rw [← same, found]
        rfl
      · rfl
  | none =>
      dsimp only
      split_ifs with same
      · rw [← same, Fields.get?_set_self]
        rfl
      · rw [Fields.get?_set_of_ne _ same]

theorem withMemory_obj (before : Fields) :
    ∃ after, withMemory (.obj before) = .ok (.obj after) ∧
      Raised4G before after := by
  refine ⟨_, rfl, ?_⟩
  constructor
  · rw [get?_setdefault, if_neg (by decide), Fields.get?_set_self]
  · rw [get?_setdefault, if_pos rfl, Fields.get?_set_of_ne _ (by decide)]
  · intro key memory cpu
    rw [get?_setdefault, if_neg (Ne.symm cpu),
      Fields.get?_set_of_ne _ (Ne.symm memory)]

/-- The environment before and after: one variable is set, or added. -/
def Upserted (name value : String) (before after : List Json) : Prop :=
  (∃ index, ∃ fields : Fields, before[index]? = some (.obj fields) ∧
      fields.get? "name" = some (.str name) ∧
      after = before.set index (.obj (fields.set "value" (.str value)))) ∨
    after = before ++ [.obj [("name", .str name), ("value", .str value)]]

theorem upsertItems_obj (name value : String) (items : List Fields) :
    ∃ after, upsertItems name value (items.map .obj) = .ok after ∧
      Upserted name value (items.map .obj) after := by
  induction items with
  | nil => exact ⟨_, rfl, .inr rfl⟩
  | cons item items induction =>
      rw [List.map_cons, upsertItems]
      by_cases named : item.get? "name" = some (.str name)
      · refine ⟨.obj (item.set "value" (.str value)) :: items.map .obj, ?_,
          .inl ⟨0, item, rfl, named, rfl⟩⟩
        simp [Json.mapping, bind, Except.bind, named]
      · obtain ⟨after, ran, upserted⟩ := induction
        refine ⟨.obj item :: after, ?_, ?_⟩
        · simp [Json.mapping, bind, Except.bind, named, ran]
        · rcases upserted with ⟨index, fields, there, same, whole⟩ | whole
          · exact .inl ⟨index + 1, fields, there, same, by rw [whole]; rfl⟩
          · exact .inr (by rw [whole]; rfl)

/-- A container as the schema has it: its resources, their limits and requests are
dicts, and its environment is a list of dicts, where they are there at all. -/
structure Typed (container resources limits requests : Fields)
    (env : List Fields) : Prop where
  resourcesIs : (container.get? "resources").getD (.obj []) = .obj resources
  limitsIs : (resources.get? "limits").getD (.obj []) = .obj limits
  requestsIs : (resources.get? "requests").getD (.obj []) = .obj requests
  envIs : (container.get? "env").getD (.arr []) = .arr (env.map .obj)

/-- What a patch changes of a container, and that it changes nothing else. -/
structure Patched (container patched : Fields) : Prop where
  others : ∀ key, key ≠ "resources" → key ≠ "env" →
    patched.get? key = container.get? key
  resources : ∃ before after : Fields, patched.get? "resources" = some (.obj after) ∧
    (container.get? "resources").getD (.obj []) = .obj before ∧
    (∀ key, key ≠ "limits" → key ≠ "requests" →
      after.get? key = before.get? key) ∧
    ∀ key ∈ ["limits", "requests"], ∃ old new : Fields,
      (before.get? key).getD (.obj []) = .obj old ∧
        after.get? key = some (.obj new) ∧ Raised4G old new
  env : ∃ before after, patched.get? "env" = some (.arr after) ∧
    (container.get? "env").getD (.arr []) = .arr before ∧
    Upserted "RAY_memory_monitor_refresh_ms" "0" before after

/-- A typed container can be patched. -/
theorem patchContainer_typed {container resources limits requests : Fields}
    {env : List Fields}
    (typed : Typed container resources limits requests env) :
    ∃ patched, patchContainer container = .ok patched ∧
      Patched container patched := by
  obtain ⟨limited, limitRan, limitRaised⟩ := withMemory_obj limits
  obtain ⟨requested, requestRan, requestRaised⟩ := withMemory_obj requests
  obtain ⟨after, envRan, upserted⟩ :=
    upsertItems_obj "RAY_memory_monitor_refresh_ms" "0" env
  have first : setMemory "limits" resources =
      .ok (resources.set "limits" (.obj limited)) := by
    unfold setMemory
    rw [typed.limitsIs, limitRan]
    rfl
  have second : setMemory "requests" (resources.set "limits" (.obj limited)) =
      .ok ((resources.set "limits" (.obj limited)).set "requests"
        (.obj requested)) := by
    unfold setMemory
    rw [Fields.get?_set_of_ne _ (by decide), typed.requestsIs, requestRan]
    rfl
  refine ⟨(container.set "resources"
    (.obj ((resources.set "limits" (.obj limited)).set "requests"
      (.obj requested)))).set "env" (.arr after), ?_, ?_⟩
  · unfold patchContainer
    rw [typed.resourcesIs]
    dsimp only
    rw [first]
    show (setMemory "requests" (resources.set "limits" (.obj limited)) >>= _) = _
    rw [second]
    show upsert_env _ _ _ = _
    unfold upsert_env
    rw [Fields.get?_set_of_ne _ (by decide), typed.envIs]
    dsimp only
    rw [envRan]
    rfl
  · constructor
    · intro key notResources notEnv
      rw [Fields.get?_set_of_ne _ (Ne.symm notEnv),
        Fields.get?_set_of_ne _ (Ne.symm notResources)]
    · refine ⟨resources, (resources.set "limits" (.obj limited)).set "requests"
        (.obj requested), ?_, typed.resourcesIs, ?_, ?_⟩
      · rw [Fields.get?_set_of_ne _ (by decide), Fields.get?_set_self]
      · intro key notLimits notRequests
        rw [Fields.get?_set_of_ne _ (Ne.symm notRequests),
          Fields.get?_set_of_ne _ (Ne.symm notLimits)]
      · intro key member
        simp only [List.mem_cons, List.not_mem_nil, or_false] at member
        rcases member with rfl | rfl
        · refine ⟨limits, limited, typed.limitsIs, ?_, limitRaised⟩
          rw [Fields.get?_set_of_ne _ (by decide), Fields.get?_set_self]
        · exact ⟨requests, requested, typed.requestsIs, Fields.get?_set_self _ _ _,
            requestRaised⟩
    · exact ⟨env.map .obj, after, Fields.get?_set_self _ _ _, typed.envIs, upserted⟩

end Patch

section Heads

/-- Setting a container to one with its name leaves the head where it is. -/
theorem findHead_set {containers : List Json} {index : Nat}
    {container patched : Json} (there : containers[index]? = some container)
    (same : isHead patched = isHead container) :
    findHead (containers.set index patched) = findHead containers := by
  induction containers generalizing index with
  | nil => rfl
  | cons first containers induction =>
      cases index with
      | zero =>
          cases there
          rw [List.set_cons_zero, findHead, findHead, same]
      | succ index =>
          rw [List.set_cons_succ, findHead, findHead, induction there]

/-- The head is one of the containers. -/
theorem findHead_lt {containers : List Json} {index : Nat}
    (found : findHead containers = .ok (some index)) :
    index < containers.length := by
  induction containers generalizing index with
  | nil => cases found
  | cons first containers induction =>
      rw [findHead] at found
      obtain ⟨head, -, rest⟩ := Raised.bind_returns found
      cases head with
      | true =>
          cases rest
          exact Nat.succ_pos _
      | false =>
          obtain ⟨later, ran, mapped⟩ := Raised.bind_returns rest
          cases later with
          | none => cases mapped
          | some other =>
              cases mapped
              exact Nat.succ_lt_succ (induction ran)

theorem findHead_obj (containers : List Fields) :
    ∃ found, findHead (containers.map .obj) = .ok found := by
  induction containers with
  | nil => exact ⟨none, rfl⟩
  | cons first containers induction =>
      obtain ⟨found, ran⟩ := induction
      obtain ⟨head, isHeadIs⟩ : ∃ head, isHead (.obj first) = .ok head :=
        ⟨_, rfl⟩
      rw [List.map_cons, findHead, isHeadIs]
      cases head with
      | true => exact ⟨some 0, rfl⟩
      | false =>
          show ∃ _, (findHead (containers.map .obj) >>= _) = _
          rw [ran]
          exact ⟨found.map (· + 1), rfl⟩

end Heads

section Documents

/-- A RayCluster document whose head template has these containers. -/
structure RayCluster (doc : Json) (containers : List Fields) : Prop where
  listed : descend headPath doc = .ok (.arr (containers.map .obj))
  nonempty : containers ≠ []
  typed : ∀ container ∈ containers, ∃ resources limits requests env,
    Typed container resources limits requests env

variable {doc : Json} {containers : List Fields}

theorem head_container_of_listed {items : List Json}
    (listed : descend headPath doc = .ok (.arr items)) (nonempty : items ≠ []) :
    head_container doc =
      (findHead items).map fun head => (items, head.getD 0) := by
  unfold head_container
  rw [listed]
  cases items with
  | nil => exact absurd rfl nonempty
  | cons first items =>
      simp only [bind, Except.bind, Json.truthy, Json.iterate, List.isEmpty_cons,
        Bool.not_false, if_true]
      cases findHead (first :: items) with
      | error raised => rfl
      | ok head => rfl

theorem map_obj_ne_nil {items : List Fields} (nonempty : items ≠ []) :
    items.map Json.obj ≠ [] := by
  intro empty
  exact nonempty (List.map_eq_nil_iff.mp empty)

/-- The head is one of the containers. -/
theorem head_container_cluster (cluster : RayCluster doc containers) :
    ∃ head container, head_container doc = .ok (containers.map .obj, head) ∧
      containers[head]? = some container := by
  obtain ⟨found, ran⟩ := findHead_obj containers
  have inside : found.getD 0 < containers.length := by
    cases found with
    | none => exact List.length_pos_iff.mpr cluster.nonempty
    | some index =>
        have below := findHead_lt ran
        rw [List.length_map] at below
        exact below
  refine ⟨found.getD 0, containers[found.getD 0], ?_,
    List.getElem?_eq_getElem inside⟩
  rw [head_container_of_listed cluster.listed (map_obj_ne_nil cluster.nonempty),
    ran]
  rfl

/-- What the patch of a document leaves. -/
structure PatchedDoc (doc after : Json) (containers : List Fields) (head : Nat)
    (container patched : Fields) : Prop where
  ran : set_head_memory doc = .ok after
  listed : descend headPath after =
    .ok (.arr ((containers.set head patched).map .obj))
  head : head_container after =
    .ok ((containers.set head patched).map .obj, head)
  container : Patched container patched
  elsewhere : ∀ path, Apart headPath path → lookup path after = lookup path doc

theorem set_head_memory_cluster (cluster : RayCluster doc containers)
    {head : Nat} {container : Fields}
    (found : head_container doc = .ok (containers.map .obj, head))
    (there : containers[head]? = some container) :
    ∃ after patched, PatchedDoc doc after containers head container patched := by
  obtain ⟨resources, limits, requests, env, typed⟩ :=
    cluster.typed container (List.mem_of_getElem? there)
  obtain ⟨patched, ran, changes⟩ := patchContainer_typed typed
  have mapped : (containers.map Json.obj)[head]? = some (.obj container) := by
    rw [List.getElem?_map, there]
    rfl
  have mapSet : (containers.map Json.obj).set head (.obj patched) =
      (containers.set head patched).map .obj :=
    List.map_set.symm
  have listed : descend headPath (replaceAt headPath
      (.arr ((containers.map Json.obj).set head (.obj patched))) doc) =
      .ok (.arr ((containers.set head patched).map .obj)) := by
    rw [descend_replaceAt cluster.listed (List.cons_ne_nil _ _), mapSet]
  refine ⟨replaceAt headPath
    (.arr ((containers.map Json.obj).set head (.obj patched))) doc, patched, ?_,
    listed, ?_, changes, fun path apart => lookup_replaceAt apart _ doc⟩
  · unfold set_head_memory
    rw [found]
    show (((containers.map Json.obj)[head]?).getD .null).mapping >>= _ = _
    rw [mapped]
    show patchContainer container >>= _ = _
    rw [ran]
    rfl
  · have sameHead : isHead (.obj patched) = isHead (.obj container) := by
      show Except.ok (_ || _) = Except.ok (_ || _)
      rw [changes.others "name" (by decide) (by decide)]
    have names := findHead_set mapped sameHead
    rw [mapSet] at names
    have some : containers.set head patched ≠ [] := by
      intro empty
      have length := congrArg List.length empty
      rw [List.length_set] at length
      exact cluster.nonempty (List.length_eq_zero_iff.mp length)
    rw [head_container_of_listed cluster.listed
      (map_obj_ne_nil cluster.nonempty)] at found
    rw [head_container_of_listed listed (map_obj_ne_nil some), names]
    cases heads : findHead (containers.map Json.obj) with
    | error raised =>
        rw [heads] at found
        cases found
    | ok index =>
        rw [heads] at found
        have headIs := (Prod.mk.inj (Except.ok.inj found)).2
        show Except.ok (_, index.getD 0) = _
        rw [headIs]

end Documents

section Healing

theorem memory_is_healed_headMemory :
    memory_is_healed (.str headMemory) = .ok true := by decide +kernel

/-- The memory of a container that was patched. -/
theorem memory_patched {container patched : Fields}
    (changes : Patched container patched) :
    specMemory (.obj patched) = .ok (.str headMemory) ∧
      containerMemory (.obj patched) = .ok (.str headMemory) := by
  obtain ⟨before, after, there, -, -, sections⟩ := changes.resources
  obtain ⟨old, new, -, limits, raised⟩ := sections "limits" List.mem_cons_self
  have full : (Json.obj after).truthy = true := by
    cases after with
    | nil => cases limits
    | cons field after => rfl
  have memoryText : (Json.str headMemory).truthy = true := by decide
  constructor
  · simp only [specMemory, Json.item, there, limits, raised.memory, bind,
      Except.bind]
  · simp only [containerMemory, Json.mapping, orEmpty, there, full, limits,
      raised.memory, bind, Except.bind, if_true, Option.getD_some, memoryText]

/-- The memory of a pod is that of its first container. -/
theorem pod_memory_of_containers {pod first : Json} {rest : List Json}
    (listed : descend ["spec", "containers"] pod = .ok (.arr (first :: rest))) :
    pod_memory (some pod) = containerMemory first := by
  have truthy : pod.truthy = true := by
    cases pod with
    | obj fields =>
        cases fields with
        | nil => cases listed
        | cons field fields => rfl
    | _ => cases listed
  unfold pod_memory
  dsimp only
  rw [if_pos truthy, listed]
  rfl

variable (controller : Controller)

/-- The pod that a controller makes of a document is judged healed. -/
def Judged (doc : Json) : Prop :=
  ∀ uid, (pod_memory (some (controller.create doc uid)) >>= memory_is_healed) =
    .ok true

/-- A heal of a head that is not healed returns, and another one has nothing to
do. -/
def Converges (doc : Json) : Prop :=
  ∀ pod uid, podUid pod = .ok uid → alreadyHealed pod = .ok false →
    ∃ memory after, heal_live_ray_head controller ⟨doc, pod⟩ =
        .ok (⟨true, true, memory⟩, after) ∧
      heal_live_ray_head controller after =
        .ok (⟨false, false, .str headMemory⟩, after)

/-- A head with the memory, and ready, is left as it is. -/
def Kept (quantity : Quantity) : Prop :=
  4000000000 ≤ quantity.value → ∀ cluster : Cluster,
    pod_memory cluster.pod = .ok (.str (String.ofList quantity.text)) →
    pod_ready cluster.pod = .ok true →
    heal_live_ray_head controller cluster =
      .ok (⟨false, false, .str headMemory⟩, cluster)

/-- The container that is patched is the first, or the first had the memory. -/
def Checked (containers : List Fields) (head : Nat) : Prop :=
  head = 0 ∨ ∃ first, containers.head? = some first ∧
    (containerMemory (.obj first) >>= memory_is_healed) = .ok true

variable {controller} {doc after : Json} {containers : List Fields} {head : Nat}
  {container patched : Fields}

/-- The pod made of a patched document has the first container of the template. -/
theorem pod_memory_create (changed :
    PatchedDoc doc after containers head container patched)
    {first : Fields} {rest : List Fields}
    (listed : containers.set head patched = first :: rest) (uid : Json) :
    pod_memory (some (controller.create after uid)) =
      containerMemory (.obj first) := by
  have template := controller.containers after uid
  rw [changed.listed, listed] at template
  exact pod_memory_of_containers template

theorem judged_iff (cluster : RayCluster doc containers)
    (there : containers[head]? = some container)
    (changed : PatchedDoc doc after containers head container patched) :
    Judged controller after ↔ Checked containers head := by
  cases containers with
  | nil => exact absurd rfl cluster.nonempty
  | cons first rest =>
      cases head with
      | zero =>
          constructor
          · intro judged
            exact .inl rfl
          · intro checked uid
            rw [pod_memory_create changed rfl uid,
              (memory_patched changed.container).2]
            exact memory_is_healed_headMemory
      | succ head =>
          have same : ∀ uid, pod_memory (some (controller.create after uid)) =
              containerMemory (.obj first) :=
            fun uid => pod_memory_create changed rfl uid
          unfold Judged
          simp only [same]
          constructor
          · intro judged
            exact .inr ⟨first, rfl, judged .null⟩
          · rintro (impossible | ⟨other, firstIs, healed⟩) uid
            · cases impossible
            · cases firstIs
              exact healed

/-- A judged pod is not rolled again. -/
theorem heal_created (judged : Judged controller after) (uid : Json) :
    heal_live_ray_head controller
        ⟨after, some (controller.create after uid)⟩ =
      .ok (⟨false, false, .str headMemory⟩,
        ⟨after, some (controller.create after uid)⟩) := by
  have healed : alreadyHealed (some (controller.create after uid)) =
      .ok true := by
    obtain ⟨memory, read, accepted⟩ := Raised.bind_returns (judged uid)
    simp only [alreadyHealed, read, accepted, controller.ready, bind,
      Except.bind, if_true]
  simp only [heal_live_ray_head, healed, bind, Except.bind, if_true]

/-- Where the pod is judged healed, a heal converges. -/
theorem converges_of_judged
    (there : containers[head]? = some container)
    (changed : PatchedDoc doc after containers head container patched)
    (judged : Judged controller after) : Converges controller doc := by
  intro pod uid identified unhealed
  obtain ⟨memory, read, accepted⟩ := Raised.bind_returns (judged uid)
  obtain ⟨fresh, uidIs, present, different⟩ := controller.fresh after uid
  have patchedThere : ((containers.set head patched).map Json.obj)[head]? =
      some (.obj patched) := by
    have inside : head < containers.length := by
      by_contra outside
      rw [List.getElem?_eq_none (not_lt.mp outside)] at there
      cases there
    rw [List.getElem?_map, List.getElem?_set_self inside]
    rfl
  have waited : wait_new_head (controller.create after uid) uid =
      .ok (controller.create after uid) := by
    simp only [wait_new_head, uidIs, controller.ready, bind, Except.bind,
      present, ne_eq, different, not_false_eq_true, decide_true, Bool.and_self,
      if_true]
  refine ⟨memory, ⟨after, some (controller.create after uid)⟩, ?_,
    heal_created judged uid⟩
  simp only [heal_live_ray_head, unhealed, changed.ran, changed.head,
    patchedThere, (memory_patched changed.container).1,
    memory_is_healed_headMemory, identified, waited, read, accepted, bind,
    Except.bind, Bool.false_eq_true, if_false, if_true, Option.getD_some]

/-- The patch changes only what it should, and the pod made of it is judged healed;
a heal converges; the check is exact, and leaves a head with the memory alone. -/
structure HealLaw (controller : Controller) (doc : Json)
    (containers : List Fields) (quantity : Quantity) : Prop where
  judged : ∃ after head container patched,
    containers[head]? = some container ∧
      PatchedDoc doc after containers head container patched ∧
      Judged controller after
  converges : Converges controller doc
  exact : Exact quantity
  kept : Kept controller quantity

/-- The head of the document is its first container, or that had the memory. -/
def FirstChecked (doc : Json) (containers : List Fields) : Prop :=
  ∃ head, head_container doc = .ok (containers.map .obj, head) ∧
    Checked containers head

theorem kept_of_exact {quantity : Quantity} (exact : Exact quantity) :
    Kept controller quantity := by
  intro large live memory ready
  have accepted := exact.mpr large
  have healed : alreadyHealed live.pod = .ok true := by
    simp only [alreadyHealed, memory, accepted, ready, bind, Except.bind, if_true]
  simp only [heal_live_ray_head, healed, bind, Except.bind, if_true]

/-- A document that is patched determines its head. -/
theorem PatchedDoc.head_eq {other : Nat} (cluster : RayCluster doc containers)
    (there : containers[head]? = some container)
    (changed : PatchedDoc doc after containers head container patched)
    (found : head_container doc = .ok (containers.map .obj, other)) :
    head = other := by
  obtain ⟨container', there'⟩ : ∃ container', containers[other]? = some container' := by
    obtain ⟨index, container', found', there'⟩ := head_container_cluster cluster
    rw [found'] at found
    cases found
    exact ⟨container', there'⟩
  obtain ⟨after', patched', changed'⟩ :=
    set_head_memory_cluster cluster found there'
  have same := changed.ran.symm.trans changed'.ran
  cases same
  have heads := changed.head.symm.trans changed'.head
  exact (Prod.mk.inj (Except.ok.inj heads)).2

/-- Healing the head converges and never lowers its memory exactly where the first
container is the head, or had the memory, and the quantity is less than four
gigabytes and not `4000m`, or one of the spellings that the check knows. -/
theorem heal_live_ray_head_iff (controller : Controller)
    (cluster : RayCluster doc containers) (quantity : Quantity) :
    HealLaw controller doc containers quantity ↔
      FirstChecked doc containers ∧ Spelled quantity := by
  obtain ⟨head, container, found, there⟩ := head_container_cluster cluster
  constructor
  · intro law
    constructor
    · obtain ⟨after, index, container', patched, there', changed, judged⟩ :=
        law.judged
      have same := changed.head_eq cluster there' found
      subst index
      exact ⟨head, found, (judged_iff cluster there' changed).mp judged⟩
    · exact (exact_iff_spelled quantity).mp law.exact
  · rintro ⟨⟨index, found', checked⟩, spelled⟩
    rw [found] at found'
    cases found'
    obtain ⟨after, patched, changed⟩ :=
      set_head_memory_cluster cluster found there
    have judged : Judged controller after :=
      (judged_iff cluster there changed).mpr checked
    have exact := (exact_iff_spelled quantity).mpr spelled
    exact ⟨⟨after, head, container, patched, there, changed, judged⟩,
      converges_of_judged there changed judged, exact, kept_of_exact exact⟩

end Healing

section Sample

/-- What the keys of a path lead to, or what has no key. -/
def spine : List String → Json → Json
  | [], doc => doc
  | key :: path, .obj fields =>
      spine path ((Fields.get? fields key).getD (.obj []))
  | _, doc => doc

theorem descend_spine (path : List String) (last : String) (doc : Json) :
    descend (path ++ [last]) doc = descend [last] (spine path doc) := by
  induction path generalizing doc with
  | nil => rfl
  | cons key path induction =>
      cases doc with
      | obj fields =>
          rw [spine, ← induction]
          cases path with
          | nil => rfl
          | cons next path => rfl
      | _ =>
          cases path with
          | nil => rfl
          | cons next path => rfl

/-- A controller that copies the spec of the template. -/
def copying : Controller where
  create doc uid := .obj
    [("metadata", .obj [("uid", .str (if uid = .str "a" then "b" else "a"))]),
      ("spec", spine ["spec", "headGroupSpec", "template", "spec"] doc),
      ("status", .obj [("phase", .str "Running"),
        ("conditions", .arr [.obj [("type", .str "Ready"),
          ("status", .str "True")]])])]
  containers doc uid := by
    show descend ["containers"] (spine _ doc) = descend headPath doc
    rw [← descend_spine]
    rfl
  ready doc uid := rfl
  fresh doc uid := by
    refine ⟨_, rfl, ?_, ?_⟩
    · split_ifs
      · rfl
      · rfl
    · split_ifs with same
      · rw [same]
        decide
      · exact fun equal => same equal.symm

/-- A document with containers of these names. -/
def clusterOf (names : List String) : Json :=
  .obj [("spec", .obj [("headGroupSpec", .obj [("template", .obj [("spec", .obj
    [("containers", .arr (names.map fun name =>
      .obj [("name", .str name)]))])])])])]

def containersOf (names : List String) : List Fields :=
  names.map fun name => [("name", .str name)]

theorem clusterOf_cluster (names : List String) (nonempty : names ≠ []) :
    RayCluster (clusterOf names) (containersOf names) := by
  constructor
  · have listed : (containersOf names).map Json.obj = names.map fun name =>
        .obj [("name", .str name)] := by
      unfold containersOf
      rw [List.map_map]
      rfl
    rw [listed]
    rfl
  · intro empty
    exact nonempty (List.map_eq_nil_iff.mp empty)
  · intro container member
    obtain ⟨name, -, rfl⟩ := List.mem_map.mp member
    exact ⟨[], [], [], [], rfl, rfl, rfl, rfl⟩

/-- Eight gigabytes, in powers of 1024. -/
def eightGibi : Quantity where
  sign := .absent
  whole := ['8']
  fraction := none
  suffix := .gibi
  digits := by decide
  nonempty := List.cons_ne_nil _ _
  valid := trivial

theorem heal_live_ray_head_single :
    HealLaw copying (clusterOf ["ray-head"]) (containersOf ["ray-head"])
        eightGibi ↔
      FirstChecked (clusterOf ["ray-head"]) (containersOf ["ray-head"]) ∧
        Spelled eightGibi :=
  heal_live_ray_head_iff copying
    (clusterOf_cluster ["ray-head"] (List.cons_ne_nil _ _)) eightGibi

/-- A head behind another container is rolled in vain, and a head of eight gigabytes
is not judged healed. -/
theorem heal_live_ray_head_diverges :
    ¬ HealLaw copying (clusterOf ["proxy", "ray-head"])
        (containersOf ["proxy", "ray-head"]) eightGibi ∧
      heal_live_ray_head copying
          ⟨clusterOf ["proxy", "ray-head"], none⟩ =
        .error (.runtimeError
          "Ray head pod came back with memory '', want 4G") ∧
      memory_is_healed (.str (String.ofList eightGibi.text)) ≠ .ok true := by
  have notHealed : memory_is_healed (.str (String.ofList eightGibi.text)) ≠
      .ok true := by
    rw [ne_eq, memory_is_healed_quantity]
    decide +kernel
  refine ⟨?_, ?_, notHealed⟩
  · intro law
    apply notHealed
    apply law.exact.mpr
    have digits : eightGibi.number.all Char.isDigit = true := by decide
    have eight : natural ['8'] = 8 := by decide
    rw [eightGibi.value_of_digits digits]
    show (4000000000 : ℚ) ≤ natural ['8'] * Suffix.factor .gibi
    rw [eight]
    norm_num [Suffix.factor]
  · decide +kernel

end Sample

end RayHead

end Cats
