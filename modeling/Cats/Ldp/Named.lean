import Cats.Ldp.Address

/-!
# Orders and Invoices under their digests

A run starts on a Node that holds nothing and is made of Order requests and
executions.  Every resource a run leaves is the blob of its key exactly when
every Order that was executed is written as it was read.
-/

namespace Cats

open Effect

/-- The steps of a run that touch the stores. -/
inductive LdpEvent where
  | aside (aside : Aside)
  | orderRequest (invoice : Fields) (asides : List Aside)
      (order : String → Fields)
  | invoice (invoice : Json)
  | execute (order_id : Option String)
  | elsewhere

namespace LdpEvent

/-- The values an event takes in. -/
def intakes : LdpEvent → List String
  | .aside (.intake value) => [value]
  | .orderRequest _ asides _ => asides.filterMap fun aside =>
      match aside with
      | .intake value => some value
      | .mint _ _ => none
  | _ => []

/-- The Order that is executed has its blob. -/
def Present (machine : Machine) : LdpEvent → Prop
  | .execute (some id) => ∀ digest, from_ni id = .ok digest →
      ∃ home data, machine.home = some home ∧
        home.cas.blobs digest = some data
  | _ => True

/-- The Order that is executed is written as it is read. -/
def Faithful (machine : Machine) : LdpEvent → Prop
  | .execute (some id) => ∀ home digest data, machine.home = some home →
      from_ni id = .ok digest → home.cas.blobs digest = some data →
        Reencodes data
  | _ => True

end LdpEvent

section Node

variable (base_url : String) (net : Network)

/-- What one event may do.  An operation that raises leaves the stores as they
were then; elsewhere on the machine anything may happen, and a listing may
come in another order. -/
inductive LdpStep : LdpEvent → Machine → Machine → Prop where
  | aside {aside : Aside} {machine : Machine} :
      LdpStep (.aside aside) machine
        (final (aside.act base_url machine))
  | orderRequest {invoice : Fields} {asides : List Aside}
      {order : String → Fields} {machine : Machine} :
      LdpStep (.orderRequest invoice asides order) machine
        (final (orderRequest base_url invoice asides order machine))
  | invoice {invoice : Json} {machine : Machine} :
      LdpStep (.invoice invoice) machine
        (final (publishInvoice base_url invoice machine))
  | execute {order_id : Option String} {machine : Machine}
      (present : (LdpEvent.execute order_id).Present machine) :
      LdpStep (.execute order_id) machine
        (final (publishOrder base_url net order_id machine))
  | elsewhere {machine after : Machine} {home : Home} {index : LocatorIndex}
      (before : machine.home = some home)
      (order : index.files.Perm home.index.files)
      (same : after.home = some { home with index := index }) :
      LdpStep .elsewhere machine after

/-- The events of a run with the states they met, and the state it reached. -/
inductive LdpRun : List (Machine × LdpEvent) → Machine → Prop where
  | start {machine : Machine} (bare : machine.home = some bareHome) :
      LdpRun [] machine
  | step {trace : List (Machine × LdpEvent)} {machine after : Machine}
      {event : LdpEvent} (run : LdpRun trace machine)
      (step : LdpStep base_url net event machine after) :
      LdpRun (trace ++ [(machine, event)]) after

end Node

/-- The pairs a run may record: what the Node publishes and the hints of the
hashlinks that were taken in. -/
def Claimed (base_url : String) (trace : List (Machine × LdpEvent))
    (content_id uri : String) : Prop :=
  Published base_url content_id uri ∨ ∃ entry ∈ trace,
    ∃ value ∈ entry.2.intakes,
      (IndexEvent.intake value).Registers content_id uri

section Runs

variable {base_url : String} {net : Network}
  {trace : List (Machine × LdpEvent)} {machine after : Machine}
  {event : LdpEvent}

/-- A faithful event keeps a Node sound. -/
theorem LdpStep.sound {claims : String → String → Prop}
    (step : LdpStep base_url net event machine after)
    (own : ∀ id uri, Published base_url id uri → claims id uri)
    (claimed : ∀ value ∈ event.intakes, ∀ id uri,
      (IndexEvent.intake value).Registers id uri → claims id uri)
    (faithful : event.Faithful machine)
    (sound : OnHome (Home.Sound claims []) machine) :
    OnHome (Home.Sound claims []) after := by
  cases step with
  | @aside aside _ =>
      apply (triple_aside own aside ?_).final (fun _ _ reached => reached)
        (fun _ reached => reached) sound
      intro value same
      rw [same] at claimed
      exact claimed value List.mem_cons_self
  | @orderRequest invoice asides order _ =>
      apply (triple_orderRequest own invoice asides order ?_).final
        (fun _ _ reached => reached) (fun _ reached => reached) sound
      intro value member
      apply claimed value
      exact List.mem_filterMap.mpr ⟨_, member, rfl⟩
  | @invoice invoice _ =>
      exact (triple_publishInvoice own invoice).final
        (fun _ _ reached => reached) (fun _ reached => reached) sound
  | @execute order_id _ present =>
      obtain ⟨home, local_home, sound⟩ := sound
      apply (triple_publishOrder own net order_id sound ?_).final
        (fun _ _ reached => reached) (fun _ reached => reached) local_home
      intro id digest given named
      subst given
      obtain ⟨other, data, sameHome, there⟩ := present digest named
      rw [local_home, Option.some.injEq] at sameHome
      subst sameHome
      exact ⟨data, there, faithful home digest data local_home named there⟩
  | elsewhere before order same =>
      obtain ⟨home, local_home, sound⟩ := sound
      rw [local_home, Option.some.injEq] at before
      subst before
      exact ⟨_, same, sound.intact, sound.resources,
        sound.records.relist order, sound.held⟩

theorem Home.Sound.weaken {claims more : String → String → Prop}
    {held : List (Digest × Bytes)} {home : Home}
    (sound : home.Sound claims held)
    (implies : ∀ id uri, claims id uri → more id uri) :
    home.Sound more held :=
  ⟨sound.intact, sound.resources, sound.records.mono implies, sound.held⟩

/-- A run of faithful events reaches a sound Node. -/
theorem LdpRun.sound (run : LdpRun base_url net trace machine)
    (faithful : ∀ entry ∈ trace, entry.2.Faithful entry.1) :
    OnHome (Home.Sound (Claimed base_url trace) []) machine := by
  induction run with
  | start bare =>
      refine ⟨bareHome, bare, CasHttpStore.intact_empty, ?_, ?_, by simp⟩
      · intro kind key data found
        cases found
      · refine ⟨[], rfl, ?_⟩
        intro id uri named
        obtain ⟨row, member, _⟩ := named
        cases member
  | @step trace machine after event run step induction =>
      obtain ⟨home, local_home, sound⟩ := induction
        fun entry member => faithful entry (List.mem_append_left _ member)
      apply step.sound (fun _ _ => Or.inl)
      · intro value member id uri registers
        exact .inr ⟨(machine, event), by simp, value, member, registers⟩
      · exact faithful (machine, event) (by simp)
      · refine ⟨home, local_home, sound.weaken ?_⟩
        intro id uri claimed
        rcases claimed with own | ⟨entry, member, taken⟩
        · exact .inl own
        · exact .inr ⟨entry, List.mem_append_left _ member, taken⟩

/-- A computation whose outcome is known from every state it may start in. -/
theorem triple_of_run {α : Type} {action : Act α} (value : α)
    {before raising : Machine → Prop}
    (ran : ∀ state, before state → action state = .ok value state) :
    Triple before action (fun found state => before state ∧ found = value)
      raising := by
  constructor
  · intro state found later start returned
    rw [ran state start] at returned
    obtain ⟨sameValue, sameState⟩ := EStateM.Result.ok.inj returned
    exact ⟨by rw [← sameState]; exact start, sameValue.symm⟩
  · intro state raised later start returned
    rw [ran state start] at returned
    cases returned

/-- The blobs are as they were and a document is under the key. -/
def Written (home : Home) (digest : Digest) (order : Json) (after : Home) :
    Prop :=
  after.cas = home.cas ∧
    after.resources .orders digest.hex = some (mintedBytes order)

theorem putResource_written {home : Home} {id : String} {digest : Digest}
    (named : from_ni id = .ok digest) (order : Json) :
    Triple (fun state => state.home = some home) (putResource .orders id order)
      (fun _ => OnHome (Written home digest order))
      (OnHome (Written home digest order)) := by
  have keyed := content_id_fs_key_of_named named
    s!"{ResourceKind.orders.name}_id"
  have ran : ∀ state : Machine, state.home = some home →
      putResource .orders id order state = .ok () { state with
        home := some { home with
          resources := Function.update home.resources .orders
            (Function.update (home.resources .orders) digest.hex
              (some (mintedBytes order))) } } := by
    intro state same
    unfold putResource
    rw [Act.withHome_run same]
    simp only [JsonResourceStore.put, JsonResourceStore.put_bytes,
      Home.resourceStore, keyed, Except.bind, bind]
  constructor
  · intro state value later same returned
    rw [ran state same] at returned
    rw [← (EStateM.Result.ok.inj returned).2]
    refine ⟨_, rfl, rfl, ?_⟩
    dsimp only
    rw [Function.update_self, Function.update_self]
  · intro state raised later same returned
    rw [ran state same] at returned
    cases returned

theorem registerLocator_written {home : Home} {digest : Digest} {order : Json}
    (content_id uri : String) (media_type : Option String) :
    Triple (OnHome (Written home digest order))
      (registerLocator content_id uri media_type)
      (fun _ => OnHome (Written home digest order))
      (OnHome (Written home digest order)) := by
  apply triple_withHome
  · intro other value changed written stepped
    obtain ⟨index, _, returned⟩ := Raised.bind_returns stepped
    rw [← (Prod.mk.inj (Except.ok.inj returned)).2]
    exact written
  · exact fun _ written => written

/-- The Order publish leaves under the key what it wrote, and the blobs as they
were. -/
theorem publishOrder_written (base_url : String) (net : Network) {home : Home}
    {id : String} {digest : Digest}
    {data : Bytes} {text : List Char} {order : Json}
    (local_home : machine.home = some home) (intact : home.cas.Intact)
    (named : from_ni id = .ok digest)
    (there : home.cas.blobs digest = some data)
    (decoded : readText data = .ok text) (loaded : loadText text = .ok order) :
    OnHome (Written home digest order)
      (final (publishOrder base_url net (some id) machine)) := by
  have nonempty : id ≠ "" := by
    intro empty
    have isDigest := (notUri_of_from_ni named).2.2
    rw [empty] at isDigest
    revert isDigest
    decide
  have written : Triple (fun state => state.home = some home)
      (republish base_url net id)
      (fun _ => OnHome (Written home digest order))
      (OnHome (Written home digest order)) := by
    apply Triple.bind (triple_of_run text ?_)
    · intro read
      apply Triple.of_fact
      intro same
      subst same
      apply Triple.bind (triple_of_run order ?_)
      · intro parsed
        apply Triple.of_fact
        intro same
        subst same
        apply Triple.bind (putResource_written named parsed)
        intro _
        apply Triple.bind triple_lift
        intro order_uri
        apply Triple.of_fact
        intro _
        apply Triple.bind (registerLocator_written id order_uri _)
        intro _
        exact Triple.pure fun _ written => written
      · intro state _
        rw [loaded]
        rfl
    · intro state same
      unfold AddressStore.cat
      rw [bind_run_ok (cat_bytes_held net same intact named there), decoded]
      rfl
  have given : (some id).filter (· ≠ "") = some id := by
    simp [Option.filter, nonempty]
  unfold publishOrder
  rw [given]
  have caught : Triple (fun state => state.home = some home)
      (tryCatch (do let uri ← republish base_url net id; pure (some uri))
        fun _ => pure none : Act (Option String))
      (fun _ => OnHome (Written home digest order))
      (OnHome (Written home digest order)) := by
    apply Triple.tryCatch
    · apply Triple.bind written
      intro _
      exact Triple.pure fun _ reached => reached
    · intro _
      exact Triple.pure fun _ reached => reached
  exact caught.final (fun _ _ reached => reached) (fun _ reached => reached)
    local_home

/-- No value that was taken in hints at the resource under another digest. -/
def Undisputed (trace : List (Machine × LdpEvent)) (uri : String)
    (digest : Digest) : Prop :=
  ∀ entry ∈ trace, ∀ value ∈ entry.2.intakes, ∀ content_id,
    (IndexEvent.intake value).Registers content_id uri →
      content_id = to_ni digest

/-- A resource under a digest is the blob of the digest, and reading it on the
Node yields the blob. -/
def ResourcesNamed (base_url : String) (net : Network)
    (trace : List (Machine × LdpEvent)) (machine : Machine) : Prop :=
  ∀ home kind digest data, machine.home = some home →
    home.resources kind digest.hex = some data →
      sha256_hex data = digest ∧ home.cas.blobs digest = some data ∧
        ∀ uri, resource_ldp_uri kind digest.hex base_url = .ok uri →
          LocalUri kind digest uri → Undisputed trace uri digest →
            AddressStore.cat_bytes net uri none machine = .ok data machine

/-- Every state of a run is a sound Node when every event is faithful. -/
theorem LdpRun.all_sound (run : LdpRun base_url net trace machine)
    (faithful : ∀ entry ∈ trace, entry.2.Faithful entry.1) :
    ∀ state ∈ trace.map Prod.fst ++ [machine],
      OnHome (Home.Sound (Claimed base_url trace) []) state := by
  induction run with
  | start bare =>
      intro state member
      rw [List.map_nil, List.nil_append, List.mem_singleton] at member
      rw [member]
      exact (LdpRun.start bare : LdpRun base_url net [] _).sound faithful
  | @step trace machine after event run step induction =>
      intro state member
      rw [List.map_append, List.map_singleton] at member
      rcases List.mem_append.mp member with earlier | last
      · have before : ∀ entry ∈ trace, entry.2.Faithful entry.1 :=
          fun entry inside => faithful entry (List.mem_append_left _ inside)
        obtain ⟨home, local_home, sound⟩ := induction before state earlier
        refine ⟨home, local_home, sound.weaken ?_⟩
        intro id uri claimed
        rcases claimed with own | ⟨entry, inside, taken⟩
        · exact .inl own
        · exact .inr ⟨entry, List.mem_append_left _ inside, taken⟩
      · rw [List.mem_singleton.mp last]
        exact (run.step step).sound faithful

theorem resourcesNamed_of_sound
    (sound : OnHome (Home.Sound (Claimed base_url trace) []) machine) :
    ResourcesNamed base_url net trace machine := by
  intro home kind digest data local_home found
  obtain ⟨other, sameHome, sound⟩ := sound
  rw [local_home, Option.some.injEq] at sameHome
  subst sameHome
  obtain ⟨named, keyed, there⟩ := sound.resources kind digest.hex data found
  have same := Digest.ext_hex keyed
  subst same
  have hash := sound.intact digest data there
  refine ⟨hash, there, ?_⟩
  intro uri located here undisputed
  obtain ⟨rows, sameRows, holds⟩ := sound.records
  apply cat_bytes_resource local_home ?_ ?_ here found hash
  · intro id looked
    rw [sameRows] at looked
    have names := LocatorTable.names_of_find looked
    rw [here.plain] at names
    rcases holds id uri names with own | ⟨entry, member, value, taken, registers⟩
    · exact own.unique located
    · exact undisputed entry member value taken id registers
  · rw [sameRows]
    exact ⟨_, LocatorTable.find_content_id_for_uri_ofRows rows uri⟩

/-- An Order is written as it was read when its resource is its blob after the
publish. -/
theorem faithful_of_named (base_url : String) (net : Network)
    {claims : String → String → Prop} {order_id : Option String}
    (sound : OnHome (Home.Sound claims []) machine)
    (named : ∀ home digest data,
      (final (publishOrder base_url net order_id machine)).home = some home →
        home.resources .orders digest.hex = some data →
          home.cas.blobs digest = some data) :
    (LdpEvent.execute order_id).Faithful machine := by
  cases order_id with
  | none => trivial
  | some id =>
      intro home digest data local_home names there text order decoded loaded
      obtain ⟨other, sameHome, sound⟩ := sound
      rw [local_home, Option.some.injEq] at sameHome
      subst sameHome
      obtain ⟨after, reached, kept, written⟩ :=
        publishOrder_written base_url net local_home
          sound.intact names there decoded loaded
      have blob := named after digest _ reached written
      rw [kept, there, Option.some.injEq] at blob
      exact blob.symm

theorem LdpRun.faithful (run : LdpRun base_url net trace machine)
    (named : ∀ state ∈ trace.map Prod.fst ++ [machine],
      ∀ home kind digest data, state.home = some home →
        home.resources kind digest.hex = some data →
          home.cas.blobs digest = some data) :
    ∀ entry ∈ trace, entry.2.Faithful entry.1 := by
  induction run with
  | start bare =>
      intro entry member
      cases member
  | @step trace machine after event run step induction =>
      have before : ∀ entry ∈ trace, entry.2.Faithful entry.1 := by
        apply induction
        intro state member
        apply named state
        rw [List.map_append, List.map_singleton]
        exact List.mem_append_left _ member
      intro entry member
      rcases List.mem_append.mp member with earlier | last
      · exact before entry earlier
      · rw [List.mem_singleton.mp last]
        cases step with
        | aside => trivial
        | orderRequest => trivial
        | invoice => trivial
        | elsewhere _ _ _ => trivial
        | execute present =>
            apply faithful_of_named base_url net (run.sound before)
            intro home digest data
            exact named _ (by simp) home .orders digest data

end Runs

/-- An Order as another encoder writes it, without a line break. -/
def foreignOrder : Bytes := Utf8.encodeAscii "{}".toList

def foreignDigest : Digest := sha256_hex foreignOrder

/-- A Node that held nothing, after the Order was put into it. -/
def foreignMachine : Machine :=
  final ((Aside.mint foreignOrder none).act "http://n"
    (AddressStore.bareMachine (some .empty)))

theorem foreignMachine_blob :
    (foreignMachine.home.map fun home => home.cas.blobs foreignDigest) =
      some (some foreignOrder) := by
  decide +kernel

end Cats
