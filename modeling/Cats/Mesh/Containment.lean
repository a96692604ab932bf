import Cats.Mesh.Layout

/-!
# What materialising an Order may write

Every stage of `getEnhancedBom` is confined to the homes and the temporary
directory, with one proviso on the name the Order gives its Structure home.
-/

namespace Cats

open Effect

theorem Bounds.Stays.weaken {narrow wide : Bounds} {final : Path → Prop}
    {here : Path} {parts : List (List Char)}
    (stays : narrow.Stays final here parts)
    (allowed : ∀ write, narrow.allowed write → wide.allowed write)
    (standing : ∀ path, narrow.standing path → wide.standing path)
    (files : ∀ path, narrow.files path → wide.files path) :
    wide.Stays final here parts := by
  induction stays with
  | arrived holds => exact .arrived holds
  | nul refused => exact .nul refused
  | file there => exact .file (files _ there)
  | made touched _ induction =>
      exact .made (touched.imp (allowed _) (standing _)) induction

/-- The way to a settled place stays where all that leads there stands. -/
theorem Bounds.stays_settled {bounds : Bounds} {text : String}
    (settled : Posix.Settled text)
    (standing : ∀ path, path <+: Posix.resolve text → bounds.standing path) :
    bounds.Stays (fun path => path = Posix.resolve text) []
      (Posix.parts text) := by
  rw [Posix.resolve_eq_foldl]
  refine Bounds.stays_onWay fun way inside => .inr (standing _ ?_)
  have climbs : ['.', '.'] ∉ way := fun member =>
    settled.climbs (inside.subset member)
  rw [Posix.foldl_enter_below (fun part member =>
    Posix.leads_of_mem_parts (inside.subset member)) climbs, settled.resolve]
  exact inside

/-- The bounds once a file is known to be there. -/
def Bounds.holding (bounds : Bounds) (place : Path) : Bounds :=
  { bounds with files := fun path => bounds.files path ∨ path = place }

namespace ContentMesh

variable (net : Network)

section Stages

variable {bounds : Bounds} {start : List Write}

theorem plainName_function : AddressStore.PlainName "function" :=
  ⟨by decide, by decide, by decide⟩

theorem plainName_plant : AddressStore.PlainName "plant" :=
  ⟨by decide, by decide, by decide⟩

theorem plainName_infrastructure : AddressStore.PlainName "infrastructure" :=
  ⟨by decide, by decide, by decide⟩

theorem plainName_process : AddressStore.PlainName "process" :=
  ⟨by decide, by decide, by decide⟩

theorem plainName_infrafunction : AddressStore.PlainName "infrafunction" :=
  ⟨by decide, by decide, by decide⟩

theorem confined_lift {α : Type} (result : Except Raised α) :
    Confined bounds start (Act.lift result) :=
  confined_of_reads (AddressStore.reads_lift result)

/-- Only text names a Structure home. -/
theorem confined_pathText {value : Json} (notText : ∀ text, value ≠ .str text) :
    Confined bounds start (Act.lift value.pathText) False := by
  cases value with
  | str text => exact absurd rfl (notText text)
  | _ => exact confined_throw _

theorem confined_required (missing : String) (id : Option String) :
    Confined bounds start (required missing id) := by
  unfold required
  cases id.filter (· ≠ "") with
  | none => exact confined_throw _
  | some found => exact confined_pure found

theorem condition_of_lift {α : Type} (result : Except Raised α) :
    Ensures (fun value => result = .ok value) (Act.lift result) :=
  ensures_lift fun _ holds => holds

theorem confined_slotId (doc : Json) (stem : String) :
    Confined bounds start (slotId doc stem) :=
  (confined_lift _).bind fun _ _ => confined_withIndex _

theorem confined_slotLocator (doc : Json) (stem missing : String) :
    Confined bounds start (slotLocator doc stem missing) := by
  refine (confined_lift doc.mapping).bind fun _ fields => ?_
  cases ref_uri fields stem with
  | some uri => exact confined_pure uri
  | none =>
      exact (confined_slotId doc stem).bind fun _ id =>
        confined_required missing id

theorem confined_catDocument (content_id : String) :
    Confined bounds start (catDocument net content_id) :=
  (confined_of_reads (AddressStore.reads_cat_bytes net content_id none)).bind
    fun _ _ => confined_lift _

theorem confined_readPairing (order : Json) :
    Confined bounds start (readPairing net order) := by
  unfold readPairing
  refine (confined_slotLocator _ _ _).bind fun _ locator => ?_
  refine (confined_catDocument net locator).bind fun _ paired => ?_
  refine (confined_lift _).bind fun _ structure_filepath => ?_
  refine (confined_slotId paired "root").bind fun _ root => ?_
  refine (confined_slotId paired "plant").bind fun _ plant => ?_
  refine (confined_slotId paired "infrastructure").bind
    fun _ infrastructure => ?_
  refine (confined_required _ root).bind fun _ root_id => ?_
  refine (confined_required _ plant).bind fun _ plant_id => ?_
  refine (confined_required _ infrastructure).bind
    fun _ infrastructure_id => ?_
  exact confined_pure _

/-- `get` to a plain name in a place below which it may write. -/
theorem confined_get {place name : String}
    (plain : AddressStore.PlainName name)
    (stays : bounds.Stays (fun path => ∀ write,
      path ++ [name.toList] <+: write.path → bounds.allowed write) []
      (Posix.parts place)) (content_id : String) :
    Confined bounds start (get net content_id name place) :=
  (AddressStore.confined_get net plain stays content_id none).bind
    fun _ _ => confined_pure name

theorem triple_readDocument (path : String) :
    Triple (Within bounds start) (readDocument path)
      (fun _ => Within (bounds.holding (Posix.resolve path)) start)
      (Logged bounds.allowed start) := by
  have read : Triple (Within bounds start) (Disk.readFile path)
      (fun _ => Within (bounds.holding (Posix.resolve path)) start)
      (Logged bounds.allowed start) := by
    unfold Disk.readFile
    refine Triple.bind (Disk.confined_checkNul path) fun _ => ?_
    refine Triple.get_bind fun machine within => ?_
    cases found : machine.inode? (Posix.resolve path) with
    | none => exact Triple.throw (by rintro _ rfl; exact within.1.log)
    | some inode =>
        cases inode with
        | dir => exact Triple.throw (by rintro _ rfl; exact within.1.log)
        | file data =>
            refine Triple.pure ?_
            rintro _ rfl
            refine ⟨within.1.log, within.1.standing, ?_⟩
            rintro place (isFile | rfl)
            · exact within.1.files place isFile
            · exact ⟨data, found⟩
  refine Triple.bind read fun raw => ?_
  have parsed : Confined (bounds.holding (Posix.resolve path)) start
      (Act.lift (readJson raw)) := confined_lift (readJson raw)
  exact parsed.conseq (fun _ within => within) fun _ _ outcome => outcome.1

/-- A document that was fetched is a file from then on. -/
theorem triple_fetchDocument {home filename : String}
    (plain : AddressStore.PlainName filename)
    (stays : bounds.Stays (fun path => ∀ write,
      path ++ [filename.toList] <+: write.path → bounds.allowed write) []
      (Posix.parts home)) (content_id : String) :
    Triple (Within bounds start) (fetchDocument net content_id home filename)
      (fun _ => Within
        (bounds.holding (Layout.documentPath home filename)) start)
      (Logged bounds.allowed start) := by
  have place : Posix.resolve (home ++ "/" ++ filename) =
      Layout.documentPath home filename := by
    rw [Posix.resolve_eq_foldl, Posix.parts_append_slash, plain.parts,
      List.foldl_append, ← Posix.resolve_eq_foldl]
    exact plain.enter _
  unfold fetchDocument ContentMesh.get
  simp only [bind_assoc, pure_bind]
  refine Triple.bind (AddressStore.confined_get net plain stays content_id none)
    fun _ => ?_
  rw [← place]
  exact (triple_readDocument (home ++ "/" ++ filename)).conseq
    (fun _ outcome => outcome.1) fun _ _ within => within

/-- A body that is confined while its directory is there. -/
theorem confined_withTemporaryDirectory {tmp : String} {body : Act Unit}
    (allowed : bounds.allowed ⟨Posix.resolve tmp, none⟩)
    (closed : ∀ place, bounds.standing place ∨ bounds.files place →
      ∀ above, above <+: place → bounds.standing above ∨ bounds.files above)
    (confined : Confined bounds start body) :
    Confined bounds start (withTemporaryDirectory tmp body) := by
  refine (Disk.confined_mkdtemp allowed closed).bind fun apart _ => ?_
  have guarded : Confined bounds start (tryCatch body fun raised => do
      Disk.rmtree tmp
      throw raised) := by
    refine Triple.tryCatch confined fun raised => ?_
    refine Triple.bind (Disk.logged_rmtree bounds.allowed tmp) fun _ => ?_
    exact Triple.throw fun _ logged => logged
  exact guarded.bind fun _ _ => Disk.confined_rmtree apart

/-- The Structure is laid out where its home may be made. -/
theorem confined_materializeStructure {INPUT_HOME : String}
    {temporary : TemporaryName} {pairing : Pairing}
    (closed : ∀ place, bounds.standing place ∨ bounds.files place →
      ∀ above, above <+: place → bounds.standing above ∨ bounds.files above)
    (standing : ∀ path, path <+: Posix.resolve temporary.directory →
      bounds.standing path)
    (below : ∀ write, Posix.resolve temporary.path <+: write.path →
      bounds.allowed write)
    (stays : ∀ text, pairing.structure_filepath = .str text →
      bounds.Stays (fun path => ∀ write, path <+: write.path →
        bounds.allowed write) [] (Posix.parts (Posix.join INPUT_HOME text))) :
    Confined bounds start
      (materializeStructure net pairing INPUT_HOME temporary.path) := by
  unfold materializeStructure
  cases named : pairing.structure_filepath with
  | str text =>
      have home := stays text named
      have tree : ∀ {name : String}, AddressStore.PlainName name →
          ∀ content_id, Confined bounds start
            (get net content_id (Posix.join text name) INPUT_HOME) := by
        intro name plain content_id
        unfold get
        rw [Posix.join_join INPUT_HOME text plain.noSlash]
        refine (AddressStore.confined_get net plain ?_ content_id none).bind
          fun _ _ => confined_pure _
        refine home.mono fun path inside write deeper => ?_
        exact inside write ((List.prefix_append _ _).trans deeper)
      have fetched : bounds.Stays (fun path => ∀ write,
          path ++ [Packaging.structureRootDirname.toList] <+: write.path →
            bounds.allowed write) [] (Posix.parts temporary.path) := by
        rw [TemporaryName.path, temporary.plain_name.parts_join,
          Bounds.stays_append]
        refine (Bounds.stays_settled temporary.settled standing).mono ?_
        rintro path rfl
        have entered := temporary.plain_name.enter
          (Posix.resolve temporary.directory)
        rw [← temporary.resolve_path] at entered
        apply Bounds.Stays.made
        · rw [entered]
          exact .inl (below _ List.prefix_rfl)
        · rw [entered]
          apply Bounds.Stays.arrived
          intro write deeper
          exact below write ((List.prefix_append _ _).trans deeper)
      have found : (Act.lift (Json.pathText (.str text)) : Act String) =
        pure text := rfl
      rw [found, pure_bind]
      have root : Confined bounds start (materializeRoot net
          pairing.root_locator (Posix.join INPUT_HOME text)
          temporary.path) := by
        refine (confined_get net Packaging.plainName_structureRootDirname
          fetched pairing.root_locator).bind fun _ _ => ?_
        exact Packaging.confined_materialize_structure_root_files _ home
      refine (confined_withTemporaryDirectory (below _ List.prefix_rfl) closed
        root).bind fun _ _ => ?_
      refine (tree plainName_plant _).bind fun _ _ => ?_
      refine (tree plainName_infrastructure _).bind fun _ _ => ?_
      exact confined_pure ()
  | _ =>
      refine (confined_pathText ?_).bind fun impossible _ => impossible.elim
      rintro text ⟨⟩

/-- The Function sources are laid out below the input home. -/
theorem confined_materializeFunction {INPUT_HOME : String}
    (below : ∀ write, Posix.resolve INPUT_HOME <+: write.path →
      bounds.allowed write)
    (stays : bounds.Stays (fun path => path = Posix.resolve INPUT_HOME) []
      (Posix.parts INPUT_HOME)) (order : Json) :
    Confined bounds start (materializeFunction net order INPUT_HOME) := by
  have tree : ∀ {name : String}, AddressStore.PlainName name →
      ∀ content_id, Confined bounds start
        (get net content_id (Posix.join "function" name) INPUT_HOME) := by
    intro name plain content_id
    unfold get
    rw [Posix.join_join INPUT_HOME "function" plain.noSlash]
    refine (AddressStore.confined_get net plain ?_ content_id none).bind
      fun _ _ => confined_pure _
    rw [plainName_function.parts_join, Bounds.stays_append]
    refine stays.mono ?_
    rintro path rfl
    have entered := plainName_function.enter (Posix.resolve INPUT_HOME)
    apply Bounds.Stays.made
    · rw [entered]
      exact .inl (below _ (List.prefix_append _ _))
    · rw [entered]
      apply Bounds.Stays.arrived
      intro write deeper
      rw [List.append_assoc] at deeper
      exact below write ((List.prefix_append _ _).trans deeper)
  unfold materializeFunction
  refine (confined_slotLocator _ _ _).bind fun _ locator => ?_
  refine (confined_catDocument net locator).bind fun _ function => ?_
  refine (confined_slotId function "process_source").bind
    fun _ process_source => ?_
  refine (confined_slotId function "infrafunction_source").bind
    fun _ infrafunction_source => ?_
  refine (confined_required _ process_source).bind
    fun _ process_source_id => ?_
  refine (confined_required _ infrafunction_source).bind
    fun _ infrafunction_source_id => ?_
  refine (tree plainName_process _).bind fun _ _ => ?_
  refine (tree plainName_infrafunction _).bind fun _ _ => ?_
  exact confined_pure ()

end Stages

/-- The Structure home of a pairing is the one the Order names. -/
theorem ensures_readPairing (order : Json) :
    Ensures (fun pairing : Pairing =>
        order.item "structure_filepath" = .ok pairing.structure_filepath)
      (readPairing net order) := by
  unfold readPairing
  apply Ensures.bind
  intro locator
  apply Ensures.bind
  intro paired
  refine Ensures.bind_of (condition_of_lift _) ?_
  intro structure_filepath named
  apply Ensures.bind
  intro root
  apply Ensures.bind
  intro plant
  apply Ensures.bind
  intro infrastructure
  apply Ensures.bind
  intro root_id
  apply Ensures.bind
  intro plant_id
  apply Ensures.bind
  intro infrastructure_id
  exact Ensures.pure named

section Call

variable (layout : Layout) (temporary : TemporaryName)

/-- The writes of a call that stay inside the homes or its temporary
directory. -/
def Contained (write : Write) : Prop :=
  layout.Inside write.path ∨ Posix.resolve temporary.path <+: write.path

/-- The bounds of a call that knows these files to be there. -/
def callBounds (files : Path → Prop) : Bounds :=
  { allowed := Contained layout temporary
    standing := fun path => layout.OnTheWay path ∨
      path <+: Posix.resolve temporary.directory
    files := files }

/-- The homes and the directory for temporary files are there. -/
structure Ready (machine : Machine) : Prop where
  input : machine.Stands layout.INPUT_HOME
  output : machine.Stands layout.OUTPUT_HOME
  directory : machine.Stands temporary.directory

variable {layout temporary}

theorem within_of_ready {machine : Machine}
    (ready : Ready layout temporary machine) :
    Within (callBounds layout temporary fun _ => False) machine.writes
      machine := by
  constructor
  · exact ⟨[], by simp, by simp⟩
  · intro path stands
    rcases stands with (input | output) | directory
    · exact ready.input path input
    · exact ready.output path output
    · exact ready.directory path directory
  · intro path impossible
    exact impossible.elim

theorem stays_INPUT_HOME (files : Path → Prop) :
    (callBounds layout temporary files).Stays
      (fun path => path = Posix.resolve layout.INPUT_HOME) []
      (Posix.parts layout.INPUT_HOME) :=
  Bounds.stays_settled layout.settled_INPUT_HOME
    fun _ inside => .inl (.inl inside)

theorem stays_OUTPUT_HOME (files : Path → Prop) :
    (callBounds layout temporary files).Stays
      (fun path => path = Posix.resolve layout.OUTPUT_HOME) []
      (Posix.parts layout.OUTPUT_HOME) :=
  Bounds.stays_settled layout.settled_OUTPUT_HOME
    fun _ inside => .inl (.inr inside)

theorem plainName_bom : AddressStore.PlainName "bom.json" :=
  ⟨by decide, by decide, by decide⟩

theorem plainName_invoice : AddressStore.PlainName "invoice.json" :=
  ⟨by decide, by decide, by decide⟩

theorem plainName_order : AddressStore.PlainName "order.json" :=
  ⟨by decide, by decide, by decide⟩

/-- A document written in the output home. -/
theorem triple_fetchOutput {filename : String}
    (plain : AddressStore.PlainName filename) (files : Path → Prop)
    (start : List Write) (content_id : String) :
    Triple (Within (callBounds layout temporary files) start)
      (fetchDocument net content_id layout.OUTPUT_HOME filename)
      (fun _ => Within (callBounds layout temporary fun path =>
        files path ∨ path = Layout.documentPath layout.OUTPUT_HOME filename)
        start)
      (Logged (Contained layout temporary) start) := by
  apply triple_fetchDocument net plain
  apply (stays_OUTPUT_HOME files).mono
  intro path here write below
  rw [here] at below
  exact .inl (.inr ((List.prefix_append _ _).trans below))

/-- A document written in the input home. -/
theorem triple_fetchInput {filename : String}
    (plain : AddressStore.PlainName filename) (files : Path → Prop)
    (start : List Write) (content_id : String) :
    Triple (Within (callBounds layout temporary files) start)
      (fetchDocument net content_id layout.INPUT_HOME filename)
      (fun _ => Within (callBounds layout temporary fun path =>
        files path ∨ path = Layout.documentPath layout.INPUT_HOME filename)
        start)
      (Logged (Contained layout temporary) start) := by
  apply triple_fetchDocument net plain
  apply (stays_INPUT_HOME files).mono
  intro path here write below
  rw [here] at below
  exact .inl (.inl ((List.prefix_append _ _).trans below))

theorem Confined.ignoring {bounds : Bounds} {start : List Write} {α : Type}
    {action : Act α} (confined : Confined bounds start action) :
    Triple (Within bounds start) action (fun _ => Within bounds start)
      (Logged bounds.allowed start) :=
  confined.conseq (fun _ within => within) fun _ _ outcome => outcome.1

/-- Once the documents are fetched they are files. -/
theorem triple_fetchDocuments (start : List Write) (bom_json_id : String) :
    Triple (Within (callBounds layout temporary fun _ => False) start)
      (fetchDocuments net bom_json_id layout.INPUT_HOME layout.OUTPUT_HOME)
      (fun _ => Within (callBounds layout temporary
        fun path => path ∈ layout.documents) start)
      (Logged (Contained layout temporary) start) := by
  unfold fetchDocuments
  apply Triple.bind (triple_fetchOutput net plainName_bom _ start bom_json_id)
  intro bom
  apply Triple.bind (Confined.ignoring (confined_lift _))
  intro named
  apply Triple.bind (Confined.ignoring (confined_slotLocator bom _ _))
  intro invoice_locator
  apply Triple.bind (triple_fetchOutput net plainName_invoice _ start
    invoice_locator)
  intro invoice
  apply Triple.bind (Confined.ignoring (confined_lift _))
  intro invoiced
  apply Triple.bind (Confined.ignoring (confined_slotLocator invoice _ _))
  intro order_locator
  apply Triple.bind (triple_fetchInput net plainName_order _ start
    order_locator)
  intro order
  apply Triple.bind (Confined.ignoring (confined_lift _))
  intro enhanced_bom
  apply Triple.pure
  intro machine within
  refine ⟨within.log, within.standing, fun path member => ?_⟩
  apply within.files
  simpa [Layout.documents, or_assoc] using member

/-- What leads to a place that stands, or to a document, stands. -/
theorem callBounds_closed (place : Path)
    (there : (callBounds layout temporary
        fun path => path ∈ layout.documents).standing place ∨
      place ∈ layout.documents) (above : Path) (leads : above <+: place) :
    (callBounds layout temporary
        fun path => path ∈ layout.documents).standing above ∨
      above ∈ layout.documents := by
  have document : ∀ {home : Path} {filename : List Char},
      above <+: home ++ [filename] → above = home ++ [filename] ∨
        above <+: home := by
    intro home filename inside
    exact List.prefix_concat_iff.mp inside
  rcases there with ((input | output) | directory) | member
  · exact .inl (.inl (.inl (leads.trans input)))
  · exact .inl (.inl (.inr (leads.trans output)))
  · exact .inl (.inr (leads.trans directory))
  · simp only [Layout.documents, List.mem_cons, List.not_mem_nil,
      or_false] at member ⊢
    rcases member with rfl | rfl | rfl
    · rcases document leads with same | inside
      · exact .inr (.inl same)
      · exact .inl (.inl (.inr inside))
    · rcases document leads with same | inside
      · exact .inr (.inr (.inl same))
      · exact .inl (.inl (.inr inside))
    · rcases document leads with same | inside
      · exact .inr (.inr (.inr same))
      · exact .inl (.inl (.inl inside))

/-- A Structure home the homes confine. -/
theorem stays_of_confines {structure_filepath : String}
    (confines : layout.Confines structure_filepath) :
    (callBounds layout temporary fun path => path ∈ layout.documents).Stays
      (fun path => ∀ write : Write, path <+: write.path →
        Contained layout temporary write) []
      (Posix.parts (Posix.join layout.INPUT_HOME structure_filepath)) := by
  have wide : (callBounds layout temporary
      fun path => path ∈ layout.documents).Stays layout.Inside []
        (Posix.parts (Posix.join layout.INPUT_HOME structure_filepath)) :=
    Bounds.Stays.weaken confines (fun write inside => .inl inside)
      (fun path stands => .inl stands) (fun path member => member)
  apply wide.mono
  intro path inside write below
  exact .inl (inside.imp (·.trans below) (·.trans below))

variable (layout temporary) in
/-- Every Order the call may fetch gives its Structure home this name. -/
def Names (machine : Machine) (bom_json_id : String)
    (structure_filepath : Json) : Prop :=
  ∀ documents after, fetchDocuments net bom_json_id layout.INPUT_HOME
      layout.OUTPUT_HOME machine = .ok documents after →
    documents.order.item "structure_filepath" = .ok structure_filepath

/-- A call whose Order names a confined Structure home is contained. -/
theorem getEnhancedBom_contained {machine : Machine}
    (ready : Ready layout temporary machine) {bom_json_id : String}
    {structure_filepath : Json}
    (names : Names net layout machine bom_json_id structure_filepath)
    (confines : ∀ text, structure_filepath = .str text →
      layout.Confines text) :
    Logged (Contained layout temporary) machine.writes
      (final (getEnhancedBom net bom_json_id layout.INPUT_HOME
        layout.OUTPUT_HOME temporary.path machine)) := by
  have fetching : Triple
      (Within (callBounds layout temporary fun _ => False) machine.writes)
      _ _ _ := triple_fetchDocuments net machine.writes bom_json_id
  unfold getEnhancedBom
  cases fetched : fetchDocuments net bom_json_id layout.INPUT_HOME
      layout.OUTPUT_HOME machine with
  | error raised after =>
      rw [bind_run_error fetched]
      exact fetching.raised machine raised after (within_of_ready ready) fetched
  | ok documents middle =>
      rw [bind_run_ok fetched]
      have within := fetching.returned machine documents middle
        (within_of_ready ready) fetched
      have named := names documents middle fetched
      have rest : Confined (callBounds layout temporary
          fun path => path ∈ layout.documents) machine.writes (do
            let pairing ← readPairing net documents.order
            materializeStructure net pairing layout.INPUT_HOME temporary.path
            materializeFunction net documents.order layout.INPUT_HOME
            pure (documents.enhanced_bom, documents.bom)) := by
        apply Triple.bind ((confined_readPairing net documents.order).ensuring
          (ensures_readPairing net documents.order))
        intro pairing
        apply Triple.of_fact
        intro paired
        rw [named] at paired
        have home : ∀ text, pairing.structure_filepath = .str text →
            layout.Confines text := fun text same =>
          confines text ((Except.ok.inj paired).trans same)
        apply Triple.bind (Triple.conseq (confined_materializeStructure net
          callBounds_closed (fun path inside => .inr inside)
          (fun write below => .inr below)
          (fun text same => stays_of_confines (home text same)))
          (fun state start => start.1) (fun _ state outcome => outcome.1))
        intro _
        apply Triple.bind (Confined.ignoring (confined_materializeFunction net
          (fun write below => Or.inl (Or.inl below)) (stays_INPUT_HOME _)
          documents.order))
        intro _
        exact confined_pure _
      exact rest.final (fun _ _ outcome => outcome.1.log)
        (fun _ logged => logged) within

end Call

end ContentMesh

end Cats
