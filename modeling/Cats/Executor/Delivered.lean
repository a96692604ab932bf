import Cats.AddressStore.Copy
import Cats.Executor.Gathered

/-!
# What a Job result delivers

Every id is copied under its key before a document is written, so a document
is written only when every cited blob was there.  A run that returns has put
exactly the blobs and the three documents into the result directory.
-/

namespace Cats

open Effect

namespace JobResult

/-- A blob is stored under the digest its id names. -/
theorem stored_digest {store : CasHttpStore} {content_id : String}
    {blob : Bytes} (found : store.get content_id = .ok (some blob)) :
    ∃ digest, from_ni content_id = .ok digest ∧
      store.blobs digest = some blob := by
  unfold CasHttpStore.get at found
  split_ifs at found with named
  · cases read : from_ni content_id with
    | error raised =>
        rw [read] at found
        exact nomatch found
    | ok digest =>
        rw [read] at found
        exact ⟨digest, rfl, Except.ok.inj found⟩
  · cases read : validate_digest_segment content_id with
    | error raised =>
        rw [read] at found
        exact nomatch found
    | ok digest =>
        rw [read] at found
        refine ⟨digest, ?_, Except.ok.inj found⟩
        unfold validate_digest_segment at read
        dsimp only at read
        split_ifs at read with hex
        unfold from_ni
        dsimp only
        rw [dif_pos hex]
        exact read

/-- The key of an id that names a digest. -/
theorem key_of_named {content_id : String} {digest : Digest}
    (named : from_ni content_id = .ok digest) :
    content_id_fs_key content_id = .ok digest.hex :=
  (AddressStore.spells_of_from_ni named).key _

/-- These files were written, in this order, and no blob of the Node changed. -/
structure Delivers (before after : Machine) (written : List (Path × Bytes)) :
    Prop where
  store : store after = store before
  files : after.file? = overlay written before.file?

namespace Delivers

theorem of_wrote {before after : Machine} {written : List (Path × Bytes)}
    (wrote : Wrote before after written) : Delivers before after written := by
  constructor
  · unfold JobResult.store
    rw [wrote.home]
  · exact wrote.files

theorem of_untouched {before after : Machine}
    (untouched : Untouched before after) : Delivers before after [] :=
  ⟨untouched.store, untouched.files⟩

theorem trans {first second third : Machine}
    {left right : List (Path × Bytes)} (start : Delivers first second left)
    (rest : Delivers second third right) :
    Delivers first third (left ++ right) := by
  constructor
  · exact rest.store.trans start.store
  · rw [rest.files, start.files, overlay_append]

end Delivers

/-- The copy of the blob of a digest. -/
def copied (dest_cas : Path) (digest : Digest) : Path :=
  dest_cas ++ [digest.hex.toList]

theorem copied_injective {dest_cas : Path} {left right : Digest}
    (same : copied dest_cas left = copied dest_cas right) : left = right := by
  have last := List.append_cancel_left same
  exact Digest.ext_hex (String.toList_injective (List.cons.inj last).1)

/-- What one copy writes. -/
theorem copy_blob_ok {dest_cas : Path} {content_id : String}
    {machine after : Machine}
    (ran : copy_blob dest_cas content_id machine = .ok () after) :
    ∃ digest blob, from_ni content_id = .ok digest ∧
      (store machine).blobs digest = some blob ∧
      Delivers machine after [(copied dest_cas digest, blob)] := by
  obtain ⟨blob, second, read, ran⟩ := bind_ok ran
  obtain ⟨digest, named, stored⟩ := stored_digest (blobOf_ok read)
  have looked := gathers_blobOf content_id machine
  rw [read, final_ok] at looked
  rw [key_of_named named] at ran
  obtain ⟨_, _, lifted, ran⟩ := bind_ok ran
  cases lifted
  obtain ⟨_, third, made, written⟩ := bind_ok ran
  have directory := wrote_of_ok (Disk.fileless_mkdirParents dest_cas) made
  have file := Disk.writeAt_ok written
  refine ⟨digest, blob, named, stored, ?_⟩
  exact (Delivers.of_untouched looked.untouched).trans
    (Delivers.of_wrote (directory.trans file))

/-- What copying writes, in the order of the ids. -/
def Copies (store : CasHttpStore) (dest_cas : Path) (content_ids : List String)
    (written : List (Path × Bytes)) : Prop :=
  List.Forall₂ (fun content_id file => ∃ digest,
    from_ni content_id = .ok digest ∧ file.1 = copied dest_cas digest ∧
      store.blobs digest = some file.2) content_ids written

theorem copyBlobs_ok {dest_cas : Path} {content_ids : List String}
    {machine after : Machine}
    (ran : copyBlobs dest_cas content_ids machine = .ok () after) :
    ∃ written, Copies (store machine) dest_cas content_ids written ∧
      Delivers machine after written := by
  induction content_ids generalizing machine with
  | nil =>
      cases ran
      exact ⟨[], .nil, .of_untouched (.refl _)⟩
  | cons content_id content_ids induction =>
      obtain ⟨_, middle, first, rest⟩ := bind_ok ran
      obtain ⟨digest, blob, named, stored, start⟩ := copy_blob_ok first
      obtain ⟨written, copies, later⟩ := induction rest
      rw [start.store] at copies
      refine ⟨(copied dest_cas digest, blob) :: written, ?_, start.trans later⟩
      exact .cons ⟨digest, named, rfl, stored⟩ copies

/-- Every file copied is the blob of the digest it is named by. -/
theorem Copies.file {store : CasHttpStore} {dest_cas : Path}
    {content_ids : List String} {written : List (Path × Bytes)}
    (copies : Copies store dest_cas content_ids written)
    {file : Path × Bytes} (member : file ∈ written) :
    ∃ content_id ∈ content_ids, ∃ digest, from_ni content_id = .ok digest ∧
      file.1 = copied dest_cas digest ∧ store.blobs digest = some file.2 := by
  induction copies with
  | nil => exact nomatch member
  | cons first rest induction =>
      rcases List.mem_cons.mp member with rfl | member
      · obtain ⟨digest, named, path, stored⟩ := first
        exact ⟨_, List.mem_cons_self, digest, named, path, stored⟩
      · obtain ⟨content_id, known, digest, facts⟩ := induction member
        exact ⟨content_id, List.mem_cons_of_mem _ known, digest, facts⟩

/-- Every id has its copy. -/
theorem Copies.there {store : CasHttpStore} {dest_cas : Path}
    {content_ids : List String} {written : List (Path × Bytes)}
    (copies : Copies store dest_cas content_ids written) {content_id : String}
    (member : content_id ∈ content_ids) :
    ∃ digest blob, from_ni content_id = .ok digest ∧
      store.blobs digest = some blob ∧
      (copied dest_cas digest, blob) ∈ written := by
  induction copies with
  | nil => exact nomatch member
  | cons first rest induction =>
      rcases List.mem_cons.mp member with rfl | member
      · obtain ⟨digest, named, path, stored⟩ := first
        refine ⟨digest, _, named, stored, ?_⟩
        rw [← path]
        exact List.mem_cons_self
      · obtain ⟨digest, blob, named, stored, present⟩ := induction member
        exact ⟨digest, blob, named, stored, List.mem_cons_of_mem _ present⟩

/-- A digest that was copied is where its key says. -/
theorem Copies.overlaid {store : CasHttpStore} {dest_cas : Path}
    {content_ids : List String} {written : List (Path × Bytes)}
    (copies : Copies store dest_cas content_ids written) {digest : Digest}
    {blob : Bytes} (stored : store.blobs digest = some blob)
    (present : (copied dest_cas digest, blob) ∈ written)
    (files : Path → Option Bytes) :
    overlay written files (copied dest_cas digest) = some blob := by
  have path : copied dest_cas digest ∈ written.map Prod.fst :=
    List.mem_map_of_mem present
  obtain ⟨data, member, value⟩ := @overlay_of_mem _ files _ path
  obtain ⟨_, _, other, _, place, there⟩ := copies.file member
  rw [value]
  cases copied_injective place
  exact there.symm.trans stored

/-- Copying changes no file outside the directory of the copies, whether or
not it finds every blob. -/
structure Outside (directory : Path) (before after : Machine) : Prop where
  store : store after = store before
  files : ∀ path, ¬ directory <+: path → after.file? path = before.file? path

namespace Outside

variable {directory : Path}

theorem refl (machine : Machine) : Outside directory machine machine :=
  ⟨rfl, fun _ _ => rfl⟩

theorem trans {first second third : Machine}
    (left : Outside directory first second)
    (right : Outside directory second third) :
    Outside directory first third := by
  constructor
  · exact right.store.trans left.store
  · intro path apart
    exact (right.files path apart).trans (left.files path apart)

theorem of_untouched {before after : Machine}
    (untouched : Untouched before after) : Outside directory before after :=
  ⟨untouched.store, fun path _ => congrFun untouched.files path⟩

theorem of_delivers {before after : Machine} {written : List (Path × Bytes)}
    (delivers : Delivers before after written)
    (inside : ∀ file ∈ written, directory <+: file.1) :
    Outside directory before after := by
  constructor
  · exact delivers.store
  · intro path apart
    rw [delivers.files]
    apply overlay_of_notMem
    intro member
    obtain ⟨file, present, same⟩ := List.mem_map.mp member
    apply apart
    rw [← same]
    exact inside file present

end Outside

/-- A write that raised wrote nothing. -/
theorem writeAt_error {path : Path} {data : Bytes} {machine after : Machine}
    {raised : Raised} (ran : Disk.writeAt path data machine =
      .error raised after) : after = machine := by
  unfold Disk.writeAt at ran
  rw [bind_run_ok (get_run machine)] at ran
  split_ifs at ran
  · exact (EStateM.Result.error.inj ran).2.symm
  · exact nomatch ran
  · exact (EStateM.Result.error.inj ran).2.symm
  · exact (EStateM.Result.error.inj ran).2.symm

theorem outside_writeAt (directory : Path) (name : List Char) (data : Bytes) :
    Relates (Outside directory)
      (Disk.writeAt (directory ++ [name]) data) := by
  intro machine
  cases ran : Disk.writeAt (directory ++ [name]) data machine with
  | ok value after =>
      apply Outside.of_delivers (Delivers.of_wrote (Disk.writeAt_ok ran))
      intro file member
      rw [List.mem_singleton.mp member]
      exact List.prefix_append directory [name]
  | error raised after =>
      rw [final_error, writeAt_error ran]
      exact .refl machine

theorem outside_of_gathers {α : Type} {directory : Path} {action : Act α}
    (gathers : Gathers action) : Relates (Outside directory) action :=
  fun machine => .of_untouched (gathers machine).untouched

theorem outside_bind {α β : Type} {directory : Path} {action : Act α}
    {next : α → Act β} (first : Relates (Outside directory) action)
    (later : ∀ value, Relates (Outside directory) (next value)) :
    Relates (Outside directory) (action >>= next) :=
  Relates.bind (fun left right => left.trans right) first later

theorem outside_copy_blob (dest_cas : Path) (content_id : String) :
    Relates (Outside dest_cas) (copy_blob dest_cas content_id) := by
  apply outside_bind (outside_of_gathers (gathers_blobOf content_id))
  intro blob
  apply outside_bind
    (outside_of_gathers (gathers_of_reads (AddressStore.reads_lift _)))
  intro key
  apply outside_bind
  · intro machine
    exact .of_untouched (.of_wrote (Disk.fileless_mkdirParents dest_cas machine))
  intro _
  exact outside_writeAt dest_cas key.toList blob

theorem outside_copyBlobs (dest_cas : Path) (content_ids : List String) :
    Relates (Outside dest_cas) (copyBlobs dest_cas content_ids) := by
  induction content_ids with
  | nil => exact fun machine => .refl machine
  | cons content_id content_ids induction =>
      exact outside_bind (outside_copy_blob dest_cas content_id)
        fun _ => induction

/-- The object in a blob of the store. -/
def Holds (store : CasHttpStore) (content_id : String) (obj : Fields) : Prop :=
  ∃ blob text, store.get content_id = .ok (some blob) ∧
    readText blob = .ok text ∧ loadText text = .ok (.obj obj)

/-- An id that a BOM response cites, whatever the locator index holds: its own,
the Invoice's, one in a slot of either document, or one that an entity of the
lineage names, or that it was derived from, any number of steps back. -/
inductive Cited (store : CasHttpStore) (bom_response bom : Fields) :
    String → Prop where
  | bom {bom_id id : String}
      (given : Fields.get? bom_response "content_id" = some (.str bom_id))
      (nonempty : id ≠ "")
      (named : ∀ index, equality_id index (some bom_id) = .ok (some id)) :
      Cited store bom_response bom id
  | invoice {id : String} (cites : Cites bom "invoice" id) :
      Cited store bom_response bom id
  | bomSlot {stem id : String} (member : stem ∈ bomStems)
      (cites : Cites bom stem id) : Cited store bom_response bom id
  | invoiceSlot {invoice_id stem id : String} {invoice : Fields}
      (named : Cites bom "invoice" invoice_id)
      (holds : Holds store invoice_id invoice) (member : stem ∈ invoiceStems)
      (cites : Cites invoice stem id) : Cited store bom_response bom id
  | entity {entity : Json} {id : String} (member : entity ∈ lineage bom)
      (names : ∀ index, Names index entity id) :
      Cited store bom_response bom id

theorem Holds.unique {store : CasHttpStore} {content_id : String}
    {left right : Fields} (one : Holds store content_id left)
    (other : Holds store content_id right) : left = right := by
  obtain ⟨blob, text, found, decoded, loaded⟩ := one
  obtain ⟨blob', text', found', decoded', loaded'⟩ := other
  cases found.symm.trans found'
  cases decoded.symm.trans decoded'
  cases loaded.symm.trans loaded'
  rfl

/-- The Invoice found is the one in the blob the BOM cites. -/
theorem citedInvoice_ok {bom invoice : Fields} {invoice_id : String}
    {machine after : Machine}
    (ran : citedInvoice bom machine = .ok (invoice_id, invoice) after) :
    (∀ id, Cites bom "invoice" id → id = invoice_id) ∧ invoice_id ≠ "" ∧
      Holds (store machine) invoice_id invoice := by
  obtain ⟨named, second, read, ran⟩ := bind_ok ran
  have looked := gathers_withIndex
    (fun index => ref_content_id index bom "invoice") machine
  rw [read, final_ok] at looked
  cases kept : named.filter (· ≠ "") with
  | none =>
      rw [kept] at ran
      exact nomatch ran
  | some id =>
      rw [kept] at ran
      obtain ⟨blob, third, found, ran⟩ := bind_ok ran
      obtain ⟨text, fourth, decoded, ran⟩ := bind_ok ran
      obtain ⟨value, fifth, loaded, ran⟩ := bind_ok ran
      obtain ⟨given, nonempty⟩ := Option.filter_eq_some_iff.mp kept
      cases value with
      | obj fields =>
          cases ran
          refine ⟨?_, of_decide_eq_true nonempty, blob, text, ?_,
            (lift_ok decoded).1, (lift_ok loaded).1⟩
          · intro id cites
            exact Option.some.inj ((cites_ran cites read).symm.trans given)
          · rw [← looked.store]
            exact blobOf_ok found
      | null => exact nomatch ran
      | bool value => exact nomatch ran
      | int value => exact nomatch ran
      | float text => exact nomatch ran
      | str value => exact nomatch ran
      | arr items => exact nomatch ran

theorem cited_content_ids_started {bom_response bom invoice : Fields}
    {invoice_id : String} {machine after : Machine} {found : List String}
    (ran : cited_content_ids bom_response bom invoice invoice_id machine =
      .ok found after) :
    ∃ bom_id, Fields.get? bom_response "content_id" = some (.str bom_id) ∧
      citedFrom bom invoice invoice_id bom_id machine = .ok found after := by
  unfold cited_content_ids at ran
  cases given : Fields.get? bom_response "content_id" with
  | none =>
      rw [given] at ran
      exact nomatch ran
  | some value =>
      rw [given] at ran
      cases value with
      | str bom_id =>
          dsimp only at ran
          split_ifs at ran with blank
          · exact nomatch ran
          · exact ⟨bom_id, rfl, ran⟩
      | null => exact nomatch ran
      | bool value => exact nomatch ran
      | int value => exact nomatch ran
      | float text => exact nomatch ran
      | arr items => exact nomatch ran
      | obj fields => exact nomatch ran

/-- Everything cited is gathered. -/
theorem cited_content_ids_ok {bom_response bom invoice : Fields}
    {invoice_id : String} {machine after : Machine} {found : List String}
    (ran : cited_content_ids bom_response bom invoice invoice_id machine =
      .ok found after)
    (sole : ∀ id, Cites bom "invoice" id → id = invoice_id)
    (holds : Holds (store machine) invoice_id invoice) {id : String}
    (cited : Cited (store machine) bom_response bom id) : id ∈ found := by
  obtain ⟨bom_id, given, ran⟩ := cited_content_ids_started ran
  obtain ⟨named, second, read, ran⟩ := bind_ok ran
  obtain ⟨first, third, slots, ran⟩ := bind_ok ran
  obtain ⟨middle, fourth, more, ran⟩ := bind_ok ran
  obtain ⟨keptFirst, bomSlots⟩ := noteSlots_ok slots
  obtain ⟨keptMiddle, invoiceSlots⟩ := noteSlots_ok more
  have entities := mem_noteEntities _ (reading_ok ran)
  have last : ∀ other ∈ middle, other ∈ found :=
    fun other member => (entities other).mpr (.inl member)
  have start : ∀ other, other = invoice_id ∨ other ≠ "" ∧
      other = (named.filter (· ≠ "")).getD (Text.strip bom_id) →
      other ∈ middle := by
    intro other which
    apply keptMiddle
    apply keptFirst
    rw [mem_note]
    rcases which with rfl | ⟨nonempty, rfl⟩
    · exact .inl (List.mem_singleton.mpr rfl)
    · exact .inr ⟨rfl, nonempty⟩
  cases cited with
  | bom given' nonempty names =>
      cases given.symm.trans given'
      have read' := reading_ok read
      rw [names] at read'
      cases read'
      apply last
      apply start
      refine .inr ⟨nonempty, ?_⟩
      simp [Option.filter, nonempty]
  | invoice cites => exact last _ (start _ (.inl (sole _ cites)))
  | bomSlot member cites =>
      exact last _ (keptMiddle _ (bomSlots _ member _ cites))
  | invoiceSlot named' holds' member cites =>
      cases sole _ named'
      cases holds.unique holds'
      exact last _ (invoiceSlots _ member _ cites)
  | entity member names =>
      exact (entities id).mpr (.inr ⟨_, member, names _⟩)

/-- A sequence that raised did so in its first part or in its second. -/
theorem bind_raised {ε σ α β : Type} {action : Effect ε σ α}
    {next : α → Effect ε σ β} {state after : σ} {raised : ε}
    (ran : (action >>= next) state = .error raised after) :
    action state = .error raised after ∨
      ∃ value middle, action state = .ok value middle ∧
        next value middle = .error raised after := by
  cases first : action state with
  | ok value middle =>
      rw [bind_run_ok first] at ran
      exact .inr ⟨value, middle, rfl, ran⟩
  | error other middle =>
      rw [bind_run_error first] at ran
      cases ran
      exact .inl rfl

/-- What is known once every cited id was gathered. -/
structure Gathered (bom_response bom invoice : Fields) (invoice_id : String)
    (found : List String) (before : Machine) : Prop where
  signed : Fields.get? bom_response "bom" = some (.obj bom)
  sole : ∀ id, Cites bom "invoice" id → id = invoice_id
  holds : Holds (store before) invoice_id invoice
  complete : ∀ id, Cited (store before) bom_response bom id → id ∈ found

theorem signedBom_ok {bom_response bom : Fields}
    (read : signedBom bom_response = .ok bom) :
    Fields.get? bom_response "bom" = some (.obj bom) := by
  unfold signedBom at read
  split at read
  case h_1 fields given =>
    cases read
    exact given
  case h_2 => exact nomatch read

section Run

variable {host : Host} {cats_home : String} {bom_response : Fields}
  {result_dir : Option String} {before after : Machine} {dest : Path}

/-- The two steps that gather know what the store held at the start. -/
theorem gathered_of_ran {bom invoice : Fields} {invoice_id : String}
    {found : List String} {first second third : Machine}
    (signed : signedBom bom_response = .ok bom)
    (start : Untouched before first) (looked : Looked first second)
    (named : citedInvoice bom first = .ok (invoice_id, invoice) second)
    (cited : cited_content_ids bom_response bom invoice invoice_id second =
      .ok found third) :
    Gathered bom_response bom invoice invoice_id found before := by
  obtain ⟨sole, _, holds⟩ := citedInvoice_ok named
  have held : store second = store before := looked.store.trans start.store
  constructor
  · exact signedBom_ok signed
  · exact sole
  · rwa [start.store] at holds
  · intro id member
    rw [← held] at member
    rw [← looked.store] at holds
    exact cited_content_ids_ok cited sole holds member

/-- A run that returned gathered, copied and wrote, one after the other. -/
theorem write_job_result_ok
    (ran : write_job_result host cats_home bom_response result_dir before =
      .ok dest after) :
    ∃ bom invoice invoice_id found written,
      resolve_result_dir host cats_home result_dir = .ok dest ∧
      Gathered bom_response bom invoice invoice_id found before ∧
      Copies (store before) (fileOf dest "cas") found written ∧
      Delivers before after (written ++
        [(fileOf dest "invoice.json", document invoice),
          (fileOf dest "bom.json", document bom),
          (fileOf dest "result.json",
            document (result bom_response bom invoice invoice_id))]) := by
  obtain ⟨bom, _, read, rest⟩ := bind_ok ran
  obtain ⟨signed, rfl⟩ := lift_ok read
  obtain ⟨place, _, sought, placed⟩ := bind_ok rest
  obtain ⟨resolved, rfl⟩ := lift_ok sought
  obtain ⟨_, first, made, ready⟩ := bind_ok placed
  obtain ⟨⟨invoice_id, invoice⟩, second, named, known⟩ := bind_ok ready
  obtain ⟨found, third, cited, listed⟩ := bind_ok known
  obtain ⟨_, fourth, copying, copied⟩ := bind_ok listed
  obtain ⟨_, fifth, writing, returned⟩ := bind_ok copied
  cases returned
  have start := Untouched.of_wrote
    (wrote_of_ok (Disk.fileless_mkdirParents dest) made)
  have looked := gathers_citedInvoice bom first
  rw [named, final_ok] at looked
  have gathered := gathers_cited_content_ids bom_response bom invoice
    invoice_id second
  rw [cited, final_ok] at gathered
  have untouched := (start.trans looked.untouched).trans gathered.untouched
  obtain ⟨written, copies, delivers⟩ := copyBlobs_ok copying
  obtain ⟨_, sixth, invoiceFile, writing⟩ := bind_ok writing
  obtain ⟨_, seventh, bomFile, resultFile⟩ := bind_ok writing
  have documents := ((Disk.writeAt_ok invoiceFile).trans
    (Disk.writeAt_ok bomFile)).trans (Disk.writeAt_ok resultFile)
  rw [untouched.store] at copies
  refine ⟨bom, invoice, invoice_id, found, written, resolved,
    gathered_of_ran signed start looked named cited, copies, ?_⟩
  exact (Delivers.of_untouched untouched).trans
    (delivers.trans (Delivers.of_wrote documents))

/-- A run that raised changed no file outside the directory of the copies, or
had every cited blob copied. -/
theorem write_job_result_raised {raised : Raised}
    (ran : write_job_result host cats_home bom_response result_dir before =
      .error raised after) :
    (∀ path, (∀ dest, resolve_result_dir host cats_home result_dir = .ok dest →
        ¬ fileOf dest "cas" <+: path) → after.file? path = before.file? path) ∨
      ∃ bom invoice invoice_id found written dest,
        Gathered bom_response bom invoice invoice_id found before ∧
        Copies (store before) (fileOf dest "cas") found written := by
  have same : ∀ {middle : Machine}, Untouched before middle → ∀ path,
      (∀ dest, resolve_result_dir host cats_home result_dir = .ok dest →
        ¬ fileOf dest "cas" <+: path) →
      middle.file? path = before.file? path :=
    fun untouched path _ => congrFun untouched.files path
  rcases bind_raised ran with refused | ⟨bom, _, read, rest⟩
  · have kept := gathers_of_reads
      (AddressStore.reads_lift (signedBom bom_response)) before
    rw [refused, final_error] at kept
    exact .inl (same kept.untouched)
  obtain ⟨signed, still⟩ := lift_ok read
  rw [still] at rest
  rcases bind_raised rest with refused | ⟨dest, _, sought, placed⟩
  · have kept := gathers_of_reads (AddressStore.reads_lift
      (resolve_result_dir host cats_home result_dir)) before
    rw [refused, final_error] at kept
    exact .inl (same kept.untouched)
  obtain ⟨resolved, fixed⟩ := lift_ok sought
  rw [fixed] at placed
  rcases bind_raised placed with refused | ⟨_, first, made, ready⟩
  · have kept := Disk.fileless_mkdirParents dest before
    rw [refused, final_error] at kept
    exact .inl (same (.of_wrote kept))
  have start := Untouched.of_wrote
    (wrote_of_ok (Disk.fileless_mkdirParents dest) made)
  rcases bind_raised ready with refused |
    ⟨⟨invoice_id, invoice⟩, second, named, known⟩
  · have kept := gathers_citedInvoice bom first
    rw [refused, final_error] at kept
    exact .inl (same (start.trans kept.untouched))
  have looked := gathers_citedInvoice bom first
  rw [named, final_ok] at looked
  rcases bind_raised known with refused | ⟨found, third, cited, listed⟩
  · have kept := gathers_cited_content_ids bom_response bom invoice
      invoice_id second
    rw [refused, final_error] at kept
    exact .inl (same ((start.trans looked.untouched).trans kept.untouched))
  have gathered := gathers_cited_content_ids bom_response bom invoice
    invoice_id second
  rw [cited, final_ok] at gathered
  have untouched := (start.trans looked.untouched).trans gathered.untouched
  rcases bind_raised listed with refused | ⟨_, fourth, copying, copied⟩
  · have kept := outside_copyBlobs (fileOf dest "cas") found third
    rw [refused, final_error] at kept
    left
    intro path apart
    exact (kept.files path (apart dest resolved)).trans
      (congrFun untouched.files path)
  · obtain ⟨written, copies, _⟩ := copyBlobs_ok copying
    rw [untouched.store] at copies
    exact .inr ⟨bom, invoice, invoice_id, found, written, dest,
      gathered_of_ran signed start looked named cited, copies⟩

/-- The files of the three documents. -/
def documents (dest : Path) : List Path :=
  [fileOf dest "invoice.json", fileOf dest "bom.json",
    fileOf dest "result.json"]

theorem fileOf_ne (dest : Path) {name other : String} (differ : name ≠ other) :
    fileOf dest name ≠ fileOf dest other := by
  intro same
  have last := List.append_cancel_left same
  exact differ (String.toList_injective (List.cons.inj last).1)

/-- A copy is no document. -/
theorem copied_notMem_documents (digest : Digest) :
    copied (fileOf dest "cas") digest ∉ documents dest := by
  intro member
  have longer : ∀ path ∈ documents dest, path.length = dest.length + 1 := by
    intro path member
    simp only [documents, List.mem_cons, List.not_mem_nil, or_false] at member
    rcases member with rfl | rfl | rfl <;> simp [fileOf]
  have length := longer _ member
  simp [copied, fileOf] at length

end Run

section Sample

/-- A process at the root of a system without users. -/
def plainHost : Host :=
  { cwd := "/"
    expanduser := id
    result_dir := none }

/-- The bytes of an Invoice without slots. -/
def plainInvoice : Bytes := [123, 125]

/-- Their sha256. -/
def plainDigest : Digest :=
  { hex := "44136fa355b3678a1146ad16f7e8649e94fb4fc21fe77e8310c060f61caaff8a"
    valid := by decide +kernel }

/-- A Node at `/cats` with that Invoice. -/
def plainNode : Machine :=
  { home := some
      { bareHome with
        cas :=
          { blobs := fun digest =>
              if digest = plainDigest then some plainInvoice
              else none } }
    disk := fun path => if path = ["cats".toList] then some .dir else none
    writes := []
    gets := 0 }

/-- A BOM that cites the Invoice. -/
def plainBom : Fields := [("invoice_uri", .str (to_ni plainDigest))]

def plainResponse : Fields :=
  [("bom", .obj plainBom), ("content_id", .str (to_ni plainDigest))]

/-- The Node once the result directory is there. -/
def plainPlaced : Machine :=
  { plainNode with
    disk := Function.update plainNode.disk ["out".toList] (some .dir)
    writes := [⟨["out".toList], none⟩] }

/-- The run returned. -/
def hasReturned : EStateM.Result Raised Machine Path → Bool
  | .ok _ _ => true
  | .error _ _ => false

theorem equality_id_canonical (index : Option LocatorIndex) (digest : Digest) :
    equality_id index (some (to_ni digest)) = .ok (some (to_ni digest)) := by
  simp [equality_id, to_ni_ne_empty, Except.map]

theorem withIndex_still {α : Type} {value : α} {machine : Machine}
    {step : Option LocatorIndex → Except Raised (α × Option LocatorIndex)}
    (ran : ∀ index, step index = .ok (value, index)) :
    Act.withIndex step machine = .ok value machine := by
  unfold Act.withIndex
  rw [bind_run_ok (get_run machine), ran]
  obtain ⟨home, disk, writes, gets⟩ := machine
  cases home with
  | none => rfl
  | some home => rfl

theorem reading_run {α : Type} {value : α} {machine : Machine}
    {read : Option LocatorIndex → Except Raised α}
    (ran : read (machine.home.map Home.index) = .ok value) :
    reading read machine = .ok value machine := by
  unfold reading
  rw [bind_run_ok (get_run machine), ran]
  rfl

theorem noteSlots_still {obj : Fields} {stems : List String}
    (unset : ∀ stem ∈ stems, ∀ index,
      ref_content_id index obj stem = .ok (none, index))
    (found : List String) (machine : Machine) :
    noteSlots obj stems found machine = .ok found machine := by
  induction stems with
  | nil => rfl
  | cons stem stems induction =>
      unfold noteSlots
      rw [bind_run_ok (withIndex_still (unset stem List.mem_cons_self))]
      exact induction fun other member =>
        unset other (List.mem_cons_of_mem stem member)

theorem filter_to_ni (digest : Digest) :
    (some (to_ni digest)).filter (· ≠ "") = some (to_ni digest) := by
  simp [Option.filter, to_ni_ne_empty]

theorem citedInvoice_plain :
    citedInvoice plainBom plainPlaced =
      .ok (to_ni plainDigest, []) plainPlaced := by
  have uri : ref_uri plainBom "invoice" = some (to_ni plainDigest) := by
    have field : Fields.get? plainBom (uri_field_name "invoice") =
        some (.str (to_ni plainDigest)) := rfl
    simp [ref_uri, field, to_ni_ne_empty]
  have named : ∀ index, ref_content_id index plainBom "invoice" =
      .ok (some (to_ni plainDigest), index) := by
    intro index
    unfold ref_content_id
    rw [uri, equality_id_canonical]
    simp [bind, Except.bind, Option.filter, to_ni_ne_empty]
  have blob : blobOf (to_ni plainDigest) plainPlaced =
      .ok plainInvoice plainPlaced := by
    unfold blobOf
    rw [bind_run_ok (get_run plainPlaced), CasHttpStore.get_to_ni]
    rfl
  unfold citedInvoice
  rw [bind_run_ok (withIndex_still named), filter_to_ni]
  dsimp only
  rw [bind_run_ok blob]
  rfl

theorem cited_content_ids_plain :
    cited_content_ids plainResponse plainBom [] (to_ni plainDigest)
      plainPlaced = .ok [to_ni plainDigest] plainPlaced := by
  have named : reading (fun index =>
      equality_id index (some (to_ni plainDigest))) plainPlaced =
        .ok (some (to_ni plainDigest)) plainPlaced :=
    reading_run (equality_id_canonical _ _)
  have first : note [to_ni plainDigest] (some (to_ni plainDigest)) =
      [to_ni plainDigest] := by
    simp [note, Option.filter, to_ni_ne_empty]
  have given : cited_content_ids plainResponse plainBom [] (to_ni plainDigest) =
      citedFrom plainBom [] (to_ni plainDigest) (to_ni plainDigest) := by
    have field : Fields.get? plainResponse "content_id" =
        some (.str (to_ni plainDigest)) := rfl
    unfold cited_content_ids
    rw [field]
    dsimp only
    rw [if_neg]
    simp [to_ni_ne_empty]
  rw [given]
  unfold citedFrom
  rw [bind_run_ok named, filter_to_ni, Option.getD_some, first]
  refine (bind_run_ok (noteSlots_still ?_ _ _)).trans
    ((bind_run_ok (noteSlots_still ?_ _ _)).trans rfl)
  · intro stem member index
    simp only [bomStems, List.mem_cons, List.not_mem_nil, or_false] at member
    rcases member with rfl | rfl | rfl <;> rfl
  · intro stem member index
    simp only [invoiceStems, List.mem_cons, List.not_mem_nil, or_false]
      at member
    rcases member with rfl | rfl | rfl | rfl <;> rfl

theorem write_job_result_plain :
    hasReturned (write_job_result plainHost "/cats" plainResponse (some "/out")
      plainNode) = true := by
  have front : write_job_result plainHost "/cats" plainResponse (some "/out")
      plainNode = (do
        copyBlobs (fileOf ["out".toList] "cas") [to_ni plainDigest]
        writeDocuments ["out".toList] plainResponse plainBom []
          (to_ni plainDigest)
        pure ["out".toList]) plainPlaced := by
    unfold write_job_result
    refine (bind_run_ok (show Act.lift _ plainNode = .ok plainBom plainNode
      from rfl)).trans ?_
    refine (bind_run_ok (show Act.lift _ plainNode =
      .ok ["out".toList] plainNode from rfl)).trans ?_
    refine (bind_run_ok (show Disk.mkdirParents _ plainNode =
      .ok () plainPlaced from rfl)).trans ?_
    refine (bind_run_ok citedInvoice_plain).trans ?_
    exact bind_run_ok cited_content_ids_plain
  rw [front]
  unfold copyBlobs copy_blob blobOf
  simp only [content_id_fs_key_to_ni, CasHttpStore.get_to_ni]
  decide +kernel

end Sample

section Closed

variable {host : Host} {cats_home : String} {bom_response : Fields}
  {result_dir : Option String} {before : Machine}

end Closed

end JobResult

end Cats
