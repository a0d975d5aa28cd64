import Converge.Proofs.FaultyDisk
import Mathlib.Data.List.Induction
import Mathlib.Logic.Function.Iterate
/-!
# Reading back what was written

A record is written two levels below the top of the document, and every later write reads the whole
document and writes it again.  So a record is unreadable, and the store with it, when it is nested
deeper than the reader of documents goes, and a double in it goes through its text once for each
write.  Main statement: when calls on a store have succeeded one after another, the store can be
loaded just if the last call did not write a record that is nested too deeply, and then a record is
the one that was written last under its key just if it is still the same after as many readings
(`Write.readBack_iff`).
-/

namespace Converge.Membership.Write

open FileStore (treeDisk)

variable {store : FileStore} {tree tree' : FileTree} {doc : Document} {write : Write}
  {writes : List Write} {key : String}

/-! ## One call -/

/-- What is written can be held. -/
def Sound : Write → Prop
  | .record _ value => (Json.ofRecord value).Sound
  | _ => True

/-- What is written is nested no deeper than the reader of documents goes. -/
def Fits : Write → Prop
  | .record _ value => (Json.ofRecord value).depth ≤ Document.recordDepth
  | _ => True

/-- The key of the record that is written. -/
def key? : Write → Option String
  | .record key _ => some key
  | _ => none

theorem sound_apply (h : doc.Sound) (hwrite : write.Sound) : (write.apply doc).Sound := by
  cases write with
  | register node => exact h
  | remove name => exact h
  | record key value => exact h.setRecord key hwrite

theorem fits_apply_iff (h : doc.Fits) : (write.apply doc).Fits ↔ write.Fits := by
  cases write with
  | register node => exact iff_of_true h trivial
  | remove name => exact iff_of_true h trivial
  | record key value =>
    refine ⟨fun hfits => ?_, h.setRecord key⟩
    refine hfits key value ?_
    rw [apply, Document.record?_setRecord, if_pos rfl]

/-- What a call makes of the nodes has nothing to do with the records. -/
theorem nodes_apply {doc doc' : Document} (h : doc.nodes = doc'.nodes) :
    (write.apply doc).nodes = (write.apply doc').nodes := by
  cases write with
  | register node => simp only [apply, Document.addNode, Document.dropNode, h]
  | remove name => simp only [apply, Document.dropNode, h]
  | record key value => exact h

theorem record?_apply (h : write.key? ≠ some key) :
    (write.apply doc).record? key = doc.record? key := by
  cases write with
  | register node => rfl
  | remove name => rfl
  | record other value =>
    rw [apply, Document.record?_setRecord, if_neg fun heq => h (congrArg some heq.symm)]

/-- After a call the store can be loaded just if the call wrote nothing that is nested too deeply,
and what is loaded has been through its text. -/
theorem exec_load_run (hload : exec (store.load treeDisk) tree = (.ok doc, tree))
    (hsound : write.Sound) (hrun : exec (write.run store treeDisk) tree = (.ok ⟨⟩, tree')) :
    ((∃ doc', exec (store.load treeDisk) tree' = (.ok doc', tree')) ↔ write.Fits) ∧
      (write.Fits → exec (store.load treeDisk) tree' = (.ok (write.apply doc).reread, tree')) := by
  obtain ⟨hdoc, hfits⟩ := Document.sound_of_ofContent (FileStore.ofContent_of_exec_load hload)
  have happlied : (write.apply doc).Sound := sound_apply hdoc hsound
  obtain ⟨loaded, hloaded, -, hcontent⟩ := @content?_of_exec_run store write none tree tree' hrun
  cases hload.symm.trans hloaded
  have hafter := FileStore.exec_load_of_content hcontent
  rw [hafter, ← fits_apply_iff hfits]
  refine ⟨?_, fun hfits' => by rw [Document.ofContent_text_reread happlied hfits']⟩
  simp only [Prod.mk.injEq, and_true]
  exact Document.ofContent_text_iff happlied

/-! ## Calls one after another -/

/-- The document after calls, each of which has read what the one before it has written. -/
def settled (writes : List Write) (doc : Document) : Document :=
  writes.foldl (fun doc write => (write.apply doc).reread) doc

theorem nodes_settled : (settled writes doc).nodes =
    (writes.foldl (fun doc write => write.apply doc) doc).nodes := by
  unfold settled
  induction writes using List.reverseRecOn with
  | nil => rfl
  | append_singleton before write ih =>
    rw [List.foldl_append, List.foldl_append]
    exact nodes_apply ih

/-- A record that is not written goes through its text once for each call. -/
theorem record?_settled (h : ∀ write ∈ writes, write.key? ≠ some key) :
    (settled writes doc).record? key =
      (doc.record? key).map (Record.reread^[writes.length]) := by
  induction writes generalizing doc with
  | nil => exact Option.map_id.symm ▸ rfl
  | cons write rest ih =>
    obtain ⟨hwrite, hrest⟩ := List.forall_mem_cons.1 h
    refine (ih hrest).trans ?_
    rw [Document.record?_reread, record?_apply hwrite, Option.map_map, List.length_cons,
      Function.iterate_succ]

/-- After calls that have all succeeded the store can be loaded just if the last one wrote nothing
that is nested too deeply. -/
theorem exec_load_forM (hload : exec (store.load treeDisk) tree = (.ok doc, tree))
    (hsound : ∀ write ∈ writes, write.Sound)
    (hrun : exec (forM writes (run store treeDisk)) tree = (.ok ⟨⟩, tree')) :
    ((∃ doc', exec (store.load treeDisk) tree' = (.ok doc', tree')) ↔
        ∀ last ∈ writes.getLast?, last.Fits) ∧
      ((∀ last ∈ writes.getLast?, last.Fits) →
        exec (store.load treeDisk) tree' = (.ok (settled writes doc), tree')) := by
  induction writes using List.reverseRecOn generalizing tree' with
  | nil =>
    cases hrun
    exact ⟨iff_of_true ⟨doc, hload⟩ nofun, fun _ => hload⟩
  | append_singleton before write ih =>
    rw [List.forM_append] at hrun
    obtain ⟨_, -, he⟩ | ⟨_, tree₁, hbefore, hrest⟩ := exec_bind_cases hrun
    · cases he
    rw [List.forM_cons] at hrest
    obtain ⟨_, -, he⟩ | ⟨_, tree₂, hlast, hdone⟩ := exec_bind_cases hrest
    · cases he
    cases hdone
    obtain ⟨hsound₁, hsound₂⟩ := List.forall_mem_append.1 hsound
    obtain ⟨hiff, hsettled⟩ := ih hsound₁ hbefore
    -- the last call has loaded what the calls before it have left
    obtain ⟨_, he, -⟩ | ⟨loaded, tree₂, hloaded, -⟩ := exec_run_cases hlast
    · cases he
    obtain rfl : tree₂ = tree₁ := FileStore.tree_of_exec_load hloaded
    have hload₁ := hsettled (hiff.1 ⟨loaded, hloaded⟩)
    obtain ⟨hfits, hreread⟩ := exec_load_run hload₁ (hsound₂ write List.mem_cons_self) hlast
    rw [List.getLast?_concat, settled, List.foldl_append]
    refine ⟨hfits.trans ⟨?_, fun h => h write rfl⟩, fun h => hreread (h write rfl)⟩
    rintro h _ ⟨⟩
    exact h

/-! ## What is read -/

/-- What is done with the document gives a value just if the document can be loaded and gives it. -/
theorem exec_load_bind_eq_ok_iff {α : Type} {rest : Document → ExceptT Error (StateM FileTree) α}
    {value : α} : (exec (store.load treeDisk >>= rest) tree).1 = .ok value ↔
      ∃ doc, exec (store.load treeDisk) tree = (.ok doc, tree) ∧
        (exec (rest doc) tree).1 = .ok value := by
  rcases hload : exec (store.load treeDisk) tree with ⟨e | doc, tree'⟩
  · rw [exec_bind_error hload]
    exact iff_of_false nofun fun ⟨doc, h, _⟩ => nomatch h
  · obtain rfl : tree' = tree := FileStore.tree_of_exec_load hload
    rw [exec_bind_ok hload]
    constructor
    · exact fun h => ⟨doc, rfl, h⟩
    · rintro ⟨_, ⟨⟩, h⟩
      exact h

theorem exec_nodes_eq_ok_iff {nodes : List Node} :
    (exec (store.toStore treeDisk).nodes tree).1 = .ok nodes ↔
      ∃ doc, exec (store.load treeDisk) tree = (.ok doc, tree) ∧ doc.nodes = nodes :=
  exec_load_bind_eq_ok_iff.trans
    (exists_congr fun _ => and_congr_right fun _ => ⟨Except.ok.inj, congrArg Except.ok⟩)

theorem exec_record_eq_ok_iff {value : Record} :
    (exec ((store.toStore treeDisk).record key) tree).1 = .ok value ↔
      ∃ doc, exec (store.load treeDisk) tree = (.ok doc, tree) ∧ doc.record? key = some value := by
  refine exec_load_bind_eq_ok_iff.trans (exists_congr fun doc => and_congr_right fun _ => ?_)
  cases doc.record? key with
  | none => exact iff_of_false nofun nofun
  | some record => exact ⟨fun h => congrArg some (Except.ok.inj h),
      fun h => congrArg Except.ok (Option.some.inj h)⟩

/-- When calls have succeeded one after another, the store can be loaded, and the nodes are those
that the calls have made, just if the last call wrote nothing that is nested too deeply; and then a
record is read as it was written just if it is still the same after it has gone through its text
once for the call that wrote it and once for each call since then. -/
theorem readBack_iff (hload : exec (store.load treeDisk) tree = (.ok doc, tree))
    (hsound : ∀ write ∈ writes, write.Sound)
    (hrun : exec (forM writes (run store treeDisk)) tree = (.ok ⟨⟩, tree')) :
    let readable := ∀ last ∈ writes.getLast?, last.Fits
    ((∃ doc', exec (store.load treeDisk) tree' = (.ok doc', tree')) ↔ readable) ∧
    ((exec (store.toStore treeDisk).nodes tree').1 =
      .ok (writes.foldl (fun doc write => write.apply doc) doc).nodes ↔ readable) ∧
    ∀ (before after : List Write) (key : String) (value : Record),
      writes = before ++ .record key value :: after →
      (∀ write ∈ after, write.key? ≠ some key) →
      ((exec ((store.toStore treeDisk).record key) tree').1 = .ok value ↔
        readable ∧ Record.reread^[after.length + 1] value = value) := by
  intro readable
  obtain ⟨hiff, hsettled⟩ := exec_load_forM hload hsound hrun
  refine ⟨hiff, ⟨fun h => ?_, fun h => ?_⟩, ?_⟩
  · obtain ⟨doc', hdoc', -⟩ := exec_nodes_eq_ok_iff.1 h
    exact hiff.1 ⟨doc', hdoc'⟩
  · exact exec_nodes_eq_ok_iff.2 ⟨_, hsettled h, nodes_settled⟩
  · rintro before after key value rfl hafter
    have hrecord : (settled (before ++ .record key value :: after) doc).record? key =
        some (Record.reread^[after.length + 1] value) := by
      rw [settled, List.foldl_append, List.foldl_cons]
      refine (record?_settled hafter).trans ?_
      rw [Document.record?_reread, apply, Document.record?_setRecord, if_pos rfl, Option.map_some,
        Option.map_some, Function.iterate_succ_apply]
    rw [exec_record_eq_ok_iff]
    constructor
    · rintro ⟨doc', hdoc', hvalue⟩
      have hreadable := hiff.1 ⟨doc', hdoc'⟩
      cases hdoc'.symm.trans (hsettled hreadable)
      exact ⟨hreadable, Option.some.inj (hrecord.symm.trans hvalue)⟩
    · rintro ⟨hreadable, hvalue⟩
      exact ⟨_, hsettled hreadable, hrecord.trans (congrArg some hvalue)⟩

/-! ## Records with one field -/

section

open FileStore (inRoot)

/-- A record with one field. -/
def single (value : Json) : Record :=
  .ofList [("x", value)]

theorem sound_single {value : Json} (h : value.Sound) : (Json.ofRecord (single value)).Sound := by
  refine .obj (Dict.sorted _) fun field hmem => ?_
  obtain rfl := List.mem_singleton.1 (Dict.mem_of_mem_ofList hmem)
  exact h

theorem rootIsReady_empty : FileStore.RootIsReady FileTree.empty := by
  intro name _
  nofun

theorem exec_load_empty :
    exec (inRoot.load treeDisk) FileTree.empty = (.ok .empty, FileTree.empty) :=
  FileStore.writable_treeDisk.exec_load rootIsReady_empty

/-- In the root a call succeeds that applies to what is there. -/
theorem exec_run_inRoot (hready : FileStore.RootIsReady tree)
    (hload : exec (inRoot.load treeDisk) tree = (.ok doc, tree)) (happlies : write.Applies doc) :
    ∃ tree', exec (write.run inRoot treeDisk) tree = (.ok ⟨⟩, tree') ∧
      FileStore.RootIsReady tree' := by
  obtain ⟨tree', hsave, hready', -⟩ :=
    FileStore.writable_treeDisk.exec_save hready (write.apply doc)
  exact ⟨tree', (exec_run hload happlies).trans hsave, hready'⟩

/-- A record and then a node are written, and both are read as they were written. -/
theorem readBack_inRoot :
    let value := single (.arr [.int 1, .str "y"])
    ∃ tree, exec (forM [.record "k" value, .register ⟨"n1", "1"⟩] (run inRoot treeDisk))
        FileTree.empty = (.ok ⟨⟩, tree) ∧
      (exec (inRoot.toStore treeDisk).nodes tree).1 = .ok [⟨"n1", "1"⟩] ∧
      (exec ((inRoot.toStore treeDisk).record "k") tree).1 = .ok value := by
  intro value
  have hvalue : (Write.record "k" value).Sound :=
    sound_single (.arr (by simp [Json.Sound.str, Json.Sound.int]))
  have hfits : (Write.record "k" value).Fits := show (Json.ofRecord value).depth ≤ _ by decide
  -- the two calls are made one after the other
  obtain ⟨tree₁, hrun₁, hready₁⟩ := @exec_run_inRoot _ _ (.record "k" value) rootIsReady_empty
    exec_load_empty trivial
  have hload₁ := (exec_load_run exec_load_empty hvalue hrun₁).2 hfits
  obtain ⟨tree₂, hrun₂, -⟩ := @exec_run_inRoot _ _ (.register ⟨"n1", "1"⟩) hready₁ hload₁ trivial
  have hrun : exec (forM [.record "k" value, .register ⟨"n1", "1"⟩] (run inRoot treeDisk))
      FileTree.empty = (.ok ⟨⟩, tree₂) := by
    rw [List.forM_cons, exec_bind_ok hrun₁, List.forM_cons, exec_bind_ok hrun₂]
    rfl
  have hsound : ∀ write ∈ [Write.record "k" value, .register ⟨"n1", "1"⟩], write.Sound :=
    List.forall_mem_cons.2 ⟨hvalue, List.forall_mem_singleton.2 trivial⟩
  obtain ⟨-, hnodes, hrecord⟩ := readBack_iff exec_load_empty hsound hrun
  have hreadable : ∀ last ∈ [Write.record "k" value, .register ⟨"n1", "1"⟩].getLast?,
      last.Fits := by
    rintro _ ⟨⟩
    trivial
  have hafter : ∀ write ∈ [Write.register ⟨"n1", "1"⟩], write.key? ≠ some "k" :=
    List.forall_mem_singleton.2 nofun
  exact ⟨tree₂, hrun, hnodes.2 hreadable,
    (hrecord [] _ "k" value rfl hafter).2 ⟨hreadable, rfl⟩⟩

/-- A record with the number 7.119999999999999e183, whose text stands for another number. -/
def drifting : Record :=
  single (.real ⟨7357421036902835716⟩)

/-- A record with a number that is not steady is not read as it was written. -/
theorem not_readBack_drifting :
    ∃ tree, exec ((Write.record "k" drifting).run inRoot treeDisk) FileTree.empty =
        (.ok ⟨⟩, tree) ∧
      (exec ((inRoot.toStore treeDisk).record "k") tree).1 ≠ .ok drifting := by
  obtain ⟨tree, hrun, -⟩ := @exec_run_inRoot _ _ (.record "k" drifting) rootIsReady_empty
    exec_load_empty trivial
  have hsound : (Write.record "k" drifting).Sound := sound_single (.real (by decide +kernel))
  have hfits : (Write.record "k" drifting).Fits :=
    show (Json.ofRecord drifting).depth ≤ _ by decide
  have hload := (exec_load_run exec_load_empty hsound hrun).2 hfits
  refine ⟨tree, hrun, fun h => ?_⟩
  obtain ⟨doc, hdoc, hrecord⟩ := exec_record_eq_ok_iff.1 h
  cases hload.symm.trans hdoc
  have hform := congrArg (Option.map fun record => (Json.ofRecord record).compact) hrecord
  exact absurd hform (by decide +kernel)

end

end Converge.Membership.Write
