import Converge.Proofs.Interleaving
import Converge.Proofs.Undoing
import Mathlib.Data.List.Induction
import Mathlib.Logic.Function.Iterate
/-!
# Machines that come and go

The list of machines in a record is a set that remembers the order in which its members have
joined.  Each move reads the record and writes it back, and with it the whole document, so that
every other record comes back from its text once for each move.  Main statement: after moves that
have all succeeded the list is what the moves, one after the other, make of the list that was there,
the nodes are as they were, and every other record and field is as it was just if it is the same
after coming back as many times (`Placement.moveAll_settles_iff_steady`).
-/

namespace Converge

open Converge.Membership (Document FileStore)

variable {σ : Type}

namespace Placement

/-! ## Moves -/

/-- A machine joins a list or leaves it. -/
structure Move where
  machine : String
  change : Change
  deriving DecidableEq

namespace Move

variable {moves : List Move} {ids : List String} {machine : String}

/-- A list of machines after moves. -/
def applyAll (moves : List Move) (ids : List String) : List String :=
  moves.foldl (fun ids move => move.change.apply move.machine ids) ids

/-- What a machine has done last, if it has moved at all. -/
def last? (moves : List Move) (machine : String) : Option Change :=
  (moves.filter (·.machine = machine)).getLast?.map (·.change)

/-- The machines of a list that never leave it. -/
def stayers (moves : List Move) (ids : List String) : List String :=
  ids.filter fun machine => (⟨machine, .leave⟩ : Move) ∉ moves

theorem applyAll_concat (move : Move) :
    applyAll (moves ++ [move]) ids = move.change.apply move.machine (applyAll moves ids) := by
  rw [applyAll, List.foldl_append]
  rfl

theorem last?_concat (move : Move) : last? (moves ++ [move]) machine =
    if move.machine = machine then some move.change else last? moves machine := by
  unfold last?
  rw [List.filter_append, List.filter_singleton]
  by_cases h : move.machine = machine
  · simp [h]
  · simp [h]

theorem stayers_concat_join (joined : String) :
    stayers (moves ++ [⟨joined, .join⟩]) ids = stayers moves ids := by
  simp [stayers]

theorem stayers_concat_leave (left : String) :
    stayers (moves ++ [⟨left, .leave⟩]) ids = (stayers moves ids).filter (· ≠ left) := by
  simp [stayers, List.filter_filter, and_comm]

/-- A machine is listed if joining is what it has done last, or if it was listed and has not
moved. -/
theorem mem_applyAll_iff : machine ∈ applyAll moves ids ↔
    last? moves machine = some .join ∨ last? moves machine = none ∧ machine ∈ ids := by
  induction moves using List.reverseRecOn with
  | nil => simp [applyAll, last?]
  | append_singleton before move ih =>
    obtain ⟨moved, change⟩ := move
    rw [applyAll_concat, last?_concat]
    by_cases h : moved = machine
    · subst h
      cases change <;> simp [mem_apply_join, mem_apply_leave]
    · have hne : machine ≠ moved := fun heq => h heq.symm
      cases change <;> simp [mem_apply_join, mem_apply_leave, ih, h, hne]

/-- The machines that never leave stand first, in the order in which they were listed, and after
them each of those that have joined since then, once. -/
theorem exists_newcomers (moves : List Move) (ids : List String) :
    ∃ newcomers, applyAll moves ids = stayers moves ids ++ newcomers ∧ newcomers.Nodup ∧
      newcomers.Sublist (moves.map (·.machine)) ∧
      ∀ machine ∈ newcomers, machine ∉ stayers moves ids := by
  -- the last move is made in what those before it have left
  induction moves using List.reverseRecOn with
  | nil => exact ⟨[], by simp [applyAll, stayers], .nil, .slnil, nofun⟩
  | append_singleton before move ih =>
    obtain ⟨newcomers, heq, hnodup, hsublist, hnew⟩ := ih
    obtain ⟨moved, change⟩ := move
    rw [applyAll_concat, heq, List.map_append]
    cases change with
    | join =>
      rw [stayers_concat_join]
      by_cases hlisted : moved ∈ stayers before ids ++ newcomers
      · exact ⟨newcomers, if_pos hlisted, hnodup, hsublist.trans (List.sublist_append_left _ _),
          hnew⟩
      · obtain ⟨hstayer, hnewcomer⟩ := not_or.1 (mt List.mem_append.2 hlisted)
        refine ⟨newcomers ++ [moved], ?_, ?_, hsublist.append (.refl _), ?_⟩
        · rw [Change.apply, if_neg hlisted, List.append_assoc]
        · exact hnodup.append (List.nodup_singleton _) (List.disjoint_singleton.2 hnewcomer)
        · exact List.forall_mem_append.2 ⟨hnew, List.forall_mem_singleton.2 hstayer⟩
    | leave =>
      rw [stayers_concat_leave]
      refine ⟨newcomers.filter (· ≠ moved), List.filter_append .., hnodup.filter _, ?_, ?_⟩
      · exact (List.filter_sublist.trans hsublist).trans (List.sublist_append_left _ _)
      · exact fun machine hmem hstayer =>
          hnew machine (List.mem_of_mem_filter hmem) (List.mem_of_mem_filter hstayer)

/-- What moves make of a list of machines. -/
structure Settles (moves : List Move) (ids ids' : List String) : Prop where
  /-- A machine is listed if it has joined last, or if it was listed and has not moved. -/
  mem_iff : ∀ machine, machine ∈ ids' ↔
    last? moves machine = some .join ∨ last? moves machine = none ∧ machine ∈ ids
  /-- Machines that have not moved are listed in the order and as often as they were. -/
  unmoved : ids'.filter (· ∉ moves.map (·.machine)) = ids.filter (· ∉ moves.map (·.machine))
  /-- Machines that have joined stand after those that have stayed. -/
  joined : ∃ newcomers, ids' = stayers moves ids ++ newcomers ∧
    newcomers.Sublist (moves.map (·.machine))
  /-- A machine that was not listed is listed once. -/
  once : ∀ machine ∉ ids, machine ∈ ids' → ids'.count machine = 1
  nodup : ids.Nodup → ids'.Nodup

theorem settles_applyAll (moves : List Move) (ids : List String) :
    Settles moves ids (applyAll moves ids) := by
  obtain ⟨newcomers, heq, hnodup, hsublist, hnew⟩ := exists_newcomers moves ids
  refine ⟨fun _ => mem_applyAll_iff, ?_, ⟨newcomers, heq, hsublist⟩, ?_, fun h => ?_⟩
  · have hstayers : (stayers moves ids).filter (· ∉ moves.map (·.machine)) =
        ids.filter (· ∉ moves.map (·.machine)) := by
      rw [stayers, List.filter_filter]
      refine List.filter_congr fun machine _ => ?_
      by_cases h : machine ∈ moves.map (·.machine)
      · simp [h]
      · have hstays : (⟨machine, .leave⟩ : Move) ∉ moves :=
          fun hmem => h (List.mem_map_of_mem hmem)
        simp [hstays]
    have hnewcomers : newcomers.filter (· ∉ moves.map (·.machine)) = [] :=
      List.filter_eq_nil_iff.2 fun machine hmem => by simpa using hsublist.subset hmem
    rw [heq, List.filter_append, hstayers, hnewcomers, List.append_nil]
  · intro machine hunlisted hlisted
    have hstayer : machine ∉ stayers moves ids :=
      fun hmem => hunlisted (List.mem_of_mem_filter hmem)
    rw [heq] at hlisted
    have hmem := (List.mem_append.1 hlisted).resolve_left hstayer
    rw [heq, List.count_append, List.count_eq_zero.2 hstayer, List.count_eq_one_of_mem hnodup hmem]
  · rw [heq]
    exact (h.filter _).append hnodup fun machine hstayer hmem => hnew machine hmem hstayer

/-- The laws of moves, as far as the list can tell. -/
structure Laws : Prop where
  /-- A machine that is not listed joins at the end. -/
  join_new : ∀ machine ids, machine ∉ ids → applyAll [⟨machine, .join⟩] ids = ids ++ [machine]
  idempotent : ∀ move, applyAll [move, move] = applyAll [move]
  leave_join : ∀ machine,
    applyAll [⟨machine, .join⟩, ⟨machine, .leave⟩] = applyAll [⟨machine, .leave⟩]
  join_comm : ∀ machine other ids id,
    id ∈ applyAll [⟨machine, .join⟩, ⟨other, .join⟩] ids ↔
      id ∈ applyAll [⟨other, .join⟩, ⟨machine, .join⟩] ids

theorem laws : Laws where
  join_new _ _ h := if_neg h
  idempotent move := by
    obtain ⟨machine, change⟩ := move
    funext ids
    cases change with
    | join => exact if_pos (mem_apply_join.2 (.inl rfl))
    | leave => exact List.filter_filter.trans (List.filter_congr fun _ _ => Bool.and_self _)
  leave_join machine := funext (Placement.leave_join machine)
  join_comm machine other ids id := by
    show id ∈ Change.join.apply other (Change.join.apply machine ids) ↔
      id ∈ Change.join.apply machine (Change.join.apply other ids)
    simp only [mem_apply_join]
    exact or_left_comm

end Move

/-- Notes moves in a store, one after the other. -/
def moveAll {m : Type → Type} [Monad m] (store : MembershipStore m) (key : String)
    (moves : List Move) : ExceptT Error m Unit :=
  forM moves fun move => note store key move.machine move.change

end Placement

open Placement (Move)

/-! ## Coming back many times -/

namespace Record

theorem find?_iterate_reread (times : Nat) (record : Record) (field : String) :
    (Record.reread^[times] record).find? field = (record.find? field).map Json.reread^[times] := by
  induction times with
  | zero => exact Option.map_id.symm ▸ rfl
  | succ times ih =>
    rw [Function.iterate_succ_apply', find?_reread, ih, Option.map_map, Function.iterate_succ']

theorem machineIds_iterate_reread (times : Nat) (record : Record) :
    Placement.machineIds (Record.reread^[times] record) = Placement.machineIds record := by
  induction times with
  | zero => rfl
  | succ times ih => rw [Function.iterate_succ_apply', Placement.machineIds_reread, ih]

end Record

namespace Membership.Document

section

variable {key : String} {moves : List Move} {doc : Document} {times : Nat}

theorem nodes_iterate_reread : (Document.reread^[times] doc).nodes = doc.nodes := by
  induction times with
  | zero => rfl
  | succ times ih => rw [Function.iterate_succ_apply', nodes_reread, ih]

theorem record?_iterate_reread :
    (Document.reread^[times] doc).record? key =
      (doc.record? key).map Record.reread^[times] := by
  induction times with
  | zero => exact Option.map_id.symm ▸ rfl
  | succ times ih =>
    rw [Function.iterate_succ_apply', record?_reread, ih, Option.map_map, Function.iterate_succ']

theorem getD_record?_iterate_reread :
    ((Document.reread^[times] doc).record? key).getD .empty =
      Record.reread^[times] ((doc.record? key).getD .empty) := by
  have hreread : Function.Semiconj (fun doc : Document => (doc.record? key).getD .empty)
      Document.reread Record.reread := fun doc => getD_record?_reread doc key
  exact hreread.iterate_right times doc

/-- A plain change is made to the document that has come back many times as it is to the
document. -/
theorem iterate_reread_revise {change : Record → Record} (h : Record.Plain change) :
    Document.reread^[times] (doc.revise key change) =
      (Document.reread^[times] doc).revise key change := by
  have hcommute : Function.Commute Document.reread (revise key change) := fun _ => reread_revise h
  exact hcommute.iterate_left times doc

/-! ## A document after moves -/

/-- The document after moves in the list under a key. -/
def moved (key : String) (moves : List Move) (doc : Document) : Document :=
  moves.foldl (fun doc move => doc.revise key (Placement.amend move.change move.machine)) doc

theorem nodes_moved : (doc.moved key moves).nodes = doc.nodes := by
  induction moves generalizing doc with
  | nil => rfl
  | cons move rest ih => exact ih

theorem record?_moved_of_ne {other : String} (h : other ≠ key) :
    (doc.moved key moves).record? other = doc.record? other := by
  induction moves generalizing doc with
  | nil => rfl
  | cons move rest ih => exact ih.trans (record?_revise.trans (if_neg h))

theorem getD_record?_revise {change : Record → Record} :
    ((doc.revise key change).record? key).getD .empty =
      change ((doc.record? key).getD .empty) := by
  rw [record?_revise, if_pos rfl, Option.getD_some]

theorem machineIds_moved : Placement.machineIds (((doc.moved key moves).record? key).getD .empty) =
    Move.applyAll moves (Placement.machineIds ((doc.record? key).getD .empty)) := by
  induction moves generalizing doc with
  | nil => rfl
  | cons move rest ih =>
    refine ih.trans ?_
    rw [getD_record?_revise, Placement.machineIds_amend]
    rfl

theorem find?_moved_of_ne {field : String} (h : field ≠ "machine_ids") :
    (((doc.moved key moves).record? key).getD .empty).find? field =
      ((doc.record? key).getD .empty).find? field := by
  induction moves generalizing doc with
  | nil => rfl
  | cons move rest ih =>
    refine ih.trans ?_
    rw [getD_record?_revise, Placement.find?_amend_of_ne _ _ _ h]

/-- Nothing but the list is left under its key as soon as there is a move. -/
theorem find?_moved (h : moves ≠ []) :
    (((doc.moved key moves).record? key).getD .empty).find? "machine_ids" =
      some (.ofStrings (Placement.machineIds
        (((doc.moved key moves).record? key).getD .empty))) := by
  induction moves using List.reverseRecOn with
  | nil => exact absurd rfl h
  | append_singleton before move _ =>
    rw [moved, List.foldl_append, List.foldl_cons, List.foldl_nil, getD_record?_revise,
      Placement.machineIds_amend]
    exact Placement.find?_amend ..

/-- But for the list of machines under a key, the records of a document are the same after coming
back from their text as many times. -/
structure SteadyBesideFor (doc : Document) (key : String) (times : Nat) : Prop where
  records : ∀ other ≠ key, ∀ record, doc.record? other = some record →
    Record.reread^[times] record = record
  fields : ∀ field ≠ "machine_ids", ∀ value,
    ((doc.record? key).getD .empty).find? field = some value → Json.reread^[times] value = value

/-- A legible document is the same however often it comes back. -/
theorem steadyBesideFor_of_legible (h : doc.Legible) : doc.SteadyBesideFor key times := by
  obtain ⟨hsound, -, hsteady⟩ := legible_iff.1 h
  have hreread := hsound.reread_eq_iff.2 hsteady
  have hrecord (other : String) (record : Record) (hfind : doc.record? other = some record) :
      Record.reread record = record := by
    have hmap := record?_reread doc other
    rw [hreread, hfind] at hmap
    exact (Option.some.inj hmap).symm
  refine ⟨fun other _ record hfind => Function.iterate_fixed (hrecord other record hfind) times,
    fun field _ value hvalue => Function.iterate_fixed ?_ times⟩
  have hrecords : Record.reread ((doc.record? key).getD .empty) = (doc.record? key).getD .empty :=
    getD_record? (p := fun record => Record.reread record = record) rfl hrecord
  have hmap := Record.find?_reread ((doc.record? key).getD .empty) field
  rw [hrecords, hvalue] at hmap
  exact (Option.some.inj hmap).symm

theorem agreesBeside_moved_iff :
    doc.AgreesBeside key ((Document.reread^[times] doc).moved key moves) ↔
      doc.SteadyBesideFor key times := by
  have hrecord : ∀ other ≠ key, ((Document.reread^[times] doc).moved key moves).record? other =
      (doc.record? other).map Record.reread^[times] := fun other hother =>
    (record?_moved_of_ne hother).trans record?_iterate_reread
  have hfield : ∀ field ≠ "machine_ids",
      ((((Document.reread^[times] doc).moved key moves).record? key).getD .empty).find? field =
        (((doc.record? key).getD .empty).find? field).map Json.reread^[times] := by
    intro field h
    rw [find?_moved_of_ne h, getD_record?_iterate_reread, Record.find?_iterate_reread]
  rw [agreesBeside_iff_of_map hrecord hfield]
  exact ⟨fun ⟨records, fields⟩ => ⟨records, fields⟩, fun ⟨records, fields⟩ => ⟨records, fields⟩⟩

end

end Membership.Document

/-! ## Moves in a store -/

namespace Placement

section

variable {store : FileStore} {disk : Disk (StateM σ)} {view : FileView σ} {s s' : σ}
  {doc : Document} {key : String} {moves : List Move}

/-- Each move is made in the document as it has come back from the move before it. -/
theorem document_of_moveAll (transacts : store.Transacts disk view) (hs : view.ready s)
    (hdoc : view.document s = .ok doc)
    (hrun : exec (moveAll (store.toStore disk) key moves) s = (.ok ⟨⟩, s')) :
    view.document s' = .ok ((Document.reread^[moves.length] doc).moved key moves) := by
  induction moves generalizing s doc with
  | nil =>
    cases hrun
    exact hdoc
  | cons move rest ih =>
    rw [moveAll, List.forM_cons] at hrun
    obtain ⟨_, -, he⟩ | ⟨_, s₁, hnote, hrest⟩ := exec_bind_cases hrun
    · cases he
    have hplain := plain_amend move.change move.machine
    have hchanges : view.Changes (·.revise key (amend move.change move.machine)) s (.ok ⟨⟩) s₁ :=
      Update.exec_run transacts hs (.note key move.machine move.change) hnote
    obtain ⟨hsound, hfits⟩ := Document.sound_of_ofContent hdoc
    have hdoc₁ := hchanges.document_eq hdoc (hsound.revise key hplain) (hfits.revise key hplain)
    -- a plain change may as well be made after the coming back for the moves that follow
    rw [ih hchanges.1 hdoc₁ hrest, ← Function.iterate_succ_apply,
      Document.iterate_reread_revise hplain]
    rfl

/-- After moves that have all succeeded the list is what they make, one after the other, of the
texts that were listed; the nodes are as they were, and so is every other record and field just if
it is the same after coming back from its text once for each move. -/
theorem moveAll_settles_iff_steady (transacts : store.Transacts disk view) (hs : view.ready s)
    (hdoc : view.document s = .ok doc)
    (hrun : exec (moveAll (store.toStore disk) key moves) s = (.ok ⟨⟩, s')) :
    ∃ doc', view.document s' = .ok doc' ∧
      let record := (doc.record? key).getD .empty
      let record' := (doc'.record? key).getD .empty
      machineIds record' = Move.applyAll moves (machineIds record) ∧
      Move.Settles moves (machineIds record) (machineIds record') ∧ Move.Laws ∧
      (moves ≠ [] → record'.find? "machine_ids" = some (.ofStrings (machineIds record'))) ∧
      doc'.nodes = doc.nodes ∧
      (doc.AgreesBeside key doc' ↔ doc.SteadyBesideFor key moves.length) := by
  have hlisted : machineIds
      ((((Document.reread^[moves.length] doc).moved key moves).record? key).getD .empty) =
        Move.applyAll moves (machineIds ((doc.record? key).getD .empty)) := by
    rw [Document.machineIds_moved, Document.getD_record?_iterate_reread,
      Record.machineIds_iterate_reread]
  refine ⟨_, document_of_moveAll transacts hs hdoc hrun, hlisted, ?_, Move.laws,
    Document.find?_moved, Document.nodes_moved.trans Document.nodes_iterate_reread,
    Document.agreesBeside_moved_iff⟩
  rw [hlisted]
  exact Move.settles_applyAll _ _

end

/-- On a writable path moves succeed. -/
theorem exec_moveAll {store : FileStore} {disk : Disk (StateM σ)} {ready prepared : σ → Prop}
    {file temporary : σ → Option Content} {s : σ} {doc : Document}
    (writable : store.Writable disk ready prepared file temporary) (hs : ready s)
    (hdoc : Document.ofContent (file s) = .ok doc) (key : String) (moves : List Move) :
    ∃ s', exec (moveAll (store.toStore disk) key moves) s = (.ok ⟨⟩, s') := by
  induction moves generalizing s doc with
  | nil => exact ⟨s, rfl⟩
  | cons move rest ih =>
    have hread := writable.exec_recordOrEmpty hs key
    rw [hdoc] at hread
    have hplain := plain_amend move.change move.machine
    obtain ⟨s₁, hwrite, hs₁, hfile⟩ := writable.exec_update hs hdoc
      (·.setRecord key (amend move.change move.machine ((doc.record? key).getD .empty)))
    have hnote : exec (note (store.toStore disk) key move.machine move.change) s =
        (.ok ⟨⟩, s₁) := (exec_bind_ok hread _).trans hwrite
    obtain ⟨hsound, hfits⟩ := Document.sound_of_ofContent hdoc
    have hdoc₁ : Document.ofContent (file s₁) =
        .ok (doc.revise key (amend move.change move.machine)).reread := by
      rw [hfile]
      exact Document.ofContent_text_reread (hsound.revise key hplain) (hfits.revise key hplain)
    obtain ⟨s', hrest⟩ := ih hs₁ hdoc₁
    refine ⟨s', ?_⟩
    rw [moveAll, List.forM_cons]
    exact (exec_bind_ok hnote _).trans hrest

/-! ### A list that was edited by hand -/

section

open Membership.FileStore (inRoot treeDisk rootFile? RootIsReady writable_treeDisk driftingText)

/-- Moves in a list with an entry that is no text, beside another field and a node. -/
theorem moveAll_settles_iff_steady_inRoot :
    let record : Record :=
      .ofList [("machine_ids", .arr [.str "1", .null, .str "2"]), ("size", .int 3)]
    let doc := (Document.mk [⟨"node-1", "1"⟩] .empty).setRecord "placement" record
    let moves : List Move := [⟨"3", .join⟩, ⟨"1", .leave⟩, ⟨"2", .join⟩, ⟨"1", .join⟩]
    ∃ tree doc', exec (moveAll (inRoot.toStore treeDisk) "placement" moves)
        ⟨[(["cluster.json"], .file (.text doc.text))], []⟩ = (.ok ⟨⟩, tree) ∧
      Document.ofContent (rootFile? "cluster.json" tree) = .ok doc' ∧
      machineIds ((doc'.record? "placement").getD .empty) = ["2", "3", "1"] ∧
      doc'.nodes = doc.nodes ∧ doc.AgreesBeside "placement" doc' := by
  intro record doc moves
  have hrecord : (Json.ofRecord record).Legible Document.recordDepth := by
    refine .obj (Dict.sorted record) fun field hmem => ?_
    obtain rfl | rfl : field = ("machine_ids", .arr [.str "1", .null, .str "2"]) ∨
        field = ("size", .int 3) := by simpa using Dict.mem_of_mem_ofList hmem
    · exact .arr (by simp [Json.Legible.str, Json.Legible.null])
    · exact .int (by decide)
  have hempty : (Document.mk [⟨"node-1", "1"⟩] .empty).Legible := nofun
  have hlegible : doc.Legible := hempty.setRecord "placement" hrecord
  have hdoc := Document.ofContent_text hlegible
  have hsteady : doc.SteadyBesideFor "placement" moves.length :=
    Document.steadyBesideFor_of_legible hlegible
  have hready : RootIsReady ⟨[(["cluster.json"], .file (.text doc.text))], []⟩ := .file _
  obtain ⟨tree, hrun⟩ := exec_moveAll writable_treeDisk hready hdoc "placement" moves
  obtain ⟨doc', hdoc', hlisted, -, -, -, hnodes, hagrees⟩ :=
    moveAll_settles_iff_steady writable_treeDisk.transacts hready hdoc hrun
  exact ⟨tree, doc', hrun, hdoc', hlisted, hnodes, hagrees.2 hsteady⟩

/-- A single move changes the record under another key. -/
theorem not_agreesBeside_drifting :
    ∃ doc tree doc', Document.ofContent (some (.text driftingText)) = .ok doc ∧
      exec (moveAll (inRoot.toStore treeDisk) "placement" [⟨"1", .join⟩])
        ⟨[(["cluster.json"], .file (.text driftingText))], []⟩ = (.ok ⟨⟩, tree) ∧
      Document.ofContent (rootFile? "cluster.json" tree) = .ok doc' ∧
      doc'.record? "other" ≠ doc.record? "other" := by
  have hdoc := Document.ofContent_of_isSome driftingText (by decide +kernel)
  have hready : RootIsReady ⟨[(["cluster.json"], .file (.text driftingText))], []⟩ := .file _
  obtain ⟨tree, hrun⟩ := exec_moveAll writable_treeDisk hready hdoc "placement" [⟨"1", .join⟩]
  refine ⟨_, tree, _, hdoc, hrun,
    document_of_moveAll writable_treeDisk.transacts hready hdoc hrun, fun hkept => ?_⟩
  -- the record has come back from the file once
  rw [Document.record?_moved_of_ne (by decide), Document.record?_iterate_reread] at hkept
  have hform := congrArg (Option.map fun record => (Json.ofRecord record).compact) hkept
  exact absurd hform (by decide +kernel)

end

end Placement

end Converge
