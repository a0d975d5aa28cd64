import Converge.Proofs.StoredFleet
import Converge.Task.Deploy
/-!
# The recorded placement stays aligned

From an application without units and a record without machines, plans of unit tasks are executed
and nodes join and leave, in any order and with any errors but of the store's records.  Main
statement: after every such history each machine hosts at most one unit of the application, and the
record lists exactly the machines that host one (`History.aligned`).
-/

namespace Converge

open Simulation (Call)
open Converge.Membership (Document)
open Fleet (Faults Lawful Noting)

variable {σ : Type}

/-! ## Lists in records -/

namespace Fleet

/-- The record under a key lists exactly these machines, in this order; a list that is missing is
empty. -/
def Lists (f : Fleet) (key : String) (ids : List String) : Prop :=
  match f.list? key with
  | none => ids = []
  | some list => list = .ofStrings ids

theorem Lists.nil {f : Fleet} {key : String} (h : f.document.record? key = none) :
    f.Lists key [] := by
  rw [Lists, list?, recordOrEmpty, h]
  rfl

theorem Lists.listed_eq {f : Fleet} {key : String} {ids : List String} (h : f.Lists key ids) :
    f.listed key = ids := by
  unfold Lists at h
  split at h
  · next hnone => rw [h, listed, Placement.machineIds_eq_nil hnone]
  · next list hlist =>
    rw [h] at hlist
    rw [listed, Placement.machineIds_eq hlist]

theorem Notes.lists {f f' : Fleet} {key machine : String} {change : Placement.Change}
    (h : f.Notes key machine change f') : f'.Lists key (change.apply machine (f.listed key)) := by
  rw [Lists, h.list]

/-- What comes back of a document has the lists that the document had. -/
theorem Lists.reread {f : Fleet} {key : String} {ids : List String} (h : f.Lists key ids) :
    Lists { f with document := f.document.reread } key ids := by
  unfold Lists list? recordOrEmpty at h ⊢
  show match (((f.document.reread.record? key).getD .empty).find? Placement.machineIdsKey) with
    | none => ids = []
    | some list => list = Json.ofStrings ids
  rw [Document.getD_record?_reread, Record.find?_reread]
  cases hlist : ((f.document.record? key).getD .empty).find? Placement.machineIdsKey with
  | none =>
    rw [hlist] at h
    exact h
  | some list =>
    rw [hlist] at h
    subst h
    exact Json.reread_ofStrings ids

/-! ## The invariant -/

/-- What is recorded of an application is what is observed of it. -/
structure Aligned (f : Fleet) (model name key : String) (units : List AppUnit)
    (ids : List String) : Prop where
  /-- The units of the application. -/
  deployed : f.units model name = some units
  /-- No machine hosts two units. -/
  spread : Spread units
  /-- The machines in the record. -/
  lists : f.Lists key ids
  /-- No machine is listed twice. -/
  nodup : ids.Nodup
  /-- The listed machines are those that host a unit. -/
  mem_iff : ∀ machine, machine ∈ ids ↔ Hosts units machine

namespace Aligned

variable {f f' : Fleet} {model name key : String} {units units' : List AppUnit}
  {ids : List String}

/-- An application without units is aligned with a record without machines. -/
theorem empty (hunits : f.units model name = some []) (hlists : f.Lists key []) :
    f.Aligned model name key [] [] where
  deployed := hunits
  spread := .nil
  lists := hlists
  nodup := .nil
  mem_iff := by simp [Hosts]

/-- Alignment depends on the units and on the list only. -/
theorem of_lists (h : f.Aligned model name key units ids) (hunits : f'.units = f.units)
    (hlists : f'.Lists key ids) : f'.Aligned model name key units ids where
  deployed := by rw [hunits, h.deployed]
  spread := h.spread
  lists := hlists
  nodup := h.nodup
  mem_iff := h.mem_iff

theorem log (h : f.Aligned model name key units ids) (calls : List Call) :
    (f.log calls).Aligned model name key units ids :=
  h.of_lists rfl h.lists

/-- A change that was due and is noted keeps the record aligned. -/
theorem alter (h : f.Aligned model name key units ids) {task : UnitTask} {machine : String}
    {call : Call} (hdue : task.Due machine units call)
    (halters : UnitTask.Alters machine units call units')
    (hnotes : (f.withUnits model name units').Notes key machine task.change f') :
    f'.Aligned model name key units' (task.change.apply machine ids) where
  deployed := by rw [hnotes.units, units_withUnits]
  spread := halters.spread hdue h.spread
  lists := by
    have hlists := hnotes.lists
    rwa [listed_withUnits, h.lists.listed_eq] at hlists
  nodup := Placement.nodup_apply task.change machine h.nodup
  mem_iff := halters.hosts_iff hdue h.spread h.mem_iff

end Aligned

end Fleet

/-! ## Histories -/

/-- Evaluating a task about an application keeps its record aligned, however the evaluation
ends. -/
theorem Fleet.Aligned.evaluates {task : UnitTask} {fails : Faults} {f f' : Fleet}
    {model name key : String} {units : List AppUnit} {ids : List String} {outcome : Outcome}
    (h : f.Aligned model name key units ids) (hconcerns : task.Concerns model name key)
    (hkeeps : fails.Keeps key) (hevaluates : task.Evaluates fails f units outcome f') :
    ∃ units' ids', f'.Aligned model name key units' ids' := by
  obtain ⟨rfl, rfl, rfl⟩ := hconcerns
  cases hevaluates with
  | blind => exact ⟨units, ids, h.log _⟩
  | idle => exact ⟨units, ids, h.log _⟩
  | ran hmachine hdue hruns =>
    cases hruns with
    | refused => exact ⟨units, ids, (h.log _).log _⟩
    | @changed units' _ _ halters hsettling =>
      rw [Fleet.withUnits_log, Fleet.log_log] at hsettling
      obtain ⟨⟨g, calls, hnotes, rfl⟩, -⟩ := hsettling.of_keeps hkeeps
      obtain ⟨g, hnoted, rfl⟩ := hnotes.exists_of_log
      exact ⟨units', _, ((h.alter hdue halters hnoted).log _).log calls⟩

/-- How a fleet may go on from a state: plans of tasks about an application and a record are
executed, and between them nodes are registered and taken out, which leaves the machines in the
record as they were. -/
inductive History (site : Site (StateM σ)) (view : FleetView σ) (model name key : String) (s : σ) :
    σ → Prop
  | start : History site view model name key s s
  /-- A plan is executed, whether it completes or fails. -/
  | execute {s' : σ} (plan : List UnitTask) (hplan : ∀ task ∈ plan, task.Concerns model name key)
      (h : History site view model name key s s') :
    History site view model name key s ((Plan.execute (plan.map (UnitTask.step site))).run s').2
  /-- A node is registered, in place of one with its name. -/
  | addNode {s' s'' : σ} (node : Node) (hready : view.ready s'')
      (hunits : (view.fleet s'').units = (view.fleet s').units)
      (hnodes : (view.fleet s'').document.nodes =
        ((view.fleet s').document.addNode node).nodes)
      (hlists : ∀ ids, (view.fleet s').Lists key ids → (view.fleet s'').Lists key ids)
      (h : History site view model name key s s') : History site view model name key s s''
  /-- A node is taken out. -/
  | dropNode {s' s'' : σ} (node : String) (hready : view.ready s'')
      (hunits : (view.fleet s'').units = (view.fleet s').units)
      (hnodes : (view.fleet s'').document.nodes =
        ((view.fleet s').document.dropNode node).nodes)
      (hlists : ∀ ids, (view.fleet s').Lists key ids → (view.fleet s'').Lists key ids)
      (h : History site view model name key s s') : History site view model name key s s''

namespace History

variable {site : Site (StateM σ)} {view : FleetView σ} {fails : Faults} {model name key : String}

/-- A history keeps an aligned record aligned. -/
theorem exists_aligned (lawful : Lawful site view fails) (honest : fails.Honest model name key)
    (hkeeps : fails.Keeps key) {s s' : σ} (h : History site view model name key s s')
    (hs : view.ready s)
    (hstart : ∃ units ids, (view.fleet s).Aligned model name key units ids) :
    view.ready s' ∧ ∃ units ids, (view.fleet s').Aligned model name key units ids := by
  induction h with
  | start => exact ⟨hs, hstart⟩
  | execute plan hplan _ ih =>
    -- every step of the plan keeps the invariant, so the evaluation does
    have hstep : ∀ step ∈ plan.map (UnitTask.step site), ∀ s,
        (view.ready s ∧ ∃ units ids, (view.fleet s).Aligned model name key units ids) →
          view.ready (step.evaluate.run s).2 ∧
            ∃ units ids, (view.fleet (step.evaluate.run s).2).Aligned model name key units ids := by
      intro step hmem s ⟨hs, units, ids, haligned⟩
      obtain ⟨task, htask, rfl⟩ := List.mem_map.1 hmem
      have hconcerns := hplan task htask
      obtain ⟨rfl, rfl, rfl⟩ := hconcerns
      obtain ⟨record, s', f', hrun, hsees, hevaluates⟩ :=
        UnitTask.evaluate_run lawful task honest hs haligned.deployed
      rw [hrun, hsees.fleet]
      exact ⟨hsees.ready, haligned.evaluates ⟨rfl, rfl, rfl⟩ hkeeps hevaluates⟩
    rw [Plan.execute_run]
    exact Plan.evaluate_invariant hstep _ ih
  | addNode node hready hunits _ hlists _ ih =>
    obtain ⟨-, units, ids, haligned⟩ := ih
    exact ⟨hready, units, ids, haligned.of_lists hunits (hlists ids haligned.lists)⟩
  | dropNode node hready hunits _ hlists _ ih =>
    obtain ⟨-, units, ids, haligned⟩ := ih
    exact ⟨hready, units, ids, haligned.of_lists hunits (hlists ids haligned.lists)⟩

/-- From an application without units and a record without machines, after any history and with any
errors but of the record's calls, no machine hosts two units of the application, the list in the
record has no duplicate, and it holds exactly the machines of the application, which are also those
that a deployment of it would be pinned to. -/
theorem aligned (lawful : Lawful site view fails)
    (hknown : ∀ f e, fails f (.application model name) e → e.kind = .applicationNotFound →
      f.units model name = none)
    (hkeeps : fails.Keeps key) {s s' : σ} (hs : view.ready s)
    (hunits : (view.fleet s).units model name = some []) (hlists : (view.fleet s).Lists key [])
    (h : History site view model name key s s') :
    ∃ units ids, (view.fleet s').units model name = some units ∧ (units.map (·.machine)).Nodup ∧
      (view.fleet s').Lists key ids ∧ ids.Nodup ∧
      ∀ app : Application, app.units = units → ∀ machine,
        (machine ∈ ids ↔ machine ∈ app.machineIds) ∧
        ∀ deploy : Task.Deploy,
          (machine ∈ ids ↔ machine ∈ Placement.machineIds (deploy.pin app)) := by
  have honest : fails.Honest model name key :=
    ⟨hknown, fun f e hfails _ => (hkeeps.record f e hfails).1⟩
  obtain ⟨-, units, ids, haligned⟩ :=
    h.exists_aligned lawful honest hkeeps hs ⟨[], [], .empty hunits hlists⟩
  refine ⟨units, ids, haligned.deployed, haligned.spread.machines, haligned.lists,
    haligned.nodup, fun app happ machine => ?_⟩
  have hmem : machine ∈ ids ↔ machine ∈ app.machineIds := by
    rw [haligned.mem_iff, Application.mem_machineIds, happ, Hosts]
  refine ⟨hmem, fun deploy => ?_⟩
  rw [deploy.machineIds_pin, hmem]

end History

/-! ## Histories of simulated fleets -/

namespace Simulation.World

open Converge.Membership (FileStore)

variable {expected : String → Error → Prop} {world world' : World} {model name key : String}

/-- A change of the nodes in the file keeps the lists of machines. -/
theorem ready_update (hs : IsReady expected world) (change : Document → Document)
    (hrecords : ∀ doc, (change doc).records = doc.records) (key : String) :
    ∃ world', exec (do FileStore.inRoot.save disk (change (← FileStore.inRoot.load disk))) world =
        (.ok ⟨⟩, world') ∧ IsReady expected world' ∧
      ((fleetView expected).fleet world').units = ((fleetView expected).fleet world).units ∧
      ((fleetView expected).fleet world').document.nodes =
        (change ((fleetView expected).fleet world).document).nodes ∧
      ∀ ids, ((fleetView expected).fleet world).Lists key ids →
        ((fleetView expected).fleet world').Lists key ids := by
  obtain ⟨doc, hdoc⟩ := hs.loads
  obtain ⟨hsound, hfits⟩ := Document.sound_of_ofContent hdoc
  have hsees : (fleetView expected).Sees world ((fleetView expected).fleet world) := ⟨hs, rfl⟩
  have hrecord : ∀ key, (change doc).record? key = doc.record? key := fun key => by
    rw [Document.record?, hrecords, Document.record?]
  obtain ⟨world', hupdate, hsees'⟩ := sees_update hsees hdoc change
    (fun key record h => hsound key record (hrecord key ▸ h))
    (fun key record h => hfits key record (hrecord key ▸ h))
  have hfound : ((fleetView expected).fleet world).document = doc := document_fleet hdoc
  refine ⟨world', hupdate, hsees'.ready, ?_, ?_, fun ids hlists => ?_⟩
  · rw [hsees'.fleet]
  · rw [hsees'.fleet, hfound]
    rfl
  · rw [hsees'.fleet]
    refine Fleet.Lists.reread
      (f := { (fleetView expected).fleet world with document := change doc }) ?_
    unfold Fleet.Lists Fleet.list? Fleet.recordOrEmpty at hlists ⊢
    rw [hfound] at hlists
    dsimp only
    rwa [hrecord]

/-- A node that is registered in the file carries on a history. -/
theorem history_addNode (hs : IsReady expected world')
    (h : History (site FileStore.inRoot) (fleetView expected) model name key world world')
    (node : Node) :
    ∃ world'', exec (FileStore.inRoot.addNode disk node) world' = (.ok ⟨⟩, world'') ∧
      IsReady expected world'' ∧
      History (site FileStore.inRoot) (fleetView expected) model name key world world'' := by
  obtain ⟨world'', hupdate, hready, hunits, hnodes, hlists⟩ :=
    ready_update hs (·.addNode node) (fun _ => rfl) key
  exact ⟨world'', hupdate, hready, .addNode node hready hunits hnodes hlists h⟩

/-- A node that is taken out of the file carries on a history, and so does one that is not there. -/
theorem history_removeNode (hs : IsReady expected world')
    (h : History (site FileStore.inRoot) (fleetView expected) model name key world world')
    (node : String) :
    ∃ result world'', exec (FileStore.inRoot.removeNode disk node) world' = (result, world'') ∧
      IsReady expected world'' ∧
      History (site FileStore.inRoot) (fleetView expected) model name key world world'' := by
  obtain ⟨doc, hdoc⟩ := hs.loads
  have hload := writable.exec_load hs.file
  rw [hdoc] at hload
  by_cases hnode : doc.hasNode node
  · obtain ⟨world'', hupdate, hready, hunits, hnodes, hlists⟩ :=
      ready_update hs (·.dropNode node) (fun _ => rfl) key
    refine ⟨.ok ⟨⟩, world'', ?_, hready, .dropNode node hready hunits hnodes hlists h⟩
    rw [← hupdate, FileStore.removeNode, exec_bind_ok hload, exec_bind_ok hload, if_pos hnode]
  · refine ⟨.error (.nodeNotFound node), world', ?_, hs, h⟩
    rw [FileStore.removeNode, exec_bind_ok hload, if_neg hnode]
    rfl

/-- A fleet with a node and an application without units, whose first unit is slow to become
active. -/
def inactive : World :=
  stored ⟨[⟨"n", "1"⟩], .empty⟩ ⟨[], 0, none, none⟩
    (Dict.empty.insert "wait_until_desired_status" [some (.timeout "not active")])

/-- A unit whose application does not become active is recorded all the same, and stays so when a
node is registered and its own is taken out. -/
theorem aligned_inactive :
    let waits := ErrorOf "wait_until_desired_status"
    let place : UnitTask := .place ⟨⟨"n", "placement", "app", "model", .ofSeconds 5⟩⟩
    let failed := (Plan.execute ([place].map (UnitTask.step (site FileStore.inRoot)))).run inactive
    failed.1.outcome.isFailed ∧
    (failed.2.deployment? "model" "app").map (·.units.map (·.machine)) = some ["1"] ∧
    ∃ registered result left,
      exec (FileStore.inRoot.addNode disk ⟨"m", "2"⟩) failed.2 = (.ok ⟨⟩, registered) ∧
      exec (FileStore.inRoot.removeNode disk "n") registered = (result, left) ∧
      ∃ units ids, ((fleetView waits).fleet left).units "model" "app" = some units ∧
        (units.map (·.machine)).Nodup ∧
        ((fleetView waits).fleet left).Lists "placement" ids ∧ ids.Nodup ∧
        ∀ app : Application, app.units = units → ∀ machine,
          (machine ∈ ids ↔ machine ∈ app.machineIds) ∧
          ∀ deploy : Task.Deploy,
            (machine ∈ ids ↔ machine ∈ Placement.machineIds (deploy.pin app)) := by
  intro waits place failed
  have hended : failed.1.outcome.isFailed ∧
      (failed.2.deployment? "model" "app").map (·.units.map (·.machine)) = some ["1"] := by
    decide +kernel
  refine ⟨hended.1, hended.2, ?_⟩
  have hdoc : Document.ofContent (some (.text (Document.text ⟨[⟨"n", "1"⟩], .empty⟩))) =
      .ok ⟨[⟨"n", "1"⟩], .empty⟩ := Document.ofContent_text nofun
  have hready : IsReady waits inactive :=
    isReady_stored hdoc (fun _ _ => errorOf_of_mem) fun _ _ => List.not_mem_nil
  have hunits : ((fleetView waits).fleet inactive).units "model" "app" = some [] := units_stored
  have hdocument : ((fleetView waits).fleet inactive).document = ⟨[⟨"n", "1"⟩], .empty⟩ :=
    document_stored hdoc
  have hlists : ((fleetView waits).fleet inactive).Lists "placement" [] := .nil (by
    rw [hdocument]
    rfl)
  have hknown : ∀ f e, faultsOf waits f (.application "model" "app") e →
      e.kind = .applicationNotFound → f.units "model" "app" = none := by
    rintro f e (h | h) -
    · exact absurd h (show "get_application" ≠ _ by decide)
    · exact h.1
  have hkeeps : (faultsOf waits).Keeps "placement" :=
    ⟨fun f e h => h.resolve_left (show "read_config" ≠ _ by decide),
      fun f record e h => h.elim (show "update_config" ≠ _ by decide) id⟩
  have hplan : ∀ task ∈ [place], task.Concerns "model" "app" "placement" :=
    List.forall_mem_singleton.2 ⟨rfl, rfl, rfl⟩
  have hexecuted : History (site FileStore.inRoot) (fleetView waits) "model" "app" "placement"
      inactive failed.2 := .execute [place] hplan .start
  have honest : (faultsOf waits).Honest "model" "app" "placement" :=
    ⟨hknown, fun f e hfails _ => (hkeeps.record f e hfails).1⟩
  have hstart := Fleet.Aligned.empty hunits hlists
  obtain ⟨hready', -⟩ :=
    hexecuted.exists_aligned (lawful waits) honest hkeeps hready ⟨[], [], hstart⟩
  obtain ⟨registered, hadded, hready'', hregistered⟩ :=
    history_addNode hready' hexecuted ⟨"m", "2"⟩
  obtain ⟨result, left, hremoved, -, hleft⟩ := history_removeNode hready'' hregistered "n"
  exact ⟨registered, result, left, hadded, hremoved,
    History.aligned (lawful waits) hknown hkeeps hready hunits hlists hleft⟩

end Simulation.World

end Converge
