import Converge.Proofs.StoredFleet
/-!
# Executing a failed task again

The check of a unit task looks at the units only, so that a task which has changed them is skipped
when it is executed again, whether or not the machine was noted.  Main statement: after a failure,
an execution without errors brings the units to where the task wants them, and the record agrees
with them exactly when the call that had failed was not one on the record
(`UnitTask.rerun_listed_iff`).
-/

namespace Converge

open Simulation (Call World)
open Converge.Membership (Document FileStore)
open Fleet (Faults Lawful Noting)

variable {σ : Type}

/-- Whether a call is on the record under a key. -/
def OnRecord (key : String) : Call → Prop
  | .record key' => key' = key
  | .setRecord key' _ => key' = key
  | _ => False

/-- Whether the last of some calls is on the record under a key. -/
def EndsOnRecord (key : String) (calls : List Call) : Prop :=
  ∃ call ∈ calls.getLast?, OnRecord key call

theorem endsOnRecord_concat {key : String} {calls : List Call} {call : Call} :
    EndsOnRecord key (calls ++ [call]) ↔ OnRecord key call := by
  rw [EndsOnRecord, List.getLast?_concat]
  exact ⟨fun ⟨_, hcall, h⟩ => Option.some.inj hcall ▸ h, fun h => ⟨call, rfl, h⟩⟩

theorem endsOnRecord_append {key : String} {calls calls' : List Call}
    (h : EndsOnRecord key calls') : EndsOnRecord key (calls ++ calls') := by
  obtain ⟨call, hlast, hcall⟩ := h
  exact ⟨call, List.mem_getLast?_append_of_mem_getLast? hlast, hcall⟩

namespace UnitTask

/-! ## Failures -/

section

variable {task : UnitTask} {machine : String} {units units' : List AppUnit} {call : Call}

/-- A change that was due leaves the machine as the task wants it to be, if no more than one unit
was on it. -/
theorem Alters.satisfied (halters : Alters machine units call units')
    (hdue : task.Due machine units call)
    (hone : (units.filter (·.machine = machine)).length ≤ 1) : task.Satisfied machine units' := by
  cases hdue with
  | place hlacks =>
    cases halters with
    | place hmachine hfresh => exact hosts_insert.2 (.inl hmachine.symm)
  | @withdraw _ _ _ unit hfind =>
    have hmem := List.mem_of_find?_eq_some hfind
    obtain rfl : unit.machine = machine := by simpa using List.find?_some hfind
    cases halters with
    | withdraw =>
      rintro ⟨other, hother, hmachine⟩
      obtain ⟨hother, hname⟩ := List.mem_filter.1 hother
      -- two units with different names would both be on the machine
      have hne : other ≠ unit := fun heq => of_decide_eq_true hname (congrArg AppUnit.name heq)
      have hnodup : [other, unit].Nodup := List.nodup_cons.2 ⟨by simpa using hne, by simp⟩
      have hpair : [other, unit] ⊆ units.filter (·.machine = unit.machine) := by
        simp [hother, hmem, hmachine]
      have htwo := (List.subperm_of_subset hnodup hpair).length_le
      rw [List.length_cons, List.length_singleton] at htwo
      omega

/-- Whether a machine is as a task wants it to be depends on whether it hosts a unit. -/
theorem satisfied_congr (task : UnitTask) (h : Hosts units machine ↔ Hosts units' machine) :
    task.Satisfied machine units ↔ task.Satisfied machine units' := by
  cases task with
  | place task => exact h
  | withdraw task => exact not_congr h

/-- What is noted of a machine agrees with the units, once it is as the task wants it to be. -/
theorem mem_apply_iff (task : UnitTask) {ids : List String}
    (hsatisfied : task.Satisfied machine units') :
    machine ∈ task.change.apply machine ids ↔ Hosts units' machine := by
  cases task with
  | place task =>
    exact iff_of_true (Placement.mem_apply_join.2 (.inl rfl)) hsatisfied
  | withdraw task =>
    exact iff_of_false (fun hmem => (Placement.mem_apply_leave.1 hmem).2 rfl) hsatisfied

end

/-- What a failed evaluation may leave, with the calls that it has made. -/
inductive Leaves (task : UnitTask) (f : Fleet) (units : List AppUnit) :
    List Call → Fleet → Prop
  /-- Nothing was changed. -/
  | unchanged {calls : List Call} (hcalls : ¬ EndsOnRecord task.target.key calls) :
    Leaves task f units calls (f.log calls)
  /-- The units were changed, but a call on the record failed. -/
  | unnoted {machine : String} {call : Call} {units' : List AppUnit} {calls : List Call}
      (hmachine : f.machineOf? task.target.node = some machine)
      (hdue : task.Due machine units call) (halters : Alters machine units call units')
      (hcalls : EndsOnRecord task.target.key calls) :
    Leaves task f units calls
      ((f.withUnits task.target.model task.target.application units').log calls)
  /-- The units were changed and the machine noted. -/
  | noted {machine : String} {call : Call} {units' : List AppUnit} {calls : List Call}
      (hmachine : f.machineOf? task.target.node = some machine)
      (hdue : task.Due machine units call) (halters : Alters machine units call units')
      {g : Fleet} (hnotes : (f.withUnits task.target.model task.target.application units').Notes
        task.target.key machine task.change g)
      (hcalls : ¬ EndsOnRecord task.target.key calls) :
    Leaves task f units calls (g.log calls)

theorem not_onRecord_looks (task : UnitTask) (key : String) :
    ∀ call ∈ task.looks, ¬ OnRecord key call := by
  simp [looks, OnRecord]

theorem Due.not_onRecord {task : UnitTask} {machine key : String} {units : List AppUnit}
    {call : Call} (h : task.Due machine units call) : ¬ OnRecord key call := by
  cases h <;> exact id

theorem not_onRecord_wait (task : UnitTask) (key : String) : ¬ OnRecord key task.wait := by
  cases task <;> exact id

/-- A failed evaluation has changed nothing, or has failed on the record or on the wait after a
change of the units. -/
theorem Evaluates.leaves {task : UnitTask} {fails : Faults} {f f' : Fleet} {units : List AppUnit}
    {outcome : Outcome} (h : task.Evaluates fails f units outcome f') (hfailed : outcome.isFailed) :
    ∃ calls, task.Leaves f units calls f' := by
  cases h with
  | blind hblind =>
    refine ⟨_, .unchanged fun ⟨call, hlast, hcall⟩ => ?_⟩
    have hmem := hblind.looks_prefix.subset (List.mem_of_getLast? hlast)
    exact task.not_onRecord_looks _ call hmem hcall
  | idle => cases hfailed
  | ran hmachine hdue hruns =>
    cases hruns with
    | refused =>
      rw [Fleet.log_log]
      exact ⟨_, .unchanged fun hends => hdue.not_onRecord (endsOnRecord_concat.1 hends)⟩
    | changed halters hsettling =>
      rw [Fleet.withUnits_log, Fleet.log_log] at hsettling
      cases hsettling with
      | unnoted hnoting =>
        cases hnoting with
        | unread =>
          rw [Fleet.log_log]
          exact ⟨_, .unnoted hmachine hdue halters (endsOnRecord_append ⟨_, rfl, rfl⟩)⟩
        | unwritten =>
          rw [Fleet.log_log]
          exact ⟨_, .unnoted hmachine hdue halters (endsOnRecord_append ⟨_, rfl, rfl⟩)⟩
      | unsettled hnoting =>
        cases hnoting with
        | noted hnotes =>
          obtain ⟨g, hnoted, rfl⟩ := hnotes.exists_of_log
          rw [Fleet.log_log, Fleet.log_log, ← List.append_assoc]
          exact ⟨_, .noted hmachine hdue halters hnoted fun hends =>
            task.not_onRecord_wait _ (endsOnRecord_concat.1 hends)⟩
      | settled => cases hfailed

/-- A failed evaluation leaves a machine whose list, if nothing more is due there, agrees with the
units unless the call that has failed was one on the record. -/
theorem Leaves.listed_iff {task : UnitTask} {f f' : Fleet} {units : List AppUnit} {machine : String}
    {calls : List Call} (h : task.Leaves f units calls f')
    (hunits : f.units task.target.model task.target.application = some units)
    (hmachine : f.machineOf? task.target.node = some machine)
    (hone : (units.filter (·.machine = machine)).length ≤ 1)
    (hlisted : machine ∈ f.listed task.target.key ↔ Hosts units machine) :
    ∃ units', f'.calls = f.calls ++ calls ∧
      f'.units task.target.model task.target.application = some units' ∧
      f'.machineOf? task.target.node = some machine ∧
      (task.Satisfied machine units' ∨ (units'.filter (·.machine = machine)).length ≤ 1) ∧
      ((task.Satisfied machine units' →
          (machine ∈ f'.listed task.target.key ↔ Hosts units' machine)) ↔
        ¬ EndsOnRecord task.target.key calls) := by
  cases h with
  | unchanged hcalls =>
    refine ⟨units, rfl, by rw [Fleet.units_log, hunits], hmachine, .inr hone,
      iff_of_true (fun _ => ?_) hcalls⟩
    rw [Fleet.listed_log]
    exact hlisted
  | @unnoted other _ units' _ hother hdue halters hcalls =>
    obtain rfl : machine = other := by
      rwa [hmachine, Option.some.injEq] at hother
    have hsatisfied := halters.satisfied hdue hone
    refine ⟨units', rfl, Fleet.units_withUnits _ _ _ _, hmachine, .inl hsatisfied,
      iff_of_false (fun hagrees => ?_) (not_not.2 hcalls)⟩
    have hagrees := hagrees hsatisfied
    rw [Fleet.listed_log, Fleet.listed_withUnits, hlisted] at hagrees
    -- the list still tells what the machine hosted before the change
    exact hdue.not_satisfied ((task.satisfied_congr hagrees).2 hsatisfied)
  | @noted other _ units' _ hother hdue halters g hnotes hcalls =>
    obtain rfl : machine = other := by
      rwa [hmachine, Option.some.injEq] at hother
    have hsatisfied := halters.satisfied hdue hone
    have hcalled : (g.log calls).calls = f.calls ++ calls := congrArg (· ++ calls) hnotes.calls
    refine ⟨units', hcalled, ?_, (hnotes.machineOf? _).trans hmachine, .inl hsatisfied,
      iff_of_true (fun _ => ?_) hcalls⟩
    · rw [Fleet.units_log, hnotes.units, Fleet.units_withUnits]
    · rw [Fleet.listed_log, hnotes.listed]
      exact task.mem_apply_iff hsatisfied

/-! ## The second execution -/

section

variable {site : Site (StateM σ)} {view : FleetView σ} {fails : Faults} {task : UnitTask}
  {machine : String} {units : List AppUnit}

/-- The report on a plan of one step is about its record. -/
theorem execute_single {step : Step (StateM σ)} {s s' : σ} {record : StepRecord}
    (h : step.evaluate.run s = (record, s')) :
    ∃ report, (Plan.execute [step]).run s = (report, s') ∧
      report.outcome.isFailed = record.outcome.isFailed := by
  refine ⟨_, Plan.execute_of_evaluate (Plan.evaluate_single h), ?_⟩
  rw [Report.isFailed_ofRecords]
  exact Bool.or_false _

/-- Without errors, a task whose machine is as it should be is executed without a change. -/
theorem execute_satisfied (lawful : Lawful site view fails) (hquiet : fails.Quiet) {s : σ}
    (hs : view.ready s)
    (hunits : (view.fleet s).units task.target.model task.target.application = some units)
    (hmachine : (view.fleet s).machineOf? task.target.node = some machine)
    (hsatisfied : task.Satisfied machine units) :
    ∃ report s', (Plan.execute [task.step site]).run s = (report, s') ∧
      report.outcome.isFailed = false ∧
      (view.fleet s').units task.target.model task.target.application = some units ∧
      (view.fleet s').listed task.target.key = (view.fleet s).listed task.target.key := by
  obtain ⟨record, s', f', hrun, hsees, hevaluates⟩ :=
    evaluate_run lawful task (hquiet.honest _ _ _) hs hunits
  obtain ⟨report, hexecute, houtcome⟩ := execute_single hrun
  have hnode : (view.fleet s).machineOf? task.target.node ≠ none := by
    rw [hmachine]
    exact Option.some_ne_none _
  rcases hevaluates.of_quiet hquiet hunits fun _ => hnode with
    ⟨hskipped, -, calls, -, rfl⟩ | ⟨-, other, call, units', g, calls, hother, hdue, -, -, -⟩
  · refine ⟨report, s', hexecute, ?_, ?_, ?_⟩
    · rw [houtcome, Outcome.not_isFailed_of_isSkipped hskipped]
    · rw [hsees.fleet, Fleet.units_log, hunits]
    · rw [hsees.fleet, Fleet.listed_log]
  · rw [hmachine, Option.some.injEq] at hother
    exact absurd (hother ▸ hsatisfied) hdue.not_satisfied

/-- Without errors, a task whose machine is not as it should be changes the units and notes the
machine. -/
theorem execute_unsatisfied (lawful : Lawful site view fails) (hquiet : fails.Quiet) {s : σ}
    (hs : view.ready s)
    (hunits : (view.fleet s).units task.target.model task.target.application = some units)
    (hmachine : (view.fleet s).machineOf? task.target.node = some machine)
    (hone : (units.filter (·.machine = machine)).length ≤ 1)
    (hunsatisfied : ¬ task.Satisfied machine units) :
    ∃ report s' units', (Plan.execute [task.step site]).run s = (report, s') ∧
      report.outcome.isFailed = false ∧
      (view.fleet s').units task.target.model task.target.application = some units' ∧
      task.Satisfied machine units' ∧
      (view.fleet s').listed task.target.key =
        task.change.apply machine ((view.fleet s).listed task.target.key) := by
  obtain ⟨record, s', f', hrun, hsees, hevaluates⟩ :=
    evaluate_run lawful task (hquiet.honest _ _ _) hs hunits
  obtain ⟨report, hexecute, houtcome⟩ := execute_single hrun
  have hnode : (view.fleet s).machineOf? task.target.node ≠ none := by
    rw [hmachine]
    exact Option.some_ne_none _
  rcases hevaluates.of_quiet hquiet hunits fun _ => hnode with
    ⟨-, hsatisfied, -⟩ |
    ⟨hcompleted, other, call, units', g, calls, hother, hdue, halters, hnotes, rfl⟩
  · exact absurd (hsatisfied machine hmachine) hunsatisfied
  · obtain rfl : machine = other := by
      rwa [hmachine, Option.some.injEq] at hother
    refine ⟨report, s', units', hexecute, ?_, ?_, halters.satisfied hdue hone, ?_⟩
    · rw [houtcome, hcompleted]
      rfl
    · rw [hsees.fleet, Fleet.units_log, hnotes.units, Fleet.units_withUnits]
    · rw [hsees.fleet, Fleet.listed_log, hnotes.listed, Fleet.listed_withUnits]

/-- Without errors, a task is executed to its end.  The machine is then listed just when it hosts a
unit, if that was so before or a change was due. -/
theorem execute_listed_iff (lawful : Lawful site view fails) (hquiet : fails.Quiet) {s : σ}
    (hs : view.ready s)
    (hunits : (view.fleet s).units task.target.model task.target.application = some units)
    (hmachine : (view.fleet s).machineOf? task.target.node = some machine)
    (hready : task.Satisfied machine units ∨ (units.filter (·.machine = machine)).length ≤ 1) :
    ∃ report s' units', (Plan.execute [task.step site]).run s = (report, s') ∧
      report.outcome.isFailed = false ∧
      (view.fleet s').units task.target.model task.target.application = some units' ∧
      task.Satisfied machine units' ∧
      ((machine ∈ (view.fleet s').listed task.target.key ↔ Hosts units' machine) ↔
        (task.Satisfied machine units →
          (machine ∈ (view.fleet s).listed task.target.key ↔ Hosts units machine))) := by
  by_cases hsatisfied : task.Satisfied machine units
  · obtain ⟨report, s', hexecute, hcompleted, hunits', hlisted⟩ :=
      execute_satisfied lawful hquiet hs hunits hmachine hsatisfied
    refine ⟨report, s', units, hexecute, hcompleted, hunits', hsatisfied, ?_⟩
    rw [hlisted]
    exact ⟨fun hagrees _ => hagrees, fun hagrees => hagrees hsatisfied⟩
  · obtain ⟨report, s', units', hexecute, hcompleted, hunits', hsatisfied', hlisted⟩ :=
      execute_unsatisfied lawful hquiet hs hunits hmachine (hready.resolve_left hsatisfied)
        hsatisfied
    refine ⟨report, s', units', hexecute, hcompleted, hunits', hsatisfied',
      iff_of_true ?_ fun h => absurd h hsatisfied⟩
    rw [hlisted]
    exact task.mem_apply_iff hsatisfied'

end

/-- After a task has failed on a machine with at most one unit that was listed just when it hosted
one, executing the task again without errors does not fail and leaves the machine as the task wants
it to be.  The machine is then listed just when it hosts a unit, unless the failed execution ended
with a call on the record: its change of the units is then never noted. -/
theorem rerun_listed_iff {site quiet : Site (StateM σ)} {view view' : FleetView σ}
    {fails fails' : Faults} {task : UnitTask} {s s₁ : σ} {units : List AppUnit} {machine : String}
    {report : Report} (lawful : Lawful site view fails)
    (honest : fails.Honest task.target.model task.target.application task.target.key)
    (lawful' : Lawful quiet view' fails') (hquiet : fails'.Quiet)
    (hfleet : view'.fleet = view.fleet) (hs : view.ready s) (hs₁ : view'.ready s₁)
    (hunits : (view.fleet s).units task.target.model task.target.application = some units)
    (hmachine : (view.fleet s).machineOf? task.target.node = some machine)
    (hone : (units.filter (·.machine = machine)).length ≤ 1)
    (hlisted : machine ∈ (view.fleet s).listed task.target.key ↔ Hosts units machine)
    (hrun : (Plan.execute [task.step site]).run s = (report, s₁))
    (hfailed : report.outcome.isFailed) :
    ∃ calls again s₂ units₂, (view.fleet s₁).calls = (view.fleet s).calls ++ calls ∧
      (Plan.execute [task.step quiet]).run s₁ = (again, s₂) ∧ again.outcome.isFailed = false ∧
      (view.fleet s₂).units task.target.model task.target.application = some units₂ ∧
      task.Satisfied machine units₂ ∧
      ((machine ∈ (view.fleet s₂).listed task.target.key ↔ Hosts units₂ machine) ↔
        ¬ EndsOnRecord task.target.key calls) := by
  obtain ⟨record, s', f', hfirst, hsees, hevaluates⟩ := evaluate_run lawful task honest hs hunits
  obtain ⟨report', hexecute, houtcome⟩ := execute_single hfirst
  obtain ⟨rfl, rfl⟩ : report' = report ∧ s' = s₁ := by
    rw [hexecute] at hrun
    exact Prod.mk.inj hrun
  rw [houtcome] at hfailed
  obtain ⟨calls, hleaves⟩ := hevaluates.leaves hfailed
  rw [← hsees.fleet] at hleaves
  obtain ⟨units', hcalled, hunits', hmachine', hready, hleft⟩ :=
    hleaves.listed_iff hunits hmachine hone hlisted
  rw [← hfleet] at hunits' hmachine' hleft
  obtain ⟨again, s₂, units₂, hagain, hcompleted, hunits₂, hsatisfied, hagrees⟩ :=
    execute_listed_iff lawful' hquiet hs₁ hunits' hmachine' hready
  rw [hfleet] at hunits₂ hagrees hleft
  exact ⟨calls, again, s₂, units₂, hcalled, hagain, hcompleted, hunits₂, hsatisfied,
    hagrees.trans hleft⟩

/-- A unit is added while the record cannot be written. -/
theorem rerun_listed_iff_fullDisk :
    let task : UnitTask := .place ⟨⟨"a", "placement", "app", "model", .ofSeconds 5⟩⟩
    let step := task.step (World.site FileStore.inRoot)
    let world := World.stored ⟨[⟨"a", "1"⟩], .empty⟩ ⟨[], 0, none, none⟩
      (Dict.empty.insert "update_config" [some (.storeUnwritable "no space left")])
    let failed := (Plan.execute [step]).run world
    let fleet := (World.fleetView World.NoError).fleet
    failed.1.outcome.isFailed ∧ ∃ calls again world₂ units₂,
      failed.2.calls = world.calls ++ calls ∧
      (Plan.execute [step]).run failed.2 = (again, world₂) ∧ again.outcome.isFailed = false ∧
      (fleet world₂).units "model" "app" = some units₂ ∧ Hosts units₂ "1" ∧
      (("1" ∈ (fleet world₂).listed "placement" ↔ Hosts units₂ "1") ↔
        ¬ EndsOnRecord "placement" calls) := by
  intro task step world failed fleet
  have hended : failed.1.outcome.isFailed ∧
      failed.2.faults = Dict.empty.insert "update_config" [] := by decide +kernel
  let writes := World.ErrorOf "update_config"
  have hdoc : Document.ofContent (some (.text (Document.text ⟨[⟨"a", "1"⟩], .empty⟩))) = .ok _ :=
    Document.ofContent_text nofun
  have hready : World.IsReady writes world :=
    World.isReady_stored hdoc (fun _ _ => World.errorOf_of_mem) fun _ _ => List.not_mem_nil
  have honest : (World.faultsOf writes).Honest task.target.model task.target.application
      task.target.key :=
    ⟨fun f e h _ => (h.resolve_left (show "get_application" ≠ _ by decide)).1,
      fun f e h _ => (h.resolve_left (show "read_config" ≠ _ by decide)).1⟩
  have hunits : ((World.fleetView writes).fleet world).units "model" "app" = some [] :=
    World.units_stored
  have hmachine : ((World.fleetView writes).fleet world).machineOf? "a" = some "1" :=
    World.machineOf?_stored hdoc "a"
  have hlisted : "1" ∈ ((World.fleetView writes).fleet world).listed "placement" ↔
      Hosts [] "1" := by
    rw [World.listed_stored hdoc]
    exact iff_of_false (by decide) fun ⟨_, hmem, _⟩ => nomatch hmem
  -- the fault has been met, and no other is left
  have hready' : World.IsReady World.NoError failed.2 := by
    obtain ⟨record, world', f', hrun, hsees, -⟩ :=
      evaluate_run (World.lawful writes) task honest hready hunits
    obtain ⟨report, hexecute, -⟩ := execute_single hrun
    obtain ⟨hfile, hloads, -, hnumbers⟩ :=
      show World.IsReady writes failed.2 from congrArg Prod.snd hexecute ▸ hsees.ready
    refine ⟨hfile, hloads, fun method fault hmem => ?_, hnumbers⟩
    rw [hended.2, Dict.find?_insert] at hmem
    split at hmem <;> cases hmem
  have hone : (List.filter (·.machine = "1") ([] : List AppUnit)).length ≤ 1 := Nat.zero_le 1
  have hrun : (Plan.execute [step]).run world = (failed.1, failed.2) := (Prod.eta _).symm
  exact ⟨hended.1, rerun_listed_iff (World.lawful writes) honest (World.lawful World.NoError)
    World.quiet_faultsOf rfl hready hready' hunits hmachine hone hlisted hrun hended.1⟩

end UnitTask

/-! ## A record that cannot be written -/

namespace Simulation.World

/-- The store of `fullDisk`. -/
def clusterFile : Membership.FileStore :=
  ⟨"/cluster.json"⟩

/-- A world with a node and an application without units, in which a record cannot be written
once. -/
def fullDisk : World :=
  let document : Membership.Document := ⟨[⟨"node-1", "1"⟩], .empty⟩
  let world : World := { World.empty with
    models := Dict.empty.insert "model" (Dict.empty.insert "app" ⟨[], 0, none, none⟩)
    faults := Dict.empty.insert "update_config" [some (.storeUnwritable "no space left")] }
  (((clusterFile.save disk document).run).run world).2

/-- The machines that the store of a world lists under a key. -/
def listed (world : World) (key : String) : Option (List String) :=
  ((clusterFile.load disk).run.run world).1.toOption.map fun document =>
    Placement.machineIds ((document.record? key).getD .empty)

/-- Placing a unit fails in `fullDisk` once the unit is there, and is skipped when it is executed
again: the unit's machine is never listed, though no call fails any more. -/
theorem fullDisk_unlisted :
    let step := Task.Place.step ⟨⟨"node-1", "placement", "app", "model", .ofSeconds 5⟩⟩
      (site clusterFile)
    let failed := (Plan.execute [step]).run fullDisk
    let again := (Plan.execute [step]).run failed.2
    failed.1.outcome.isFailed ∧ again.1.outcome.isFailed = false ∧
      (again.2.deployment? "model" "app").map (·.units.map (·.machine)) = some ["1"] ∧
      again.2.listed "placement" = some [] := by
  decide +kernel

end Simulation.World

end Converge
