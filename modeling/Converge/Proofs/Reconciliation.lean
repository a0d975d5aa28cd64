import Converge.Proofs.StoredFleet
/-!
# Plans reconcile the hosts

Without errors, a plan of unit tasks about one application brings its units to the machines that
the plan adds and away from those that it removes, and leaves the other units as they are.  Main
statement: the plan completes with this effect, and executing it again skips every step and changes
nothing (`UnitTask.reconciles`).
-/

namespace Converge

open Simulation (Call World)
open Converge.Membership (Document FileStore)
open Fleet (Faults Lawful)

variable {σ : Type}

/-! ## The machines of a plan -/

/-- The machines that join, or that leave, by the tasks of a plan. -/
def Fleet.machinesOf (f : Fleet) (change : Placement.Change) (plan : List UnitTask) :
    List String :=
  (plan.filter (·.change = change)).filterMap fun task => f.machineOf? task.target.node

theorem Fleet.mem_machinesOf {f : Fleet} {change : Placement.Change} {plan : List UnitTask}
    {machine : String} :
    machine ∈ f.machinesOf change plan ↔
      ∃ task ∈ plan, task.change = change ∧ f.machineOf? task.target.node = some machine := by
  simp [machinesOf, and_assoc]

theorem Fleet.machinesOf_cons (f : Fleet) (change : Placement.Change) (task : UnitTask)
    (rest : List UnitTask) :
    f.machinesOf change (task :: rest) =
      f.machinesOf change [task] ++ f.machinesOf change rest := by
  rw [machinesOf, machinesOf, machinesOf, ← List.filterMap_append, ← List.filter_append]
  rfl

theorem Fleet.machinesOf_singleton (f : Fleet) (change : Placement.Change) (task : UnitTask) :
    f.machinesOf change [task] =
      if task.change = change then (f.machineOf? task.target.node).toList else [] := by
  by_cases h : task.change = change
  · cases hmachine : f.machineOf? task.target.node <;> simp [machinesOf, h, hmachine]
  · simp [machinesOf, h]

/-- The machines of a plan depend on the nodes only. -/
theorem Fleet.machinesOf_congr {f f' : Fleet} (h : f'.document.nodes = f.document.nodes)
    (change : Placement.Change) (plan : List UnitTask) :
    f'.machinesOf change plan = f.machinesOf change plan := by
  simp only [machinesOf, machineOf?, h]

/-! ## Reconciled units -/

/-- Units that have come to some machines and gone from others. -/
structure Reconciled (added removed : List String) (units units' : List AppUnit) : Prop where
  /-- No two units have the same name or machine. -/
  spread : Spread units'
  /-- The hosts of before and those that were added, less those that were removed. -/
  hosts : ∀ machine, Hosts units' machine ↔
    (Hosts units machine ∨ machine ∈ added) ∧ machine ∉ removed
  /-- The units of before that were not removed are kept as they were: they are all that is there,
  except on machines that were added and had hosted none. -/
  kept : ∀ p : AppUnit → Bool,
    (∀ unit, p unit → unit.machine ∈ added → Hosts units unit.machine) →
      units'.filter p = units.filter fun unit => p unit && unit.machine ∉ removed

namespace Reconciled

variable {units units' units'' : List AppUnit} {added added' removed removed' : List String}

theorem refl (h : Spread units) : Reconciled [] [] units units where
  spread := h
  hosts := by simp
  kept := fun p _ => by simp

/-- What two plans do, one plan does, unless a machine is added and removed. -/
theorem trans (h : Reconciled added removed units units')
    (h' : Reconciled added' removed' units' units'')
    (hdisjoint : ∀ machine ∈ added ++ added', machine ∉ removed ++ removed') :
    Reconciled (added ++ added') (removed ++ removed') units units'' where
  spread := h'.spread
  hosts := by
    intro machine
    -- what the second plan adds, the first has not removed
    have hremoved : machine ∈ added' → machine ∉ removed := fun hadded hmem =>
      hdisjoint machine (List.mem_append_right _ hadded) (List.mem_append_left _ hmem)
    rw [h'.hosts, h.hosts, List.mem_append, List.mem_append]
    tauto
  kept := by
    intro p hp
    have hp' : ∀ unit, p unit → unit.machine ∈ added' → Hosts units' unit.machine := by
      intro unit hunit hadded
      have hmem := List.mem_append_right added hadded
      have hhosts := hp unit hunit hmem
      have hremoved : unit.machine ∉ removed := fun hremoved =>
        hdisjoint _ hmem (List.mem_append_left _ hremoved)
      exact (h.hosts _).2 ⟨.inl hhosts, hremoved⟩
    rw [h'.kept p hp', h.kept]
    · refine List.filter_congr fun unit _ => ?_
      simp only [List.mem_append, not_or, Bool.decide_and, Bool.and_assoc]
      rw [Bool.and_comm (decide (unit.machine ∉ removed')) _]
    · intro unit hunit hadded
      rw [Bool.and_eq_true] at hunit
      exact hp unit hunit.1 (List.mem_append_left _ hadded)

end Reconciled

/-! ## One task -/

section

variable {f : Fleet} {task : UnitTask} {units units' : List AppUnit}

/-- Units that are as a task wants them to be are reconciled with it. -/
theorem Reconciled.of_satisfied (hspread : Spread units)
    (h : ∀ machine, f.machineOf? task.target.node = some machine →
      task.Satisfied machine units) :
    Reconciled (f.machinesOf .join [task]) (f.machinesOf .leave [task]) units units := by
  rw [Fleet.machinesOf_singleton, Fleet.machinesOf_singleton]
  cases task with
  | place task =>
    show Reconciled (f.machineOf? task.node).toList [] units units
    refine ⟨hspread, fun machine => ?_, fun p _ => by simp⟩
    constructor
    · exact fun hhosts => ⟨.inl hhosts, List.not_mem_nil⟩
    · rintro ⟨hhosts | hadded, -⟩
      · exact hhosts
      · exact h machine (Option.mem_toList.1 hadded)
  | withdraw task =>
    show Reconciled [] (f.machineOf? task.node).toList units units
    have hfree : ∀ machine, Hosts units machine →
        machine ∉ (f.machineOf? task.node).toList := fun machine hhosts hmem =>
      h machine (Option.mem_toList.1 hmem) hhosts
    refine ⟨hspread, fun machine => ?_, fun p _ => List.filter_congr fun unit hmem => ?_⟩
    · rw [or_iff_left List.not_mem_nil]
      exact ⟨fun hhosts => ⟨hhosts, hfree machine hhosts⟩, And.left⟩
    · have hkept := hfree unit.machine ⟨unit, hmem, rfl⟩
      show p unit = (p unit && decide (unit.machine ∉ (f.machineOf? task.node).toList))
      rw [decide_eq_true hkept, Bool.and_true]

/-- Units that a task has changed are reconciled with it. -/
theorem Reconciled.of_alters {machine : String} {call : Call} (hspread : Spread units)
    (hmachine : f.machineOf? task.target.node = some machine)
    (hdue : task.Due machine units call) (halters : UnitTask.Alters machine units call units') :
    Reconciled (f.machinesOf .join [task]) (f.machinesOf .leave [task]) units units' := by
  have hids : ∀ other, other ∈ units.map (·.machine) ↔ Hosts units other :=
    fun other => mem_map_machine
  have hhosts := halters.hosts_iff hdue hspread hids
  rw [Fleet.machinesOf_singleton, Fleet.machinesOf_singleton, hmachine]
  cases task with
  | place task =>
    show Reconciled [machine] [] units units'
    have hlacks : ¬ Hosts units machine := hdue.not_satisfied
    refine ⟨halters.spread hdue hspread, fun other => ?_, fun p hp => ?_⟩
    · rw [← hhosts, UnitTask.change, Placement.mem_apply_join, mem_map_machine,
        List.mem_singleton, or_comm, and_iff_left List.not_mem_nil]
    · have hrest : ∀ unit, unit.machine = machine → p unit = false := by
        rintro unit rfl
        refine Bool.eq_false_iff.2 fun hunit => hlacks ?_
        exact hp unit hunit (List.mem_singleton_self _)
      rw [halters.filter_eq hdue hspread hrest]
      simp
  | withdraw task =>
    show Reconciled [] [machine] units units'
    have hmem : ∀ other, Hosts units' other ↔ Hosts units other ∧ other ≠ machine := by
      intro other
      rw [← hhosts, UnitTask.change, Placement.mem_apply_leave, mem_map_machine]
    refine ⟨halters.spread hdue hspread, fun other => ?_, fun p hp => ?_⟩
    · rw [hmem, or_iff_left List.not_mem_nil, List.mem_singleton]
    · -- nothing is left on the machine, so that leaving it out makes no difference
      have hleft : units'.filter p =
          units'.filter fun unit => p unit && unit.machine ∉ [machine] := by
        refine List.filter_congr fun unit hunit => ?_
        have hne := ((hmem unit.machine).1 ⟨unit, hunit, rfl⟩).2
        rw [decide_eq_true (by simpa using hne), Bool.and_true]
      rw [hleft, halters.filter_eq hdue hspread]
      rintro unit rfl
      simp

end

/-! ## Plans -/

namespace UnitTask

variable {site : Site (StateM σ)} {view : FleetView σ} {fails : Faults} {model name key : String}

/-- Without errors, a task does not fail and reconciles the units with it. -/
theorem evaluate_reconciled (lawful : Lawful site view fails) (hquiet : fails.Quiet)
    {task : UnitTask} (hconcerns : task.Concerns model name key) {s : σ} (hs : view.ready s)
    {units : List AppUnit} (hunits : (view.fleet s).units model name = some units)
    (hspread : Spread units)
    (hnode : task.change = .join → (view.fleet s).machineOf? task.target.node ≠ none) :
    ∃ record s' units', (task.step site).evaluate.run s = (record, s') ∧ view.ready s' ∧
      record.outcome.isFailed = false ∧ (view.fleet s').units model name = some units' ∧
      (view.fleet s').document.nodes = (view.fleet s).document.nodes ∧
      Reconciled ((view.fleet s).machinesOf .join [task]) ((view.fleet s).machinesOf .leave [task])
        units units' := by
  obtain ⟨rfl, rfl, rfl⟩ := hconcerns
  obtain ⟨record, s', f', hrun, hsees, hevaluates⟩ :=
    evaluate_run lawful task (hquiet.honest _ _ _) hs hunits
  refine ⟨record, s', ?_⟩
  rcases hevaluates.of_quiet hquiet hunits hnode with
    ⟨hskipped, hsatisfied, calls, -, rfl⟩ |
    ⟨hcompleted, machine, call, units', g, calls, hmachine, hdue, halters, hnotes, rfl⟩
  · refine ⟨units, hrun, hsees.ready, Outcome.not_isFailed_of_isSkipped hskipped, ?_, ?_,
      .of_satisfied hspread hsatisfied⟩
    · rw [hsees.fleet, Fleet.units_log, hunits]
    · rw [hsees.fleet, Fleet.document_log]
  · refine ⟨units', hrun, hsees.ready, ?_, ?_, ?_, .of_alters hspread hmachine hdue halters⟩
    · rw [hcompleted]
      rfl
    · rw [hsees.fleet, Fleet.units_log, hnotes.units, Fleet.units_withUnits]
    · rw [hsees.fleet, Fleet.document_log, hnotes.nodes, Fleet.document_withUnits]

/-- Without errors, no task of a plan fails and the plan reconciles the units with it. -/
theorem evaluate_plan_reconciled (lawful : Lawful site view fails) (hquiet : fails.Quiet)
    {plan : List UnitTask} (hconcerns : ∀ task ∈ plan, task.Concerns model name key) {s : σ}
    (hs : view.ready s) {units : List AppUnit}
    (hunits : (view.fleet s).units model name = some units)
    (hspread : Spread units)
    (hnodes : ∀ task ∈ plan, task.change = .join →
      (view.fleet s).machineOf? task.target.node ≠ none)
    (hdisjoint : ∀ machine ∈ (view.fleet s).machinesOf .join plan,
      machine ∉ (view.fleet s).machinesOf .leave plan) :
    ∃ records s' units', (Plan.evaluate (plan.map (step site))).run s = (records, s') ∧
      view.ready s' ∧ (∀ record ∈ records, record.outcome.isFailed = false) ∧
      (view.fleet s').units model name = some units' ∧
      (view.fleet s').document.nodes = (view.fleet s).document.nodes ∧
      Reconciled ((view.fleet s).machinesOf .join plan) ((view.fleet s).machinesOf .leave plan)
        units units' := by
  induction plan generalizing s units with
  | nil => exact ⟨[], s, units, rfl, hs, by simp, hunits, rfl, .refl hspread⟩
  | cons task rest ih =>
    rw [Fleet.machinesOf_cons _ .join, Fleet.machinesOf_cons _ .leave] at hdisjoint ⊢
    -- the nodes stay as they are, so that the rest of the plan is about the same machines
    obtain ⟨record, s₁, units₁, hrun, hs₁, hrecord, hunits₁, hnodes₁, hreconciled₁⟩ :=
      evaluate_reconciled lawful hquiet (hconcerns task List.mem_cons_self) hs hunits hspread
        (hnodes task List.mem_cons_self)
    have hmachines : ∀ change, (view.fleet s₁).machinesOf change rest =
        (view.fleet s).machinesOf change rest :=
      fun change => Fleet.machinesOf_congr hnodes₁ change rest
    have hnodes' : ∀ task ∈ rest, task.change = .join →
        (view.fleet s₁).machineOf? task.target.node ≠ none := by
      intro task hmem
      rw [Fleet.machineOf?, hnodes₁]
      exact hnodes task (List.mem_cons_of_mem _ hmem)
    have hdisjoint' : ∀ machine ∈ (view.fleet s₁).machinesOf .join rest,
        machine ∉ (view.fleet s₁).machinesOf .leave rest := by
      intro machine hadded hremoved
      rw [hmachines] at hadded hremoved
      exact hdisjoint machine (List.mem_append_right _ hadded) (List.mem_append_right _ hremoved)
    obtain ⟨records, s₂, units₂, hruns, hs₂, hrecords, hunits₂, hnodes₂, hreconciled₂⟩ :=
      ih (fun task hmem => hconcerns task (List.mem_cons_of_mem _ hmem)) hs₁ hunits₁
        hreconciled₁.spread hnodes' hdisjoint'
    rw [hmachines, hmachines] at hreconciled₂
    refine ⟨record :: records, s₂, units₂, ?_, hs₂, ?_, hunits₂, hnodes₂.trans hnodes₁,
      hreconciled₁.trans hreconciled₂ hdisjoint⟩
    · rw [List.map_cons, Plan.evaluate_cons hrun,
        if_neg (by rw [hrecord]; exact Bool.false_ne_true), hruns]
    · rintro other (_ | ⟨_, hmem⟩)
      · exact hrecord
      · exact hrecords other hmem

/-- Once a plan is reconciled, every machine is as its tasks want it to be. -/
theorem satisfied_of_reconciled {f : Fleet} {plan : List UnitTask} {units units' : List AppUnit}
    (h : Reconciled (f.machinesOf .join plan) (f.machinesOf .leave plan) units units')
    (hdisjoint : ∀ machine ∈ f.machinesOf .join plan, machine ∉ f.machinesOf .leave plan)
    {task : UnitTask} (hmem : task ∈ plan) {machine : String}
    (hmachine : f.machineOf? task.target.node = some machine) : task.Satisfied machine units' := by
  cases task with
  | place task =>
    have hadded : machine ∈ f.machinesOf .join plan :=
      Fleet.mem_machinesOf.2 ⟨_, hmem, rfl, hmachine⟩
    exact (h.hosts machine).2 ⟨.inr hadded, hdisjoint machine hadded⟩
  | withdraw task =>
    have hremoved : machine ∈ f.machinesOf .leave plan :=
      Fleet.mem_machinesOf.2 ⟨_, hmem, rfl, hmachine⟩
    exact fun hhosts => ((h.hosts machine).1 hhosts).2 hremoved

/-- Without errors, a plan whose machines are all as its tasks want them to be is skipped step by
step, and its calls only look. -/
theorem evaluate_plan_satisfied (lawful : Lawful site view fails) (hquiet : fails.Quiet)
    {plan : List UnitTask} (hconcerns : ∀ task ∈ plan, task.Concerns model name key) {s : σ}
    (hs : view.ready s) {units : List AppUnit}
    (hunits : (view.fleet s).units model name = some units)
    (hnodes : ∀ task ∈ plan, task.change = .join →
      (view.fleet s).machineOf? task.target.node ≠ none)
    (hsatisfied : ∀ task ∈ plan, ∀ machine,
      (view.fleet s).machineOf? task.target.node = some machine → task.Satisfied machine units) :
    ∃ records s' calls, (Plan.evaluate (plan.map (step site))).run s = (records, s') ∧
      records.length = plan.length ∧ (∀ record ∈ records, record.outcome.isSkipped) ∧
      view.Sees s' ((view.fleet s).log calls) ∧
      ∀ call ∈ calls, call = .nodes ∨ call = .application model name := by
  induction plan generalizing s with
  | nil => exact ⟨[], s, [], rfl, rfl, by simp, ⟨hs, by simp [Fleet.log]⟩, by simp⟩
  | cons task rest ih =>
    have hmem : task ∈ task :: rest := List.mem_cons_self
    obtain ⟨rfl, rfl, rfl⟩ := hconcerns task hmem
    obtain ⟨record, s₁, f₁, hrun, hsees₁, hevaluates⟩ :=
      evaluate_run lawful task (hquiet.honest _ _ _) hs hunits
    rcases hevaluates.of_quiet hquiet hunits (hnodes task hmem) with
      ⟨hskipped, -, calls₁, hcalls₁, rfl⟩ |
      ⟨-, machine, call, units', g, calls, hmachine, hdue, -, -, -⟩
    · have hmachines : ∀ node,
          (view.fleet s₁).machineOf? node = (view.fleet s).machineOf? node := by
        intro node
        rw [hsees₁.fleet, Fleet.machineOf?_log]
      obtain ⟨records, s₂, calls₂, hruns, hlength, hskips, hsees₂, hcalls₂⟩ :=
        ih (s := s₁) (fun task hrest => hconcerns task (List.mem_cons_of_mem _ hrest))
          hsees₁.ready (by rw [hsees₁.fleet, Fleet.units_log, hunits])
          (fun task hrest => by rw [hmachines]; exact hnodes task (List.mem_cons_of_mem _ hrest))
          (fun task hrest => by
            rw [hmachines]
            exact hsatisfied task (List.mem_cons_of_mem _ hrest))
      refine ⟨record :: records, s₂, calls₁ ++ calls₂, ?_, ?_, ?_, ?_, ?_⟩
      · have hfailed := Outcome.not_isFailed_of_isSkipped hskipped
        rw [List.map_cons, Plan.evaluate_cons hrun,
          if_neg (by rw [hfailed]; exact Bool.false_ne_true), hruns]
      · rw [List.length_cons, List.length_cons, hlength]
      · rintro other (_ | ⟨_, hother⟩)
        · exact hskipped
        · exact hskips other hother
      · rw [hsees₁.fleet, Fleet.log_log] at hsees₂
        exact hsees₂
      · intro call hcall
        rcases List.mem_append.1 hcall with hfirst | hrest
        · simpa [looks] using hcalls₁.subset hfirst
        · exact hcalls₂ call hrest
    · exact absurd (hsatisfied task hmem machine hmachine) hdue.not_satisfied

/-- Without errors, a plan about an application with its units spread over machines, which adds
units on known nodes and removes none from a machine that it adds one on, completes.  The hosts are
then those of before and the added ones, less the removed ones; the units that were there and not on
a removed machine are kept as they were, and no machine hosts two.  Executing the plan again skips
every step, and its calls only look. -/
theorem reconciles (lawful : Lawful site view fails) (hquiet : fails.Quiet) {plan : List UnitTask}
    (hconcerns : ∀ task ∈ plan, task.Concerns model name key) {s : σ} (hs : view.ready s)
    {units : List AppUnit} (hunits : (view.fleet s).units model name = some units)
    (hspread : Spread units)
    (hnodes : ∀ task ∈ plan, task.change = .join →
      (view.fleet s).machineOf? task.target.node ≠ none)
    (hdisjoint : ∀ machine ∈ (view.fleet s).machinesOf .join plan,
      machine ∉ (view.fleet s).machinesOf .leave plan) :
    ∃ report s' units' again s'' calls,
      (Plan.execute (plan.map (step site))).run s = (report, s') ∧
      report.outcome = .completed ∧
      (view.fleet s').units model name = some units' ∧
      (∀ machine, Hosts units' machine ↔
        (Hosts units machine ∨ machine ∈ (view.fleet s).machinesOf .join plan) ∧
          machine ∉ (view.fleet s).machinesOf .leave plan) ∧
      (units'.filter fun unit => unit.machine ∈ units.map (·.machine)) =
        (units.filter fun unit => unit.machine ∉ (view.fleet s).machinesOf .leave plan) ∧
      (units'.map (·.machine)).Nodup ∧
      (Plan.execute (plan.map (step site))).run s' = (again, s'') ∧
      again.records.length = plan.length ∧
      (∀ record ∈ again.records, record.outcome.isSkipped) ∧
      view.fleet s'' = (view.fleet s').log calls ∧
      ∀ call ∈ calls, call = .nodes ∨ call = .application model name := by
  obtain ⟨records, s', units', hrun, hs', hrecords, hunits', hnodes', hreconciled⟩ :=
    evaluate_plan_reconciled lawful hquiet hconcerns hs hunits hspread hnodes hdisjoint
  have hmachines : ∀ node, (view.fleet s').machineOf? node =
      (view.fleet s).machineOf? node := fun node => by
    rw [Fleet.machineOf?, Fleet.machineOf?, hnodes']
  obtain ⟨again, s'', calls, hagain, hlength, hskips, hsees, hcalls⟩ :=
    evaluate_plan_satisfied (s := s') lawful hquiet hconcerns hs' hunits'
      (fun task hmem => by rw [hmachines]; exact hnodes task hmem)
      (fun task hmem machine hmachine => by
        rw [hmachines] at hmachine
        exact satisfied_of_reconciled hreconciled hdisjoint hmem hmachine)
  have hkept : (units'.filter fun unit => unit.machine ∈ units.map (·.machine)) =
      (units.filter fun unit => unit.machine ∉ (view.fleet s).machinesOf .leave plan) := by
    rw [hreconciled.kept]
    · refine List.filter_congr fun unit hmem => ?_
      rw [decide_eq_true (List.mem_map_of_mem hmem), Bool.true_and]
    · intro unit hhost _
      exact mem_map_machine.1 (of_decide_eq_true hhost)
  exact ⟨_, s', units', _, s'', calls, Plan.execute_of_evaluate hrun,
    congrArg Report.outcome (Report.ofRecords_eq hrecords), hunits', hreconciled.hosts, hkept,
    hreconciled.spread.machines, Plan.execute_of_evaluate hagain, hlength, hskips, hsees.fleet,
    hcalls⟩

/-- Two names of one machine, a machine that is freed, and a node that is not there. -/
theorem reconciles_alias :
    let target (node : String) : Task.UnitOnNode :=
      ⟨node, "placement", "app", "model", .ofSeconds 5⟩
    let plan : List UnitTask := [.place ⟨target "c"⟩, .place ⟨target "d"⟩,
      .withdraw ⟨target "a"⟩, .withdraw ⟨target "gone"⟩]
    let world := World.stored
      ⟨[⟨"a", "1"⟩, ⟨"b", "2"⟩, ⟨"c", "3"⟩, ⟨"d", "3"⟩], .empty⟩
      ⟨[⟨"app/0", "1"⟩, ⟨"app/1", "2"⟩], 2, none, none⟩ .empty
    ∃ report world' units',
      (Plan.execute (plan.map (step (World.site FileStore.inRoot)))).run world =
        (report, world') ∧
      report.outcome = .completed ∧
      (world'.deployment? "model" "app").map (·.units) = some units' ∧
      (∀ machine, Hosts units' machine ↔ machine = "2" ∨ machine = "3") ∧
      (units'.map (·.machine)).Nodup := by
  intro target plan world
  have hconcerns : ∀ task ∈ plan, task.Concerns "model" "app" "placement" := by
    intro task hmem
    simp only [plan, List.mem_cons, List.not_mem_nil, or_false] at hmem
    rcases hmem with rfl | rfl | rfl | rfl <;> exact ⟨rfl, rfl, rfl⟩
  have hspread : Spread [⟨"app/0", "1"⟩, ⟨"app/1", "2"⟩] := ⟨by decide, by decide⟩
  have hdoc : Document.ofContent (some (.text (Document.text
      ⟨[⟨"a", "1"⟩, ⟨"b", "2"⟩, ⟨"c", "3"⟩, ⟨"d", "3"⟩], .empty⟩))) = .ok _ :=
    Document.ofContent_text nofun
  have hready : World.IsReady World.NoError world :=
    World.isReady_stored hdoc nofun (World.unitName_not_mem [0, 1] (by decide +kernel) (by decide))
  have hmachine (node : String) : ((World.fleetView World.NoError).fleet world).machineOf? node =
      _ := World.machineOf?_stored hdoc node
  have hjoining : ((World.fleetView World.NoError).fleet world).machinesOf .join plan =
      ["3", "3"] := by
    simp only [Fleet.machinesOf, hmachine]
    decide +kernel
  have hleaving : ((World.fleetView World.NoError).fleet world).machinesOf .leave plan =
      ["1"] := by
    simp only [Fleet.machinesOf, hmachine]
    decide +kernel
  have hnodes : ∀ task ∈ plan, task.change = .join →
      ((World.fleetView World.NoError).fleet world).machineOf? task.target.node ≠ none := by
    simp only [hmachine]
    decide +kernel
  obtain ⟨report, world', units', -, -, -, hrun, hcompleted, hunits', hhosts, -, hnodup, -⟩ :=
    reconciles (World.lawful World.NoError) World.quiet_faultsOf hconcerns hready
      World.units_stored hspread hnodes (by rw [hjoining, hleaving]; decide)
  refine ⟨report, world', units', hrun, hcompleted, hunits', fun machine => ?_, hnodup⟩
  rw [hhosts, hjoining, hleaving]
  by_cases hfreed : machine = "1"
  · simp [hfreed]
  · simp [Hosts, hfreed, eq_comm]

end UnitTask

end Converge
