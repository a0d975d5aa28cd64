import Converge.Proofs.Rerun
import Mathlib.Data.List.Count
/-!
# Machines with several units

An application may have any number of units on a machine, but a machine leaves the list in the
record as soon as one of them is withdrawn.  `Strands` says when that takes a machine off the list
which still hosts a unit.  Main statement: without errors, a list that agrees with the units before
a unit task is executed agrees with them afterwards on every machine but one that the task strands
(`UnitTask.listed_iff_not_strands`).
-/

namespace Converge

open Simulation (World)
open Converge.Membership (Document FileStore)
open Fleet (Faults Lawful)

variable {σ : Type}

/-! ## Counting the units on a machine -/

/-- How many of the units are on a machine. -/
def unitsOn (units : List AppUnit) (machine : String) : Nat :=
  units.countP (·.machine = machine)

section

variable {units : List AppUnit} {unit : AppUnit}

theorem hosts_iff_unitsOn_pos {machine : String} :
    Hosts units machine ↔ 0 < unitsOn units machine := by
  simp only [Hosts, unitsOn, List.countP_pos_iff, decide_eq_true_eq]

theorem unitsOn_insert (before after : List AppUnit) (unit : AppUnit) (machine : String) :
    unitsOn (before ++ unit :: after) machine =
      unitsOn (before ++ after) machine + if unit.machine = machine then 1 else 0 := by
  simp only [unitsOn, List.countP_append, List.countP_cons, decide_eq_true_eq]
  omega

/-- Removing a unit by its name, which no other has, takes one unit off its machine. -/
theorem unitsOn_filter_name (hnames : (units.map (·.name)).Nodup) (hmem : unit ∈ units)
    (machine : String) : unitsOn (units.filter (·.name ≠ unit.name)) machine =
      unitsOn units machine - if unit.machine = machine then 1 else 0 := by
  have herase : units.filter (·.name ≠ unit.name) = units.erase unit := by
    rw [(List.Nodup.of_map _ hnames).erase_eq_filter]
    refine List.filter_congr fun other hother => ?_
    by_cases heq : other = unit
    · subst heq
      simp
    · have hname : other.name ≠ unit.name :=
        fun h => heq (List.inj_on_of_nodup_map hnames hother hmem h)
      rw [decide_eq_true hname, bne_iff_ne.2 heq]
  rw [herase, unitsOn, List.countP_erase, unitsOn]
  simp only [hmem, true_and, decide_eq_true_eq]

end

namespace UnitTask

variable {task : UnitTask} {machine : String} {units units' : List AppUnit}

/-- How many units there are on the machine of a task after it, from how many there were. -/
def aim : UnitTask → Nat → Nat
  | .place _, count => max 1 count
  | .withdraw _, count => count - 1

/-- A machine is as a task wants it to be if there are none too few and none too many units. -/
theorem aim_of_satisfied (h : task.Satisfied machine units) :
    task.aim (unitsOn units machine) = unitsOn units machine := by
  cases task with
  | place task =>
    have hpos : 0 < unitsOn units machine := hosts_iff_unitsOn_pos.1 h
    rw [aim]
    omega
  | withdraw task =>
    have hzero : ¬ 0 < unitsOn units machine := mt hosts_iff_unitsOn_pos.2 h
    rw [aim]
    omega

/-- A change that was due brings the machine to what the task aims at, and leaves the others. -/
theorem Alters.unitsOn_eq {call : Simulation.Call} (halters : Alters machine units call units')
    (hdue : task.Due machine units call) (hnames : (units.map (·.name)).Nodup) (other : String) :
    unitsOn units' other =
      if machine = other then task.aim (unitsOn units other) else unitsOn units other := by
  cases hdue with
  | place hlacks =>
    cases halters with
    | place hmachine hfresh =>
      rw [unitsOn_insert, hmachine]
      by_cases hother : machine = other
      · have hzero := mt hosts_iff_unitsOn_pos.2 hlacks
        rw [if_pos hother, if_pos hother, aim, ← hother]
        omega
      · rw [if_neg hother, if_neg hother, Nat.add_zero]
  | @withdraw _ _ _ unit hfind =>
    have hmem := List.mem_of_find?_eq_some hfind
    obtain rfl : unit.machine = machine := by simpa using List.find?_some hfind
    cases halters with
    | withdraw =>
      rw [unitsOn_filter_name hnames hmem]
      by_cases hother : unit.machine = other
      · rw [if_pos hother, if_pos hother, aim]
      · rw [if_neg hother, if_neg hother, Nat.sub_zero]

/-- A task strands a machine when it withdraws one of several units from it. -/
structure Strands (task : UnitTask) (f : Fleet) (units : List AppUnit) (machine : String) :
    Prop where
  change : task.change = .leave
  machineOf? : f.machineOf? task.target.node = some machine
  crowded : 2 ≤ unitsOn units machine

/-- The list that is noted agrees with what a task aims at, but for a machine that keeps some of its
units when one is withdrawn. -/
theorem mem_apply_iff_not_crowded {ids : List String}
    (hids : ∀ other, other ∈ ids ↔ Hosts units other)
    (haim : ∀ other, unitsOn units' other =
      if machine = other then task.aim (unitsOn units other) else unitsOn units other)
    (other : String) :
    (other ∈ task.change.apply machine ids ↔ Hosts units' other) ↔
      ¬ (task.change = .leave ∧ machine = other ∧ 2 ≤ unitsOn units other) := by
  rw [hosts_iff_unitsOn_pos, haim]
  by_cases hother : machine = other
  · subst hother
    rw [if_pos rfl]
    cases task with
    | place task =>
      refine iff_of_true (iff_of_true (Placement.mem_apply_join.2 (.inl rfl)) ?_)
        fun h => nomatch h.1
      rw [aim]
      omega
    | withdraw task =>
      have hgone : machine ∉ Placement.Change.leave.apply machine ids :=
        fun hmem => (Placement.mem_apply_leave.1 hmem).2 rfl
      simp only [change, aim, hgone, true_and, false_iff]
      omega
  · rw [if_neg hother, ← hosts_iff_unitsOn_pos, ← hids]
    refine iff_of_true ?_ fun h => hother h.2.1
    cases task with
    | place task =>
      rw [change, Placement.mem_apply_join]
      exact ⟨fun h => h.resolve_left (Ne.symm hother), .inr⟩
    | withdraw task =>
      rw [change, Placement.mem_apply_leave]
      exact ⟨And.left, fun h => ⟨h, Ne.symm hother⟩⟩

/-- Without errors, a unit task is executed to its end: its machine has the units that the task aims
at, and the others have what they had.  If the list was the machines of the application before, it
is so afterwards on every machine but one that the task strands. -/
theorem listed_iff_not_strands {site : Site (StateM σ)} {view : FleetView σ} {fails : Faults}
    (lawful : Lawful site view fails) (hquiet : fails.Quiet) {s : σ} (hs : view.ready s)
    (hunits : (view.fleet s).units task.target.model task.target.application = some units)
    (hnames : (units.map (·.name)).Nodup)
    (hlisted : ∀ machine, machine ∈ (view.fleet s).listed task.target.key ↔
      machine ∈ Application.machineIds ⟨task.target.application, units⟩)
    (hnode : task.change = .join → (view.fleet s).machineOf? task.target.node ≠ none) :
    ∃ report s' units', (Plan.execute [task.step site]).run s = (report, s') ∧
      report.outcome.isFailed = false ∧
      (view.fleet s').units task.target.model task.target.application = some units' ∧
      (∀ machine, unitsOn units' machine =
        if (view.fleet s).machineOf? task.target.node = some machine then
          task.aim (unitsOn units machine)
        else unitsOn units machine) ∧
      ∀ machine, (machine ∈ (view.fleet s').listed task.target.key ↔
          machine ∈ Application.machineIds ⟨task.target.application, units'⟩) ↔
        ¬ task.Strands (view.fleet s) units machine := by
  obtain ⟨record, s', f', hrun, hsees, hevaluates⟩ :=
    evaluate_run lawful task (hquiet.honest _ _ _) hs hunits
  obtain ⟨report, hexecute, houtcome⟩ := execute_single hrun
  have hids : ∀ machine, machine ∈ (view.fleet s).listed task.target.key ↔ Hosts units machine :=
    fun machine => (hlisted machine).trans Application.mem_machineIds
  rcases hevaluates.of_quiet hquiet hunits hnode with
    ⟨hskipped, hsatisfied, calls, -, rfl⟩ |
    ⟨hcompleted, machine, call, units', g, calls, hmachine, hdue, halters, hnotes, rfl⟩
  · refine ⟨report, s', units, hexecute, ?_, ?_, fun machine => ?_, fun machine => ?_⟩
    · rw [houtcome, Outcome.not_isFailed_of_isSkipped hskipped]
    · rw [hsees.fleet, Fleet.units_log, hunits]
    · split
      · next hmachine => rw [aim_of_satisfied (hsatisfied machine hmachine)]
      · rfl
    · rw [hsees.fleet, Fleet.listed_log]
      refine iff_of_true (hlisted machine) fun ⟨hchange, hmachine, hcrowded⟩ => ?_
      -- a withdrawal is skipped only where there is no unit
      have hhosts : Hosts units machine := hosts_iff_unitsOn_pos.2 (Nat.lt_of_succ_lt hcrowded)
      cases task with
      | place task => cases hchange
      | withdraw task => exact hsatisfied machine hmachine hhosts
  · have haim := halters.unitsOn_eq hdue hnames
    refine ⟨report, s', units', hexecute, ?_, ?_, fun other => ?_, fun other => ?_⟩
    · rw [houtcome, hcompleted]
      rfl
    · rw [hsees.fleet, Fleet.units_log, hnotes.units, Fleet.units_withUnits]
    · simp only [haim, hmachine, Option.some.injEq]
    · rw [hsees.fleet, Fleet.listed_log, hnotes.listed, Fleet.listed_withUnits]
      refine (iff_congr Iff.rfl Application.mem_machineIds).trans
        ((mem_apply_iff_not_crowded hids haim other).trans (not_congr ?_))
      rw [← Option.some.injEq machine other, ← hmachine]
      exact ⟨fun ⟨hchange, hother, hcrowded⟩ => ⟨hchange, hother, hcrowded⟩,
        fun ⟨hchange, hother, hcrowded⟩ => ⟨hchange, hother, hcrowded⟩⟩

/-- One of two units of an application on a node is withdrawn. -/
theorem listed_iff_not_strands_crowded :
    let units : List AppUnit := [⟨"app/0", "1"⟩, ⟨"app/1", "1"⟩]
    let doc := Document.revise "placement" (Placement.amend .join "1") ⟨[⟨"a", "1"⟩], .empty⟩
    let world := World.stored doc ⟨units, 2, none, none⟩ .empty
    let fleet := (World.fleetView World.NoError).fleet
    let task : UnitTask := .withdraw ⟨⟨"a", "placement", "app", "model", .ofSeconds 5⟩⟩
    task.Strands (fleet world) units "1" ∧
    ∃ report world' units',
      (Plan.execute [task.step (World.site FileStore.inRoot)]).run world = (report, world') ∧
      report.outcome.isFailed = false ∧ (fleet world').units "model" "app" = some units' ∧
      (∀ machine, unitsOn units' machine =
        if (fleet world).machineOf? "a" = some machine then task.aim (unitsOn units machine)
        else unitsOn units machine) ∧
      ∀ machine, (machine ∈ (fleet world').listed "placement" ↔
          machine ∈ Application.machineIds ⟨"app", units'⟩) ↔
        ¬ task.Strands (fleet world) units machine := by
  intro units doc world fleet task
  have hempty : Document.Legible ⟨[⟨"a", "1"⟩], .empty⟩ := nofun
  have hlegible : doc.Legible := hempty.revise "placement" (Placement.plain_amend .join "1")
  have hdoc := Document.ofContent_text hlegible
  have hready : World.IsReady World.NoError world :=
    World.isReady_stored hdoc nofun (World.unitName_not_mem [0, 1] (by decide +kernel) (by decide))
  have hmachine : (fleet world).machineOf? "a" = some "1" := World.machineOf?_stored hdoc "a"
  have hlisted : (fleet world).listed "placement" = Application.machineIds ⟨"app", units⟩ := by
    rw [World.listed_stored hdoc]
    decide +kernel
  refine ⟨⟨rfl, hmachine, by decide⟩, ?_⟩
  exact listed_iff_not_strands (World.lawful World.NoError) World.quiet_faultsOf hready
    World.units_stored (by decide) (fun machine => iff_of_eq (congrArg (machine ∈ ·) hlisted)) nofun

end UnitTask

/-! ## A machine that is stranded -/

namespace Simulation.World

/-- A world with two units of an application on one machine, which is listed. -/
def shared : World :=
  let record : Record := Placement.amend .join "1" .empty
  let document : Membership.Document :=
    ⟨[⟨"node-1", "1"⟩], Dict.empty.insert "placement" record⟩
  let world : World := { World.empty with
    models := Dict.empty.insert "model" (Dict.empty.insert "app"
      ⟨[⟨"app/0", "1"⟩, ⟨"app/1", "1"⟩], 2, none, none⟩) }
  (((clusterFile.save disk document).run).run world).2

/-- Withdrawing a unit in `shared` leaves the other one on its machine, which is listed no more. -/
theorem shared_unlisted :
    let step := Task.Withdraw.step ⟨⟨"node-1", "placement", "app", "model", .ofSeconds 5⟩⟩
      (site clusterFile)
    let ended := (Plan.execute [step]).run shared
    shared.listed "placement" = some ["1"] ∧ ended.1.outcome.isFailed = false ∧
      (ended.2.deployment? "model" "app").map (·.units.map (·.machine)) = some ["1"] ∧
      ended.2.listed "placement" = some [] := by
  decide +kernel

end Simulation.World

end Converge
