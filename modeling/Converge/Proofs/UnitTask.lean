import Converge.Proofs.Fleet
import Converge.Proofs.Spread
import Converge.Task.Place
import Converge.Task.Withdraw
/-!
# What a unit task comes to

Placing a unit and withdrawing one look at the fleet in the same way, then change the units and note
the machine.  `UnitTask.Evaluates` lists what the evaluation of such a task may come to, with the
calls that it makes and the fleet that it leaves.  Main statement: at a lawful site every evaluation
is on the list (`UnitTask.evaluate_run`), so that a property of unit tasks is proved by cases on it.
-/

namespace Converge

open Simulation (Call)
open Fleet (Faults Lawful Answers Noting)

variable {σ : Type}

/-- A task about an application's unit on a node. -/
inductive UnitTask where
  | place (task : Task.Place)
  | withdraw (task : Task.Withdraw)

namespace UnitTask

/-- The parameters of a task. -/
def target : UnitTask → Task.UnitOnNode
  | .place task => task.toUnitOnNode
  | .withdraw task => task.toUnitOnNode

/-- The step of a task. -/
def step {m : Type → Type} [Monad m] (site : Site m) : UnitTask → Step m
  | .place task => task.step site
  | .withdraw task => task.step site

/-- What a task makes a machine do to the list in the record. -/
def change : UnitTask → Placement.Change
  | .place _ => .join
  | .withdraw _ => .leave

/-- Whether a task is about an application and a record. -/
structure Concerns (task : UnitTask) (model name key : String) : Prop where
  model : task.target.model = model
  name : task.target.application = name
  key : task.target.key = key

/-! ## What a task sees, calls and does -/

/-- The calls of a check that is not cut short. -/
def looks (task : UnitTask) : List Call :=
  [.nodes, .application task.target.model task.target.application]

/-- The call that a task waits with. -/
def wait : UnitTask → Call
  | .place task => .awaitStatus task.model [task.application] ["active"] task.timeout
  | .withdraw task => .awaitReady task.model task.application task.timeout

/-- Whether the units of an application are on a machine as a task wants them to be. -/
def Satisfied : UnitTask → String → List AppUnit → Prop
  | .place _, machine, units => Hosts units machine
  | .withdraw _, machine, units => ¬ Hosts units machine

/-- Whether a check takes the node of a task to be absent: it is, or an error says so. -/
def Homeless (task : UnitTask) (fails : Faults) (f : Fleet) : Prop :=
  f.machineOf? task.target.node = none ∨ ∃ e, fails f .nodes e ∧ e.kind = .nodeNotFound

/-- What a check that fails comes to: its message and its calls. -/
inductive Blind (task : UnitTask) (fails : Faults) (f : Fleet) : String → List Call → Prop
  /-- There is no node to place a unit on. -/
  | homeless (hchange : task.change = .join) (hhomeless : task.Homeless fails f) :
    Blind task fails f task.target.missingMachine [.nodes]
  /-- The nodes cannot be read. -/
  | nodes {e : Error} (hfails : fails f .nodes e) (hkind : e.kind ≠ .nodeNotFound) :
    Blind task fails f e.message [.nodes]
  /-- The application cannot be read. -/
  | application {e : Error} (hfails : fails (f.log [.nodes])
      (.application task.target.model task.target.application) e) :
    Blind task fails f e.message task.looks

/-- What a check that skips comes to: its calls. -/
inductive Idle (task : UnitTask) (fails : Faults) (f : Fleet) (units : List AppUnit) :
    List Call → Prop
  /-- There is no node to withdraw a unit from. -/
  | homeless (hchange : task.change = .leave) (hhomeless : task.Homeless fails f) :
    Idle task fails f units [.nodes]
  /-- The machine is as it should be. -/
  | satisfied {machine : String} (hmachine : f.machineOf? task.target.node = some machine)
      (hsatisfied : task.Satisfied machine units) : Idle task fails f units task.looks

/-- The call by which a task changes the units on a machine, when a change is due. -/
inductive Due : UnitTask → String → List AppUnit → Call → Prop
  /-- The machine lacks a unit. -/
  | place {task : Task.Place} {machine : String} {units : List AppUnit}
      (hlacks : ¬ Hosts units machine) :
    Due (.place task) machine units (.addUnit task.model task.application machine)
  /-- The machine hosts a unit. -/
  | withdraw {task : Task.Withdraw} {machine : String} {units : List AppUnit} {unit : AppUnit}
      (hfind : units.find? (·.machine = machine) = some unit) :
    Due (.withdraw task) machine units (.removeUnit task.model task.application unit.name)

/-- What the call makes of the units. -/
inductive Alters (machine : String) : List AppUnit → Call → List AppUnit → Prop
  /-- A unit with a fresh name comes to the machine. -/
  | place {model name : String} {before after : List AppUnit} {unit : AppUnit}
      (hmachine : unit.machine = machine)
      (hfresh : unit.name ∉ (before ++ after).map (·.name)) :
    Alters machine (before ++ after) (.addUnit model name machine) (before ++ unit :: after)
  /-- The units with the name go. -/
  | withdraw {model name unit : String} {units : List AppUnit} :
    Alters machine units (.removeUnit model name unit) (units.filter (·.name ≠ unit))

/-- What follows the change of the units: the machine is noted and the application waited for. -/
inductive Settling (task : UnitTask) (fails : Faults) (machine : String) (f : Fleet) :
    Except Error Outcome → Fleet → Prop
  /-- The machine cannot be noted. -/
  | unnoted {e : Error} {f' : Fleet}
      (hnoting : Noting fails task.target.key machine task.change f (.error e) f') :
    Settling task fails machine f (.error e) f'
  /-- The wait fails. -/
  | unsettled {e : Error} {f' : Fleet}
      (hnoting : Noting fails task.target.key machine task.change f (.ok ⟨⟩) f')
      (hfails : fails f' task.wait e) :
    Settling task fails machine f (.error e) (f'.log [task.wait])
  | settled {f' : Fleet}
      (hnoting : Noting fails task.target.key machine task.change f (.ok ⟨⟩) f') :
    Settling task fails machine f (.ok .completed) (f'.log [task.wait])

/-- What a run may come to that changes the units by a call: its result, and the fleet that it
leaves. -/
inductive Runs (task : UnitTask) (fails : Faults) (machine : String) (units : List AppUnit)
    (call : Call) (f : Fleet) : Except Error Outcome → Fleet → Prop
  /-- The units are not changed. -/
  | refused {e : Error} (hfails : fails f call e) :
    Runs task fails machine units call f (.error e) (f.log [call])
  /-- The units are changed. -/
  | changed {units' : List AppUnit} {result : Except Error Outcome} {f' : Fleet}
      (halters : Alters machine units call units')
      (hsettling : task.Settling fails machine
        ((f.withUnits task.target.model task.target.application units').log [call]) result f') :
    Runs task fails machine units call f result f'

/-- What the evaluation of a task may come to on a fleet whose application has these units: its
outcome, and the fleet that it leaves. -/
inductive Evaluates (task : UnitTask) (fails : Faults) (f : Fleet) (units : List AppUnit) :
    Outcome → Fleet → Prop
  /-- The check fails. -/
  | blind {message : String} {calls : List Call} (hblind : task.Blind fails f message calls) :
    Evaluates task fails f units (.failed message) (f.log calls)
  /-- The check skips. -/
  | idle {message : String} {calls : List Call} (hidle : task.Idle fails f units calls) :
    Evaluates task fails f units (.skipped message) (f.log calls)
  /-- The check completes and is followed by the run. -/
  | ran {machine : String} {call : Call} {result : Except Error Outcome} {f' : Fleet}
      (hmachine : f.machineOf? task.target.node = some machine)
      (hdue : task.Due machine units call)
      (hruns : task.Runs fails machine units call (f.log task.looks) result f') :
    Evaluates task fails f units (.ofResult result) f'

theorem Blind.looks_prefix {task : UnitTask} {fails : Faults} {f : Fleet} {message : String}
    {calls : List Call} (h : task.Blind fails f message calls) : calls <+: task.looks := by
  cases h with
  | homeless => exact ⟨[_], rfl⟩
  | nodes => exact ⟨[_], rfl⟩
  | application => exact List.prefix_refl _

theorem Idle.looks_prefix {task : UnitTask} {fails : Faults} {f : Fleet} {units : List AppUnit}
    {calls : List Call} (h : task.Idle fails f units calls) : calls <+: task.looks := by
  cases h with
  | homeless => exact ⟨[_], rfl⟩
  | satisfied => exact List.prefix_refl _

/-! ## What a change makes of the units -/

section

variable {task : UnitTask} {machine : String} {call : Call} {units units' : List AppUnit}

/-- A change that was due keeps units spread. -/
theorem Alters.spread (halters : Alters machine units call units')
    (hdue : task.Due machine units call) (hspread : Spread units) : Spread units' := by
  cases hdue with
  | place hlacks =>
    cases halters with
    | place hmachine hfresh =>
      subst hmachine
      exact hspread.insert hfresh hlacks
  | withdraw hfind =>
    cases halters with
    | withdraw => exact hspread.filter _

/-- A change that was due does to the hosts what is noted of it. -/
theorem Alters.hosts_iff (halters : Alters machine units call units')
    (hdue : task.Due machine units call) (hspread : Spread units) {ids : List String}
    (hids : ∀ other, other ∈ ids ↔ Hosts units other) (other : String) :
    other ∈ task.change.apply machine ids ↔ Hosts units' other := by
  cases hdue with
  | place hlacks =>
    cases halters with
    | place hmachine hfresh =>
      subst hmachine
      rw [change, Placement.mem_apply_join, hids, hosts_insert]
  | @withdraw _ _ _ unit hfind =>
    have hmem := List.mem_of_find?_eq_some hfind
    obtain rfl : unit.machine = machine := by simpa using List.find?_some hfind
    cases halters with
    | withdraw => rw [change, Placement.mem_apply_leave, hids, hspread.filter_name hmem, hosts_free]

/-- A change that was due keeps the units on other machines. -/
theorem Alters.filter_eq (halters : Alters machine units call units')
    (hdue : task.Due machine units call) (hspread : Spread units) {p : AppUnit → Bool}
    (hp : ∀ unit, unit.machine = machine → p unit = false) : units'.filter p = units.filter p := by
  cases hdue with
  | place hlacks =>
    cases halters with
    | place hmachine hfresh =>
      rw [List.filter_append, List.filter_append, List.filter_cons_of_neg]
      rw [hp _ hmachine]
      exact Bool.false_ne_true
  | @withdraw _ _ _ unit hfind =>
    have hmem := List.mem_of_find?_eq_some hfind
    obtain rfl : unit.machine = machine := by simpa using List.find?_some hfind
    cases halters with
    | withdraw =>
      rw [hspread.filter_name hmem, List.filter_filter]
      refine List.filter_congr fun other _ => ?_
      by_cases hother : other.machine = unit.machine
      · rw [hp other hother, Bool.false_and]
      · rw [decide_eq_true hother, Bool.and_true]

end

/-- While the record is kept, a changed machine is noted, and only the wait may fail. -/
theorem Settling.of_keeps {task : UnitTask} {fails : Faults} {machine : String} {f f' : Fleet}
    {result : Except Error Outcome} (hkeeps : fails.Keeps task.target.key)
    (h : task.Settling fails machine f result f') :
    (∃ g calls, f.Notes task.target.key machine task.change g ∧ f' = g.log calls) ∧
      (result = .ok .completed ∨ ∃ f₁ e, fails f₁ task.wait e) := by
  cases h with
  | unnoted hnoting => nomatch (hnoting.of_keeps hkeeps).1
  | unsettled hnoting hfails =>
    obtain ⟨-, g, calls, hnotes, rfl⟩ := hnoting.of_keeps hkeeps
    exact ⟨⟨g, _, hnotes, Fleet.log_log _ _ _⟩, .inr ⟨_, _, hfails⟩⟩
  | settled hnoting =>
    obtain ⟨-, g, calls, hnotes, rfl⟩ := hnoting.of_keeps hkeeps
    exact ⟨⟨g, _, hnotes, Fleet.log_log _ _ _⟩, .inl rfl⟩

/-! ## Checks -/

/-- What a check may come to: its result, and the fleet that it leaves.  `due` is what a check that
completes has found out. -/
inductive Checks (task : UnitTask) (fails : Faults) (f : Fleet) (units : List AppUnit)
    (due : Prop) : Except Error Outcome → Fleet → Prop
  | blind {result : Except Error Outcome} {message : String} {calls : List Call}
      (hresult : Outcome.ofResult result = .failed message)
      (hblind : task.Blind fails f message calls) :
    Checks task fails f units due result (f.log calls)
  | idle {message : String} {calls : List Call} (hidle : task.Idle fails f units calls) :
    Checks task fails f units due (.ok (.skipped message)) (f.log calls)
  | due (hdue : due) : Checks task fails f units due (.ok .completed) (f.log task.looks)

section

variable {site : Site (StateM σ)} {view : FleetView σ} {fails : Faults}

/-- The machine is looked up while nothing is remembered. -/
theorem exec_resolve_none (task : Task.Place) {s s' : σ} {result : Except Error (Option String)}
    (h : exec (task.machine? site) s = (result, s')) :
    ∃ memory, Step.exec (task.resolve site) none s = (result, memory, s') ∧
      ∀ machine, result = .ok (some machine) → memory = some machine := by
  unfold Task.Place.resolve
  rw [Step.exec_bind_ok (Step.exec_get _ _)]
  cases result with
  | ok found =>
    refine ⟨found, ?_, fun machine hfound => Except.ok.inj hfound⟩
    rw [Step.exec_bind_ok (Step.exec_call h _), Step.exec_bind_ok (Step.exec_set _ _ _)]
    rfl
  | error e =>
    refine ⟨none, ?_, fun machine hfound => nomatch hfound⟩
    rw [Step.exec_bind_error (Step.exec_call h _)]

/-- A machine that is remembered is not looked up. -/
theorem exec_resolve_some (task : Task.Place) (machine : String) (s : σ) :
    Step.exec (task.resolve site) (some machine) s = (.ok (some machine), some machine, s) := by
  unfold Task.Place.resolve
  rw [Step.exec_bind_ok (Step.exec_get _ _)]
  rfl

/-- The two calls of a check, the second made in the state that the first has left. -/
theorem exec_looks (lawful : Lawful site view fails) (task : Task.UnitOnNode)
    (honest : fails.Honest task.model task.application task.key) {s : σ} (hs : view.ready s)
    {units : List AppUnit}
    (hunits : (view.fleet s).units task.model task.application = some units) :
    ∃ s₁ found s₂ seen,
      exec (task.machine? site) s = (found, s₁) ∧
      view.Sees s₁ ((view.fleet s).log [.nodes]) ∧
      (found = .ok ((view.fleet s).machineOf? task.node) ∨
        (∃ e, fails (view.fleet s) .nodes e ∧ e.kind = .nodeNotFound ∧ found = .ok none) ∨
        ∃ e, fails (view.fleet s) .nodes e ∧ e.kind ≠ .nodeNotFound ∧ found = .error e) ∧
      exec (task.observe site) s₁ = (seen, s₂) ∧
      view.Sees s₂
        ((view.fleet s).log [.nodes, .application task.model task.application]) ∧
      ((∃ app, seen = .ok (some app) ∧ app.units = units) ∨
        ∃ e, fails ((view.fleet s).log [.nodes])
          (.application task.model task.application) e ∧ seen = .error e) := by
  obtain ⟨s₁, found, hlook, hsees₁, hfound⟩ := lawful.exec_machine? task hs
  have hunits₁ : (view.fleet s₁).units task.model task.application = some units := by
    rw [hsees₁.fleet]
    exact hunits
  obtain ⟨s₂, seen, hobserve, hsees₂, hseen⟩ := lawful.exec_observe honest hsees₁.ready hunits₁
  rw [hsees₁.fleet] at hsees₂ hseen
  rw [Fleet.log_log] at hsees₂
  exact ⟨s₁, found, s₂, seen, hlook, hsees₁, hfound, hobserve, hsees₂, hseen⟩

/-- The check of placing completes when the node's machine lacks a unit, and remembers the
machine. -/
theorem exec_check_place (lawful : Lawful site view fails) (task : Task.Place)
    (honest : fails.Honest task.model task.application task.key) {s : σ} (hs : view.ready s)
    {units : List AppUnit}
    (hunits : (view.fleet s).units task.model task.application = some units) :
    ∃ s' result memory f', Step.exec (task.check site) none s = (result, memory, s') ∧
      view.Sees s' f' ∧
      Checks (.place task) fails (view.fleet s) units
        (∃ machine, memory = some machine ∧ (view.fleet s).machineOf? task.node = some machine ∧
          ¬ Hosts units machine) result f' := by
  obtain ⟨s₁, found, s₂, seen, hlook, hsees₁, hfound, hobserve, hsees₂, hseen⟩ :=
    exec_looks lawful task.toUnitOnNode honest hs hunits
  obtain ⟨memory, hresolve, hmemory⟩ := exec_resolve_none task hlook
  unfold Task.Place.check
  -- a node that is found, one that an error hides, and an error that is passed on
  rcases hfound with rfl | ⟨e, hfails, hkind, rfl⟩ | ⟨e, hfails, hkind, rfl⟩
  · rw [Step.exec_bind_ok hresolve]
    cases hmachine : (view.fleet s).machineOf? task.node with
    | none =>
      exact ⟨s₁, _, _, _, rfl, hsees₁, .blind rfl (.homeless rfl (.inl hmachine))⟩
    | some machine =>
      rcases hseen with ⟨app, rfl, rfl⟩ | ⟨e, hfails, rfl⟩
      · rw [Step.exec_bind_ok (Step.exec_call hobserve _)]
        cases hunit : app.unitOn? machine with
        | none =>
          have hlacks := Application.unitOn?_eq_none_iff.1 hunit
          exact ⟨s₂, .ok .completed, memory, _, by simp only [hunit]; rfl, hsees₂,
            .due ⟨machine, hmemory machine (congrArg _ hmachine), rfl, hlacks⟩⟩
        | some unit =>
          have hhosts : Hosts app.units machine :=
            ⟨unit, Application.mem_of_unitOn? hunit, Application.machine_of_unitOn? hunit⟩
          exact ⟨s₂, .ok (.skipped _), memory, _, by simp only [hunit]; rfl, hsees₂,
            .idle (.satisfied hmachine hhosts)⟩
      · rw [Step.exec_bind_error (Step.exec_call hobserve _)]
        exact ⟨s₂, _, _, _, rfl, hsees₂, .blind rfl (.application hfails)⟩
  · rw [Step.exec_bind_ok hresolve]
    exact ⟨s₁, _, _, _, rfl, hsees₁, .blind rfl (.homeless rfl (.inr ⟨e, hfails, hkind⟩))⟩
  · rw [Step.exec_bind_error hresolve]
    exact ⟨s₁, _, _, _, rfl, hsees₁, .blind rfl (.nodes hfails hkind)⟩

/-- The check of withdrawing completes when the node's machine hosts a unit, and remembers the first
such unit. -/
theorem exec_check_withdraw (lawful : Lawful site view fails) (task : Task.Withdraw)
    (honest : fails.Honest task.model task.application task.key) {s : σ} (hs : view.ready s)
    {units : List AppUnit}
    (hunits : (view.fleet s).units task.model task.application = some units) :
    ∃ s' result memory f', Step.exec (task.check site) none s = (result, memory, s') ∧
      view.Sees s' f' ∧
      Checks (.withdraw task) fails (view.fleet s) units
        (∃ unit, memory = some unit.placed ∧
          (view.fleet s).machineOf? task.node = some unit.machine ∧
          units.find? (·.machine = unit.machine) = some unit) result f' := by
  obtain ⟨s₁, found, s₂, seen, hlook, hsees₁, hfound, hobserve, hsees₂, hseen⟩ :=
    exec_looks lawful task.toUnitOnNode honest hs hunits
  unfold Task.Withdraw.check
  -- a node that is found, one that an error hides, and an error that is passed on
  rcases hfound with rfl | ⟨e, hfails, hkind, rfl⟩ | ⟨e, hfails, hkind, rfl⟩
  · rw [Step.exec_bind_ok (Step.exec_call hlook _)]
    cases hmachine : (view.fleet s).machineOf? task.node with
    | none =>
      exact ⟨s₁, _, _, _, rfl, hsees₁, .idle (.homeless rfl (.inl hmachine))⟩
    | some machine =>
      rcases hseen with ⟨app, rfl, rfl⟩ | ⟨e, hfails, rfl⟩
      · rw [Step.exec_bind_ok (Step.exec_call hobserve _)]
        cases hunit : app.unitOn? machine with
        | none =>
          have hlacks := Application.unitOn?_eq_none_iff.1 hunit
          exact ⟨s₂, .ok (.skipped _), none, _,
            by simp only [Application.find?_machineUnits, hunit]; rfl, hsees₂,
            .idle (.satisfied hmachine hlacks)⟩
        | some unit =>
          obtain rfl := Application.machine_of_unitOn? hunit
          refine ⟨s₂, .ok .completed, some unit.placed, _, ?_, hsees₂,
            .due ⟨unit, rfl, rfl, hunit⟩⟩
          simp only [Application.find?_machineUnits, hunit, Option.map_some]
          rw [Step.exec_bind_ok (Step.exec_set _ _ _)]
          rfl
      · rw [Step.exec_bind_error (Step.exec_call hobserve _)]
        exact ⟨s₂, _, _, _, rfl, hsees₂, .blind rfl (.application hfails)⟩
  · rw [Step.exec_bind_ok (Step.exec_call hlook _)]
    exact ⟨s₁, _, _, _, rfl, hsees₁, .idle (.homeless rfl (.inr ⟨e, hfails, hkind⟩))⟩
  · rw [Step.exec_bind_error (Step.exec_call hlook _)]
    exact ⟨s₁, _, _, _, rfl, hsees₁, .blind rfl (.nodes hfails hkind)⟩

/-! ## Runs -/

/-- The machine is noted and the application waited for, up to the first call that fails. -/
theorem exec_settling {μ : Type} (lawful : Lawful site view fails) (task : UnitTask)
    (honest : fails.Honest task.target.model task.target.application task.target.key)
    {wait : ExceptT Error (StateM σ) Unit}
    (hwait : Answers view fails wait task.wait fun _ f f' => f' = f) (machine : String)
    (memory : μ) {s : σ} (hs : view.ready s) :
    ∃ s' result f',
      Step.exec (do
        Step.call (Placement.note site.store task.target.key machine task.change)
        Step.call wait
        return Outcome.completed) memory s = (result, memory, s') ∧
      view.Sees s' f' ∧ Settling task fails machine (view.fleet s) result f' := by
  obtain ⟨s₁, result, f₁, hnote, hsees₁, hnoting⟩ := lawful.exec_note honest machine task.change hs
  cases result with
  | error e =>
    rw [Step.exec_bind_error (Step.exec_call hnote _)]
    exact ⟨s₁, _, _, rfl, hsees₁, .unnoted hnoting⟩
  | ok _ =>
    rw [Step.exec_bind_ok (Step.exec_call hnote _)]
    have hwaits := hwait s₁ hsees₁.ready
    rw [Fleet.AnswersAt, hsees₁.fleet] at hwaits
    rcases hwaits with ⟨⟨⟩, s₂, f, hrun, rfl, hsees₂⟩ | ⟨e, s₂, hrun, hfails, hsees₂⟩
    · rw [Step.exec_bind_ok (Step.exec_call hrun _)]
      exact ⟨s₂, _, _, rfl, hsees₂, .settled hnoting⟩
    · rw [Step.exec_bind_error (Step.exec_call hrun _)]
      exact ⟨s₂, _, _, rfl, hsees₂, .unsettled hnoting hfails⟩

/-- The run of placing adds a unit on the machine that is remembered. -/
theorem exec_run_place (lawful : Lawful site view fails) (task : Task.Place)
    (honest : fails.Honest task.model task.application task.key) {s : σ} (hs : view.ready s)
    {units : List AppUnit}
    (hunits : (view.fleet s).units task.model task.application = some units) (machine : String) :
    ∃ s' result memory f', Step.exec (task.run site) (some machine) s = (result, memory, s') ∧
      view.Sees s' f' ∧
      Runs (.place task) fails machine units (.addUnit task.model task.application machine)
        (view.fleet s) result f' := by
  unfold Task.Place.run
  rw [Step.exec_bind_ok (exec_resolve_some task machine s)]
  rcases lawful.addUnit task.model task.application machine s hs with
    ⟨unit, s₁, f, hadd, ⟨before, after, hbefore, hmachine, hfresh, rfl⟩, hsees₁⟩ |
    ⟨e, s₁, hadd, hfails, hsees₁⟩
  · rw [hunits, Option.some.injEq] at hbefore
    subst hbefore
    rw [Step.exec_bind_ok (Step.exec_call hadd _)]
    obtain ⟨s₂, result, f', hrun, hsees₂, hsettling⟩ := exec_settling lawful (.place task) honest
      (lawful.awaitStatus task.model [task.application] ["active"] task.timeout) machine
      (some machine) hsees₁.ready
    rw [hsees₁.fleet] at hsettling
    exact ⟨s₂, result, _, f', hrun, hsees₂, .changed (.place hmachine hfresh) hsettling⟩
  · rw [Step.exec_bind_error (Step.exec_call hadd _)]
    exact ⟨s₁, _, _, _, rfl, hsees₁, .refused hfails⟩

/-- The run of withdrawing removes the unit that is remembered. -/
theorem exec_run_withdraw (lawful : Lawful site view fails) (task : Task.Withdraw)
    (honest : fails.Honest task.model task.application task.key) {s : σ} (hs : view.ready s)
    {units : List AppUnit}
    (hunits : (view.fleet s).units task.model task.application = some units) (unit : AppUnit) :
    ∃ s' result memory f', Step.exec (task.run site) (some unit.placed) s =
        (result, memory, s') ∧
      view.Sees s' f' ∧
      Runs (.withdraw task) fails unit.machine units
        (.removeUnit task.model task.application unit.name) (view.fleet s) result f' := by
  unfold Task.Withdraw.run
  rw [Step.exec_bind_ok (Step.exec_get _ _)]
  dsimp only [AppUnit.placed]
  rcases lawful.removeUnit task.model task.application unit.name s hs with
    ⟨⟨⟩, s₁, f, hremove, ⟨units, hremoved, rfl⟩, hsees₁⟩ | ⟨e, s₁, hremove, hfails, hsees₁⟩
  · rw [hunits, Option.some.injEq] at hremoved
    subst hremoved
    rw [Step.exec_bind_ok (Step.exec_call hremove _)]
    obtain ⟨s₂, result, f', hrun, hsees₂, hsettling⟩ := exec_settling lawful (.withdraw task) honest
      (lawful.awaitReady task.model task.application task.timeout) unit.machine (some unit.placed)
      hsees₁.ready
    rw [hsees₁.fleet] at hsettling
    exact ⟨s₂, result, _, f', hrun, hsees₂, .changed .withdraw hsettling⟩
  · rw [Step.exec_bind_error (Step.exec_call hremove _)]
    exact ⟨s₁, _, _, _, rfl, hsees₁, .refused hfails⟩

/-! ## Evaluations -/

/-- A check ends the evaluation of its task unless a change is due. -/
theorem Checks.ended_or_due {task : UnitTask} {units : List AppUnit} {due : Prop} {f f' : Fleet}
    {step : Step (StateM σ)} {s s' : σ} {result : Except Error Outcome} {memory : step.Memory}
    (hcheck : (step.check.run step.memory).run s = ((.ofResult result, memory), s'))
    (hchecks : task.Checks fails f units due result f') :
    (∃ record, step.evaluate.run s = (record, s') ∧
        task.Evaluates fails f units record.outcome f') ∨
      (due ∧ result = .ok .completed ∧ f' = f.log task.looks) := by
  cases hchecks with
  | blind hresult hblind =>
    rw [hresult] at hcheck
    exact .inl ⟨_, Step.evaluate_of_check hcheck rfl, .blind hblind⟩
  | idle hidle =>
    exact .inl ⟨_, Step.evaluate_of_check hcheck rfl, .idle hidle⟩
  | due hdue => exact .inr ⟨hdue, rfl, rfl⟩

/-- At a lawful site the evaluation of a task comes to one of the ends that `Evaluates` lists. -/
theorem evaluate_run (lawful : Lawful site view fails) (task : UnitTask)
    (honest : fails.Honest task.target.model task.target.application task.target.key) {s : σ}
    (hs : view.ready s) {units : List AppUnit}
    (hunits : (view.fleet s).units task.target.model task.target.application = some units) :
    ∃ record s' f', (task.step site).evaluate.run s = (record, s') ∧ view.Sees s' f' ∧
      task.Evaluates fails (view.fleet s) units record.outcome f' := by
  cases task with
  | place task =>
    obtain ⟨s₁, result, memory, f₁, hcheck, hsees₁, hchecks⟩ :=
      exec_check_place lawful task honest hs hunits
    have hsettled : ((task.step site).check.run (task.step site).memory).run s = _ :=
      Outcome.settle_run hcheck
    rcases hchecks.ended_or_due hsettled with
      ⟨record, hrecord, hevaluates⟩ | ⟨⟨machine, rfl, hmachine, hlacks⟩, rfl, rfl⟩
    · exact ⟨record, s₁, _, hrecord, hsees₁, hevaluates⟩
    · have hunits₁ : (view.fleet s₁).units task.model task.application = some units := by
        rw [hsees₁.fleet]
        exact hunits
      obtain ⟨s₂, result, memory, f₂, hrun, hsees₂, hruns⟩ :=
        exec_run_place lawful task honest hsees₁.ready hunits₁ machine
      rw [hsees₁.fleet] at hruns
      exact ⟨_, s₂, f₂, Step.evaluate_of_run hsettled rfl (Outcome.settle_run hrun), hsees₂,
        .ran hmachine (.place hlacks) hruns⟩
  | withdraw task =>
    obtain ⟨s₁, result, memory, f₁, hcheck, hsees₁, hchecks⟩ :=
      exec_check_withdraw lawful task honest hs hunits
    have hsettled : ((task.step site).check.run (task.step site).memory).run s = _ :=
      Outcome.settle_run hcheck
    rcases hchecks.ended_or_due hsettled with
      ⟨record, hrecord, hevaluates⟩ | ⟨⟨unit, rfl, hmachine, hfind⟩, rfl, rfl⟩
    · exact ⟨record, s₁, _, hrecord, hsees₁, hevaluates⟩
    · have hunits₁ : (view.fleet s₁).units task.model task.application = some units := by
        rw [hsees₁.fleet]
        exact hunits
      obtain ⟨s₂, result, memory, f₂, hrun, hsees₂, hruns⟩ :=
        exec_run_withdraw lawful task honest hsees₁.ready hunits₁ unit
      rw [hsees₁.fleet] at hruns
      exact ⟨_, s₂, f₂, Step.evaluate_of_run hsettled rfl (Outcome.settle_run hrun), hsees₂,
        .ran hmachine (.withdraw hfind) hruns⟩

end

/-! ## Evaluations without errors -/

theorem Homeless.of_quiet {task : UnitTask} {fails : Faults} {f : Fleet}
    (h : task.Homeless fails f) (hquiet : fails.Quiet) : f.machineOf? task.target.node = none := by
  rcases h with hnone | ⟨e, hfails, -⟩
  · exact hnone
  · exact (hquiet _ _ _ hfails).elim

/-- A change is due only on a machine that is not as the task wants it to be. -/
theorem Due.not_satisfied {task : UnitTask} {machine : String} {units : List AppUnit} {call : Call}
    (h : task.Due machine units call) : ¬ task.Satisfied machine units := by
  cases h with
  | place hlacks => exact hlacks
  | withdraw hfind =>
    have hmachine := List.find?_some hfind
    exact not_not.2 ⟨_, List.mem_of_find?_eq_some hfind, of_decide_eq_true hmachine⟩

/-- The call that changes the units fails for want of an application only. -/
theorem Due.units_eq_none {task : UnitTask} {machine : String} {units : List AppUnit} {call : Call}
    (h : task.Due machine units call) {f : Fleet} {e : Error} (hlacks : f.Lacks call e) :
    f.units task.target.model task.target.application = none := by
  cases h with
  | place => exact hlacks
  | withdraw => exact hlacks

theorem not_lacks_wait (task : UnitTask) (f : Fleet) (e : Error) : ¬ f.Lacks task.wait e := by
  cases task <;> exact id

/-- Without errors, and with a node to place a unit on, a task skips and changes nothing if its
machine is as it should be; else it changes the units, notes the machine and completes. -/
theorem Evaluates.of_quiet {task : UnitTask} {fails : Faults} {f f' : Fleet}
    {units : List AppUnit} {outcome : Outcome} (hquiet : fails.Quiet)
    (hunits : f.units task.target.model task.target.application = some units)
    (hnode : task.change = .join → f.machineOf? task.target.node ≠ none)
    (h : task.Evaluates fails f units outcome f') :
    (outcome.isSkipped ∧
        (∀ machine, f.machineOf? task.target.node = some machine →
          task.Satisfied machine units) ∧
        ∃ calls, calls <+: task.looks ∧ f' = f.log calls) ∨
      (outcome = .completed ∧ ∃ machine call units' g calls,
        f.machineOf? task.target.node = some machine ∧ task.Due machine units call ∧
        Alters machine units call units' ∧
        (f.withUnits task.target.model task.target.application units').Notes task.target.key
          machine task.change g ∧
        f' = g.log calls) := by
  have hpresent : f.units task.target.model task.target.application ≠ none := by
    rw [hunits]
    exact Option.some_ne_none _
  cases h with
  | blind hblind =>
    cases hblind with
    | homeless hjoin hhomeless => exact absurd (hhomeless.of_quiet hquiet) (hnode hjoin)
    | nodes hfails => exact (hquiet _ _ _ hfails).elim
    | application hfails => exact absurd (hquiet _ _ _ hfails).1 hpresent
  | idle hidle =>
    refine .inl ⟨rfl, fun machine hmachine => ?_, _, hidle.looks_prefix, rfl⟩
    cases hidle with
    | homeless _ hhomeless =>
      rw [hhomeless.of_quiet hquiet] at hmachine
      cases hmachine
    | satisfied hother hsatisfied =>
      rw [hother, Option.some.injEq] at hmachine
      rwa [← hmachine]
  | ran hmachine hdue hruns =>
    cases hruns with
    | refused hfails => exact absurd (hdue.units_eq_none (hquiet _ _ _ hfails)) hpresent
    | changed halters hsettling =>
      rw [Fleet.withUnits_log, Fleet.log_log] at hsettling
      obtain ⟨⟨g, calls, hnotes, rfl⟩, rfl | ⟨f₁, e, hfails⟩⟩ :=
        hsettling.of_keeps (hquiet.keeps _)
      · obtain ⟨g, hnoted, rfl⟩ := hnotes.exists_of_log
        exact .inr ⟨rfl, _, _, _, g, _, hmachine, hdue, halters, hnoted, Fleet.log_log _ _ _⟩
      · exact absurd (hquiet _ _ _ hfails) (task.not_lacks_wait f₁ e)

end UnitTask

end Converge
