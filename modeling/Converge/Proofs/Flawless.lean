import Converge.Proofs.RecordChange
import Converge.Proofs.SimulatedStore
import Converge.Proofs.UnitTask
/-!
# Unit tasks at a flawless site

A site is flawless when no call fails but for want of a record and none does more than it should; a
simulated fleet without faults is (`World.flawless`).  There a unit task is decided by the nodes and
by the units of its application (`UnitTask.verdict`), and what it does concerns its application and
its record only (`UnitTask.work`).  Main statement: the evaluation of a task records what was
decided and does no more than the work (`UnitTask.evaluate_flawless`).
-/

namespace Converge

open Converge.Membership (Document FileStore)

variable {σ : Type}

/-! ## What is seen of a site -/

/-- What is seen of a controller and of the file of a store. -/
structure Sight (Entry : Type) where
  /-- What the controller has of each application of each model. -/
  entries : String → String → Option Entry
  /-- The content of the store's file. -/
  content : Option Content

/-- How a site is seen, and what the controller makes of an application. -/
structure Stage (σ : Type) where
  /-- What the controller has of an application. -/
  Entry : Type
  ready : σ → Prop
  seen : σ → Sight Entry
  units : Entry → List AppUnit
  /-- The application after a unit was added on a machine. -/
  add (model name machine : String) : Entry → Entry
  /-- The application after a unit was removed by its name. -/
  remove (model name unit : String) : Entry → Entry

/-- The content of a store's file after a change of the record under a key, if there is a document
to change. -/
def Membership.Document.reviseIn (key : String) (change : Record → Record)
    (content : Option Content) : Option Content :=
  match ofContent content with
  | .ok doc => some (.text (doc.revise key change).text)
  | .error _ => content

namespace Sight

variable {Entry : Type}

/-- The document in the store's file. -/
def document (sight : Sight Entry) : Except Error Document :=
  Document.ofContent sight.content

/-- An application is changed, if it is there. -/
def alter (model name : String) (change : Entry → Entry) (sight : Sight Entry) : Sight Entry :=
  { sight with
    entries := fun model' name' =>
      if model' = model ∧ name' = name then (sight.entries model' name').map change
      else sight.entries model' name' }

/-- A record is changed, if the store's file can be loaded. -/
def revise (key : String) (change : Record → Record) (sight : Sight Entry) : Sight Entry :=
  { sight with content := Document.reviseIn key change sight.content }

section

variable {sight : Sight Entry} {model name model' name' key : String} {change : Entry → Entry}
  {amend : Record → Record}

theorem entries_alter : (sight.alter model name change).entries model' name' =
    if model' = model ∧ name' = name then (sight.entries model' name').map change
    else sight.entries model' name' := rfl

@[simp] theorem entries_revise : (sight.revise key amend).entries = sight.entries := rfl

end

end Sight

namespace Stage

variable {α : Type} (stage : Stage σ)

/-- What an action comes to from a state: its result, and what is seen afterwards. -/
def Reaches (action : ExceptT Error (StateM σ) α) (s : σ) (result : Except Error α)
    (sight : Sight stage.Entry) : Prop :=
  ∃ s', exec action s = (result, s') ∧ stage.ready s' ∧ stage.seen s' = sight

end Stage

/-- No call on a site fails but for want of a record, and none does more than it should. -/
structure Site.Flawless (site : Site (StateM σ)) (stage : Stage σ) : Prop where
  nodes : ∀ s doc, stage.ready s → (stage.seen s).document = .ok doc →
    stage.Reaches site.store.nodes s (.ok doc.nodes) (stage.seen s)
  record : ∀ key s doc, stage.ready s → (stage.seen s).document = .ok doc →
    stage.Reaches (site.store.record key) s
      (match doc.record? key with
        | some record => .ok record
        | none => .error (.recordNotFound key)) (stage.seen s)
  setRecord : ∀ key record s doc, stage.ready s → (stage.seen s).document = .ok doc →
    stage.Reaches (site.store.setRecord key record) s (.ok ⟨⟩)
      { stage.seen s with content := some (.text (doc.setRecord key record).text) }
  application : ∀ model name s entry, stage.ready s →
    (stage.seen s).entries model name = some entry →
    ∃ app, app.units = stage.units entry ∧
      stage.Reaches (site.controller.application model name) s (.ok app) (stage.seen s)
  addUnit : ∀ model name machine s entry, stage.ready s →
    (stage.seen s).entries model name = some entry →
    ∃ unit, stage.Reaches (site.controller.addUnit model name machine) s (.ok unit)
      ((stage.seen s).alter model name (stage.add model name machine))
  removeUnit : ∀ model name unit s entry, stage.ready s →
    (stage.seen s).entries model name = some entry →
    stage.Reaches (site.controller.removeUnit model name unit) s (.ok ⟨⟩)
      ((stage.seen s).alter model name (stage.remove model name unit))
  awaitStatus : ∀ model name statuses timeout s entry, stage.ready s →
    (stage.seen s).entries model name = some entry →
    stage.Reaches (site.controller.awaitStatus model [name] statuses timeout) s (.ok ⟨⟩)
      (stage.seen s)
  awaitReady : ∀ model name timeout s entry, stage.ready s →
    (stage.seen s).entries model name = some entry →
    stage.Reaches (site.controller.awaitReady model name timeout) s (.ok ⟨⟩) (stage.seen s)

/-! ## Verdicts -/

namespace UnitTask

/-- What a task does to its application. -/
inductive Deed where
  | place (machine : String)
  | withdraw (unit : AppUnit)

namespace Deed

/-- The machine that is noted. -/
def machine : Deed → String
  | .place machine => machine
  | .withdraw unit => unit.machine

/-- What is noted of the machine. -/
def change : Deed → Placement.Change
  | .place _ => .join
  | .withdraw _ => .leave

/-- What the controller makes of the application. -/
def effect (deed : Deed) (stage : Stage σ) (target : Task.UnitOnNode) : stage.Entry → stage.Entry :=
  match deed with
  | .place machine => stage.add target.model target.application machine
  | .withdraw unit => stage.remove target.model target.application unit.name

end Deed

/-- What a check comes to. -/
inductive Verdict where
  /-- The task ends with its check. -/
  | ends (outcome : Outcome)
  /-- The check completes, and the run does the deed. -/
  | acts (deed : Deed)

/-- The machine of the first node with a name. -/
def machineIn? (nodes : List Node) (name : String) : Option String :=
  (nodes.find? (·.name = name)).map (·.machine)

/-- What the check of a task comes to, by the nodes and the units of the application. -/
def verdict (nodes : List Node) (units : List AppUnit) : UnitTask → Verdict
  | .place task =>
    match machineIn? nodes task.node with
    | none => .ends (.failed task.missingMachine)
    | some machine =>
      if (units.find? (·.machine = machine)).isSome then
        .ends (.skipped (task.application ++ " unit already deployed on machine " ++ machine))
      else .acts (.place machine)
  | .withdraw task =>
    match machineIn? nodes task.node with
    | none => .ends (.skipped task.missingMachine)
    | some machine =>
      match units.find? (·.machine = machine) with
      | none => .ends (.skipped (task.application ++ " unit not deployed on machine " ++ machine))
      | some unit => .acts (.withdraw unit)

/-- The name of a task's step. -/
def name : UnitTask → String
  | .place task => "Add " ++ task.application ++ " unit"
  | .withdraw task => "Remove " ++ task.application ++ " unit"

/-- What is recorded of a task. -/
def answer (task : UnitTask) : Verdict → StepRecord
  | .ends outcome => ⟨task.name, .check, outcome⟩
  | .acts _ => ⟨task.name, .run, .completed⟩

/-- What a task makes of what is seen. -/
def work (stage : Stage σ) (task : UnitTask) (sight : Sight stage.Entry) :
    Verdict → Sight stage.Entry
  | .ends _ => sight
  | .acts deed =>
    (sight.alter task.target.model task.target.application (deed.effect stage task.target)).revise
      task.target.key (Placement.amend deed.change deed.machine)

/-- The units of a task's application, none if the application is not there. -/
def unitsIn (stage : Stage σ) (sight : Sight stage.Entry) (task : UnitTask) : List AppUnit :=
  ((sight.entries task.target.model task.target.application).map stage.units).getD []

/-! ## One task -/

section

variable {site : Site (StateM σ)} {stage : Stage σ} {s : σ} {doc : Document}
  {entry : stage.Entry}

theorem exec_machine? (flawless : site.Flawless stage) (hs : stage.ready s)
    (hdoc : (stage.seen s).document = .ok doc) (target : Task.UnitOnNode) :
    stage.Reaches (target.machine? site) s
      (.ok (machineIn? doc.nodes target.node)) (stage.seen s) := by
  obtain ⟨s', hnodes, hs'⟩ := flawless.nodes s doc hs hdoc
  refine ⟨s', ?_, hs'⟩
  rw [machineIn?]
  have hfind : exec (site.store.findNode target.node) s =
      ((doc.nodes.find? (·.name = target.node)).elim (.error (.nodeNotFound target.node)) .ok,
        s') := by
    refine (exec_bind_ok hnodes _).trans ?_
    cases doc.nodes.find? (·.name = target.node) <;> rfl
  cases hnode : doc.nodes.find? (·.name = target.node) with
  | none =>
    rw [hnode] at hfind
    have habsent := exec_absentAsNone_error hfind .nodeNotFound
    rw [if_pos (show (Error.nodeNotFound target.node).kind = .nodeNotFound from rfl)] at habsent
    exact exec_bind_ok habsent _
  | some node =>
    rw [hnode] at hfind
    exact exec_bind_ok (exec_absentAsNone_ok hfind _) _

theorem exec_observe (flawless : site.Flawless stage) (hs : stage.ready s)
    (target : Task.UnitOnNode)
    (hentry : (stage.seen s).entries target.model target.application = some entry) :
    ∃ app, app.units = stage.units entry ∧
      stage.Reaches (target.observe site) s (.ok (some app)) (stage.seen s) := by
  obtain ⟨app, happ, s', hrun, hs'⟩ := flawless.application _ _ s entry hs hentry
  exact ⟨app, happ, s', exec_absentAsNone_ok hrun _, hs'⟩

theorem exec_note (flawless : site.Flawless stage) (hs : stage.ready s)
    (hdoc : (stage.seen s).document = .ok doc) (key machine : String) (change : Placement.Change) :
    stage.Reaches (Placement.note site.store key machine change) s (.ok ⟨⟩)
      ((stage.seen s).revise key (Placement.amend change machine)) := by
  obtain ⟨s₁, hrecord, hs₁, hseen₁⟩ := flawless.record key s doc hs hdoc
  have hread : exec (site.store.recordOrEmpty key) s =
      (.ok ((doc.record? key).getD .empty), s₁) := by
    cases hfind : doc.record? key with
    | none =>
      rw [hfind] at hrecord
      have habsent := exec_absentAsNone_error hrecord .recordNotFound
      rw [if_pos (show (Error.recordNotFound key).kind = .recordNotFound from rfl)] at habsent
      exact exec_bind_ok habsent _
    | some record =>
      rw [hfind] at hrecord
      exact exec_bind_ok (exec_absentAsNone_ok hrecord _) _
  obtain ⟨s₂, hwrite, hs₂, hseen₂⟩ := flawless.setRecord key
    (Placement.amend change machine ((doc.record? key).getD .empty)) s₁ doc hs₁ (hseen₁ ▸ hdoc)
  refine ⟨s₂, (exec_bind_ok hread _).trans hwrite, hs₂, ?_⟩
  have hcontent : Document.ofContent (stage.seen s).content = .ok doc := hdoc
  rw [hseen₂, hseen₁, Sight.revise, Document.reviseIn, hcontent]
  rfl

/-- What follows a change of the units: the machine is noted and the application waited for. -/
theorem exec_settled {μ : Type} (flawless : site.Flawless stage) (hs : stage.ready s)
    (hdoc : (stage.seen s).document = .ok doc) {key machine : String} {change : Placement.Change}
    {wait : ExceptT Error (StateM σ) Unit} (memory : μ)
    (hwait : ∀ s', stage.ready s' → (stage.seen s').entries = (stage.seen s).entries →
      stage.Reaches wait s' (.ok ⟨⟩) (stage.seen s')) :
    ∃ s', Step.exec (do
        Step.call (Placement.note site.store key machine change)
        Step.call wait
        return Outcome.completed) memory s = (.ok .completed, memory, s') ∧ stage.ready s' ∧
      stage.seen s' = (stage.seen s).revise key (Placement.amend change machine) := by
  obtain ⟨s₁, hnote, hs₁, hseen₁⟩ := exec_note flawless hs hdoc key machine change
  obtain ⟨s₂, hrun, hs₂, hseen₂⟩ := hwait s₁ hs₁ (by rw [hseen₁, Sight.entries_revise])
  refine ⟨s₂, ?_, hs₂, hseen₂.trans hseen₁⟩
  rw [Step.exec_bind_ok (Step.exec_call hnote _), Step.exec_bind_ok (Step.exec_call hrun _)]
  rfl

/-- An application that was changed is still there. -/
theorem exists_entries_alter {sight : Sight stage.Entry} {model name : String}
    (hentry : sight.entries model name = some entry) (change : stage.Entry → stage.Entry) :
    ∃ entry', (sight.alter model name change).entries model name = some entry' :=
  ⟨change entry, by rw [Sight.entries_alter, if_pos ⟨rfl, rfl⟩, hentry, Option.map_some]⟩

/-- To place a unit on a machine is done. -/
theorem exec_placing (flawless : site.Flawless stage) (hs : stage.ready s)
    (hdoc : (stage.seen s).document = .ok doc) (task : Task.Place)
    (hentry : (stage.seen s).entries task.model task.application = some entry)
    (machine : String) :
    ∃ s', Step.exec (task.run site) (some machine) s = (.ok .completed, some machine, s') ∧
      stage.ready s' ∧
      stage.seen s' = work stage (.place task) (stage.seen s) (.acts (.place machine)) := by
  obtain ⟨unit, s₁, hadd, hs₁, hseen₁⟩ := flawless.addUnit task.model task.application machine
    s entry hs hentry
  obtain ⟨entry', hentry'⟩ := exists_entries_alter hentry
    (stage.add task.model task.application machine)
  rw [← hseen₁] at hentry'
  have hdoc₁ : (stage.seen s₁).document = .ok doc := by
    rw [hseen₁]
    exact hdoc
  obtain ⟨s₂, hrest, hs₂, hseen₂⟩ := exec_settled flawless hs₁ hdoc₁ (some machine)
    fun s' hs' heq => flawless.awaitStatus task.model task.application ["active"] task.timeout
      s' entry' hs' (heq ▸ hentry')
  refine ⟨s₂, ?_, hs₂, ?_⟩
  · unfold Task.Place.run
    rw [Step.exec_bind_ok (exec_resolve_some task machine s),
      Step.exec_bind_ok (Step.exec_call hadd _)]
    exact hrest
  · rw [hseen₂, hseen₁]
    rfl

/-- To withdraw a unit is done. -/
theorem exec_withdrawing (flawless : site.Flawless stage) (hs : stage.ready s)
    (hdoc : (stage.seen s).document = .ok doc) (task : Task.Withdraw)
    (hentry : (stage.seen s).entries task.model task.application = some entry)
    (unit : AppUnit) :
    ∃ s', Step.exec (task.run site) (some unit.placed) s =
        (.ok .completed, some unit.placed, s') ∧
      stage.ready s' ∧
      stage.seen s' = work stage (.withdraw task) (stage.seen s) (.acts (.withdraw unit)) := by
  obtain ⟨s₁, hremove, hs₁, hseen₁⟩ := flawless.removeUnit task.model task.application unit.name
    s entry hs hentry
  obtain ⟨entry', hentry'⟩ := exists_entries_alter hentry
    (stage.remove task.model task.application unit.name)
  rw [← hseen₁] at hentry'
  have hdoc₁ : (stage.seen s₁).document = .ok doc := by
    rw [hseen₁]
    exact hdoc
  obtain ⟨s₂, hrest, hs₂, hseen₂⟩ := exec_settled flawless hs₁ hdoc₁ (some unit.placed)
    fun s' hs' heq => flawless.awaitReady task.model task.application task.timeout
      s' entry' hs' (heq ▸ hentry')
  refine ⟨s₂, ?_, hs₂, ?_⟩
  · unfold Task.Withdraw.run
    rw [Step.exec_bind_ok (Step.exec_get _ _)]
    dsimp only [AppUnit.placed]
    rw [Step.exec_bind_ok (Step.exec_call hremove _)]
    exact hrest
  · rw [hseen₂, hseen₁]
    rfl

/-- Placing a unit is decided by the nodes and the units, and done. -/
theorem evaluate_place (flawless : site.Flawless stage) (hs : stage.ready s)
    (hdoc : (stage.seen s).document = .ok doc) (task : Task.Place)
    (hentry : (stage.seen s).entries task.model task.application = some entry) :
    ∃ s', (task.step site).evaluate.run s =
        (answer (.place task) (verdict doc.nodes (stage.units entry) (.place task)), s') ∧
      stage.ready s' ∧ stage.seen s' = work stage (.place task) (stage.seen s)
        (verdict doc.nodes (stage.units entry) (.place task)) := by
  obtain ⟨s₁, hlook, hs₁, hseen₁⟩ := exec_machine? flawless hs hdoc task.toUnitOnNode
  obtain ⟨memory, hresolve, hmemory⟩ := exec_resolve_none task hlook
  obtain ⟨app, happ, s₂, hobserve, hs₂, hseen₂⟩ :=
    exec_observe flawless hs₁ task.toUnitOnNode (hseen₁ ▸ hentry)
  have hseen : stage.seen s₂ = stage.seen s := hseen₂.trans hseen₁
  cases hmachine : machineIn? doc.nodes task.node with
  | none =>
    have hcheck : Step.exec (task.check site) none s =
        (.ok (.failed task.missingMachine), memory, s₁) := by
      unfold Task.Place.check
      rw [Step.exec_bind_ok hresolve, hmachine]
      rfl
    have hsettled : ((task.step site).check.run (task.step site).memory).run s = _ :=
      Outcome.settle_run hcheck
    simp only [verdict, hmachine]
    exact ⟨s₁, Step.evaluate_of_check hsettled rfl, hs₁, hseen₁⟩
  | some machine =>
    obtain rfl : memory = some machine := hmemory machine (congrArg _ hmachine)
    have hlooked : Step.exec (task.check site) none s = Step.exec (if
        (app.unitOn? machine).isSome then pure (Outcome.skipped (task.application ++
          " unit already deployed on machine " ++ machine))
        else pure Outcome.completed) (some machine) s₂ := by
      unfold Task.Place.check
      rw [Step.exec_bind_ok hresolve, hmachine]
      exact Step.exec_bind_ok (Step.exec_call hobserve _) _
    rw [Application.unitOn?, happ] at hlooked
    cases hunit : ((stage.units entry).find? (·.machine = machine)).isSome with
    | true =>
      rw [hunit, if_pos rfl] at hlooked
      have hsettled : ((task.step site).check.run (task.step site).memory).run s = _ :=
        Outcome.settle_run hlooked
      simp only [verdict, hmachine, hunit, if_true]
      exact ⟨s₂, Step.evaluate_of_check hsettled rfl, hs₂, hseen⟩
    | false =>
      rw [hunit, if_neg Bool.false_ne_true] at hlooked
      have hsettled : ((task.step site).check.run (task.step site).memory).run s = _ :=
        Outcome.settle_run hlooked
      obtain ⟨s₃, hrun, hs₃, hseen₃⟩ :=
        exec_placing flawless hs₂ (hseen ▸ hdoc) task (hseen ▸ hentry) machine
      rw [hseen] at hseen₃
      simp only [verdict, hmachine, hunit, Bool.false_eq_true, if_false]
      exact ⟨s₃, Step.evaluate_of_run hsettled rfl (Outcome.settle_run hrun), hs₃, hseen₃⟩

/-- Withdrawing a unit is decided by the nodes and the units, and done. -/
theorem evaluate_withdraw (flawless : site.Flawless stage) (hs : stage.ready s)
    (hdoc : (stage.seen s).document = .ok doc) (task : Task.Withdraw)
    (hentry : (stage.seen s).entries task.model task.application = some entry) :
    ∃ s', (task.step site).evaluate.run s =
        (answer (.withdraw task) (verdict doc.nodes (stage.units entry) (.withdraw task)), s') ∧
      stage.ready s' ∧ stage.seen s' = work stage (.withdraw task) (stage.seen s)
        (verdict doc.nodes (stage.units entry) (.withdraw task)) := by
  obtain ⟨s₁, hlook, hs₁, hseen₁⟩ := exec_machine? flawless hs hdoc task.toUnitOnNode
  obtain ⟨app, happ, s₂, hobserve, hs₂, hseen₂⟩ :=
    exec_observe flawless hs₁ task.toUnitOnNode (hseen₁ ▸ hentry)
  have hseen : stage.seen s₂ = stage.seen s := hseen₂.trans hseen₁
  have hlooked : Step.exec (task.check site) none s =
      match machineIn? doc.nodes task.node with
      | none => (.ok (.skipped task.missingMachine), none, s₁)
      | some machine =>
        match (stage.units entry).find? (·.machine = machine) with
        | none => (.ok (.skipped (task.application ++ " unit not deployed on machine " ++ machine)),
          none, s₂)
        | some unit => (.ok .completed, some unit.placed, s₂) := by
    unfold Task.Withdraw.check
    rw [Step.exec_bind_ok (Step.exec_call hlook _)]
    cases machineIn? doc.nodes task.node with
    | none => rfl
    | some machine =>
      dsimp only
      rw [Step.exec_bind_ok (Step.exec_call hobserve _)]
      dsimp only
      rw [Application.find?_machineUnits, Application.unitOn?, happ]
      cases (stage.units entry).find? (·.machine = machine) <;> rfl
  cases hmachine : machineIn? doc.nodes task.node with
  | none =>
    rw [hmachine] at hlooked
    have hsettled : ((task.step site).check.run (task.step site).memory).run s = _ :=
      Outcome.settle_run hlooked
    simp only [verdict, hmachine]
    exact ⟨s₁, Step.evaluate_of_check hsettled rfl, hs₁, hseen₁⟩
  | some machine =>
    cases hunit : (stage.units entry).find? (·.machine = machine) with
    | none =>
      simp only [hmachine, hunit] at hlooked
      have hsettled : ((task.step site).check.run (task.step site).memory).run s = _ :=
        Outcome.settle_run hlooked
      simp only [verdict, hmachine, hunit]
      exact ⟨s₂, Step.evaluate_of_check hsettled rfl, hs₂, hseen⟩
    | some unit =>
      simp only [hmachine, hunit] at hlooked
      have hsettled : ((task.step site).check.run (task.step site).memory).run s = _ :=
        Outcome.settle_run hlooked
      obtain ⟨s₃, hrun, hs₃, hseen₃⟩ :=
        exec_withdrawing flawless hs₂ (hseen ▸ hdoc) task (hseen ▸ hentry) unit
      rw [hseen] at hseen₃
      simp only [verdict, hmachine, hunit]
      exact ⟨s₃, Step.evaluate_of_run hsettled rfl (Outcome.settle_run hrun), hs₃, hseen₃⟩

/-- A task is decided by the nodes and the units of its application, and done. -/
theorem evaluate_flawless (flawless : site.Flawless stage) (hs : stage.ready s)
    (hdoc : (stage.seen s).document = .ok doc) (task : UnitTask)
    (hthere : ((stage.seen s).entries task.target.model task.target.application).isSome) :
    ∃ s', (task.step site).evaluate.run s =
        (task.answer (task.verdict doc.nodes (task.unitsIn stage (stage.seen s))), s') ∧
      stage.ready s' ∧ stage.seen s' = task.work stage (stage.seen s)
        (task.verdict doc.nodes (task.unitsIn stage (stage.seen s))) := by
  obtain ⟨entry, hentry⟩ := Option.isSome_iff_exists.1 hthere
  rw [unitsIn, hentry, Option.map_some, Option.getD_some]
  cases task with
  | place task => exact evaluate_place flawless hs hdoc task hentry
  | withdraw task => exact evaluate_withdraw flawless hs hdoc task hentry

end

end UnitTask

/-! ## Simulated fleets -/

namespace Simulation.World

/-- No call meets a fault. -/
def Quiet (world : World) : Prop :=
  ∀ method, ∀ fault ∈ (world.faults.find? method).getD [], fault = none

/-- How a simulated fleet is seen. -/
def stage : Stage World where
  Entry := Deployment
  ready world := view.ready world ∧ world.Quiet
  seen world := ⟨world.deployment?, view.file world⟩
  units := Deployment.units
  add _ name machine app := { app with
    units := app.units ++ [⟨name ++ "/" ++ String.ofList (Text.decimal app.nextNumber), machine⟩]
    nextNumber := app.nextNumber + 1 }
  remove _ _ unit app := { app with units := app.units.filter (·.name ≠ unit) }

theorem Quiet.takeFault {world : World} (h : world.Quiet) (call : Call) :
    (takeFault call world).1 = none ∧ (takeFault call world).2.Quiet := by
  unfold World.takeFault
  split
  · exact ⟨rfl, h⟩
  · next fault rest hqueue =>
    have hmethod := h call.method
    rw [hqueue] at hmethod
    obtain ⟨hfault, hrest⟩ := List.forall_mem_cons.1 hmethod
    refine ⟨hfault, fun method => ?_⟩
    rw [Dict.find?_insert]
    split
    · exact hrest
    · exact h method

theorem deployment?_setDeployment (world : World) (model name : String) (app : Deployment)
    (model' name' : String) :
    (setDeployment model name app world).deployment? model' name' =
      if model' = model ∧ name' = name then some app else world.deployment? model' name' := by
  rw [deployment?, setDeployment, Dict.find?_insert]
  by_cases hmodel : model' = model
  · subst hmodel
    rw [if_pos rfl, Option.bind_some, Dict.find?_insert]
    by_cases hname : name' = name
    · rw [if_pos hname, if_pos ⟨rfl, hname⟩]
    · rw [if_neg hname, if_neg fun heq => hname heq.2, deployment?]
      cases world.models.find? model' <;> rfl
  · rw [if_neg hmodel, if_neg fun heq => hmodel heq.1, deployment?]

theorem steady_seen : Steady stage.seen :=
  fun _ _ _ => rfl

section

variable {α : Type} {call : Call} {effect : Action α} {world : World} {result : Except Error α}
  {sight : Sight Deployment}

/-- A fleet that no fault awaits is ready if its file is. -/
theorem ready_of_faults_eq (hready : view.ready world) (hfaults : world.faults = .empty) :
    stage.ready world := by
  refine ⟨hready, fun method fault hmem => ?_⟩
  rw [hfaults] at hmem
  cases hmem

/-- A call without a fault takes its effect, on a fleet that looks the same. -/
theorem reaches_perform (hs : stage.ready world)
    (h : ∀ met, stage.ready met → stage.seen met = stage.seen world →
      stage.Reaches effect met result sight) :
    stage.Reaches (perform call effect) world result sight := by
  obtain ⟨hnone, hquiet⟩ := Quiet.takeFault (show (note call world).Quiet from hs.2) call
  have htree : (takeFault call (note call world)).2.tree = world.tree :=
    steady_tree.takeFault call _
  have hseen : stage.seen (takeFault call (note call world)).2 = stage.seen world :=
    steady_seen.takeFault call _
  obtain ⟨s', heffect, hs'⟩ := h _ ⟨(keeps_of_tree htree hs.1).ready, hquiet⟩ hseen
  refine ⟨s', ?_, hs'⟩
  rw [exec_perform, hnone]
  exact heffect

/-- A call that tells what is seen. -/
theorem reaches_pure (hs : stage.ready world) (a : α) :
    stage.Reaches (perform call (pure a)) world (.ok a) (stage.seen world) :=
  reaches_perform hs fun met hmet hseen => ⟨met, rfl, hmet, hseen⟩

/-- An application that is there is found. -/
theorem exec_expect {model name : String} {app : Deployment}
    (h : world.deployment? model name = some app) :
    exec (expect model name) world = (.ok app, world) := by
  have hget : exec (get : Action World) world = (.ok world, world) := rfl
  unfold expect
  rw [exec_bind_ok hget, h]
  rfl

/-- An application is changed in place. -/
theorem seen_setDeployment {model name : String} {app : Deployment}
    (h : world.deployment? model name = some app) (change : Deployment → Deployment) :
    stage.seen (setDeployment model name (change app) world) =
      (stage.seen world).alter model name change := by
  refine congrArg (Sight.mk · (view.file world)) ?_
  funext model' name'
  rw [deployment?_setDeployment]
  show _ = if model' = model ∧ name' = name then _ else _
  split
  · next heq =>
    obtain ⟨rfl, rfl⟩ := heq
    show _ = (world.deployment? model' name').map change
    rw [h, Option.map_some]
  · rfl

theorem deployment?_eq {met : World} (h : stage.seen met = stage.seen world)
    (model name : String) : met.deployment? model name = world.deployment? model name :=
  congrFun (congrFun (congrArg Sight.entries h) model) name

theorem document_eq {met : World} (h : stage.seen met = stage.seen world) :
    Document.ofContent (view.file met) = (stage.seen world).document := by
  rw [← h]
  rfl

/-- Writing the store changes nothing but the tree. -/
theorem writable_frame (world : World) :
    FileStore.inRoot.Writable disk
      (fun world' => view.ready world' ∧ ∃ tree, world' = { world with tree })
      (fun world' => view.ready world' ∧ ∃ tree, world' = { world with tree }) view.file
      fun world' => FileStore.rootFile? "cluster.tmp" world'.tree :=
  writable.and (FileTree.disk_keeps fun tree _ h => by
    obtain ⟨_, rfl⟩ := h
    exact ⟨tree, rfl⟩)

end

/-- A fleet without faults is flawless. -/
theorem flawless : (site FileStore.inRoot).Flawless stage where
  nodes world doc hs hdoc := reaches_perform hs fun met hmet hseen => by
    have hnodes := writable.exec_nodes hmet.1
    rw [document_eq hseen, hdoc] at hnodes
    exact ⟨met, hnodes, hmet, hseen⟩
  record key world doc hs hdoc := reaches_perform hs fun met hmet hseen => by
    have hrecord := writable.exec_record hmet.1 key
    rw [document_eq hseen, hdoc] at hrecord
    exact ⟨met, hrecord, hmet, hseen⟩
  setRecord key record world doc hs hdoc := reaches_perform hs fun met hmet hseen => by
    have hload := (document_eq hseen).trans hdoc
    obtain ⟨s', hupdate, ⟨hready, tree, rfl⟩, hfile⟩ :=
      (writable_frame met).exec_update ⟨hmet.1, met.tree, rfl⟩ hload (·.setRecord key record)
    refine ⟨_, hupdate, ⟨hready, hmet.2⟩, ?_⟩
    rw [← hseen]
    exact congrArg (Sight.mk met.deployment?) hfile
  application model name world app hs happ := ⟨⟨name, app.units⟩, rfl,
    reaches_perform hs fun met hmet hseen => by
      have hthere := (deployment?_eq hseen model name).trans happ
      exact ⟨met, exec_bind_ok (exec_expect hthere) _, hmet, hseen⟩⟩
  addUnit model name machine world app hs happ := ⟨_, reaches_perform hs fun met hmet hseen => by
    have hthere := (deployment?_eq hseen model name).trans happ
    refine ⟨setDeployment model name (stage.add model name machine app) met, ?_, ?_, ?_⟩
    · exact exec_bind_ok (exec_expect hthere) _
    · exact hmet
    · rw [← hseen]
      exact seen_setDeployment hthere _⟩
  removeUnit model name unit world app hs happ := reaches_perform hs fun met hmet hseen => by
    have hthere := (deployment?_eq hseen model name).trans happ
    refine ⟨setDeployment model name (stage.remove model name unit app) met, ?_, ?_, ?_⟩
    · exact exec_bind_ok (exec_expect hthere) _
    · exact hmet
    · rw [← hseen]
      exact seen_setDeployment hthere _
  awaitStatus model name statuses timeout world app hs happ := reaches_pure hs ()
  awaitReady model name timeout world app hs happ := reaches_pure hs ()

end Simulation.World

end Converge
