import Converge.Proofs.Observation
/-!
# Deploying keeps the machines

A deployment looks the application up and applies its configuration with what it has found: an
application that is there keeps the machines that host its units, and one that is not is left to the
configuration.  `Task.Deploy.Placed` says which inputs a look leads to.  Main statement: with every
site and whatever goes wrong, a run applies nothing but these inputs, and nothing at all if the look
fails; in a plan, a deployment that is not to refresh applies only after its check has found that
the application is not there (`Task.Deploy.keeps_placement`).
-/

namespace Converge

open Simulation (Call)

variable {σ : Type}

namespace Task.Deploy

/-! ## Inputs -/

/-- The inputs that a look at the application leads to. -/
inductive Placed (task : Deploy) : Except Error Given → Record → Prop
  /-- The machines of the units, each once and in order, and the model. -/
  | present {app : Application} {ids : List String} {inputs : Record}
      (hordered : ids.Pairwise (· < ·))
      (hmem : ∀ machine, machine ∈ ids ↔ ∃ unit ∈ app.units, unit.machine = machine)
      (hinputs : inputs.entries =
        [("machine_ids", .ofStrings ids), ("machine_model", .str task.model)]) :
      Placed task (.ok (.application app)) inputs
  /-- The configuration places the application. -/
  | absent {e : Error} (hkind : e.kind = .applicationNotFound) :
      Placed task (.error e) .empty

theorem placed_pin (task : Deploy) (app : Application) :
    task.Placed (.ok (.application app)) (task.pin app) := by
  refine .present app.pairwise_machineIds (fun _ => Application.mem_machineIds) ?_
  have hafter : ¬ "machine_model" < "machine_ids" := by decide
  have hne : "machine_model" ≠ "machine_ids" := by decide
  show Dict.insertEntry "machine_model" (Json.str task.model)
    [("machine_ids", Json.ofStrings app.machineIds)] = _
  rw [Dict.insertEntry, if_neg hafter, if_neg hne, Dict.insertEntry]

example : (Application.mk "app" [⟨"app/0", "2"⟩, ⟨"app/1", "10"⟩, ⟨"app/2", "2"⟩]).machineIds =
    ["10", "2"] := by decide

/-- The look at the application. -/
def look (task : Deploy) (result : Except Error Given) : Answer :=
  ⟨.application task.model task.application, result⟩

section

variable {site : Site (StateM σ)}

/-- A look finds the application, or an error says that it is not there, or that it cannot be
told. -/
theorem shows_observe (task : Deploy) (s : σ) :
    Shows (task.observe site) (task.observe (site.watched id)) s fun answers found _ =>
      Shows.Lookup .applicationNotFound (.application task.model task.application) .application
        answers found :=
  .lookup _ _ _ _ s

/-! ## Runs -/

/-- The answers that a run gets. -/
inductive Kept (task : Deploy) : List Answer → Prop
  /-- Where the look fails nothing is applied. -/
  | lost {e : Error} (hkind : e.kind ≠ .applicationNotFound) : Kept task [task.look (.error e)]
  /-- Every attempt applies what the look has led to. -/
  | applied {result : Except Error Given} {inputs : Record} {tries after : List Answer}
      (hplaced : task.Placed result inputs) (hsome : tries ≠ [])
      (htries : ∀ answer ∈ tries, answer.call = .apply task.config inputs)
      (hafter : ∀ answer ∈ after, answer.call.isApply = false) :
      Kept task (task.look result :: (tries ++ after))

/-- From the attempts on, a run does the same whatever inputs it has found. -/
theorem shows_applied (task : Deploy) (result : Except Error Given) {inputs : Record}
    (hplaced : task.Placed result inputs) (s : σ) :
    Shows
      (do
        applyConfig site task.retry task.config inputs
        if let some name := task.readiness then
          site.controller.awaitReady task.model name task.timeout
        return .completed : ExceptT Error (StateM σ) Outcome)
      (do
        applyConfig (site.watched id) task.retry task.config inputs
        if let some name := task.readiness then
          (site.watched id).controller.awaitReady task.model name task.timeout
        return .completed) s fun answers _ _ => task.Kept (task.look result :: answers) := by
  have hkept : ∀ {tries ended after},
      Attempts task.retry (.apply task.config inputs) (task.retry.maxAttempts - 1) tries ended →
      (∀ answer ∈ after, answer.call.isApply = false) →
      task.Kept (task.look result :: (tries ++ after)) := fun htries hafter =>
    .applied hplaced htries.ne_nil htries.call_eq hafter
  refine (Attempts.shows_attempt task.retry site.clock (.apply task.config inputs)
    (site.infra.apply task.config inputs) (task.retry.maxAttempts - 1) s).bind ?_ ?_
  · intro e tries s' htries
    have hnone : task.Kept (task.look result :: (tries ++ [])) := hkept htries (by simp)
    rwa [List.append_nil] at hnone
  · intro _ tries s' htries
    cases task.readiness with
    | none => exact .pure _ (hkept htries (by simp))
    | some name =>
      have hwait : Shows (site.controller.awaitReady task.model name task.timeout)
          ((site.watched id).controller.awaitReady task.model name task.timeout) s'
          fun answers _ _ => ∀ answer ∈ answers, answer.call.isApply = false :=
        .call id _ _ _ fun _ _ _ => by simp [Call.isApply]
      refine hwait.bind (fun _ _ _ hafter => hkept htries hafter) fun _ after s'' hafter => ?_
      exact .pure _ (hkept htries (by simpa using hafter))

theorem shows_run (task : Deploy) (s : σ) :
    Shows (task.run site) (task.run (site.watched id)) s fun answers _ _ => task.Kept answers := by
  unfold run
  refine (task.shows_observe s).bind ?_ ?_
  · intro e _ s' hlook
    cases hlook with
    | failed hkind => exact .lost hkind
  · intro found _ s' hlook
    cases hlook with
    | present app => exact task.shows_applied _ (task.placed_pin app) s'
    | absent hkind => exact task.shows_applied _ (.absent hkind) s'

/-! ## Steps -/

/-- What a completed check has found: the application is not there, unless it is to be deployed
anyway. -/
inductive Cleared (task : Deploy) : List Answer → Prop
  | refresh (h : task.refresh) : Cleared task []
  | absent {e : Error} (h : task.refresh = false) (hkind : e.kind = .applicationNotFound) :
      Cleared task [task.look (.error e)]

theorem shows_check (task : Deploy) (s : σ) :
    Shows (task.check site) (task.check (site.watched id)) s fun answers checked _ =>
      if (Outcome.ofResult checked).isCompleted then task.Cleared answers
      else ∀ answer ∈ answers, answer.call.isApply = false := by
  have hlooked : ∀ result, ∀ answer ∈ [task.look result], answer.call.isApply = false := by
    intro result
    simp [look, Call.isApply]
  unfold check
  by_cases hrefresh : task.refresh
  · simp only [if_pos hrefresh]
    exact .pure _ (.refresh hrefresh)
  · simp only [if_neg hrefresh]
    rw [Bool.not_eq_true] at hrefresh
    refine (task.shows_observe s).bind ?_ ?_
    · intro e _ s' hlook
      cases hlook with
      | failed hkind => exact hlooked _
    · intro found _ s' hlook
      cases hlook with
      | present app => exact .pure _ (hlooked _)
      | absent hkind => exact .pure _ (.absent hrefresh hkind)

/-- The answers that the step of a deployment gets. -/
inductive Traced (task : Deploy) : Phase → List Answer → Prop
  /-- A step that ends in its check applies nothing. -/
  | check {answers : List Answer} (h : ∀ answer ∈ answers, answer.call.isApply = false) :
      Traced task .check answers
  | run {before after : List Answer} (hbefore : task.Cleared before) (hafter : task.Kept after) :
      Traced task .run (before ++ after)

theorem shown_step (task : Deploy) (s : σ) :
    Shown (task.step site).evaluate (task.step (site.watched id)).evaluate s
      fun answers record _ => task.Traced record.phase answers := by
  refine Step.shown_evaluate (Outcome.shown_settle (Step.Shows.call ?_))
  refine (task.shows_check s).imp fun before checked s' hchecked => ?_
  split
  · next hdone =>
    rw [if_pos hdone] at hchecked
    exact Outcome.shown_settle (.call ((task.shows_run s').imp fun after _ _ hafter =>
      .run hchecked hafter))
  · next hdone =>
    rw [if_neg hdone] at hchecked
    exact .check hchecked

end

end Task.Deploy

/-! ## Plans -/

namespace FleetTask

/-- If the task is a deployment, this is what its step gets. -/
def Keeps (task : FleetTask) (phase : Phase) (answers : List Answer) : Prop :=
  ∀ deploy, task = .deploy deploy → deploy.Traced phase answers

/-- The steps that a plan evaluates get their answers one after the other. -/
inductive KeepsAll : List FleetTask → List StepRecord → List Answer → Prop
  | nil {tasks : List FleetTask} : KeepsAll tasks [] []
  | cons {task : FleetTask} {rest : List FleetTask} {record : StepRecord}
      {records : List StepRecord} {before after : List Answer}
      (hfirst : task.Keeps record.phase before) (hrest : KeepsAll rest records after) :
      KeepsAll (task :: rest) (record :: records) (before ++ after)

section

variable {site : Site (StateM σ)}

/-- A watched step does to the state what the step does. -/
theorem shown_any (site : Site (StateM σ)) (task : FleetTask) (s : σ) :
    Shown (task.step site).evaluate (task.step (site.watched id)).evaluate s
      fun _ _ _ => True := by
  refine shown_evaluate task (fun _ _ _ _ => True) ?_
  refine (shown_part site task .check task.memory s).imp fun before checked s' _ => ?_
  split
  · exact (shown_part site task .run checked.2 s').imp fun _ _ _ _ => trivial
  · trivial

theorem shown_keeps (task : FleetTask) (s : σ) :
    Shown (task.step site).evaluate (task.step (site.watched id)).evaluate s
      fun answers record _ => task.Keeps record.phase answers := by
  cases task with
  | deploy task =>
    refine (task.shown_step s).imp fun answers record _ h => ?_
    rintro _ ⟨⟩
    exact h
  | _ => exact (shown_any site _ s).imp fun _ _ _ _ _ => nofun

theorem shown_keepsAll (tasks : List FleetTask) (s : σ) :
    Shown (Plan.evaluate (plan site tasks)) (Plan.evaluate (plan (site.watched id) tasks)) s
      fun answers records _ => KeepsAll tasks records answers := by
  induction tasks generalizing s with
  | nil => exact fun noted => ⟨[], s, [], rfl, by rw [List.append_nil]; rfl, .nil⟩
  | cons task rest ih =>
    refine Plan.shown_cons ((shown_keeps task s).imp fun before record s' hfirst => ?_)
    split
    · have hlast : KeepsAll (task :: rest) [record] (before ++ []) := .cons hfirst .nil
      rwa [List.append_nil] at hlast
    · exact (ih s').imp fun after records _ hrest => .cons hfirst hrest

end

end FleetTask

/-- A deployment keeps an application on the machines that host its units, and leaves one that is
not there to the configuration; if it cannot tell which, it applies nothing. -/
theorem Task.Deploy.keeps_placement (site : Site (StateM σ)) :
    (∀ (task : Task.Deploy) s, ∃ result s' answers,
      exec (task.run site) s = (result, s') ∧
      exec (task.run (site.watched id)) (s, []) = (result, (s', answers)) ∧
      task.Kept answers) ∧
    ∀ (tasks : List FleetTask) s, ∃ report s' answers,
      (Plan.execute (FleetTask.plan site tasks)).run s = (report, s') ∧
      (Plan.execute (FleetTask.plan (site.watched id) tasks)).run (s, []) =
        (report, (s', answers)) ∧
      FleetTask.KeepsAll tasks report.records answers := by
  refine ⟨fun task s => task.shows_run s [], fun tasks s => ?_⟩
  have hlength : (FleetTask.plan (site.watched id) tasks).length =
      (FleetTask.plan site tasks).length := by
    simp only [FleetTask.plan, List.length_map]
  exact Plan.shown_execute hlength (FleetTask.shown_keepsAll tasks s) []

end Converge
