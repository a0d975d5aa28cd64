import Converge.Proofs.Tolerance
/-!
# Rollouts

To apply a configuration, to deploy an application and to refresh applications is the same thing but
for the data: the inputs are found, the configuration is applied under a policy, and something is
waited for.  `Rollout` is that shape.  Main statements: the runs of the three kinds of task are
rollouts (`FleetTask.run_eq_rollout`), and a rollout goes on only after what it has done before has
succeeded (`Rollout.shows_run`).
-/

namespace Converge

open Simulation (Call)

variable {σ : Type}

/-! ## Rollouts -/

namespace Rollout

/-- Where the inputs of a configuration come from. -/
inductive Inputs where
  | given (inputs : Record)
  /-- An application that is already there keeps its machines. -/
  | observed (task : Task.Deploy)

/-- What is waited for in the end. -/
inductive Sequel where
  | nothing
  | settled (wait : Task.Wait)
  | ready (model name : String) (timeout : Duration)

namespace Inputs

/-- Finds the inputs. -/
def find {m : Type → Type} [Monad m] (site : Site m) : Inputs → ExceptT Error m Record
  | given inputs => return inputs
  | observed task => do
    match ← task.observe site with
    | some app => return task.pin app
    | none => return .empty

/-- The calls that find the inputs. -/
def calls : Inputs → List Call
  | given _ => []
  | observed task => [.application task.model task.application]

/-- Which inputs may be found. -/
inductive Admits : Inputs → Record → Prop
  | given (inputs : Record) : Admits (.given inputs) inputs
  | present (task : Task.Deploy) (app : Application) : Admits (.observed task) (task.pin app)
  | absent (task : Task.Deploy) : Admits (.observed task) .empty

end Inputs

namespace Sequel

/-- Waits. -/
def await {m : Type → Type} [Monad m] (site : Site m) : Sequel → ExceptT Error m Unit
  | nothing => return ⟨⟩
  | settled wait => wait.settle site
  | ready model name timeout => site.controller.awaitReady model name timeout

/-- The calls that wait. -/
def calls : Sequel → List Call
  | nothing => []
  | settled wait => [.awaitStatus wait.model wait.applications wait.statuses wait.timeout]
  | ready model name timeout => [.awaitReady model name timeout]

end Sequel

end Rollout

/-- The data of a rollout. -/
structure Rollout where
  config : String
  retry : RetryPolicy
  inputs : Rollout.Inputs
  sequel : Rollout.Sequel
  /-- What is reported in the end. -/
  outcome : Outcome

/-- Finds the inputs, applies the configuration and waits. -/
def Rollout.run {m : Type → Type} [Monad m] (rollout : Rollout) (site : Site m) :
    ExceptT Error m Outcome := do
  let inputs ← rollout.inputs.find site
  Task.applyConfig site rollout.retry rollout.config inputs
  rollout.sequel.await site
  return rollout.outcome

/-! ## Tasks -/

namespace Task

/-- Applying a configuration as a rollout. -/
def Apply.rollout (task : Apply) : Rollout where
  config := task.config
  retry := task.retry
  inputs := .given task.inputs
  sequel := match task.wait with
    | some wait => .settled wait
    | none => .nothing
  outcome := .completed

/-- Deploying an application as a rollout. -/
def Deploy.rollout (task : Deploy) : Rollout where
  config := task.config
  retry := task.retry
  inputs := .observed task
  sequel := match task.readiness with
    | some name => .ready task.model name task.timeout
    | none => .nothing
  outcome := .completed

/-- Refreshing applications as a rollout of their channels. -/
def Refresh.rollout (task : Refresh) (targets : List Target) : Rollout where
  config := task.config
  retry := task.retry
  inputs := .given (Refresh.inputs targets)
  sequel := .settled
    ⟨task.model, targets.map (·.application), Refresh.acceptedStatuses, task.timeout⟩
  outcome := .completedWith (.obj [("upgraded", .ofStrings (targets.map (·.application)))])

/-- The targets of a run: those that were remembered, or else all. -/
def Refresh.due (task : Refresh) (memory : Refresh.Memory) : List Target :=
  if memory.isEmpty then task.targets else memory

end Task

namespace Step

variable {m : Type → Type} [Monad m] {μ α β : Type}

/-- What an action settles to depends on what it makes of a memory only. -/
theorem run_settle_congr {action action' : Action m μ Outcome} {memory memory' : μ}
    (h : action.run.run memory = action'.run.run memory') :
    (Outcome.settle action : StateT μ m Outcome).run memory =
      (Outcome.settle action' : StateT μ m Outcome).run memory' := by
  unfold Outcome.settle
  simp only [StateT.run_bind, h]

variable [LawfulMonad m]

theorem call_bind (action : ExceptT Error m α) (next : α → ExceptT Error m β) :
    (call (action >>= next) : Action m μ β) = call action >>= fun a => call (next a) := by
  refine ExceptT.ext (StateT.ext fun memory => ?_)
  simp only [call, ExceptT.run_mk, ExceptT.run_bind, StateT.run_lift, StateT.run_bind, bind_assoc,
    pure_bind]
  refine bind_congr fun result => ?_
  cases result <;> simp

theorem call_pure (a : α) : (call (pure a) : Action m μ α) = pure a := by
  refine ExceptT.ext (StateT.ext fun memory => ?_)
  simp [call]

theorem run_get_bind (next : μ → Action m μ α) (memory : μ) :
    (get >>= next : Action m μ α).run.run memory = (next memory).run.run memory := by
  have hget : (get : Action m μ μ).run.run memory = pure (.ok memory, memory) := by
    show StateT.run (ExceptT.run (ExceptT.lift (get : StateT μ m μ))) memory = _
    simp
  rw [ExceptT.run_bind, StateT.run_bind, hget, pure_bind]

theorem run_set_bind (next : PUnit → Action m μ α) (memory memory' : μ) :
    (set memory' >>= next : Action m μ α).run.run memory = (next ⟨⟩).run.run memory' := by
  have hset : (set memory' : Action m μ PUnit).run.run memory = pure (.ok ⟨⟩, memory') := by
    show StateT.run (ExceptT.run (ExceptT.lift (set memory' : StateT μ m PUnit))) memory = _
    simp
  rw [ExceptT.run_bind, StateT.run_bind, hset, pure_bind]

theorem run_settle_call (action : ExceptT Error m Outcome) (memory : μ) :
    (Outcome.settle (call action : Action m μ Outcome) : StateT μ m Outcome).run memory =
      (do return (← Outcome.settle action, memory)) := by
  unfold Outcome.settle
  simp only [call, ExceptT.run_mk, StateT.run_bind, StateT.run_lift, bind_assoc, pure_bind]
  refine bind_congr fun result => ?_
  cases result <;> simp

end Step

namespace Task

variable {m : Type → Type} [Monad m] [LawfulMonad m]

theorem Apply.run_eq_rollout (task : Apply) (site : Site m) :
    (do
      applyConfig site task.retry task.config task.inputs
      if let some wait := task.wait then wait.settle site
      return .completed : ExceptT Error m Outcome) = task.rollout.run site := by
  unfold Rollout.run Apply.rollout Rollout.Inputs.find Rollout.Sequel.await
  rw [pure_bind]
  cases task.wait <;> simp only [pure_bind]

theorem Deploy.run_eq_rollout (task : Deploy) (site : Site m) :
    task.run site = task.rollout.run site := by
  unfold Deploy.run Rollout.run Deploy.rollout Rollout.Inputs.find Rollout.Sequel.await
  rw [bind_assoc]
  refine bind_congr fun found => ?_
  cases found <;> cases task.readiness <;> simp only [pure_bind]

/-- Once the targets are remembered, the run is a rollout. -/
theorem Refresh.run_eq_rollout (task : Refresh) (site : Site m) (memory : Refresh.Memory) :
    (task.run site).run.run memory =
      (Step.call ((task.rollout (task.due memory)).run site) :
        Step.Action m Refresh.Memory Outcome).run.run (task.due memory) := by
  have hrollout : ∀ targets : List Target,
      (Step.call ((task.rollout targets).run site) : Step.Action m Refresh.Memory Outcome) = (do
        Step.call (applyConfig site task.retry task.config (inputs targets))
        Step.call (site.controller.awaitStatus task.model (targets.map (·.application))
          acceptedStatuses task.timeout)
        return .completedWith (.obj [("upgraded", .ofStrings (targets.map (·.application)))])) := by
    intro targets
    unfold Rollout.run Refresh.rollout Rollout.Inputs.find Rollout.Sequel.await Wait.settle
    rw [pure_bind]
    simp only [Step.call_bind, Step.call_pure]
  rw [hrollout]
  unfold run due
  rw [Step.run_get_bind]
  by_cases hempty : memory.isEmpty
  · simp only [if_pos hempty]
    rw [Step.run_set_bind, Step.run_get_bind]
  · simp only [if_neg hempty]
    rw [Step.run_get_bind]

end Task

namespace FleetTask

/-- The rollout that a run is. -/
def rollout? : (task : FleetTask) → task.Memory → Option Rollout
  | .apply task, _ => some task.rollout
  | .deploy task, _ => some task.rollout
  | .refresh task, memory => some (task.rollout (task.due memory))
  | .init _, _ | .place _, _ | .withdraw _, _ => none

/-- What is remembered after a run that is a rollout. -/
def afterRollout : (task : FleetTask) → task.Memory → task.Memory
  | .refresh task, memory => task.due memory
  | .init _, memory | .apply _, memory | .deploy _, memory => memory
  | .place _, memory => memory
  | .withdraw _, memory => memory

/-- The runs that are rollouts are those with a policy. -/
theorem retry_rollout? (task : FleetTask) (memory : task.Memory) :
    (task.rollout? memory).map (·.retry) = task.retry? := by
  cases task <;> rfl

/-- A run of a task with a policy is a rollout. -/
theorem run_eq_rollout {m : Type → Type} [Monad m] [LawfulMonad m] {task : FleetTask}
    {memory : task.Memory} {rollout : Rollout} (h : task.rollout? memory = some rollout)
    (site : Site m) : (task.part site .run).run memory =
      (do return (← Outcome.settle (rollout.run site), task.afterRollout memory)) := by
  cases task with
  | apply task =>
    obtain rfl := Option.some.inj h
    rw [← task.run_eq_rollout]
    exact Step.run_settle_call _ memory
  | deploy task =>
    obtain rfl := Option.some.inj h
    rw [← task.run_eq_rollout]
    exact Step.run_settle_call _ memory
  | refresh task =>
    obtain rfl := Option.some.inj h
    exact (Step.run_settle_congr (task.run_eq_rollout site memory)).trans
      (Step.run_settle_call _ (task.due memory))
  | init task => cases h
  | place task => cases h
  | withdraw task => cases h

/-- The outcome of a run is what its rollout ends with. -/
theorem run_of_rollout {task : FleetTask} {memory : task.Memory} {rollout : Rollout}
    (h : task.rollout? memory = some rollout) {site : Site (StateM σ)} {s s' : σ}
    {result : Except Error Outcome} (hrun : exec (rollout.run site) s = (result, s')) :
    ((task.part site .run).run memory).run s =
      ((.ofResult result, task.afterRollout memory), s') := by
  have hsettle : (Outcome.settle (rollout.run site)).run s = (.ofResult result, s') := by
    unfold Outcome.settle
    rw [StateT.run_bind, show StateT.run (rollout.run site).run s = (result, s') from hrun]
    cases result <;> rfl
  rw [run_eq_rollout h, StateT.run_bind, hsettle]
  rfl

end FleetTask

/-! ## How a rollout ends -/

namespace Rollout

/-- The answers that a rollout gets, and how it ends: each stage is reached only if the one before
has succeeded. -/
inductive Ends (rollout : Rollout) : List Answer → Except Error Outcome → Prop
  | unseen {before : List Answer} {e : Error}
      (hbefore : before.map (·.call) = rollout.inputs.calls)
      (he : Explained before (.error e : Except Error Record)) :
    Ends rollout before (.error e)
  | unapplied {before tries : List Answer} {inputs : Record} {e : Error}
      (hbefore : before.map (·.call) = rollout.inputs.calls)
      (hinputs : rollout.inputs.Admits inputs)
      (htries : Attempts rollout.retry (.apply rollout.config inputs)
        (rollout.retry.maxAttempts - 1) tries (.error e)) :
    Ends rollout (before ++ tries) (.error e)
  | applied {before tries after : List Answer} {inputs : Record} (waited : Except Error Unit)
      (hbefore : before.map (·.call) = rollout.inputs.calls)
      (hinputs : rollout.inputs.Admits inputs)
      (htries : Attempts rollout.retry (.apply rollout.config inputs)
        (rollout.retry.maxAttempts - 1) tries (.ok ⟨⟩))
      (hafter : after.map (·.call) = rollout.sequel.calls) (hwaited : Explained after waited) :
    Ends rollout (before ++ (tries ++ after)) (waited.map fun _ => rollout.outcome)

section

variable {site : Site (StateM σ)}

theorem Inputs.shows_find (source : Inputs) (s : σ) :
    Shows (source.find site) (source.find (site.watched id)) s fun answers result _ =>
      answers.map (·.call) = source.calls ∧ (∀ inputs, result = .ok inputs → source.Admits inputs) ∧
        Explained answers result := by
  cases source with
  | given inputs => exact .pure _ ⟨rfl, fun _ h => Except.ok.inj h ▸ .given inputs, .ok _⟩
  | observed task =>
    have hlook : Shows (task.observe site) (task.observe (site.watched id)) s
        fun answers result _ => answers.map (·.call) = (Inputs.observed task).calls ∧
          Explained answers result := by
      have hcall : Shows (site.controller.application task.model task.application)
          ((site.watched id).controller.application task.model task.application) s
          fun answers result _ => answers.map (·.call) = (Inputs.observed task).calls ∧
            Explained answers result :=
        .call id _ _ _ fun result _ _ => ⟨rfl, .call _ _ result⟩
      exact hcall.absentAsNone (fun app _ _ h => ⟨h.1, .ok _⟩) (fun e _ _ h _ => ⟨h.1, .ok _⟩)
        fun e _ _ h _ => ⟨h.1, h.2.of_failure⟩
    refine hlook.bind (fun e _ _ h => ⟨h.1, nofun, h.2.of_failure⟩) ?_
    rintro found before s' ⟨hcalls, -⟩
    have hadmits : ∀ {inputs}, (Inputs.observed task).Admits inputs →
        Shows (pure inputs : ExceptT Error (StateM σ) Record) (pure inputs) s' fun after result _ =>
          (before ++ after).map (·.call) = (Inputs.observed task).calls ∧
            (∀ inputs, result = .ok inputs → (Inputs.observed task).Admits inputs) ∧
            Explained (before ++ after) result := fun h =>
      .pure _ ⟨by rwa [List.append_nil], fun _ heq => Except.ok.inj heq ▸ h, .ok _⟩
    cases found with
    | some app => exact hadmits (.present task app)
    | none => exact hadmits (.absent task)

theorem Sequel.shows_await (sequel : Sequel) (s : σ) :
    Shows (sequel.await site) (sequel.await (site.watched id)) s fun answers result _ =>
      answers.map (·.call) = sequel.calls ∧ Explained answers result := by
  cases sequel with
  | nothing => exact .pure _ ⟨rfl, .ok _⟩
  | settled wait => exact .call id _ _ _ fun result _ _ => ⟨rfl, .call _ _ result⟩
  | ready model name timeout => exact .call id _ _ _ fun result _ _ => ⟨rfl, .call _ _ result⟩

/-- A rollout stops where something fails. -/
theorem shows_run (rollout : Rollout) (s : σ) :
    Shows (rollout.run site) (rollout.run (site.watched id)) s fun answers result _ =>
      rollout.Ends answers result := by
  unfold run
  refine (rollout.inputs.shows_find s).bind
    (fun e before _ h => .unseen h.1 h.2.2.of_failure) ?_
  rintro inputs before s₁ ⟨hbefore, hinputs, -⟩
  have hadmits := hinputs inputs rfl
  refine (Attempts.shows_attempt rollout.retry site.clock (.apply rollout.config inputs)
    (site.infra.apply rollout.config inputs) (rollout.retry.maxAttempts - 1) s₁).bind
    (fun e tries _ htries => .unapplied hbefore hadmits htries) fun _ tries s₂ htries => ?_
  refine (rollout.sequel.shows_await s₂).bind (fun e after _ h =>
    .applied (.error e) hbefore hadmits htries h.1 h.2.of_failure) fun _ after s₃ h => .pure _ ?_
  rw [List.append_nil]
  exact .applied (.ok ⟨⟩) hbefore hadmits htries h.1 h.2

end

/-- What a rollout reports when it has gone through. -/
theorem Ends.outcome_eq {rollout : Rollout} {answers : List Answer} {outcome : Outcome}
    (h : rollout.Ends answers (.ok outcome)) : outcome = rollout.outcome := by
  generalize hresult : Except.ok outcome = result at h
  cases h with
  | unseen => cases hresult
  | unapplied => cases hresult
  | applied waited =>
    cases waited with
    | error e => cases hresult
    | ok a => exact Except.ok.inj hresult

/-- What a rollout applies are the inputs that it has found. -/
theorem Ends.apply_eq {rollout : Rollout} {answers : List Answer} {result : Except Error Outcome}
    (h : rollout.Ends answers result) {config : String} {inputs : Record}
    {answer : Answer} (hmem : answer ∈ answers) (hcall : answer.call = .apply config inputs) :
    config = rollout.config ∧ rollout.inputs.Admits inputs := by
  have hlook : ∀ {before : List Answer}, before.map (·.call) = rollout.inputs.calls →
      answer ∉ before := fun hbefore hmem => by
    have hcall' : answer.call ∈ rollout.inputs.calls := hbefore ▸ List.mem_map_of_mem hmem
    rw [hcall] at hcall'
    cases hinputs : rollout.inputs <;> rw [hinputs] at hcall' <;> simp [Inputs.calls] at hcall'
  have htried : ∀ {found : Record} {tries : List Answer} {more : Nat} {ended : Except Error Unit},
      rollout.inputs.Admits found →
      Attempts rollout.retry (.apply rollout.config found) more tries ended → answer ∈ tries →
      config = rollout.config ∧ rollout.inputs.Admits inputs := fun hfound htries hmem => by
    obtain ⟨rfl, rfl⟩ := Call.apply.inj (hcall.symm.trans (htries.call_eq answer hmem))
    exact ⟨rfl, hfound⟩
  cases h with
  | unseen hbefore => exact absurd hmem (hlook hbefore)
  | unapplied hbefore hinputs htries =>
    exact (List.mem_append.1 hmem).elim (fun h => absurd h (hlook hbefore)) (htried hinputs htries)
  | @applied before tries after _ _ hbefore hinputs htries hafter =>
    rcases List.mem_append.1 hmem with hmem | hmem
    · exact absurd hmem (hlook hbefore)
    rcases List.mem_append.1 hmem with hmem | hmem
    · exact htried hinputs htries hmem
    · have hcall' : answer.call ∈ rollout.sequel.calls := hafter ▸ List.mem_map_of_mem hmem
      rw [hcall] at hcall'
      cases hsequel : rollout.sequel <;> rw [hsequel] at hcall' <;> simp [Sequel.calls] at hcall'

/-- Where nothing fails there is one attempt. -/
theorem attempts_of_ok {policy : RetryPolicy} {call : Call} {more : Nat} {answers : List Answer}
    {result : Except Error Unit} (h : Attempts policy call more answers result)
    (hok : ∀ answer ∈ answers, ∃ given, answer.result = .ok given) :
    answers = [⟨call, .ok .nothing⟩] ∧ result = .ok ⟨⟩ := by
  have hhead : ∀ e rest, answers ≠ ⟨call, .error e⟩ :: rest := by
    rintro e rest rfl
    obtain ⟨given, hgiven⟩ := hok _ List.mem_cons_self
    cases hgiven
  cases h with
  | done => exact ⟨rfl, rfl⟩
  | ended => exact absurd rfl (hhead _ _)
  | again => exact absurd rfl (hhead _ _)

/-- Where nothing fails a rollout applies once and goes through. -/
theorem Ends.of_ok {rollout : Rollout} {answers : List Answer} {result : Except Error Outcome}
    (h : rollout.Ends answers result)
    (hok : ∀ answer ∈ answers, ∃ given, answer.result = .ok given) :
    ∃ inputs, rollout.inputs.Admits inputs ∧ answers.map (·.call) =
        rollout.inputs.calls ++ .apply rollout.config inputs :: rollout.sequel.calls ∧
      result = .ok rollout.outcome := by
  have hnot : ∀ {α : Type} {some : List Answer} {ended : Except Error α} {e : Error},
      some ⊆ answers → Explained some ended → ended ≠ .error e := by
    rintro α some _ e hsubset he rfl
    obtain ⟨call, hmem⟩ := he e rfl
    obtain ⟨given, hgiven⟩ := hok _ (hsubset hmem)
    cases hgiven
  cases h with
  | unseen hbefore he => exact absurd rfl (hnot (List.Subset.refl _) he)
  | @unapplied before tries _ e hbefore hinputs htries =>
    obtain ⟨-, hresult⟩ :=
      attempts_of_ok htries fun answer hmem => hok answer (List.mem_append_right _ hmem)
    cases hresult
  | @applied before tries after inputs waited hbefore hinputs htries hafter hwaited =>
    obtain ⟨rfl, -⟩ := attempts_of_ok htries fun answer hmem =>
      hok answer (List.mem_append_right _ (List.mem_append_left _ hmem))
    have hsubset : after ⊆ before ++ ([⟨.apply rollout.config inputs, .ok .nothing⟩] ++ after) :=
      List.subset_append_of_subset_right _ (List.subset_append_right _ _)
    cases waited with
    | error e => exact absurd rfl (hnot hsubset hwaited)
    | ok a =>
      refine ⟨inputs, hinputs, ?_, rfl⟩
      rw [List.map_append, List.map_append, hbefore, hafter]
      rfl

end Rollout

/-- A run of a task with a policy ends as its rollout. -/
theorem FleetTask.shown_run {task : FleetTask} {memory : task.Memory} {rollout : Rollout}
    (h : task.rollout? memory = some rollout) (site : Site (StateM σ)) (s : σ) :
    Shown ((task.part site .run).run memory) ((task.part (site.watched id) .run).run memory) s
      fun answers ran _ => ∃ result, rollout.Ends answers result ∧ ran.1 = .ofResult result := by
  intro noted
  obtain ⟨result, s', answers, hplain, hwatched, hends⟩ := rollout.shows_run s noted
  exact ⟨_, s', answers, run_of_rollout h hplain, run_of_rollout h hwatched, result, hends, rfl⟩

end Converge
