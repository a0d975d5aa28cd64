import Converge.Plugin.Feature
import Converge.Proofs.Lifecycle
import Converge.Proofs.Tolerance
import Converge.Simulation.World
/-!
# Tasks stop at the first error

A task of any kind stops at the first error of a collaborator that it does not tolerate, with the
error's text.  Main statement: so does the check and the run of every task at every site, and a
plugin whose plan fails in a task reports the same text (`FleetTask.stops_verbatim`).
-/

namespace Converge.FleetTask

variable {σ : Type}

/-! ## Parts of tasks -/

theorem StopsVerbatim.of_settles {task : FleetTask} {phase : Phase} {answers : List Answer}
    {result : Except Error Outcome} (h : Settles (task.Tolerates phase) answers result)
    (hskips : ∀ withdraw e, task = .withdraw withdraw → phase = .check →
      ⟨.nodes, .error e⟩ ∈ answers → e.kind = .nodeNotFound →
      result = .ok (.skipped withdraw.missingMachine)) :
    task.StopsVerbatim phase answers (.ofResult result) where
  cause hfailed := by
    cases result with
    | ok outcome =>
      have hnot : outcome.isFailed = false := h.not_failed outcome rfl
      rw [Outcome.ofResult, hnot] at hfailed
      cases hfailed
    | error e =>
      obtain ⟨front, call, hanswers⟩ := h.cause e rfl
      exact .inl ⟨front, call, e, hanswers, rfl⟩
  ends_iff front call e after hsplit := by
    rw [← h.ends_iff front call e after hsplit]
    refine and_congr_right fun _ => ?_
    cases result with
    | ok outcome =>
      have hnot : outcome.isFailed = false := h.not_failed outcome rfl
      simp [Outcome.ofResult, hnot]
    | error e' => exact iff_of_true rfl ⟨e', rfl⟩
  skips withdraw e htask hphase hmem hkind := by
    rw [hskips withdraw e htask hphase hmem hkind]
    rfl

/-- Where the node to place a unit on is missing, the part fails and says so. -/
theorem NodeMissing.stops {task : Task.Place} {phase : Phase} {answers : List Answer}
    (h : NodeMissing task.node answers) :
    StopsVerbatim (.place task) phase answers (.failed task.missingMachine) where
  cause _ := .inr ⟨task, rfl, h, rfl⟩
  ends_iff front call e after hsplit := by
    cases h with
    | unlisted hunlisted => cases front <;> simp at hsplit
    | @error e' hkind =>
      obtain ⟨rfl, rfl, rfl, rfl⟩ : front = [] ∧ call = .nodes ∧ e' = e ∧ after = [] := by
        cases front <;> simp_all
      rw [tolerates_nodes_iff]
      exact iff_of_true ⟨rfl, rfl⟩ fun ⟨htask, _⟩ => nomatch htask
  skips withdraw e htask := nomatch htask

section

variable {site : Site (StateM σ)} {s : σ}

theorem shows_init_run (task : Task.Init) :
    Shows (do site.infra.init task.config; return .completed : ExceptT Error (StateM σ) Outcome)
      (do (site.watched id).infra.init task.config; return .completed) s fun answers result _ =>
        Settles (Tolerates (.init task) .run) answers result :=
  Shows.settles_bind (.verbatim_call fun _ h => nomatch h) fun _ _ _ => .pure _ (.nil rfl)

theorem shows_apply_run (task : Task.Apply) :
    Shows (do
        Task.applyConfig site task.retry task.config task.inputs
        if let some wait := task.wait then wait.settle site
        return .completed : ExceptT Error (StateM σ) Outcome)
      (do
        Task.applyConfig (site.watched id) task.retry task.config task.inputs
        if let some wait := task.wait then wait.settle (site.watched id)
        return .completed) s fun answers result _ =>
        Settles (Tolerates (.apply task) .run) answers result := by
  refine (shows_applyConfig task.retry task.config task.inputs s fun front e hfront =>
    tolerates_apply_iff [] rfl (by simp) hfront).settles_bind fun _ before s' => ?_
  cases task.wait with
  | none => exact .pure _ (.nil rfl)
  | some wait =>
    exact Shows.settles_bind (.verbatim_call fun _ h => nomatch h) fun _ _ _ => .pure _ (.nil rfl)

theorem shows_deploy_check (task : Task.Deploy) :
    Shows (task.check site) (task.check (site.watched id)) s fun answers result _ =>
      Settles (Tolerates (.deploy task) .check) answers result := by
  unfold Task.Deploy.check
  by_cases hrefresh : task.refresh
  · simp only [if_pos hrefresh]
    exact .pure _ (.nil rfl)
  · simp only [if_neg hrefresh]
    have hobserve := shows_observe site (Tolerates (.deploy task) .check) task.model
      task.application s fun e => by
        rw [tolerates_application_iff]
        exact and_iff_right rfl
    refine (hobserve.imp fun _ _ _ h => h.1).settles_bind fun found before s' => ?_
    cases found with
    | some app => exact .pure _ (.nil rfl)
    | none => exact .pure _ (.nil rfl)

theorem shows_deploy_run (task : Task.Deploy) :
    Shows (task.run site) (task.run (site.watched id)) s fun answers result _ =>
      Settles (Tolerates (.deploy task) .run) answers result := by
  unfold Task.Deploy.run
  have hobserve := shows_observe site (Tolerates (.deploy task) .run) task.model
    task.application s fun e => by
      rw [tolerates_application_iff]
      exact and_iff_right rfl
  refine hobserve.bind (fun _ _ _ h => .of_failure h.1) fun found before s' ⟨hbefore, hcalls⟩ => ?_
  -- the look before is no attempt
  have hnone : ∀ answer ∈ before, answer.call.isApply = false := fun answer hmem => by
    rw [hcalls answer hmem]
    rfl
  -- the rest goes the same way with whatever inputs
  cases found
  all_goals
    refine Shows.imp ?_ fun _ _ _ hafter => Settles.append hbefore hafter
    refine (shows_applyConfig task.retry task.config _ s' fun front e hfront =>
      tolerates_apply_iff before rfl hnone hfront).settles_bind fun _ before' s'' => ?_
    cases task.readiness with
    | none => exact .pure _ (.nil rfl)
    | some name =>
      exact Shows.settles_bind (.verbatim_call fun _ h => nomatch h) fun _ _ _ =>
        .pure _ (.nil rfl)

/-! ### Placing -/

theorem shows_resolve (task : Task.Place) (memory : Task.Place.Memory) (s : σ) :
    Step.Shows (task.resolve site) (task.resolve (site.watched id)) memory s
      fun answers result _ _ => (answers = [] ∧ ∃ machine, result = .ok (some machine)) ∨
        NodeLook task.node answers result := by
  unfold Task.Place.resolve
  refine .get_bind ?_
  cases memory with
  | some machine => exact .pure _ (.inl ⟨rfl, machine, rfl⟩)
  | none =>
    have hlook : Step.Shows (Step.call (task.machine? site))
        (Step.call (task.machine? (site.watched id))) (none : Task.Place.Memory) s
        fun answers result _ _ => NodeLook task.node answers result :=
      .call (shows_machine? task.toUnitOnNode s)
    refine hlook.bind (fun _ _ _ _ h => .inr h) fun found before memory' s' h => .set_bind _ ?_
    refine .pure _ (.inr ?_)
    rwa [List.append_nil]

/-- A part that needs the machine of the node fails without it, and goes on with it. -/
theorem shows_resolved (task : Task.Place) (phase : Phase) (memory : Task.Place.Memory) (s : σ)
    {next : String → Step.Action (StateM σ) Task.Place.Memory Outcome}
    {next' : String → Step.Action (StateM (σ × List Answer)) Task.Place.Memory Outcome}
    (hnext : ∀ machine before memory' s', Step.Shows (next machine) (next' machine) memory' s'
      fun after result _ _ =>
        Settles (Tolerance.after (Tolerates (.place task) phase) before) after result) :
    Step.Shows
      (do
        match ← task.resolve site with
        | none => return .failed task.missingMachine
        | some machine => next machine)
      (do
        match ← task.resolve (site.watched id) with
        | none => return .failed task.missingMachine
        | some machine => next' machine)
      memory s fun answers result _ _ =>
        StopsVerbatim (.place task) phase answers (.ofResult result) := by
  have hstops : ∀ {answers result}, Settles (Tolerates (.place task) phase) answers result →
      StopsVerbatim (.place task) phase answers (.ofResult result) := fun h =>
    .of_settles h fun withdraw e htask => nomatch htask
  refine (shows_resolve task memory s).bind ?_ ?_
  · rintro e answers memory' s' (⟨-, machine, hresult⟩ | hlook)
    · cases hresult
    · cases hlook with
      | error hkind =>
        refine hstops (.of_failure (α := Unit) (.of_error fun htolerated => ?_))
        exact hkind (tolerates_nodes_iff.1 htolerated).2.2
  · rintro found before memory' s' (⟨rfl, machine, hfound⟩ | hlook)
    · obtain rfl := Except.ok.inj hfound
      exact (hnext machine [] memory' s').imp fun after result _ _ hafter => hstops hafter
    · cases hlook with
      | missing hmissing =>
        refine .pure _ ?_
        rw [List.append_nil]
        exact hmissing.stops
      | found =>
        exact (hnext _ _ memory' s').imp fun after result _ _ hafter =>
          hstops (.append (a := ()) (.of_ok _ _) hafter)

theorem shows_place_check (task : Task.Place) (memory : Task.Place.Memory) :
    Step.Shows (task.check site) (task.check (site.watched id)) memory s fun answers result _ _ =>
      StopsVerbatim (.place task) .check answers (.ofResult result) := by
  unfold Task.Place.check
  refine shows_resolved task .check memory s fun machine before memory' s' => ?_
  have hobserve := shows_observe site (Tolerance.after (Tolerates (.place task) .check) before)
    task.model task.application s' fun e => tolerates_application_iff.trans (and_iff_right rfl)
  refine (Step.Shows.call (hobserve.imp fun _ _ _ h => h.1)).settles_bind
    fun found before' memory'' s'' => ?_
  cases found with
  | none => exact .pure _ (.nil rfl)
  | some app =>
    dsimp only
    split
    · exact .pure _ (.nil rfl)
    · exact .pure _ (.nil rfl)

theorem shows_place_run (task : Task.Place) (memory : Task.Place.Memory) :
    Step.Shows (task.run site) (task.run (site.watched id)) memory s fun answers result _ _ =>
      StopsVerbatim (.place task) .run answers (.ofResult result) := by
  unfold Task.Place.run
  refine shows_resolved task .run memory s fun machine before memory' s' => ?_
  refine (Step.Shows.call (.verbatim_call fun _ h => nomatch h)).settles_bind
    fun _ before memory' s' => ?_
  refine (Step.Shows.call (shows_note task.key machine .join
    (fun front e => tolerates_record_iff) fun front record e h => nomatch h)).settles_bind
    fun _ before memory' s' => ?_
  exact (Step.Shows.call (.verbatim_call fun _ h => nomatch h)).settles_bind
    fun _ before memory' s' => .pure _ (.nil rfl)

/-! ### Withdrawing -/

/-- With the machine known, the rest of the check does not look at the nodes. -/
theorem shows_withdraw_unit (task : Task.Withdraw) (machine : String) (before : List Answer)
    (memory : Task.Withdraw.Memory) :
    Step.Shows
      (do
        match ← Step.call (task.observe site) with
        | none => return .skipped ("Application " ++ task.application ++ " has not been deployed")
        | some app =>
          match app.machineUnits.find? (·.machine = machine) with
          | none =>
            return .skipped (task.application ++ " unit not deployed on machine " ++ machine)
          | some placed =>
            set (some placed)
            return .completed : Step.Action (StateM σ) Task.Withdraw.Memory Outcome)
      (do
        match ← Step.call (task.observe (site.watched id)) with
        | none => return .skipped ("Application " ++ task.application ++ " has not been deployed")
        | some app =>
          match app.machineUnits.find? (·.machine = machine) with
          | none =>
            return .skipped (task.application ++ " unit not deployed on machine " ++ machine)
          | some placed =>
            set (some placed)
            return .completed)
      memory s fun after result _ _ =>
        Settles (Tolerance.after (Tolerates (.withdraw task) .check) before) after result ∧
          ∀ answer ∈ after, answer.call = .application task.model task.application := by
  have hobserve : Step.Shows (Step.call (task.observe site))
      (Step.call (task.observe (site.watched id))) memory s fun answers result _ _ =>
        Verbatim (Tolerance.after (Tolerates (.withdraw task) .check) before) answers result ∧
          ∀ answer ∈ answers, answer.call = .application task.model task.application :=
    .call (shows_observe site _ task.model task.application s fun e =>
      tolerates_application_iff.trans (and_iff_right rfl))
  refine hobserve.bind (fun _ _ _ _ h => ⟨.of_failure h.1, h.2⟩) ?_
  rintro found answers memory' s' ⟨hverbatim, hcalls⟩
  have hends : ∀ {outcome : Outcome}, outcome.isFailed = false →
      Settles (Tolerance.after (Tolerates (.withdraw task) .check) before) (answers ++ [])
        (.ok outcome) ∧
        ∀ answer ∈ answers ++ [], answer.call = .application task.model task.application :=
    fun h => ⟨.append hverbatim (.nil h), by rwa [List.append_nil]⟩
  cases found with
  | none => exact .pure _ (hends rfl)
  | some app =>
    dsimp only
    cases app.machineUnits.find? (·.machine = machine) with
    | none => exact .pure _ (hends rfl)
    | some placed => exact .set_bind _ (.pure _ (hends rfl))

theorem shows_withdraw_check (task : Task.Withdraw) (memory : Task.Withdraw.Memory) :
    Step.Shows (task.check site) (task.check (site.watched id)) memory s fun answers result _ _ =>
      StopsVerbatim (.withdraw task) .check answers (.ofResult result) := by
  -- what it comes to when the node is missing is kept beside the rest
  have hsettles : Step.Shows (task.check site) (task.check (site.watched id)) memory s
      fun answers result _ _ => Settles (Tolerates (.withdraw task) .check) answers result ∧
        ∀ e, ⟨.nodes, .error e⟩ ∈ answers → e.kind = .nodeNotFound →
          result = .ok (.skipped task.missingMachine) := by
    unfold Task.Withdraw.check
    have hlook : Step.Shows (Step.call (task.machine? site))
        (Step.call (task.machine? (site.watched id))) memory s
        fun answers result _ _ => NodeLook task.node answers result :=
      .call (shows_machine? task.toUnitOnNode s)
    refine hlook.bind ?_ ?_
    · rintro e answers memory' s' (_ | _ | hkind)
      refine ⟨.of_failure (α := Unit) (.of_error fun htolerated => ?_), fun e' hmem hkind' => ?_⟩
      · exact hkind (tolerates_nodes_iff.1 htolerated).2.2
      · cases List.mem_singleton.1 hmem
        exact absurd hkind' hkind
    · intro found before memory' s' hlook
      cases hlook with
      | missing hmissing =>
        refine .pure _ ⟨?_, fun _ _ _ => rfl⟩
        rw [List.append_nil]
        refine ⟨?_, fun outcome houtcome => by rw [← Except.ok.inj houtcome]; rfl⟩
        cases hmissing with
        | unlisted => exact .of_ok _ _
        | error hkind => exact .of_tolerated (tolerates_nodes_iff.2 ⟨rfl, rfl, hkind⟩) _
      | found =>
        refine (shows_withdraw_unit task _ _ memory').imp fun after result _ _ ⟨hafter, hcalls⟩ =>
          ⟨.append (a := ()) (.of_ok _ _) hafter, fun e hmem => ?_⟩
        rcases List.mem_cons.1 hmem with hhead | htail
        · cases hhead
        · cases hcalls _ htail
  refine hsettles.imp fun answers result _ _ ⟨hsettles, hskips⟩ => .of_settles hsettles ?_
  rintro withdraw e ⟨⟩ - hmem hkind
  exact hskips e hmem hkind

theorem shows_withdraw_run (task : Task.Withdraw) (memory : Task.Withdraw.Memory) :
    Step.Shows (task.run site) (task.run (site.watched id)) memory s fun answers result _ _ =>
      Settles (Tolerates (.withdraw task) .run) answers result := by
  unfold Task.Withdraw.run
  refine .get_bind ?_
  have hready : ∀ before memory' s', Step.Shows
      (do
        Step.call (site.controller.awaitReady task.model task.application task.timeout)
        return .completed : Step.Action (StateM σ) Task.Withdraw.Memory Outcome)
      (do
        Step.call ((site.watched id).controller.awaitReady task.model task.application task.timeout)
        return .completed)
      memory' s' fun after result _ _ =>
        Settles (Tolerance.after (Tolerates (.withdraw task) .run) before) after result :=
    fun before memory' s' => (Step.Shows.call (.verbatim_call fun _ h => nomatch h)).settles_bind
      fun _ _ _ _ => .pure _ (.nil rfl)
  cases memory with
  | none => exact hready [] none s
  | some placed =>
    refine (Step.Shows.call (.verbatim_call fun _ h => nomatch h)).settles_bind
      fun _ before memory' s' => ?_
    refine (Step.Shows.call (shows_note task.key placed.machine .leave
      (fun front e => tolerates_record_iff) fun front record e h => nomatch h)).settles_bind
      fun _ before' memory' s' => ?_
    rw [Tolerance.after_after]
    exact hready (before ++ before') memory' s'

/-! ### Refreshing -/

theorem shows_refresh_check (task : Task.Refresh) (memory : Task.Refresh.Memory) :
    Step.Shows (task.check site) (task.check (site.watched id)) memory s fun answers result _ _ =>
      Settles (Tolerates (.refresh task) .check) answers result := by
  unfold Task.Refresh.check
  refine (Step.Shows.call (.verbatim_call fun _ h => nomatch h)).settles_bind
    fun status before memory' s' => ?_
  refine (Step.Shows.call (shows_behind _ task status task.targets s'
    fun _ _ _ _ h => nomatch h)).settles_bind fun behind before' memory' s' => ?_
  by_cases hempty : behind.isEmpty
  · simp only [if_pos hempty]
    exact .pure _ (.nil rfl)
  · simp only [if_neg hempty]
    exact .set_bind _ (.pure _ (.nil rfl))

theorem shows_refresh_run (task : Task.Refresh) (memory : Task.Refresh.Memory) :
    Step.Shows (task.run site) (task.run (site.watched id)) memory s fun answers result _ _ =>
      Settles (Tolerates (.refresh task) .run) answers result := by
  have hrest : ∀ targets : List Task.Target, Step.Shows
      (do
        let targets ← get
        let names := targets.map (·.application)
        Step.call (Task.applyConfig site task.retry task.config (Task.Refresh.inputs targets))
        Step.call (site.controller.awaitStatus task.model names Task.Refresh.acceptedStatuses
          task.timeout)
        return .completedWith (.obj [("upgraded", .ofStrings names)]) :
          Step.Action (StateM σ) Task.Refresh.Memory Outcome)
      (do
        let targets ← get
        let names := targets.map (·.application)
        Step.call (Task.applyConfig (site.watched id) task.retry task.config
          (Task.Refresh.inputs targets))
        Step.call ((site.watched id).controller.awaitStatus task.model names
          Task.Refresh.acceptedStatuses task.timeout)
        return .completedWith (.obj [("upgraded", .ofStrings names)]))
      targets s fun answers result _ _ =>
        Settles (Tolerates (.refresh task) .run) answers result := by
    intro targets
    refine .get_bind ?_
    refine (Step.Shows.call (shows_applyConfig task.retry task.config (Task.Refresh.inputs targets)
      s fun front e hfront => tolerates_apply_iff [] rfl (by simp) hfront)).settles_bind
        fun _ before memory' s' => ?_
    exact (Step.Shows.call (.verbatim_call fun _ h => nomatch h)).settles_bind
      fun _ _ _ _ => .pure _ (.nil rfl)
  unfold Task.Refresh.run
  refine .get_bind ?_
  by_cases hempty : memory.isEmpty
  · simp only [if_pos hempty]
    exact .set_bind _ (hrest task.targets)
  · simp only [if_neg hempty]
    exact hrest memory

/-! ### Every part -/

/-- Where a missing node is not skipped, nothing but the errors and their text is to be told. -/
theorem stops_of_settles {task : FleetTask} {phase : Phase} {μ : Type} {memory : μ}
    {plain : Step.Action (StateM σ) μ Outcome}
    {watched : Step.Action (StateM (σ × List Answer)) μ Outcome}
    (h : Step.Shows plain watched memory s fun answers result _ _ =>
      Settles (task.Tolerates phase) answers result)
    (hother : ∀ withdraw, task = .withdraw withdraw → phase ≠ .check) :
    Step.Shows plain watched memory s fun answers result _ _ =>
      task.StopsVerbatim phase answers (.ofResult result) :=
  h.imp fun _ _ _ _ hsettles => .of_settles hsettles fun withdraw _ htask hphase =>
    absurd hphase (hother withdraw htask)

/-- Every part of every task stops at the first error that it does not tolerate. -/
theorem shown_part (site : Site (StateM σ)) (task : FleetTask) (phase : Phase)
    (memory : task.Memory) (s : σ) :
    Shown ((task.part site phase).run memory) ((task.part (site.watched id) phase).run memory) s
      fun answers ended _ => task.StopsVerbatim phase answers ended.1 := by
  have hnone : ∀ (task : FleetTask) {memory : task.Memory}, task.withdraws = false →
      Shown (pure (Outcome.completed, memory) : StateM σ _) (pure (Outcome.completed, memory)) s
        fun answers ended _ => task.StopsVerbatim .check answers ended.1 := fun task _ hnot noted =>
    ⟨_, s, [], rfl, by rw [List.append_nil]; rfl,
      .of_settles (.nil rfl) fun withdraw e htask => by subst htask; cases hnot⟩
  cases task with
  | init task =>
    cases phase with
    | check => exact hnone (.init task) rfl
    | run => exact Outcome.shown_settle (stops_of_settles (.call (shows_init_run task)) nofun)
  | apply task =>
    cases phase with
    | check => exact hnone (.apply task) rfl
    | run => exact Outcome.shown_settle (stops_of_settles (.call (shows_apply_run task)) nofun)
  | deploy task =>
    cases phase with
    | check =>
      exact Outcome.shown_settle (stops_of_settles (.call (shows_deploy_check task)) nofun)
    | run => exact Outcome.shown_settle (stops_of_settles (.call (shows_deploy_run task)) nofun)
  | place task =>
    cases phase with
    | check => exact Outcome.shown_settle (shows_place_check task memory)
    | run => exact Outcome.shown_settle (shows_place_run task memory)
  | withdraw task =>
    cases phase with
    | check => exact Outcome.shown_settle (shows_withdraw_check task memory)
    | run => exact Outcome.shown_settle (stops_of_settles (shows_withdraw_run task memory) nofun)
  | refresh task =>
    cases phase with
    | check =>
      exact Outcome.shown_settle (stops_of_settles (shows_refresh_check task memory) nofun)
    | run => exact Outcome.shown_settle (stops_of_settles (shows_refresh_run task memory) nofun)

theorem part_stops (site : Site (StateM σ)) (task : FleetTask) (phase : Phase)
    (memory : task.Memory) (s : σ) : ∃ outcome memory' s' answers,
      ((task.part site phase).run memory).run s = ((outcome, memory'), s') ∧
      ((task.part (site.watched id) phase).run memory).run (s, []) =
        ((outcome, memory'), (s', answers)) ∧
      task.StopsVerbatim phase answers outcome := by
  obtain ⟨⟨outcome, memory'⟩, s', answers, hplain, hwatched, hstops⟩ :=
    shown_part site task phase memory s []
  exact ⟨outcome, memory', s', answers, hplain, hwatched, hstops⟩

end

/-! ## Plans and plugins -/

/-- What the step of a task remembers at first. -/
def memory : (task : FleetTask) → task.Memory
  | .init _ | .apply _ | .deploy _ => ⟨⟩
  | .place _ => none
  | .withdraw _ => none
  | .refresh _ => []

/-- A plan fails in the step of a task, with the text of a part of the step. -/
inductive FailsIn (task : FleetTask) (site : Site (StateM σ)) :
    List (Step (StateM σ)) → σ → String → σ → Prop
  | check {s s' : σ} {message : String} {memory : task.Memory} {rest : List (Step (StateM σ))}
      (hcheck : ((task.part site .check).run task.memory).run s = ((.failed message, memory), s')) :
      FailsIn task site (task.step site :: rest) s message s'
  | run {s s' s'' : σ} {message : String} {checked : Outcome} {memory memory' : task.Memory}
      {rest : List (Step (StateM σ))}
      (hcheck : ((task.part site .check).run task.memory).run s = ((checked, memory), s'))
      (hcompleted : checked.isCompleted)
      (hrun : ((task.part site .run).run memory).run s' = ((.failed message, memory'), s'')) :
      FailsIn task site (task.step site :: rest) s message s''
  /-- The step before has not failed. -/
  | later {s s' s'' : σ} {message : String} {step : Step (StateM σ)} {record : StepRecord}
      {rest : List (Step (StateM σ))} (hstep : step.evaluate.run s = (record, s'))
      (hpassed : record.outcome.isFailed = false) (hrest : FailsIn task site rest s' message s'') :
      FailsIn task site (step :: rest) s message s''

namespace FailsIn

variable {task : FleetTask} {site : Site (StateM σ)} {plan : List (Step (StateM σ))} {s s' : σ}
  {message : String}

/-- The step of the task is the last that is evaluated, and the only one that fails. -/
theorem evaluate (h : task.FailsIn site plan s message s') : ∃ before record,
    (Plan.evaluate plan).run s = (before ++ [record], s') ∧
      (∀ passed ∈ before, passed.outcome.isFailed = false) ∧ record.outcome = .failed message := by
  have hlast : ∀ {step : Step (StateM σ)} {phase : Phase} {message : String}
      {rest : List (Step (StateM σ))} {s s' : σ},
      step.evaluate.run s = (⟨step.name, phase, .failed message⟩, s') → ∃ before record,
        (Plan.evaluate (step :: rest)).run s = (before ++ [record], s') ∧
          (∀ passed ∈ before, passed.outcome.isFailed = false) ∧
          record.outcome = .failed message := fun hstep =>
    ⟨[], _, Plan.evaluate_cons hstep _, nofun, rfl⟩
  induction h with
  | check hcheck => cases task <;> exact hlast (Step.evaluate_of_check hcheck rfl)
  | run hcheck hcompleted hrun =>
    cases task <;> exact hlast (Step.evaluate_of_run hcheck hcompleted hrun)
  | @later s s' s'' message step record rest hstep hpassed _ ih =>
    obtain ⟨before, last, hevaluate, hbefore, hfailed⟩ := ih
    refine ⟨record :: before, last, ?_, ?_, hfailed⟩
    · rw [Plan.evaluate_cons hstep, hpassed, hevaluate]
      rfl
    · exact List.forall_mem_cons.2 ⟨hpassed, hbefore⟩

/-- A plugin reports that its plan has failed, with that text. -/
theorem exec_runPlan (h : task.FailsIn site plan s message s')
    (plugin : Plugin.Definition (StateM σ)) :
    exec (plugin.runPlan plan) s = (.error (.planFailed plugin.name message), s') := by
  obtain ⟨before, record, hevaluate, hbefore, hrecord⟩ := h.evaluate
  have hexecute := Plan.execute_of_evaluate hevaluate
  have hfailed : record.outcome.isFailed := by
    rw [hrecord]
    rfl
  rw [Report.ofRecords_concat hfailed hbefore, hrecord] at hexecute
  exact Plugin.Definition.exec_runPlan hexecute

end FailsIn

/-- Every part of every task stops at the first error that it is not written to go on after, and
fails with the text of that error.  A plugin whose plan fails in a task reports the same text. -/
theorem stops_verbatim (site : Site (StateM σ)) (task : FleetTask) :
    (∀ phase memory s, ∃ outcome memory' s' answers,
      ((task.part site phase).run memory).run s = ((outcome, memory'), s') ∧
      ((task.part (site.watched id) phase).run memory).run (s, []) =
        ((outcome, memory'), (s', answers)) ∧
      task.StopsVerbatim phase answers outcome) ∧
    ∀ plan s message s', task.FailsIn site plan s message s' →
      ∀ (plugin : Plugin.Definition (StateM σ)) (store : MembershipStore (StateM σ))
        (clock : Clock (StateM σ)),
        (plugin.enablePlan = plan → ∀ s₀ s₁,
          exec (Plugin.checkRequirements store plugin.name plugin.requires) s₀ = (.ok ⟨⟩, s₁) →
          exec (plugin.runHook "pre_enable" plugin.preEnable) s₁ = (.ok ⟨⟩, s) →
          exec (plugin.enable store clock) s₀ = (.error (.planFailed plugin.name message), s')) ∧
        (plugin.disablePlan = plan → ∀ s₀,
          exec (plugin.runHook "pre_disable" plugin.preDisable) s₀ = (.ok ⟨⟩, s) →
          exec (plugin.disable store clock) s₀ =
            (.error (.planFailed plugin.name message), s')) := by
  refine ⟨part_stops site task, fun plan s message s' hfails plugin store clock => ⟨?_, ?_⟩⟩
  · rintro rfl s₀ s₁ hrequirements hpre
    rw [Plugin.Definition.enable_eq, exec_bind_ok hrequirements]
    exact Plugin.Definition.exec_change_planFailed hpre (hfails.exec_runPlan plugin)
  · rintro rfl s₀ hpre
    rw [Plugin.Definition.disable_eq]
    exact Plugin.Definition.exec_change_planFailed hpre (hfails.exec_runPlan plugin)

/-- A feature that tries again while the lock is held. -/
def telemetry : Plugin.Feature where
  name := "telemetry"
  version := "1.0"
  config := "telemetry"
  enableInputs := .empty
  disableInputs := .empty
  retry := .stateLock 3 (.ofSeconds 1)

/-- A world in which the lock is held once, and then the configuration cannot be applied. -/
def lockedThenRefused : Simulation.World :=
  { Simulation.World.empty with
    faults := Dict.empty.insert "apply"
      [some (.infraStateLocked "locked"), some (.infraApply "quota exceeded")] }

/-- The lock is tolerated, and the refusal ends the plan. -/
theorem stops_verbatim_telemetry :
    let site := Simulation.World.site ⟨"/cluster.json"⟩
    ∃ world, FailsIn (.apply telemetry.enableTask) site [telemetry.enableTask.step site]
        lockedThenRefused "quota exceeded" world ∧
      exec ((telemetry.plugin site).enable site.store site.clock) lockedThenRefused =
        (.error (.planFailed "telemetry" "quota exceeded"), world) := by
  intro site
  have hfails : FailsIn (.apply telemetry.enableTask) site [telemetry.enableTask.step site]
      lockedThenRefused "quota exceeded" _ := .run rfl rfl (Prod.ext (Prod.ext rfl rfl) rfl)
  have hstops := (stops_verbatim site (.apply telemetry.enableTask)).2 _ _ _ _ hfails
    (telemetry.plugin site) site.store site.clock
  exact ⟨_, hfails, hstops.1 rfl lockedThenRefused lockedThenRefused rfl rfl⟩

end Converge.FleetTask
