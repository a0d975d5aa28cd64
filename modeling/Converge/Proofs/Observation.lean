import Converge.Proofs.FailStop
import Converge.Proofs.Rollout
import Converge.Proofs.SimulatedStore
/-!
# Checks only look

The check of a task asks for nodes, applications, the status of a model and revisions, and for
nothing else.  So it leaves alone whatever these four calls leave alone, and a plan all of whose
steps end in their checks does too.  Main statement: this holds of every task at every site, and in
a simulated fleet it is all applications and the whole disk that are left alone
(`FleetTask.checks_observe`).
-/

namespace Converge

open Simulation (Call World)

variable {σ τ μ α β : Type}

/-! ## Looks -/

/-- Whether a call only looks. -/
def Simulation.Call.isLook : Call → Bool
  | .nodes | .application .. | .modelStatus _ | .latestRevision .. => true
  | _ => false

/-- The calls that only look leave alone what a function sees of the state. -/
structure Site.LooksPreserve (site : Site (StateM σ)) (seen : σ → τ) : Prop where
  nodes : Preserves seen site.store.nodes
  application : ∀ model name, Preserves seen (site.controller.application model name)
  modelStatus : ∀ model, Preserves seen (site.controller.modelStatus model)
  latestRevision : ∀ model charm channel,
    Preserves seen (site.controller.latestRevision model charm channel)

/-- Between two states there were only looks, and what is seen has not changed. -/
structure Looked (seen : σ → τ) (s : σ) (answers : List Answer) (s' : σ) : Prop where
  isLook : ∀ answer ∈ answers, answer.call.isLook
  seen_eq : seen s' = seen s

namespace Looked

variable {seen : σ → τ} {s s' s'' : σ} {before after : List Answer}

theorem nil : Looked seen s [] s :=
  ⟨fun _ hmem => absurd hmem List.not_mem_nil, rfl⟩

theorem append (h : Looked seen s before s') (h' : Looked seen s' after s'') :
    Looked seen s (before ++ after) s'' where
  isLook answer hmem := (List.mem_append.1 hmem).elim (h.isLook answer) (h'.isLook answer)
  seen_eq := h'.seen_eq.trans h.seen_eq

end Looked

/-- An action that only looks. -/
def Looks (seen : σ → τ) (plain : ExceptT Error (StateM σ) α)
    (watched : ExceptT Error (StateM (σ × List Answer)) α) : Prop :=
  ∀ s, Shows plain watched s fun answers _ s' => Looked seen s answers s'

namespace Looks

variable {seen : σ → τ} {plain : ExceptT Error (StateM σ) α}
  {watched : ExceptT Error (StateM (σ × List Answer)) α}

theorem pure (a : α) :
    Looks seen (Pure.pure a : ExceptT Error (StateM σ) α) (Pure.pure a) :=
  fun _ => .pure a .nil

theorem throw (e : Error) :
    Looks seen (MonadExcept.throw e : ExceptT Error (StateM σ) α) (MonadExcept.throw e) :=
  fun _ => .throw e .nil

theorem call {call : Call} {given : α → Given} (hcall : call.isLook) (h : Preserves seen plain) :
    Looks seen plain (Answer.noting id call given plain) := fun _ =>
  .call id call given plain fun _ _ hrun =>
    ⟨fun _ hmem => (List.mem_singleton.1 hmem) ▸ hcall, h.seen_eq hrun⟩

theorem bind (h : Looks seen plain watched) {next : α → ExceptT Error (StateM σ) β}
    {next' : α → ExceptT Error (StateM (σ × List Answer)) β}
    (hnext : ∀ a, Looks seen (next a) (next' a)) :
    Looks seen (plain >>= next) (watched >>= next') := fun s =>
  (h s).bind (fun _ _ _ hlooked => hlooked) fun a _ s' hbefore =>
    (hnext a s').imp fun _ _ _ hafter => hbefore.append hafter

theorem absentAsNone (h : Looks seen plain watched) (kind : ErrorKind) :
    Looks seen (Converge.absentAsNone kind plain) (Converge.absentAsNone kind watched) := fun s =>
  (h s).absentAsNone (fun _ _ _ hlooked => hlooked) (fun _ _ _ hlooked _ => hlooked)
    fun _ _ _ hlooked _ => hlooked

end Looks

namespace Step

/-- An action of a step that only looks. -/
def Looks (seen : σ → τ) (plain : Action (StateM σ) μ α)
    (watched : Action (StateM (σ × List Answer)) μ α) : Prop :=
  ∀ memory s, Shows plain watched memory s fun answers _ _ s' => Looked seen s answers s'

namespace Looks

variable {seen : σ → τ} {plain : Action (StateM σ) μ α}
  {watched : Action (StateM (σ × List Answer)) μ α}

theorem pure (a : α) : Looks seen (Pure.pure a : Action (StateM σ) μ α) (Pure.pure a) :=
  fun _ _ => .pure a .nil

theorem call {action : ExceptT Error (StateM σ) α}
    {action' : ExceptT Error (StateM (σ × List Answer)) α}
    (h : Converge.Looks seen action action') :
    Looks seen (Step.call action : Action (StateM σ) μ α) (Step.call action') :=
  fun _ s => .call (h s)

theorem bind (h : Looks seen plain watched) {next : α → Action (StateM σ) μ β}
    {next' : α → Action (StateM (σ × List Answer)) μ β}
    (hnext : ∀ a, Looks seen (next a) (next' a)) :
    Looks seen (plain >>= next) (watched >>= next') := fun memory s =>
  (h memory s).bind (fun _ _ _ _ hlooked => hlooked) fun a _ memory' s' hbefore =>
    (hnext a memory' s').imp fun _ _ _ _ hafter => hbefore.append hafter

theorem get_bind {next : μ → Action (StateM σ) μ α}
    {next' : μ → Action (StateM (σ × List Answer)) μ α}
    (hnext : ∀ memory, Looks seen (next memory) (next' memory)) :
    Looks seen (get >>= next) (get >>= next') :=
  fun memory s => .get_bind (hnext memory memory s)

theorem set_bind (memory' : μ) {next : PUnit → Action (StateM σ) μ α}
    {next' : PUnit → Action (StateM (σ × List Answer)) μ α}
    (hnext : Looks seen (next ⟨⟩) (next' ⟨⟩)) :
    Looks seen (set memory' >>= next) (set memory' >>= next') :=
  fun _ s => .set_bind memory' (hnext memory' s)

end Looks

end Step

namespace FleetTask

/-! ## Checks -/

section

variable {site : Site (StateM σ)} {seen : σ → τ}

theorem looks_machine? (h : site.LooksPreserve seen) (task : Task.UnitOnNode) :
    Looks seen (task.machine? site) (task.machine? (site.watched id)) := by
  unfold Task.UnitOnNode.machine? MembershipStore.findNode
  have hnodes : Looks seen site.store.nodes (site.watched id).store.nodes := .call rfl h.nodes
  refine Looks.bind (.absentAsNone (hnodes.bind fun nodes => ?_) _) fun found => .pure _
  cases nodes.find? (·.name = task.node) with
  | some node => exact .pure node
  | none => exact .throw _

theorem looks_observe (h : site.LooksPreserve seen) (model name : String) :
    Looks seen (absentAsNone .applicationNotFound (site.controller.application model name))
      (absentAsNone .applicationNotFound
        ((site.watched id).controller.application model name)) :=
  .absentAsNone (.call rfl (h.application model name)) _

theorem looks_behind (h : site.LooksPreserve seen) (task : Task.Refresh) (status : ModelStatus)
    (targets : List Task.Target) :
    Looks seen (task.behind site status targets)
      (task.behind (site.watched id) status targets) := by
  induction targets with
  | nil => exact .pure _
  | cons target rest ih =>
    unfold Task.Refresh.behind
    refine Looks.bind ?_ fun isBehind => ih.bind fun others => .pure _
    unfold Task.Refresh.isBehind revisionUpdateNeeded
    cases status.applications.find? target.application with
    | none => exact .pure _
    | some app =>
      dsimp only
      split
      · exact .pure _
      · cases (Charm.parse app.charm).revision with
        | none => exact .pure _
        | some deployed =>
          exact Looks.bind (.call rfl (h.latestRevision _ _ _)) fun latest => .pure _

theorem looks_deploy_check (h : site.LooksPreserve seen) (task : Task.Deploy) :
    Looks seen (task.check site) (task.check (site.watched id)) := by
  unfold Task.Deploy.check
  split
  · exact .pure _
  · refine (looks_observe h task.model task.application).bind fun found => ?_
    cases found with
    | some app => exact .pure _
    | none => exact .pure _

theorem looks_place_check (h : site.LooksPreserve seen) (task : Task.Place) :
    Step.Looks seen (task.check site) (task.check (site.watched id)) := by
  have hresolve : Step.Looks seen (task.resolve site) (task.resolve (site.watched id)) := by
    unfold Task.Place.resolve
    refine .get_bind fun memory => ?_
    cases memory with
    | some machine => exact .pure _
    | none =>
      refine Step.Looks.bind (.call (looks_machine? h task.toUnitOnNode)) fun found => ?_
      exact .set_bind found (.pure _)
  unfold Task.Place.check
  refine hresolve.bind fun machine => ?_
  cases machine with
  | none => exact .pure _
  | some machine =>
    refine Step.Looks.bind (.call (looks_observe h task.model task.application)) fun found => ?_
    cases found with
    | none => exact .pure _
    | some app =>
      dsimp only
      split
      · exact .pure _
      · exact .pure _

theorem looks_withdraw_check (h : site.LooksPreserve seen) (task : Task.Withdraw) :
    Step.Looks seen (task.check site) (task.check (site.watched id)) := by
  unfold Task.Withdraw.check
  refine Step.Looks.bind (.call (looks_machine? h task.toUnitOnNode)) fun machine => ?_
  cases machine with
  | none => exact .pure _
  | some machine =>
    refine Step.Looks.bind (.call (looks_observe h task.model task.application)) fun found => ?_
    cases found with
    | none => exact .pure _
    | some app =>
      dsimp only
      cases app.machineUnits.find? (·.machine = machine) with
      | none => exact .pure _
      | some placed => exact .set_bind _ (.pure _)

theorem looks_refresh_check (h : site.LooksPreserve seen) (task : Task.Refresh) :
    Step.Looks seen (task.check site) (task.check (site.watched id)) := by
  unfold Task.Refresh.check
  refine Step.Looks.bind (.call (.call rfl (h.modelStatus task.model))) fun status => ?_
  refine Step.Looks.bind (.call (looks_behind h task status task.targets)) fun behind => ?_
  split
  · exact .pure _
  · exact .set_bind behind (.pure _)

/-- The check of every task only looks. -/
theorem shown_check (h : site.LooksPreserve seen) (task : FleetTask) (memory : task.Memory)
    (s : σ) :
    Shown ((task.part site .check).run memory) ((task.part (site.watched id) .check).run memory) s
      fun answers _ s' => Looked seen s answers s' := by
  have hnone : ∀ {memory : Unit},
      Shown (pure (Outcome.completed, memory) : StateM σ _) (pure (Outcome.completed, memory)) s
        fun answers _ s' => Looked seen s answers s' := fun noted =>
    ⟨_, s, [], rfl, by rw [List.append_nil]; rfl, .nil⟩
  cases task with
  | init task => exact hnone
  | apply task => exact hnone
  | deploy task =>
    exact Outcome.shown_settle (Step.Looks.call (looks_deploy_check h task) memory s)
  | place task => exact Outcome.shown_settle (looks_place_check h task memory s)
  | withdraw task => exact Outcome.shown_settle (looks_withdraw_check h task memory s)
  | refresh task => exact Outcome.shown_settle (looks_refresh_check h task memory s)

end

/-! ## Runs do not skip -/

/-- What an action of a step gives when it succeeds has a property. -/
def Gives (p : α → Prop) (action : Step.Action (StateM σ) μ α) : Prop :=
  ∀ memory s a memory' s', Step.exec action memory s = (.ok a, memory', s') → p a

theorem Gives.pure {p : β → Prop} {b : β} (h : p b) :
    Gives p (Pure.pure b : Step.Action (StateM σ) μ β) := by
  rintro memory s _ memory' s' ⟨⟩
  exact h

/-- What follows last decides what is given. -/
theorem Gives.bind {p : β → Prop} {action : Step.Action (StateM σ) μ α}
    {next : α → Step.Action (StateM σ) μ β} (h : ∀ a, Gives p (next a)) :
    Gives p (action >>= next) := by
  intro memory s b memory' s' hrun
  rcases haction : Step.exec action memory s with ⟨e | a, memory₁, s₁⟩
  · rw [Step.exec_bind_error haction] at hrun
    cases hrun
  · rw [Step.exec_bind_ok haction] at hrun
    exact h a memory₁ s₁ b memory' s' hrun

/-- An outcome that is not skipped. -/
def Unskipped (outcome : Outcome) : Prop :=
  outcome.isSkipped = false

/-- A failure is no skip, so what an action settles to is skipped only if the action says so. -/
theorem Gives.settle {action : Step.Action (StateM σ) μ Outcome} (h : Gives Unskipped action)
    {memory memory' : μ} {s s' : σ} {outcome : Outcome}
    (hrun : ((Outcome.settle action : StateT μ (StateM σ) Outcome).run memory).run s =
      ((outcome, memory'), s')) : Unskipped outcome := by
  rcases haction : Step.exec action memory s with ⟨result, memory₁, s₁⟩
  rw [Outcome.settle_run haction] at hrun
  obtain ⟨rfl, rfl⟩ := Prod.mk.inj (Prod.mk.inj hrun).1
  cases result with
  | ok outcome => exact h memory s outcome _ s₁ haction
  | error e => rfl

/-- No rollout reports that it was skipped. -/
theorem rollout?_unskipped {task : FleetTask} {memory : task.Memory} {rollout : Rollout}
    (h : task.rollout? memory = some rollout) : Unskipped rollout.outcome := by
  cases task <;> cases h <;> rfl

section

variable {site : Site (StateM σ)} {s s' : σ}

/-- The run of a task is never skipped. -/
theorem run_unskipped (task : FleetTask) {memory memory' : task.Memory} {outcome : Outcome}
    (hrun : ((task.part site .run).run memory).run s = ((outcome, memory'), s')) :
    Unskipped outcome := by
  have hrollout : ∀ rollout, task.rollout? memory = some rollout → Unskipped outcome := by
    intro rollout hrollout
    obtain ⟨result, s₁, answers, hplain, -, hends⟩ := @Rollout.shows_run σ site rollout s []
    rw [run_of_rollout hrollout hplain] at hrun
    obtain ⟨rfl, rfl⟩ := Prod.mk.inj (Prod.mk.inj hrun).1
    cases result with
    | error e => rfl
    | ok outcome =>
      rw [hends.outcome_eq]
      exact rollout?_unskipped hrollout
  cases task with
  | apply task => exact hrollout _ rfl
  | deploy task => exact hrollout _ rfl
  | refresh task => exact hrollout _ rfl
  | init task =>
    refine Gives.settle ?_ hrun
    rw [Step.call_bind, Step.call_pure]
    exact .bind fun _ => .pure rfl
  | place task =>
    refine Gives.settle (.bind fun machine => ?_) hrun
    cases machine with
    | none => exact .pure rfl
    | some machine => exact .bind fun _ => .bind fun _ => .bind fun _ => .pure rfl
  | withdraw task =>
    refine Gives.settle (.bind fun unit => ?_) hrun
    cases unit with
    | none => exact .bind fun _ => .pure rfl
    | some unit => exact .bind fun _ => .bind fun _ => .bind fun _ => .pure rfl

end

/-! ## Plans -/

section

variable {site : Site (StateM σ)} {seen : σ → τ}

/-- A task shows what its check shows, and what its run shows if the check completes. -/
theorem shown_evaluate (task : FleetTask) {s : σ}
    (spec : List Answer → Phase → Outcome → σ → Prop)
    (h : Shown ((task.part site .check).run task.memory)
      ((task.part (site.watched id) .check).run task.memory) s fun before checked s' =>
        if checked.1.isCompleted then
          Shown ((task.part site .run).run checked.2)
            ((task.part (site.watched id) .run).run checked.2) s' fun after ran =>
              spec (before ++ after) .run ran.1
        else spec before .check checked.1 s') :
    Shown (task.step site).evaluate (task.step (site.watched id)).evaluate s
      fun answers record => spec answers record.phase record.outcome := by
  cases task <;> exact Step.shown_evaluate h

/-- A step was skipped, or its check failed. -/
def EndedInCheck (phase : Phase) (outcome : Outcome) : Prop :=
  outcome.isSkipped ∨ phase = .check ∧ outcome.isFailed

instance (phase : Phase) (outcome : Outcome) : Decidable (EndedInCheck phase outcome) :=
  inferInstanceAs (Decidable (_ ∨ _))

/-- A step that ends in its check only looks. -/
theorem shown_step (h : site.LooksPreserve seen) (task : FleetTask) (s : σ) :
    Shown (task.step site).evaluate (task.step (site.watched id)).evaluate s
      fun answers record s' => EndedInCheck record.phase record.outcome →
        Looked seen s answers s' := by
  refine shown_evaluate task (fun answers phase outcome s' =>
    EndedInCheck phase outcome → Looked seen s answers s') ?_
  refine (shown_check h task task.memory s).imp fun before checked s' hlooked => ?_
  split
  · -- a run ends as no check does
    refine (shown_part site task .run checked.2 s').run_eq.imp fun after ran s'' ⟨_, hrun⟩ => ?_
    rintro (hskipped | ⟨hphase, -⟩)
    · have hunskipped : ran.1.isSkipped = false := run_unskipped task hrun
      rw [hunskipped] at hskipped
      cases hskipped
    · cases hphase
  · exact fun _ => hlooked

/-- The plan of some tasks. -/
def plan {m : Type → Type} [Monad m] (site : Site m) (tasks : List FleetTask) : List (Step m) :=
  tasks.map fun task => task.step site

/-- A plan all of whose evaluated steps end in their checks only looks. -/
theorem shown_plan (h : site.LooksPreserve seen) (tasks : List FleetTask) (s : σ) :
    Shown (Plan.evaluate (plan site tasks)) (Plan.evaluate (plan (site.watched id) tasks)) s
      fun answers records s' =>
        (∀ record ∈ records, EndedInCheck record.phase record.outcome) →
          Looked seen s answers s' := by
  induction tasks generalizing s with
  | nil => exact fun noted => ⟨[], s, [], rfl, by rw [List.append_nil]; rfl, fun _ => .nil⟩
  | cons task rest ih =>
    refine Plan.shown_cons ((shown_step h task s).imp fun before record s' hstep => ?_)
    split
    · exact fun hall => hstep (hall record List.mem_cons_self)
    · refine (ih s').imp fun after records s'' hrest hall => ?_
      obtain ⟨hfirst, hothers⟩ := List.forall_mem_cons.1 hall
      exact (hstep hfirst).append (hrest hothers)

end

end FleetTask

/-! ## Simulated fleets -/

namespace Simulation.World

/-- The applications of a fleet with their units, and its whole disk. -/
def holdings (world : World) : Dict (Dict Deployment) × FileTree :=
  (world.models, world.tree)

theorem steady_holdings : Steady holdings :=
  fun _ _ _ => rfl

/-- Reading a document leaves the disk as it is. -/
theorem preserves_load (file : Membership.FileStore) : Preserves holdings (file.load disk) :=
  fun world => by
    have hload : exec (file.load disk) world = (_, world) :=
      Membership.FileStore.exec_load_of_answers rfl fun _ => rfl
    rw [hload]

/-- The calls that only look leave the applications and the disk alone, whatever the faults. -/
theorem looksPreserve (file : Membership.FileStore) : (site file).LooksPreserve holdings where
  nodes := preserves_perform steady_holdings ((preserves_load file).bind fun _ => .pure _)
  application model name :=
    preserves_perform steady_holdings ((preserves_expect _ model name).bind fun _ => .pure _)
  modelStatus model := preserves_perform steady_holdings fun world => rfl
  latestRevision model charm channel := by
    refine preserves_perform steady_holdings (Preserves.bind (fun world => rfl) fun world => ?_)
    cases world.revisions.find? (charm ++ "@" ++ channel) with
    | some revision => exact .pure _
    | none => exact fun world => rfl

end Simulation.World

/-! ## Checks and plans -/

namespace FleetTask

/-- The checks of the tasks at a site only look, and so do the plans whose evaluated steps all end
in their checks. -/
structure Observes (site : Site (StateM σ)) (seen : σ → τ) : Prop where
  check : ∀ (task : FleetTask) memory s, ∃ outcome memory' s' answers,
    ((task.part site .check).run memory).run s = ((outcome, memory'), s') ∧
    ((task.part (site.watched id) .check).run memory).run (s, []) =
      ((outcome, memory'), (s', answers)) ∧
    Looked seen s answers s'
  plan : ∀ (tasks : List FleetTask) s, ∃ report s' answers,
    (Plan.execute (FleetTask.plan site tasks)).run s = (report, s') ∧
    (Plan.execute (FleetTask.plan (site.watched id) tasks)).run (s, []) =
      (report, (s', answers)) ∧
    ((∀ record ∈ report.records, EndedInCheck record.phase record.outcome) →
      Looked seen s answers s')

/-- Checks only look, at every site and whatever goes wrong, and they leave alone what the looks of
the site leave alone.  In a simulated fleet that is every application and the whole disk. -/
theorem checks_observe :
    (∀ {σ τ : Type} {site : Site (StateM σ)} {seen : σ → τ}, site.LooksPreserve seen →
      Observes site seen) ∧
    ∀ file, Observes (World.site file) World.holdings := by
  have hobserves : ∀ {σ τ : Type} {site : Site (StateM σ)} {seen : σ → τ},
      site.LooksPreserve seen → Observes site seen := by
    intro σ τ site seen h
    constructor
    · intro task memory s
      obtain ⟨⟨outcome, memory'⟩, s', answers, hplain, hwatched, hlooked⟩ :=
        shown_check h task memory s []
      exact ⟨outcome, memory', s', answers, hplain, hwatched, hlooked⟩
    · intro tasks s
      have hlength : (FleetTask.plan (site.watched id) tasks).length =
          (FleetTask.plan site tasks).length := by
        simp only [FleetTask.plan, List.length_map]
      exact Plan.shown_execute hlength (shown_plan h tasks s) []
  exact ⟨hobserves, fun file => hobserves (World.looksPreserve file)⟩

/-- A fleet whose controller does not answer. -/
def unreachable : World :=
  { World.empty with
    models := Dict.empty.insert "model" (Dict.empty.insert "app" ⟨[⟨"app/0", "1"⟩], 1, none, none⟩)
    faults := Dict.empty.insert "get_model_status"
      [some (.controllerRequest "connection refused")] }

/-- A unit on a node that is not there is skipped, a refresh fails in its check. -/
theorem checks_observe_unreachable :
    let file : Membership.FileStore := ⟨"/cluster.json"⟩
    let tasks := [withdraw ⟨⟨"node", "placement", "app", "model", .ofSeconds 5⟩⟩,
      refresh { config := "refresh", model := "model", targets := [] }]
    ∃ report world answers,
      (Plan.execute (plan (World.site file) tasks)).run unreachable = (report, world) ∧
      report.records.map (·.outcome.status) = [.skipped, .failed] ∧
      Looked World.holdings unreachable answers world := by
  intro file tasks
  obtain ⟨report, world, answers, hplan, -, hlooked⟩ :=
    (checks_observe.1 (World.looksPreserve file)).plan tasks unreachable
  obtain rfl : report = ((Plan.execute (plan (World.site file) tasks)).run unreachable).1 := by
    rw [hplan]
  exact ⟨_, world, answers, hplan, by decide +kernel, hlooked (by decide +kernel)⟩

end FleetTask

end Converge
