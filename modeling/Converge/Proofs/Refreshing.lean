import Converge.Proofs.Observation
import Converge.Proofs.Rollout
import Converge.Proofs.UpdateOrder
import Mathlib.Data.List.Nodup
/-!
# What a refresh moves

The check of a refresh picks the targets that are outdated: their channel is behind, or a newer
revision is published on the channel that they follow.  Its run moves just these to their wanted
channels.  Main statements: without errors, exactly the outdated targets are moved, after exactly
the lookups that are needed (`Task.Refresh.refreshes_outdated`), and an apply moves a target to a
lower track exactly when its wanted track is lower and a newer revision is published on the channel
that its application follows (`Task.Refresh.lowers_iff`).
-/

namespace Converge

open Simulation (Call World)

variable {σ α β : Type}

/-! ## What is published -/

/-- What a controller publishes: the status of each model, and the newest revision of each charm on
each channel, for a model. -/
structure Catalog where
  status : String → ModelStatus
  revision : (model charm channel : String) → Option Nat

/-- An action changes nothing that is published, and what it gives is in the catalog. -/
def Reads (catalog : σ → Catalog) (action : ExceptT Error (StateM σ) α) (p : Catalog → α → Prop) :
    Prop :=
  ∀ s result s', exec action s = (result, s') →
    catalog s' = catalog s ∧ ∀ a, result = .ok a → p (catalog s) a

/-- The looks of a site, unless they fail, give what is published. -/
structure Site.Publishes (site : Site (StateM σ)) (catalog : σ → Catalog) : Prop where
  modelStatus : ∀ model, Reads catalog (site.controller.modelStatus model)
    fun published status => published.status model = status
  latestRevision : ∀ model charm channel,
    Reads catalog (site.controller.latestRevision model charm channel)
      fun published revision => published.revision model charm channel = some revision

/-- What finding something out shows: it succeeds with what is so after just the calls given, or its
failure is explained. -/
structure Found (calls : List Call) (p : α → Prop) (answers : List Answer)
    (result : Except Error α) : Prop where
  calls_eq : ∀ a, result = .ok a → answers.map (·.call) = calls
  holds : ∀ a, result = .ok a → p a
  explained : Explained answers result

/-- While a catalog stays published, an action finds something out. -/
def Finds (catalog : σ → Catalog) (published : Catalog) (calls : List Call) (p : α → Prop)
    (plain : ExceptT Error (StateM σ) α) (watched : ExceptT Error (StateM (σ × List Answer)) α) :
    Prop :=
  ∀ s, catalog s = published → Shows plain watched s fun answers result s' =>
    catalog s' = published ∧ Found calls p answers result

namespace Finds

variable {catalog : σ → Catalog} {published : Catalog} {calls calls' : List Call} {p : α → Prop}
  {q : β → Prop} {plain : ExceptT Error (StateM σ) α}
  {watched : ExceptT Error (StateM (σ × List Answer)) α}

theorem pure {a : α} (h : p a) :
    Finds catalog published [] p (Pure.pure a : ExceptT Error (StateM σ) α) (Pure.pure a) :=
  fun _ hs => .pure a ⟨hs, fun _ _ => rfl, fun _ heq => Except.ok.inj heq ▸ h, .ok a⟩

theorem call {p : Catalog → α → Prop} (h : Reads catalog plain p) (call : Call)
    (given : α → Given) :
    Finds catalog published [call] (p published) plain (Answer.noting id call given plain) := by
  rintro s rfl
  refine .call id call given plain fun result s' hrun => ?_
  obtain ⟨hcatalog, hok⟩ := h s result s' hrun
  exact ⟨hcatalog, fun _ _ => rfl, hok, .call call given result⟩

theorem bind (h : Finds catalog published calls p plain watched)
    {next : α → ExceptT Error (StateM σ) β} {next' : α → ExceptT Error (StateM (σ × List Answer)) β}
    (hnext : ∀ a, p a → Finds catalog published calls' q (next a) (next' a)) :
    Finds catalog published (calls ++ calls') q (plain >>= next) (watched >>= next') := by
  intro s hs
  refine (h s hs).bind ?_ ?_
  · rintro e before s' ⟨hs', hfound⟩
    exact ⟨hs', nofun, nofun, hfound.explained.of_failure⟩
  · rintro a before s' ⟨hs', hbefore⟩
    refine (hnext a (hbefore.holds a rfl) s' hs').imp fun after result s'' ⟨hs'', hafter⟩ =>
      ⟨hs'', fun b hb => ?_, hafter.holds, hafter.explained.append before⟩
    rw [List.map_append, hbefore.calls_eq a rfl, hafter.calls_eq b hb]

end Finds

/-! ## Outdated targets -/

/-- The channel that an application follows. -/
def ApplicationStatus.followed (app : ApplicationStatus) : String :=
  Channel.normalise (app.channel.getD Channel.defaultTrack)

/-- A newer revision of an application's charm is published on the channel that it follows. -/
def ApplicationStatus.IsSuperseded (app : ApplicationStatus)
    (revision : (charm channel : String) → Option Nat) : Prop :=
  ∃ deployed ∈ (Charm.parse app.charm).revision,
    ∃ latest ∈ revision (Charm.parse app.charm).name app.followed, deployed < latest

instance (app : ApplicationStatus) (revision : (charm channel : String) → Option Nat) :
    Decidable (app.IsSuperseded revision) :=
  inferInstanceAs (Decidable (∃ deployed ∈ _, ∃ latest ∈ _, deployed < latest))

theorem ApplicationStatus.isSuperseded_iff {app : ApplicationStatus}
    {revision : (charm channel : String) → Option Nat} {deployed latest : Nat}
    (hdeployed : (Charm.parse app.charm).revision = some deployed)
    (hlatest : revision (Charm.parse app.charm).name app.followed = some latest) :
    app.IsSuperseded revision ↔ deployed < latest := by
  simp [IsSuperseded, hdeployed, hlatest]

theorem ApplicationStatus.not_isSuperseded {app : ApplicationStatus}
    {revision : (charm channel : String) → Option Nat}
    (h : (Charm.parse app.charm).revision = none) : ¬ app.IsSuperseded revision := by
  simp [IsSuperseded, h]

namespace Task.Target

/-- The application of a target is deployed, and its channel is behind or its revision is. -/
def IsOutdated (target : Target) (model : String) (catalog : Catalog) : Prop :=
  ∃ app ∈ (catalog.status model).applications.find? target.application,
    channelUpdateNeeded (app.channel.getD "") target.channel ∨
      app.IsSuperseded (catalog.revision model)

instance (target : Target) (model : String) (catalog : Catalog) :
    Decidable (target.IsOutdated model catalog) :=
  inferInstanceAs (Decidable (∃ app ∈ _, _ ∨ _))

theorem isOutdated_iff {target : Target} {model : String} {catalog : Catalog}
    {app : ApplicationStatus}
    (h : (catalog.status model).applications.find? target.application = some app) :
    target.IsOutdated model catalog ↔
      channelUpdateNeeded (app.channel.getD "") target.channel ∨
        app.IsSuperseded (catalog.revision model) := by
  simp only [IsOutdated, h, Option.mem_some_iff, exists_eq_left']

theorem not_isOutdated {target : Target} {model : String} {catalog : Catalog}
    (h : (catalog.status model).applications.find? target.application = none) :
    ¬ target.IsOutdated model catalog := by
  simp [IsOutdated, h]

/-- The lookup of a revision for a target: only its revision can tell whether it is outdated. -/
def lookup? (target : Target) (model : String) (status : ModelStatus) : Option Call :=
  match status.applications.find? target.application with
  | none => none
  | some app =>
    if channelUpdateNeeded (app.channel.getD "") target.channel then none
    else (Charm.parse app.charm).revision.map fun _ =>
      .latestRevision model (Charm.parse app.charm).name app.followed

end Task.Target

namespace Task.Refresh

/-- The targets that are outdated, in their order. -/
def outdated (task : Refresh) (catalog : Catalog) : List Target :=
  task.targets.filter (·.IsOutdated task.model catalog)

/-- The calls that find them. -/
def looks (task : Refresh) (catalog : Catalog) : List Call :=
  .modelStatus task.model ::
    task.targets.filterMap (·.lookup? task.model (catalog.status task.model))

theorem isLook_looks (task : Refresh) (catalog : Catalog) :
    ∀ call ∈ task.looks catalog, call.isLook := by
  refine List.forall_mem_cons.2 ⟨rfl, fun call hmem => ?_⟩
  obtain ⟨target, -, hlookup⟩ := List.mem_filterMap.1 hmem
  unfold Target.lookup? at hlookup
  split at hlookup
  · cases hlookup
  · split at hlookup
    · cases hlookup
    · obtain ⟨revision, -, rfl⟩ := Option.map_eq_some_iff.1 hlookup
      rfl

/-! ## Checks -/

section

variable {site : Site (StateM σ)} {catalog : σ → Catalog} {published : Catalog}

theorem finds_isBehind (publishes : site.Publishes catalog) (task : Refresh) (target : Target) :
    Finds catalog published (target.lookup? task.model (published.status task.model)).toList
      (fun isBehind => isBehind = true ↔ target.IsOutdated task.model published)
      (task.isBehind site (published.status task.model) target)
      (task.isBehind (site.watched id) (published.status task.model) target) := by
  unfold isBehind revisionUpdateNeeded Target.lookup?
  cases hfind : (published.status task.model).applications.find? target.application with
  | none => exact .pure (iff_of_false Bool.false_ne_true (Target.not_isOutdated hfind))
  | some app =>
    have houtdated := Target.isOutdated_iff hfind
    dsimp only
    by_cases hchannel : channelUpdateNeeded (app.channel.getD "") target.channel
    · simp only [if_pos hchannel]
      exact .pure (iff_of_true rfl (houtdated.2 (.inl hchannel)))
    · simp only [if_neg hchannel]
      rw [or_iff_right hchannel] at houtdated
      cases hcharm : (Charm.parse app.charm).revision with
      | none =>
        have hnot := mt houtdated.1 (ApplicationStatus.not_isSuperseded hcharm)
        exact .pure (iff_of_false Bool.false_ne_true hnot)
      | some deployed =>
        refine Finds.bind (.call (publishes.latestRevision _ _ _) _ _) fun latest hlatest => ?_
        refine .pure ?_
        rw [houtdated, ApplicationStatus.isSuperseded_iff hcharm hlatest]
        exact decide_eq_true_iff

theorem finds_behind (publishes : site.Publishes catalog) (task : Refresh) (targets : List Target) :
    Finds catalog published
      (targets.filterMap (·.lookup? task.model (published.status task.model)))
      (fun behind => behind = targets.filter (·.IsOutdated task.model published))
      (task.behind site (published.status task.model) targets)
      (task.behind (site.watched id) (published.status task.model) targets) := by
  induction targets with
  | nil => exact .pure rfl
  | cons target rest ih =>
    have hcalls : (target :: rest).filterMap
        (·.lookup? task.model (published.status task.model)) =
        (target.lookup? task.model (published.status task.model)).toList ++
          (rest.filterMap (·.lookup? task.model (published.status task.model)) ++ []) := by
      rw [List.append_nil, List.filterMap_cons]
      cases target.lookup? task.model (published.status task.model) <;> rfl
    rw [hcalls]
    unfold behind
    refine (finds_isBehind publishes task target).bind fun isBehind hbehind =>
      ih.bind fun others hothers => .pure ?_
    rw [hothers]
    by_cases houtdated : target.IsOutdated task.model published
    · rw [if_pos (hbehind.2 houtdated), List.filter_cons_of_pos (by simpa using houtdated)]
    · rw [if_neg (mt hbehind.1 houtdated), List.filter_cons_of_neg (by simpa using houtdated)]

/-- What the check of a refresh comes to, and what is remembered. -/
inductive Checks (task : Refresh) (published : Catalog) :
    List Answer → Except Error Outcome → Memory → Prop
  | blind {answers : List Answer} {e : Error} {memory : Memory}
      (he : Explained answers (.error e : Except Error Outcome)) :
    Checks task published answers (.error e) memory
  | upToDate {answers : List Answer} {memory : Memory}
      (hcalls : answers.map (·.call) = task.looks published)
      (hnone : task.outdated published = []) :
    Checks task published answers (.ok (.skipped "All applications are up to date")) memory
  | outdated {answers : List Answer} (hcalls : answers.map (·.call) = task.looks published)
      (hsome : task.outdated published ≠ []) :
    Checks task published answers (.ok .completed) (task.outdated published)

/-- The looks of a check come before its memory is touched. -/
theorem check_eq {m : Type → Type} [Monad m] [LawfulMonad m] (task : Refresh) (site : Site m) :
    task.check site = (do
      let behind ← Step.call (site.controller.modelStatus task.model >>= fun status =>
        task.behind site status task.targets)
      if behind.isEmpty then return .skipped "All applications are up to date"
      else
        set behind
        return .completed) := by
  unfold check
  rw [Step.call_bind, bind_assoc]

theorem shows_check (publishes : site.Publishes catalog) (task : Refresh) (memory : Memory)
    (s : σ) :
    Step.Shows (task.check site) (task.check (site.watched id)) memory s
      fun answers result memory' _ => task.Checks (catalog s) answers result memory' := by
  have hstatus : Finds catalog (catalog s) [.modelStatus task.model]
      (fun status => (catalog s).status task.model = status)
      (site.controller.modelStatus task.model)
      ((site.watched id).controller.modelStatus task.model) :=
    .call (publishes.modelStatus task.model) _ _
  have hlook : Finds catalog (catalog s) (task.looks (catalog s))
      (fun behind => behind = task.outdated (catalog s))
      (site.controller.modelStatus task.model >>= fun status =>
        task.behind site status task.targets)
      ((site.watched id).controller.modelStatus task.model >>= fun status =>
        task.behind (site.watched id) status task.targets) := by
    refine hstatus.bind ?_
    rintro status rfl
    exact finds_behind publishes task task.targets
  have hcall : Step.Shows (Step.call _ : Step.Action (StateM σ) Memory _) (Step.call _) memory s
      fun answers result memory' _ => memory' = memory ∧
        Found (task.looks (catalog s)) (fun behind => behind = task.outdated (catalog s))
          answers result := .call ((hlook s rfl).imp fun _ _ _ h => ⟨rfl, h.2⟩)
  rw [check_eq, check_eq]
  refine hcall.bind ?_ ?_
  · rintro e answers memory' s' ⟨-, hfound⟩
    exact .blind hfound.explained.of_failure
  · rintro behind answers memory' s' ⟨rfl, hfound⟩
    obtain rfl := hfound.holds _ rfl
    have hcalls := hfound.calls_eq _ rfl
    by_cases hnone : task.outdated (catalog s) = []
    · rw [hnone]
      refine .pure _ ?_
      rw [List.append_nil]
      exact .upToDate hcalls hnone
    · have hempty : ¬ (task.outdated (catalog s)).isEmpty := by simpa using hnone
      rw [if_neg hempty, if_neg hempty]
      refine .set_bind _ (.pure _ ?_)
      rw [List.append_nil]
      exact .outdated hcalls hnone

/-! ## Plans -/

/-- The answers that a refresh gets, and its record. -/
inductive Evaluates (task : Refresh) (published : Catalog) : List Answer → StepRecord → Prop
  | blind {answers : List Answer} {e : Error} (hlooks : ∀ answer ∈ answers, answer.call.isLook)
      (he : Explained answers (.error e : Except Error Outcome)) :
    Evaluates task published answers ⟨"Upgrade applications", .check, .failed e.message⟩
  | upToDate {answers : List Answer} (hcalls : answers.map (·.call) = task.looks published)
      (hnone : task.outdated published = []) :
    Evaluates task published answers
      ⟨"Upgrade applications", .check, .skipped "All applications are up to date"⟩
  | ran {before after : List Answer} {result : Except Error Outcome}
      (hcalls : before.map (·.call) = task.looks published) (hsome : task.outdated published ≠ [])
      (hends : (task.rollout (task.outdated published)).Ends after result) :
    Evaluates task published (before ++ after)
      ⟨"Upgrade applications", .run, .ofResult result⟩

theorem due_of_ne_nil (task : Refresh) {targets : List Target} (h : targets ≠ []) :
    task.due targets = targets := by
  have hempty : ¬ targets.isEmpty := by simpa using h
  rw [due, if_neg hempty]

theorem shown_evaluate (publishes : site.Publishes catalog) (task : Refresh) (s : σ) :
    Shown (task.step site).evaluate (task.step (site.watched id)).evaluate s
      fun answers record _ => task.Evaluates (catalog s) answers record := by
  have hcheck : Shown ((task.step site).check.run []) ((task.step (site.watched id)).check.run [])
      s fun answers checked _ => ∃ result, checked.1 = .ofResult result ∧
        task.Checks (catalog s) answers result checked.2 :=
    Outcome.shown_settle ((shows_check publishes task [] s).imp fun _ result _ _ h =>
      ⟨result, rfl, h⟩)
  have hnothing : site.LooksPreserve fun _ => () :=
    ⟨fun _ => rfl, fun _ _ _ => rfl, fun _ _ => rfl, fun _ _ _ _ => rfl⟩
  have hlooked := FleetTask.shown_check hnothing (.refresh task) [] s
  refine Step.shown_evaluate ((hcheck.and hlooked).imp ?_)
  rintro before ⟨checked, memory⟩ s' ⟨⟨result, rfl, hchecks⟩, hlooked⟩
  cases hchecks with
  | blind he => exact .blind hlooked.isLook he
  | upToDate hcalls hnone => exact .upToDate hcalls hnone
  | outdated hcalls hsome =>
    have hrollout : (FleetTask.refresh task).rollout? (task.outdated (catalog s)) =
        some (task.rollout (task.outdated (catalog s))) :=
      congrArg (fun targets => some (task.rollout targets)) (task.due_of_ne_nil hsome)
    refine (FleetTask.shown_run hrollout site s').imp ?_
    rintro after ⟨ran, memory'⟩ s'' ⟨result, hends, rfl⟩
    exact .ran hcalls hsome hends

/-- In the inputs of targets, the last target of an input counts. -/
theorem find?_inputs (targets : List Target) (key : String) : (inputs targets).find? key =
    (targets.reverse.find? (·.input = key)).map fun target => .str target.channel := by
  rw [inputs, Dict.find?_ofList, ← List.map_reverse, List.find?_map, Option.map_map]
  rfl

/-- The calls of a refresh in which nothing fails, and its report. -/
inductive Refreshes (task : Refresh) (published : Catalog) : List Call → Report → Prop
  | upToDate (hnone : task.outdated published = []) :
    Refreshes task published (task.looks published)
      ⟨[⟨"Upgrade applications", .check, .skipped "All applications are up to date"⟩], 1,
        .completed⟩
  /-- The inputs hold the channels of the outdated targets, and nothing else. -/
  | refreshed {inputs : Record} (hsome : task.outdated published ≠ [])
      (hinputs : ∀ key, inputs.find? key =
        ((task.outdated published).reverse.find? (·.input = key)).map fun target =>
          .str target.channel) :
    Refreshes task published
      (task.looks published ++ [.apply task.config inputs, .awaitStatus task.model
        ((task.outdated published).map (·.application)) ["active", "blocked", "unknown"]
        task.timeout])
      ⟨[⟨"Upgrade applications", .run, .completedWith (.obj [("upgraded",
        .ofStrings ((task.outdated published).map (·.application)))])⟩], 1, .completed⟩

/-- A refresh in which nothing fails moves exactly the outdated targets. -/
theorem refreshes_outdated (publishes : site.Publishes catalog) (task : Refresh) (s : σ) :
    ∃ report s' answers, (Plan.execute [task.step site]).run s = (report, s') ∧
      (Plan.execute [task.step (site.watched id)]).run (s, []) = (report, (s', answers)) ∧
      ((∀ answer ∈ answers, ∃ given, answer.result = .ok given) →
        task.Refreshes (catalog s) (answers.map (·.call)) report) := by
  refine Plan.shown_single ((shown_evaluate publishes task s).imp ?_) []
  intro answers record s' hevaluates hok
  cases hevaluates with
  | blind hlooks he =>
    obtain ⟨call, hmem⟩ := he _ rfl
    obtain ⟨given, hgiven⟩ := hok _ hmem
    cases hgiven
  | upToDate hcalls hnone =>
    rw [hcalls]
    exact .upToDate hnone
  | @ran before after result hcalls hsome hends =>
    obtain ⟨inputs, hinputs, hafter, rfl⟩ :=
      hends.of_ok fun answer hmem => hok answer (List.mem_append_right before hmem)
    cases hinputs
    rw [List.map_append, hcalls, hafter]
    exact .refreshed hsome (find?_inputs _)

/-! ## Lower tracks -/

theorem channelUpdateNeeded_of_lt {deployed target : String} {here wanted : Channel}
    (hdeployed : Channel.parse deployed = .ok here) (htarget : Channel.parse target = .ok wanted)
    (h : wanted.track < here.track) : channelUpdateNeeded deployed target = false := by
  rw [← Bool.not_eq_true, channelUpdateNeeded_iff_of_ok hdeployed htarget]
  exact fun hway => hway.not_lt h

/-- Where no two targets share an input, the input of a target is set exactly if it is outdated. -/
theorem find?_inputs_outdated (task : Refresh) (published : Catalog)
    (hinputs : (task.targets.map (·.input)).Nodup) {target : Target}
    (hmem : target ∈ task.targets) :
    (inputs (task.outdated published)).find? target.input =
      if target.IsOutdated task.model published then some (.str target.channel) else none := by
  rw [find?_inputs]
  cases hfind : (task.outdated published).reverse.find? (·.input = target.input) with
  | none =>
    have hnot : ¬ target.IsOutdated task.model published := fun houtdated => by
      have hkept : target ∈ (task.outdated published).reverse := by
        simpa [outdated] using ⟨hmem, houtdated⟩
      simpa using List.find?_eq_none.1 hfind target hkept
    rw [if_neg hnot]
    rfl
  | some other =>
    have hkept : other ∈ task.outdated published :=
      List.mem_reverse.1 (List.mem_of_find?_eq_some hfind)
    obtain ⟨hother, houtdated⟩ := List.mem_filter.1 hkept
    have hinput : other.input = target.input := by simpa using List.find?_some hfind
    obtain rfl := List.inj_on_of_nodup_map hinputs hother hmem hinput
    rw [if_pos (of_decide_eq_true houtdated)]
    rfl

/-- Inputs set the channel of a target to one with a lower track. -/
def Lowers (inputs : Record) (target : Target) (here : Channel) : Prop :=
  ∃ channel lower, inputs.find? target.input = some (.str channel) ∧
    Channel.parse channel = .ok lower ∧ lower.track < here.track

/-- Only a run applies, and it applies the channels of the outdated targets. -/
theorem Evaluates.inputs_eq {task : Refresh} {published : Catalog} {answers : List Answer}
    {record : StepRecord} (h : task.Evaluates published answers record) {answer : Answer}
    (hmem : answer ∈ answers) {config : String} {found : Record}
    (hcall : answer.call = .apply config found) : found = inputs (task.outdated published) := by
  have hlook : ∀ {looks : List Answer}, looks.map (·.call) = task.looks published →
      answer ∉ looks := fun hcalls hmem => by
    have hisLook := task.isLook_looks published _ (hcalls ▸ List.mem_map_of_mem hmem)
    rw [hcall] at hisLook
    cases hisLook
  cases h with
  | blind hlooks =>
    have hisLook := hlooks answer hmem
    rw [hcall] at hisLook
    cases hisLook
  | upToDate hcalls => exact absurd hmem (hlook hcalls)
  | ran hcalls _ hends =>
    have hafter := (List.mem_append.1 hmem).resolve_left (hlook hcalls)
    obtain ⟨-, hadmits⟩ := hends.apply_eq hafter hcall
    cases hadmits
    rfl

/-- Whatever goes wrong, a refresh moves a target to a lower track exactly if that is the wanted one
and a newer revision is published on the channel that the application follows. -/
theorem lowers_iff (publishes : site.Publishes catalog) (task : Refresh)
    (hinputs : (task.targets.map (·.input)).Nodup) (s : σ) :
    ∃ report s' answers, (Plan.execute [task.step site]).run s = (report, s') ∧
      (Plan.execute [task.step (site.watched id)]).run (s, []) = (report, (s', answers)) ∧
      ∀ answer ∈ answers, ∀ config inputs, answer.call = .apply config inputs →
        ∀ target ∈ task.targets, ∀ app here wanted,
          ((catalog s).status task.model).applications.find? target.application = some app →
          Channel.parse (app.channel.getD "") = .ok here →
          Channel.parse target.channel = .ok wanted →
          (Lowers inputs target here ↔
            wanted.track < here.track ∧ app.IsSuperseded ((catalog s).revision task.model)) := by
  refine Plan.shown_single ((shown_evaluate publishes task s).imp ?_) []
  intro answers record s' hevaluates answer hanswer config found hcall target hmem app here wanted
    hfind hhere hwanted
  obtain rfl := hevaluates.inputs_eq hanswer hcall
  have hset := task.find?_inputs_outdated (catalog s) hinputs hmem
  have houtdated := Target.isOutdated_iff hfind
  constructor
  · rintro ⟨channel, lower, hchannel, hlower, hlt⟩
    rw [hset] at hchannel
    split at hchannel
    · next hkept =>
      obtain rfl : target.channel = channel := by simpa using hchannel
      obtain rfl := Except.ok.inj (hwanted.symm.trans hlower)
      have hnot := channelUpdateNeeded_of_lt hhere hwanted hlt
      exact ⟨hlt, (houtdated.1 hkept).resolve_left (by rw [hnot]; exact Bool.false_ne_true)⟩
    · cases hchannel
  · rintro ⟨hlt, hsuperseded⟩
    rw [if_pos (houtdated.2 (.inr hsuperseded))] at hset
    exact ⟨target.channel, wanted, hset, hwanted, hlt⟩

end

end Task.Refresh

/-! ## Simulated fleets -/

namespace Simulation.World

/-- What the controller of a fleet publishes. -/
def published (world : World) : Catalog where
  status := world.status
  revision _ charm channel := world.revisions.find? (charm ++ "@" ++ channel)

theorem reads_perform {call : Call} {effect : Action α} {p : Catalog → α → Prop}
    (h : Reads published effect p) : Reads published (perform call effect) p := by
  intro world result world' hrun
  have hsteady : Steady published := fun _ _ _ => rfl
  obtain ⟨fault, rfl, hpublished⟩ | ⟨met, hpublished, heffect⟩ := exec_perform_cases hsteady hrun
  · exact ⟨hpublished, nofun⟩
  · obtain ⟨hkept, hok⟩ := h met result world' heffect
    rw [hpublished] at hkept hok
    exact ⟨hkept, hok⟩

/-- The controller of a fleet publishes its applications and its revisions, whatever the faults. -/
theorem publishes (file : Membership.FileStore) : (site file).Publishes published where
  modelStatus model := reads_perform fun world result world' hrun => by
    cases hrun
    exact ⟨rfl, fun status hstatus => Except.ok.inj hstatus⟩
  latestRevision model charm channel := reads_perform fun world result world' hrun => by
    have hget : exec (get : Action World) world = (.ok world, world) := rfl
    rw [latestRevision, exec_bind_ok hget] at hrun
    cases hrevision : world.revisions.find? (charm ++ "@" ++ channel) with
    | some revision =>
      rw [hrevision] at hrun
      cases hrun
      exact ⟨rfl, fun latest hlatest => hrevision.trans (congrArg some (Except.ok.inj hlatest))⟩
    | none =>
      rw [hrevision] at hrun
      cases hrun
      exact ⟨rfl, nofun⟩

/-- A fleet in which a newer revision of an application's charm is published. -/
def republished : World :=
  { World.empty with
    models := Dict.empty.insert "model"
      (Dict.empty.insert "nova" ⟨[], 0, some "ch:nova-30", some "2023.2/stable"⟩)
    revisions := Dict.empty.insert "nova@2023.2/stable" 31 }

end Simulation.World

namespace Task.Refresh

/-- A refresh whose wanted channel has a lower track than the one that is followed. -/
def rollback : Refresh where
  config := "charms"
  model := "model"
  targets := [⟨"nova", "2023.1/stable", "nova-channel"⟩]

/-- The application is outdated by its revision, so it is moved. -/
theorem refreshes_outdated_rollback :
    let site := World.site ⟨"/cluster.json"⟩
    ∃ (report : Report) (world : World) (answers : List Answer),
      (Plan.execute [rollback.step site]).run World.republished = (report, world) ∧
      answers.length = 4 ∧
      rollback.Refreshes World.republished.published (answers.map (·.call)) report := by
  intro site
  obtain ⟨report, world, answers, hplain, hwatched, hrefreshes⟩ :=
    refreshes_outdated (World.publishes ⟨"/cluster.json"⟩) rollback World.republished
  obtain rfl : ((Plan.execute [rollback.step (site.watched id)]).run
    (World.republished, [])).2.2 = answers := by rw [hwatched]
  have hok : ∀ answer ∈ ((Plan.execute [rollback.step (site.watched id)]).run
      (World.republished, [])).2.2, answer.result.isOk = true := by decide +kernel
  refine ⟨report, world, _, hplain, by decide +kernel, hrefreshes fun answer hmem => ?_⟩
  have hanswer := hok answer hmem
  cases hresult : answer.result with
  | ok given => exact ⟨given, rfl⟩
  | error e =>
    rw [hresult] at hanswer
    cases hanswer

/-- The apply moves the application to the lower track. -/
theorem lowers_iff_rollback :
    let site := World.site ⟨"/cluster.json"⟩
    ∃ report world answers,
      (Plan.execute [rollback.step (site.watched id)]).run (World.republished, []) =
        (report, (world, answers)) ∧
      ∃ answer ∈ answers, ∃ config inputs, answer.call = .apply config inputs ∧
        Lowers inputs ⟨"nova", "2023.1/stable", "nova-channel"⟩ ⟨"2023.2", .stable, none⟩ := by
  intro site
  obtain ⟨report, world, answers, -, hwatched, hlowers⟩ :=
    lowers_iff (World.publishes ⟨"/cluster.json"⟩) rollback (by decide) World.republished
  obtain rfl : ((Plan.execute [rollback.step (site.watched id)]).run
    (World.republished, [])).2.2 = answers := by rw [hwatched]
  have happly : ∃ answer ∈ ((Plan.execute [rollback.step (site.watched id)]).run
      (World.republished, [])).2.2, answer.call.isApply = true := by decide +kernel
  obtain ⟨answer, hmem, hisApply⟩ := happly
  cases hcall : answer.call with
  | apply config inputs =>
    refine ⟨report, world, _, hwatched, answer, hmem, config, inputs, hcall, ?_⟩
    refine (hlowers answer hmem config inputs hcall _ (List.mem_singleton_self _)
      ⟨"ch:nova-30", some "2023.2/stable"⟩ _ ⟨"2023.1", .stable, none⟩ ?_ ?_ ?_).2 ⟨?_, ?_⟩
    all_goals decide +kernel
  | _ =>
    rw [hcall] at hisApply
    cases hisApply

/-- Whether a call sets a key to a text. -/
def sets (key value : String) : Call → Bool
  | .apply _ inputs =>
    match inputs.find? key with
    | some (.str text) => text = value
    | _ => false
  | _ => false

/-- An application that follows a channel is moved to a channel with a lower track. -/
theorem rollback_lowers :
    let run := (Plan.execute [rollback.step (World.site ⟨"/cluster.json"⟩)]).run World.republished
    (World.republished.deployment? "model" "nova").bind (·.channel) = some "2023.2/stable" ∧
      run.2.calls.any (sets "nova-channel" "2023.1/stable") ∧
      Channel.parse "2023.2/stable" = .ok ⟨"2023.2", .stable, none⟩ ∧
      Channel.parse "2023.1/stable" = .ok ⟨"2023.1", .stable, none⟩ ∧ "2023.1" < "2023.2" := by
  decide +kernel

end Task.Refresh

end Converge
