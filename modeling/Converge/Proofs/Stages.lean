import Converge.Proofs.Backing
import Converge.Proofs.Contract
import Converge.Proofs.Lifecycle
import Converge.Proofs.Watch
/-!
# What happens in which stage

A watched plugin notes its hooks and the visits to the steps of its plans among the answers of the
store.  `Stages` lists the ways a change may go and `Switching` those with the look at the
requirements before it, each with what is noted and what becomes of the store's file.  Main
statement: enabling and disabling go in one of these ways (`shows_switch`).
-/

namespace Converge.Plugin

open Converge.Membership (Document)

variable {σ μ : Type}

/-! ## Events -/

/-- What happens while a plugin is enabled or disabled. -/
inductive Event where
  /-- The store answers. -/
  | answer (answer : Answer)
  /-- A hook of the plugin is called. -/
  | hook (name : String) (result : Except Error Unit)
  /-- A check or a run of a step of the plan is called. -/
  | visit (visit : Visit)

namespace Event

/-- A hook that is noted. -/
def noteHook (name : String) (hook : ExceptT Error (StateM σ) Unit) :
    ExceptT Error (StateM (σ × List Event)) Unit :=
  ExceptT.mk fun state =>
    let result := exec hook state.1
    (result.1, (result.2, state.2 ++ [.hook name result.1]))

/-- A check or a run that is noted. -/
def noteVisit (index : Nat) (phase : Phase) (part : StateT μ (StateM σ) Outcome) :
    StateT μ (StateM (σ × List Event)) Outcome :=
  fun memory state =>
    let result := (part.run memory).run state.1
    (result.1, (result.2, state.2 ++ [.visit ⟨index, phase, result.1.1⟩]))

/-- A step whose check and run are noted. -/
def noteStep (index : Nat) (step : Step (StateM σ)) : Step (StateM (σ × List Event)) where
  name := step.name
  description := step.description
  prompts := step.prompts
  Memory := step.Memory
  memory := step.memory
  check := noteVisit index .check step.check
  run := noteVisit index .run step.run

/-- A plan whose steps, counted from `first` on, are noted. -/
def notePlan (first : Nat) : List (Step (StateM σ)) → List (Step (StateM (σ × List Event)))
  | [] => []
  | step :: rest => noteStep first step :: notePlan (first + 1) rest

@[simp] theorem length_notePlan (first : Nat) (plan : List (Step (StateM σ))) :
    (notePlan first plan).length = plan.length := by
  induction plan generalizing first with
  | nil => rfl
  | cons step rest ih => simp [notePlan, ih]

/-- Whether a record is replaced. -/
def IsWrite : Event → Prop
  | .answer ⟨.setRecord .., _⟩ => True
  | _ => False

end Event

/-- A plugin whose hooks and plans are noted. -/
def Definition.watched (plugin : Definition (StateM σ)) :
    Definition (StateM (σ × List Event)) where
  name := plugin.name
  version := plugin.version
  requires := plugin.requires
  enablePlan := Event.notePlan 0 plugin.enablePlan
  disablePlan := Event.notePlan 0 plugin.disablePlan
  preEnable := Event.noteHook "pre_enable" plugin.preEnable
  postEnable := Event.noteHook "post_enable" plugin.postEnable
  preDisable := Event.noteHook "pre_disable" plugin.preDisable
  postDisable := Event.noteHook "post_disable" plugin.postDisable

/-- The hooks and the steps of a plugin do not write to the store's file. -/
structure Definition.Spares (plugin : Definition (StateM σ)) (view : FileView σ) : Prop where
  preEnable : view.IsKeptBy plugin.preEnable.run
  postEnable : view.IsKeptBy plugin.postEnable.run
  preDisable : view.IsKeptBy plugin.preDisable.run
  postDisable : view.IsKeptBy plugin.postDisable.run
  check : ∀ step ∈ plugin.enablePlan ++ plugin.disablePlan, ∀ memory,
    view.IsKeptBy (step.check.run memory)
  run : ∀ step ∈ plugin.enablePlan ++ plugin.disablePlan, ∀ memory,
    view.IsKeptBy (step.run.run memory)

/-! ## Hooks and plans -/

theorem eq_ok_of_mapError {α : Type} {done : Except Error α} {cause : Error → Error} {a : α}
    (h : done.mapError cause = .ok a) : done = .ok a := by
  cases done with
  | ok b => exact congrArg Except.ok (Except.ok.inj h)
  | error e => cases h

section

variable {view : FileView σ} {s : σ}

theorem shows_runHook (plugin : Definition (StateM σ)) (name : String)
    {hook : ExceptT Error (StateM σ) Unit} (hkept : view.IsKeptBy hook.run) (hs : view.ready s) :
    Shows (plugin.runHook name hook) (plugin.watched.runHook name (Event.noteHook name hook)) s
      fun events result s' => view.Keeps s s' ∧ ∃ done, events = [.hook name done] ∧
        result = done.mapError fun e => .hookFailed plugin.name name e.message := by
  intro noted
  have hkeeps := hkept s hs
  refine ⟨(exec hook s).1.mapError fun e => .hookFailed plugin.name name e.message,
    (exec hook s).2, [.hook name (exec hook s).1], rfl, rfl, hkeeps, _, rfl, rfl⟩

theorem noteVisit_run {part : StateT μ (StateM σ) Outcome} {memory memory' : μ} {s s' : σ}
    {outcome : Outcome} (h : (part.run memory).run s = ((outcome, memory'), s')) (index : Nat)
    (phase : Phase) (noted : List Event) :
    ((Event.noteVisit index phase part).run memory).run (s, noted) =
      ((outcome, memory'), (s', noted ++ [.visit ⟨index, phase, outcome⟩])) := by
  show (((part.run memory).run s).1, ((part.run memory).run s).2,
    noted ++ [.visit ⟨index, phase, ((part.run memory).run s).1.1⟩]) = _
  rw [h]

/-- A step that is noted does what the step does. -/
theorem evaluate_noteStep {step : Step (StateM σ)} {s s' : σ} {record : StepRecord}
    (h : step.evaluate.run s = (record, s')) (index : Nat) (noted : List Event) :
    ∃ visits : List Visit, (Event.noteStep index step).evaluate.run (s, noted) =
      (record, (s', noted ++ visits.map .visit)) := by
  rcases hcheck : (step.check.run step.memory).run s with ⟨⟨checked, memory⟩, s₁⟩
  have wcheck := noteVisit_run hcheck index .check noted
  cases hdone : checked.isCompleted with
  | false =>
    rw [Step.evaluate_of_check hcheck hdone] at h
    cases h
    refine ⟨[⟨index, .check, checked⟩], ?_⟩
    exact Step.evaluate_of_check wcheck hdone
  | true =>
    rcases hrun : (step.run.run memory).run s₁ with ⟨⟨ran, memory'⟩, s₂⟩
    have wrun := noteVisit_run hrun index .run (noted ++ [.visit ⟨index, .check, checked⟩])
    rw [Step.evaluate_of_run hcheck hdone hrun] at h
    cases h
    refine ⟨[⟨index, .check, checked⟩, ⟨index, .run, ran⟩], ?_⟩
    rw [List.append_assoc] at wrun
    exact Step.evaluate_of_run wcheck hdone wrun

/-- A plan that is noted does what the plan does. -/
theorem evaluate_notePlan (plan : List (Step (StateM σ))) (first : Nat) (s : σ)
    (noted : List Event) :
    ∃ visits : List Visit, (Plan.evaluate (Event.notePlan first plan)).run (s, noted) =
      (((Plan.evaluate plan).run s).1,
        (((Plan.evaluate plan).run s).2, noted ++ visits.map .visit)) := by
  induction plan generalizing first s noted with
  | nil => exact ⟨[], by rw [List.map_nil, List.append_nil]; rfl⟩
  | cons step rest ih =>
    rcases hstep : step.evaluate.run s with ⟨record, s₁⟩
    obtain ⟨before, wstep⟩ := evaluate_noteStep hstep first noted
    rw [Plan.evaluate_cons hstep, Event.notePlan, Plan.evaluate_cons wstep]
    split
    · exact ⟨before, rfl⟩
    · obtain ⟨after, wrest⟩ := ih (first + 1) s₁ (noted ++ before.map .visit)
      refine ⟨before ++ after, ?_⟩
      rw [wrest, List.map_append, List.append_assoc]

theorem isKeptBy_evaluate {step : Step (StateM σ)}
    (hcheck : ∀ memory, view.IsKeptBy (step.check.run memory))
    (hrun : ∀ memory, view.IsKeptBy (step.run.run memory)) : view.IsKeptBy step.evaluate := by
  refine (hcheck _).bind fun (checked, memory) => ?_
  dsimp only
  split
  · exact (hrun _).bind fun ran => FileView.isKeptBy_pure _
  · exact FileView.isKeptBy_pure _

/-- A plan whose steps leave the file alone leaves it alone, and so it does when it is noted. -/
theorem shows_runPlan (plugin : Definition (StateM σ)) {plan : List (Step (StateM σ))}
    (hcheck : ∀ step ∈ plan, ∀ memory, view.IsKeptBy (step.check.run memory))
    (hrun : ∀ step ∈ plan, ∀ memory, view.IsKeptBy (step.run.run memory)) (hs : view.ready s) :
    Shows (plugin.runPlan plan) (plugin.watched.runPlan (Event.notePlan 0 plan)) s
      fun events result s' => view.Keeps s s' ∧ ∃ visits report,
        events = List.map .visit visits ∧ (Plan.execute plan).run s = (report, s') ∧
        result = if report.succeeded then .ok report
          else .error (.planFailed plugin.name (report.outcome.message.getD "")) := by
  intro noted
  have hkeeps : ∀ s₁, view.Keeps s s₁ → view.Keeps s ((Plan.evaluate plan).run s₁).2 :=
    Plan.evaluate_invariant fun step hmem s₁ h =>
      h.trans (isKeptBy_evaluate (hcheck step hmem) (hrun step hmem) s₁ h.ready)
  obtain ⟨visits, wplan⟩ := evaluate_notePlan plan 0 s noted
  have hexecute := Plan.execute_run plan s
  have wexecute := Plan.execute_of_evaluate wplan
  rw [Event.length_notePlan] at wexecute
  exact ⟨_, _, visits.map .visit, Definition.exec_runPlan hexecute,
    Definition.exec_runPlan wexecute, hkeeps s (.refl hs), visits, _, rfl, hexecute, rfl⟩

end

/-! ## Looks at the store -/

/-- The record that an answer of the store stands for: an empty one if there is none. -/
def foundRecord : Except Error Record → Except Error Record
  | .ok record => .ok record
  | .error e => if e.kind = .recordNotFound then .ok .empty else .error e

/-- Whether a plugin is enabled, as far as an answer of the store tells. -/
def foundEnabled (found : Except Error Record) : Except Error Bool :=
  ((foundRecord found).bind State.ofRecord).map (·.enabled)

/-- The event of an answer to a look at a plugin's record. -/
def Event.look (name : String) (found : Except Error Record) : Event :=
  .answer ⟨.record (key name), found.map .record⟩

section

variable {store : MembershipStore (StateM σ)} {view : FileView σ} {s : σ}

/-- A look at a plugin's record asks the store once. -/
theorem shows_recordOrEmpty (reflects : store.Reflects view) (name : String) (hs : view.ready s) :
    Shows (store.recordOrEmpty (key name)) ((store.watched Event.answer).recordOrEmpty (key name)) s
      fun events result s' => view.Keeps s s' ∧ ∃ found,
        exec (store.record (key name)) s = (found, s') ∧ events = [.look name found] ∧
        result = foundRecord found := by
  have hcall : Shows (store.record (key name)) ((store.watched Event.answer).record (key name)) s
      fun events found s' => exec (store.record (key name)) s = (found, s') ∧
        events = [.look name found] :=
    .call _ _ _ _ fun _ _ h => ⟨h, rfl⟩
  have hfound : Shows (absentAsNone .recordNotFound (store.record (key name)))
      (absentAsNone .recordNotFound ((store.watched Event.answer).record (key name))) s
      fun events result s' => ∃ found, exec (store.record (key name)) s = (found, s') ∧
        events = [.look name found] ∧ result.map (·.getD .empty) = foundRecord found := by
    refine hcall.absentAsNone ?_ ?_ ?_
    · exact fun record events s' ⟨h, hevents⟩ => ⟨_, h, hevents, rfl⟩
    · exact fun e events s' ⟨h, hevents⟩ hkind => ⟨_, h, hevents, (if_pos hkind).symm⟩
    · exact fun e events s' ⟨h, hevents⟩ hkind => ⟨_, h, hevents, (if_neg hkind).symm⟩
  unfold MembershipStore.recordOrEmpty
  refine hfound.bind ?_ ?_
  · rintro e events s' ⟨found, h, hevents, hfound⟩
    exact ⟨(reflects.record_keeps (key name)).keeps hs h, found, h, hevents, hfound⟩
  · rintro record events s' ⟨found, h, rfl, hfound⟩
    exact .pure _ ⟨(reflects.record_keeps (key name)).keeps hs h, found, h, rfl, hfound⟩

/-- Whether a plugin is enabled is asked of the store once. -/
theorem shows_isEnabled (reflects : store.Reflects view) (name : String) (hs : view.ready s) :
    Shows (isEnabled store name) (isEnabled (store.watched Event.answer) name) s
      fun events result s' => view.Keeps s s' ∧ ∃ found,
        exec (store.record (key name)) s = (found, s') ∧ events = [.look name found] ∧
        result = foundEnabled found := by
  unfold isEnabled stateOf
  rw [bind_assoc, bind_assoc]
  refine (shows_recordOrEmpty reflects name hs).bind ?_ ?_
  · rintro e events s' ⟨hkeeps, found, h, hevents, hfound⟩
    refine ⟨hkeeps, found, h, hevents, ?_⟩
    rw [foundEnabled, ← hfound]
    rfl
  · rintro record events s' ⟨hkeeps, found, h, rfl, hfound⟩
    cases hstate : State.ofRecord record with
    | error e =>
      refine .throw e ⟨hkeeps, found, h, rfl, ?_⟩
      rw [foundEnabled, ← hfound, Except.bind, hstate]
      rfl
    | ok state =>
      refine .pure state.enabled ⟨hkeeps, found, h, rfl, ?_⟩
      rw [foundEnabled, ← hfound, Except.bind, hstate]
      rfl

end

/-! ## Requirements -/

/-- While the file was as it is in a state, the store gave the answer about a plugin. -/
def Asked (store : MembershipStore (StateM σ)) (view : FileView σ) (s : σ) (name : String)
    (found : Except Error Record) : Prop :=
  ∃ s₁ s₂, view.Keeps s s₁ ∧ exec (store.record (key name)) s₁ = (found, s₂)

/-- Requirements that are met, with the looks that tell so: each is enabled or optional. -/
inductive Met (store : MembershipStore (StateM σ)) (view : FileView σ) (s : σ) :
    List Requirement → List Event → Prop
  | nil : Met store view s [] []
  | cons {requirement : Requirement} {rest : List Requirement} {found : Except Error Record}
      {enabled : Bool} {events : List Event} (asked : Asked store view s requirement.name found)
      (hfound : foundEnabled found = .ok enabled) (h : enabled ∨ requirement.optional)
      (hrest : Met store view s rest events) :
      Met store view s (requirement :: rest) (.look requirement.name found :: events)

/-- How a look at requirements ends. -/
inductive Checked (store : MembershipStore (StateM σ)) (view : FileView σ) (plugin : String)
    (s : σ) : List Requirement → List Event → Except Error Unit → Prop
  /-- All are met. -/
  | met {requirements : List Requirement} {events : List Event}
      (h : Met store view s requirements events) :
      Checked store view plugin s requirements events (.ok ⟨⟩)
  /-- The first one that is not met is mandatory and not enabled. -/
  | unmet {before after : List Requirement} {requirement : Requirement} {events : List Event}
      {found : Except Error Record} (h : Met store view s before events)
      (asked : Asked store view s requirement.name found)
      (hfound : foundEnabled found = .ok false) (hmandatory : requirement.optional = false) :
      Checked store view plugin s (before ++ requirement :: after)
        (events ++ [.look requirement.name found])
        (.error (.missingRequirement plugin requirement.name))
  /-- It cannot be told of one, mandatory or optional, whether it is enabled. -/
  | unknown {before after : List Requirement} {requirement : Requirement} {events : List Event}
      {found : Except Error Record} {e : Error} (h : Met store view s before events)
      (asked : Asked store view s requirement.name found) (hfound : foundEnabled found = .error e) :
      Checked store view plugin s (before ++ requirement :: after)
        (events ++ [.look requirement.name found]) (.error e)

theorem Checked.cons {store : MembershipStore (StateM σ)} {view : FileView σ} {plugin : String}
    {s : σ} {requirement : Requirement} {rest : List Requirement} {found : Except Error Record}
    {enabled : Bool} {events : List Event} {result : Except Error Unit}
    (asked : Asked store view s requirement.name found) (hfound : foundEnabled found = .ok enabled)
    (h : enabled ∨ requirement.optional) (hrest : Checked store view plugin s rest events result) :
    Checked store view plugin s (requirement :: rest) (.look requirement.name found :: events)
      result := by
  cases hrest with
  | met hmet => exact .met (.cons asked hfound h hmet)
  | unmet hmet asked' hfound' hmandatory =>
    exact .unmet (.cons asked hfound h hmet) asked' hfound' hmandatory
  | unknown hmet asked' hfound' => exact .unknown (.cons asked hfound h hmet) asked' hfound'

theorem Checked.met_of_ok {store : MembershipStore (StateM σ)} {view : FileView σ}
    {plugin : String} {s : σ} {requirements : List Requirement} {events : List Event}
    (h : Checked store view plugin s requirements events (.ok ⟨⟩)) :
    Met store view s requirements events := by
  cases h with
  | met h => exact h

/-- Requirements are looked at in order, up to the first one that is not met. -/
theorem shows_checkRequirements {store : MembershipStore (StateM σ)} {view : FileView σ}
    (reflects : store.Reflects view) (plugin : String) (requirements : List Requirement) {s s₁ : σ}
    (hs : view.Keeps s s₁) :
    Shows (checkRequirements store plugin requirements)
      (checkRequirements (store.watched Event.answer) plugin requirements) s₁
      fun events result s' => view.Keeps s s' ∧
        Checked store view plugin s requirements events result := by
  -- the looks before have kept the file, so all answers are about the file of `s`
  induction requirements generalizing s₁ with
  | nil => exact .pure _ ⟨hs, .met .nil⟩
  | cons requirement rest ih =>
    rw [checkRequirements, checkRequirements]
    refine (shows_isEnabled reflects requirement.name hs.ready).bind ?_ ?_
    · rintro e _ s' ⟨hkeeps, found, h, rfl, hfound⟩
      exact ⟨hs.trans hkeeps, .unknown .nil ⟨s₁, s', hs, h⟩ hfound.symm⟩
    · rintro enabled _ s' ⟨hkeeps, found, h, rfl, hfound⟩
      have asked : Asked store view s requirement.name found := ⟨s₁, s', hs, h⟩
      dsimp only
      split
      · next hunmet =>
        simp only [Bool.and_eq_true, Bool.not_eq_true'] at hunmet
        refine .throw _ ⟨hs.trans hkeeps, ?_⟩
        rw [hunmet.1] at hfound
        exact .unmet .nil asked hfound.symm hunmet.2
      · next hmet =>
        have hpassed : enabled ∨ requirement.optional := by
          cases enabled <;> cases hoptional : requirement.optional <;> simp_all
        refine (ih (hs.trans hkeeps)).imp fun events result s'' ⟨hkeeps', hchecked⟩ => ?_
        exact ⟨hkeeps', .cons asked hfound.symm hpassed hchecked⟩

/-! ## Stages -/

/-- The name of the hook before the plan of a direction. -/
def preName (enabled : Bool) : String :=
  if enabled then "pre_enable" else "pre_disable"

/-- The name of the hook after the plan of a direction. -/
def postName (enabled : Bool) : String :=
  if enabled then "post_enable" else "post_disable"

/-- The event of the pre-hook's success and those of the visits to the plan's steps. -/
def Event.ran (enabled : Bool) (visits : List Visit) : List Event :=
  .hook (preName enabled) (.ok ⟨⟩) :: visits.map .visit

/-- The event of an answer to the replacement of a plugin's record. -/
def Event.write (name : String) (record : Record) (done : Except Error Unit) : Event :=
  .answer ⟨.setRecord (key name) record, done.map fun _ => .nothing⟩

/-- The record that is written over another one. -/
def Definition.mark {m : Type → Type} (plugin : Definition m) (enabled : Bool) (time : Timestamp)
    (record : Record) : Record :=
  (State.mk enabled (some plugin.version) (some time) .empty).mergeInto record

/-- A report of the plan of a direction. -/
def Definition.Reports (plugin : Definition (StateM σ)) (enabled : Bool) (report : Report) : Prop :=
  ∃ s, ((Plan.execute (plugin.plan enabled)).run s).1 = report

/-- A record of a plugin was replaced while the file was still the one of `s`. -/
def Wrote (store : MembershipStore (StateM σ)) (view : FileView σ) (s : σ) (name : String)
    (record : Record) (done : Except Error Unit) (s' : σ) : Prop :=
  ∃ s₁, view.Keeps s s₁ ∧ exec (store.setRecord (key name) record) s₁ = (done, s')

theorem Wrote.exists_document {store : MembershipStore (StateM σ)} {view : FileView σ} {s s' : σ}
    {name : String} {record : Record} (reflects : store.Reflects view)
    (h : Wrote store view s name record (.ok ⟨⟩) s') :
    ∃ doc, view.document s = .ok doc ∧
      view.file s' = some (.text (doc.setRecord (key name) record).text) := by
  obtain ⟨s₁, hkeeps, hwrite⟩ := h
  rw [← hkeeps.document_eq]
  exact reflects.setRecord_ok _ _ _ _ hkeeps.ready hwrite

/-- How a change that begins in a state may go: what happens, how it ends, and what becomes of the
store's file. -/
inductive Stages (plugin : Definition (StateM σ)) (store : MembershipStore (StateM σ))
    (clock : Clock (StateM σ)) (view : FileView σ) (enabled : Bool) (s : σ) :
    List Event → Except Error Report → σ → Prop
  /-- The pre-hook fails. -/
  | preFailed {e : Error} {s' : σ} (hkeeps : view.Keeps s s') :
      Stages plugin store clock view enabled s [.hook (preName enabled) (.error e)]
        (.error (.hookFailed plugin.name (preName enabled) e.message)) s'
  /-- The plan fails. -/
  | planFailed {visits : List Visit} {report : Report} {s' : σ} (hkeeps : view.Keeps s s')
      (hreport : plugin.Reports enabled report) (hfailed : report.succeeded = false) :
      Stages plugin store clock view enabled s (Event.ran enabled visits)
        (.error (.planFailed plugin.name (report.outcome.message.getD ""))) s'
  /-- The post-hook fails. -/
  | postFailed {visits : List Visit} {report : Report} {e : Error} {s' : σ}
      (hkeeps : view.Keeps s s') (hreport : plugin.Reports enabled report)
      (hsucceeded : report.succeeded) :
      Stages plugin store clock view enabled s
        (Event.ran enabled visits ++ [.hook (postName enabled) (.error e)])
        (.error (.hookFailed plugin.name (postName enabled) e.message)) s'
  /-- The record cannot be read. -/
  | unread {visits : List Visit} {report : Report} {found : Except Error Record} {e : Error}
      {s' : σ} (hkeeps : view.Keeps s s') (hreport : plugin.Reports enabled report)
      (hsucceeded : report.succeeded) (asked : Asked store view s plugin.name found)
      (hfound : foundRecord found = .error e) :
      Stages plugin store clock view enabled s
        (Event.ran enabled visits ++ [.hook (postName enabled) (.ok ⟨⟩), .look plugin.name found])
        (.error e) s'
  /-- The record cannot be written. -/
  | unwritten {visits : List Visit} {report : Report} {found : Except Error Record}
      {record : Record} {time : Timestamp} {e : Error} {s' : σ}
      (hreport : plugin.Reports enabled report) (hsucceeded : report.succeeded)
      (asked : Asked store view s plugin.name found) (hfound : foundRecord found = .ok record)
      (wrote : Wrote store view s plugin.name (plugin.mark enabled time record) (.error e) s') :
      Stages plugin store clock view enabled s
        (Event.ran enabled visits ++ [.hook (postName enabled) (.ok ⟨⟩), .look plugin.name found,
          .write plugin.name (plugin.mark enabled time record) (.error e)])
        (.error e) s'
  /-- The record is written. -/
  | written {visits : List Visit} {report : Report} {found : Except Error Record}
      {record : Record} {time : Timestamp} {s₁ s' : σ}
      (hreport : plugin.Reports enabled report) (hsucceeded : report.succeeded)
      (asked : Asked store view s plugin.name found) (hfound : foundRecord found = .ok record)
      (htime : (clock.now.run s₁).1 = time)
      (wrote : Wrote store view s plugin.name (plugin.mark enabled time record) (.ok ⟨⟩) s') :
      Stages plugin store clock view enabled s
        (Event.ran enabled visits ++ [.hook (postName enabled) (.ok ⟨⟩), .look plugin.name found,
          .write plugin.name (plugin.mark enabled time record) (.ok ⟨⟩)])
        (.ok report) s'

namespace Stages

variable {plugin : Definition (StateM σ)} {store : MembershipStore (StateM σ)}
  {clock : Clock (StateM σ)} {view : FileView σ} {enabled : Bool} {s s' : σ} {events : List Event}

/-- A change that fails leaves the file as it was, but for what a failing replacement does. -/
theorem keeps_or_wrote {e : Error}
    (h : Stages plugin store clock view enabled s events (.error e) s') :
    view.Keeps s s' ∨ ∃ record, Wrote store view s plugin.name record (.error e) s' := by
  cases h with
  | preFailed hkeeps | planFailed hkeeps | postFailed hkeeps | unread hkeeps => exact .inl hkeeps
  | unwritten _ _ _ _ wrote => exact .inr ⟨_, wrote⟩

theorem keeps_of_error (backed : store.BackedBy view) {e : Error}
    (h : Stages plugin store clock view enabled s events (.error e) s') : view.Keeps s s' := by
  obtain hkeeps | ⟨record, s₁, hkeeps, hwrite⟩ := h.keeps_or_wrote
  · exact hkeeps
  · exact hkeeps.trans (backed.setRecord_error _ _ _ _ _ hkeeps.ready hwrite)

/-- A change that succeeds ends with the one write that it makes. -/
theorem exists_of_ok {report : Report}
    (h : Stages plugin store clock view enabled s events (.ok report) s') :
    ∃ visits found record s₁, Asked store view s plugin.name found ∧
      foundRecord found = .ok record ∧
      Wrote store view s plugin.name (plugin.mark enabled (clock.now.run s₁).1 record) (.ok ⟨⟩)
        s' ∧
      events = Event.ran enabled visits ++ [.hook (postName enabled) (.ok ⟨⟩),
        .look plugin.name found,
        .write plugin.name (plugin.mark enabled (clock.now.run s₁).1 record) (.ok ⟨⟩)] := by
  cases h with
  | written hreport hsucceeded asked hfound htime wrote =>
    subst htime
    exact ⟨_, _, _, _, asked, hfound, wrote, rfl⟩

end Stages

section

variable {plugin : Definition (StateM σ)} {store : MembershipStore (StateM σ)}
  {clock : Clock (StateM σ)} {view : FileView σ} {enabled : Bool} {s s₁ : σ}

theorem shows_pre (spares : plugin.Spares view) (enabled : Bool) (hs : view.ready s) :
    Shows (plugin.pre enabled) (plugin.watched.pre enabled) s fun events result s' =>
      view.Keeps s s' ∧ ∃ done, events = [.hook (preName enabled) done] ∧
        result = done.mapError fun e => .hookFailed plugin.name (preName enabled) e.message := by
  cases enabled with
  | false => exact shows_runHook plugin "pre_disable" spares.preDisable hs
  | true => exact shows_runHook plugin "pre_enable" spares.preEnable hs

theorem shows_post (spares : plugin.Spares view) (enabled : Bool) (hs : view.ready s) :
    Shows (plugin.post enabled) (plugin.watched.post enabled) s fun events result s' =>
      view.Keeps s s' ∧ ∃ done, events = [.hook (postName enabled) done] ∧
        result = done.mapError fun e => .hookFailed plugin.name (postName enabled) e.message := by
  cases enabled with
  | false => exact shows_runHook plugin "post_disable" spares.postDisable hs
  | true => exact shows_runHook plugin "post_enable" spares.postEnable hs

theorem shows_plan (spares : plugin.Spares view) (enabled : Bool) (hs : view.ready s) :
    Shows (plugin.runPlan (plugin.plan enabled))
      (plugin.watched.runPlan (plugin.watched.plan enabled)) s fun events result s' =>
        view.Keeps s s' ∧ ∃ visits report, events = List.map .visit visits ∧
          plugin.Reports enabled report ∧ result = if report.succeeded then .ok report
            else .error (.planFailed plugin.name (report.outcome.message.getD "")) := by
  have hmem : ∀ step ∈ plugin.plan enabled, step ∈ plugin.enablePlan ++ plugin.disablePlan := by
    cases enabled with
    | false => exact fun step hmem => List.mem_append_right _ hmem
    | true => exact fun step hmem => List.mem_append_left _ hmem
  have hplan : plugin.watched.plan enabled = Event.notePlan 0 (plugin.plan enabled) := by
    cases enabled <;> rfl
  rw [hplan]
  refine (shows_runPlan plugin (fun step h => spares.check step (hmem step h))
    (fun step h => spares.run step (hmem step h)) hs).imp ?_
  rintro events result s' ⟨hkeeps, visits, report, hevents, hreport, hresult⟩
  exact ⟨hkeeps, visits, report, hevents, ⟨s, congrArg Prod.fst hreport⟩, hresult⟩

/-- The record is looked up and replaced. -/
theorem shows_persist (reflects : store.Reflects view) (hnow : view.IsKeptBy clock.now)
    (hs : view.Keeps s s₁) (visits : List Visit) {report : Report}
    (hreport : plugin.Reports enabled report) (hsucceeded : report.succeeded) :
    Shows (persist store clock plugin.name plugin.version enabled)
      (persist (store.watched Event.answer) clock.watched plugin.name plugin.version enabled) s₁
      fun events result => Stages plugin store clock view enabled s
        (Event.ran enabled visits ++ .hook (postName enabled) (.ok ⟨⟩) :: events)
        (result.map fun _ => report) := by
  unfold persist
  refine (shows_recordOrEmpty reflects plugin.name hs.ready).bind ?_ ?_
  · rintro e _ s₂ ⟨hkeeps, found, h, rfl, hfound⟩
    exact .unread (hs.trans hkeeps) hreport hsucceeded ⟨s₁, s₂, hs, h⟩ hfound.symm
  · rintro record _ s₂ ⟨hkeeps, found, h, rfl, hfound⟩
    have asked : Asked store view s plugin.name found := ⟨s₁, s₂, hs, h⟩
    have hkeeps₂ := hs.trans hkeeps
    have hkeeps₃ := hkeeps₂.trans (hnow s₂ hkeeps₂.ready)
    -- the clock is no collaborator: it cannot fail, and nothing is noted
    have hclock : Shows (monadLift clock.now : ExceptT Error (StateM σ) Timestamp)
        (monadLift clock.watched.now : ExceptT Error (StateM (σ × List Event)) Timestamp) s₂
        fun events result s' => events = [] ∧ result = .ok (clock.now.run s₂).1 ∧
          s' = (clock.now.run s₂).2 := .unnoted clock.now ⟨rfl, rfl, rfl⟩
    refine hclock.bind ?_ ?_
    · rintro e events s' ⟨-, hresult, -⟩
      cases hresult
    · rintro time events s' ⟨rfl, hresult, rfl⟩
      obtain rfl := Except.ok.inj hresult
      refine .call _ _ _ _ fun done s' hwrite => ?_
      cases done with
      | error e => exact .unwritten hreport hsucceeded asked hfound.symm ⟨_, hkeeps₃, hwrite⟩
      | ok _ => exact .written hreport hsucceeded asked hfound.symm rfl ⟨_, hkeeps₃, hwrite⟩

/-- A change goes through its stages in order, up to the first that fails. -/
theorem shows_change (spares : plugin.Spares view) (reflects : store.Reflects view)
    (hnow : view.IsKeptBy clock.now) (enabled : Bool) (hs : view.Keeps s s₁) :
    Shows (plugin.change store clock enabled)
      (plugin.watched.change (store.watched Event.answer) clock.watched enabled) s₁
      (Stages plugin store clock view enabled s) := by
  unfold Definition.change
  -- each stage keeps the file, so the next one still begins with the file of `s`
  refine (shows_pre spares enabled hs.ready).bind ?_ ?_
  · rintro e _ s₂ ⟨hkeeps, done, rfl, hdone⟩
    cases done with
    | ok _ => cases hdone
    | error cause =>
      cases hdone
      exact .preFailed (hs.trans hkeeps)
  rintro ⟨⟩ _ s₂ ⟨hkeeps₂, done, rfl, hdone⟩
  obtain rfl := eq_ok_of_mapError hdone.symm
  have hs₂ := hs.trans hkeeps₂
  refine (shows_plan spares enabled hs₂.ready).bind ?_ ?_
  · rintro e _ s₃ ⟨hkeeps, visits, report, rfl, hreport, hresult⟩
    split at hresult
    · cases hresult
    · next hfailed =>
      cases hresult
      exact .planFailed (hs₂.trans hkeeps) hreport (Bool.not_eq_true _ ▸ hfailed)
  rintro report _ s₃ ⟨hkeeps₃, visits, report', rfl, hreport, hresult⟩
  obtain ⟨hsucceeded, rfl⟩ : report'.succeeded ∧ report' = report := by
    split at hresult
    · next h => exact ⟨h, (Except.ok.inj hresult).symm⟩
    · cases hresult
  have hs₃ := hs₂.trans hkeeps₃
  refine (shows_post spares enabled hs₃.ready).bind ?_ ?_
  · rintro e _ s₄ ⟨hkeeps, done, rfl, hdone⟩
    cases done with
    | ok _ => cases hdone
    | error cause =>
      cases hdone
      exact .postFailed (hs₃.trans hkeeps) hreport hsucceeded
  rintro ⟨⟩ _ s₄ ⟨hkeeps₄, done, rfl, hdone⟩
  obtain rfl := eq_ok_of_mapError hdone.symm
  refine (shows_persist reflects hnow (hs₃.trans hkeeps₄) visits hreport hsucceeded).bind ?_ ?_
  · exact fun e events s₅ hstages => hstages
  · intro _ events s₅ hstages
    refine .pure report' ?_
    rw [List.append_nil]
    exact hstages

/-- How enabling or disabling a plugin may go. -/
inductive Switching (plugin : Definition (StateM σ)) (store : MembershipStore (StateM σ))
    (clock : Clock (StateM σ)) (view : FileView σ) (enabled : Bool) (s : σ) :
    List Event → Except Error Report → σ → Prop
  /-- A requirement is not met, and nothing else happens. -/
  | unmet {looks : List Event} {e : Error} {s' : σ} (hkeeps : view.Keeps s s')
      (h : Checked store view plugin.name s (plugin.needs enabled) looks (.error e)) :
      Switching plugin store clock view enabled s looks (.error e) s'
  /-- All requirements are met, and the plugin is changed. -/
  | met {looks events : List Event} {result : Except Error Report} {s' : σ}
      (hmet : Met store view s (plugin.needs enabled) looks)
      (h : Stages plugin store clock view enabled s events result s') :
      Switching plugin store clock view enabled s (looks ++ events) result s'

theorem shows_switch (spares : plugin.Spares view) (reflects : store.Reflects view)
    (hnow : view.IsKeptBy clock.now) (enabled : Bool) (hs : view.ready s) :
    Shows (plugin.switch store clock enabled)
      (plugin.watched.switch (store.watched Event.answer) clock.watched enabled) s
      (Switching plugin store clock view enabled s) := by
  have hneeds : plugin.watched.needs enabled = plugin.needs enabled := by
    cases enabled <;> rfl
  rw [Definition.switch_eq, Definition.switch_eq, hneeds]
  refine (shows_checkRequirements reflects plugin.name _ (.refl hs)).bind ?_ ?_
  · exact fun e looks s' ⟨hkeeps, hchecked⟩ => .unmet hkeeps hchecked
  · rintro ⟨⟩ looks s' ⟨hkeeps, hchecked⟩
    exact (shows_change spares reflects hnow enabled hkeeps).imp fun events result s'' hstages =>
      .met hchecked.met_of_ok hstages

end

end Converge.Plugin
