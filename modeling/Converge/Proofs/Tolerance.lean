import Converge.Proofs.Verbatim
import Converge.Task.Apply
import Converge.Task.Deploy
import Converge.Task.Place
import Converge.Task.Refresh
import Converge.Task.Withdraw
/-!
# What the tasks tolerate

Each kind of task goes on after a few kinds of error and stops at every other
(`FleetTask.Tolerates`).  `FleetTask.StopsVerbatim` says how the answers that a check or a run gets
decide how it ends.  Main statements: what the tasks are put together from, an apply under a policy,
a look at a node or an application and a note of a machine, tolerates just that.
-/

namespace Converge

open Simulation (Call)

variable {σ : Type}

/-- A task of any kind. -/
inductive FleetTask where
  | init (task : Task.Init)
  | apply (task : Task.Apply)
  | deploy (task : Task.Deploy)
  | place (task : Task.Place)
  | withdraw (task : Task.Withdraw)
  | refresh (task : Task.Refresh)

/-- The check or the run of a step. -/
def Step.part {m : Type → Type} (step : Step m) : Phase → StateT step.Memory m Outcome
  | .check => step.check
  | .run => step.run

/-- Whether a call applies a configuration. -/
def Simulation.Call.isApply : Call → Bool
  | .apply .. => true
  | _ => false

namespace FleetTask

/-- The step of a task. -/
def step {m : Type → Type} [Monad m] (site : Site m) : FleetTask → Step m
  | .init task => task.step site
  | .apply task => task.step site
  | .deploy task => task.step site
  | .place task => task.step site
  | .withdraw task => task.step site
  | .refresh task => task.step site

/-- What the step of a task remembers. -/
def Memory : FleetTask → Type
  | .init _ | .apply _ | .deploy _ => Unit
  | .place _ => Task.Place.Memory
  | .withdraw _ => Task.Withdraw.Memory
  | .refresh _ => Task.Refresh.Memory

/-- The check or the run of the step of a task. -/
def part {m : Type → Type} [Monad m] (site : Site m) (phase : Phase) :
    (task : FleetTask) → StateT task.Memory m Outcome
  | .init task => (task.step site).part phase
  | .apply task => (task.step site).part phase
  | .deploy task => (task.step site).part phase
  | .place task => (task.step site).part phase
  | .withdraw task => (task.step site).part phase
  | .refresh task => (task.step site).part phase

/-- Whether a task looks its application up. -/
def observes : FleetTask → Bool
  | .deploy _ | .place _ | .withdraw _ => true
  | .init _ | .apply _ | .refresh _ => false

/-- The policy under which a task applies its configuration. -/
def retry? : FleetTask → Option RetryPolicy
  | .apply task => some task.retry
  | .deploy task => some task.retry
  | .refresh task => some task.retry
  | .init _ | .place _ | .withdraw _ => none

/-- Whether a task withdraws a unit. -/
def withdraws : FleetTask → Bool
  | .withdraw _ => true
  | _ => false

/-- The errors that a part of a task goes on after. -/
inductive Tolerates (task : FleetTask) (phase : Phase) (front : List Answer) : Answer → Prop
  /-- There is no node to withdraw a unit from. -/
  | node {e : Error} (htask : task.withdraws) (hphase : phase = .check)
      (hkind : e.kind = .nodeNotFound) : Tolerates task phase front ⟨.nodes, .error e⟩
  /-- The application is not there yet, or no more. -/
  | application {model name : String} {e : Error} (htask : task.observes)
      (hkind : e.kind = .applicationNotFound) :
      Tolerates task phase front ⟨.application model name, .error e⟩
  /-- Nothing is recorded yet. -/
  | record {key : String} {e : Error} (hkind : e.kind = .recordNotFound) :
      Tolerates task phase front ⟨.record key, .error e⟩
  /-- Another attempt is worth while, and there is one left. -/
  | attempt {config : String} {inputs : Record} {e : Error} {policy : RetryPolicy}
      (htask : task.retry? = some policy) (hkind : policy.isRetryable e.kind)
      (hleft : front.countP (·.call.isApply) + 1 < policy.maxAttempts) :
      Tolerates task phase front ⟨.apply config inputs, .error e⟩

/-- A look at the nodes that finds none with the name: it is not listed, or an error says so. -/
inductive NodeMissing (node : String) : List Answer → Prop
  | unlisted {nodes : List Node} (h : ∀ listed ∈ nodes, listed.name ≠ node) :
      NodeMissing node [⟨.nodes, .ok (.nodes nodes)⟩]
  | error {e : Error} (h : e.kind = .nodeNotFound) : NodeMissing node [⟨.nodes, .error e⟩]

/-- How the answers that a part of a task gets decide how it ends. -/
structure StopsVerbatim (task : FleetTask) (phase : Phase) (answers : List Answer)
    (outcome : Outcome) : Prop where
  /-- A failure has the text of the error that came last, unless it tells that the node to place a
  unit on is missing. -/
  cause : outcome.isFailed →
    (∃ front call e, answers = front ++ [⟨call, .error e⟩] ∧ outcome = .failed e.message) ∨
    ∃ place, task = .place place ∧ NodeMissing place.node answers ∧
      outcome = .failed ("machine " ++ place.node ++ " does not exist in cluster database")
  /-- Just the errors that are not tolerated end the part as failed, and nothing is called after
  them. -/
  ends_iff : ∀ front call e after, answers = front ++ ⟨call, .error e⟩ :: after →
    ((after = [] ∧ outcome.isFailed) ↔ ¬ task.Tolerates phase front ⟨call, .error e⟩)
  /-- There is no unit to withdraw from a node that is missing. -/
  skips : ∀ withdraw e, task = .withdraw withdraw → phase = .check →
    ⟨.nodes, .error e⟩ ∈ answers → e.kind = .nodeNotFound →
    outcome = .skipped withdraw.missingMachine

/-! ## What is tolerated -/

section

variable {task : FleetTask} {phase : Phase} {front : List Answer} {e : Error}

theorem tolerates_nodes_iff : task.Tolerates phase front ⟨.nodes, .error e⟩ ↔
    task.withdraws ∧ phase = .check ∧ e.kind = .nodeNotFound :=
  ⟨fun | .node htask hphase hkind => ⟨htask, hphase, hkind⟩,
    fun ⟨htask, hphase, hkind⟩ => .node htask hphase hkind⟩

theorem tolerates_application_iff {model name : String} :
    task.Tolerates phase front ⟨.application model name, .error e⟩ ↔
      task.observes ∧ e.kind = .applicationNotFound :=
  ⟨fun | .application htask hkind => ⟨htask, hkind⟩, fun ⟨htask, hkind⟩ => .application htask hkind⟩

theorem tolerates_record_iff {key : String} :
    task.Tolerates phase front ⟨.record key, .error e⟩ ↔ e.kind = .recordNotFound :=
  ⟨fun | .record hkind => hkind, .record⟩

/-- While a configuration is applied, the errors of the attempts before count. -/
theorem tolerates_apply_iff (before : List Answer) {policy : RetryPolicy}
    (hpolicy : task.retry? = some policy) {config : String} {inputs : Record}
    (hbefore : ∀ answer ∈ before, answer.call.isApply = false)
    (hfront : ∀ answer ∈ front, answer.call = .apply config inputs) :
    Tolerance.after (task.Tolerates phase) before front ⟨.apply config inputs, .error e⟩ ↔
      policy.isRetryable e.kind ∧ front.length + 1 < policy.maxAttempts := by
  have hcount : (before ++ front).countP (·.call.isApply) = front.length := by
    have hnone : before.countP (·.call.isApply) = 0 :=
      List.countP_eq_zero.2 fun answer hmem => by simp [hbefore answer hmem]
    have hall : front.countP (·.call.isApply) = front.length :=
      List.countP_eq_length.2 fun answer hmem => by simp [hfront answer hmem, Call.isApply]
    rw [List.countP_append, hnone, hall, Nat.zero_add]
  rw [Tolerance.after, ← hcount]
  constructor
  · intro h
    cases h with
    | attempt hpolicy' hkind hleft =>
      rw [hpolicy, Option.some.injEq] at hpolicy'
      subst hpolicy'
      exact ⟨hkind, hleft⟩
  · rintro ⟨hkind, hleft⟩
    exact .attempt hpolicy hkind hleft

end

/-! ## Actions of tasks -/

section

variable {site : Site (StateM σ)} {tolerates : Tolerance} {s : σ}

/-- Applying a configuration tolerates what the policy retries. -/
theorem shows_applyConfig (retry : RetryPolicy) (config : String) (inputs : Record) (s : σ)
    (h : ∀ front e, (∀ answer ∈ front, answer.call = .apply config inputs) →
      (tolerates front ⟨.apply config inputs, .error e⟩ ↔
        retry.isRetryable e.kind ∧ front.length + 1 < retry.maxAttempts)) :
    Shows (Task.applyConfig site retry config inputs)
      (Task.applyConfig (site.watched id) retry config inputs) s fun answers result _ =>
        Verbatim tolerates answers result := by
  have hshows := Attempts.shows_attempt retry site.clock (.apply config inputs)
    (site.infra.apply config inputs) (retry.maxAttempts - 1) s
  refine hshows.imp fun answers result _ hattempts =>
    hattempts.verbatim.congr fun front call e after hsplit => ?_
  have hfront : ∀ other ∈ front, other.call = .apply config inputs := fun other hmem =>
    hattempts.call_eq other (by rw [hsplit]; exact List.mem_append_left _ hmem)
  have hcall : (Answer.mk call (.error e)).call = .apply config inputs :=
    hattempts.call_eq _ (by rw [hsplit]; simp)
  have hlt : front.length < retry.maxAttempts - 1 ↔ front.length + 1 < retry.maxAttempts := by
    omega
  subst hcall
  rw [h front e hfront, ← hlt]
  simp [Attempts.Tolerates]

/-- What looking a node up comes to. -/
inductive NodeLook (node : String) : List Answer → Except Error (Option String) → Prop
  | found {nodes : List Node} {machine : String} :
      NodeLook node [⟨.nodes, .ok (.nodes nodes)⟩] (.ok (some machine))
  | missing {answers : List Answer} (h : NodeMissing node answers) :
      NodeLook node answers (.ok none)
  | error {e : Error} (h : e.kind ≠ .nodeNotFound) :
      NodeLook node [⟨.nodes, .error e⟩] (.error e)

theorem shows_findNode (node : String) (s : σ) :
    Shows (site.store.findNode node) ((site.watched id).store.findNode node) s
      fun answers result _ => NodeLook node answers (match result with
        | .ok found => .ok (some found.machine)
        | .error e => if e.kind = .nodeNotFound then .ok none else .error e) := by
  unfold MembershipStore.findNode
  have hcall : Shows site.store.nodes (site.watched id).store.nodes s fun answers result _ =>
      answers = [⟨.nodes, result.map .nodes⟩] := .call id .nodes .nodes _ fun _ _ _ => rfl
  refine hcall.bind ?_ ?_
  · rintro e _ s' rfl
    by_cases hkind : e.kind = .nodeNotFound
    · simp only [if_pos hkind]
      exact .missing (.error hkind)
    · simp only [if_neg hkind]
      exact .error hkind
  · rintro nodes _ s' rfl
    cases hfind : nodes.find? (·.name = node) with
    | some found => exact .pure _ .found
    | none =>
      refine .throw _ (.missing (.unlisted fun listed hmem => ?_))
      simpa using List.find?_eq_none.1 hfind listed hmem

theorem shows_machine? (task : Task.UnitOnNode) (s : σ) :
    Shows (task.machine? site) (task.machine? (site.watched id)) s fun answers result _ =>
      NodeLook task.node answers result := by
  unfold Task.UnitOnNode.machine?
  have hlook : Shows (absentAsNone .nodeNotFound (site.store.findNode task.node))
      (absentAsNone .nodeNotFound ((site.watched id).store.findNode task.node)) s
      fun answers result _ => NodeLook task.node answers (result.map (·.map (·.machine))) := by
    refine (shows_findNode task.node s).absentAsNone (fun _ _ _ h => h) ?_ ?_
    · intro e answers s' h hkind
      have hlook : NodeLook task.node answers
          (if e.kind = .nodeNotFound then .ok none else .error e) := h
      rwa [if_pos hkind] at hlook
    · intro e answers s' h hkind
      have hlook : NodeLook task.node answers
          (if e.kind = .nodeNotFound then .ok none else .error e) := h
      rwa [if_neg hkind] at hlook
  refine hlook.bind (fun _ _ _ h => h) fun found before s' h => .pure _ ?_
  rw [List.append_nil]
  exact h

/-- Looking an application up tolerates that it is not there. -/
theorem shows_observe (site : Site (StateM σ)) (tolerates : Tolerance) (model name : String) (s : σ)
    (h : ∀ e, tolerates [] ⟨.application model name, .error e⟩ ↔ e.kind = .applicationNotFound) :
    Shows (absentAsNone .applicationNotFound (site.controller.application model name))
      (absentAsNone .applicationNotFound ((site.watched id).controller.application model name)) s
      fun answers result _ => Verbatim tolerates answers result ∧
        ∀ answer ∈ answers, answer.call = .application model name :=
  Shows.verbatim_absent h

/-- Noting a machine tolerates that nothing is recorded yet. -/
theorem shows_note (key machine : String) (change : Placement.Change)
    (hrecord : ∀ front e, tolerates front ⟨.record key, .error e⟩ ↔ e.kind = .recordNotFound)
    (hset : ∀ front record e, ¬ tolerates front ⟨.setRecord key record, .error e⟩) :
    Shows (Placement.note site.store key machine change)
      (Placement.note (site.watched id).store key machine change) s fun answers result _ =>
        Verbatim tolerates answers result := by
  have hread : Shows (site.store.recordOrEmpty key) ((site.watched id).store.recordOrEmpty key) s
      fun answers result _ => Verbatim tolerates answers result := by
    unfold MembershipStore.recordOrEmpty
    exact ((Shows.verbatim_absent (hrecord [])).imp fun _ _ _ h => h.1).verbatim_bind
      fun found before s' => .pure _ (.nil _)
  unfold Placement.note
  exact hread.verbatim_bind fun record before s' => .verbatim_call fun e => hset _ _ e

/-- A target is found to be behind without a tolerated error. -/
theorem shows_isBehind (task : Task.Refresh) (status : ModelStatus) (target : Task.Target) (s : σ)
    (h : ∀ front charm channel e,
      ¬ tolerates front ⟨.latestRevision task.model charm channel, .error e⟩) :
    Shows (task.isBehind site status target) (task.isBehind (site.watched id) status target) s
      fun answers result _ => Verbatim tolerates answers result := by
  unfold Task.Refresh.isBehind
  cases hfind : status.applications.find? target.application with
  | none => exact .pure _ (.nil _)
  | some app =>
    by_cases hchannel : channelUpdateNeeded (app.channel.getD "") target.channel
    · simp only [if_pos hchannel]
      exact .pure _ (.nil _)
    · simp only [if_neg hchannel]
      unfold revisionUpdateNeeded
      simp only [hfind]
      cases (Charm.parse app.charm).revision with
      | none => exact .pure _ (.nil _)
      | some deployed =>
        exact Shows.verbatim_bind (.verbatim_call fun e => h [] _ _ e) fun latest before s' =>
          .pure _ (.nil _)

/-- The targets that are behind are found without a tolerated error. -/
theorem shows_behind (tolerates : Tolerance) (task : Task.Refresh) (status : ModelStatus)
    (targets : List Task.Target) (s : σ) (h : ∀ front charm channel e,
      ¬ tolerates front ⟨.latestRevision task.model charm channel, .error e⟩) :
    Shows (task.behind site status targets) (task.behind (site.watched id) status targets) s
      fun answers result _ => Verbatim tolerates answers result := by
  induction targets generalizing s tolerates with
  | nil => exact .pure _ (.nil _)
  | cons target rest ih =>
    unfold Task.Refresh.behind
    refine (shows_isBehind task status target s h).verbatim_bind fun isBehind before s' => ?_
    have hrest := ih (tolerates.after before) s' fun front => h (before ++ front)
    exact hrest.verbatim_bind fun others before' s'' => .pure _ (.nil _)

end

end FleetTask

end Converge
