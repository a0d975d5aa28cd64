import Converge.Proofs.Hindrance
import Converge.Proofs.SimulatedStore
/-!
# What is tried again

Of the calls that a run makes, only the apply of a configuration is made again.  `Retried` says how
often and after which errors, and a hindered site (`Site.hindered`) lets applies meet errors before
one gets through.  Main statement: errors that are tried again after change nothing about a run but
the attempts themselves and the time that it takes (`FleetTask.retries_only_apply`).
-/

namespace Converge

open Simulation (Call World)

variable {σ τ α β : Type}

/-- Whether a call waits. -/
def Simulation.Call.isWait : Call → Bool
  | .awaitStatus .. | .awaitReady .. => true
  | _ => false

/-! ## Attempts -/

/-- The calls before and after an apply are made once. -/
structure CalledOnce (before after : List Answer) : Prop where
  not_isApply : ∀ answer ∈ before ++ after, answer.call.isApply = false
  /-- Nothing is called twice, with whatever arguments. -/
  nodup : ((before ++ after).map (·.call.method)).Nodup
  not_isWait : ∀ answer ∈ before, answer.call.isWait = false

/-- The attempts of an apply, and the calls before and after them. -/
structure Retried (policy : RetryPolicy) (before tries after : List Answer) : Prop
    extends CalledOnce before after where
  /-- Every attempt applies the same configuration with the same inputs. -/
  call_eq : ∃ config inputs, ∀ answer ∈ tries, answer.call = .apply config inputs
  length_le : tries.length ≤ max 1 policy.maxAttempts
  /-- Every attempt but the last met an error that is worth another one. -/
  again : ∀ answer ∈ tries.dropLast, ∃ e, answer.result = .error e ∧ policy.isRetryable e.kind
  /-- The last attempt succeeded, or its error is not worth another one, or none was left. -/
  last : ∀ answer ∈ tries.getLast?, (∃ given, answer.result = .ok given) ∨
    ∃ e, answer.result = .error e ∧
      (policy.isRetryable e.kind = false ∨ tries.length = max 1 policy.maxAttempts)
  /-- What follows the attempts follows a success. -/
  applied : after ≠ [] → ∃ answer ∈ tries.getLast?, ∃ given, answer.result = .ok given

namespace Attempts

variable {policy : RetryPolicy} {call : Call} {more : Nat} {answers : List Answer}
  {result : Except Error Unit}

/-- The attempts but the last are errors that are worth another one. -/
theorem exists_errors (h : Attempts policy call more answers result) : ∃ errors : List Error,
    answers = errors.map (fun e => ⟨call, .error e⟩) ++ [⟨call, result.map fun _ => .nothing⟩] ∧
      (∀ e ∈ errors, policy.isRetryable e.kind) ∧ errors.length ≤ more ∧
      ∀ e, result = .error e → errors.length = more ∨ policy.isRetryable e.kind = false := by
  induction h with
  | done => exact ⟨[], rfl, nofun, Nat.zero_le _, nofun⟩
  | @ended more e h =>
    refine ⟨[], rfl, nofun, Nat.zero_le _, ?_⟩
    rintro _ ⟨⟩
    exact h.imp Eq.symm id
  | @again more e answers result h rest ih =>
    obtain ⟨errors, rfl, herrors, hlength, hlast⟩ := ih
    refine ⟨e :: errors, rfl, List.forall_mem_cons.2 ⟨h, herrors⟩, Nat.succ_le_succ hlength, ?_⟩
    intro e' he'
    rw [List.length_cons, Nat.add_right_cancel_iff]
    exact hlast e' he'

theorem retried {before after : List Answer} {config : String} {inputs : Record}
    (h : Attempts policy (.apply config inputs) (policy.maxAttempts - 1) answers result)
    (honce : CalledOnce before after) (hafter : after ≠ [] → result = .ok ⟨⟩) :
    Retried policy before answers after := by
  obtain ⟨errors, hanswers, herrors, hlength, hlast⟩ := h.exists_errors
  have hcount : answers.length = errors.length + 1 := by
    rw [hanswers, List.length_append, List.length_map, List.length_singleton]
  have hgetLast : answers.getLast? = some ⟨.apply config inputs, result.map fun _ => .nothing⟩ := by
    rw [hanswers, List.getLast?_concat]
  refine ⟨honce, ⟨config, inputs, h.call_eq⟩, by omega, ?_, ?_, fun hne => ?_⟩
  · rw [hanswers, List.dropLast_concat]
    intro answer hmem
    obtain ⟨e, he, rfl⟩ := List.mem_map.1 hmem
    exact ⟨e, rfl, herrors e he⟩
  · rw [hgetLast]
    rintro _ ⟨⟩
    cases result with
    | ok a => exact .inl ⟨_, rfl⟩
    | error e =>
      refine .inr ⟨e, rfl, (hlast e rfl).symm.imp_right fun hmore => ?_⟩
      omega
  · rw [hgetLast, hafter hne]
    exact ⟨_, rfl, _, rfl⟩

end Attempts

namespace Rollout

theorem calledOnce (source : Inputs) (sequel : Sequel) {before after : List Answer}
    (hbefore : before.map (·.call) = source.calls)
    (hafter : (after.map (·.call)).Sublist sequel.calls) : CalledOnce before after := by
  have hcalls : ((before ++ after).map (·.call)).Sublist (source.calls ++ sequel.calls) := by
    rw [List.map_append, hbefore]
    exact hafter.append_left _
  constructor
  · intro answer hmem
    have hnone : ∀ call ∈ source.calls ++ sequel.calls, call.isApply = false := by
      cases source <;> cases sequel <;> simp [Inputs.calls, Sequel.calls, Call.isApply]
    exact hnone _ (hcalls.subset (List.mem_map_of_mem hmem))
  · have hnodup : ((source.calls ++ sequel.calls).map Call.method).Nodup := by
      cases source <;> cases sequel <;> simp [Inputs.calls, Sequel.calls, Call.method]
    have hmethods := hnodup.sublist (hcalls.map Call.method)
    rwa [List.map_map] at hmethods
  · intro answer hmem
    have hnone : ∀ call ∈ source.calls, call.isWait = false := by
      cases source <;> simp [Inputs.calls, Call.isWait]
    exact hnone _ (hbefore ▸ List.mem_map_of_mem hmem)

theorem Ends.retried {rollout : Rollout} {answers : List Answer} {result : Except Error Outcome}
    (h : rollout.Ends answers result) : ∃ before tries after,
      answers = before ++ (tries ++ after) ∧ before.map (·.call) = rollout.inputs.calls ∧
        Retried rollout.retry before tries after := by
  cases h with
  | unseen hbefore =>
    refine ⟨answers, [], [], by rw [List.append_nil, List.append_nil], hbefore, ?_⟩
    exact ⟨calledOnce _ rollout.sequel hbefore (List.nil_sublist _), ⟨"", .empty, by simp⟩,
      Nat.zero_le _, by simp, by simp, fun hne => absurd rfl hne⟩
  | @unapplied before tries _ _ hbefore _ htries =>
    refine ⟨before, tries, [], by rw [List.append_nil], hbefore,
      htries.retried ?_ fun hne => absurd rfl hne⟩
    exact calledOnce _ rollout.sequel hbefore (List.nil_sublist _)
  | @applied before tries after _ waited hbefore _ htries hafter =>
    refine ⟨before, tries, after, rfl, hbefore, htries.retried ?_ fun _ => rfl⟩
    exact calledOnce _ rollout.sequel hbefore (hafter ▸ List.Sublist.refl _)

end Rollout

/-! ## Time -/

/-- Time passes in sleep, and in no call of a rollout. -/
structure Site.Timed (site : Site (StateM σ)) (elapsed : σ → Nat) (longest : Duration) : Prop where
  sleep : site.clock.SleepsUpTo elapsed longest
  application : ∀ model name, Preserves elapsed (site.controller.application model name)
  apply : ∀ config inputs, Preserves elapsed (site.infra.apply config inputs)
  awaitStatus : ∀ model names statuses timeout,
    Preserves elapsed (site.controller.awaitStatus model names statuses timeout)
  awaitReady : ∀ model name timeout,
    Preserves elapsed (site.controller.awaitReady model name timeout)

/-- How many answers there are to an apply. -/
def applies (answers : List Answer) : Nat :=
  answers.countP (·.call.isApply)

@[simp] theorem applies_append (before after : List Answer) :
    applies (before ++ after) = applies before + applies after :=
  List.countP_append

theorem applies_eq_countP {answers : List Answer} {calls : List Call}
    (h : answers.map (·.call) = calls) : applies answers = calls.countP (·.isApply) := by
  rw [← h, List.countP_map]
  rfl

theorem Retried.applies_eq {policy : RetryPolicy} {before tries after : List Answer}
    (h : Retried policy before tries after) :
    applies (before ++ (tries ++ after)) = tries.length := by
  obtain ⟨config, inputs, hcall⟩ := h.call_eq
  have hbefore : applies before = 0 := List.countP_eq_zero.2 fun answer hmem => by
    simp [h.not_isApply answer (List.mem_append_left _ hmem)]
  have hafter : applies after = 0 := List.countP_eq_zero.2 fun answer hmem => by
    simp [h.not_isApply answer (List.mem_append_right _ hmem)]
  have htries : applies tries = tries.length := List.countP_eq_length.2 fun answer hmem => by
    rw [hcall answer hmem]
    rfl
  rw [applies_append, applies_append, hbefore, hafter, htries]
  omega

section

variable {site : Site (StateM σ)} {elapsed : σ → Nat} {longest : Duration}

/-- Time passes between attempts only. -/
theorem Site.Timed.shows_attempt (timed : site.Timed elapsed longest) (policy : RetryPolicy)
    (config : String) (inputs : Record) (more : Nat) (s : σ) :
    Shows (policy.attempt site.clock (site.infra.apply config inputs) more)
      (policy.attempt (site.watched id).clock ((site.watched id).infra.apply config inputs) more) s
      fun answers _ s' => 1 ≤ applies answers ∧
        elapsed s' = elapsed s + (applies answers - 1) * policy.pauseUpTo longest := by
  have htry : ∀ s, Shows (site.infra.apply config inputs)
      ((site.watched id).infra.apply config inputs) s fun answers _ s' =>
        applies answers = 1 ∧ elapsed s' = elapsed s := fun s =>
    .call id _ _ _ fun result s' hrun => ⟨rfl, (timed.apply config inputs).seen_eq hrun⟩
  have hsleep : policy.pause ≠ .zero → ∀ s,
      Shows (liftM (site.clock.sleep policy.pause) : ExceptT Error (StateM σ) Unit)
        (liftM ((site.watched id).clock.sleep policy.pause)) s
        fun (answers : List Answer) result s' => result = .ok ⟨⟩ ∧
          (applies answers = 0 ∧ elapsed s' = elapsed s + policy.pauseUpTo longest) := fun _ s =>
    .unnoted _ ⟨rfl, rfl, timed.sleep policy.pause s⟩
  have hnone : policy.pause = .zero → ∀ s,
      applies [] = 0 ∧ elapsed s = elapsed s + policy.pauseUpTo longest := fun hpause s => by
    rw [RetryPolicy.pauseUpTo_of_zero hpause]
    exact ⟨rfl, rfl⟩
  apply Shows.attempt htry hsleep hnone
  · rintro more s answers a s' ⟨hone, htime⟩
    rw [hone, htime]
    exact ⟨Nat.le_refl 1, by omega⟩
  · rintro more s answers e s' ⟨hone, htime⟩ -
    rw [hone, htime]
    exact ⟨Nat.le_refl 1, by omega⟩
  · rintro more s before e s₁ between s₂ after result s₃ ⟨hone, htime⟩ - ⟨hzero, hpaused⟩
      ⟨hsome, hrest⟩
    obtain ⟨k, hk⟩ := Nat.exists_eq_add_of_le hsome
    have happlies : applies (before ++ (between ++ after)) - 1 = k + 1 := by
      rw [applies_append, applies_append]
      omega
    have hpauses : applies after - 1 = k := by omega
    rw [happlies, hrest, hpauses, hpaused, htime, Nat.succ_mul]
    exact ⟨by omega, by omega⟩

namespace Rollout

theorem Inputs.preserves_find (timed : site.Timed elapsed longest) (source : Inputs) :
    Preserves elapsed (source.find site) := by
  cases source with
  | given inputs => exact .pure _
  | observed task =>
    refine Preserves.bind ((timed.application _ _).absentAsNone _) fun found => ?_
    cases found with
    | some app => exact .pure _
    | none => exact .pure _

theorem Sequel.preserves_await (timed : site.Timed elapsed longest) (sequel : Sequel) :
    Preserves elapsed (sequel.await site) := by
  cases sequel with
  | nothing => exact .pure _
  | settled wait => exact timed.awaitStatus _ _ _ _
  | ready model name timeout => exact timed.awaitReady _ _ _

theorem Inputs.applies_eq_zero (source : Inputs) {answers : List Answer}
    (h : answers.map (·.call) = source.calls) : applies answers = 0 := by
  rw [applies_eq_countP h]
  cases source <;> rfl

theorem Sequel.applies_eq_zero (sequel : Sequel) {answers : List Answer}
    (h : answers.map (·.call) = sequel.calls) : applies answers = 0 := by
  rw [applies_eq_countP h]
  cases sequel <;> rfl

/-- A rollout takes as long as its pauses. -/
theorem shows_run_time (timed : site.Timed elapsed longest) (rollout : Rollout) (s : σ) :
    Shows (rollout.run site) (rollout.run (site.watched id)) s fun answers _ s' =>
      elapsed s' = elapsed s + (applies answers - 1) * rollout.retry.pauseUpTo longest := by
  unfold run
  refine ((rollout.inputs.shows_find s).preserves
    (rollout.inputs.preserves_find timed)).bind ?_ ?_
  · rintro e before s' ⟨⟨hcalls, -, -⟩, htime⟩
    rw [rollout.inputs.applies_eq_zero hcalls, htime]
    omega
  rintro inputs before s₁ ⟨⟨hcalls, -, -⟩, htime⟩
  have hbefore := rollout.inputs.applies_eq_zero hcalls
  refine (timed.shows_attempt rollout.retry rollout.config inputs _ s₁).bind ?_ ?_
  · rintro e tries s₂ ⟨-, htries⟩
    rw [applies_append, hbefore, Nat.zero_add, htries, htime]
  · rintro _ tries s₂ ⟨-, htries⟩
    refine ((rollout.sequel.shows_await s₂).preserves
      (rollout.sequel.preserves_await timed)).bind ?_ ?_
    · rintro e after s₃ ⟨⟨hcalls, -⟩, hafter⟩
      rw [applies_append, applies_append, hbefore, rollout.sequel.applies_eq_zero hcalls,
        Nat.zero_add, Nat.add_zero, hafter, htries, htime]
    · rintro _ after s₃ ⟨⟨hcalls, -⟩, hafter⟩
      refine .pure _ ?_
      rw [List.append_nil, applies_append, applies_append, hbefore,
        rollout.sequel.applies_eq_zero hcalls, Nat.zero_add, Nat.add_zero, hafter, htries, htime]

end Rollout

end

/-! ## Runs -/

namespace FleetTask

/-- In a run of a task with a policy nothing is tried again but the apply.  If the first apply
succeeds, errors in front of it that are tried again after change nothing but the attempts and the
time. -/
theorem retries_only_apply {site : Site (StateM σ)} {elapsed : σ → Nat} {longest : Duration}
    (timed : site.Timed elapsed longest) {task : FleetTask} {policy : RetryPolicy}
    (hpolicy : task.retry? = some policy) (memory : task.Memory) (s : σ) :
    ∃ outcome memory' s' before tries after,
      ((task.part site .run).run memory).run s = ((outcome, memory'), s') ∧
      ((task.part (site.watched id) .run).run memory).run (s, []) =
        ((outcome, memory'), (s', before ++ (tries ++ after))) ∧
      Retried policy before tries after ∧
      elapsed s' = elapsed s +
        (tries.length - 1) * min policy.pause.nanoseconds longest.nanoseconds ∧
      ∀ call given, tries.head? = some ⟨call, .ok given⟩ →
        ∀ errors : List Error, (∀ e ∈ errors, policy.isRetryable e.kind) →
          errors.length < max 1 policy.maxAttempts →
          ((task.part ((site.hindered longest).watched id) .run).run memory).run
              ((s, ⟨errors, 0⟩), []) =
            ((outcome, memory'),
              ((s', ⟨[], errors.length * min policy.pause.nanoseconds longest.nanoseconds⟩),
                before ++ (errors.map (fun e => ⟨call, .error e⟩) ++ (tries ++ after)))) := by
  obtain ⟨rollout, hrollout, rfl⟩ := Option.map_eq_some_iff.1
    ((task.retry_rollout? memory).trans hpolicy)
  obtain ⟨result, s', answers, hplain, hwatched, hends, htime⟩ :=
    (rollout.shows_run s).and (rollout.shows_run_time timed s) []
  obtain ⟨before, tries, after, rfl, hbefore, hretried⟩ := hends.retried
  rw [hretried.applies_eq] at htime
  refine ⟨_, _, s', before, tries, after, run_of_rollout hrollout hplain,
    run_of_rollout hrollout hwatched, hretried, htime, ?_⟩
  intro call given hfirst errors hretryable hlength
  obtain ⟨rest, rfl⟩ := List.head?_eq_some_iff.1 hfirst
  exact run_of_rollout hrollout (rollout.exec_run_hindered hwatched hbefore hretryable hlength)

end FleetTask

/-! ## Simulated fleets -/

namespace Simulation.World

/-- Time passes in a fleet only in sleep, whatever the faults. -/
theorem timed (file : Membership.FileStore) : (site file).Timed World.slept longestSleep := by
  have hsteady : Steady World.slept := fun _ _ _ => rfl
  exact {
    sleep := fun _ _ => rfl
    application := fun model name =>
      preserves_perform hsteady ((preserves_expect _ model name).bind fun _ => .pure _)
    apply := fun _ _ => preserves_perform hsteady (.pure _)
    awaitStatus := fun _ _ _ _ => preserves_perform hsteady (.pure _)
    awaitReady := fun _ _ _ => preserves_perform hsteady (.pure _) }

end Simulation.World

namespace FleetTask

/-- A task that tries again every minute while the lock is held. -/
def patient : Task.Apply where
  config := "network"
  inputs := .empty
  retry := .stateLock 3 (.ofSeconds 60)

/-- The lock is held twice, and the third attempt gets through after two minutes. -/
theorem retries_only_apply_patient :
    let site := World.site ⟨"/cluster.json"⟩
    let errors := [Error.infraStateLocked "held", Error.infraStateLocked "held"]
    let hindered := (site.hindered World.longestSleep).watched id
    ∃ world answers, ((part hindered .run (.apply patient)).run ⟨⟩).run
        ((World.empty, ⟨errors, 0⟩), []) =
          ((.completed, ⟨⟩), ((world, ⟨[], (Duration.ofSeconds 120).nanoseconds⟩), answers)) ∧
      answers.length = 3 := by
  intro site errors hindered
  have hpolicy : FleetTask.retry? (.apply patient) = some (.stateLock 3 (.ofSeconds 60)) := rfl
  obtain ⟨outcome, memory', world, before, tries, after, -, hwatched, hretried, -, hhindered⟩ :=
    retries_only_apply (World.timed ⟨"/cluster.json"⟩) hpolicy ⟨⟩ World.empty
  -- without errors the only call is one apply
  have hrun : ((part (site.watched id) .run (.apply patient)).run ⟨⟩).run (World.empty, []) =
      ((.completed, ⟨⟩), (_, [⟨.apply "network" .empty, .ok .nothing⟩])) := rfl
  rw [hrun] at hwatched
  obtain ⟨hended, hstate⟩ := Prod.mk.inj hwatched
  obtain ⟨hworld, hanswers⟩ := Prod.mk.inj hstate
  have hone : tries.length = 1 := by
    rw [← hretried.applies_eq, ← hanswers]
    rfl
  obtain ⟨first, rfl⟩ := List.length_eq_one_iff.1 hone
  obtain rfl : first = ⟨.apply "network" .empty, .ok .nothing⟩ := by
    have hmem : first ∈ before ++ ([first] ++ after) := by simp
    rw [← hanswers] at hmem
    exact List.mem_singleton.1 hmem
  have hhindered := hhindered _ _ rfl errors (by decide) (by decide)
  have hslept : errors.length * min (RetryPolicy.stateLock 3 (.ofSeconds 60)).pause.nanoseconds
      World.longestSleep.nanoseconds = (Duration.ofSeconds 120).nanoseconds := by decide +kernel
  rw [← hended, hslept] at hhindered
  refine ⟨world, _, hhindered, ?_⟩
  have hlength := congrArg List.length hanswers
  simp only [List.length_append, List.length_cons, List.length_nil, List.length_map, errors]
    at hlength ⊢
  omega

/-- A pause that is longer than the clock sleeps at a time takes less time than it should. -/
theorem slept_ne_pause :
    let pause := Duration.ofSeconds (World.longestSleep.seconds + 1)
    let task : Task.Apply := { patient with retry := .stateLock 3 pause }
    let world : World := { World.empty with
      faults := Dict.empty.insert "apply" [some (.infraStateLocked "held")] }
    let ended := ((part (World.site ⟨"/cluster.json"⟩) .run (.apply task)).run ⟨⟩).run world
    ended.2.calls.countP (·.isApply) = 2 ∧ ended.2.slept ≠ (2 - 1) * pause.nanoseconds := by
  decide +kernel

end FleetTask

end Converge
