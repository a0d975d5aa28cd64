import Converge.Proofs.Rollout
/-!
# Hindered applies

At a hindered site applies meet errors before one gets through, and pauses are counted.  All else
is as at the site itself.  Main statement: a rollout whose first apply succeeds goes just the same
way at a hindered site, if the errors are worth other attempts and these are left
(`Rollout.exec_run_hindered`).
-/

namespace Converge

open Simulation (Call)

variable {σ α β : Type}

/-! ## Hindered sites -/

/-- The errors that applies meet before one gets through, and the nanoseconds paused so far. -/
structure Hindrance where
  errors : List Error
  slept : Nat

namespace Hindrance

/-- An action beside a hindrance. -/
def beside (action : StateM σ α) : StateM (σ × Hindrance) α := fun state =>
  let result := action.run state.1
  (result.1, (result.2, state.2))

/-- A call beside a hindrance. -/
def passed (action : ExceptT Error (StateM σ) α) : ExceptT Error (StateM (σ × Hindrance)) α :=
  ExceptT.mk (beside action.run)

/-- A call that meets the next error, or gets through if there is none. -/
def met (action : ExceptT Error (StateM σ) α) : ExceptT Error (StateM (σ × Hindrance)) α :=
  ExceptT.mk fun state =>
    match state.2.errors with
    | [] => (beside action.run).run state
    | e :: rest => (.error e, (state.1, { state.2 with errors := rest }))

/-- A pause that is counted while the world stands still, up to the longest sleep. -/
def paused (longest span : Duration) : StateM (σ × Hindrance) Unit := fun state =>
  (⟨⟩, (state.1, { state.2 with
    slept := state.2.slept + min span.nanoseconds longest.nanoseconds }))

end Hindrance

open Hindrance (beside passed met paused)

/-- A controller beside a hindrance. -/
def Controller.hindered (controller : Controller (StateM σ)) :
    Controller (StateM (σ × Hindrance)) where
  application model name := passed (controller.application model name)
  addUnit model name machine := passed (controller.addUnit model name machine)
  removeUnit model name unit := passed (controller.removeUnit model name unit)
  awaitStatus model names statuses timeout :=
    passed (controller.awaitStatus model names statuses timeout)
  awaitReady model name timeout := passed (controller.awaitReady model name timeout)
  latestRevision model charm channel := passed (controller.latestRevision model charm channel)
  modelStatus model := passed (controller.modelStatus model)

/-- A store beside a hindrance. -/
def MembershipStore.hindered (store : MembershipStore (StateM σ)) :
    MembershipStore (StateM (σ × Hindrance)) where
  nodes := passed store.nodes
  record key := passed (store.record key)
  setRecord key record := passed (store.setRecord key record)

/-- A site whose applies are hindered, with a clock that sleeps no longer than `longest` at a
time. -/
def Site.hindered (site : Site (StateM σ)) (longest : Duration) :
    Site (StateM (σ × Hindrance)) where
  controller := site.controller.hindered
  infra := { init config := passed (site.infra.init config)
             apply config inputs := met (site.infra.apply config inputs) }
  store := site.store.hindered
  clock := { sleep := paused longest, now := beside site.clock.now }

/-! ## Actions that are not hindered -/

/-- Beside a hindrance an action does the same and is answered in the same way. -/
def Unhindered (watched : ExceptT Error (StateM (σ × List Answer)) α)
    (hindered : ExceptT Error (StateM ((σ × Hindrance) × List Answer)) α) : Prop :=
  ∀ s, ∃ result s' answers,
    (∀ noted, exec watched (s, noted) = (result, (s', noted ++ answers))) ∧
    ∀ hindrance noted,
      exec hindered ((s, hindrance), noted) = (result, ((s', hindrance), noted ++ answers))

namespace Unhindered

variable {watched : ExceptT Error (StateM (σ × List Answer)) α}
  {hindered : ExceptT Error (StateM ((σ × Hindrance) × List Answer)) α}

theorem pure (a : α) : Unhindered (Pure.pure a : ExceptT Error (StateM (σ × List Answer)) α)
    (Pure.pure a) := fun s =>
  ⟨.ok a, s, [], fun noted => by rw [List.append_nil]; rfl,
    fun hindrance noted => by rw [List.append_nil]; rfl⟩

theorem passed (call : Call) (given : α → Given) (action : ExceptT Error (StateM σ) α) :
    Unhindered (Answer.noting id call given action)
      (Answer.noting id call given (Hindrance.passed action)) := fun s =>
  ⟨(exec action s).1, (exec action s).2, [⟨call, (exec action s).1.map given⟩], fun _ => rfl,
    fun _ _ => rfl⟩

theorem bind (h : Unhindered watched hindered)
    {next : α → ExceptT Error (StateM (σ × List Answer)) β}
    {next' : α → ExceptT Error (StateM ((σ × Hindrance) × List Answer)) β}
    (hnext : ∀ a, Unhindered (next a) (next' a)) :
    Unhindered (watched >>= next) (hindered >>= next') := by
  intro s
  obtain ⟨result, s₁, before, hwatched, hhindered⟩ := h s
  cases result with
  | error e =>
    exact ⟨.error e, s₁, before, fun noted => exec_bind_error (hwatched noted) _,
      fun hindrance noted => exec_bind_error (hhindered hindrance noted) _⟩
  | ok a =>
    obtain ⟨result, s₂, after, hwatched', hhindered'⟩ := hnext a s₁
    refine ⟨result, s₂, before ++ after, fun noted => ?_, fun hindrance noted => ?_⟩
    · rw [exec_bind_ok (hwatched noted), hwatched', List.append_assoc]
    · rw [exec_bind_ok (hhindered hindrance noted), hhindered', List.append_assoc]

theorem absentAsNone (h : Unhindered watched hindered) (kind : ErrorKind) :
    Unhindered (Converge.absentAsNone kind watched) (Converge.absentAsNone kind hindered) := by
  intro s
  obtain ⟨result, s', answers, hwatched, hhindered⟩ := h s
  cases result with
  | error e =>
    exact ⟨_, s', answers, fun noted => exec_absentAsNone_error (hwatched noted) kind,
      fun hindrance noted => exec_absentAsNone_error (hhindered hindrance noted) kind⟩
  | ok a =>
    exact ⟨_, s', answers, fun noted => exec_absentAsNone_ok (hwatched noted) kind,
      fun hindrance noted => exec_absentAsNone_ok (hhindered hindrance noted) kind⟩

/-- What is answered does not depend on what was noted before. -/
theorem exec_eq (h : Unhindered watched hindered) {s s' : σ} {result : Except Error α}
    {noted answers : List Answer}
    (hrun : exec watched (s, noted) = (result, (s', noted ++ answers))) (hindrance : Hindrance)
    (noted' : List Answer) :
    exec hindered ((s, hindrance), noted') = (result, ((s', hindrance), noted' ++ answers)) := by
  obtain ⟨result', s₁, answers', hwatched, hhindered⟩ := h s
  rw [hwatched noted] at hrun
  obtain ⟨rfl, rfl, happend⟩ : result' = result ∧ s₁ = s' ∧
      noted ++ answers' = noted ++ answers := by
    simpa only [Prod.mk.injEq] using hrun
  obtain rfl := List.append_cancel_left happend
  exact hhindered hindrance noted'

end Unhindered

/-! ## Attempts -/

section

variable {policy : RetryPolicy} {s s' s₁ : σ} {a : α} {e : Error}

/-- An attempt that succeeds is the last. -/
theorem exec_attempt_ok {action : ExceptT Error (StateM σ) α} (h : exec action s = (.ok a, s'))
    (clock : Clock (StateM σ)) (more : Nat) :
    exec (policy.attempt clock action more) s = (.ok a, s') := by
  cases more with
  | zero => exact h
  | succ more => exact exec_tryCatch_ok h _

/-- An error that is worth another attempt is followed by a pause, if there is to be one, and by the
attempts that are left. -/
theorem exec_attempt_again {clock : Clock (StateM σ)} {action : ExceptT Error (StateM σ) α}
    (h : exec action s = (.error e, s₁)) (hretryable : policy.isRetryable e.kind)
    (hsleep : policy.pause ≠ .zero → (clock.sleep policy.pause).run s₁ = (⟨⟩, s'))
    (hnone : policy.pause = .zero → s₁ = s') (more : Nat) :
    exec (policy.attempt clock action (more + 1)) s =
      exec (policy.attempt clock action more) s' := by
  rw [RetryPolicy.attempt, exec_tryCatch_error h, if_pos hretryable]
  by_cases hpause : policy.pause = .zero
  · simp only [hpause, ne_eq, not_true_eq_false, if_false]
    rw [hnone hpause]
  · have hlift : exec (liftM (clock.sleep policy.pause) : ExceptT Error (StateM σ) Unit) s₁ =
        (.ok ⟨⟩, s') := by
      show (Except.ok ((clock.sleep policy.pause).run s₁).1,
        ((clock.sleep policy.pause).run s₁).2) = _
      rw [hsleep hpause]
    simp only [ne_eq, hpause, not_false_eq_true, if_true]
    rw [exec_bind_ok hlift]

/-- What the first attempt comes to is the first answer, and a success is the last. -/
theorem shows_first_attempt (policy : RetryPolicy) (clock : Clock (StateM σ)) (call : Call)
    (action : ExceptT Error (StateM σ) Unit) (more : Nat) (s : σ) :
    Shows (policy.attempt clock action more)
      (policy.attempt clock.watched (Answer.noting id call (fun _ => .nothing) action) more) s
      fun answers result s' => ∃ first s₁ rest, exec action s = (first, s₁) ∧
        answers = ⟨call, first.map fun _ => .nothing⟩ :: rest ∧
          ∀ a, first = .ok a → rest = [] ∧ result = .ok a ∧ s' = s₁ := by
  have htry : ∀ s, Shows action (Answer.noting id call (fun _ => .nothing) action) s
      fun answers result s' => answers = [⟨call, result.map fun _ => .nothing⟩] ∧
        exec action s = (result, s') := fun s => .call id call _ action fun _ _ hrun => ⟨rfl, hrun⟩
  have hsleep : policy.pause ≠ .zero → ∀ s,
      Shows (liftM (clock.sleep policy.pause) : ExceptT Error (StateM σ) Unit)
        (liftM (clock.watched.sleep policy.pause)) s fun (_ : List Answer) result _ =>
          result = .ok ⟨⟩ ∧ True := fun _ s => .unnoted _ ⟨rfl, trivial⟩
  apply Shows.attempt htry hsleep (fun _ _ => trivial)
  · rintro more s _ a s' ⟨rfl, hrun⟩
    exact ⟨_, s', [], hrun, rfl, fun _ heq => ⟨rfl, heq, rfl⟩⟩
  · rintro more s _ e s' ⟨rfl, hrun⟩ -
    exact ⟨_, s', [], hrun, rfl, nofun⟩
  · rintro more s _ e s₁ between s₂ after result s₃ ⟨rfl, hrun⟩ - - -
    exact ⟨_, s₁, between ++ after, hrun, rfl, nofun⟩

end

section

variable {site : Site (StateM σ)} {policy : RetryPolicy} {longest : Duration} {config : String}
  {inputs : Record} {s s' : σ}

/-- A clock sleeps for as long as it is told to, but no longer than `longest` at a time.  Of its
state nothing matters but the nanoseconds that have gone by. -/
def Clock.SleepsUpTo (clock : Clock (StateM σ)) (elapsed : σ → Nat) (longest : Duration) : Prop :=
  ∀ span s, elapsed ((clock.sleep span).run s).2 =
    elapsed s + min span.nanoseconds longest.nanoseconds

/-- The nanoseconds that a pause takes of a clock that sleeps no longer than `longest` at a time. -/
def RetryPolicy.pauseUpTo (policy : RetryPolicy) (longest : Duration) : Nat :=
  min policy.pause.nanoseconds longest.nanoseconds

theorem RetryPolicy.pauseUpTo_of_zero (h : policy.pause = .zero) (longest : Duration) :
    policy.pauseUpTo longest = 0 := by
  rw [pauseUpTo, h]
  exact Nat.zero_min _

/-- An apply that would succeed does so after the errors in front of it. -/
theorem exec_attempt_hindered (happly : exec (site.infra.apply config inputs) s = (.ok ⟨⟩, s'))
    {errors : List Error} (hretryable : ∀ e ∈ errors, policy.isRetryable e.kind) {more : Nat}
    (hmore : errors.length ≤ more) (slept : Nat) (noted : List Answer) :
    exec (policy.attempt ((site.hindered longest).watched id).clock
        (((site.hindered longest).watched id).infra.apply config inputs) more)
        ((s, ⟨errors, slept⟩), noted) =
      (.ok ⟨⟩, ((s', ⟨[], slept + errors.length * policy.pauseUpTo longest⟩),
        noted ++ (errors.map (fun e => ⟨.apply config inputs, .error e⟩) ++
          [⟨.apply config inputs, .ok .nothing⟩]))) := by
  induction errors generalizing more slept noted with
  | nil =>
    have hmet : exec (met (site.infra.apply config inputs)) (s, ⟨[], slept⟩) =
        (.ok ⟨⟩, (s', ⟨[], slept⟩)) := by
      show ((exec (site.infra.apply config inputs) s).1,
        ((exec (site.infra.apply config inputs) s).2, _)) = _
      rw [happly]
    have hnoted := Answer.exec_noting id (.apply config inputs) (fun _ => Given.nothing) hmet noted
    refine (exec_attempt_ok hnoted _ more).trans ?_
    rw [List.length_nil, Nat.zero_mul, Nat.add_zero]
    rfl
  | cons e errors ih =>
    obtain ⟨hfirst, hrest⟩ := List.forall_mem_cons.1 hretryable
    obtain ⟨more, rfl⟩ : ∃ k, more = k + 1 := Nat.exists_eq_add_one_of_ne_zero
      (Nat.ne_of_gt (Nat.lt_of_lt_of_le (Nat.succ_pos _) hmore))
    have hmet : exec (met (site.infra.apply config inputs)) (s, ⟨e :: errors, slept⟩) =
        (.error e, (s, ⟨errors, slept⟩)) := rfl
    have hnoted := Answer.exec_noting id (.apply config inputs) (fun _ => Given.nothing) hmet noted
    have hsleep : policy.pause ≠ .zero →
        (((site.hindered longest).watched id).clock.sleep policy.pause).run
          ((s, ⟨errors, slept⟩), noted ++ [⟨.apply config inputs, .error e⟩]) =
          (⟨⟩, ((s, ⟨errors, slept + policy.pauseUpTo longest⟩),
            noted ++ [⟨.apply config inputs, .error e⟩])) := fun _ => rfl
    have hnone : policy.pause = .zero →
        ((s, Hindrance.mk errors slept), noted ++ [⟨.apply config inputs, .error e⟩]) =
          ((s, ⟨errors, slept + policy.pauseUpTo longest⟩),
            noted ++ [⟨.apply config inputs, .error e⟩]) := fun hpause => by
      rw [RetryPolicy.pauseUpTo_of_zero hpause, Nat.add_zero]
    refine (exec_attempt_again hnoted hfirst hsleep hnone more).trans
      ((ih hrest (Nat.le_of_succ_le_succ hmore) _ _).trans ?_)
    rw [List.length_cons, Nat.succ_mul, Nat.add_assoc, Nat.add_comm (policy.pauseUpTo longest),
      List.append_assoc]
    rfl

end

/-! ## Rollouts -/

namespace Rollout

variable {site : Site (StateM σ)} {longest : Duration}

theorem Inputs.unhindered (source : Inputs) (longest : Duration) :
    Unhindered (source.find (site.watched id))
      (source.find ((site.hindered longest).watched id)) := by
  cases source with
  | given inputs => exact .pure inputs
  | observed task =>
    refine Unhindered.bind (.absentAsNone (.passed _ _ _) _) fun found => ?_
    cases found with
    | some app => exact .pure _
    | none => exact .pure _

theorem Sequel.unhindered (sequel : Sequel) (longest : Duration) :
    Unhindered (sequel.await (site.watched id))
      (sequel.await ((site.hindered longest).watched id)) := by
  cases sequel with
  | nothing => exact .pure _
  | settled wait => exact .passed _ _ _
  | ready model name timeout => exact .passed _ _ _

theorem unhindered_rest (site : Site (StateM σ)) (longest : Duration) (rollout : Rollout) :
    Unhindered
      (do rollout.sequel.await (site.watched id); return rollout.outcome)
      (do rollout.sequel.await ((site.hindered longest).watched id); return rollout.outcome) :=
  (rollout.sequel.unhindered longest).bind fun _ => .pure _

/-- A rollout whose first attempt succeeds has found its inputs, and goes on to wait. -/
theorem exec_run_applied (rollout : Rollout) {s s' : σ} {result : Except Error Outcome}
    {before after : List Answer} {call : Call} {given : Given}
    (hrun : exec (rollout.run (site.watched id)) (s, []) =
      (result, (s', before ++ ⟨call, .ok given⟩ :: after)))
    (hbefore : before.map (·.call) = rollout.inputs.calls) :
    ∃ inputs s₁ s₂, exec (rollout.inputs.find (site.watched id)) (s, []) =
        (.ok inputs, (s₁, before)) ∧
      call = .apply rollout.config inputs ∧ given = .nothing ∧
      exec (site.infra.apply rollout.config inputs) s₁ = (.ok ⟨⟩, s₂) ∧
      exec (do rollout.sequel.await (site.watched id); return rollout.outcome)
        (s₂, before ++ [⟨call, .ok given⟩]) =
        (result, (s', (before ++ [⟨call, .ok given⟩]) ++ after)) := by
  obtain ⟨found, s₁, looks, -, hfind, hcalls, -⟩ := rollout.inputs.shows_find s []
  have hlooks : looks.length = before.length := by
    rw [← hbefore] at hcalls
    simpa only [List.length_map] using congrArg List.length hcalls
  unfold run at hrun
  cases found with
  | error e =>
    -- nothing was applied
    rw [exec_bind_error hfind] at hrun
    obtain rfl : looks = before ++ _ := congrArg (fun ended => ended.2.2) hrun
    rw [List.length_append, List.length_cons] at hlooks
    omega
  | ok inputs =>
    rw [exec_bind_ok hfind, List.nil_append] at hrun
    obtain ⟨tried, s₂, tries, -, htries, first, s₂', rest, happly, rfl, hdone⟩ :=
      shows_first_attempt rollout.retry site.clock (.apply rollout.config inputs)
        (site.infra.apply rollout.config inputs) (rollout.retry.maxAttempts - 1) s₁ looks
    have htries' : exec (Task.applyConfig (site.watched id) rollout.retry rollout.config inputs)
      (s₁, looks) = _ := htries
    obtain ⟨ended, s₃, waits, hended, -⟩ := unhindered_rest site .zero rollout s₂
    -- the first attempt is answered right after the looks, so it has succeeded
    have hattempt : ∃ more, looks ++
        ⟨.apply rollout.config inputs, first.map fun _ => .nothing⟩ :: more =
          before ++ ⟨call, .ok given⟩ :: after := by
      cases tried with
      | error e =>
        rw [exec_bind_error htries'] at hrun
        exact ⟨rest, congrArg (fun ended => ended.2.2) hrun⟩
      | ok a =>
        rw [exec_bind_ok htries', hended] at hrun
        refine ⟨rest ++ waits, Eq.trans ?_ (congrArg (fun ended => ended.2.2) hrun)⟩
        rw [List.append_assoc]
        rfl
    obtain ⟨more, hmore⟩ := hattempt
    obtain ⟨rfl, hfirst⟩ := List.append_inj hmore hlooks
    cases first with
    | error e => cases hfirst
    | ok a =>
      obtain ⟨rfl, rfl, rfl⟩ := hdone a rfl
      cases hfirst
      rw [exec_bind_ok htries'] at hrun
      refine ⟨inputs, s₁, s₂, hfind, rfl, rfl, happly, ?_⟩
      rw [List.append_assoc]
      exact hrun

/-- If the first attempt of a rollout succeeds, errors that are tried again after change nothing but
the attempts and the time. -/
theorem exec_run_hindered (rollout : Rollout) {s s' : σ} {result : Except Error Outcome}
    {before after : List Answer} {call : Call} {given : Given}
    (hrun : exec (rollout.run (site.watched id)) (s, []) =
      (result, (s', before ++ ⟨call, .ok given⟩ :: after)))
    (hbefore : before.map (·.call) = rollout.inputs.calls) {errors : List Error}
    (hretryable : ∀ e ∈ errors, rollout.retry.isRetryable e.kind)
    (hlength : errors.length < max 1 rollout.retry.maxAttempts) :
    exec (rollout.run ((site.hindered longest).watched id)) ((s, ⟨errors, 0⟩), []) =
      (result, ((s', ⟨[], errors.length * rollout.retry.pauseUpTo longest⟩),
        before ++ (errors.map (fun e => ⟨call, .error e⟩) ++ ⟨call, .ok given⟩ :: after))) := by
  obtain ⟨inputs, s₁, s₂, hfind, rfl, rfl, happly, hrest⟩ :=
    rollout.exec_run_applied hrun hbefore
  have hfound := (rollout.inputs.unhindered longest).exec_eq hfind ⟨errors, 0⟩ []
  have happlied : exec (Task.applyConfig ((site.hindered longest).watched id) rollout.retry
      rollout.config inputs) ((s₁, ⟨errors, 0⟩), before) = _ :=
    exec_attempt_hindered happly hretryable
      (show errors.length ≤ rollout.retry.maxAttempts - 1 by omega) 0 before
  unfold run
  rw [exec_bind_ok hfound, List.nil_append, exec_bind_ok happlied,
    (unhindered_rest site longest rollout).exec_eq hrest, Nat.zero_add, List.append_assoc,
    List.append_assoc]
  rfl

end Rollout

end Converge
