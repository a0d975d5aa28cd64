import Converge.Proofs.Hindrance
import Converge.Settings.Basic
import Converge.Simulation.World
/-!
# The attempts of a retried action

A tally beside the state counts the attempts of an action, adds up the pauses that are asked for and
keeps the clock that they are asked of.  `Spends` says how many attempts of an action are made in a
state, from what they come to one after the other, and `countUp` is the loop of a policy with a
counter that could overflow.  Main statement: whatever the
action, a policy makes the attempts that `Spends` says, in a loop whose counter does not overflow,
and ends as the last of them does (`retry_spends`).
-/

namespace Converge

open Simulation (World)

variable {σ τ α : Type}

/-! ## Attempts one after the other -/

/-- The state after a number of attempts. -/
def stateAfter (action : ExceptT Error (StateM σ) α) : Nat → σ → σ
  | 0, s => s
  | attempts + 1, s => stateAfter action attempts (exec action s).2

/-- What an attempt comes to when those before it have been made.  They are counted from one. -/
def attemptAt (action : ExceptT Error (StateM σ) α) (attempt : Nat) (s : σ) : Except Error α :=
  (exec action (stateAfter action (attempt - 1) s)).1

section

variable {action : ExceptT Error (StateM σ) α} {s s' : σ} {result : Except Error α}

theorem stateAfter_succ (h : exec action s = (result, s')) (attempts : Nat) :
    stateAfter action (attempts + 1) s = stateAfter action attempts s' := by
  rw [stateAfter, h]

theorem attemptAt_one (h : exec action s = (result, s')) : attemptAt action 1 s = result :=
  congrArg Prod.fst h

/-- The attempts after the first are those of the state that it leaves. -/
theorem attemptAt_succ (h : exec action s = (result, s')) {attempt : Nat} (hpos : 1 ≤ attempt) :
    attemptAt action (attempt + 1) s = attemptAt action attempt s' := by
  obtain ⟨earlier, rfl⟩ := Nat.exists_eq_add_of_le' hpos
  rw [attemptAt, attemptAt, Nat.add_sub_cancel, Nat.add_sub_cancel, stateAfter_succ h]

end

/-! ## The tally -/

/-- What attempts have taken, by a clock whose states are those of `τ`. -/
structure Tally (τ : Type) where
  attempts : Nat
  /-- The nanoseconds of pause that were asked for. -/
  asked : Nat
  /-- The state of the clock. -/
  time : τ

/-- A clock beside a state, whose pauses are added up. -/
def Clock.tallied (clock : Clock (StateM τ)) : Clock (StateM (σ × Tally τ)) where
  sleep span := fun state => (⟨⟩, (state.1, { state.2 with
    asked := state.2.asked + span.nanoseconds
    time := ((clock.sleep span).run state.2.time).2 }))
  now := fun state =>
    let read := clock.now.run state.2.time
    (read.1, (state.1, { state.2 with time := read.2 }))

namespace Tally

/-- An action whose attempts are counted. -/
def counted (action : ExceptT Error (StateM σ) α) : ExceptT Error (StateM (σ × Tally τ)) α :=
  ExceptT.mk fun state =>
    let ended := exec action state.1
    (ended.1, (ended.2, { state.2 with attempts := state.2.attempts + 1 }))

/-- The tally after one more attempt. -/
def attempted (tally : Tally τ) : Tally τ :=
  { tally with attempts := tally.attempts + 1 }

/-- The tally after a pause of a policy, which a policy without pauses does not ask for. -/
def paused (tally : Tally τ) (clock : Clock (StateM τ)) (policy : RetryPolicy) : Tally τ :=
  if policy.pause = .zero then tally
  else { tally with
    asked := tally.asked + policy.pause.nanoseconds
    time := ((clock.sleep policy.pause).run tally.time).2 }

section

variable {clock : Clock (StateM τ)} {elapsed : τ → Nat} {longest : Duration} {policy : RetryPolicy}
  {tally tally' : Tally τ}

theorem asked_paused : (tally.paused clock policy).asked =
    tally.asked + policy.pause.nanoseconds := by
  by_cases hpause : policy.pause = .zero
  · rw [paused, if_pos hpause, hpause]
    rfl
  · rw [paused, if_neg hpause]

theorem elapsed_paused (hclock : clock.SleepsUpTo elapsed longest) :
    elapsed (tally.paused clock policy).time = elapsed tally.time + policy.pauseUpTo longest := by
  by_cases hpause : policy.pause = .zero
  · rw [paused, if_pos hpause, RetryPolicy.pauseUpTo_of_zero hpause, Nat.add_zero]
  · rw [paused, if_neg hpause]
    exact hclock policy.pause tally.time

/-- A tally is that of some attempts more under a policy, with a pause between one and the next. -/
structure Spent (policy : RetryPolicy) (elapsed : τ → Nat) (longest : Duration) (tally : Tally τ)
    (attempts : Nat) (tally' : Tally τ) : Prop where
  made : tally'.attempts = tally.attempts + attempts
  asked : tally'.asked = tally.asked + (attempts - 1) * policy.pause.nanoseconds
  slept : elapsed tally'.time = elapsed tally.time + (attempts - 1) * policy.pauseUpTo longest

theorem spent_one (tally : Tally τ) : tally.Spent policy elapsed longest 1 tally.attempted :=
  ⟨rfl, by rw [Nat.sub_self, Nat.zero_mul]; rfl, by rw [Nat.sub_self, Nat.zero_mul]; rfl⟩

theorem Spent.cons {attempts : Nat} (hclock : clock.SleepsUpTo elapsed longest)
    (h : (tally.attempted.paused clock policy).Spent policy elapsed longest attempts tally')
    (hpos : 1 ≤ attempts) : tally.Spent policy elapsed longest (attempts + 1) tally' := by
  obtain ⟨earlier, rfl⟩ := Nat.exists_eq_add_of_le' hpos
  have hpaused : (tally.attempted.paused clock policy).attempts = tally.attempts + 1 := by
    unfold paused
    split <;> rfl
  have hasked := h.asked
  have htime := h.slept
  rw [asked_paused] at hasked
  rw [elapsed_paused hclock] at htime
  simp only [Nat.add_sub_cancel, attempted] at hasked htime
  refine ⟨?_, ?_, ?_⟩
  · rw [h.made, hpaused]
    omega
  · rw [hasked, Nat.add_sub_cancel, Nat.succ_mul]
    omega
  · rw [htime, Nat.add_sub_cancel, Nat.succ_mul]
    omega

end

theorem exec_counted {action : ExceptT Error (StateM σ) α} {s s' : σ} {result : Except Error α}
    (h : exec action s = (result, s')) (tally : Tally τ) :
    exec (counted action) (s, tally) = (result, (s', tally.attempted)) := by
  show ((exec action s).1, ((exec action s).2, _)) = _
  rw [h]
  rfl

end Tally

namespace RetryPolicy

open Tally (counted)

variable {policy : RetryPolicy} {action : ExceptT Error (StateM σ) α} {s s' : σ}

theorem isRetryable_iff {kind : ErrorKind} :
    policy.isRetryable kind ↔ kind ∈ policy.retryable :=
  List.contains_iff_mem

/-! ## How many attempts are made -/

/-- How many attempts are made out of a budget: all but the last end in errors that are worth
another one, and the last does not, or it is the last that the budget allows. -/
structure Spends (policy : RetryPolicy) (action : ExceptT Error (StateM σ) α) (s : σ)
    (budget attempts : Nat) : Prop where
  pos : 1 ≤ attempts
  le : attempts ≤ budget
  again : ∀ attempt, 1 ≤ attempt → attempt < attempts →
    ∃ e, attemptAt action attempt s = .error e ∧ e.kind ∈ policy.retryable
  last : (∃ a, attemptAt action attempts s = .ok a) ∨
    (∃ e, attemptAt action attempts s = .error e ∧ e.kind ∉ policy.retryable) ∨
    attempts = budget

theorem spends_one {budget : Nat} (hbudget : 1 ≤ budget)
    (hlast : (∃ a, attemptAt action 1 s = .ok a) ∨
      (∃ e, attemptAt action 1 s = .error e ∧ e.kind ∉ policy.retryable) ∨ 1 = budget) :
    policy.Spends action s budget 1 :=
  ⟨Nat.le_refl 1, hbudget, fun _ hpos hlt => absurd hlt (Nat.not_lt.2 hpos), hlast⟩

/-- After an error that is worth another attempt the rest of the budget is spent. -/
theorem Spends.cons {e : Error} {budget attempts : Nat}
    (h : policy.Spends action s' budget attempts) (hrun : exec action s = (.error e, s'))
    (hretryable : e.kind ∈ policy.retryable) :
    policy.Spends action s (budget + 1) (attempts + 1) := by
  refine ⟨Nat.succ_pos _, Nat.succ_le_succ h.le, fun attempt hpos hlt => ?_, ?_⟩
  · by_cases hfirst : attempt = 1
    · rw [hfirst, attemptAt_one hrun]
      exact ⟨e, rfl, hretryable⟩
    · obtain ⟨earlier, rfl⟩ := Nat.exists_eq_add_of_le' hpos
      have hearlier : 1 ≤ earlier := by omega
      rw [attemptAt_succ hrun hearlier]
      exact h.again earlier hearlier (Nat.lt_of_succ_lt_succ hlt)
  · rw [attemptAt_succ hrun h.pos, Nat.add_right_cancel_iff]
    exact h.last

/-- After an error that is worth another attempt there is a pause, and then the attempts that are
left. -/
theorem exec_attempt_counted_again {e : Error} (hrun : exec action s = (.error e, s'))
    (hretryable : e.kind ∈ policy.retryable) (clock : Clock (StateM τ)) (more : Nat)
    (tally : Tally τ) :
    exec (policy.attempt clock.tallied (counted action) (more + 1)) (s, tally) =
      exec (policy.attempt clock.tallied (counted action) more)
        (s', tally.attempted.paused clock policy) := by
  have hsleep : policy.pause ≠ .zero →
      (clock.tallied.sleep policy.pause).run (s', tally.attempted) =
        (⟨⟩, (s', tally.attempted.paused clock policy)) := fun hpause => by
    rw [Tally.paused, if_neg hpause]
    rfl
  have hnone : policy.pause = .zero →
      (s', tally.attempted) = (s', tally.attempted.paused clock policy) := fun hpause => by
    rw [Tally.paused, if_pos hpause]
  exact exec_attempt_again (Tally.exec_counted hrun tally) (isRetryable_iff.2 hretryable) hsleep
    hnone more

/-- A value ends the attempts, and so does an error that is not worth another one. -/
theorem exec_attempt_counted_last {result : Except Error α} (hrun : exec action s = (result, s'))
    (hlast : ∀ e, result = .error e → e.kind ∉ policy.retryable) (clock : Clock (StateM τ))
    (more : Nat) (tally : Tally τ) :
    exec (policy.attempt clock.tallied (counted action) more) (s, tally) =
      (result, (s', tally.attempted)) := by
  have hcounted := Tally.exec_counted hrun tally
  cases result with
  | ok a => exact exec_attempt_ok hcounted _ more
  | error e =>
    have hend : policy.isRetryable e.kind = false :=
      Bool.eq_false_iff.2 (mt isRetryable_iff.1 (hlast e rfl))
    cases more with
    | zero => exact hcounted
    | succ more =>
      rw [attempt, exec_tryCatch_error hcounted, hend]
      rfl

/-- The attempts that are made, what they come to and what they add to a tally. -/
theorem exec_attempt_counted (policy : RetryPolicy) {clock : Clock (StateM τ)} {elapsed : τ → Nat}
    {longest : Duration} (hclock : clock.SleepsUpTo elapsed longest)
    (action : ExceptT Error (StateM σ) α) (more : Nat) (s : σ) (tally : Tally τ) :
    ∃ attempts tally', policy.Spends action s (more + 1) attempts ∧
      exec (policy.attempt clock.tallied (counted action) more) (s, tally) =
        (attemptAt action attempts s, (stateAfter action attempts s, tally')) ∧
      tally.Spent policy elapsed longest attempts tally' := by
  -- the attempt that is made now is the last, or the others begin in the state that it leaves
  induction more generalizing s tally with
  | zero =>
    exact ⟨1, _, spends_one (Nat.le_refl 1) (.inr (.inr rfl)), rfl, tally.spent_one⟩
  | succ more ih =>
    rcases hrun : exec action s with ⟨result, s'⟩
    by_cases hagain : ∃ e, result = .error e ∧ e.kind ∈ policy.retryable
    · obtain ⟨e, rfl, hretryable⟩ := hagain
      obtain ⟨attempts, tally', hspends, hexec, hspent⟩ :=
        ih s' (tally.attempted.paused clock policy)
      refine ⟨attempts + 1, tally', hspends.cons hrun hretryable, ?_,
        hspent.cons hclock hspends.pos⟩
      rw [exec_attempt_counted_again hrun hretryable, hexec, attemptAt_succ hrun hspends.pos,
        stateAfter_succ hrun]
    · have hlast : ∀ e, result = .error e → e.kind ∉ policy.retryable :=
        fun e he hretryable => hagain ⟨e, he, hretryable⟩
      refine ⟨1, tally.attempted, spends_one (Nat.succ_pos _) ?_, ?_, tally.spent_one⟩
      · rw [attemptAt_one hrun]
        cases result with
        | ok a => exact .inl ⟨a, rfl⟩
        | error e => exact .inr (.inl ⟨e, rfl, hlast e rfl⟩)
      · rw [exec_attempt_counted_last hrun hlast, attemptAt_one hrun, stateAfter_succ hrun]
        rfl

/-! ## The counter -/

section

variable {m : Type → Type} [Monad m]

/-- The loop of a policy, which counts its attempts from one on: it goes on while the attempt is not
the last of the budget and has ended in an error that is worth another one.  A counter has 32 bits;
what happens when it overflows is left open. -/
def countUp (policy : RetryPolicy) (clock : Clock m) (action overflow : ExceptT Error m α)
    (attempt : Nat) : ExceptT Error m α :=
  tryCatch action fun e =>
    if _h : attempt < max 1 policy.maxAttempts ∧ policy.isRetryable e.kind then do
      if policy.pause ≠ .zero then clock.sleep policy.pause
      if attempt + 1 < Settings.attemptsLimit then
        policy.countUp clock action overflow (attempt + 1)
      else overflow
    else throw e
termination_by max 1 policy.maxAttempts - attempt

/-- To throw an error again is not to catch it. -/
theorem tryCatch_throw [LawfulMonad m] (action : ExceptT Error m α) :
    tryCatch action throw = action := by
  show ExceptT.tryCatch action _ = action
  refine ExceptT.ext ?_
  rw [ExceptT.tryCatch, ExceptT.run_mk]
  refine (bind_congr fun result => ?_).trans (bind_pure action.run)
  cases result <;> rfl

/-- Counting up to the budget is counting down what is left of it, and the counter does not
overflow. -/
theorem countUp_eq_attempt [LawfulMonad m] {policy : RetryPolicy}
    (hfits : policy.maxAttempts < Settings.attemptsLimit) (clock : Clock m)
    (action overflow : ExceptT Error m α) {attempt more : Nat}
    (hbudget : attempt + more = max 1 policy.maxAttempts) :
    policy.countUp clock action overflow attempt = policy.attempt clock action more := by
  have hlimit : 1 < Settings.attemptsLimit := by decide
  induction more generalizing attempt with
  | zero =>
    have hlast : ¬ attempt < max 1 policy.maxAttempts := by omega
    rw [countUp, RetryPolicy.attempt]
    simp only [hlast, false_and, dite_false]
    exact tryCatch_throw action
  | succ more ih =>
    have hleft : attempt < max 1 policy.maxAttempts := by omega
    have hcounter : attempt + 1 < Settings.attemptsLimit := by omega
    rw [countUp, RetryPolicy.attempt, if_pos hcounter, ih (by omega)]
    simp only [hleft, true_and]
    rfl

theorem countUp_eq_retry [LawfulMonad m] {policy : RetryPolicy}
    (hfits : policy.maxAttempts < Settings.attemptsLimit) (clock : Clock m)
    (action overflow : ExceptT Error m α) :
    policy.countUp clock action overflow 1 = policy.retry clock action :=
  countUp_eq_attempt hfits clock action overflow (by omega)

end

/-! ## The attempts of a policy -/

/-- A policy makes the attempts that its budget and the errors allow, its counter does not overflow,
and it ends as the last attempt does, in the state that the attempts leave one after the other.  It
asks for its pause between one attempt and the next; a pause takes `longest` at most, if the clock
sleeps no longer at a time. -/
theorem retry_spends (policy : RetryPolicy) (hfits : policy.maxAttempts < Settings.attemptsLimit)
    {clock : Clock (StateM τ)} {elapsed : τ → Nat} {longest : Duration}
    (hclock : clock.SleepsUpTo elapsed longest) (action : ExceptT Error (StateM σ) α) (s : σ)
    (time : τ) :
    (∀ overflow, policy.countUp clock.tallied (counted action) overflow 1 =
      policy.retry clock.tallied (counted action)) ∧
    ∃ attempts time', policy.Spends action s (max 1 policy.maxAttempts) attempts ∧
      exec (policy.retry clock.tallied (counted action)) (s, ⟨0, 0, time⟩) =
        (attemptAt action attempts s, (stateAfter action attempts s,
          ⟨attempts, (attempts - 1) * policy.pause.nanoseconds, time'⟩)) ∧
      elapsed time' = elapsed time +
        (attempts - 1) * min policy.pause.nanoseconds longest.nanoseconds := by
  refine ⟨countUp_eq_retry hfits _ _, ?_⟩
  obtain ⟨attempts, ⟨counter, asked, time'⟩, hspends, hexec, hspent⟩ :=
    exec_attempt_counted policy hclock action (policy.maxAttempts - 1) s ⟨0, 0, time⟩
  have hbudget : policy.maxAttempts - 1 + 1 = max 1 policy.maxAttempts := by omega
  rw [hbudget] at hspends
  obtain rfl : counter = attempts := hspent.made.trans (Nat.zero_add _)
  obtain rfl : asked = (counter - 1) * policy.pause.nanoseconds :=
    hspent.asked.trans (Nat.zero_add _)
  exact ⟨counter, time', hspends, hexec, hspent.slept⟩

/-- A lock that is held for a number of attempts. -/
def lockHeld : ExceptT Error (StateM Nat) Unit :=
  ExceptT.mk fun
    | 0 => (.ok ⟨⟩, 0)
    | held + 1 => (.error (.infraStateLocked "held"), held)

/-- A lock that is held twice is got by the third attempt, after two minutes. -/
theorem retry_spends_lockHeld :
    let policy := RetryPolicy.stateLock 3 (.ofSeconds 60)
    let minutes := (Duration.ofSeconds 120).nanoseconds
    policy.maxAttempts < Settings.attemptsLimit ∧
    World.clock.SleepsUpTo World.slept World.longestSleep ∧
    ∃ attempts world, policy.Spends lockHeld 2 3 attempts ∧
      exec (policy.retry World.clock.tallied (counted lockHeld)) (2, ⟨0, 0, World.empty⟩) =
        (.ok ⟨⟩, (0, ⟨attempts, minutes, world⟩)) ∧ attempts = 3 ∧ world.slept = minutes := by
  intro policy minutes
  have hfits : policy.maxAttempts < Settings.attemptsLimit := by decide
  have hclock : World.clock.SleepsUpTo World.slept World.longestSleep := fun _ _ => rfl
  obtain ⟨-, attempts, world, hspends, hexec, hslept⟩ :=
    retry_spends policy hfits hclock lockHeld 2 World.empty
  have hcounter : (exec (policy.retry World.clock.tallied (counted lockHeld))
      (2, ⟨0, 0, World.empty⟩)).2.2.attempts = 3 := rfl
  rw [hexec] at hcounter
  obtain rfl : attempts = 3 := hcounter
  have hresult : attemptAt lockHeld 3 2 = .ok ⟨⟩ := rfl
  have hstate : stateAfter lockHeld 3 2 = 0 := rfl
  have hasked : (3 - 1) * policy.pause.nanoseconds = minutes := by decide +kernel
  have htime : World.empty.slept + (3 - 1) *
      min policy.pause.nanoseconds World.longestSleep.nanoseconds = minutes := by decide +kernel
  rw [hresult, hstate, hasked] at hexec
  exact ⟨hfits, hclock, 3, world, hspends, hexec, rfl, hslept.trans htime⟩

/-- A pause that is longer than the clock sleeps at a time takes less time than was asked for. -/
theorem retry_slept_lt_asked :
    let policy := RetryPolicy.stateLock 3 (.ofSeconds (World.longestSleep.seconds + 1))
    let tally := (exec (policy.retry World.clock.tallied (counted lockHeld))
      (1, ⟨0, 0, World.empty⟩)).2.2
    tally.attempts = 2 ∧
      tally.time.slept < (tally.attempts - 1) * policy.pause.nanoseconds := by
  decide +kernel

end RetryPolicy

end Converge
