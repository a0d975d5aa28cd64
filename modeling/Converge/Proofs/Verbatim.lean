import Converge.Proofs.Watch
import Converge.Retry
/-!
# Errors that end an action

An action is verbatim when it fails just with the error of its last answer, and when every error
that it gets ends it at once, except for those that a `Tolerance` names.  Main statements: verbatim
actions follow each other (`Verbatim.append`), and a call under a retry policy tolerates the errors
that are worth another attempt while attempts are left (`Attempts.verbatim`).
-/

namespace Converge

open Simulation (Call)

variable {σ α β : Type}

/-- The errors that an action goes on after, by the answers that came before. -/
abbrev Tolerance := List Answer → Answer → Prop

/-- What is tolerated once some answers have come. -/
def Tolerance.after (tolerates : Tolerance) (before : List Answer) : Tolerance :=
  fun front => tolerates (before ++ front)

theorem Tolerance.after_after (tolerates : Tolerance) (before between : List Answer) :
    (tolerates.after before).after between = tolerates.after (before ++ between) := by
  funext front
  rw [after, after, after, List.append_assoc]

/-- An action that got these answers ended with the error of the last one if it failed, and every
error among them ended it at once, unless it is tolerated. -/
structure Verbatim (tolerates : Tolerance) (answers : List Answer) (result : Except Error α) :
    Prop where
  /-- A failure is the error of the last answer. -/
  cause : ∀ e, result = .error e → ∃ front call, answers = front ++ [⟨call, .error e⟩]
  /-- Just the errors that are not tolerated end the action, and nothing is called after them. -/
  ends_iff : ∀ front call e after, answers = front ++ ⟨call, .error e⟩ :: after →
    ((after = [] ∧ ∃ e', result = .error e') ↔ ¬ tolerates front ⟨call, .error e⟩)

namespace Verbatim

variable {tolerates : Tolerance} {answers before after : List Answer} {call : Call} {e : Error}

theorem nil (a : α) : Verbatim tolerates [] (.ok a) where
  cause := nofun
  ends_iff := fun front call e after h => by simp at h

/-- One answer without an error. -/
theorem of_ok (given : Given) (a : α) : Verbatim tolerates [⟨call, .ok given⟩] (.ok a) where
  cause := nofun
  ends_iff := fun front call' e after hsplit => by
    cases front <;> simp at hsplit

/-- One answer with an error that is tolerated. -/
theorem of_tolerated (h : tolerates [] ⟨call, .error e⟩) (a : α) :
    Verbatim tolerates [⟨call, .error e⟩] (.ok a) where
  cause := nofun
  ends_iff := fun front call' e' after hsplit => by
    obtain ⟨rfl, rfl, rfl, rfl⟩ : front = [] ∧ call' = call ∧ e' = e ∧ after = [] := by
      cases front <;> simp_all
    exact ⟨fun ⟨_, _, hresult⟩ => (nomatch hresult), fun hnot => absurd h hnot⟩

/-- One answer with an error that is not tolerated. -/
theorem of_error (h : ¬ tolerates [] ⟨call, .error e⟩) :
    Verbatim tolerates [⟨call, .error e⟩] (.error e : Except Error α) where
  cause := fun e' he => ⟨[], call, by rw [Except.error.inj he]; rfl⟩
  ends_iff := fun front call' e' after hsplit => by
    obtain ⟨rfl, rfl, rfl, rfl⟩ : front = [] ∧ call' = call ∧ e' = e ∧ after = [] := by
      cases front <;> simp_all
    exact ⟨fun _ => h, fun _ => ⟨rfl, e', rfl⟩⟩

/-- What would have followed a failure does not matter. -/
theorem of_failure (h : Verbatim tolerates answers (.error e : Except Error α)) :
    Verbatim tolerates answers (.error e : Except Error β) where
  cause := fun e' he => h.cause e' (by rw [Except.error.inj he])
  ends_iff := fun front call e' after hsplit => by
    have hiff := h.ends_iff front call e' after hsplit
    simpa using hiff

/-- Tolerances that agree on the errors among the answers. -/
theorem congr {tolerates' : Tolerance} {result : Except Error α}
    (h : Verbatim tolerates answers result)
    (heq : ∀ front call e after, answers = front ++ ⟨call, .error e⟩ :: after →
      (tolerates front ⟨call, .error e⟩ ↔ tolerates' front ⟨call, .error e⟩)) :
    Verbatim tolerates' answers result where
  cause := h.cause
  ends_iff := fun front call e after hsplit => by
    rw [h.ends_iff front call e after hsplit, heq front call e after hsplit]

/-- An action that succeeds is followed by another. -/
theorem append {a : α} {result : Except Error β} (h : Verbatim tolerates before (.ok a))
    (h' : Verbatim (tolerates.after before) after result) :
    Verbatim tolerates (before ++ after) result where
  cause := fun e he => by
    obtain ⟨front, call, rfl⟩ := h'.cause e he
    exact ⟨before ++ front, call, by rw [List.append_assoc]⟩
  ends_iff := fun front call e rest hsplit => by
    rcases List.append_eq_append_iff.1 hsplit with
      ⟨middle, rfl, hmiddle⟩ | ⟨middle, hbefore, hmiddle⟩
    · -- the error is an answer to the second action
      exact h'.ends_iff middle call e rest hmiddle
    · -- the error is an answer to the first action, or the second begins with it
      cases middle with
      | nil =>
        rw [List.append_nil] at hbefore
        subst hbefore
        simpa [Tolerance.after] using h'.ends_iff [] call e rest hmiddle.symm
      | cons first middle =>
        obtain ⟨rfl, rfl⟩ := List.cons.inj hmiddle
        have hiff := h.ends_iff front call e middle hbefore
        refine ⟨fun ⟨hnil, e', hresult⟩ => ?_, fun hnot => ?_⟩
        · -- the second action cannot fail without an answer
          obtain ⟨front', call', hafter⟩ := h'.cause e' hresult
          rw [hafter] at hnil
          simp at hnil
        · obtain ⟨-, e', hresult⟩ := hiff.2 hnot
          cases hresult

end Verbatim

/-- A verbatim action that fails with an error only, never with an outcome of its own. -/
structure Settles (tolerates : Tolerance) (answers : List Answer) (result : Except Error Outcome) :
    Prop extends Verbatim tolerates answers result where
  not_failed : ∀ outcome, result = .ok outcome → outcome.isFailed = false

namespace Settles

variable {tolerates : Tolerance} {before after : List Answer}

theorem nil {outcome : Outcome} (h : outcome.isFailed = false) :
    Settles tolerates [] (.ok outcome) where
  toVerbatim := .nil _
  not_failed := fun other hother => by rwa [← Except.ok.inj hother]

theorem of_failure {answers : List Answer} {e : Error}
    (h : Verbatim tolerates answers (.error e : Except Error α)) :
    Settles tolerates answers (.error e) where
  toVerbatim := h.of_failure
  not_failed := nofun

theorem append {a : α} {result : Except Error Outcome} (h : Verbatim tolerates before (.ok a))
    (h' : Settles (tolerates.after before) after result) :
    Settles tolerates (before ++ after) result where
  toVerbatim := h.append h'.toVerbatim
  not_failed := h'.not_failed

end Settles

/-! ## Calls -/

section

variable {tolerates : Tolerance} {s : σ} {call : Call} {given : α → Given}
  {action : ExceptT Error (StateM σ) α}

/-- A call none of whose errors is tolerated. -/
theorem Shows.verbatim_call (h : ∀ e, ¬ tolerates [] ⟨call, .error e⟩) :
    Shows action (Answer.noting id call given action) s fun answers result _ =>
      Verbatim tolerates answers result := by
  refine Shows.call id call given action fun result s' _ => ?_
  cases result with
  | ok a => exact .of_ok _ a
  | error e => exact .of_error (h e)

/-- A call one kind of whose errors is tolerated, as an absence. -/
theorem Shows.verbatim_absent {kind : ErrorKind}
    (h : ∀ e, tolerates [] ⟨call, .error e⟩ ↔ e.kind = kind) :
    Shows (Converge.absentAsNone kind action)
      (Converge.absentAsNone kind (Answer.noting id call given action)) s fun answers result _ =>
        Verbatim tolerates answers result ∧ ∀ answer ∈ answers, answer.call = call := by
  have hcall : Shows action (Answer.noting id call given action) s fun answers result _ =>
      answers = [⟨call, result.map given⟩] := .call id call given action fun _ _ _ => rfl
  refine hcall.absentAsNone ?_ ?_ ?_
  · rintro a _ s' rfl
    exact ⟨.of_ok _ _, by simp⟩
  · rintro e _ s' rfl hkind
    exact ⟨.of_tolerated ((h e).2 hkind) _, by simp⟩
  · rintro e _ s' rfl hkind
    exact ⟨.of_error (mt (h e).1 hkind), by simp⟩

end

/-! ## Verbatim actions in sequence -/

section

variable {tolerates : Tolerance} {s : σ} {plain : ExceptT Error (StateM σ) α}
  {watched : ExceptT Error (StateM (σ × List Answer)) α}

theorem Shows.verbatim_bind
    (h : Shows plain watched s fun answers result _ => Verbatim tolerates answers result)
    {next : α → ExceptT Error (StateM σ) β} {next' : α → ExceptT Error (StateM (σ × List Answer)) β}
    (hnext : ∀ a before s', Shows (next a) (next' a) s' fun after result _ =>
      Verbatim (tolerates.after before) after result) :
    Shows (plain >>= next) (watched >>= next') s fun answers result _ =>
      Verbatim tolerates answers result :=
  h.bind (fun _ _ _ hfailed => hfailed.of_failure) fun a before s' hbefore =>
    (hnext a before s').imp fun _ _ _ hafter => hbefore.append hafter

theorem Shows.settles_bind
    (h : Shows plain watched s fun answers result _ => Verbatim tolerates answers result)
    {next : α → ExceptT Error (StateM σ) Outcome}
    {next' : α → ExceptT Error (StateM (σ × List Answer)) Outcome}
    (hnext : ∀ a before s', Shows (next a) (next' a) s' fun after result _ =>
      Settles (tolerates.after before) after result) :
    Shows (plain >>= next) (watched >>= next') s fun answers result _ =>
      Settles tolerates answers result :=
  h.bind (fun _ _ _ hfailed => .of_failure hfailed) fun a before s' hbefore =>
    (hnext a before s').imp fun _ _ _ hafter => .append hbefore hafter

theorem Step.Shows.settles_bind {μ : Type} {memory : μ} {plain : Action (StateM σ) μ α}
    {watched : Action (StateM (σ × List Answer)) μ α}
    (h : Step.Shows plain watched memory s fun answers result _ _ =>
      Verbatim tolerates answers result)
    {next : α → Action (StateM σ) μ Outcome}
    {next' : α → Action (StateM (σ × List Answer)) μ Outcome}
    (hnext : ∀ a before memory' s', Step.Shows (next a) (next' a) memory' s'
      fun after result _ _ => Settles (tolerates.after before) after result) :
    Step.Shows (plain >>= next) (watched >>= next') memory s fun answers result _ _ =>
      Settles tolerates answers result :=
  h.bind (fun _ _ _ _ hfailed => .of_failure hfailed) fun a before memory' s' hbefore =>
    (hnext a before memory' s').imp fun _ _ _ _ hafter => .append hbefore hafter

end

/-! ## Attempts -/

/-- What attempts under a policy show, by what one of them shows and by what passes in a pause.
The number is that of the attempts that are left after the first. -/
theorem Shows.attempt {ε : Type} {policy : RetryPolicy} {clock : Clock (StateM σ)}
    {clock' : Clock (StateM (σ × List ε))} {action : ExceptT Error (StateM σ) α}
    {action' : ExceptT Error (StateM (σ × List ε)) α}
    {tried : σ → List ε → Except Error α → σ → Prop} {paused : σ → List ε → σ → Prop}
    {spec : Nat → σ → List ε → Except Error α → σ → Prop}
    (htry : ∀ s, Shows action action' s (tried s))
    (hsleep : policy.pause ≠ .zero → ∀ s,
      Shows (liftM (clock.sleep policy.pause) : ExceptT Error (StateM σ) Unit)
        (liftM (clock'.sleep policy.pause)) s fun events result s' =>
          result = .ok ⟨⟩ ∧ paused s events s')
    (hnone : policy.pause = .zero → ∀ s, paused s [] s)
    (hok : ∀ more s events a s', tried s events (.ok a) s' → spec more s events (.ok a) s')
    (hended : ∀ more s events e s', tried s events (.error e) s' →
      more = 0 ∨ policy.isRetryable e.kind = false → spec more s events (.error e) s')
    (hagain : ∀ more s before e s₁ between s₂ after result s₃, tried s before (.error e) s₁ →
      policy.isRetryable e.kind → paused s₁ between s₂ → spec more s₂ after result s₃ →
      spec (more + 1) s (before ++ (between ++ after)) result s₃)
    (more : Nat) (s : σ) :
    Shows (policy.attempt clock action more) (policy.attempt clock' action' more) s
      (spec more s) := by
  induction more generalizing s with
  | zero =>
    unfold RetryPolicy.attempt
    refine (htry s).imp fun events result s' htried => ?_
    cases result with
    | ok a => exact hok 0 s events a s' htried
    | error e => exact hended 0 s events e s' htried (.inl rfl)
  | succ more ih =>
    unfold RetryPolicy.attempt
    refine (htry s).tryCatch (fun a events s' => hok (more + 1) s events a s') ?_
    intro e before s₁ htried
    by_cases hretryable : policy.isRetryable e.kind
    · rw [if_pos hretryable, if_pos hretryable]
      by_cases hpause : policy.pause ≠ .zero
      · simp only [if_pos hpause]
        refine (hsleep hpause s₁).bind ?_ ?_
        · rintro e' _ _ ⟨hresult, -⟩
          cases hresult
        · rintro _ between s₂ ⟨-, hpaused⟩
          exact (ih s₂).imp fun after result s₃ hrest =>
            hagain more s before e s₁ between s₂ after result s₃ htried hretryable hpaused hrest
      · simp only [if_neg hpause]
        exact (ih s₁).imp fun after result s₃ hrest =>
          hagain more s before e s₁ [] s₁ after result s₃ htried hretryable
            (hnone (Decidable.not_not.1 hpause) s₁) hrest
    · rw [if_neg hretryable, if_neg hretryable]
      refine .throw e ?_
      rw [List.append_nil]
      exact hended (more + 1) s before e s₁ htried (.inr (by simpa using hretryable))

/-- The answers to a call that is attempted under a policy, `more` times again at most, and how the
last attempt ends. -/
inductive Attempts (policy : RetryPolicy) (call : Call) :
    Nat → List Answer → Except Error Unit → Prop
  | done {more : Nat} : Attempts policy call more [⟨call, .ok .nothing⟩] (.ok ⟨⟩)
  /-- An error that no attempt is left for, or that another attempt is not worth while after. -/
  | ended {more : Nat} {e : Error} (h : more = 0 ∨ policy.isRetryable e.kind = false) :
    Attempts policy call more [⟨call, .error e⟩] (.error e)
  /-- An error that is followed by another attempt. -/
  | again {more : Nat} {e : Error} {answers : List Answer} {result : Except Error Unit}
      (h : policy.isRetryable e.kind) (rest : Attempts policy call more answers result) :
    Attempts policy call (more + 1) (⟨call, .error e⟩ :: answers) result

namespace Attempts

variable {policy : RetryPolicy} {call : Call} {more : Nat} {answers : List Answer}
  {result : Except Error Unit}

theorem call_eq (h : Attempts policy call more answers result) :
    ∀ answer ∈ answers, answer.call = call := by
  induction h with
  | done => simp
  | ended => simp
  | again _ _ ih => simpa using ih

/-- There is an attempt at all. -/
theorem ne_nil (h : Attempts policy call more answers result) : answers ≠ [] := by
  cases h <;> exact List.cons_ne_nil _ _

/-- An error is tolerated while attempts are left for an error of its kind. -/
def Tolerates (policy : RetryPolicy) (more : Nat) : Tolerance := fun front answer =>
  ∃ e, answer.result = .error e ∧ policy.isRetryable e.kind ∧ front.length < more

theorem verbatim (h : Attempts policy call more answers result) :
    Verbatim (Tolerates policy more) answers result := by
  induction h with
  | done => exact .of_ok _ _
  | ended h =>
    refine .of_error ?_
    rintro ⟨e', he, hretryable, hlt⟩
    obtain rfl := Except.error.inj he
    rcases h with rfl | hnot
    · exact Nat.not_lt_zero _ hlt
    · rw [hnot] at hretryable
      cases hretryable
  | @again more e answers result h rest ih =>
    have hfirst : Verbatim (Tolerates policy (more + 1)) [⟨call, .error e⟩] (.ok ()) :=
      .of_tolerated ⟨e, rfl, h, Nat.succ_pos more⟩ ()
    refine hfirst.append (ih.congr fun front call e after _ => ?_)
    -- the attempt that was made counts in front of those that follow
    simp only [Tolerates, Tolerance.after, List.singleton_append, List.length_cons,
      Nat.add_lt_add_iff_right]

/-- Attempting a call under a policy. -/
theorem shows_attempt (policy : RetryPolicy) (clock : Clock (StateM σ)) (call : Call)
    (action : ExceptT Error (StateM σ) Unit) (more : Nat) (s : σ) :
    Shows (policy.attempt clock action more)
      (policy.attempt clock.watched (Answer.noting id call (fun _ => .nothing) action) more) s
      fun answers result _ => Attempts policy call more answers result := by
  have htry : ∀ s, Shows action (Answer.noting id call (fun _ => .nothing) action) s
      fun answers result _ => answers = [⟨call, result.map fun _ => .nothing⟩] :=
    fun s => .call id call _ action fun _ _ _ => rfl
  -- a pause is not noted
  have hsleep : policy.pause ≠ .zero → ∀ s,
      Shows (liftM (clock.sleep policy.pause) : ExceptT Error (StateM σ) Unit)
        (liftM (clock.watched.sleep policy.pause)) s fun (answers : List Answer) result _ =>
          result = .ok ⟨⟩ ∧ answers = [] := fun _ s => .unnoted _ ⟨rfl, rfl⟩
  apply Shows.attempt htry hsleep (fun _ _ => rfl)
  · rintro more s _ ⟨⟩ s' rfl
    exact .done
  · rintro more s _ e s' rfl hlast
    exact .ended hlast
  · rintro more s _ e s₁ _ s₂ after result s₃ rfl hretryable rfl hrest
    exact .again hretryable hrest

end Attempts

end Converge
