import Converge.Proofs.Execution
import Converge.Simulation.Call
/-!
# Watched collaborators

A watched collaborator notes every call that is made on it, with what came back, beside the state.
`Shows` relates an action to the same action on watched collaborators: both do the same to the
state, and what is noted and how the action ends are as a specification says.  Main statements: the
rules by which such a specification is put together, one for each way of building an action
(`Shows.bind`, `Shows.absentAsNone` and `Step.Shows.bind`), and those for steps and plans
(`Step.shown_evaluate` and `Plan.shown_cons`).
-/

namespace Converge

open Simulation (Call)

variable {σ ε μ α β : Type}

/-! ## Answers -/

/-- What a call that succeeds gives. -/
inductive Given where
  | nothing
  | application (app : Application)
  | unit (unit : AppUnit)
  | revision (revision : Nat)
  | status (status : ModelStatus)
  | nodes (nodes : List Node)
  | record (record : Record)

/-- A call with what came back. -/
structure Answer where
  call : Call
  result : Except Error Given

/-- The error of a failure is among the answers. -/
def Explained (answers : List Answer) (result : Except Error α) : Prop :=
  ∀ e, result = .error e → ∃ call, ⟨call, .error e⟩ ∈ answers

namespace Explained

variable {answers : List Answer} {e : Error}

theorem ok (a : α) : Explained answers (.ok a) :=
  nofun

theorem of_failure (h : Explained answers (.error e : Except Error α)) :
    Explained answers (.error e : Except Error β) := by
  rintro _ ⟨⟩
  exact h e rfl

/-- A call that fails is explained by its answer. -/
theorem call (call : Call) (given : α → Given) (result : Except Error α) :
    Explained [⟨call, result.map given⟩] result := by
  rintro e rfl
  exact ⟨call, List.mem_singleton_self _⟩

theorem append {result : Except Error α} (before : List Answer) (h : Explained answers result) :
    Explained (before ++ answers) result := by
  intro e he
  obtain ⟨call, hmem⟩ := h e he
  exact ⟨call, List.mem_append_right before hmem⟩

end Explained

namespace Answer

/-- An action that notes, beside the state, the answer that it gets as a call. -/
def noting (tag : Answer → ε) (call : Call) (given : α → Given)
    (action : ExceptT Error (StateM σ) α) : ExceptT Error (StateM (σ × List ε)) α :=
  ExceptT.mk fun state =>
    let result := exec action state.1
    (result.1, (result.2, state.2 ++ [tag ⟨call, result.1.map given⟩]))

theorem exec_noting (tag : Answer → ε) (call : Call) (given : α → Given)
    {action : ExceptT Error (StateM σ) α} {s s' : σ} {result : Except Error α}
    (h : exec action s = (result, s')) (noted : List ε) :
    exec (noting tag call given action) (s, noted) =
      (result, (s', noted ++ [tag ⟨call, result.map given⟩])) := by
  show ((exec action s).1,
    ((exec action s).2, noted ++ [tag ⟨call, (exec action s).1.map given⟩])) = _
  rw [h]

/-- An action that cannot fail, beside what was noted. -/
def unnoted (action : StateM σ α) : StateM (σ × List ε) α := fun state =>
  let result := action.run state.1
  (result.1, (result.2, state.2))

end Answer

/-! ## Watched sites -/

open Answer (noting unnoted)

/-- A controller that notes its answers. -/
def Controller.watched (tag : Answer → ε) (controller : Controller (StateM σ)) :
    Controller (StateM (σ × List ε)) where
  application model name :=
    noting tag (.application model name) .application (controller.application model name)
  addUnit model name machine :=
    noting tag (.addUnit model name machine) .unit (controller.addUnit model name machine)
  removeUnit model name unit :=
    noting tag (.removeUnit model name unit) (fun _ => .nothing)
      (controller.removeUnit model name unit)
  awaitStatus model names statuses timeout :=
    noting tag (.awaitStatus model names statuses timeout) (fun _ => .nothing)
      (controller.awaitStatus model names statuses timeout)
  awaitReady model name timeout :=
    noting tag (.awaitReady model name timeout) (fun _ => .nothing)
      (controller.awaitReady model name timeout)
  latestRevision model charm channel :=
    noting tag (.latestRevision model charm channel) .revision
      (controller.latestRevision model charm channel)
  modelStatus model := noting tag (.modelStatus model) .status (controller.modelStatus model)

/-- An infrastructure tool that notes its answers. -/
def InfraTool.watched (tag : Answer → ε) (infra : InfraTool (StateM σ)) :
    InfraTool (StateM (σ × List ε)) where
  init config := noting tag (.init config) (fun _ => .nothing) (infra.init config)
  apply config inputs :=
    noting tag (.apply config inputs) (fun _ => .nothing) (infra.apply config inputs)

/-- A store that notes its answers. -/
def MembershipStore.watched (tag : Answer → ε) (store : MembershipStore (StateM σ)) :
    MembershipStore (StateM (σ × List ε)) where
  nodes := noting tag .nodes .nodes store.nodes
  record key := noting tag (.record key) .record (store.record key)
  setRecord key record :=
    noting tag (.setRecord key record) (fun _ => .nothing) (store.setRecord key record)

/-- A clock beside what was noted: it cannot fail, and its time is no answer. -/
def Clock.watched (clock : Clock (StateM σ)) : Clock (StateM (σ × List ε)) where
  sleep span := unnoted (clock.sleep span)
  now := unnoted clock.now

/-- A site whose collaborators note their answers. -/
def Site.watched (tag : Answer → ε) (site : Site (StateM σ)) : Site (StateM (σ × List ε)) where
  controller := site.controller.watched tag
  infra := site.infra.watched tag
  store := site.store.watched tag
  clock := site.clock.watched

/-! ## What an action leaves alone -/

/-- An action, however it ends, leaves alone what a function sees of the state. -/
def Preserves {τ : Type} (seen : σ → τ) (action : ExceptT Error (StateM σ) α) : Prop :=
  ∀ s, seen (exec action s).2 = seen s

theorem Preserves.seen_eq {τ : Type} {seen : σ → τ} {action : ExceptT Error (StateM σ) α} {s s' : σ}
    {result : Except Error α} (h : Preserves seen action) (hrun : exec action s = (result, s')) :
    seen s' = seen s := by
  have hseen := h s
  rwa [hrun] at hseen

theorem Preserves.pure {τ : Type} {seen : σ → τ} (a : α) :
    Preserves seen (Pure.pure a : ExceptT Error (StateM σ) α) :=
  fun _ => rfl

theorem Preserves.bind {τ : Type} {seen : σ → τ} {action : ExceptT Error (StateM σ) α}
    {next : α → ExceptT Error (StateM σ) β} (h : Preserves seen action)
    (hnext : ∀ a, Preserves seen (next a)) : Preserves seen (action >>= next) := by
  intro s
  rcases hrun : exec action s with ⟨e | a, s₁⟩
  · rw [exec_bind_error hrun]
    exact h.seen_eq hrun
  · rw [exec_bind_ok hrun]
    exact (hnext a s₁).trans (h.seen_eq hrun)

theorem Preserves.absentAsNone {τ : Type} {seen : σ → τ} {action : ExceptT Error (StateM σ) α}
    (h : Preserves seen action) (kind : ErrorKind) :
    Preserves seen (Converge.absentAsNone kind action) := by
  intro s
  rcases hrun : exec action s with ⟨e | a, s'⟩
  · rw [exec_absentAsNone_error hrun]
    exact h.seen_eq hrun
  · rw [exec_absentAsNone_ok hrun]
    exact h.seen_eq hrun

/-! ## What an action shows -/

/-- Begun in a state, an action and the same action on watched collaborators end in the same way and
leave the same state, and what is noted on the way is as the specification says. -/
def Shows (plain : ExceptT Error (StateM σ) α) (watched : ExceptT Error (StateM (σ × List ε)) α)
    (s : σ) (spec : List ε → Except Error α → σ → Prop) : Prop :=
  ∀ noted, ∃ result s' events, exec plain s = (result, s') ∧
    exec watched (s, noted) = (result, (s', noted ++ events)) ∧ spec events result s'

namespace Shows

variable {plain : ExceptT Error (StateM σ) α} {watched : ExceptT Error (StateM (σ × List ε)) α}
  {s : σ} {spec : List ε → Except Error α → σ → Prop}

theorem imp (h : Shows plain watched s spec) {spec' : List ε → Except Error α → σ → Prop}
    (hspec : ∀ events result s', spec events result s' → spec' events result s') :
    Shows plain watched s spec' := by
  intro noted
  obtain ⟨result, s', events, hplain, hwatched, h⟩ := h noted
  exact ⟨result, s', events, hplain, hwatched, hspec _ _ _ h⟩

/-- What is shown of an action leaves alone what the action leaves alone. -/
theorem preserves {τ : Type} {seen : σ → τ} (h : Shows plain watched s spec)
    (hseen : Preserves seen plain) :
    Shows plain watched s fun events result s' => spec events result s' ∧ seen s' = seen s := by
  intro noted
  obtain ⟨result, s', events, hplain, hwatched, hspec⟩ := h noted
  exact ⟨result, s', events, hplain, hwatched, hspec, hseen.seen_eq hplain⟩

/-- What is shown of an action holds of its run. -/
theorem of_exec (h : Shows plain watched s spec) {result : Except Error α} {s' : σ}
    (hrun : exec plain s = (result, s')) : ∃ events, spec events result s' := by
  obtain ⟨_, _, events, hplain, -, hspec⟩ := h []
  obtain ⟨rfl, rfl⟩ := Prod.mk.inj (hplain.symm.trans hrun)
  exact ⟨events, hspec⟩

/-- When actions that follow each other succeed, the first has succeeded. -/
theorem of_exec_bind (h : Shows plain watched s spec) {next : α → ExceptT Error (StateM σ) β}
    {b : β} {s' : σ} (hrun : exec (plain >>= next) s = (.ok b, s')) :
    ∃ a s₁ events, spec events (.ok a) s₁ ∧ exec (next a) s₁ = (.ok b, s') := by
  obtain ⟨e, -, hfailed⟩ | ⟨a, s₁, hplain, hnext⟩ := exec_bind_cases hrun
  · cases hfailed
  · obtain ⟨events, hspec⟩ := h.of_exec hplain
    exact ⟨a, s₁, events, hspec, hnext⟩

/-- A result that needs no action. -/
theorem pure (a : α) (h : spec [] (.ok a) s) :
    Shows (Pure.pure a : ExceptT Error (StateM σ) α) (Pure.pure a) s spec :=
  fun noted => ⟨.ok a, s, [], rfl, by rw [List.append_nil]; rfl, h⟩

/-- A failure that needs no action. -/
theorem throw (e : Error) (h : spec [] (.error e) s) :
    Shows (MonadExcept.throw e : ExceptT Error (StateM σ) α) (MonadExcept.throw e) s spec :=
  fun noted => ⟨.error e, s, [], rfl, by rw [List.append_nil]; rfl, h⟩

/-- A call that is noted. -/
theorem call (tag : Answer → ε) (call : Call) (given : α → Given)
    (action : ExceptT Error (StateM σ) α)
    (h : ∀ result s', exec action s = (result, s') →
      spec [tag ⟨call, result.map given⟩] result s') :
    Shows action (noting tag call given action) s spec :=
  fun _ => ⟨_, _, _, rfl, rfl, h _ _ rfl⟩

/-- Actions follow each other: a failure of the first ends them, and the second is begun in the
state that the first has left. -/
theorem bind (h : Shows plain watched s spec)
    {next : α → ExceptT Error (StateM σ) β} {next' : α → ExceptT Error (StateM (σ × List ε)) β}
    {spec' : List ε → Except Error β → σ → Prop}
    (herror : ∀ e events s', spec events (.error e) s' → spec' events (.error e) s')
    (hnext : ∀ a before s', spec before (.ok a) s' →
      Shows (next a) (next' a) s' fun after => spec' (before ++ after)) :
    Shows (plain >>= next) (watched >>= next') s spec' := by
  intro noted
  obtain ⟨result, s', before, hplain, hwatched, hspec⟩ := h noted
  cases result with
  | error e =>
    exact ⟨.error e, s', before, exec_bind_error hplain _, exec_bind_error hwatched _,
      herror e before s' hspec⟩
  | ok a =>
    obtain ⟨result', s'', after, hplain', hwatched', hspec'⟩ :=
      hnext a before s' hspec (noted ++ before)
    rw [List.append_assoc] at hwatched'
    refine ⟨result', s'', before ++ after, ?_, ?_, hspec'⟩
    · rw [exec_bind_ok hplain, hplain']
    · rw [exec_bind_ok hwatched, hwatched']

/-- A handler takes over after a failure, in the state that the failure has left. -/
theorem tryCatch (h : Shows plain watched s spec)
    {handler : Error → ExceptT Error (StateM σ) α}
    {handler' : Error → ExceptT Error (StateM (σ × List ε)) α}
    {spec' : List ε → Except Error α → σ → Prop}
    (hok : ∀ a events s', spec events (.ok a) s' → spec' events (.ok a) s')
    (hhandler : ∀ e before s', spec before (.error e) s' →
      Shows (handler e) (handler' e) s' fun after => spec' (before ++ after)) :
    Shows (MonadExcept.tryCatch plain handler) (MonadExcept.tryCatch watched handler') s spec' := by
  intro noted
  obtain ⟨result, s', before, hplain, hwatched, hspec⟩ := h noted
  cases result with
  | ok a =>
    exact ⟨.ok a, s', before, exec_tryCatch_ok hplain _, exec_tryCatch_ok hwatched _,
      hok a before s' hspec⟩
  | error e =>
    obtain ⟨result', s'', after, hplain', hwatched', hspec'⟩ :=
      hhandler e before s' hspec (noted ++ before)
    rw [List.append_assoc] at hwatched'
    refine ⟨result', s'', before ++ after, ?_, ?_, hspec'⟩
    · rw [exec_tryCatch_error hplain, hplain']
    · rw [exec_tryCatch_error hwatched, hwatched']

/-- An error of the kind that means an absence is a value, any other stays an error. -/
theorem absentAsNone {kind : ErrorKind} (h : Shows plain watched s spec)
    {spec' : List ε → Except Error (Option α) → σ → Prop}
    (hok : ∀ a events s', spec events (.ok a) s' → spec' events (.ok (some a)) s')
    (habsent : ∀ e events s', spec events (.error e) s' → e.kind = kind →
      spec' events (.ok none) s')
    (herror : ∀ e events s', spec events (.error e) s' → e.kind ≠ kind →
      spec' events (.error e) s') :
    Shows (Converge.absentAsNone kind plain) (Converge.absentAsNone kind watched) s spec' := by
  intro noted
  obtain ⟨result, s', events, hplain, hwatched, hspec⟩ := h noted
  cases result with
  | ok a =>
    exact ⟨_, s', events, exec_absentAsNone_ok hplain _, exec_absentAsNone_ok hwatched _,
      hok a events s' hspec⟩
  | error e =>
    refine ⟨_, s', events, exec_absentAsNone_error hplain _, exec_absentAsNone_error hwatched _, ?_⟩
    by_cases hkind : e.kind = kind
    · rw [if_pos hkind]
      exact habsent e events s' hspec hkind
    · rw [if_neg hkind]
      exact herror e events s' hspec hkind

/-- What a call comes to one kind of whose errors means an absence. -/
inductive Lookup (kind : ErrorKind) (call : Call) (given : α → Given) :
    List Answer → Except Error (Option α) → Prop
  | present (a : α) : Lookup kind call given [⟨call, .ok (given a)⟩] (.ok (some a))
  | absent {e : Error} (hkind : e.kind = kind) :
      Lookup kind call given [⟨call, .error e⟩] (.ok none)
  | failed {e : Error} (hkind : e.kind ≠ kind) :
      Lookup kind call given [⟨call, .error e⟩] (.error e)

theorem lookup (kind : ErrorKind) (call : Call) (given : α → Given)
    (action : ExceptT Error (StateM σ) α) (s : σ) :
    Shows (Converge.absentAsNone kind action)
      (Converge.absentAsNone kind (noting id call given action)) s
      fun answers found _ => Lookup kind call given answers found := by
  have hcall : Shows action (noting id call given action) s fun answers result _ =>
      answers = [⟨call, result.map given⟩] := .call id call given action fun _ _ _ => rfl
  refine hcall.absentAsNone ?_ ?_ ?_
  · rintro a _ s' rfl
    exact .present a
  · rintro e _ s' rfl hkind
    exact .absent hkind
  · rintro e _ s' rfl hkind
    exact .failed hkind

/-- Time passes unnoted. -/
theorem unnoted (action : StateM σ α) (h : spec [] (.ok (action.run s).1) (action.run s).2) :
    Shows (monadLift action : ExceptT Error (StateM σ) α)
      (monadLift (Answer.unnoted action : StateM (σ × List ε) α)) s spec :=
  fun noted => ⟨_, _, [], rfl, by rw [List.append_nil]; rfl, h⟩

end Shows

/-! ## What an action of a step shows -/

namespace Step

/-- The same of an action of a step, with what the step remembers. -/
def Shows (plain : Action (StateM σ) μ α) (watched : Action (StateM (σ × List ε)) μ α)
    (memory : μ) (s : σ) (spec : List ε → Except Error α → μ → σ → Prop) : Prop :=
  ∀ noted, ∃ result memory' s' events, Step.exec plain memory s = (result, memory', s') ∧
    Step.exec watched memory (s, noted) = (result, memory', (s', noted ++ events)) ∧
    spec events result memory' s'

namespace Shows

variable {plain : Action (StateM σ) μ α} {watched : Action (StateM (σ × List ε)) μ α}
  {memory : μ} {s : σ} {spec : List ε → Except Error α → μ → σ → Prop}

theorem imp (h : Shows plain watched memory s spec)
    {spec' : List ε → Except Error α → μ → σ → Prop}
    (hspec : ∀ events result memory' s', spec events result memory' s' →
      spec' events result memory' s') : Shows plain watched memory s spec' := by
  intro noted
  obtain ⟨result, memory', s', events, hplain, hwatched, h⟩ := h noted
  exact ⟨result, memory', s', events, hplain, hwatched, hspec _ _ _ _ h⟩

/-- A result that needs no action. -/
theorem pure (a : α) (h : spec [] (.ok a) memory s) :
    Shows (Pure.pure a : Action (StateM σ) μ α) (Pure.pure a) memory s spec :=
  fun noted => ⟨.ok a, memory, s, [], rfl, by rw [List.append_nil]; rfl, h⟩

/-- A call does not touch what is remembered. -/
theorem call {action : ExceptT Error (StateM σ) α}
    {action' : ExceptT Error (StateM (σ × List ε)) α}
    (h : Converge.Shows action action' s fun events result s' => spec events result memory s') :
    Shows (Step.call action) (Step.call action') memory s spec := by
  intro noted
  obtain ⟨result, s', events, hplain, hwatched, hspec⟩ := h noted
  exact ⟨result, memory, s', events, exec_call hplain memory, exec_call hwatched memory, hspec⟩

/-- Actions follow each other: a failure of the first ends them, and the second is begun with what
the first has left. -/
theorem bind (h : Shows plain watched memory s spec)
    {next : α → Action (StateM σ) μ β} {next' : α → Action (StateM (σ × List ε)) μ β}
    {spec' : List ε → Except Error β → μ → σ → Prop}
    (herror : ∀ e events memory' s', spec events (.error e) memory' s' →
      spec' events (.error e) memory' s')
    (hnext : ∀ a before memory' s', spec before (.ok a) memory' s' →
      Shows (next a) (next' a) memory' s' fun after => spec' (before ++ after)) :
    Shows (plain >>= next) (watched >>= next') memory s spec' := by
  intro noted
  obtain ⟨result, memory', s', before, hplain, hwatched, hspec⟩ := h noted
  cases result with
  | error e =>
    exact ⟨.error e, memory', s', before, exec_bind_error hplain _, exec_bind_error hwatched _,
      herror e before memory' s' hspec⟩
  | ok a =>
    obtain ⟨result', memory'', s'', after, hplain', hwatched', hspec'⟩ :=
      hnext a before memory' s' hspec (noted ++ before)
    rw [List.append_assoc] at hwatched'
    refine ⟨result', memory'', s'', before ++ after, ?_, ?_, hspec'⟩
    · rw [exec_bind_ok hplain, hplain']
    · rw [exec_bind_ok hwatched, hwatched']

/-- What is remembered is handed on. -/
theorem get_bind {next : μ → Action (StateM σ) μ α} {next' : μ → Action (StateM (σ × List ε)) μ α}
    (h : Shows (next memory) (next' memory) memory s spec) :
    Shows (get >>= next) (get >>= next') memory s spec := by
  intro noted
  rw [exec_bind_ok (exec_get memory s), exec_bind_ok (exec_get memory (s, noted))]
  exact h noted

/-- What is remembered is replaced. -/
theorem set_bind (memory' : μ) {next : PUnit → Action (StateM σ) μ α}
    {next' : PUnit → Action (StateM (σ × List ε)) μ α}
    (h : Shows (next ⟨⟩) (next' ⟨⟩) memory' s spec) :
    Shows (set memory' >>= next) (set memory' >>= next') memory s spec := by
  intro noted
  rw [exec_bind_ok (exec_set memory' memory s), exec_bind_ok (exec_set memory' memory (s, noted))]
  exact h noted

end Shows

end Step

/-! ## What plans show -/

/-- The same of an action that cannot fail: the check or the run of a step, or a plan. -/
def Shown (plain : StateM σ α) (watched : StateM (σ × List ε) α) (s : σ)
    (spec : List ε → α → σ → Prop) : Prop :=
  ∀ noted, ∃ a s' events, plain.run s = (a, s') ∧
    watched.run (s, noted) = (a, (s', noted ++ events)) ∧ spec events a s'

/-- What is shown is shown of how the action itself ends. -/
theorem Shown.run_eq {plain : StateM σ α} {watched : StateM (σ × List ε) α} {s : σ}
    {spec : List ε → α → σ → Prop} (h : Shown plain watched s spec) :
    Shown plain watched s fun events a s' => spec events a s' ∧ plain.run s = (a, s') := by
  intro noted
  obtain ⟨a, s', events, hplain, hwatched, h⟩ := h noted
  exact ⟨a, s', events, hplain, hwatched, h, hplain⟩

theorem Shown.imp {plain : StateM σ α} {watched : StateM (σ × List ε) α} {s : σ}
    {spec spec' : List ε → α → σ → Prop} (h : Shown plain watched s spec)
    (hspec : ∀ events a s', spec events a s' → spec' events a s') :
    Shown plain watched s spec' := by
  intro noted
  obtain ⟨a, s', events, hplain, hwatched, h⟩ := h noted
  exact ⟨a, s', events, hplain, hwatched, hspec _ _ _ h⟩

/-- What is shown of an action under two specifications is shown under both. -/
theorem Shown.and {plain : StateM σ α} {watched : StateM (σ × List ε) α} {s : σ}
    {spec spec' : List ε → α → σ → Prop} (h : Shown plain watched s spec)
    (h' : Shown plain watched s spec') :
    Shown plain watched s fun events a s' => spec events a s' ∧ spec' events a s' := by
  intro noted
  obtain ⟨a, s', events, hplain, hwatched, hspec⟩ := h noted
  obtain ⟨a', s'', events', hplain', hwatched', hspec'⟩ := h' noted
  obtain ⟨rfl, rfl⟩ := Prod.mk.inj (hplain.symm.trans hplain')
  obtain rfl : events = events' := by
    have hstate := congrArg (fun ended => ended.2.2) (hwatched.symm.trans hwatched')
    exact List.append_cancel_left hstate
  exact ⟨a, s', events, hplain, hwatched, hspec, hspec'⟩

/-- An action that may fail gives a result without failing. -/
theorem Shows.and {plain : ExceptT Error (StateM σ) α}
    {watched : ExceptT Error (StateM (σ × List ε)) α} {s : σ}
    {spec spec' : List ε → Except Error α → σ → Prop} (h : Shows plain watched s spec)
    (h' : Shows plain watched s spec') :
    Shows plain watched s fun events result s' =>
      spec events result s' ∧ spec' events result s' := by
  have hshown : Shown plain.run watched.run s spec := h
  exact hshown.and h'

/-- What is shown of an action of a step is shown of the outcome that it settles to. -/
theorem Outcome.shown_settle {plain : Step.Action (StateM σ) μ Outcome}
    {watched : Step.Action (StateM (σ × List ε)) μ Outcome} {memory : μ} {s : σ}
    {spec : List ε → Outcome × μ → σ → Prop}
    (h : Step.Shows plain watched memory s fun events result memory' s' =>
      spec events (.ofResult result, memory') s') :
    Shown ((settle plain : StateT μ (StateM σ) Outcome).run memory)
      ((settle watched : StateT μ (StateM (σ × List ε)) Outcome).run memory) s spec := by
  intro noted
  obtain ⟨result, memory', s', events, hplain, hwatched, hspec⟩ := h noted
  exact ⟨_, s', events, settle_run hplain, settle_run hwatched, hspec⟩

/-- A step shows what its check shows, and what its run shows if the check completes. -/
theorem Step.shown_evaluate {name description : String} {prompts : Bool} {memory : μ}
    {check run : StateT μ (StateM σ) Outcome}
    {check' run' : StateT μ (StateM (σ × List ε)) Outcome} {s : σ}
    {spec : List ε → StepRecord → σ → Prop}
    (h : Shown (check.run memory) (check'.run memory) s fun before checked s' =>
      if checked.1.isCompleted then
        Shown (run.run checked.2) (run'.run checked.2) s' fun after ran =>
          spec (before ++ after) ⟨name, .run, ran.1⟩
      else spec before ⟨name, .check, checked.1⟩ s') :
    Shown (Step.mk name description prompts μ memory check run).evaluate
      (Step.mk name description prompts μ memory check' run').evaluate s spec := by
  intro noted
  obtain ⟨⟨checked, memory'⟩, s', before, hcheck, hcheck', hspec⟩ := h noted
  by_cases hdone : checked.isCompleted
  · rw [if_pos hdone] at hspec
    obtain ⟨⟨ran, memory''⟩, s'', after, hrun, hrun', hspec⟩ := hspec (noted ++ before)
    rw [List.append_assoc] at hrun'
    exact ⟨_, s'', before ++ after, evaluate_of_run hcheck hdone hrun,
      evaluate_of_run hcheck' hdone hrun', hspec⟩
  · rw [if_neg hdone] at hspec
    rw [Bool.not_eq_true] at hdone
    exact ⟨_, s', before, evaluate_of_check hcheck hdone, evaluate_of_check hcheck' hdone, hspec⟩

namespace Plan

/-- A plan shows what its first step shows, and then what the rest shows unless the step fails. -/
theorem shown_cons {step : Step (StateM σ)} {step' : Step (StateM (σ × List ε))}
    {rest : List (Step (StateM σ))} {rest' : List (Step (StateM (σ × List ε)))} {s : σ}
    {spec : List ε → List StepRecord → σ → Prop}
    (h : Shown step.evaluate step'.evaluate s fun before record s' =>
      if record.outcome.isFailed then spec before [record] s'
      else Shown (evaluate rest) (evaluate rest') s' fun after records =>
        spec (before ++ after) (record :: records)) :
    Shown (evaluate (step :: rest)) (evaluate (step' :: rest')) s spec := by
  intro noted
  obtain ⟨record, s', before, hstep, hstep', hspec⟩ := h noted
  by_cases hfailed : record.outcome.isFailed
  · rw [if_pos hfailed] at hspec
    refine ⟨[record], s', before, ?_, ?_, hspec⟩
    · rw [evaluate_cons hstep, if_pos hfailed]
    · rw [evaluate_cons hstep', if_pos hfailed]
  · rw [if_neg hfailed] at hspec
    obtain ⟨records, s'', after, hrest, hrest', hspec⟩ := hspec (noted ++ before)
    rw [List.append_assoc] at hrest'
    refine ⟨record :: records, s'', before ++ after, ?_, ?_, hspec⟩
    · rw [evaluate_cons hstep, if_neg hfailed, hrest]
    · rw [evaluate_cons hstep', if_neg hfailed, hrest']

/-- An execution shows what the evaluation of its steps shows. -/
theorem shown_execute {plan : List (Step (StateM σ))} {plan' : List (Step (StateM (σ × List ε)))}
    {s : σ} {spec : List ε → Report → σ → Prop} (hlength : plan'.length = plan.length)
    (h : Shown (evaluate plan) (evaluate plan') s fun events records =>
      spec events (.ofRecords records plan.length)) :
    Shown (execute plan) (execute plan') s spec := by
  intro noted
  obtain ⟨records, s', events, hplan, hplan', hspec⟩ := h noted
  refine ⟨_, s', events, execute_of_evaluate hplan, ?_, hspec⟩
  rw [execute_of_evaluate hplan', hlength]

/-- A plan of one step shows what the step shows. -/
theorem shown_single {step : Step (StateM σ)} {step' : Step (StateM (σ × List ε))} {s : σ}
    {spec : List ε → Report → σ → Prop}
    (h : Shown step.evaluate step'.evaluate s fun events record =>
      spec events (.ofRecords [record] 1)) :
    Shown (execute [step]) (execute [step']) s spec := by
  refine shown_execute rfl (shown_cons (h.imp fun events record s' hspec => ?_))
  split
  · exact hspec
  · refine fun noted => ⟨[], s', [], rfl, by rw [List.append_nil]; rfl, ?_⟩
    show spec (events ++ []) (.ofRecords [record] 1) s'
    rwa [List.append_nil]

end Plan

end Converge
