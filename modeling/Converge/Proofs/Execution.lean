import Converge.Plan
/-!
# Running actions on a state

In a state monad an action is a function from a state to a result and the next state.  `exec` and
`Step.exec` are these functions for the actions of collaborators and of steps, with one equation for
each way of building an action, so that later proofs run a check or a run call by call.  A step is
evaluated to one record, and a plan to the records of its steps up to the first failure.  Main
statements: `Step.evaluate_of_check` and `Step.evaluate_of_run`, `Plan.evaluate_cons`, and that the
loop over a plan ends with the records of its evaluation and with the outcome that they tell
(`Plan.execute_run`).
-/

namespace Converge

variable {σ μ α β : Type}

/-! ## Actions of collaborators -/

/-- What an action that may fail makes of a state. -/
def exec (action : ExceptT Error (StateM σ) α) (s : σ) : Except Error α × σ :=
  action.run.run s

@[simp] theorem exec_pure (a : α) (s : σ) :
    exec (pure a : ExceptT Error (StateM σ) α) s = (.ok a, s) := rfl

/-- An action that succeeds hands its value and its state on. -/
theorem exec_bind_ok {action : ExceptT Error (StateM σ) α} {s s' : σ} {a : α}
    (h : exec action s = (.ok a, s')) (next : α → ExceptT Error (StateM σ) β) :
    exec (action >>= next) s = exec (next a) s' := by
  simp only [exec, ExceptT.run_bind, StateT.run_bind] at h ⊢
  rw [h]
  rfl

/-- An action that fails ends the sequence that it begins. -/
theorem exec_bind_error {action : ExceptT Error (StateM σ) α} {s s' : σ} {e : Error}
    (h : exec action s = (.error e, s')) (next : α → ExceptT Error (StateM σ) β) :
    exec (action >>= next) s = (.error e, s') := by
  simp only [exec, ExceptT.run_bind, StateT.run_bind] at h ⊢
  rw [h]
  rfl

/-- A sequence ends with a failure of its first action or with what the second makes of the state
that the first has left. -/
theorem exec_bind_cases {action : ExceptT Error (StateM σ) α}
    {next : α → ExceptT Error (StateM σ) β} {s s' : σ} {result : Except Error β}
    (h : exec (action >>= next) s = (result, s')) :
    (∃ e, exec action s = (.error e, s') ∧ result = .error e) ∨
      ∃ a s₁, exec action s = (.ok a, s₁) ∧ exec (next a) s₁ = (result, s') := by
  rcases hrun : exec action s with ⟨e | a, s₁⟩
  · rw [exec_bind_error hrun] at h
    cases h
    exact .inl ⟨e, rfl, rfl⟩
  · rw [exec_bind_ok hrun] at h
    exact .inr ⟨a, s₁, rfl, h⟩

/-- A handler is passed over by a success. -/
theorem exec_tryCatch_ok {action : ExceptT Error (StateM σ) α} {s s' : σ} {a : α}
    (h : exec action s = (.ok a, s')) (handler : Error → ExceptT Error (StateM σ) α) :
    exec (tryCatch action handler) s = (.ok a, s') := by
  show exec (ExceptT.tryCatch action handler) s = _
  simp only [exec, ExceptT.tryCatch, ExceptT.run_mk, StateT.run_bind] at h ⊢
  rw [show StateT.run action s = (.ok a, s') from h]
  rfl

/-- A handler takes over after an error, in the state that the error has left. -/
theorem exec_tryCatch_error {action : ExceptT Error (StateM σ) α} {s s' : σ} {e : Error}
    (h : exec action s = (.error e, s')) (handler : Error → ExceptT Error (StateM σ) α) :
    exec (tryCatch action handler) s = exec (handler e) s' := by
  show exec (ExceptT.tryCatch action handler) s = _
  simp only [exec, ExceptT.tryCatch, ExceptT.run_mk, StateT.run_bind] at h ⊢
  rw [show StateT.run action s = (.error e, s') from h]
  rfl

/-- A success passes `absentAsNone` as a value. -/
theorem exec_absentAsNone_ok {action : ExceptT Error (StateM σ) α} {s s' : σ} {a : α}
    (h : exec action s = (.ok a, s')) (kind : ErrorKind) :
    exec (absentAsNone kind action) s = (.ok (some a), s') := by
  have hmap : exec (some <$> action) s = (.ok (some a), s') := by
    rw [map_eq_pure_bind]
    exact exec_bind_ok h _
  exact exec_tryCatch_ok hmap _

/-- `absentAsNone` turns an error of its kind into an absence and passes every other on. -/
theorem exec_absentAsNone_error {action : ExceptT Error (StateM σ) α} {s s' : σ} {e : Error}
    (h : exec action s = (.error e, s')) (kind : ErrorKind) :
    exec (absentAsNone kind action) s =
      (if e.kind = kind then .ok none else .error e, s') := by
  have hmap : exec (some <$> action) s = (.error e, s') := by
    rw [map_eq_pure_bind]
    exact exec_bind_error h _
  unfold absentAsNone
  rw [exec_tryCatch_error hmap]
  split <;> rfl

/-! ## Actions of steps -/

namespace Step

/-- What an action of a step makes of what the step remembers and of a state. -/
def exec (action : Action (StateM σ) μ α) (memory : μ) (s : σ) : Except Error α × μ × σ :=
  let ((result, memory), s) := (action.run.run memory).run s
  (result, memory, s)

@[simp] theorem exec_pure (a : α) (memory : μ) (s : σ) :
    exec (pure a : Action (StateM σ) μ α) memory s = (.ok a, memory, s) := rfl

@[simp] theorem exec_get (memory : μ) (s : σ) :
    exec (get : Action (StateM σ) μ μ) memory s = (.ok memory, memory, s) := rfl

@[simp] theorem exec_set (next memory : μ) (s : σ) :
    exec (set next : Action (StateM σ) μ PUnit) memory s = (.ok ⟨⟩, next, s) := rfl

/-- A call changes the state only. -/
theorem exec_call {action : ExceptT Error (StateM σ) α} {s s' : σ} {result : Except Error α}
    (h : Converge.exec action s = (result, s')) (memory : μ) :
    exec (call action : Action (StateM σ) μ α) memory s = (result, memory, s') := by
  show ((Converge.exec action s).1, memory, (Converge.exec action s).2) = _
  rw [h]

theorem exec_bind_ok {action : Action (StateM σ) μ α} {memory memory' : μ} {s s' : σ} {a : α}
    (h : exec action memory s = (.ok a, memory', s')) (next : α → Action (StateM σ) μ β) :
    exec (action >>= next) memory s = exec (next a) memory' s' := by
  rcases hrun : (action.run.run memory).run s with ⟨⟨result, memory₁⟩, s₁⟩
  simp only [exec, ExceptT.run_bind, StateT.run_bind] at h ⊢
  rw [hrun] at h ⊢
  obtain ⟨rfl, rfl, rfl⟩ := by simpa only [Prod.mk.injEq] using h
  rfl

theorem exec_bind_error {action : Action (StateM σ) μ α} {memory memory' : μ} {s s' : σ}
    {e : Error} (h : exec action memory s = (.error e, memory', s'))
    (next : α → Action (StateM σ) μ β) :
    exec (action >>= next) memory s = (.error e, memory', s') := by
  rcases hrun : (action.run.run memory).run s with ⟨⟨result, memory₁⟩, s₁⟩
  simp only [exec, ExceptT.run_bind, StateT.run_bind] at h ⊢
  rw [hrun] at h ⊢
  obtain ⟨rfl, rfl, rfl⟩ := by simpa only [Prod.mk.injEq] using h
  rfl

end Step

/-- The outcome that a result settles to: an error becomes a failure with its message. -/
def Outcome.ofResult : Except Error Outcome → Outcome
  | .ok outcome => outcome
  | .error e => .failed e.message

theorem Outcome.not_isFailed_of_isSkipped {outcome : Outcome} (h : outcome.isSkipped) :
    outcome.isFailed = false := by
  have hstatus : outcome.status = .skipped := of_decide_eq_true h
  rw [isFailed, hstatus]
  rfl

theorem Outcome.settle_run {action : Step.Action (StateM σ) μ Outcome} {memory memory' : μ}
    {s s' : σ} {result : Except Error Outcome}
    (h : Step.exec action memory s = (result, memory', s')) :
    ((Outcome.settle action : StateT μ (StateM σ) Outcome).run memory).run s =
      ((Outcome.ofResult result, memory'), s') := by
  unfold Outcome.settle
  rcases hrun : (action.run.run memory).run s with ⟨⟨result₁, memory₁⟩, s₁⟩
  simp only [StateT.run_bind, Step.exec] at h ⊢
  rw [hrun] at h ⊢
  obtain ⟨rfl, rfl, rfl⟩ := by simpa only [Prod.mk.injEq] using h
  cases result₁ <;> rfl

/-! ## Steps -/

namespace Step

/-- Checks a step and, when the check completes, runs it with what the check has remembered. -/
def evaluate (step : Step (StateM σ)) : StateM σ StepRecord := do
  let (checked, memory) ← step.check.run step.memory
  if checked.isCompleted then
    let (ran, _) ← step.run.run memory
    return ⟨step.name, .run, ran⟩
  else
    return ⟨step.name, .check, checked⟩

/-- A check that does not complete ends its step. -/
theorem evaluate_of_check {step : Step (StateM σ)} {s s' : σ} {checked : Outcome}
    {memory : step.Memory} (hcheck : (step.check.run step.memory).run s = ((checked, memory), s'))
    (h : checked.isCompleted = false) :
    step.evaluate.run s = (⟨step.name, .check, checked⟩, s') := by
  unfold evaluate
  simp only [StateT.run_bind]
  rw [hcheck]
  show StateT.run (if checked.isCompleted then _ else _) s' = _
  rw [h]
  rfl

/-- A check that completes is followed by the run, which sees what the check has remembered. -/
theorem evaluate_of_run {step : Step (StateM σ)} {s s' s'' : σ} {checked ran : Outcome}
    {memory memory' : step.Memory}
    (hcheck : (step.check.run step.memory).run s = ((checked, memory), s'))
    (h : checked.isCompleted = true) (hrun : (step.run.run memory).run s' = ((ran, memory'), s'')) :
    step.evaluate.run s = (⟨step.name, .run, ran⟩, s'') := by
  unfold evaluate
  simp only [StateT.run_bind]
  rw [hcheck]
  show StateT.run (if checked.isCompleted then _ else _) s' = _
  rw [h]
  show StateT.run (step.run.run memory >>= _) s' = _
  rw [StateT.run_bind, hrun]
  rfl

end Step

/-! ## Reports -/

/-- The outcome of the record that failed, or else the one given. -/
def Outcome.told (outcome : Outcome) (records : List StepRecord) : Outcome :=
  ((records.find? (·.outcome.isFailed)).map (·.outcome)).getD outcome

theorem Outcome.told_cons (outcome : Outcome) (record : StepRecord) (records : List StepRecord) :
    outcome.told (record :: records) =
      if record.outcome.isFailed then record.outcome else outcome.told records := by
  rw [told, List.find?_cons]
  cases record.outcome.isFailed <;> rfl

namespace Report

/-- The report with these records whose outcome is the one that they tell. -/
def ofRecords (records : List StepRecord) (total : Nat) : Report :=
  ⟨records, total, Outcome.completed.told records⟩

@[simp] theorem records_ofRecords (records : List StepRecord) (total : Nat) :
    (ofRecords records total).records = records := rfl

/-- The outcome is a failure just when a record is one. -/
theorem isFailed_ofRecords (records : List StepRecord) (total : Nat) :
    (ofRecords records total).outcome.isFailed = records.any (·.outcome.isFailed) := by
  show (Outcome.completed.told records).isFailed = _
  induction records with
  | nil => rfl
  | cons record records ih =>
    rw [Outcome.told_cons, List.any_cons]
    cases h : record.outcome.isFailed with
    | true => rw [if_pos rfl, h, Bool.true_or]
    | false => rw [if_neg Bool.false_ne_true, ih, Bool.false_or]

/-- Without a failed record the outcome is plainly completed. -/
theorem ofRecords_eq {records : List StepRecord} {total : Nat}
    (h : ∀ record ∈ records, record.outcome.isFailed = false) :
    ofRecords records total = ⟨records, total, .completed⟩ := by
  have hnone : records.find? (·.outcome.isFailed) = none := by
    refine List.find?_eq_none.2 fun record hmem => ?_
    rw [h record hmem]
    exact Bool.false_ne_true
  rw [ofRecords, Outcome.told, hnone]
  rfl

/-- A failure behind other records is the outcome. -/
theorem ofRecords_concat {front : List StepRecord} {last : StepRecord} {total : Nat}
    (hlast : last.outcome.isFailed) (h : ∀ record ∈ front, record.outcome.isFailed = false) :
    ofRecords (front ++ [last]) total = ⟨front ++ [last], total, last.outcome⟩ := by
  have hnone : front.find? (·.outcome.isFailed) = none :=
    List.find?_eq_none.2 fun record hmem => by simp [h record hmem]
  rw [ofRecords, Outcome.told, List.find?_append, hnone, Option.none_or,
    List.find?_singleton, if_pos hlast]
  rfl

end Report

/-! ## Plans -/

namespace Plan

/-- Evaluates steps in order up to the first failure. -/
def evaluate : List (Step (StateM σ)) → StateM σ (List StepRecord)
  | [] => return []
  | step :: rest => do
    let record ← step.evaluate
    if record.outcome.isFailed then return [record]
    else return record :: (← evaluate rest)

/-- A step that fails is the last to be evaluated; after any other the rest of the plan is
evaluated in the state that the step has left. -/
theorem evaluate_cons {step : Step (StateM σ)} {s s' : σ} {record : StepRecord}
    (h : step.evaluate.run s = (record, s')) (rest : List (Step (StateM σ))) :
    (evaluate (step :: rest)).run s =
      if record.outcome.isFailed then ([record], s')
      else (record :: ((evaluate rest).run s').1, ((evaluate rest).run s').2) := by
  rw [evaluate, StateT.run_bind, h]
  show StateT.run (if record.outcome.isFailed then _ else _) s' = _
  split <;> rfl

theorem evaluate_single {step : Step (StateM σ)} {s s' : σ} {record : StepRecord}
    (h : step.evaluate.run s = (record, s')) : (evaluate [step]).run s = ([record], s') := by
  rw [evaluate_cons h]
  split <;> rfl

/-- One turn of the loop adds the record of the step, and ends with its outcome if that is a
failure. -/
theorem executeFrom_cons {step : Step (StateM σ)} {s s' : σ} {record : StepRecord}
    (h : step.evaluate.run s = (record, s')) (rest : List (Step (StateM σ)))
    (records : List StepRecord) (outcome : Outcome) :
    (executeFrom records outcome (step :: rest)).run s =
      if record.outcome.isFailed then ((records ++ [record], record.outcome), s')
      else (executeFrom (records ++ [record]) outcome rest).run s' := by
  rcases hcheck : (step.check.run step.memory).run s with ⟨⟨checked, memory⟩, s₁⟩
  rw [executeFrom, StateT.run_bind, hcheck]
  show StateT.run _ s₁ = _
  cases hstatus : checked.status with
  | skipped =>
    have hstep := Step.evaluate_of_check hcheck (by simp [Outcome.isCompleted, hstatus])
    obtain ⟨rfl, rfl⟩ := Prod.mk.inj (hstep.symm.trans h)
    have hpassed : ¬ checked.isFailed = true := by simp [Outcome.isFailed, hstatus]
    simp only [hstatus]
    rw [if_neg hpassed]
  | failed =>
    have hstep := Step.evaluate_of_check hcheck (by simp [Outcome.isCompleted, hstatus])
    obtain ⟨rfl, rfl⟩ := Prod.mk.inj (hstep.symm.trans h)
    have hfailed : checked.isFailed = true := by simp [Outcome.isFailed, hstatus]
    simp only [hstatus]
    rw [if_pos hfailed]
    rfl
  | completed =>
    rcases hrun : (step.run.run memory).run s₁ with ⟨⟨ran, memory'⟩, s₂⟩
    have hstep := Step.evaluate_of_run hcheck (by simp [Outcome.isCompleted, hstatus]) hrun
    obtain ⟨rfl, rfl⟩ := Prod.mk.inj (hstep.symm.trans h)
    simp only [hstatus]
    rw [StateT.run_bind, hrun]
    show StateT.run _ s₂ = _
    dsimp only
    split <;> rfl

/-- The loop adds the records of the evaluation, and its outcome is the one that they tell. -/
theorem executeFrom_run (plan : List (Step (StateM σ))) (records : List StepRecord)
    (outcome : Outcome) (s : σ) :
    (executeFrom records outcome plan).run s =
      ((records ++ ((evaluate plan).run s).1, outcome.told ((evaluate plan).run s).1),
        ((evaluate plan).run s).2) := by
  induction plan generalizing records s with
  | nil =>
    show ((records, outcome), s) = ((records ++ [], outcome), s)
    rw [List.append_nil]
  | cons step rest ih =>
    rcases hstep : step.evaluate.run s with ⟨record, s'⟩
    rw [executeFrom_cons hstep, evaluate_cons hstep]
    by_cases hfailed : record.outcome.isFailed = true
    · simp only [if_pos hfailed, Outcome.told_cons]
    · simp only [if_neg hfailed, ih, Outcome.told_cons, List.append_assoc, List.singleton_append]

/-- The report of an execution holds the records of its evaluation and the outcome they tell. -/
theorem execute_run (plan : List (Step (StateM σ))) (s : σ) :
    (execute plan).run s =
      (.ofRecords ((evaluate plan).run s).1 plan.length, ((evaluate plan).run s).2) := by
  rw [execute, StateT.run_bind, executeFrom_run]
  rfl

theorem execute_of_evaluate {plan : List (Step (StateM σ))} {s s' : σ} {records : List StepRecord}
    (h : (evaluate plan).run s = (records, s')) :
    (execute plan).run s = (.ofRecords records plan.length, s') := by
  rw [execute_run, h]

/-- What every step of a plan preserves, the plan preserves. -/
theorem evaluate_invariant {invariant : σ → Prop} {plan : List (Step (StateM σ))}
    (hstep : ∀ step ∈ plan, ∀ s, invariant s → invariant (step.evaluate.run s).2) :
    ∀ s, invariant s → invariant ((evaluate plan).run s).2 := by
  induction plan with
  | nil => exact fun s hs => hs
  | cons step rest ih =>
    intro s hs
    -- whether or not the step fails, the invariant holds in the state that it leaves
    rcases hrun : step.evaluate.run s with ⟨record, s'⟩
    have hs' : invariant s' := by
      have := hstep step List.mem_cons_self s hs
      rwa [hrun] at this
    rw [evaluate_cons hrun]
    split
    · exact hs'
    · exact ih (fun step hmem => hstep step (List.mem_cons_of_mem _ hmem)) s' hs'

end Plan

end Converge
