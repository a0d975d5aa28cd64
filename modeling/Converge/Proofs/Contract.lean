import Converge.Proofs.Execution
import Mathlib.Data.List.Chain
/-!
# The contract of plan execution

A watched plan notes a visit for every check and every run that is called, with the outcome that it
had.  `Contract` says which visits an execution makes and how its report follows from them, and
`Plan.execute_contract` that every plan keeps it in every state.  The proof goes through `Course`,
the visits and records that the names of a plan allow.
-/

namespace Converge

variable {σ : Type}

/-! ## Reports -/

namespace Report

theorem succeeded_ofRecords (records : List StepRecord) (total : Nat) :
    (ofRecords records total).succeeded = !records.any (·.outcome.isFailed) := by
  rw [succeeded, isFailed_ofRecords]

/-- The records name a step as failed just when the outcome beside them is a failure. -/
theorem failedStep?_ofRecords_eq_none_iff {records : List StepRecord} {total : Nat} :
    (ofRecords records total).failedStep? = none ↔ (ofRecords records total).succeeded := by
  rw [succeeded_ofRecords, failedStep?, failure?, ofRecords, Option.map_eq_none_iff,
    List.find?_eq_none, Bool.not_eq_true', List.any_eq_false]

/-- The line that sums a report up tells how many steps ran and how many were skipped. -/
theorem text_eq (report : Report) :
    ∃ front back, report.text = front ++ " steps evaluated, " ++
      String.ofList (Text.decimal report.ran) ++ " ran, " ++
      String.ofList (Text.decimal report.skipped) ++ " skipped" ++ back := by
  refine ⟨"Plan " ++ report.outcome.status.name ++ ": " ++
    String.ofList (Text.decimal report.records.length) ++ " of " ++
    String.ofList (Text.decimal report.total),
    (report.failedStep?.map fun step => ", failed at '" ++ step ++ "'").getD "", ?_⟩
  unfold text
  cases report.failedStep? with
  | none => simp only [Option.map_none, Option.getD_none, String.append_empty]
  | some step =>
    simp only [Option.map_some, Option.getD_some, String.append_assoc, -String.reduceAppend]

end Report

/-! ## Visits -/

/-- A call of a part of a step: the step's place in the plan, the part, and how it ended. -/
structure Visit where
  index : Nat
  phase : Phase
  outcome : Outcome

namespace Visit

/-- Whether the step's run has to follow: the visit is a check that completed. -/
def callsRun (visit : Visit) : Prop :=
  visit.phase = .check ∧ visit.outcome.isCompleted

instance (visit : Visit) : Decidable visit.callsRun :=
  inferInstanceAs (Decidable (_ ∧ _))

/-- How two visits may follow each other.  Nothing follows a failure.  A run follows just the
completed checks, and it is of the same step. -/
structure Precedes (earlier later : Visit) : Prop where
  not_failed : earlier.outcome.isFailed = false
  run_iff : later.phase = .run ↔ earlier.callsRun
  same_step : later.phase = .run → later.index = earlier.index

end Visit

/-- A part of a step that notes the visit beside the state. -/
def Visit.noting {μ : Type} (index : Nat) (phase : Phase) (part : StateT μ (StateM σ) Outcome) :
    StateT μ (StateM (σ × List Visit)) Outcome :=
  fun memory state =>
    let result := (part.run memory).run state.1
    (result.1, (result.2, state.2 ++ [⟨index, phase, result.1.1⟩]))

theorem Visit.noting_run {μ : Type} {part : StateT μ (StateM σ) Outcome} {memory memory' : μ}
    {s s' : σ} {outcome : Outcome}
    (h : (part.run memory).run s = ((outcome, memory'), s')) (index : Nat) (phase : Phase)
    (visits : List Visit) :
    ((noting index phase part).run memory).run (s, visits) =
      ((outcome, memory'), (s', visits ++ [⟨index, phase, outcome⟩])) := by
  show (((part.run memory).run s).1, ((part.run memory).run s).2,
    visits ++ [⟨index, phase, ((part.run memory).run s).1.1⟩]) = _
  rw [h]

/-- A step that notes the visits to it. -/
def Step.watched (index : Nat) (step : Step (StateM σ)) : Step (StateM (σ × List Visit)) where
  name := step.name
  description := step.description
  prompts := step.prompts
  Memory := step.Memory
  memory := step.memory
  check := Visit.noting index .check step.check
  run := Visit.noting index .run step.run

/-- A plan that notes the visits to its steps, whose places are counted from `first` on. -/
def Plan.watched (first : Nat) : List (Step (StateM σ)) → List (Step (StateM (σ × List Visit)))
  | [] => []
  | step :: rest => step.watched first :: watched (first + 1) rest

@[simp] theorem Plan.length_watched (plan : List (Step (StateM σ))) (first : Nat) :
    (Plan.watched first plan).length = plan.length := by
  induction plan generalizing first with
  | nil => rfl
  | cons step rest ih => simp [watched, ih]

/-! ## Courses -/

/-- The visits and the records that a plan with these names may come to, its places counted from
`first` on. -/
inductive Course : (first : Nat) → List String → List Visit → List StepRecord → Prop
  /-- Nothing is left to do. -/
  | finished {first : Nat} : Course first [] [] []
  /-- The check of a step fails. -/
  | checkFailed {first : Nat} {name : String} {names : List String} {checked : Outcome}
      (h : checked.status = .failed) :
      Course first (name :: names) [⟨first, .check, checked⟩] [⟨name, .check, checked⟩]
  /-- A step is skipped. -/
  | skipped {first : Nat} {name : String} {names : List String} {checked : Outcome}
      {visits : List Visit} {records : List StepRecord} (h : checked.status = .skipped)
      (rest : Course (first + 1) names visits records) :
      Course first (name :: names) (⟨first, .check, checked⟩ :: visits)
        (⟨name, .check, checked⟩ :: records)
  /-- The run of a step fails. -/
  | runFailed {first : Nat} {name : String} {names : List String} {checked ran : Outcome}
      (h : checked.status = .completed) (hran : ran.status = .failed) :
      Course first (name :: names) [⟨first, .check, checked⟩, ⟨first, .run, ran⟩]
        [⟨name, .run, ran⟩]
  /-- A step has run. -/
  | ran {first : Nat} {name : String} {names : List String} {checked ran : Outcome}
      {visits : List Visit} {records : List StepRecord} (h : checked.status = .completed)
      (hran : ran.status ≠ .failed) (rest : Course (first + 1) names visits records) :
      Course first (name :: names) (⟨first, .check, checked⟩ :: ⟨first, .run, ran⟩ :: visits)
        (⟨name, .run, ran⟩ :: records)

/-- A watched plan does what the plan does, and notes a course of it. -/
theorem Plan.evaluate_watched (plan : List (Step (StateM σ))) (first : Nat) (s : σ)
    (noted : List Visit) :
    ∃ records s' visits,
      (evaluate plan).run s = (records, s') ∧
      (evaluate (watched first plan)).run (s, noted) = (records, (s', noted ++ visits)) ∧
      Course first (plan.map (·.name)) visits records := by
  -- the visits that were noted before only stand in front
  induction plan generalizing first s noted with
  | nil => exact ⟨[], s, [], rfl, by rw [List.append_nil]; rfl, .finished⟩
  | cons step rest ih =>
    rcases hcheck : (step.check.run step.memory).run s with ⟨⟨checked, memory⟩, s₁⟩
    have wcheck := Visit.noting_run hcheck first .check noted
    cases hstatus : checked.status with
    | failed =>
      have hdone : checked.isCompleted = false := by simp [Outcome.isCompleted, hstatus]
      have hfailed : checked.isFailed = true := by simp [Outcome.isFailed, hstatus]
      have hstep := Step.evaluate_of_check hcheck hdone
      have wstep : (step.watched first).evaluate.run (s, noted) = _ :=
        Step.evaluate_of_check wcheck hdone
      refine ⟨_, s₁, [⟨first, .check, checked⟩], ?_, ?_, .checkFailed hstatus⟩
      · rw [evaluate_cons hstep, if_pos hfailed]
      · rw [watched, evaluate_cons wstep, if_pos hfailed]
        rfl
    | skipped =>
      have hdone : checked.isCompleted = false := by simp [Outcome.isCompleted, hstatus]
      have hfailed : ¬ checked.isFailed = true := by simp [Outcome.isFailed, hstatus]
      have hstep := Step.evaluate_of_check hcheck hdone
      have wstep : (step.watched first).evaluate.run (s, noted) = _ :=
        Step.evaluate_of_check wcheck hdone
      obtain ⟨records, s', visits, hplain, hwatched, hcourse⟩ :=
        ih (first + 1) s₁ (noted ++ [⟨first, .check, checked⟩])
      refine ⟨_, s', ⟨first, .check, checked⟩ :: visits, ?_, ?_, .skipped hstatus hcourse⟩
      · rw [evaluate_cons hstep, if_neg hfailed, hplain]
      · rw [watched, evaluate_cons wstep, if_neg hfailed, hwatched, List.append_assoc]
        rfl
    | completed =>
      have hdone : checked.isCompleted = true := by simp [Outcome.isCompleted, hstatus]
      rcases hrun : (step.run.run memory).run s₁ with ⟨⟨ran, memory'⟩, s₂⟩
      have wrun := Visit.noting_run hrun first .run (noted ++ [⟨first, .check, checked⟩])
      have hstep := Step.evaluate_of_run hcheck hdone hrun
      have wstep : (step.watched first).evaluate.run (s, noted) = _ :=
        Step.evaluate_of_run wcheck hdone wrun
      by_cases hran : ran.status = .failed
      · have hfailed : ran.isFailed = true := by simp [Outcome.isFailed, hran]
        refine ⟨_, s₂, [⟨first, .check, checked⟩, ⟨first, .run, ran⟩], ?_, ?_,
          .runFailed hstatus hran⟩
        · rw [evaluate_cons hstep, if_pos hfailed]
        · rw [watched, evaluate_cons wstep, if_pos hfailed, List.append_assoc]
          rfl
      · have hfailed : ¬ ran.isFailed = true := by simpa [Outcome.isFailed] using hran
        obtain ⟨records, s', visits, hplain, hwatched, hcourse⟩ :=
          ih (first + 1) s₂ (noted ++ [⟨first, .check, checked⟩] ++ [⟨first, .run, ran⟩])
        refine ⟨_, s', ⟨first, .check, checked⟩ :: ⟨first, .run, ran⟩ :: visits, ?_, ?_,
          .ran hstatus hran hcourse⟩
        · rw [evaluate_cons hstep, if_neg hfailed, hplain]
        · rw [watched, evaluate_cons wstep, if_neg hfailed, hwatched, List.append_assoc,
            List.append_assoc]
          rfl

namespace Course

variable {first : Nat} {names : List String} {visits : List Visit} {records : List StepRecord}

/-- The checks are those of consecutive steps, one for each record. -/
theorem checks_eq (course : Course first names visits records) :
    (visits.filter (·.phase = .check)).map (·.index) = List.range' first records.length := by
  induction course with
  | finished => rfl
  | checkFailed _ => rfl
  | runFailed _ _ => rfl
  | skipped _ _ ih => simpa [List.range'_succ] using ih
  | ran _ _ _ ih => simpa [List.range'_succ] using ih

/-- A course begins with a check. -/
theorem head_check (course : Course first names visits records) :
    ∀ visit ∈ visits.head?, visit.phase = .check := by
  cases course <;> simp

/-- A course does not end where a run is due. -/
theorem getLast_not_callsRun (course : Course first names visits records) :
    ∀ visit ∈ visits.getLast?, ¬ visit.callsRun := by
  induction course with
  | finished => simp
  | checkFailed h => simp [Visit.callsRun, Outcome.isCompleted, h]
  | runFailed _ _ => simp [Visit.callsRun]
  | @skipped first _ _ checked visits records h rest ih =>
    cases visits with
    | nil => simp [Visit.callsRun, Outcome.isCompleted, h]
    | cons visit visits => simpa using ih
  | @ran first _ _ checked ran visits records h hran rest ih =>
    cases visits with
    | nil => simp [Visit.callsRun]
    | cons visit visits => simpa using ih

/-- Each visit of a course allows the next. -/
theorem isChain_precedes (course : Course first names visits records) :
    visits.IsChain Visit.Precedes := by
  induction course with
  | finished => exact .nil
  | checkFailed _ => exact .singleton _
  | runFailed h _ =>
    refine List.isChain_cons_cons.2 ⟨⟨?_, ?_, fun _ => rfl⟩, .singleton _⟩
    · simp [Outcome.isFailed, h]
    · simp [Visit.callsRun, Outcome.isCompleted, h]
  | skipped h rest ih =>
    refine List.isChain_cons.2 ⟨fun later hlater => ?_, ih⟩
    have hcheck := rest.head_check later hlater
    refine ⟨?_, ?_, ?_⟩
    · simp [Outcome.isFailed, h]
    · simp [hcheck, Visit.callsRun, Outcome.isCompleted, h]
    · simp [hcheck]
  | ran h hran rest ih =>
    refine List.isChain_cons_cons.2 ⟨⟨?_, ?_, fun _ => rfl⟩, List.isChain_cons.2 ⟨?_, ih⟩⟩
    · simp [Outcome.isFailed, h]
    · simp [Visit.callsRun, Outcome.isCompleted, h]
    · intro later hlater
      have hcheck := rest.head_check later hlater
      refine ⟨?_, ?_, ?_⟩
      · simpa [Outcome.isFailed] using hran
      · simp [hcheck, Visit.callsRun]
      · simp [hcheck]

/-- The records are the visits that no run has to follow. -/
theorem records_eq (course : Course first names visits records) :
    records.map (fun record => (record.phase, record.outcome)) =
      (visits.filter (¬ ·.callsRun)).map fun visit => (visit.phase, visit.outcome) := by
  induction course with
  | finished => rfl
  | checkFailed h => simp [Visit.callsRun, Outcome.isCompleted, h]
  | runFailed h _ => simp [Visit.callsRun, Outcome.isCompleted, h]
  | skipped h _ ih => simpa [Visit.callsRun, Outcome.isCompleted, h] using ih
  | ran h _ _ ih => simpa [Visit.callsRun, Outcome.isCompleted, h] using ih

/-- The visits that no run has to follow are of consecutive steps, one for each record. -/
theorem index_eq (course : Course first names visits records) :
    (visits.filter (¬ ·.callsRun)).map (·.index) = List.range' first records.length := by
  induction course with
  | finished => rfl
  | checkFailed h => simp [Visit.callsRun, Outcome.isCompleted, h]
  | runFailed h _ => simp [Visit.callsRun, Outcome.isCompleted, h]
  | skipped h _ ih => simpa [Visit.callsRun, Outcome.isCompleted, h, List.range'_succ] using ih
  | ran h _ _ ih => simpa [Visit.callsRun, Outcome.isCompleted, h, List.range'_succ] using ih

/-- The recorded steps are a prefix of the plan. -/
theorem names_prefix (course : Course first names visits records) :
    records.map (·.step) <+: names := by
  induction course with
  | finished => exact List.prefix_refl _
  | checkFailed _ => exact ⟨_, rfl⟩
  | runFailed _ _ => exact ⟨_, rfl⟩
  | skipped _ _ ih => exact List.cons_prefix_cons.2 ⟨rfl, ih⟩
  | ran _ _ _ ih => exact List.cons_prefix_cons.2 ⟨rfl, ih⟩

/-- Only the last record may be a failure. -/
theorem dropLast_not_failed (course : Course first names visits records) :
    ∀ record ∈ records.dropLast, record.outcome.isFailed = false := by
  induction course with
  | finished => simp
  | checkFailed _ => simp
  | runFailed _ _ => simp
  | @skipped first name _ checked visits records h rest ih =>
    cases records with
    | nil => simp
    | cons record records => simpa [Outcome.isFailed, h] using ih
  | @ran first name _ checked ran visits records h hran rest ih =>
    cases records with
    | nil => simp
    | cons record records => simpa [Outcome.isFailed, hran] using ih

/-- No check is recorded that completed. -/
theorem check_not_completed (course : Course first names visits records) :
    ∀ record ∈ records, record.phase = .check → record.outcome.isCompleted = false := by
  induction course with
  | finished => simp
  | checkFailed h => simp [Outcome.isCompleted, h]
  | runFailed _ _ => simp
  | skipped h _ ih => simpa [Outcome.isCompleted, h] using ih
  | ran _ _ _ ih => simpa using ih

/-- Without a failure every step is recorded. -/
theorem length_eq_or_failed (course : Course first names visits records) :
    records.length = names.length ∨ records.any (·.outcome.isFailed) := by
  induction course with
  | finished => exact .inl rfl
  | checkFailed h => exact .inr (by simp [Outcome.isFailed, h])
  | runFailed _ h => exact .inr (by simp [Outcome.isFailed, h])
  | skipped _ _ ih =>
    rcases ih with hlen | hfailed
    · exact .inl (by simpa using hlen)
    · exact .inr (by rw [List.any_cons, hfailed, Bool.or_true])
  | ran _ _ _ ih =>
    rcases ih with hlen | hfailed
    · exact .inl (by simpa using hlen)
    · exact .inr (by rw [List.any_cons, hfailed, Bool.or_true])

/-- Every record counts as skipped, as run or as failed, and only as one of them. -/
theorem count_eq (course : Course first names visits records) :
    records.countP (·.outcome.isSkipped) +
        records.countP (fun record => record.phase = .run && record.outcome.isCompleted) +
        records.countP (·.outcome.isFailed) = records.length := by
  induction course with
  | finished => rfl
  | checkFailed h => simp [Outcome.isSkipped, Outcome.isCompleted, Outcome.isFailed, h]
  | runFailed _ h => simp [Outcome.isSkipped, Outcome.isCompleted, Outcome.isFailed, h]
  | skipped h _ ih =>
    simp [Outcome.isSkipped, Outcome.isCompleted, Outcome.isFailed, h] at ih ⊢
    omega
  | @ran _ _ _ _ ran _ _ _ hran _ ih =>
    cases hstatus : ran.status with
    | failed => exact absurd hstatus hran
    | completed =>
      simp [Outcome.isSkipped, Outcome.isCompleted, Outcome.isFailed, hstatus] at ih ⊢
      omega
    | skipped =>
      simp [Outcome.isSkipped, Outcome.isCompleted, Outcome.isFailed, hstatus] at ih ⊢
      omega

/-- The failed record is the last one, if that is a failure. -/
theorem find?_failed (course : Course first names visits records) :
    records.find? (·.outcome.isFailed) = records.getLast?.filter (·.outcome.isFailed) := by
  have hfront := course.dropLast_not_failed
  rcases List.eq_nil_or_concat records with rfl | ⟨front, last, rfl⟩
  · rfl
  · rw [List.concat_eq_append] at hfront ⊢
    rw [List.dropLast_concat] at hfront
    rw [List.find?_append, List.find?_eq_none.2 (by simpa using hfront), List.getLast?_concat]
    cases h : last.outcome.isFailed <;> simp [h, Option.filter]

/-- There is at most one failed record. -/
theorem countP_failed (course : Course first names visits records) :
    records.countP (·.outcome.isFailed) =
      if records.any (·.outcome.isFailed) then 1 else 0 := by
  have hfront := course.dropLast_not_failed
  rcases List.eq_nil_or_concat records with rfl | ⟨front, last, rfl⟩
  · rfl
  · rw [List.concat_eq_append] at hfront ⊢
    rw [List.dropLast_concat] at hfront
    rw [List.countP_append, List.countP_eq_zero.2 (by simpa using hfront), List.any_append,
      List.any_eq_false.2 (by simpa using hfront)]
    cases h : last.outcome.isFailed <;> simp [h]

end Course

/-! ## The contract -/

/-- What the execution of a plan with these names has to keep: which calls it makes, and what its
report says of them. -/
structure Contract (names : List String) (visits : List Visit) (report : Report) : Prop where
  /-- The checks that are called are those of the evaluated steps, in the order of the plan and
  each once. -/
  checks : (visits.filter (·.phase = .check)).map (·.index) = List.range report.records.length
  /-- A check is called first. -/
  first : ∀ visit ∈ visits.head?, visit.phase = .check
  /-- A run is called right after the check of its step has completed and at no other time, and
  nothing is called after a failure. -/
  next : visits.IsChain Visit.Precedes
  /-- No run is left out at the end. -/
  last : ∀ visit ∈ visits.getLast?, ¬ visit.callsRun
  /-- Every record holds the call that ended its step, and how it ended. -/
  results : report.records.map (fun record => (record.phase, record.outcome)) =
    (visits.filter (¬ ·.callsRun)).map fun visit => (visit.phase, visit.outcome)
  /-- The records are those of the evaluated steps, in the order of the plan. -/
  places : (visits.filter (¬ ·.callsRun)).map (·.index) = List.range report.records.length
  /-- The names in the records are a prefix of those in the plan. -/
  steps : report.records.map (·.step) <+: names
  /-- A record before the last is no failure. -/
  failed_last : ∀ record ∈ report.records.dropLast, record.outcome.isFailed = false
  /-- A recorded check has not completed. -/
  check_ended : ∀ record ∈ report.records, record.phase = .check →
    record.outcome.isCompleted = false
  /-- The outcome is the last record's if that is a failure, else plainly completed. -/
  outcome : report.outcome =
    ((report.records.getLast?.map (·.outcome)).filter (·.isFailed)).getD .completed
  /-- All steps are counted, evaluated or not. -/
  total : report.total = names.length
  /-- Steps are left over only after a failure. -/
  complete : report.records.length < report.total → report.outcome.isFailed
  /-- A step is named as failed just when the execution has not succeeded. -/
  failedStep_none : report.failedStep? = none ↔ report.succeeded
  /-- The step that is named as failed is the last one that was evaluated. -/
  failedStep_some : ¬ report.succeeded →
    report.failedStep? = report.records.getLast?.map (·.step)
  /-- Every evaluated step was skipped, ran or failed. -/
  count : report.skipped + report.ran + (if report.succeeded then 0 else 1) =
    report.records.length
  /-- The line that sums a report up tells these numbers. -/
  shown : ∃ front back, report.text = front ++ " steps evaluated, " ++
    String.ofList (Text.decimal report.ran) ++ " ran, " ++
    String.ofList (Text.decimal report.skipped) ++ " skipped" ++ back

/-- The report on a course keeps the contract. -/
theorem Course.contract {names : List String} {visits : List Visit} {records : List StepRecord}
    (course : Course 0 names visits records) :
    Contract names visits (.ofRecords records names.length) := by
  have hfailure : (Report.ofRecords records names.length).failure? =
      records.getLast?.filter (·.outcome.isFailed) := course.find?_failed
  refine {
    checks := by rw [List.range_eq_range', course.checks_eq, Report.records_ofRecords]
    first := course.head_check
    next := course.isChain_precedes
    last := course.getLast_not_callsRun
    results := course.records_eq
    places := by rw [List.range_eq_range', course.index_eq, Report.records_ofRecords]
    steps := course.names_prefix
    failed_last := course.dropLast_not_failed
    check_ended := course.check_not_completed
    total := rfl
    failedStep_none := Report.failedStep?_ofRecords_eq_none_iff
    shown := Report.text_eq _
    outcome := ?outcome
    complete := ?complete
    failedStep_some := ?failedStep_some
    count := ?count }
  case outcome =>
    show Outcome.completed.told records = (((records.getLast?.map _).filter _).getD _)
    rw [Outcome.told, course.find?_failed]
    cases records.getLast? with
    | none => rfl
    | some record => cases h : record.outcome.isFailed <;> simp [Option.filter, h]
  case complete =>
    intro hlt
    rw [Report.isFailed_ofRecords]
    rcases course.length_eq_or_failed with hlen | hfailed
    · exact absurd hlen (Nat.ne_of_lt hlt)
    · exact hfailed
  case failedStep_some =>
    intro hfailed
    have hsome : (Report.ofRecords records names.length).failedStep? ≠ none :=
      fun hnone => hfailed (Report.failedStep?_ofRecords_eq_none_iff.1 hnone)
    rw [Report.failedStep?, hfailure] at hsome ⊢
    cases hlast : records.getLast? with
    | none => simp [hlast] at hsome
    | some record =>
      cases h : record.outcome.isFailed
      · simp [hlast, Option.filter, h] at hsome
      · simp [Option.filter, h, hlast]
  case count =>
    have hcount := course.count_eq
    rw [course.countP_failed] at hcount
    rw [Report.succeeded_ofRecords, Report.records_ofRecords, ← hcount]
    show _ + _ + _ = records.countP _ + records.countP _ + _
    cases h : records.any (·.outcome.isFailed) <;> rfl

/-- Every plan keeps the contract in every state, whatever its steps do to the state: watching it
changes neither its report nor the state that it leaves, and shows the calls that it makes. -/
theorem Plan.execute_contract (plan : List (Step (StateM σ))) (s : σ) :
    ∃ report s' visits,
      (Plan.execute plan).run s = (report, s') ∧
      (Plan.execute (Plan.watched 0 plan)).run (s, []) = (report, (s', visits)) ∧
      Contract (plan.map (·.name)) visits report := by
  obtain ⟨records, s', visits, hplain, hwatched, hcourse⟩ := Plan.evaluate_watched plan 0 s []
  refine ⟨_, s', visits, Plan.execute_of_evaluate hplain, ?_, ?_⟩
  · rw [Plan.execute_of_evaluate hwatched, Plan.length_watched, List.nil_append]
  · have hcontract := hcourse.contract
    rwa [List.length_map] at hcontract

end Converge
