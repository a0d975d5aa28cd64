import Converge.Step
/-!
# Plans

A plan is a list of steps.  `Plan.execute` checks each step in turn and runs it when its check
completes; it stops at the first failure and takes nothing back.  The report keeps one record for
every step that was evaluated and, beside the records, the outcome that the loop has kept.
-/

namespace Converge

variable {m : Type → Type}

/-! ## Reports -/

/-- Which part of a step ended it. -/
inductive Phase where
  | check
  | run
  deriving DecidableEq

/-- The written form of a phase. -/
def Phase.name : Phase → String
  | .check => "skip_check"
  | .run => "run"

/-- How one step ended. -/
structure StepRecord where
  /-- The step's name. -/
  step : String
  phase : Phase
  outcome : Outcome

/-- How the execution of a plan ended. -/
structure Report where
  /-- The steps that were evaluated, in order. -/
  records : List StepRecord
  /-- How many steps the plan has. -/
  total : Nat
  /-- Completed, or the outcome of the first step that failed. -/
  outcome : Outcome

namespace StepRecord

/-- The written form. -/
def toJson (record : StepRecord) : Json :=
  .obj [("step", .str record.step), ("phase", .str record.phase.name),
    ("result", record.outcome.toJson)]

end StepRecord

namespace Report

/-- The record of the step that failed. -/
def failure? (report : Report) : Option StepRecord :=
  report.records.find? (·.outcome.isFailed)

/-- Whether no step failed. -/
def succeeded (report : Report) : Bool :=
  !report.outcome.isFailed

/-- The name of the step that failed. -/
def failedStep? (report : Report) : Option String :=
  report.failure?.map (·.step)

/-- The outcome of the first evaluated step with a name. -/
def outcomeOf? (report : Report) (step : String) : Option Outcome :=
  (report.records.find? (·.step = step)).map (·.outcome)

/-- How many steps were skipped. -/
def skipped (report : Report) : Nat :=
  report.records.countP (·.outcome.isSkipped)

/-- How many steps ran to completion. -/
def ran (report : Report) : Nat :=
  report.records.countP fun record => record.phase = .run && record.outcome.isCompleted

/-- The report in one line. -/
def text (report : Report) : String :=
  let number (n : Nat) : String := String.ofList (Text.decimal n)
  let summary :=
    "Plan " ++ report.outcome.status.name ++ ": " ++ number report.records.length ++ " of " ++
      number report.total ++ " steps evaluated, " ++ number report.ran ++ " ran, " ++
      number report.skipped ++ " skipped"
  match report.failedStep? with
  | some step => summary ++ ", failed at '" ++ step ++ "'"
  | none => summary

/-- The written form. -/
def toJson (report : Report) : Json :=
  .obj [("records", .arr (report.records.map StepRecord.toJson)),
    ("total_steps", .int report.total), ("outcome", report.outcome.toJson)]

end Report

/-! ## Execution -/

namespace Plan

variable [Monad m]

/-- The loop over the steps that are left, with the records and the outcome so far. -/
def executeFrom (records : List StepRecord) (outcome : Outcome) :
    List (Step m) → m (List StepRecord × Outcome)
  | [] => return (records, outcome)
  | step :: rest => do
    let (checked, memory) ← step.check.run step.memory
    match checked.status with
    | .skipped => executeFrom (records ++ [⟨step.name, .check, checked⟩]) outcome rest
    | .failed => return (records ++ [⟨step.name, .check, checked⟩], checked)
    | .completed =>
      let (ran, _) ← step.run.run memory
      let records := records ++ [⟨step.name, .run, ran⟩]
      if ran.isFailed then return (records, ran)
      else executeFrom records outcome rest

/-- Executes a plan. -/
def execute (plan : List (Step m)) : m Report := do
  let (records, outcome) ← executeFrom [] .completed plan
  return ⟨records, plan.length, outcome⟩

end Plan

end Converge
