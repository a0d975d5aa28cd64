import Converge.Proofs.Contract
import Converge.Proofs.SimulatedStore
import Converge.Task.Place
/-!
# What a report tells of a step by its name

A report names the step that failed, and tells the outcome of a step by its name.  The first comes
from the last record and the second from the first record with the name, and steps may share a name,
as all do that place units of one application.  Main statement: after every execution the failing
step is told as failed just if no step before it has its name, and after a success every step of the
plan is told as not failed (`Plan.execute_tells_iff`).
-/

namespace Converge

variable {σ : Type}

/-! ## Where the records end -/

/-- How the records of a plan with these names end: with its last step, or with the only failure. -/
inductive Ending (names : List String) (records : List StepRecord) : Prop
  | succeeded (steps : records.map (·.step) = names)
      (h : ∀ record ∈ records, record.outcome.isFailed = false)
  | failed (front : List StepRecord) (last : StepRecord) (records_eq : records = front ++ [last])
      (steps : front.map (·.step) ++ [last.step] <+: names) (hlast : last.outcome.isFailed)
      (h : ∀ record ∈ front, record.outcome.isFailed = false)

theorem Course.ending {first : Nat} {names : List String} {visits : List Visit}
    {records : List StepRecord} (course : Course first names visits records) :
    Ending names records := by
  have hfront := course.dropLast_not_failed
  have hprefix := course.names_prefix
  by_cases hfailed : records.any (·.outcome.isFailed)
  · obtain ⟨front, last, rfl⟩ : ∃ front last, records = front ++ [last] := by
      rcases List.eq_nil_or_concat records with rfl | ⟨front, last, rfl⟩
      · cases hfailed
      · exact ⟨front, last, List.concat_eq_append⟩
    rw [List.dropLast_concat] at hfront
    rw [List.any_append, List.any_eq_false.2 fun record hmem => by simp [hfront record hmem]]
      at hfailed
    rw [List.map_append] at hprefix
    exact .failed front last rfl hprefix (by simpa using hfailed) hfront
  · have hlength := course.length_eq_or_failed.resolve_right hfailed
    have hsteps : records.map (·.step) = names :=
      hprefix.eq_of_length (by rw [List.length_map, hlength])
    refine .succeeded hsteps fun record hmem => eq_false_of_ne_true fun h => hfailed ?_
    exact List.any_eq_true.2 ⟨record, hmem, h⟩

/-! ## What is told -/

namespace Report

/-- The step that failed is told as failed, with the message of the outcome. -/
def TellsFailure (report : Report) : Prop :=
  ∀ name, report.failedStep? = some name → ∃ outcome, report.outcomeOf? name = some outcome ∧
    outcome.isFailed ∧ outcome.message = report.outcome.message

/-- A step that was evaluated is told, and as one of the records with its name has it. -/
theorem exists_outcomeOf? (report : Report) {name : String}
    (h : name ∈ report.records.map (·.step)) :
    ∃ record ∈ report.records, record.step = name ∧
      report.outcomeOf? name = some record.outcome := by
  obtain ⟨evaluated, hmem, rfl⟩ := List.mem_map.1 h
  have hsome : (report.records.find? (·.step = evaluated.step)).isSome :=
    List.find?_isSome.2 ⟨evaluated, hmem, decide_eq_true rfl⟩
  obtain ⟨record, hfind⟩ := Option.isSome_iff_exists.1 hsome
  have hstep : record.step = evaluated.step := by simpa using List.find?_some hfind
  exact ⟨record, List.mem_of_find?_eq_some hfind, hstep,
    by rw [outcomeOf?, hfind, Option.map_some]⟩

section

variable {front : List StepRecord} {last : StepRecord} {total : Nat} {kept : Outcome}

/-- A failure behind other records is what the report ends with. -/
theorem failure?_concat (hlast : last.outcome.isFailed)
    (h : ∀ record ∈ front, record.outcome.isFailed = false) :
    (Report.mk (front ++ [last]) total kept).failure? = some last := by
  have hnone : front.find? (·.outcome.isFailed) = none :=
    List.find?_eq_none.2 fun record hmem => by simp [h record hmem]
  rw [failure?, List.find?_append, hnone, Option.none_or]
  exact List.find?_cons_of_pos hlast

/-- The last record is told by its name if no other has the name. -/
theorem outcomeOf?_concat_of_not_mem (h : last.step ∉ front.map (·.step)) :
    (Report.mk (front ++ [last]) total kept).outcomeOf? last.step = some last.outcome := by
  have hnone : front.find? (·.step = last.step) = none := by
    refine List.find?_eq_none.2 fun record hmem hstep => h ?_
    exact List.mem_map.2 ⟨record, hmem, of_decide_eq_true hstep⟩
  rw [outcomeOf?, List.find?_append, hnone, Option.none_or]
  simp

/-- Another record with the name is told in its place. -/
theorem outcomeOf?_concat_of_mem (h : last.step ∈ front.map (·.step)) :
    (Report.mk (front ++ [last]) total kept).outcomeOf? last.step =
      (Report.mk front total kept).outcomeOf? last.step := by
  obtain ⟨record, -, -, htold⟩ := exists_outcomeOf? (.mk front total kept) h
  rw [outcomeOf?, Option.map_eq_some_iff] at htold
  obtain ⟨found, hfind, -⟩ := htold
  rw [outcomeOf?, outcomeOf?, List.find?_append, hfind, Option.some_or]

/-- A failure behind other records is told just if none of them has its name. -/
theorem tellsFailure_concat_iff (hlast : last.outcome.isFailed)
    (h : ∀ record ∈ front, record.outcome.isFailed = false) :
    (Report.mk (front ++ [last]) total last.outcome).TellsFailure ↔
      last.step ∉ front.map (·.step) := by
  have hstep : (Report.mk (front ++ [last]) total last.outcome).failedStep? = some last.step := by
    rw [failedStep?, failure?_concat hlast h, Option.map_some]
  constructor
  · intro htells hmem
    obtain ⟨outcome, htold, hfailed, -⟩ := htells _ hstep
    obtain ⟨record, hrecord, -, hfirst⟩ := exists_outcomeOf? (.mk front total last.outcome) hmem
    rw [outcomeOf?_concat_of_mem hmem, hfirst] at htold
    obtain rfl := Option.some.inj htold
    exact Bool.false_ne_true ((h record hrecord).symm.trans hfailed)
  · intro hmem name hname
    obtain rfl := Option.some.inj (hstep.symm.trans hname)
    exact ⟨last.outcome, outcomeOf?_concat_of_not_mem hmem, hlast, rfl⟩

end

end Report

/-! ## After an execution -/

/-- The step that has failed is told as failed just if no step before it in the plan has its name,
and else as one of those was recorded; and after a success every step of the plan is told, and as
not failed. -/
theorem Plan.execute_tells_iff (plan : List (Step (StateM σ))) (s : σ) :
    let report := ((execute plan).run s).1
    (report.TellsFailure ↔ ∀ before step after, plan = before ++ step :: after →
      before.length + 1 = report.records.length → ¬ report.succeeded →
      step.name ∉ before.map (·.name)) ∧
    (∀ name, report.failedStep? = some name → ∃ record ∈ report.records, record.step = name ∧
      report.outcomeOf? name = some record.outcome) ∧
    (report.succeeded → ∀ step ∈ plan, ∃ outcome, report.outcomeOf? step.name = some outcome ∧
      outcome.isFailed = false) := by
  intro report
  obtain ⟨records, s', visits, hrun, -, hcourse⟩ := Plan.evaluate_watched plan 0 s []
  have hreport : report = .ofRecords records plan.length :=
    congrArg Prod.fst (execute_of_evaluate hrun)
  clear_value report
  cases hcourse.ending with
  | succeeded hsteps h =>
    have hsucceeded : (Report.ofRecords records plan.length).succeeded := by
      rw [Report.ofRecords_eq h]
      rfl
    have hnone := Report.failedStep?_ofRecords_eq_none_iff.2 hsucceeded
    subst hreport
    refine ⟨iff_of_true (fun name hname => ?_) fun _ _ _ _ _ hnot => absurd hsucceeded hnot,
      fun name hname => ?_, fun _ step hmem => ?_⟩
    · cases hnone.symm.trans hname
    · cases hnone.symm.trans hname
    · have hname : step.name ∈ records.map (·.step) := hsteps ▸ List.mem_map_of_mem hmem
      obtain ⟨record, hrecord, -, htold⟩ :=
        Report.exists_outcomeOf? (.ofRecords records plan.length) hname
      exact ⟨record.outcome, htold, h record hrecord⟩
  | failed front last hrecords hsteps hlast h =>
    rw [hrecords, Report.ofRecords_concat hlast h] at hreport
    subst hreport hrecords
    have hfailed : ¬ (Report.mk (front ++ [last]) plan.length last.outcome).succeeded := by
      simp [Report.succeeded, hlast]
    refine ⟨(Report.tellsFailure_concat_iff hlast h).trans ?_, fun name hname => ?_,
      fun hsucceeded => absurd hsucceeded hfailed⟩
    case refine_2 =>
      obtain ⟨record, hfind, rfl⟩ := Option.map_eq_some_iff.1 hname
      exact Report.exists_outcomeOf? _ (List.mem_map_of_mem (List.mem_of_find?_eq_some hfind))
    -- the names of the records are those of the plan up to the step that failed
    obtain ⟨rest, hnames⟩ := hsteps
    constructor
    · rintro hmem before step after rfl hlength -
      have hlength' : (before.map (·.name)).length = (front.map (·.step)).length := by
        simpa using hlength
      rw [List.append_assoc, List.map_append, List.map_cons] at hnames
      obtain ⟨hbefore, hcons⟩ := List.append_inj hnames hlength'.symm
      obtain ⟨hstep, -⟩ := List.cons.inj hcons
      rwa [← hbefore, ← hstep]
    · intro hall
      obtain ⟨before, after', hplan, hbefore, hafter⟩ := List.map_eq_append_iff.1
        (hnames.symm.trans (List.append_assoc _ _ _))
      obtain ⟨step, after, rfl, hstep, -⟩ := List.map_eq_cons_iff.1 hafter
      rw [← hbefore, ← hstep]
      refine hall before step after hplan ?_ hfailed
      simpa using congrArg List.length hbefore

/-! ### Two steps with one name -/

namespace Simulation.World

/-- A fleet with one node, and an application without units. -/
def oneNode : World :=
  { withStore (Membership.Document.text ⟨[⟨"node-1", "1"⟩], .empty⟩) with
    models := .ofList [("model", .ofList [("app", ⟨[], 0, none, none⟩)])] }

/-- A unit is placed on the node and then on one that is not there: the second step fails, and under
its name the first is told, which completed. -/
theorem not_told_oneNode :
    let place (node : String) : Step (StateM World) :=
      Task.Place.step ⟨⟨node, "placement", "app", "model", .ofSeconds 5⟩⟩ (site ⟨"/cluster.json"⟩)
    let report := ((Plan.execute [place "node-1", place "node-2"]).run oneNode).1
    report.failedStep? = some "Add app unit" ∧
      report.outcome.message = some "machine node-2 does not exist in cluster database" ∧
      (report.outcomeOf? "Add app unit").map (·.status) = some .completed ∧
      ¬ report.TellsFailure := by
  intro place report
  -- the plan is run once for all that the report says
  obtain ⟨hstep, hmessage, htold⟩ : report.failedStep? = some "Add app unit" ∧
      report.outcome.message = some "machine node-2 does not exist in cluster database" ∧
      (report.outcomeOf? "Add app unit").map (·.status) = some .completed := by decide +kernel
  refine ⟨hstep, hmessage, htold, fun htells => ?_⟩
  obtain ⟨outcome, houtcome, hfailed, -⟩ := htells _ hstep
  rw [houtcome] at htold
  cases (of_decide_eq_true hfailed).symm.trans (Option.some.inj htold)

end Simulation.World

end Converge
