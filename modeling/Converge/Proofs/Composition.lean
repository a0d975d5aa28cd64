import Converge.Proofs.Contract
/-!
# Plans in sequence

A plan that is put in front of another keeps what it does alone: if it fails, the other is not
touched, and else the other goes on in the state that the first has left.  `Executes` says what an
execution comes to, its report, the calls of its steps and the state it leaves; the state may be
anything, such as a world that keeps a log of what is done to it.  Main statement:
`execute_append`, from one lemma for each case (`Executes.append_failed` and `Executes.append`) and
the place where a failing plan stops (`Executes.stops`).
-/

namespace Converge

variable {σ : Type}

/-! ## Reports in sequence -/

namespace Report

/-- Records without a failure in front do not change the outcome. -/
theorem outcome_ofRecords_append {records : List StepRecord}
    (h : records.any (·.outcome.isFailed) = false) (others : List StepRecord) (total total' : Nat) :
    (ofRecords (records ++ others) total).outcome = (ofRecords others total').outcome := by
  show Outcome.completed.told (records ++ others) = Outcome.completed.told others
  have hnone : records.find? (·.outcome.isFailed) = none :=
    List.find?_eq_none.2 (List.any_eq_false.1 h)
  rw [Outcome.told, List.find?_append, hnone, Option.none_or, Outcome.told]

end Report

/-! ## Visits further on in a plan -/

/-- The visit to the same step in a plan with `count` steps in front. -/
def Visit.after (count : Nat) (visit : Visit) : Visit :=
  { visit with index := count + visit.index }

@[simp] theorem Visit.after_zero (visit : Visit) : visit.after 0 = visit := by
  rw [after, Nat.zero_add]

theorem Visit.after_after (count more : Nat) (visit : Visit) :
    (visit.after more).after count = visit.after (count + more) := by
  rw [after, after, after, Nat.add_assoc]

theorem Visit.map_after_zero (visits : List Visit) : visits.map (after 0) = visits :=
  (List.map_congr_left fun visit _ => visit.after_zero).trans (List.map_id' visits)

theorem Visit.map_after_map_after (count more : Nat) (visits : List Visit) :
    (visits.map (after more)).map (after count) = visits.map (after (count + more)) := by
  rw [List.map_map]
  exact List.map_congr_left fun visit _ => visit.after_after count more

namespace Plan

variable {p q : List (Step (StateM σ))} {s s₁ s₂ : σ} {report report' : Report}
  {visits visits' : List Visit}

theorem watched_append (first : Nat) (p q : List (Step (StateM σ))) :
    watched first (p ++ q) = watched first p ++ watched (first + p.length) q := by
  induction p generalizing first with
  | nil => rfl
  | cons step rest ih =>
    rw [List.cons_append, watched, watched, ih, List.length_cons, List.cons_append,
      Nat.add_assoc, Nat.add_comm 1]

/-! ## Executions -/

/-- What a plan comes to in a state.  Watching it, from anywhere on and after anything else, only
adds the visits. -/
structure Executes (plan : List (Step (StateM σ))) (s : σ) (report : Report) (visits : List Visit)
    (s' : σ) : Prop where
  execute_run : (execute plan).run s = (report, s')
  watched_run : ∀ first noted, (execute (watched first plan)).run (s, noted) =
    (report, (s', noted ++ visits.map (·.after first)))

namespace Executes

/-- The outcome that the loop has kept is the one that the records tell. -/
theorem report_eq (h : Executes p s report visits s₁) :
    report = .ofRecords report.records p.length := by
  have hrun := h.execute_run
  rw [Plan.execute_run] at hrun
  obtain ⟨rfl, -⟩ := Prod.mk.inj hrun
  rfl

theorem isFailed_outcome (h : Executes p s report visits s₁) :
    report.outcome.isFailed = report.records.any (·.outcome.isFailed) := by
  rw [h.report_eq, Report.isFailed_ofRecords, Report.records_ofRecords]

theorem evaluate_run (h : Executes p s report visits s₁) :
    (evaluate p).run s = (report.records, s₁) := by
  have hrun := h.execute_run
  rw [Plan.execute_run] at hrun
  obtain ⟨rfl, rfl⟩ := Prod.mk.inj hrun
  rfl

theorem evaluate_watched_run (h : Executes p s report visits s₁) (first : Nat)
    (noted : List Visit) : (evaluate (watched first p)).run (s, noted) =
      (report.records, (s₁, noted ++ visits.map (·.after first))) := by
  have hrun := h.watched_run first noted
  rw [Plan.execute_run] at hrun
  obtain ⟨rfl, hstate⟩ := Prod.mk.inj hrun
  exact Prod.ext rfl hstate

theorem of_evaluate {records : List StepRecord} (h : (evaluate p).run s = (records, s₁))
    (hwatched : ∀ first noted, (evaluate (watched first p)).run (s, noted) =
      (records, (s₁, noted ++ visits.map (·.after first)))) :
    Executes p s (.ofRecords records p.length) visits s₁ := by
  refine ⟨execute_of_evaluate h, fun first noted => ?_⟩
  rw [execute_of_evaluate (hwatched first noted), length_watched]

/-- A plan comes to one thing only. -/
theorem unique (h : Executes p s report visits s₁) (h' : Executes p s report' visits' s₂) :
    report = report' ∧ visits = visits' ∧ s₁ = s₂ := by
  have hrun := (h.watched_run 0 []).symm.trans (h'.watched_run 0 [])
  rw [Visit.map_after_zero, Visit.map_after_zero] at hrun
  obtain ⟨rfl, hstate⟩ := Prod.mk.inj hrun
  obtain ⟨rfl, rfl⟩ := Prod.mk.inj hstate
  exact ⟨rfl, rfl, rfl⟩

end Executes

/-! ## One plan after another -/

/-- If the first plan fails, that is the end; if not, the second goes on. -/
theorem evaluate_append {records : List StepRecord} (h : (evaluate p).run s = (records, s₁))
    (q : List (Step (StateM σ))) :
    (evaluate (p ++ q)).run s =
      if records.any (·.outcome.isFailed) then (records, s₁)
      else (records ++ ((evaluate q).run s₁).1, ((evaluate q).run s₁).2) := by
  induction p generalizing s records with
  | nil =>
    obtain ⟨rfl, rfl⟩ := Prod.mk.inj h
    rfl
  | cons step rest ih =>
    rcases hstep : step.evaluate.run s with ⟨record, s'⟩
    rw [evaluate_cons hstep] at h
    rw [List.cons_append, evaluate_cons hstep]
    by_cases hfailed : record.outcome.isFailed
    · rw [if_pos hfailed] at h ⊢
      obtain ⟨rfl, rfl⟩ := Prod.mk.inj h
      rw [List.any_cons, hfailed, Bool.true_or, if_pos rfl]
    · rcases hrest : (evaluate rest).run s' with ⟨others, s''⟩
      rw [if_neg hfailed, hrest] at h
      obtain ⟨rfl, rfl⟩ := Prod.mk.inj h
      rw [if_neg hfailed, ih hrest, List.any_cons, Bool.eq_false_iff.2 hfailed, Bool.false_or]
      split
      · rfl
      · rfl

namespace Executes

/-- A plan that fails does the same with any other after it. -/
theorem append_failed (h : Executes p s report visits s₁) (hfailed : report.outcome.isFailed)
    (q : List (Step (StateM σ))) :
    Executes (p ++ q) s (.ofRecords report.records (p ++ q).length) visits s₁ := by
  rw [h.isFailed_outcome] at hfailed
  refine of_evaluate ?_ fun first noted => ?_
  · rw [evaluate_append h.evaluate_run, if_pos hfailed]
  · rw [watched_append, evaluate_append (h.evaluate_watched_run first noted), if_pos hfailed]

/-- After a plan that does not fail the other goes on in the state that is left. -/
theorem append (h : Executes p s report visits s₁) (hdone : report.outcome.isFailed = false)
    (h' : Executes q s₁ report' visits' s₂) :
    Executes (p ++ q) s (.ofRecords (report.records ++ report'.records) (p ++ q).length)
      (visits ++ visits'.map (·.after p.length)) s₂ := by
  have hnone : ¬ report.records.any (·.outcome.isFailed) = true := by
    rw [← h.isFailed_outcome, hdone]
    exact nofun
  refine of_evaluate ?_ fun first noted => ?_
  · rw [evaluate_append h.evaluate_run, if_neg hnone, h'.evaluate_run]
  · rw [watched_append, evaluate_append (h.evaluate_watched_run first noted), if_neg hnone,
      h'.evaluate_watched_run, List.map_append, Visit.map_after_map_after, List.append_assoc]

end Executes

/-! ## Every plan -/

/-- A step alone is visited once for its check and, if that completes, once for its run. -/
theorem exists_executes_single (step : Step (StateM σ)) (s : σ) :
    ∃ report visits s', Executes [step] s report visits s' ∧ ∀ visit ∈ visits, visit.index = 0 := by
  rcases hcheck : (step.check.run step.memory).run s with ⟨⟨checked, memory⟩, s₁⟩
  by_cases hdone : checked.isCompleted
  · rcases hrun : (step.run.run memory).run s₁ with ⟨⟨ran, memory'⟩, s₂⟩
    refine ⟨_, [⟨0, .check, checked⟩, ⟨0, .run, ran⟩], s₂,
      .of_evaluate (evaluate_single (Step.evaluate_of_run hcheck hdone hrun))
        fun first noted => ?_, ?_⟩
    · have wcheck := Visit.noting_run hcheck first .check noted
      have wrun := Visit.noting_run hrun first .run (noted ++ [⟨first, .check, checked⟩])
      have wstep : (step.watched first).evaluate.run (s, noted) = _ :=
        Step.evaluate_of_run wcheck hdone wrun
      rw [watched, watched, evaluate_single wstep, List.append_assoc]
      rfl
    · exact List.forall_mem_cons.2 ⟨rfl, List.forall_mem_singleton.2 rfl⟩
  · have hdone := Bool.eq_false_iff.2 hdone
    refine ⟨_, [⟨0, .check, checked⟩], s₁,
      .of_evaluate (evaluate_single (Step.evaluate_of_check hcheck hdone))
        fun first noted => ?_, ?_⟩
    · have wcheck := Visit.noting_run hcheck first .check noted
      have wstep : (step.watched first).evaluate.run (s, noted) = _ :=
        Step.evaluate_of_check wcheck hdone
      rw [watched, watched, evaluate_single wstep]
      rfl
    · exact List.forall_mem_singleton.2 rfl

/-- Every plan comes to something, and visits no steps but its own. -/
theorem exists_executes (plan : List (Step (StateM σ))) (s : σ) :
    ∃ report visits s', Executes plan s report visits s' ∧
      ∀ visit ∈ visits, visit.index < plan.length := by
  induction plan generalizing s with
  | nil =>
    refine ⟨⟨[], 0, .completed⟩, [], s, ⟨rfl, fun first noted => ?_⟩, nofun⟩
    rw [List.map_nil, List.append_nil]
    rfl
  | cons step rest ih =>
    obtain ⟨report, visits, s₁, hstep, hfirst⟩ := exists_executes_single step s
    have hfirst : ∀ visit ∈ visits, visit.index < rest.length + 1 :=
      fun visit hmem => hfirst visit hmem ▸ Nat.succ_pos _
    by_cases hfailed : report.outcome.isFailed
    · exact ⟨_, visits, s₁, hstep.append_failed hfailed rest, hfirst⟩
    · obtain ⟨report', visits', s₂, hrest, hothers⟩ := ih s₁
      refine ⟨_, _, s₂, hstep.append (Bool.eq_false_iff.2 hfailed) hrest,
        List.forall_mem_append.2 ⟨hfirst, List.forall_mem_map.2 fun visit hmem => ?_⟩⟩
      show 1 + visit.index < rest.length + 1
      have := hothers visit hmem
      omega

/-- A plan stops at the failure of one of its steps.  It has done what the steps in front of that
one do alone, without a failure, and then what the step alone does in the state that they leave. -/
inductive Stops (s : σ) :
    List (Step (StateM σ)) → List StepRecord → List Visit → σ → Prop
  | stopped {before after : List (Step (StateM σ))} {step : Step (StateM σ)}
      {report report' : Report} {visits visits' : List Visit} {s₁ s₂ : σ}
      (front : Executes before s report visits s₁) (done : report.outcome.isFailed = false)
      (last : Executes [step] s₁ report' visits' s₂) (failed : report'.outcome.isFailed) :
      Stops s (before ++ step :: after) (report.records ++ report'.records)
        (visits ++ visits'.map (·.after before.length)) s₂

/-- Steps that are not come to may be added. -/
theorem Stops.append {records : List StepRecord} (h : Stops s p records visits s₁)
    (q : List (Step (StateM σ))) : Stops s (p ++ q) records visits s₁ := by
  obtain ⟨front, done, last, failed⟩ := h
  rw [List.append_assoc, List.cons_append]
  exact .stopped front done last failed

theorem Executes.stops (h : Executes p s report visits s₁) (hfailed : report.outcome.isFailed) :
    Stops s p report.records visits s₁ := by
  -- from the right: the last step is where the plan stops, or it is never come to
  induction p using List.reverseRecOn generalizing report visits s₁ with
  | nil =>
    obtain ⟨rfl, -⟩ := Prod.mk.inj h.execute_run
    cases hfailed
  | append_singleton front last ih =>
    obtain ⟨report₀, visits₀, s₀, hfront, -⟩ := exists_executes front s
    by_cases hstopped : report₀.outcome.isFailed
    · obtain ⟨rfl, rfl, rfl⟩ := h.unique (hfront.append_failed hstopped [last])
      exact (ih hfront hstopped).append [last]
    · have hdone := Bool.eq_false_iff.2 hstopped
      obtain ⟨report', visits', s₂, hlast, -⟩ := exists_executes [last] s₀
      obtain ⟨rfl, rfl, rfl⟩ := h.unique (hfront.append hdone hlast)
      have hpassed := hfront.isFailed_outcome.symm.trans hdone
      rw [Report.outcome_ofRecords_append hpassed _ _ [last].length, ← hlast.report_eq] at hfailed
      exact .stopped hfront hdone hlast hfailed

/-- Plans compose.  If the first of two fails, both together do just what the first does: no step of
the second is visited, and what was done before the failure stays done.  If not, they do what the
first does and then what the second does in the state that is left. -/
theorem execute_append (p q : List (Step (StateM σ))) (s : σ) :
    ∃ report visits s₁, Executes p s report visits s₁ ∧
      (report.outcome.isFailed → ∃ whole, Executes (p ++ q) s whole visits s₁ ∧
        whole.records = report.records ∧ whole.outcome = report.outcome ∧
        (∀ visit ∈ visits, visit.index < p.length) ∧ Stops s p report.records visits s₁) ∧
      (report.outcome.isFailed = false → ∃ report' visits' s₂ whole,
        Executes q s₁ report' visits' s₂ ∧
        Executes (p ++ q) s whole (visits ++ visits'.map (·.after p.length)) s₂ ∧
        whole.records = report.records ++ report'.records ∧ whole.outcome = report'.outcome) := by
  obtain ⟨report, visits, s₁, hfirst, hplaces⟩ := exists_executes p s
  refine ⟨report, visits, s₁, hfirst, fun hfailed => ?_, fun hdone => ?_⟩
  · refine ⟨_, hfirst.append_failed hfailed q, rfl, ?_, hplaces, hfirst.stops hfailed⟩
    rw [hfirst.report_eq]
    rfl
  · obtain ⟨report', visits', s₂, hsecond, -⟩ := exists_executes q s₁
    have hpassed := hfirst.isFailed_outcome.symm.trans hdone
    refine ⟨report', visits', s₂, _, hsecond, hfirst.append hdone hsecond, rfl, ?_⟩
    rw [Report.outcome_ofRecords_append hpassed _ _ q.length, ← hsecond.report_eq]

end Plan

end Converge
