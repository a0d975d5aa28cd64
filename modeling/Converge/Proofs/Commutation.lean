import Converge.Proofs.Flawless
import Mathlib.Data.List.Perm.Basic
/-!
# Independent unit tasks commute

Unit tasks share the controller, and each of them rewrites the whole document of the store, every
record of which comes back from the file once more.  Tasks for different applications and different
records are apart (`UnitTask.Apart`), and what they do commutes all the same
(`UnitTask.work_comm`).  Main statement: a plan of such tasks ends in the same way in every order,
and leaves the same applications and the same file (`UnitTask.execute_perm`).
-/

namespace Converge

open Converge.Membership (Document FileStore)

variable {σ : Type}

/-! ## Changes for different applications and records -/

namespace Membership.Document

variable {key other : String} {change change' : Record → Record} {content : Option Content}
  {doc : Document}

/-- After a plain change the file is loaded as the changed document comes back. -/
theorem ofContent_reviseIn (h : ofContent content = .ok doc) (hchange : Record.Plain change) :
    ofContent (reviseIn key change content) = .ok (doc.revise key change).reread := by
  obtain ⟨hsound, hfits⟩ := sound_of_ofContent h
  rw [reviseIn, h]
  exact ofContent_text_reread (hsound.revise key hchange) (hfits.revise key hchange)

/-- Plain changes of records under different keys commute, although each of them writes all
records anew. -/
theorem reviseIn_comm (hchange : Record.Plain change) (hchange' : Record.Plain change')
    (hne : key ≠ other) :
    reviseIn other change' (reviseIn key change content) =
      reviseIn key change (reviseIn other change' content) := by
  cases hdoc : ofContent content with
  | error e =>
    have hkeep : ∀ key change, reviseIn key change content = content := fun key change => by
      rw [reviseIn, hdoc]
    rw [hkeep, hkeep, hkeep]
  | ok doc =>
    have htext : ∀ {key change content doc}, ofContent content = .ok doc →
        reviseIn key change content = some (.text (doc.revise key change).text) := fun h => by
      rw [reviseIn, h]
    rw [htext (ofContent_reviseIn hdoc hchange), htext (ofContent_reviseIn hdoc hchange'),
      reread_revise hchange, reread_revise hchange', revise_comm hne]

end Membership.Document

namespace Sight

variable {Entry : Type} {sight : Sight Entry} {model name model' name' key other : String}
  {change change' : Entry → Entry} {amend amend' : Record → Record}

theorem alter_comm (hne : (model, name) ≠ (model', name')) :
    (sight.alter model name change).alter model' name' change' =
      (sight.alter model' name' change').alter model name change := by
  refine congrArg (mk · sight.content) (funext fun model₁ => funext fun name₁ => ?_)
  simp only [entries_alter]
  split
  · next heq =>
    obtain ⟨rfl, rfl⟩ := heq
    have hother : ¬ (model₁ = model ∧ name₁ = name) :=
      fun heq => hne (Prod.ext heq.1.symm heq.2.symm)
    rw [if_neg hother, if_neg hother]
  · rfl

theorem revise_comm (hamend : Record.Plain amend) (hamend' : Record.Plain amend')
    (hne : key ≠ other) :
    (sight.revise key amend).revise other amend' =
      (sight.revise other amend').revise key amend :=
  congrArg (mk sight.entries) (Document.reviseIn_comm hamend hamend' hne)

end Sight

/-! ## Tasks that are apart -/

namespace UnitTask

/-- The tasks are about different applications and different records. -/
structure Apart (task other : UnitTask) : Prop where
  application : (task.target.model, task.target.application) ≠
    (other.target.model, other.target.application)
  key : task.target.key ≠ other.target.key

instance : Std.Symm Apart :=
  ⟨fun _ _ h => ⟨h.application.symm, h.key.symm⟩⟩

theorem pairwise_apart {plan : List UnitTask}
    (happlications : (plan.map fun task => (task.target.model, task.target.application)).Nodup)
    (hkeys : (plan.map (·.target.key)).Nodup) : plan.Pairwise Apart :=
  ((List.pairwise_map.1 happlications).and (List.pairwise_map.1 hkeys)).imp fun h => ⟨h.1, h.2⟩

section

variable {stage : Stage σ} {task other : UnitTask} {sight : Sight stage.Entry}
  {verdict verdict' : Verdict}

/-- Tasks that are apart commute. -/
theorem work_comm (h : task.Apart other) :
    other.work stage (task.work stage sight verdict) verdict' =
      task.work stage (other.work stage sight verdict') verdict := by
  cases verdict with
  | ends => rfl
  | acts deed =>
    cases verdict' with
    | ends => rfl
    | acts deed' =>
      show (((sight.alter _ _ (deed.effect stage task.target)).alter _ _
        (deed'.effect stage other.target)).revise task.target.key _).revise other.target.key _ = _
      rw [Sight.alter_comm h.application, Sight.revise_comm (Placement.plain_amend _ _)
        (Placement.plain_amend _ _) h.key]
      rfl

/-- A deed is done to the application of its task. -/
theorem entries_work_acts {deed : Deed} {entry : stage.Entry}
    (h : sight.entries task.target.model task.target.application = some entry) :
    (task.work stage sight (.acts deed)).entries task.target.model task.target.application =
      some (deed.effect stage task.target entry) := by
  show (if _ then _ else _) = _
  rw [if_pos ⟨rfl, rfl⟩, h, Option.map_some]

/-- A task leaves the other applications alone. -/
theorem entries_work_of_ne {model name : String}
    (h : (model, name) ≠ (task.target.model, task.target.application)) :
    (task.work stage sight verdict).entries model name = sight.entries model name := by
  cases verdict with
  | ends => rfl
  | acts deed => exact if_neg fun heq => h (Prod.ext heq.1 heq.2)

/-- A task leaves the application of another alone. -/
theorem entries_work_of_apart (h : task.Apart other) :
    (task.work stage sight verdict).entries other.target.model other.target.application =
      sight.entries other.target.model other.target.application :=
  entries_work_of_ne h.application.symm

/-- A deed is noted in the record of its task, and the document comes back from its text. -/
theorem document_work_acts {doc : Document} {deed : Deed} (h : sight.document = .ok doc) :
    (task.work stage sight (.acts deed)).document =
      .ok (doc.revise task.target.key (Placement.amend deed.change deed.machine)).reread :=
  Document.ofContent_reviseIn h (Placement.plain_amend _ _)

/-- A task leaves a store that can be loaded, with the same nodes. -/
theorem document_work {doc : Document} (hdoc : sight.document = .ok doc) :
    ∃ doc', (task.work stage sight verdict).document = .ok doc' ∧ doc'.nodes = doc.nodes := by
  cases verdict with
  | ends => exact ⟨doc, hdoc, rfl⟩
  | acts deed => exact ⟨_, document_work_acts hdoc, rfl⟩

/-- Only a unit that is to be placed on a node that is not there makes a check fail. -/
theorem not_isFailed_answer {nodes : List Node} {units : List AppUnit}
    (h : ∀ place, task = .place place → ∃ node ∈ nodes, node.name = place.node) :
    (task.answer (task.verdict nodes units)).outcome.isFailed = false := by
  cases task with
  | place task =>
    obtain ⟨node, hmem, hname⟩ := h task rfl
    have hfound : (nodes.find? (·.name = task.node)).isSome :=
      List.find?_isSome.2 ⟨node, hmem, decide_eq_true hname⟩
    obtain ⟨found, hfind⟩ := Option.isSome_iff_exists.1 hfound
    simp only [UnitTask.verdict, machineIn?, hfind, Option.map_some]
    split <;> rfl
  | withdraw task =>
    simp only [UnitTask.verdict]
    cases machineIn? nodes task.node with
    | none => rfl
    | some machine => dsimp only; split <;> rfl

end

/-! ## Plans -/

section

variable {site : Site (StateM σ)} {stage : Stage σ} {s : σ} {doc : Document}

/-- Tasks that are apart from each other are each decided by what is seen at first, and none of
them stops the plan. -/
theorem execute_flawless (flawless : site.Flawless stage) (hs : stage.ready s)
    (hdoc : (stage.seen s).document = .ok doc) {plan : List UnitTask} (hapart : plan.Pairwise Apart)
    (hthere : ∀ task ∈ plan,
      ((stage.seen s).entries task.target.model task.target.application).isSome)
    (hnodes : ∀ place, .place place ∈ plan → ∃ node ∈ doc.nodes, node.name = place.node)
    {decide : UnitTask → Verdict}
    (hdecide : ∀ task ∈ plan,
      decide task = task.verdict doc.nodes (task.unitsIn stage (stage.seen s))) :
    ∃ s', (Plan.execute (plan.map (step site))).run s =
        (.ofRecords (plan.map fun task => task.answer (decide task)) plan.length, s') ∧
      stage.seen s' = plan.foldl (fun sight task => task.work stage sight (decide task))
        (stage.seen s) ∧
      ∃ doc', (stage.seen s').document = .ok doc' := by
  suffices hevaluate : ∃ s', (Plan.evaluate (plan.map (step site))).run s =
        (plan.map fun task => task.answer (decide task), s') ∧
      stage.seen s' = plan.foldl (fun sight task => task.work stage sight (decide task))
        (stage.seen s) ∧
      ∃ doc', (stage.seen s').document = .ok doc' by
    obtain ⟨s', hrun, hs'⟩ := hevaluate
    refine ⟨s', ?_, hs'⟩
    rw [Plan.execute_of_evaluate hrun, List.length_map]
  induction plan generalizing s doc with
  | nil => exact ⟨s, rfl, rfl, doc, hdoc⟩
  | cons task rest ih =>
    obtain ⟨hfirst, hrest⟩ := List.pairwise_cons.1 hapart
    obtain ⟨hthere₀, hthere⟩ := List.forall_mem_cons.1 hthere
    obtain ⟨hdecide₀, hdecide⟩ := List.forall_mem_cons.1 hdecide
    obtain ⟨s₁, hrun, hs₁, hseen₁⟩ := evaluate_flawless flawless hs hdoc task hthere₀
    rw [← hdecide₀] at hrun hseen₁
    have hpassed : (task.answer (decide task)).outcome.isFailed = false := by
      rw [hdecide₀]
      exact not_isFailed_answer fun place heq => hnodes place (heq ▸ List.mem_cons_self)
    -- the others find the nodes and their applications as they were
    obtain ⟨doc₁, hdoc₁, hsame⟩ : ∃ doc₁, (task.work stage (stage.seen s) (decide task)).document =
        .ok doc₁ ∧ doc₁.nodes = doc.nodes := document_work hdoc
    have hentries : ∀ other ∈ rest, (stage.seen s₁).entries other.target.model
        other.target.application = (stage.seen s).entries other.target.model
          other.target.application := fun other hmem => by
      rw [hseen₁]
      exact entries_work_of_apart (hfirst other hmem)
    obtain ⟨s', hrest', hseen', hdoc'⟩ := ih hs₁ (hseen₁ ▸ hdoc₁) hrest
      (fun other hmem => hentries other hmem ▸ hthere other hmem)
      (fun place hmem => hsame ▸ hnodes place (List.mem_cons_of_mem _ hmem))
      (fun other hmem => by rw [hdecide other hmem, hsame, unitsIn, unitsIn, hentries other hmem])
    refine ⟨s', ?_, ?_, hdoc'⟩
    · rw [List.map_cons, Plan.evaluate_cons hrun, hpassed, hrest']
      rfl
    · rw [hseen', hseen₁]
      rfl

/-- Unit tasks for different applications and different records may be executed in any order: each
ends as it would in any other, all are executed, and the applications and the file are left the
same. -/
theorem execute_perm (flawless : site.Flawless stage) (hs : stage.ready s)
    (hdoc : (stage.seen s).document = .ok doc) {plan plan' : List UnitTask}
    (hperm : plan.Perm plan')
    (happlications : (plan.map fun task => (task.target.model, task.target.application)).Nodup)
    (hkeys : (plan.map (·.target.key)).Nodup)
    (hthere : ∀ task ∈ plan,
      ((stage.seen s).entries task.target.model task.target.application).isSome)
    (hnodes : ∀ place, .place place ∈ plan → ∃ node ∈ doc.nodes, node.name = place.node) :
    let record := fun task : UnitTask =>
      task.answer (task.verdict doc.nodes (task.unitsIn stage (stage.seen s)))
    ∃ s₁ s₂, (Plan.execute (plan.map (step site))).run s =
        (⟨plan.map record, plan.length, .completed⟩, s₁) ∧
      (Plan.execute (plan'.map (step site))).run s =
        (⟨plan'.map record, plan'.length, .completed⟩, s₂) ∧
      stage.seen s₁ = stage.seen s₂ ∧ ∃ doc', (stage.seen s₁).document = .ok doc' := by
  intro record
  have hmem : ∀ {task}, task ∈ plan' → task ∈ plan := hperm.mem_iff.2
  have hapart : plan.Pairwise Apart := pairwise_apart happlications hkeys
  have hapart' : plan'.Pairwise Apart :=
    pairwise_apart ((hperm.map _).nodup_iff.1 happlications) ((hperm.map _).nodup_iff.1 hkeys)
  have hpassed : ∀ task ∈ plan, (record task).outcome.isFailed = false := fun task htask =>
    not_isFailed_answer fun place heq => hnodes place (heq ▸ htask)
  obtain ⟨s₁, hrun₁, hseen₁, hdoc₁⟩ := execute_flawless flawless hs hdoc hapart hthere hnodes
    fun _ _ => rfl
  obtain ⟨s₂, hrun₂, hseen₂, -⟩ := execute_flawless flawless hs hdoc hapart'
    (fun task htask => hthere task (hmem htask)) (fun place hplace => hnodes place (hmem hplace))
    fun _ _ => rfl
  rw [Report.ofRecords_eq (List.forall_mem_map.2 hpassed)] at hrun₁
  rw [Report.ofRecords_eq (List.forall_mem_map.2 fun task htask => hpassed task (hmem htask))]
    at hrun₂
  refine ⟨s₁, s₂, hrun₁, hrun₂, ?_, hdoc₁⟩
  rw [hseen₁, hseen₂]
  refine hperm.foldl_eq' (fun task htask other hother sight => ?_) _
  by_cases heq : task = other
  · rw [heq]
  · exact work_comm (hapart.forall htask hother heq)

end

end UnitTask

/-! ### Two applications of a simulated fleet -/

namespace Simulation.World

/-- A fleet with a node and two applications, one of which has a unit on the node's machine. -/
def neighbours : World :=
  { withStore (Document.text ⟨[⟨"node-1", "1"⟩], .empty⟩) with
    models := .ofList [("model", .ofList [("api", ⟨[], 0, none, none⟩),
      ("db", ⟨[⟨"db/0", "1"⟩], 1, none, none⟩)])] }

/-- To place a unit of one and to withdraw the unit of the other comes to the same in either
order. -/
theorem execute_perm_neighbours :
    let place : UnitTask := .place ⟨⟨"node-1", "api-machines", "api", "model", .ofSeconds 60⟩⟩
    let withdraw : UnitTask := .withdraw ⟨⟨"node-1", "db-machines", "db", "model", .ofSeconds 60⟩⟩
    let fleet := site FileStore.inRoot
    let placed : StepRecord := ⟨"Add api unit", .run, .completed⟩
    let withdrawn : StepRecord := ⟨"Remove db unit", .run, .completed⟩
    ∃ s₁ s₂,
      (Plan.execute [place.step fleet, withdraw.step fleet]).run neighbours =
        (⟨[placed, withdrawn], 2, .completed⟩, s₁) ∧
      (Plan.execute [withdraw.step fleet, place.step fleet]).run neighbours =
        (⟨[withdrawn, placed], 2, .completed⟩, s₂) ∧
      s₁.deployment? = s₂.deployment? ∧ view.file s₁ = view.file s₂ := by
  intro place withdraw fleet placed withdrawn
  have hready : stage.ready neighbours := ⟨.file _, nofun⟩
  have hdoc : (stage.seen neighbours).document = .ok ⟨[⟨"node-1", "1"⟩], .empty⟩ :=
    Document.ofContent_text nofun
  have hthere : ∀ task ∈ [place, withdraw], ((stage.seen neighbours).entries
      task.target.model task.target.application).isSome := by
    intro task hmem
    simp only [List.mem_cons, List.not_mem_nil, or_false] at hmem
    obtain rfl | rfl := hmem <;> rfl
  have hnodes : ∀ task, .place task ∈ [place, withdraw] →
      ∃ node ∈ [(⟨"node-1", "1"⟩ : Node)], node.name = task.node := by
    intro task hmem
    simp only [List.mem_cons, List.not_mem_nil, or_false] at hmem
    obtain heq | heq := hmem
    · obtain rfl := UnitTask.place.inj heq
      exact ⟨_, List.mem_cons_self, rfl⟩
    · exact nomatch (show UnitTask.place task = .withdraw _ from heq)
  obtain ⟨s₁, s₂, hrun₁, hrun₂, hseen, -⟩ :=
    UnitTask.execute_perm flawless hready hdoc (List.Perm.swap withdraw place [])
      (by decide) (by decide) hthere hnodes
  exact ⟨s₁, s₂, hrun₁, hrun₂, congrArg Sight.entries hseen, congrArg Sight.content hseen⟩

end Simulation.World

end Converge
