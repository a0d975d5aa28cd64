import Converge.Proofs.Commutation
/-!
# Withdrawing undoes placing

A unit that has just been placed on a free machine is the one that is withdrawn from it, and the
machine that has just joined the list is the one that leaves it.  But each of the two tasks writes
the whole document of the store anew, so that every record in it comes back from its text twice.
Main statement: at a flawless site, to place a unit and to withdraw it completes and leaves the
units, the other applications and the nodes as they were, and the list without the machine; every
other record and every other field are as they were just if they still are after coming back from
their text twice (`UnitTask.undoes_iff_steady`).
-/

namespace Converge

open Converge.Membership (Document FileStore)
open Simulation (World)

variable {σ : Type}

/-! ## Units -/

/-- On a machine that hosts no other, a unit is found wherever it is listed. -/
theorem find?_machine_insert {before after : List AppUnit} {unit : AppUnit}
    (h : ¬ Hosts (before ++ after) unit.machine) :
    (before ++ unit :: after).find? (·.machine = unit.machine) = some unit := by
  have hnone : before.find? (·.machine = unit.machine) = none :=
    List.find?_eq_none.2 fun other hmem hmachine =>
      h ⟨other, List.mem_append_left _ hmem, of_decide_eq_true hmachine⟩
  rw [List.find?_append, hnone, Option.none_or]
  exact List.find?_cons_of_pos (decide_eq_true rfl)

/-- A unit whose name no other has is the only one that goes by its name. -/
theorem filter_name_insert {before after : List AppUnit} {unit : AppUnit}
    (h : unit.name ∉ (before ++ after).map (·.name)) :
    (before ++ unit :: after).filter (·.name ≠ unit.name) = before ++ after := by
  have hkept : (before ++ after).filter (·.name ≠ unit.name) = before ++ after :=
    List.filter_eq_self.2 fun other hmem =>
      decide_eq_true fun heq => h (heq ▸ List.mem_map_of_mem hmem)
  rw [List.filter_append, List.filter_cons_of_neg (by simp), ← List.filter_append, hkept]

/-- What the controller makes of an application when a unit is added on a machine: a unit with a
name of its own comes to those that are there, and units go by their names. -/
structure Stage.Enrols (stage : Stage σ) (target : Task.UnitOnNode) (machine : String)
    (entry : stage.Entry) : Prop where
  add : ∃ before unit after, stage.units entry = before ++ after ∧
    stage.units (stage.add target.model target.application machine entry) =
      before ++ unit :: after ∧
    unit.machine = machine ∧ unit.name ∉ (before ++ after).map (·.name)
  remove : ∀ unit entry', stage.units (stage.remove target.model target.application unit entry') =
    (stage.units entry').filter (·.name ≠ unit)

/-- The unit that was added is found on its machine, and without it the units are as before. -/
theorem Stage.Enrols.exists_unit {stage : Stage σ} {target : Task.UnitOnNode} {machine : String}
    {entry : stage.Entry} (h : stage.Enrols target machine entry)
    (hfree : ¬ Hosts (stage.units entry) machine) :
    ∃ unit : AppUnit, unit.machine = machine ∧
      (stage.units (stage.add target.model target.application machine entry)).find?
        (·.machine = machine) = some unit ∧
      stage.units (stage.remove target.model target.application unit.name
        (stage.add target.model target.application machine entry)) = stage.units entry := by
  obtain ⟨before, unit, after, hunits, hadded, rfl, hname⟩ := h.add
  rw [hunits] at hfree
  refine ⟨unit, rfl, ?_, ?_⟩
  · rw [hadded]
    exact find?_machine_insert hfree
  · rw [h.remove, hadded, hunits]
    exact filter_name_insert hname

/-! ## Records -/

namespace Membership.Document

/-- What a document with a list of machines under a key is left as when a machine has joined the
list and left it, and the document has come back from its text each time. -/
def passed (key machine : String) (doc : Document) : Document :=
  (doc.reread.reread.revise key (Placement.amend .join machine)).revise key
    (Placement.amend .leave machine)

/-- The records of a document are those of another, but for the list of machines under a key. -/
structure AgreesBeside (doc : Document) (key : String) (doc' : Document) : Prop where
  records : ∀ other ≠ key, doc'.record? other = doc.record? other
  fields : ∀ field ≠ "machine_ids", ((doc'.record? key).getD .empty).find? field =
    ((doc.record? key).getD .empty).find? field

/-- But for the list of machines under a key, the records of a document are the same after coming
back from their text twice. -/
structure SteadyBeside (doc : Document) (key : String) : Prop where
  records : ∀ other ≠ key, ∀ record, doc.record? other = some record →
    Record.reread (Record.reread record) = record
  fields : ∀ field ≠ "machine_ids", ∀ value,
    ((doc.record? key).getD .empty).find? field = some value → value.reread.reread = value

section

variable {key machine : String} {doc : Document}

/-- The list is changed in the document as it has come back. -/
theorem reread_revise_reread :
    ((doc.revise key (Placement.amend .join machine)).reread.revise key
      (Placement.amend .leave machine)).reread = doc.passed key machine := by
  have hjoin := Placement.plain_amend .join machine
  rw [reread_revise (Placement.plain_amend .leave machine), reread_revise hjoin,
    reread_revise hjoin, passed]

theorem record?_passed_of_ne {other : String} (h : other ≠ key) :
    (doc.passed key machine).record? other =
      (doc.record? other).map fun record => Record.reread (Record.reread record) := by
  rw [passed, record?_revise, if_neg h, record?_revise, if_neg h, record?_reread, record?_reread,
    Option.map_map]
  rfl

theorem record?_passed : (doc.passed key machine).record? key =
    some (Placement.amend .leave machine (Placement.amend .join machine
      (Record.reread (Record.reread ((doc.record? key).getD .empty))))) := by
  rw [passed, record?_revise, if_pos rfl, record?_revise, if_pos rfl, getD_record?_reread,
    getD_record?_reread]
  rfl

theorem machineIds_passed :
    Placement.machineIds (((doc.passed key machine).record? key).getD .empty) =
      (Placement.machineIds ((doc.record? key).getD .empty)).filter (· ≠ machine) := by
  rw [record?_passed, Option.getD_some, Placement.machineIds_amend, Placement.machineIds_amend,
    Placement.leave_join, Placement.machineIds_reread, Placement.machineIds_reread]
  rfl

theorem find?_passed {field : String} (h : field ≠ "machine_ids") :
    (((doc.passed key machine).record? key).getD .empty).find? field =
      (((doc.record? key).getD .empty).find? field).map fun value => value.reread.reread := by
  rw [record?_passed, Option.getD_some, Placement.find?_amend_of_ne _ _ _ h,
    Placement.find?_amend_of_ne _ _ _ h, Record.find?_reread, Record.find?_reread, Option.map_map]
  rfl

/-- When the other records and fields are changed each by a function, they are as they were just if
the functions do not change them. -/
theorem agreesBeside_iff_of_map {doc' : Document} {change : Record → Record} {alter : Json → Json}
    (hrecord : ∀ other ≠ key, doc'.record? other = (doc.record? other).map change)
    (hfield : ∀ field ≠ "machine_ids", ((doc'.record? key).getD .empty).find? field =
      (((doc.record? key).getD .empty).find? field).map alter) :
    doc.AgreesBeside key doc' ↔
      (∀ other ≠ key, ∀ record, doc.record? other = some record → change record = record) ∧
        ∀ field ≠ "machine_ids", ∀ value,
          ((doc.record? key).getD .empty).find? field = some value → alter value = value := by
  have hmap : ∀ {α : Type} {f : α → α} {found : Option α},
      found.map f = found ↔ ∀ a, found = some a → f a = a := by
    intro α f found
    cases found <;> simp
  constructor
  · intro h
    refine ⟨fun other hother => hmap.1 ?_, fun field hne => hmap.1 ?_⟩
    · rw [← hrecord other hother, h.records other hother]
    · rw [← hfield field hne, h.fields field hne]
  · rintro ⟨hrecords, hfields⟩
    refine ⟨fun other hother => ?_, fun field hne => ?_⟩
    · rw [hrecord other hother, hmap.2 (hrecords other hother)]
    · rw [hfield field hne, hmap.2 (hfields field hne)]

/-- The other records and fields are as they were just if coming back twice does not change
them. -/
theorem agreesBeside_passed_iff :
    doc.AgreesBeside key (doc.passed key machine) ↔ doc.SteadyBeside key := by
  rw [agreesBeside_iff_of_map (fun _ => record?_passed_of_ne) fun _ => find?_passed]
  exact ⟨fun ⟨records, fields⟩ => ⟨records, fields⟩, fun ⟨records, fields⟩ => ⟨records, fields⟩⟩

end

end Membership.Document

/-! ## Plans -/

namespace UnitTask

section

variable {site : Site (StateM σ)} {stage : Stage σ} {s : σ} {doc : Document}
  {entry : stage.Entry} {target : Task.UnitOnNode} {machine : String}

/-- The tasks of placing a unit and of withdrawing it. -/
def thereAndBack (target : Task.UnitOnNode) (timeout : Duration) : List UnitTask :=
  [.place ⟨{ target with timeout := timeout }⟩, .withdraw ⟨target⟩]

/-- What is left of an application and of the others when a unit was placed and withdrawn. -/
structure Undone (stage : Stage σ) (target : Task.UnitOnNode) (before after : Sight stage.Entry) :
    Prop where
  units : (after.entries target.model target.application).map stage.units =
    (before.entries target.model target.application).map stage.units
  others : ∀ model name, (model, name) ≠ (target.model, target.application) →
    after.entries model name = before.entries model name

/-- On a free machine a unit is placed, and the same unit is withdrawn. -/
theorem execute_thereAndBack (flawless : site.Flawless stage) (hs : stage.ready s)
    (hdoc : (stage.seen s).document = .ok doc)
    (hentry : (stage.seen s).entries target.model target.application = some entry)
    (hmachine : machineIn? doc.nodes target.node = some machine)
    (hfree : ¬ Hosts (stage.units entry) machine) (henrols : stage.Enrols target machine entry)
    (timeout : Duration) :
    ∃ s', (Plan.execute ((thereAndBack target timeout).map (step site))).run s =
        (⟨[⟨"Add " ++ target.application ++ " unit", .run, .completed⟩,
          ⟨"Remove " ++ target.application ++ " unit", .run, .completed⟩], 2, .completed⟩, s') ∧
      Undone stage target (stage.seen s) (stage.seen s') ∧
      (stage.seen s').document = .ok (doc.passed target.key machine) := by
  let place : Task.Place := ⟨{ target with timeout := timeout }⟩
  obtain ⟨unit, rfl, hfind, hunits⟩ := henrols.exists_unit hfree
  -- the machine is free, so the unit is placed
  have hplace : verdict doc.nodes (stage.units entry) (.place place) =
      .acts (.place unit.machine) := by
    have hnone : ¬ ((stage.units entry).find? (·.machine = unit.machine)).isSome := fun hsome =>
      hfree (by simpa [Hosts] using List.find?_isSome.1 hsome)
    simp only [place, verdict, hmachine, if_neg hnone]
  obtain ⟨s₁, hrun₁, hs₁, hseen₁⟩ := evaluate_place flawless hs hdoc place hentry
  rw [hplace] at hrun₁ hseen₁
  have hadded : (stage.seen s₁).entries target.model target.application =
      some (stage.add target.model target.application unit.machine entry) := by
    rw [hseen₁]
    exact entries_work_acts hentry
  have hdoc₁ : (stage.seen s₁).document =
      .ok (doc.revise target.key (Placement.amend .join unit.machine)).reread := by
    rw [hseen₁]
    exact document_work_acts hdoc
  -- and found on the machine to be withdrawn
  have hwithdraw : verdict (doc.revise target.key (Placement.amend .join unit.machine)).reread.nodes
      (stage.units (stage.add target.model target.application unit.machine entry))
      (.withdraw ⟨target⟩) = .acts (.withdraw unit) := by
    rw [Document.nodes_reread, Document.nodes_revise]
    simp only [verdict, hmachine, hfind]
  obtain ⟨s₂, hrun₂, -, hseen₂⟩ := evaluate_withdraw flawless hs₁ hdoc₁ ⟨target⟩ hadded
  rw [hwithdraw] at hrun₂ hseen₂
  refine ⟨s₂, ?_, ⟨?_, fun model name hne => ?_⟩, ?_⟩
  · exact Plan.execute_of_evaluate ((Plan.evaluate_cons hrun₁ _).trans
      (congrArg (fun ran => (_ :: ran.1, ran.2)) (Plan.evaluate_single hrun₂)))
  · rw [hseen₂, hentry, Option.map_some, ← hunits]
    exact congrArg (Option.map stage.units) (entries_work_acts hadded)
  · rw [hseen₂, entries_work_of_ne hne, hseen₁]
    exact entries_work_of_ne hne
  · rw [hseen₂, document_work_acts hdoc₁]
    exact congrArg Except.ok Document.reread_revise_reread

/-- A unit that was placed on a free machine is withdrawn again, and nothing else becomes of the
application, of the others or of the nodes; the machine is not listed, and every other record and
field is as it was just if it is the same after coming back from its text twice. -/
theorem undoes_iff_steady (flawless : site.Flawless stage) (hs : stage.ready s)
    (hdoc : (stage.seen s).document = .ok doc)
    (hentry : (stage.seen s).entries target.model target.application = some entry)
    (hmachine : machineIn? doc.nodes target.node = some machine)
    (hfree : ¬ Hosts (stage.units entry) machine) (henrols : stage.Enrols target machine entry)
    (timeout : Duration) :
    ∃ report s' doc',
      (Plan.execute ((thereAndBack target timeout).map (step site))).run s = (report, s') ∧
      report.outcome = .completed ∧ report.records.map (·.phase) = [.run, .run] ∧
      Undone stage target (stage.seen s) (stage.seen s') ∧
      (stage.seen s').document = .ok doc' ∧ doc'.nodes = doc.nodes ∧
      Placement.machineIds ((doc'.record? target.key).getD .empty) =
        (Placement.machineIds ((doc.record? target.key).getD .empty)).filter (· ≠ machine) ∧
      (doc.AgreesBeside target.key doc' ↔ doc.SteadyBeside target.key) := by
  obtain ⟨s', hrun, hundone, hdoc'⟩ :=
    execute_thereAndBack flawless hs hdoc hentry hmachine hfree henrols timeout
  exact ⟨_, s', _, hrun, rfl, rfl, hundone, hdoc', rfl, Document.machineIds_passed,
    Document.agreesBeside_passed_iff⟩

end

end UnitTask

/-! ### A simulated fleet -/

namespace Simulation.World

/-- A simulated controller numbers its units. -/
theorem enrols {target : Task.UnitOnNode} {app : Deployment} (machine : String)
    (h : target.application ++ "/" ++ String.ofList (Text.decimal app.nextNumber) ∉
      app.units.map (·.name)) : stage.Enrols target machine app where
  add := by
    refine ⟨app.units, _, [], (List.append_nil _).symm, rfl, rfl, ?_⟩
    rwa [List.append_nil]
  remove _ _ := rfl

/-- To place a unit of one of two applications and to withdraw it leaves the other alone, and every
record. -/
theorem undoes_iff_steady_neighbours :
    let target : Task.UnitOnNode := ⟨"node-1", "api-machines", "api", "model", .ofSeconds 60⟩
    let plan := (UnitTask.thereAndBack target (.ofSeconds 5)).map
      (UnitTask.step (site FileStore.inRoot))
    ∃ report world doc', (Plan.execute plan).run neighbours = (report, world) ∧
      report.outcome = .completed ∧
      (world.deployment? "model" "api").map (·.units) = some [] ∧
      world.deployment? "model" "db" = neighbours.deployment? "model" "db" ∧
      Document.ofContent (view.file world) = .ok doc' ∧ doc'.nodes = [⟨"node-1", "1"⟩] ∧
      Placement.machineIds ((doc'.record? "api-machines").getD .empty) = [] ∧
      Document.AgreesBeside ⟨[⟨"node-1", "1"⟩], .empty⟩ "api-machines" doc' := by
  intro target plan
  have hready : stage.ready neighbours := ready_of_faults_eq (.file _) rfl
  have hdoc : (stage.seen neighbours).document = .ok ⟨[⟨"node-1", "1"⟩], .empty⟩ :=
    Document.ofContent_text nofun
  have hentry : (stage.seen neighbours).entries target.model target.application =
      some ⟨[], 0, none, none⟩ := rfl
  have hsteady : Document.SteadyBeside ⟨[⟨"node-1", "1"⟩], .empty⟩ target.key := ⟨nofun, nofun⟩
  have hmachine : UnitTask.machineIn? [⟨"node-1", "1"⟩] target.node = some "1" := rfl
  have hfree : ¬ Hosts [] "1" := not_hosts_nil "1"
  have henrols : stage.Enrols target "1" ⟨[], 0, none, none⟩ := enrols "1" (by decide)
  obtain ⟨report, world, doc', hrun, houtcome, -, hundone, hdoc', hnodes, hlisted, hagrees⟩ :=
    UnitTask.undoes_iff_steady flawless hready hdoc hentry hmachine hfree henrols (.ofSeconds 5)
  exact ⟨report, world, doc', hrun, houtcome, hundone.units,
    hundone.others "model" "db" (by decide), hdoc', hnodes, hlisted, hagrees.2 hsteady⟩

/-- A document that was edited by hand, with a node and with a number that is written in a form that
is read as another number. -/
def editedText : String :=
  "\x7b\"nodes\":[\x7b\"name\":\"node-1\",\"machineid\":\"1\"\x7d]," ++
    "\"config\":\x7b\"other\":\x7b\"x\":7.12e183\x7d\x7d\x7d"

/-- A fleet with this document and with an application that has no units. -/
def edited : World :=
  { withStore editedText with
    models := .ofList [("model", .ofList [("app", ⟨[], 0, none, none⟩)])] }

/-- To place a unit and to withdraw it changes the record under another key. -/
theorem not_undone_edited :
    let target : Task.UnitOnNode := ⟨"node-1", "placement", "app", "model", .ofSeconds 5⟩
    let plan := (UnitTask.thereAndBack target (.ofSeconds 5)).map
      (UnitTask.step (site FileStore.inRoot))
    ∃ doc report world doc', Document.ofContent (view.file edited) = .ok doc ∧
      (Plan.execute plan).run edited = (report, world) ∧
      Document.ofContent (view.file world) = .ok doc' ∧
      doc'.record? "other" ≠ doc.record? "other" := by
  intro target plan
  let doc := (Document.ofText? editedText).getD .empty
  have hdoc : (stage.seen edited).document = .ok doc := by
    have hsome : (Document.ofText? editedText).isSome := by decide +kernel
    obtain ⟨parsed, hparsed⟩ := Option.isSome_iff_exists.1 hsome
    show Document.ofContent (some (.text editedText)) =
      .ok ((Document.ofText? editedText).getD .empty)
    rw [Document.ofContent, hparsed]
    rfl
  have hready : stage.ready edited := ready_of_faults_eq (.file _) rfl
  have hentry : (stage.seen edited).entries target.model target.application =
      some ⟨[], 0, none, none⟩ := rfl
  have hmachine : UnitTask.machineIn? doc.nodes target.node = some "1" := by decide +kernel
  have hfree : ¬ Hosts [] "1" := not_hosts_nil "1"
  have henrols : stage.Enrols target "1" ⟨[], 0, none, none⟩ := enrols "1" (by decide)
  obtain ⟨world, hrun, -, hdoc'⟩ :=
    UnitTask.execute_thereAndBack flawless hready hdoc hentry hmachine hfree henrols (.ofSeconds 5)
  refine ⟨doc, _, world, _, hdoc, hrun, hdoc', fun hkept => ?_⟩
  -- the record has come back from the file twice
  rw [Document.record?_passed_of_ne (by decide)] at hkept
  have hform := congrArg (Option.map fun record => (Json.ofRecord record).compact) hkept
  exact absurd hform (by decide +kernel)

end Simulation.World

end Converge
