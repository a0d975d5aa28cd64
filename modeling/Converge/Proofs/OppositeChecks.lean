import Converge.Proofs.Commutation
import Converge.Proofs.Watch
/-!
# Opposite checks

To place a unit and to withdraw one are decided by the same look at a node and an application, and
what one check skips the other completes.  `Site.Sees` is that look when it meets no error.  Main
statement: the check of placing, which searches the units, skips just when the check of withdrawing,
which searches the pairs of a machine and a unit, completes, and that is when the machine is among
those of the application; the run that follows withdraws the first unit on the machine and notes
that this machine has left (`Task.UnitOnNode.checks_oppose`).
-/

namespace Converge

open Simulation (Call World)

variable {σ : Type}

/-! ## Looks -/

/-- What is seen of a node and of an application when no call fails: the machine of the first node
with the name, and the application, unless it is reported as absent. -/
inductive Site.Sees (site : Site (StateM σ)) (target : Task.UnitOnNode) (s : σ) :
    String → Option Application → σ → Prop
  | present {nodes : List Node} {node : Node} {app : Application} {s₁ s₂ : σ}
      (hnodes : exec site.store.nodes s = (.ok nodes, s₁))
      (hnode : nodes.find? (·.name = target.node) = some node)
      (happ : exec (site.controller.application target.model target.application) s₁ =
        (.ok app, s₂)) :
      Sees site target s node.machine (some app) s₂
  | absent {nodes : List Node} {node : Node} {e : Error} {s₁ s₂ : σ}
      (hnodes : exec site.store.nodes s = (.ok nodes, s₁))
      (hnode : nodes.find? (·.name = target.node) = some node)
      (happ : exec (site.controller.application target.model target.application) s₁ =
        (.error e, s₂))
      (hkind : e.kind = .applicationNotFound) :
      Sees site target s node.machine none s₂

namespace Application

/-- A unit that comes first among those on a machine. -/
structure FirstOn (app : Application) (machine : String) (unit : AppUnit) : Prop where
  machine_eq : unit.machine = machine
  split : ∃ before after, app.units = before ++ unit :: after ∧
    ∀ other ∈ before, other.machine ≠ machine

theorem firstOn_of_unitOn? {app : Application} {machine : String} {unit : AppUnit}
    (h : app.unitOn? machine = some unit) : app.FirstOn machine unit where
  machine_eq := machine_of_unitOn? h
  split := by
    obtain ⟨-, before, after, hsplit, hbefore⟩ := List.find?_eq_some_iff_append.1 h
    exact ⟨before, after, hsplit, fun other hmem => by simpa using hbefore other hmem⟩

/-- There is a unit on a machine just when the machine is listed. -/
theorem isSome_unitOn?_iff {app : Application} {machine : String} :
    (app.unitOn? machine).isSome ↔ machine ∈ app.machineIds := by
  rw [mem_machineIds, unitOn?, List.find?_isSome]
  simp

end Application

namespace Placement

/-- A machine has left the list of a record, and nothing else has changed. -/
structure Left (machine : String) (record changed : Record) : Prop where
  listed : changed.find? "machine_ids" =
    some (.ofStrings ((machineIds record).filter (· ≠ machine)))
  others : ∀ key ≠ "machine_ids", changed.find? key = record.find? key

theorem left_amend (machine : String) (record : Record) :
    Left machine record (amend .leave machine record) where
  listed := find?_amend .leave machine record
  others _ hkey := find?_amend_of_ne .leave machine record hkey

/-- What noting that a machine has left comes to.  A record that is not there is empty. -/
inductive Leaving (key machine : String) : List Answer → Except Error Unit → Prop
  | unread {e : Error} (hkind : e.kind ≠ .recordNotFound) :
      Leaving key machine [⟨.record key, .error e⟩] (.error e)
  | found {record changed : Record} (written : Except Error Unit)
      (hleft : Left machine record changed) :
      Leaving key machine [⟨.record key, .ok (.record record)⟩,
        ⟨.setRecord key changed, written.map fun _ => .nothing⟩] written
  | absent {e : Error} {changed : Record} (written : Except Error Unit)
      (hkind : e.kind = .recordNotFound) (hleft : Left machine .empty changed) :
      Leaving key machine [⟨.record key, .error e⟩,
        ⟨.setRecord key changed, written.map fun _ => .nothing⟩] written

end Placement

/-! ## Checks -/

section

variable {site : Site (StateM σ)} {target : Task.UnitOnNode} {s s' : σ} {machine : String}
  {found : Option Application}

/-- The two looks of a check, the second made in the state that the first has left. -/
theorem Site.Sees.exec_looks (h : site.Sees target s machine found s') :
    ∃ s₁, exec (target.machine? site) s = (.ok (some machine), s₁) ∧
      exec (target.observe site) s₁ = (.ok found, s') := by
  have hlook : ∀ {nodes node s₁}, exec site.store.nodes s = (.ok nodes, s₁) →
      nodes.find? (·.name = target.node) = some node →
      exec (target.machine? site) s = (.ok (some node.machine), s₁) := by
    intro nodes node s₁ hnodes hnode
    have hfind : exec (site.store.findNode target.node) s = (.ok node, s₁) := by
      refine (exec_bind_ok hnodes _).trans ?_
      rw [hnode]
      rfl
    exact exec_bind_ok (exec_absentAsNone_ok hfind _) _
  cases h with
  | present hnodes hnode happ =>
    exact ⟨_, hlook hnodes hnode, exec_absentAsNone_ok happ _⟩
  | absent hnodes hnode happ hkind =>
    have habsent := exec_absentAsNone_error happ .applicationNotFound
    rw [if_pos hkind] at habsent
    exact ⟨_, hlook hnodes hnode, habsent⟩

/-- The look does not depend on what is done about the unit. -/
theorem Site.Sees.congr (h : site.Sees target s machine found s') {other : Task.UnitOnNode}
    (hnode : other.node = target.node) (hmodel : other.model = target.model)
    (hname : other.application = target.application) : site.Sees other s machine found s' := by
  obtain ⟨node, key, name, model, timeout⟩ := other
  subst hnode hmodel hname
  cases h with
  | present hnodes hnode happ => exact .present hnodes hnode happ
  | absent hnodes hnode happ hkind => exact .absent hnodes hnode happ hkind

/-- At a flawless site an application that is there is seen with its units. -/
theorem Site.Flawless.sees {stage : Stage σ} {doc : Membership.Document} {entry : stage.Entry}
    (flawless : site.Flawless stage) (hs : stage.ready s)
    (hdoc : (stage.seen s).document = .ok doc)
    (hentry : (stage.seen s).entries target.model target.application = some entry)
    (hmachine : UnitTask.machineIn? doc.nodes target.node = some machine) :
    ∃ app s', app.units = stage.units entry ∧ site.Sees target s machine (some app) s' := by
  obtain ⟨node, hnode, rfl⟩ := Option.map_eq_some_iff.1 hmachine
  obtain ⟨s₁, hnodes, hs₁, hseen₁⟩ := flawless.nodes s doc hs hdoc
  obtain ⟨app, happ, s₂, hrun, -⟩ := flawless.application target.model target.application s₁ entry
    hs₁ (hseen₁ ▸ hentry)
  exact ⟨app, s₂, happ, .present hnodes hnode hrun⟩

/-- The check of placing skips if there is a unit on the machine. -/
theorem Site.Sees.exec_place_check (h : site.Sees target s machine found s') :
    ∃ outcome, Step.exec ((Task.Place.mk target).check site) none s =
        (.ok outcome, some machine, s') ∧
      (outcome.isSkipped ↔ ∃ app, found = some app ∧ (app.unitOn? machine).isSome) := by
  obtain ⟨s₁, hlook, hobserve⟩ := h.exec_looks
  obtain ⟨memory, hresolve, hmemory⟩ := UnitTask.exec_resolve_none (Task.Place.mk target) hlook
  obtain rfl := hmemory machine rfl
  unfold Task.Place.check
  rw [Step.exec_bind_ok hresolve]
  dsimp only
  rw [Step.exec_bind_ok (Step.exec_call hobserve _)]
  cases found with
  | none => exact ⟨.completed, rfl, by simp [Outcome.isSkipped, Outcome.completed]⟩
  | some app =>
    dsimp only
    by_cases hunit : (app.unitOn? machine).isSome
    · rw [if_pos hunit]
      exact ⟨_, rfl, iff_of_true rfl ⟨app, rfl, hunit⟩⟩
    · rw [if_neg hunit]
      refine ⟨_, rfl, iff_of_false Bool.false_ne_true ?_⟩
      rintro ⟨_, ⟨⟩, hsome⟩
      exact hunit hsome

/-- The check of withdrawing completes if there is a unit on the machine, and remembers it. -/
theorem Site.Sees.exec_withdraw_check (h : site.Sees target s machine found s') :
    ∃ outcome, Step.exec ((Task.Withdraw.mk target).check site) none s =
        (.ok outcome, found.bind (·.machineUnits.find? (·.machine = machine)), s') ∧
      (outcome.isCompleted ↔ ∃ app, found = some app ∧ (app.unitOn? machine).isSome) := by
  obtain ⟨s₁, hlook, hobserve⟩ := h.exec_looks
  unfold Task.Withdraw.check
  rw [Step.exec_bind_ok (Step.exec_call hlook _)]
  dsimp only
  rw [Step.exec_bind_ok (Step.exec_call hobserve _)]
  cases found with
  | none => exact ⟨_, rfl, by simp [Outcome.isCompleted, Outcome.skipped]⟩
  | some app =>
    dsimp only [Option.bind_some]
    rw [app.find?_machineUnits]
    cases hunit : app.unitOn? machine with
    | none =>
      refine ⟨_, rfl, iff_of_false Bool.false_ne_true ?_⟩
      rintro ⟨_, ⟨⟩, hsome⟩
      rw [hunit] at hsome
      cases hsome
    | some unit => exact ⟨.completed, rfl, iff_of_true rfl ⟨app, rfl, by rw [hunit]; rfl⟩⟩

end

/-! ## Runs -/

/-- Noting that a machine has left reads the record and replaces it. -/
theorem Placement.shows_leaving (site : Site (StateM σ)) (key machine : String) (s : σ) :
    Shows (note site.store key machine .leave) (note (site.watched id).store key machine .leave) s
      fun answers noted _ => Leaving key machine answers noted := by
  have hread : Shows (site.store.recordOrEmpty key) ((site.watched id).store.recordOrEmpty key) s
      fun answers read _ => ∃ found,
        Shows.Lookup .recordNotFound (.record key) .record answers found ∧
          read = found.map (·.getD .empty) := by
    unfold MembershipStore.recordOrEmpty
    refine (Shows.lookup .recordNotFound (.record key) .record (site.store.record key) s).bind
      (fun e answers s' hlook => ⟨_, hlook, rfl⟩) fun found answers s' hlook => .pure _ ?_
    rw [List.append_nil]
    exact ⟨_, hlook, rfl⟩
  have hwrite : ∀ record s', Shows (site.store.setRecord key record)
      ((site.watched id).store.setRecord key record) s' fun answers written _ =>
        answers = [⟨.setRecord key record, written.map fun _ => .nothing⟩] := fun record s' =>
    .call id _ _ _ fun _ _ _ => rfl
  unfold note
  refine hread.bind ?_ ?_
  · rintro e answers s' ⟨found, hlook, hread⟩
    cases hlook with
    | failed hkind =>
      obtain rfl := Except.error.inj hread
      exact .unread hkind
    | _ => cases hread
  · rintro record answers s' ⟨found, hlook, hread⟩
    refine (hwrite _ s').imp ?_
    rintro _ written s'' rfl
    cases hlook with
    | present =>
      obtain rfl := Except.ok.inj hread
      exact .found written (left_amend machine record)
    | absent hkind =>
      obtain rfl := Except.ok.inj hread
      exact .absent written hkind (left_amend machine .empty)
    | failed => cases hread

namespace Task.Withdraw

/-- The answers of a run that withdraws a unit and notes that a machine has left, up to the first
error, and how it ends. -/
inductive Departs (task : Withdraw) (unit machine : String) :
    List Answer → Except Error Outcome → Prop
  | refused {e : Error} :
      Departs task unit machine [⟨.removeUnit task.model task.application unit, .error e⟩]
        (.error e)
  | unnoted {e : Error} {answers : List Answer}
      (hnoted : Placement.Leaving task.key machine answers (.error e)) :
      Departs task unit machine
        (⟨.removeUnit task.model task.application unit, .ok .nothing⟩ :: answers) (.error e)
  | awaited {answers : List Answer} (waited : Except Error Unit)
      (hnoted : Placement.Leaving task.key machine answers (.ok ⟨⟩)) :
      Departs task unit machine
        (⟨.removeUnit task.model task.application unit, .ok .nothing⟩ :: (answers ++
          [⟨.awaitReady task.model task.application task.timeout,
            waited.map fun _ => .nothing⟩]))
        (waited.map fun _ => .completed)

/-- The run withdraws the unit that is remembered. -/
theorem shows_run (task : Withdraw) (site : Site (StateM σ)) (placed : MachineUnit) (s : σ) :
    Step.Shows (task.run site) (task.run (site.watched id)) (some placed : Memory) s
      fun answers result _ _ => task.Departs placed.unit placed.machine answers result := by
  have hremove : Step.Shows
      (Step.call (site.controller.removeUnit task.model task.application placed.unit))
      (Step.call ((site.watched id).controller.removeUnit task.model task.application placed.unit))
      (some placed : Memory) s fun answers removed _ _ => answers =
        [⟨.removeUnit task.model task.application placed.unit, removed.map fun _ => .nothing⟩] :=
    .call (.call id _ _ _ fun _ _ _ => rfl)
  have hwait : ∀ memory s', Step.Shows
      (Step.call (site.controller.awaitReady task.model task.application task.timeout))
      (Step.call ((site.watched id).controller.awaitReady task.model task.application task.timeout))
      (memory : Memory) s' fun answers waited _ _ => answers =
        [⟨.awaitReady task.model task.application task.timeout, waited.map fun _ => .nothing⟩] :=
    fun memory s' => .call (.call id _ _ _ fun _ _ _ => rfl)
  have hnote : ∀ memory s', Step.Shows
      (Step.call (Placement.note site.store task.key placed.machine .leave))
      (Step.call (Placement.note (site.watched id).store task.key placed.machine .leave))
      (memory : Memory) s' fun answers noted _ _ =>
        Placement.Leaving task.key placed.machine answers noted :=
    fun memory s' => .call (Placement.shows_leaving site task.key placed.machine s')
  unfold run
  refine .get_bind (hremove.bind ?_ ?_)
  · rintro e _ memory s' rfl
    exact .refused
  · rintro _ _ memory s' rfl
    refine (hnote memory s').bind (fun e answers _ _ hnoted => .unnoted hnoted) ?_
    intro _ answers memory' s'' hnoted
    refine (hwait memory' s'').bind ?_ ?_
    · rintro e _ _ _ rfl
      exact .awaited (.error e) hnoted
    · rintro _ _ _ _ rfl
      exact .pure _ (.awaited (.ok ⟨⟩) hnoted)

end Task.Withdraw

/-! ## Checks that are opposites -/

namespace Task.UnitOnNode

/-- What the checks of placing and of withdrawing a unit come to on the same machine, and what the
run of withdrawing then does. -/
structure Opposed (site : Site (StateM σ)) (withdraw : Withdraw) (machine : String)
    (found : Option Application) (placing withdrawing : Outcome) (memory : Withdraw.Memory) :
    Prop where
  skipped_iff : placing.isSkipped ↔ withdrawing.isCompleted
  completed_iff : withdrawing.isCompleted ↔ ∃ app, found = some app ∧ machine ∈ app.machineIds
  /-- The first unit on the machine is withdrawn, and this machine is noted.  It is the unit that
  the search of the units finds and the first among the pairs with the machine. -/
  departs : withdrawing.isCompleted → ∃ app unit, found = some app ∧
    app.unitOn? machine = some unit ∧
    app.machineUnits.find? (·.machine = machine) = some ⟨machine, unit.name⟩ ∧
    app.FirstOn machine unit ∧ memory = some ⟨machine, unit.name⟩ ∧
    ∀ s, ∃ result memory' s' answers,
      (((withdraw.step site).run.run memory).run s) = ((.ofResult result, memory'), s') ∧
      (((withdraw.step (site.watched id)).run.run memory).run (s, [])) =
        ((.ofResult result, memory'), (s', answers)) ∧
      withdraw.Departs unit.name machine answers result

/-- To place a unit of an application on a node is skipped just when there is one to withdraw, and
that is when the machine of the node is among those of the application. -/
theorem checks_oppose {site : Site (StateM σ)} {target : UnitOnNode} {s s' : σ} {machine : String}
    {found : Option Application} (hsees : site.Sees target s machine found s') (key : String)
    (timeout : Duration) :
    let place := (Place.mk { target with key := key, timeout := timeout }).step site
    let withdraw := (Withdraw.mk target).step site
    ∃ placing withdrawing memory memory',
      (place.check.run place.memory).run s = ((placing, memory), s') ∧
      (withdraw.check.run withdraw.memory).run s = ((withdrawing, memory'), s') ∧
      Opposed site ⟨target⟩ machine found placing withdrawing memory' := by
  intro place withdraw
  obtain ⟨placing, hplace, hskipped⟩ := (hsees.congr rfl rfl rfl).exec_place_check
  obtain ⟨withdrawing, hwithdraw, hcompleted⟩ := hsees.exec_withdraw_check
  refine ⟨placing, withdrawing, _, _, Outcome.settle_run hplace, Outcome.settle_run hwithdraw,
    ?_, ?_, ?_⟩
  · exact hskipped.trans hcompleted.symm
  · simpa only [Application.isSome_unitOn?_iff] using hcompleted
  · intro hdone
    obtain ⟨app, rfl, hsome⟩ := hcompleted.1 hdone
    obtain ⟨unit, hunit⟩ := Option.isSome_iff_exists.1 hsome
    have hplaced : app.machineUnits.find? (·.machine = machine) = some ⟨machine, unit.name⟩ := by
      rw [app.find?_machineUnits, hunit, Option.map_some, AppUnit.placed,
        Application.machine_of_unitOn? hunit]
    refine ⟨app, unit, rfl, hunit, hplaced, Application.firstOn_of_unitOn? hunit, hplaced,
      fun s => ?_⟩
    obtain ⟨result, memory', s', answers, hplain, hwatched, hdeparts⟩ :=
      (Withdraw.mk target).shows_run site ⟨machine, unit.name⟩ s []
    refine ⟨result, memory', s', answers, ?_, ?_, hdeparts⟩
    · exact (congrArg (StateT.run · s) (congrArg _ hplaced)).trans (Outcome.settle_run hplain)
    · exact (congrArg (StateT.run · (s, [])) (congrArg _ hplaced)).trans
        (Outcome.settle_run hwatched)

/-- A fleet with two nodes of one name, and with two units on the machine of the first. -/
def doubled : World :=
  { World.withStore (Membership.Document.text ⟨[⟨"node-1", "1"⟩, ⟨"node-1", "2"⟩], .empty⟩) with
    models := .ofList [("model", .ofList
      [("db", ⟨[⟨"db/2", "3"⟩, ⟨"db/1", "1"⟩, ⟨"db/0", "1"⟩], 3, none, none⟩)])] }

/-- There is nothing to place on the first of the nodes, and the first unit there is to be
withdrawn. -/
theorem checks_oppose_doubled :
    let target : UnitOnNode := ⟨"node-1", "db-machines", "db", "model", .ofSeconds 60⟩
    let fleet := World.site Membership.FileStore.inRoot
    let place := (Place.mk { target with key := "placed", timeout := .ofSeconds 5 }).step fleet
    let withdraw := (Withdraw.mk target).step fleet
    ∃ placing withdrawing memory memory' world,
      (place.check.run place.memory).run doubled = ((placing, memory), world) ∧
      (withdraw.check.run withdraw.memory).run doubled = ((withdrawing, memory'), world) ∧
      placing.isSkipped ∧ withdrawing.isCompleted ∧ memory' = some ⟨"1", "db/1"⟩ := by
  intro target fleet place withdraw
  have hready : World.stage.ready doubled := World.ready_of_faults_eq (.file _) rfl
  have hdoc : (World.stage.seen doubled).document =
      .ok ⟨[⟨"node-1", "1"⟩, ⟨"node-1", "2"⟩], .empty⟩ := Membership.Document.ofContent_text nofun
  have hentry : (World.stage.seen doubled).entries target.model target.application =
      some ⟨[⟨"db/2", "3"⟩, ⟨"db/1", "1"⟩, ⟨"db/0", "1"⟩], 3, none, none⟩ := rfl
  have hmachine : UnitTask.machineIn? [⟨"node-1", "1"⟩, ⟨"node-1", "2"⟩] target.node =
      some "1" := rfl
  obtain ⟨app, world, happ, hsees⟩ := World.flawless.sees hready hdoc hentry hmachine
  obtain ⟨placing, withdrawing, memory, memory', hplace, hwithdraw, hopposed⟩ :=
    checks_oppose hsees "placed" (.ofSeconds 5)
  have hdone : withdrawing.isCompleted := hopposed.completed_iff.2
    ⟨app, rfl, Application.mem_machineIds.2 (happ ▸ ⟨⟨"db/1", "1"⟩, by decide, rfl⟩)⟩
  obtain ⟨_, unit, ⟨⟩, -, hplaced, -, rfl, -⟩ := hopposed.departs hdone
  have hfirst : app.machineUnits.find? (·.machine = "1") = some ⟨"1", "db/1"⟩ := by
    rw [Application.machineUnits, happ]
    rfl
  exact ⟨placing, withdrawing, memory, _, world, hplace, hwithdraw, hopposed.skipped_iff.2 hdone,
    hdone, hplaced.symm.trans hfirst⟩

end Task.UnitOnNode

end Converge
