import Converge.Proofs.Flawless
/-!
# Fleets with their store in a file

Every change of a record in a store that is a file writes the whole document anew, and a number in
it may come back as another.  What is seen of the nodes, the units and the lists of machines goes by
the laws all the same, whatever errors the calls meet.  Main statement: a simulated fleet is lawful
(`World.lawful`).
-/

namespace Converge.Simulation.World

open Converge.Membership (Document FileStore)
open Fleet (AnswersAt Faults Lawful)

variable {α : Type} {expected : String → Error → Prop} {world world' : World}

/-! ## Names of units -/

/-- The name of the unit of an application that has a number. -/
def unitName (name : String) (number : Nat) : String :=
  name ++ "/" ++ String.ofList (Text.decimal number)

theorem unitName_injective (name : String) : Function.Injective (unitName name) := by
  intro a b h
  have hlist := congrArg String.toList h
  simp only [unitName, String.toList_append, String.toList_ofList] at hlist
  have hread := congrArg (Text.natOfDigits? 10) (List.append_cancel_left hlist)
  rwa [Text.natOfDigits?_decimal, Text.natOfDigits?_decimal, Option.some.injEq] at hread

/-- The numbers from the next one on are new, if the names have smaller ones. -/
theorem unitName_not_mem {name : String} {names : List String} (numbers : List Nat) {next : Nat}
    (hnames : names = numbers.map (unitName name)) (hlt : ∀ number ∈ numbers, number < next) :
    ∀ number, next ≤ number → unitName name number ∉ names := by
  rintro number hle hmem
  rw [hnames, List.mem_map_of_injective (unitName_injective name)] at hmem
  exact Nat.not_lt.2 hle (hlt number hmem)

/-! ## What is seen -/

/-- A fleet whose file can be written and holds a document, and which is in for no errors but those
that are expected of the calls. -/
structure IsReady (expected : String → Error → Prop) (world : World) : Prop where
  file : view.ready world
  loads : ∃ doc, Document.ofContent (view.file world) = .ok doc
  faults : ∀ method fault, some fault ∈ (world.faults.find? method).getD [] →
    expected method fault
  /-- The next unit of an application gets a new name, and so do the units after it. -/
  numbers : ∀ model name app, world.deployment? model name = some app →
    ∀ number, app.nextNumber ≤ number → unitName name number ∉ app.units.map (·.name)

/-- How a fleet is seen while it is ready. -/
def fleetView (expected : String → Error → Prop) : FleetView World where
  ready := IsReady expected
  fleet world := {
    units := fun model name => (world.deployment? model name).map (·.units)
    document := (Document.ofContent (view.file world)).toOption.getD .empty
    calls := world.calls }

/-- The errors that are expected of a call, and those for want of what it is about. -/
def faultsOf (expected : String → Error → Prop) : Faults :=
  fun f call e => expected call.method e ∨ f.Lacks call e

/-- No error is expected of any call. -/
def NoError (_ : String) (_ : Error) : Prop :=
  False

/-- Without errors that are expected, a call fails only for want of what it is about. -/
theorem quiet_faultsOf : (faultsOf NoError).Quiet :=
  fun _ _ _ h => h.resolve_left id

theorem document_fleet {doc : Document} (h : Document.ofContent (view.file world) = .ok doc) :
    ((fleetView expected).fleet world).document = doc := by
  show (Document.ofContent (view.file world)).toOption.getD .empty = doc
  rw [h]
  rfl

/-- What is seen depends on the applications, the file and the calls. -/
theorem fleet_eq (hseen : stage.seen world' = stage.seen world) :
    (fleetView expected).fleet world' =
      { (fleetView expected).fleet world with calls := world'.calls } := by
  have hentries : world'.deployment? = world.deployment? := congrArg Sight.entries hseen
  have hfile : view.file world' = view.file world := congrArg Sight.content hseen
  show Fleet.mk (fun model name => (world'.deployment? model name).map _) _ _ = _
  rw [hentries, hfile]
  rfl

theorem calls_takeFault (call : Call) (world : World) :
    (takeFault call world).2.calls = world.calls := by
  unfold takeFault
  split <;> rfl

/-! ## Calls -/

section

variable {call : Call}

/-- A fault that a call meets is expected, and so are those that stay in its queue. -/
theorem IsReady.takeFault (hs : IsReady expected world) (call : Call) :
    (∀ fault, (takeFault call world).1 = some fault → expected call.method fault) ∧
      ∀ method fault, some fault ∈
        ((World.takeFault call world).2.faults.find? method).getD [] → expected method fault := by
  unfold World.takeFault
  split
  · exact ⟨nofun, hs.faults⟩
  · next head rest hqueue =>
    have hmethod := hs.faults call.method
    rw [hqueue] at hmethod
    refine ⟨fun fault hfault => hmethod fault (hfault ▸ List.mem_cons_self),
      fun method fault hmem => ?_⟩
    rw [Dict.find?_insert] at hmem
    split at hmem
    · next heq =>
      subst heq
      exact hmethod fault (List.mem_cons_of_mem _ hmem)
    · exact hs.faults method fault hmem

/-- A call takes its effect on a fleet that is seen as before, with the call. -/
theorem IsReady.sees (hs : IsReady expected world) (call : Call) :
    (fleetView expected).Sees (World.takeFault call (note call world)).2
      (((fleetView expected).fleet world).log [call]) := by
  have hnoted : IsReady expected (note call world) := ⟨hs.file, hs.loads, hs.faults, hs.numbers⟩
  have hkeeps : view.Keeps world (World.takeFault call (note call world)).2 :=
    keeps_takeFault call world hs.file
  have hseen : stage.seen (World.takeFault call (note call world)).2 = stage.seen world :=
    steady_seen.takeFault call _
  have hentries : (World.takeFault call (note call world)).2.deployment? = world.deployment? :=
    congrArg Sight.entries hseen
  refine ⟨⟨hkeeps.ready, hkeeps.file ▸ hs.loads, (hnoted.takeFault call).2, ?_⟩, ?_⟩
  · rw [hentries]
    exact hs.numbers
  · rw [fleet_eq hseen, calls_takeFault]
    rfl

/-- A call meets an error that is expected, or answers as its effect does. -/
theorem answersAt_perform {effect : Action α} {done : α → Fleet → Prop}
    (hs : IsReady expected world)
    (h : ∀ met, (fleetView expected).Sees met (((fleetView expected).fleet world).log [call]) →
      (∃ a met' f, exec effect met = (.ok a, met') ∧ done a f ∧
          (fleetView expected).Sees met' (f.log [call])) ∨
        ∃ e, exec effect met = (.error e, met) ∧ ((fleetView expected).fleet world).Lacks call e) :
    AnswersAt (fleetView expected) (faultsOf expected) world (perform call effect) call done := by
  have hnoted : IsReady expected (note call world) := ⟨hs.file, hs.loads, hs.faults, hs.numbers⟩
  have hsees := hs.sees call
  have hexpected := (hnoted.takeFault call).1
  have hperform := exec_perform call effect world
  cases hfault : (takeFault call (note call world)).1 with
  | some fault =>
    rw [hfault] at hperform
    exact .inr ⟨fault, _, hperform, .inl (hexpected fault hfault), hsees⟩
  | none =>
    rw [hfault] at hperform
    rcases h _ hsees with ⟨a, met', f, hrun, hdone, hsees'⟩ | ⟨e, hrun, hlacks⟩
    · exact .inl ⟨a, met', f, hperform.trans hrun, hdone, hsees'⟩
    · exact .inr ⟨e, _, hperform.trans hrun, .inr hlacks, hsees⟩

/-- A call that has no effect. -/
theorem answersAt_pure (hs : IsReady expected world) :
    AnswersAt (fleetView expected) (faultsOf expected) world (perform call (return ())) call
      fun _ f => f = (fleetView expected).fleet world :=
  answersAt_perform hs fun met hsees => .inl ⟨(), met, _, rfl, rfl, hsees⟩

/-- A call about an application that is not there fails for want of it. -/
theorem exec_expect_none {model name : String} (h : world.deployment? model name = none) :
    ∃ e, e.kind = .applicationNotFound ∧ exec (expect model name) world = (.error e, world) := by
  have hget : exec (get : Action World) world = (.ok world, world) := rfl
  refine ⟨.applicationNotFound ("no application " ++ name ++ " in " ++ model), rfl, ?_⟩
  unfold expect
  rw [exec_bind_ok hget, h]
  rfl

/-- The application that a call is about, or nothing, is what is seen of it. -/
theorem units_of_sees {f : Fleet} (hsees : (fleetView expected).Sees world (f.log [call]))
    (model name : String) : f.units model name = (world.deployment? model name).map (·.units) :=
  (congrFun (congrFun (congrArg Fleet.units hsees.fleet) model) name).symm

/-- The units of an application are changed, and the numbers of its next units stay new. -/
theorem sees_setDeployment {f : Fleet} {model name : String} {app : Deployment}
    (hsees : (fleetView expected).Sees world (f.log [call]))
    (hnumbers : ∀ number, app.nextNumber ≤ number →
      unitName name number ∉ app.units.map (·.name)) :
    (fleetView expected).Sees (setDeployment model name app world)
      ((f.withUnits model name app.units).log [call]) where
  ready := by
    refine ⟨hsees.ready.file, hsees.ready.loads, hsees.ready.faults,
      fun model' name' other hother => ?_⟩
    rw [deployment?_setDeployment] at hother
    split at hother
    · next heq =>
      obtain ⟨rfl, rfl⟩ := heq
      cases hother
      exact hnumbers
    · exact hsees.ready.numbers model' name' other hother
  fleet := by
    rw [← Fleet.withUnits_log, ← hsees.fleet]
    refine congrArg (Fleet.mk · _ _) (funext fun model' => funext fun name' => ?_)
    rw [deployment?_setDeployment]
    show _ = if model' = model ∧ name' = name then _ else _
    split <;> rfl

/-- The document is changed in the file, and comes back from there. -/
theorem sees_update {f : Fleet} (hsees : (fleetView expected).Sees world f) {doc : Document}
    (hdoc : Document.ofContent (view.file world) = .ok doc) (change : Document → Document)
    (hsound : (change doc).Sound) (hfits : (change doc).Fits) :
    ∃ world', exec (do FileStore.inRoot.save disk (change (← FileStore.inRoot.load disk))) world =
        (.ok ⟨⟩, world') ∧
      (fleetView expected).Sees world' { f with document := (change doc).reread } := by
  obtain ⟨world', hupdate, ⟨hready, tree, rfl⟩, hfile⟩ :=
    (writable_frame world).exec_update ⟨hsees.ready.file, world.tree, rfl⟩ hdoc change
  have hreread := Document.ofContent_text_reread hsound hfits
  rw [← hfile] at hreread
  refine ⟨_, hupdate, ⟨hready, ⟨_, hreread⟩, hsees.ready.faults, hsees.ready.numbers⟩, ?_⟩
  have hdocument : ((fleetView expected).fleet { world with tree }).document =
    (change doc).reread := document_fleet hreread
  rw [← hsees.fleet]
  exact congrArg (Fleet.mk _ · _) hdocument

end

/-! ## The laws -/

/-- A machine that is noted in the document, is noted in what comes back of it. -/
theorem notes_reread (f : Fleet) (key machine : String) (change : Placement.Change) :
    f.Notes key machine change { f with document :=
      (f.document.revise key (Placement.amend change machine)).reread } where
  units := rfl
  nodes := rfl
  calls := rfl
  list := by
    have hrecord : ((f.document.revise key (Placement.amend change machine)).reread.record?
        key).getD .empty =
          Placement.amend change machine ((f.document.reread.record? key).getD .empty) := by
      rw [Document.reread_revise (Placement.plain_amend change machine), Document.record?_revise,
        if_pos rfl, Option.getD_some]
    show (((f.document.revise key (Placement.amend change machine)).reread.record? key).getD
      .empty).find? Placement.machineIdsKey = _
    rw [hrecord, Placement.find?_amend, Document.getD_record?_reread, Placement.machineIds_reread]
    rfl

/-- The document that a call finds is the one that was seen. -/
theorem document_of_sees {f : Fleet} {call : Call}
    (hsees : (fleetView expected).Sees world (f.log [call])) :
    Document.ofContent (view.file world) = .ok f.document := by
  obtain ⟨doc, hdoc⟩ := hsees.ready.loads
  have hdocument : ((fleetView expected).fleet world).document = doc := document_fleet hdoc
  rw [hdoc, ← hdocument, hsees.fleet, Fleet.document_log]

theorem answersAt_nodes (hs : IsReady expected world) :
    AnswersAt (fleetView expected) (faultsOf expected) world (store FileStore.inRoot).nodes .nodes
      fun nodes f => nodes = ((fleetView expected).fleet world).document.nodes ∧
        f = (fleetView expected).fleet world :=
  answersAt_perform hs fun met hsees => by
    have hnodes := writable.exec_nodes hsees.ready.file
    rw [document_of_sees hsees] at hnodes
    exact .inl ⟨_, met, _, hnodes, ⟨rfl, rfl⟩, hsees⟩

theorem answersAt_record (hs : IsReady expected world) (key : String) :
    AnswersAt (fleetView expected) (faultsOf expected) world ((store FileStore.inRoot).record key)
      (.record key) fun record f =>
        ((fleetView expected).fleet world).document.record? key = some record ∧
          f = (fleetView expected).fleet world :=
  answersAt_perform hs fun met hsees => by
    have hrecord := writable.exec_record hsees.ready.file key
    rw [document_of_sees hsees] at hrecord
    cases hcases : ((fleetView expected).fleet world).document.record? key with
    | some record =>
      simp only [Except.bind, hcases] at hrecord
      exact .inl ⟨record, met, _, hrecord, ⟨rfl, rfl⟩, hsees⟩
    | none =>
      simp only [Except.bind, hcases] at hrecord
      exact .inr ⟨.recordNotFound key, hrecord, hcases, rfl⟩

theorem answersAt_setRecord (hs : IsReady expected world) (key machine : String)
    (change : Placement.Change) :
    AnswersAt (fleetView expected) (faultsOf expected) world
      ((store FileStore.inRoot).setRecord key
        (((fleetView expected).fleet world).amended key machine change))
      (.setRecord key (((fleetView expected).fleet world).amended key machine change))
      fun _ f => ((fleetView expected).fleet world).Notes key machine change f :=
  answersAt_perform hs fun met hsees => by
    have hdoc := document_of_sees hsees
    obtain ⟨hsound, hfits⟩ := Document.sound_of_ofContent hdoc
    have hplain := Placement.plain_amend change machine
    obtain ⟨met', hupdate, hsees'⟩ := sees_update hsees hdoc
      (·.setRecord key (((fleetView expected).fleet world).amended key machine change))
      (hsound.revise key hplain) (hfits.revise key hplain)
    exact .inl ⟨⟨⟩, met', _, hupdate, notes_reread _ key machine change, hsees'⟩

/-- A call about an application fails for want of it, or has its effect on the units. -/
theorem answersAt_expect (hs : IsReady expected world) {call : Call} {model name : String}
    {next : Deployment → Action α} {done : α → Fleet → Prop}
    (hlacks : ∀ e, ((fleetView expected).fleet world).units model name = none →
      e.kind = .applicationNotFound → ((fleetView expected).fleet world).Lacks call e)
    (h : ∀ met app, (fleetView expected).Sees met (((fleetView expected).fleet world).log [call]) →
      met.deployment? model name = some app →
      ((fleetView expected).fleet world).units model name = some app.units →
      ∃ a met' f, exec (next app) met = (.ok a, met') ∧ done a f ∧
        (fleetView expected).Sees met' (f.log [call])) :
    AnswersAt (fleetView expected) (faultsOf expected) world
      (perform call (expect model name >>= next)) call done :=
  answersAt_perform hs fun met hsees => by
    have hunits := units_of_sees hsees model name
    cases happ : met.deployment? model name with
    | none =>
      obtain ⟨e, hkind, hexpect⟩ := exec_expect_none happ
      rw [happ] at hunits
      exact .inr ⟨e, exec_bind_error hexpect _, hlacks e hunits hkind⟩
    | some app =>
      rw [happ] at hunits
      obtain ⟨a, met', f, hrun, hrest⟩ := h met app hsees happ hunits
      exact .inl ⟨a, met', f, (exec_bind_ok (exec_expect happ) _).trans hrun, hrest⟩

theorem answersAt_application (hs : IsReady expected world) (model name : String) :
    AnswersAt (fleetView expected) (faultsOf expected) world (controller.application model name)
      (.application model name) fun app f =>
        ((fleetView expected).fleet world).units model name = some app.units ∧
          f = (fleetView expected).fleet world :=
  answersAt_expect hs (fun _ hnone hkind => ⟨hnone, hkind⟩) fun met app hsees _ hunits =>
    ⟨⟨name, app.units⟩, met, _, rfl, ⟨hunits, rfl⟩, hsees⟩

theorem answersAt_addUnit (hs : IsReady expected world) (model name machine : String) :
    AnswersAt (fleetView expected) (faultsOf expected) world
      (controller.addUnit model name machine) (.addUnit model name machine) fun unit f =>
        ∃ before after,
          ((fleetView expected).fleet world).units model name = some (before ++ after) ∧
          unit.machine = machine ∧ unit.name ∉ (before ++ after).map (·.name) ∧
          f = ((fleetView expected).fleet world).withUnits model name
            (before ++ unit :: after) := by
  refine answersAt_expect hs (fun _ hnone _ => hnone) fun met app hsees happ hunits => ?_
  let unit : AppUnit := ⟨unitName name app.nextNumber, machine⟩
  have hnumbers := hsees.ready.numbers model name app happ
  have hall : app.units ++ [] = app.units := List.append_nil _
  have hlater : ∀ number, app.nextNumber + 1 ≤ number →
      unitName name number ∉ (app.units ++ [unit]).map (·.name) := by
    intro number hnumber hmem
    rw [List.map_append, List.mem_append] at hmem
    rcases hmem with hmem | hmem
    · exact hnumbers number (Nat.le_of_succ_le hnumber) hmem
    · have hnext := unitName_injective name (List.mem_singleton.1 hmem)
      omega
  exact ⟨unit, _, _, rfl, ⟨app.units, [], hall.symm ▸ hunits, rfl,
    hall.symm ▸ hnumbers _ le_rfl, rfl⟩, sees_setDeployment hsees hlater⟩

theorem answersAt_removeUnit (hs : IsReady expected world) (model name unit : String) :
    AnswersAt (fleetView expected) (faultsOf expected) world
      (controller.removeUnit model name unit) (.removeUnit model name unit) fun _ f =>
        ∃ units, ((fleetView expected).fleet world).units model name = some units ∧
          f = ((fleetView expected).fleet world).withUnits model name
            (units.filter (·.name ≠ unit)) := by
  refine answersAt_expect hs (fun _ hnone _ => hnone) fun met app hsees happ hunits => ?_
  have hnumbers := hsees.ready.numbers model name app happ
  have hkept : ∀ number, app.nextNumber ≤ number →
      unitName name number ∉ (app.units.filter (·.name ≠ unit)).map (·.name) :=
    fun number hnumber hmem =>
      hnumbers number hnumber ((List.filter_sublist.map _).subset hmem)
  exact ⟨⟨⟩, _, _, rfl, ⟨app.units, hunits, rfl⟩, sees_setDeployment hsees hkept⟩

/-- A fleet is lawful, whatever errors are expected of its calls. -/
theorem lawful (expected : String → Error → Prop) :
    Lawful (site FileStore.inRoot) (fleetView expected) (faultsOf expected) where
  nodes _ hs := answersAt_nodes hs
  application model name _ hs := answersAt_application hs model name
  addUnit model name machine _ hs := answersAt_addUnit hs model name machine
  removeUnit model name unit _ hs := answersAt_removeUnit hs model name unit
  awaitStatus _ _ _ _ _ hs := answersAt_pure hs
  awaitReady _ _ _ _ hs := answersAt_pure hs
  record key _ hs := answersAt_record hs key
  setRecord key machine change _ hs := answersAt_setRecord hs key machine change

/-! ## Fleets with one application -/

section

variable {doc : Document} {app : Deployment} {faults : Dict (List (Option Error))}

-- `stored` is not unfolded by itself, or its file is read wherever a list in it is mentioned
/-- A fleet whose store holds a document and which has one application, whose calls are in for
faults. -/
@[irreducible]
def stored (doc : Document) (app : Deployment) (faults : Dict (List (Option Error))) : World :=
  setDeployment "model" "app" app { withStore doc.text with faults }

theorem deployment?_stored (model name : String) : (stored doc app faults).deployment? model name =
    if model = "model" ∧ name = "app" then some app else none := by
  unfold stored
  exact deployment?_setDeployment _ "model" "app" app model name

/-- The errors of one kind of call. -/
def ErrorOf (method met : String) (_ : Error) : Prop :=
  met = method

theorem errorOf_of_mem {method met : String} {queue : List (Option Error)} {fault : Error}
    (h : some fault ∈ ((Dict.empty.insert method queue).find? met).getD []) :
    ErrorOf method met fault := by
  rw [Dict.find?_insert] at h
  split at h
  · assumption
  · cases h

/-- A fleet is ready if its document is read as it is, its faults are expected, and no unit has the
number of the next one or one beyond. -/
theorem isReady_stored (hdoc : Document.ofContent (some (.text doc.text)) = .ok doc)
    (hfaults : ∀ method fault, some fault ∈ (faults.find? method).getD [] →
      expected method fault)
    (hnumbers : ∀ number, app.nextNumber ≤ number →
      unitName "app" number ∉ app.units.map (·.name)) :
    IsReady expected (stored doc app faults) where
  file := by
    unfold stored
    exact ready_withStore _
  loads := by
    unfold stored
    exact ⟨doc, hdoc⟩
  faults := by
    unfold stored
    exact hfaults
  numbers model name other hother := by
    rw [deployment?_stored] at hother
    split at hother
    · next heq =>
      cases hother
      rw [heq.2]
      exact hnumbers
    · cases hother

theorem units_stored : ((fleetView expected).fleet (stored doc app faults)).units "model" "app" =
    some app.units := by
  show ((stored doc app faults).deployment? "model" "app").map (·.units) = some app.units
  rw [deployment?_stored, if_pos ⟨rfl, rfl⟩, Option.map_some]

theorem document_stored (hdoc : Document.ofContent (some (.text doc.text)) = .ok doc) :
    ((fleetView expected).fleet (stored doc app faults)).document = doc := by
  unfold stored
  exact document_fleet hdoc

theorem machineOf?_stored (hdoc : Document.ofContent (some (.text doc.text)) = .ok doc)
    (node : String) : ((fleetView expected).fleet (stored doc app faults)).machineOf? node =
      (doc.nodes.find? (·.name = node)).map (·.machine) := by
  rw [Fleet.machineOf?, document_stored hdoc]

theorem listed_stored (hdoc : Document.ofContent (some (.text doc.text)) = .ok doc) (key : String) :
    ((fleetView expected).fleet (stored doc app faults)).listed key =
      Placement.machineIds ((doc.record? key).getD .empty) := by
  rw [Fleet.listed, Fleet.recordOrEmpty, document_stored hdoc]

end

end Converge.Simulation.World
