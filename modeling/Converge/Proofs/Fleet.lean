import Converge.Membership.Document
import Converge.Proofs.Execution
import Converge.Simulation.Call
import Converge.Task.Units
import Converge.Placement
/-!
# Lawful fleets

A `Fleet` is what can be seen of a controller and a membership store: the units of every
application, the store's document and the calls so far.  `Fleet.Lawful` says how the calls of a site
act on what is seen of its states: a call that succeeds has the effect that its collaborator
documents, and one that fails changes nothing.  Of a record that is replaced it says only what
becomes of the list in it and of the nodes, as a store may write the rest of its document anew.
Which errors a call may meet is left to a relation, `Fleet.Faults`, so that a theorem covers every
schedule of errors that the relation allows.  Main statements: what looking a node up, observing an
application and noting a machine come to (`Lawful.exec_machine?`, `Lawful.exec_observe` and
`Lawful.exec_note`).
-/

namespace Converge

open Simulation (Call)
open Converge.Membership (Document)

variable {σ α : Type}

/-- What can be seen of the state of a controller and a store. -/
structure Fleet where
  /-- The units of each application of each model, if there is such an application. -/
  units : String → String → Option (List AppUnit)
  document : Document
  /-- The calls so far. -/
  calls : List Call

namespace Fleet

/-! ## Views and changes -/

/-- The fleet after some calls were made that changed nothing. -/
def log (f : Fleet) (calls : List Call) : Fleet :=
  { f with calls := f.calls ++ calls }

/-- The fleet with other units of an application. -/
def withUnits (f : Fleet) (model name : String) (units : List AppUnit) : Fleet :=
  { f with
    units := fun model' name' =>
      if model' = model ∧ name' = name then some units else f.units model' name' }

/-- The record under a key; an empty one when there is none. -/
def recordOrEmpty (f : Fleet) (key : String) : Record :=
  (f.document.record? key).getD .empty

/-- The list of machines in the record under a key. -/
def list? (f : Fleet) (key : String) : Option Json :=
  (f.recordOrEmpty key).find? Placement.machineIdsKey

/-- The record under a key after a machine has joined or left its list. -/
def amended (f : Fleet) (key machine : String) (change : Placement.Change) : Record :=
  Placement.amend change machine (f.recordOrEmpty key)

/-- The machine of the first node with a name. -/
def machineOf? (f : Fleet) (node : String) : Option String :=
  (f.document.nodes.find? (·.name = node)).map (·.machine)

/-- The machines that are listed under a key. -/
def listed (f : Fleet) (key : String) : List String :=
  Placement.machineIds (f.recordOrEmpty key)

@[simp] theorem log_log (f : Fleet) (calls calls' : List Call) :
    (f.log calls).log calls' = f.log (calls ++ calls') := by
  simp [log]

@[simp] theorem units_log (f : Fleet) (calls : List Call) : (f.log calls).units = f.units := rfl

@[simp] theorem document_log (f : Fleet) (calls : List Call) :
    (f.log calls).document = f.document := rfl

@[simp] theorem machineOf?_log (f : Fleet) (calls : List Call) (node : String) :
    (f.log calls).machineOf? node = f.machineOf? node := rfl

@[simp] theorem listed_log (f : Fleet) (calls : List Call) (key : String) :
    (f.log calls).listed key = f.listed key := rfl

@[simp] theorem units_withUnits (f : Fleet) (model name : String) (units : List AppUnit) :
    (f.withUnits model name units).units model name = some units := by
  simp [withUnits]

@[simp] theorem document_withUnits (f : Fleet) (model name : String) (units : List AppUnit) :
    (f.withUnits model name units).document = f.document := rfl

@[simp] theorem withUnits_log (f : Fleet) (model name : String) (units : List AppUnit)
    (calls : List Call) :
    (f.log calls).withUnits model name units = (f.withUnits model name units).log calls := rfl

@[simp] theorem listed_withUnits (f : Fleet) (model name : String) (units : List AppUnit)
    (key : String) : (f.withUnits model name units).listed key = f.listed key := rfl

/-! ## Noted machines -/

/-- A machine has joined or left the list under a key, and the nodes and the units are as they were.
What else the document holds may have been written anew. -/
structure Notes (f : Fleet) (key machine : String) (change : Placement.Change) (f' : Fleet) :
    Prop where
  units : f'.units = f.units
  nodes : f'.document.nodes = f.document.nodes
  calls : f'.calls = f.calls
  list : f'.list? key = some (.ofStrings (change.apply machine (f.listed key)))

section

variable {f f' : Fleet} {key machine : String} {change : Placement.Change}

theorem Notes.listed (h : f.Notes key machine change f') :
    f'.listed key = change.apply machine (f.listed key) :=
  Placement.machineIds_eq h.list

theorem Notes.machineOf? (h : f.Notes key machine change f') (node : String) :
    f'.machineOf? node = f.machineOf? node := by
  rw [Fleet.machineOf?, h.nodes, Fleet.machineOf?]

/-- What is noted after some calls, is noted and followed by the calls. -/
theorem Notes.exists_of_log {calls : List Call} (h : (f.log calls).Notes key machine change f') :
    ∃ g, f.Notes key machine change g ∧ f' = g.log calls := by
  refine ⟨{ f' with calls := f.calls }, ⟨h.units, h.nodes, rfl, h.list⟩, ?_⟩
  have hcalls : f'.calls = f.calls ++ calls := h.calls
  rw [log, ← hcalls]

end

/-! ## Errors -/

/-- Which errors a call may meet, by what is seen when it is made. -/
abbrev Faults := Fleet → Call → Error → Prop

/-- Whether an error tells that what a call is about is not there. -/
def Lacks (f : Fleet) : Call → Error → Prop
  | .application model name, e => f.units model name = none ∧ e.kind = .applicationNotFound
  | .addUnit model name _, _ => f.units model name = none
  | .removeUnit model name _, _ => f.units model name = none
  | .record key, e => f.document.record? key = none ∧ e.kind = .recordNotFound
  | _, _ => False

/-- No call fails but for want of what it is about. -/
def Faults.Quiet (fails : Faults) : Prop :=
  ∀ f call e, fails f call e → f.Lacks call e

/-- An application or a record is reported as absent only when it is. -/
structure Faults.Honest (fails : Faults) (model name key : String) : Prop where
  application : ∀ f e, fails f (.application model name) e → e.kind = .applicationNotFound →
    f.units model name = none
  record : ∀ f e, fails f (.record key) e → e.kind = .recordNotFound →
    f.document.record? key = none

/-- The record under a key is read and replaced without an error, but for a record that is not
there. -/
structure Faults.Keeps (fails : Faults) (key : String) : Prop where
  record : ∀ f e, fails f (.record key) e → f.Lacks (.record key) e
  setRecord : ∀ f record e, ¬ fails f (.setRecord key record) e

theorem Faults.Quiet.keeps {fails : Faults} (h : fails.Quiet) (key : String) :
    fails.Keeps key where
  record := fun f e => h f _ e
  setRecord := fun f record e => h f (.setRecord key record) e

theorem Faults.Quiet.honest {fails : Faults} (h : fails.Quiet) (model name key : String) :
    fails.Honest model name key where
  application := fun f e hfails _ => (h f _ e hfails).1
  record := fun f e hfails _ => (h f _ e hfails).1

/-! ## Laws -/

end Fleet

/-- How a fleet is seen in the states of a site, and which states are ready for calls. -/
structure FleetView (σ : Type) where
  ready : σ → Prop
  fleet : σ → Fleet

/-- A state is ready, and a fleet is seen in it. -/
structure FleetView.Sees (view : FleetView σ) (s : σ) (f : Fleet) : Prop where
  ready : view.ready s
  fleet : view.fleet s = f

namespace Fleet

/-- An action makes one call in a state: it succeeds with an effect, or it fails without one. -/
def AnswersAt (view : FleetView σ) (fails : Faults) (s : σ) (action : ExceptT Error (StateM σ) α)
    (call : Call) (effect : α → Fleet → Prop) : Prop :=
  (∃ a s' f, exec action s = (.ok a, s') ∧ effect a f ∧ view.Sees s' (f.log [call])) ∨
    ∃ e s', exec action s = (.error e, s') ∧ fails (view.fleet s) call e ∧
      view.Sees s' ((view.fleet s).log [call])

/-- An action makes one call, in every state that is ready. -/
def Answers (view : FleetView σ) (fails : Faults) (action : ExceptT Error (StateM σ) α)
    (call : Call) (effect : α → Fleet → Fleet → Prop) : Prop :=
  ∀ s, view.ready s → AnswersAt view fails s action call fun a f => effect a (view.fleet s) f

/-- How the calls of a site act on what is seen of its states. -/
structure Lawful (site : Site (StateM σ)) (view : FleetView σ) (fails : Faults) : Prop where
  /-- The store's nodes are read. -/
  nodes : Answers view fails site.store.nodes .nodes
    fun nodes f f' => nodes = f.document.nodes ∧ f' = f
  /-- An application is read with all of its units. -/
  application : ∀ model name, Answers view fails (site.controller.application model name)
    (.application model name) fun app f f' => f.units model name = some app.units ∧ f' = f
  /-- A unit is added with a name that no unit of the application has. -/
  addUnit : ∀ model name machine, Answers view fails (site.controller.addUnit model name machine)
    (.addUnit model name machine) fun unit f f' => ∃ before after,
      f.units model name = some (before ++ after) ∧ unit.machine = machine ∧
        unit.name ∉ (before ++ after).map (·.name) ∧
        f' = f.withUnits model name (before ++ unit :: after)
  /-- The units that have exactly the name are removed. -/
  removeUnit : ∀ model name unit, Answers view fails (site.controller.removeUnit model name unit)
    (.removeUnit model name unit) fun _ f f' => ∃ units, f.units model name = some units ∧
      f' = f.withUnits model name (units.filter (·.name ≠ unit))
  /-- Waiting changes nothing. -/
  awaitStatus : ∀ model names statuses timeout,
    Answers view fails (site.controller.awaitStatus model names statuses timeout)
      (.awaitStatus model names statuses timeout) fun _ f f' => f' = f
  /-- Waiting changes nothing. -/
  awaitReady : ∀ model name timeout,
    Answers view fails (site.controller.awaitReady model name timeout)
      (.awaitReady model name timeout) fun _ f f' => f' = f
  /-- A record is read. -/
  record : ∀ key, Answers view fails (site.store.record key) (.record key)
    fun record f f' => f.document.record? key = some record ∧ f' = f
  /-- A record is replaced by what noting a machine makes of it. -/
  setRecord : ∀ key machine change s, view.ready s →
    AnswersAt view fails s
      (site.store.setRecord key ((view.fleet s).amended key machine change))
      (.setRecord key ((view.fleet s).amended key machine change))
      fun _ f => (view.fleet s).Notes key machine change f

/-! ## What the engine makes of the calls -/

/-- What noting a machine may come to: its result, and the fleet that it leaves. -/
inductive Noting (fails : Faults) (key machine : String) (change : Placement.Change) (f : Fleet) :
    Except Error Unit → Fleet → Prop
  /-- The record cannot be read. -/
  | unread {e : Error} (hfails : fails f (.record key) e) (hkind : e.kind ≠ .recordNotFound) :
    Noting fails key machine change f (.error e) (f.log [.record key])
  /-- The record cannot be replaced. -/
  | unwritten {e : Error} (hfails : fails (f.log [.record key])
      (.setRecord key (f.amended key machine change)) e) :
    Noting fails key machine change f (.error e)
      (f.log [.record key, .setRecord key (f.amended key machine change)])
  | noted {f' : Fleet} (hnotes : f.Notes key machine change f') :
    Noting fails key machine change f (.ok ⟨⟩)
      (f'.log [.record key, .setRecord key (f.amended key machine change)])

theorem Noting.of_keeps {fails : Faults} {key machine : String} {change : Placement.Change}
    {f f' : Fleet} {result : Except Error Unit} (hkeeps : fails.Keeps key)
    (h : Noting fails key machine change f result f') :
    result = .ok ⟨⟩ ∧ ∃ g calls, f.Notes key machine change g ∧ f' = g.log calls := by
  cases h with
  | unread hfails hkind => exact absurd (hkeeps.record _ _ hfails).2 hkind
  | unwritten hfails => exact absurd hfails (hkeeps.setRecord _ _ _)
  | noted hnotes => exact ⟨rfl, _, _, hnotes, rfl⟩

namespace Lawful

variable {site : Site (StateM σ)} {view : FleetView σ} {fails : Faults}

/-- Looking for a node reads the nodes. -/
theorem exec_findNode (lawful : Lawful site view fails) (node : String) {s : σ}
    (hs : view.ready s) :
    ∃ s' result, exec (site.store.findNode node) s = (result, s') ∧
      view.Sees s' ((view.fleet s).log [.nodes]) ∧
      ((∃ found, result = .ok found ∧ (view.fleet s).machineOf? node = some found.machine) ∨
        (∃ e, result = .error e ∧ e.kind = .nodeNotFound ∧
          (view.fleet s).machineOf? node = none) ∨
        ∃ e, result = .error e ∧ fails (view.fleet s) .nodes e) := by
  unfold MembershipStore.findNode machineOf?
  rcases lawful.nodes s hs with
    ⟨nodes, s', f, hrun, ⟨rfl, rfl⟩, hsees⟩ | ⟨e, s', hrun, hfails, hsees⟩
  · rw [exec_bind_ok hrun]
    cases (view.fleet s).document.nodes.find? (·.name = node) with
    | some found => exact ⟨s', _, rfl, hsees, .inl ⟨found, rfl, rfl⟩⟩
    | none => exact ⟨s', _, rfl, hsees, .inr (.inl ⟨_, rfl, rfl, rfl⟩)⟩
  · rw [exec_bind_error hrun]
    exact ⟨s', _, rfl, hsees, .inr (.inr ⟨e, rfl, hfails⟩)⟩

/-- Looking a node's machine up reads the nodes; an error of the kind that means an absent node
hides the machine, any other error is passed on. -/
theorem exec_machine? (lawful : Lawful site view fails) (task : Task.UnitOnNode) {s : σ}
    (hs : view.ready s) :
    ∃ s' result, exec (task.machine? site) s = (result, s') ∧
      view.Sees s' ((view.fleet s).log [.nodes]) ∧
      (result = .ok ((view.fleet s).machineOf? task.node) ∨
        (∃ e, fails (view.fleet s) .nodes e ∧ e.kind = .nodeNotFound ∧ result = .ok none) ∨
        ∃ e, fails (view.fleet s) .nodes e ∧ e.kind ≠ .nodeNotFound ∧ result = .error e) := by
  obtain ⟨s', result, hrun, hsees, hresult⟩ := lawful.exec_findNode task.node hs
  unfold Task.UnitOnNode.machine?
  rcases hresult with ⟨found, rfl, hfound⟩ | ⟨e, rfl, hkind, hnone⟩ | ⟨e, rfl, hfails⟩
  · rw [exec_bind_ok (exec_absentAsNone_ok hrun _)]
    exact ⟨s', _, rfl, hsees, .inl (by rw [hfound]; rfl)⟩
  · have habsent := exec_absentAsNone_error hrun .nodeNotFound
    rw [if_pos hkind] at habsent
    rw [exec_bind_ok habsent]
    exact ⟨s', _, rfl, hsees, .inl (by rw [hnone]; rfl)⟩
  · have habsent := exec_absentAsNone_error hrun .nodeNotFound
    by_cases hkind : e.kind = .nodeNotFound
    · rw [if_pos hkind] at habsent
      rw [exec_bind_ok habsent]
      exact ⟨s', _, rfl, hsees, .inr (.inl ⟨e, hfails, hkind, rfl⟩)⟩
    · rw [if_neg hkind] at habsent
      rw [exec_bind_error habsent]
      exact ⟨s', _, rfl, hsees, .inr (.inr ⟨e, hfails, hkind, rfl⟩)⟩

/-- An application that is there is observed with its units, unless the call fails. -/
theorem exec_observe (lawful : Lawful site view fails) {task : Task.UnitOnNode} {key : String}
    (honest : fails.Honest task.model task.application key) {s : σ} (hs : view.ready s)
    {units : List AppUnit}
    (hunits : (view.fleet s).units task.model task.application = some units) :
    ∃ s' result, exec (task.observe site) s = (result, s') ∧
      view.Sees s' ((view.fleet s).log [.application task.model task.application]) ∧
      ((∃ app, result = .ok (some app) ∧ app.units = units) ∨
        ∃ e, fails (view.fleet s) (.application task.model task.application) e ∧
          result = .error e) := by
  unfold Task.UnitOnNode.observe
  rcases lawful.application task.model task.application s hs with
    ⟨app, s', f, hrun, ⟨happ, rfl⟩, hsees⟩ | ⟨e, s', hrun, hfails, hsees⟩
  · rw [hunits, Option.some.injEq] at happ
    exact ⟨s', _, exec_absentAsNone_ok hrun _, hsees, .inl ⟨app, rfl, happ.symm⟩⟩
  · -- an honest error cannot say that the application is absent
    have hkind : e.kind ≠ .applicationNotFound := fun hkind => by
      have hnone := honest.application _ e hfails hkind
      rw [hunits] at hnone
      cases hnone
    have habsent := exec_absentAsNone_error hrun .applicationNotFound
    rw [if_neg hkind] at habsent
    exact ⟨s', _, habsent, hsees, .inr ⟨e, hfails, rfl⟩⟩

/-- A record is read, or is empty where there is none, unless the call fails. -/
theorem exec_recordOrEmpty (lawful : Lawful site view fails) {model name key : String}
    (honest : fails.Honest model name key) {s : σ} (hs : view.ready s) :
    ∃ s' result, exec (site.store.recordOrEmpty key) s = (result, s') ∧
      view.Sees s' ((view.fleet s).log [.record key]) ∧
      (result = .ok ((view.fleet s).recordOrEmpty key) ∨
        ∃ e, fails (view.fleet s) (.record key) e ∧ e.kind ≠ .recordNotFound ∧
          result = .error e) := by
  unfold MembershipStore.recordOrEmpty Fleet.recordOrEmpty
  rcases lawful.record key s hs with
    ⟨record, s', f, hrun, ⟨hrecord, rfl⟩, hsees⟩ | ⟨e, s', hrun, hfails, hsees⟩
  · rw [exec_bind_ok (exec_absentAsNone_ok hrun _)]
    exact ⟨s', _, rfl, hsees, .inl (by rw [hrecord])⟩
  · -- the one error that is read as an absence is honest, and then the record is empty anyway
    have habsent := exec_absentAsNone_error hrun .recordNotFound
    by_cases hkind : e.kind = .recordNotFound
    · rw [if_pos hkind] at habsent
      rw [exec_bind_ok habsent]
      exact ⟨s', _, rfl, hsees, .inl (by rw [honest.record _ e hfails hkind])⟩
    · rw [if_neg hkind] at habsent
      rw [exec_bind_error habsent]
      exact ⟨s', _, rfl, hsees, .inr ⟨e, hfails, hkind, rfl⟩⟩

/-- Noting a machine reads the record and replaces it; the first of the two calls that fails
ends it. -/
theorem exec_note (lawful : Lawful site view fails) {model name key : String}
    (honest : fails.Honest model name key) (machine : String) (change : Placement.Change) {s : σ}
    (hs : view.ready s) :
    ∃ s' result f', exec (Placement.note site.store key machine change) s = (result, s') ∧
      view.Sees s' f' ∧ Noting fails key machine change (view.fleet s) result f' := by
  unfold Placement.note
  obtain ⟨s₁, result, hread, hsees₁, rfl | ⟨e, hfails, hkind, rfl⟩⟩ :=
    lawful.exec_recordOrEmpty honest hs
  · rw [exec_bind_ok hread]
    have hrecord : (view.fleet s₁).amended key machine change =
        (view.fleet s).amended key machine change := by
      rw [hsees₁.fleet]
      rfl
    have hwrites := lawful.setRecord key machine change s₁ hsees₁.ready
    rw [hrecord, hsees₁.fleet] at hwrites
    rcases hwrites with ⟨⟨⟩, s₂, f, hwrite, hnotes, hsees₂⟩ | ⟨e, s₂, hwrite, hfails, hsees₂⟩
    · obtain ⟨g, hnoted, rfl⟩ := hnotes.exists_of_log
      rw [log_log] at hsees₂
      exact ⟨s₂, _, _, hwrite, hsees₂, .noted hnoted⟩
    · rw [hsees₁.fleet] at hfails hsees₂
      rw [log_log] at hsees₂
      exact ⟨s₂, _, _, hwrite, hsees₂, .unwritten hfails⟩
  · rw [exec_bind_error hread]
    exact ⟨s₁, _, _, rfl, hsees₁, .unread hfails hkind⟩

end Lawful

end Fleet

end Converge
