import Converge.Proofs.SimulatedStore
import Mathlib.Data.List.Basic
/-!
# The flag follows the last order

Orders to enable and to disable features are carried out one after the other, through whatever
collaborators and whatever errors.  `Follows` says that the stored state of each plugin is that of
the last order that succeeded, and that an order touches nothing but its own plugin's record.  Main
statement: this holds of all faithful orders just if the doubles in the document that they begin
with are steady (`follows_iff_steady`), because each order that succeeds writes the whole document
anew.
-/

namespace Converge.Plugin

open Converge.Membership (Document FileStore)

variable {σ : Type}

/-! ## Histories -/

/-- Orders that were carried out, with how each has ended. -/
abbrev Log (σ : Type) := List (Order σ × Except Error Report)

/-- Carries orders out one after the other, whether or not those before have failed. -/
def carryOut : List (Order σ) → σ → Log σ × σ
  | [], s => ([], s)
  | order :: rest, s =>
    let (result, s₁) := exec order.run s
    let (log, s') := carryOut rest s₁
    ((order, result) :: log, s')

theorem carryOut_cons {order : Order σ} {s s₁ : σ} {result : Except Error Report}
    (h : exec order.run s = (result, s₁)) (rest : List (Order σ)) :
    carryOut (order :: rest) s =
      ((order, result) :: (carryOut rest s₁).1, (carryOut rest s₁).2) := by
  rw [carryOut, h]

/-- The last order for a plugin that has succeeded. -/
def settled? (name : String) : Log σ → Option (Order σ)
  | [] => none
  | (order, result) :: rest =>
    (settled? name rest).or
      (if result.isOk && order.feature.name = name then some order else none)

/-- What an action gives in a state. -/
def answer {α : Type} (action : ExceptT Error (StateM σ) α) (s : σ) : Except Error α :=
  (exec action s).1

/-- The stored states follow the orders that are carried out from a state on, as far as a store
tells. -/
structure Follows (store : MembershipStore (StateM σ)) (orders : List (Order σ)) (s : σ) :
    Prop where
  /-- A plugin is as the last order for it that succeeded has left it. -/
  settled : ∀ name order, settled? name (carryOut orders s).1 = some order →
    ∃ state, answer (stateOf store name) (carryOut orders s).2 = .ok state ∧
      answer (isEnabled store name) (carryOut orders s).2 = .ok order.enables ∧
      state.version = some order.feature.version
  /-- A plugin for which no order succeeded is as it was, even if its record is no state. -/
  unsettled : ∀ name, settled? name (carryOut orders s).1 = none →
    answer (stateOf store name) (carryOut orders s).2 = answer (stateOf store name) s
  /-- No order touches the state of another plugin. -/
  states : ∀ before order after name, orders = before ++ order :: after →
    name ≠ order.feature.name →
    answer (stateOf store name) (exec order.run (carryOut before s).2).2 =
      answer (stateOf store name) (carryOut before s).2
  /-- No order touches the nodes. -/
  nodes : ∀ before order after, orders = before ++ order :: after →
    answer store.nodes (exec order.run (carryOut before s).2).2 =
      answer store.nodes (carryOut before s).2
  /-- No order touches the record under another key. -/
  records : ∀ before order after other, orders = before ++ order :: after →
    other ≠ key order.feature.name →
    answer (store.record other) (exec order.run (carryOut before s).2).2 =
      answer (store.record other) (carryOut before s).2

/-! ## What the documents go through -/

/-- What an order makes of a document. -/
inductive Order.Advances (order : Order σ) (doc : Document) : Except Error Report → Document → Prop
  | failed (e : Error) : Advances order doc (.error e) doc
  | marked (report : Report) {record : Record} (h : order.Marks doc record) :
      Advances order doc (.ok report) (doc.setRecord (key order.feature.name) record)

section

variable {view : FileView σ} {order : Order σ} {orders : List (Order σ)} {s s' : σ}
  {doc doc' : Document} {result : Except Error Report}

theorem Order.Advances.record?_of_ne (h : order.Advances doc result doc') {other : String}
    (hne : other ≠ key order.feature.name) : doc'.record? other = doc.record? other := by
  cases h with
  | failed e => rfl
  | marked report h => rw [Document.record?_setRecord, if_neg hne]

theorem Order.Advances.nodes_eq (h : order.Advances doc result doc') : doc'.nodes = doc.nodes := by
  cases h <;> rfl

/-- From a legible document, an order that succeeds goes on to the marked one. -/
theorem Order.Faithful.advances (faithful : order.Faithful view) (hs : view.ready s)
    (hdoc : view.document s = .ok doc) (hlegible : doc.Legible)
    (h : exec order.run s = (result, s')) :
    view.ready s' ∧ ∃ doc', view.document s' = .ok doc' ∧ doc'.Legible ∧
      order.Advances doc result doc' := by
  have heffect := order.exec_run faithful hs h
  cases result with
  | error e =>
    have hkeeps : view.Keeps s s' := heffect
    exact ⟨hkeeps.ready, doc, hkeeps.document_eq.trans hdoc, hlegible, .failed e⟩
  | ok report =>
    obtain ⟨hready, doc₁, record, hdoc₁, hmarks, hfile⟩ := heffect
    obtain rfl : doc = doc₁ := Except.ok.inj (hdoc.symm.trans hdoc₁)
    have hlegible' := hlegible.setRecord (key order.feature.name) (hmarks.legible hlegible)
    refine ⟨hready, _, ?_, hlegible', .marked report hmarks⟩
    rw [FileView.document, hfile, Document.ofContent_text hlegible']

/-- Where no document can be loaded, no order succeeds. -/
theorem Order.Faithful.unloadable (faithful : order.Faithful view) (hs : view.ready s) {e : Error}
    (hdoc : view.document s = .error e) (h : exec order.run s = (result, s')) :
    view.Keeps s s' ∧ result.isOk = false := by
  have heffect := order.exec_run faithful hs h
  cases result with
  | error e => exact ⟨heffect, rfl⟩
  | ok report =>
    obtain ⟨-, doc, -, hdoc', -⟩ := heffect
    rw [hdoc] at hdoc'
    cases hdoc'

/-- From a legible document on, each plugin's record is the one that was marked last. -/
theorem carryOut_legible (faithful : ∀ order ∈ orders, order.Faithful view) (hs : view.ready s)
    (hdoc : view.document s = .ok doc) (hlegible : doc.Legible) :
    view.ready (carryOut orders s).2 ∧ ∃ doc', view.document (carryOut orders s).2 = .ok doc' ∧
      doc'.Legible ∧ ∀ name, match settled? name (carryOut orders s).1 with
        | some order => ∃ before record, order.Marks before record ∧
            doc'.record? (key name) = some record
        | none => doc'.record? (key name) = doc.record? (key name) := by
  induction orders generalizing s doc with
  | nil => exact ⟨hs, doc, hdoc, hlegible, fun _ => rfl⟩
  | cons order rest ih =>
    obtain ⟨horder, hrest⟩ := List.forall_mem_cons.1 faithful
    rcases hrun : exec order.run s with ⟨result, s₁⟩
    obtain ⟨hs₁, doc₁, hdoc₁, hlegible₁, hadvances⟩ := horder.advances hs hdoc hlegible hrun
    obtain ⟨hs', doc', hdoc', hlegible', hall⟩ := ih hrest hs₁ hdoc₁ hlegible₁
    rw [carryOut_cons hrun]
    refine ⟨hs', doc', hdoc', hlegible', fun name => ?_⟩
    have hname := hall name
    rw [settled?]
    cases hlast : settled? name (carryOut rest s₁).1 with
    | some last =>
      rw [hlast] at hname
      exact hname
    | none =>
      rw [hlast] at hname
      -- no later order has settled the plugin, so this one decides
      have hname' : doc'.record? (key name) = doc₁.record? (key name) := hname
      cases hadvances with
      | failed e => exact hname'
      | @marked report record hmarks =>
        rw [Document.record?_setRecord] at hname'
        by_cases heq : order.feature.name = name
        · subst heq
          rw [if_pos rfl] at hname'
          simp only [Option.none_or, Except.isOk, Except.toBool, Bool.true_and, decide_true,
            if_true]
          exact ⟨doc, record, hmarks, hname'⟩
        · rw [if_neg fun hkey => heq (key_injective hkey).symm] at hname'
          simp only [Option.none_or, heq, decide_false, Bool.and_false]
          exact hname'

/-- Where no document can be loaded, nothing changes. -/
theorem carryOut_unloadable (faithful : ∀ order ∈ orders, order.Faithful view) (hs : view.ready s)
    {e : Error} (hdoc : view.document s = .error e) :
    view.Keeps s (carryOut orders s).2 ∧ ∀ name, settled? name (carryOut orders s).1 = none := by
  induction orders generalizing s with
  | nil => exact ⟨.refl hs, fun _ => rfl⟩
  | cons order rest ih =>
    obtain ⟨horder, hrest⟩ := List.forall_mem_cons.1 faithful
    rcases hrun : exec order.run s with ⟨result, s₁⟩
    -- the order fails and keeps the file, so the rest cannot load it either
    obtain ⟨hkeeps, hfailed⟩ := horder.unloadable hs hdoc hrun
    obtain ⟨hkeeps', hnone⟩ := ih hrest hkeeps.ready (hkeeps.document_eq.trans hdoc)
    rw [carryOut_cons hrun]
    refine ⟨hkeeps.trans hkeeps', fun name => ?_⟩
    simp [settled?, hnone name, hfailed]

/-- Legible documents stay legible. -/
theorem carryOut_invariant (faithful : ∀ order ∈ orders, order.Faithful view) (hs : view.ready s)
    (hlegible : ∀ doc, view.document s = .ok doc → doc.Legible) :
    view.ready (carryOut orders s).2 ∧
      ∀ doc, view.document (carryOut orders s).2 = .ok doc → doc.Legible := by
  cases hdoc : view.document s with
  | error e =>
    have hkeeps := (carryOut_unloadable faithful hs hdoc).1
    exact ⟨hkeeps.ready, fun doc hdoc' => hlegible doc (hkeeps.document_eq.symm.trans hdoc')⟩
  | ok doc =>
    obtain ⟨hs', doc', hdoc', hlegible', -⟩ :=
      carryOut_legible faithful hs hdoc (hlegible doc hdoc)
    exact ⟨hs', fun other hother => Except.ok.inj (hdoc'.symm.trans hother) ▸ hlegible'⟩

/-- An order leaves alone what is not its own. -/
theorem Order.Faithful.others_eq (faithful : order.Faithful view) (hs : view.ready s)
    (hlegible : ∀ doc, view.document s = .ok doc → doc.Legible)
    (h : exec order.run s = (result, s')) :
    view.ready s' ∧ (view.document s').map (·.nodes) = (view.document s).map (·.nodes) ∧
      ∀ other, other ≠ key order.feature.name →
        (view.document s').map (·.record? other) = (view.document s).map (·.record? other) := by
  cases hdoc : view.document s with
  | error e =>
    have hkeeps := (faithful.unloadable hs hdoc h).1
    rw [hkeeps.document_eq, hdoc]
    exact ⟨hkeeps.ready, rfl, fun _ _ => rfl⟩
  | ok doc =>
    obtain ⟨hs', doc', hdoc', -, hadvances⟩ := faithful.advances hs hdoc (hlegible doc hdoc) h
    rw [hdoc']
    exact ⟨hs', congrArg Except.ok hadvances.nodes_eq,
      fun other hne => congrArg Except.ok (hadvances.record?_of_ne hne)⟩

end

/-! ## What a store tells -/

section

variable {store : FileStore} {disk : Disk (StateM σ)} {ready prepared : σ → Prop}
  {file temporary : σ → Option Content} {s s' : σ} {doc : Document}

theorem answer_nodes (writable : store.Writable disk ready prepared file temporary) (hs : ready s) :
    answer (store.toStore disk).nodes s =
      (FileView.document ⟨ready, file⟩ s).map (·.nodes) := by
  rw [answer, writable.exec_nodes hs]
  rfl

theorem answer_record (writable : store.Writable disk ready prepared file temporary) (hs : ready s)
    (key : String) :
    answer ((store.toStore disk).record key) s =
      ((FileView.document ⟨ready, file⟩ s).map (·.record? key)).bind fun found =>
        match found with
        | some record => .ok record
        | none => .error (.recordNotFound key) := by
  rw [answer, writable.exec_record hs key]
  show (Document.ofContent (file s)).bind _ = ((Document.ofContent (file s)).map _).bind _
  cases Document.ofContent (file s) <;> rfl

theorem answer_stateOf (writable : store.Writable disk ready prepared file temporary)
    (hs : ready s) (name : String) :
    answer (stateOf (store.toStore disk) name) s =
      ((FileView.document ⟨ready, file⟩ s).map (·.record? (key name))).bind fun found =>
        State.ofRecord (found.getD .empty) := by
  have hrecord := writable.exec_recordOrEmpty hs (key name)
  show (exec ((store.toStore disk).recordOrEmpty (key name) >>= fun record =>
    liftM (State.ofRecord record)) s).1 = ((Document.ofContent (file s)).map _).bind _
  cases hdoc : Document.ofContent (file s) with
  | error e =>
    rw [hdoc] at hrecord
    rw [exec_bind_error hrecord]
    rfl
  | ok doc =>
    rw [hdoc] at hrecord
    rw [exec_bind_ok hrecord]
    rfl

theorem answer_isEnabled (store : MembershipStore (StateM σ)) (name : String) (s : σ) :
    answer (isEnabled store name) s = (answer (stateOf store name) s).map (·.enabled) := by
  rcases hstate : exec (stateOf store name) s with ⟨e | state, s'⟩
  · show (exec (stateOf store name >>= _) s).1 = _
    rw [exec_bind_error hstate, answer, hstate]
    rfl
  · show (exec (stateOf store name >>= _) s).1 = _
    rw [exec_bind_ok hstate, answer, hstate]
    rfl

/-! ## The guarantee -/

/-- Faithful orders are followed if what they begin with is steady. -/
theorem follows_of_steady (writable : store.Writable disk ready prepared file temporary)
    (hs : ready s) (hsteady : ∀ doc, Document.ofContent (file s) = .ok doc → doc.Steady)
    (orders : List (Order σ)) (faithful : ∀ order ∈ orders, order.Faithful ⟨ready, file⟩) :
    Follows (store.toStore disk) orders s := by
  have hlegible (doc : Document) (hdoc : FileView.document ⟨ready, file⟩ s = .ok doc) :
      doc.Legible := Document.legible_of_ofContent hdoc (hsteady doc hdoc)
  have hs' : ready (carryOut orders s).2 := (carryOut_invariant faithful hs hlegible).1
  -- what holds of the state that an order in the middle is begun in, and of the one it leaves
  have hothers : ∀ before order after, orders = before ++ order :: after →
      ready (carryOut before s).2 ∧ ready (exec order.run (carryOut before s).2).2 ∧
      (FileView.document ⟨ready, file⟩ (exec order.run (carryOut before s).2).2).map (·.nodes) =
        (FileView.document ⟨ready, file⟩ (carryOut before s).2).map (·.nodes) ∧
      ∀ other, other ≠ key order.feature.name →
        (FileView.document ⟨ready, file⟩ (exec order.run (carryOut before s).2).2).map
            (·.record? other) =
          (FileView.document ⟨ready, file⟩ (carryOut before s).2).map (·.record? other) := by
    intro before order after hsplit
    subst hsplit
    obtain ⟨hs₁, hlegible₁⟩ := carryOut_invariant
      (fun other hmem => faithful other (List.mem_append_left _ hmem)) hs hlegible
    obtain ⟨hs₂, hrest⟩ := (faithful order (by simp)).others_eq hs₁ hlegible₁ rfl
    exact ⟨hs₁, hs₂, hrest⟩
  constructor
  case settled =>
    intro name order hlast
    cases hdoc : FileView.document ⟨ready, file⟩ s with
    | error e =>
      rw [(carryOut_unloadable faithful hs hdoc).2 name] at hlast
      cases hlast
    | ok doc =>
      obtain ⟨-, doc', hdoc', -, hall⟩ := carryOut_legible faithful hs hdoc (hlegible doc hdoc)
      have hname := hall name
      rw [hlast] at hname
      obtain ⟨before, record, hmarks, hfind⟩ := hname
      obtain ⟨state, hstate, henabled, hversion⟩ := hmarks.ofRecord
      have hanswer : answer (stateOf (store.toStore disk) name) (carryOut orders s).2 =
          .ok state := by
        rw [answer_stateOf writable hs', hdoc', Except.map, hfind]
        exact hstate
      refine ⟨state, hanswer, ?_, hversion⟩
      rw [answer_isEnabled, hanswer, Except.map, henabled]
  case unsettled =>
    intro name hnone
    rw [answer_stateOf writable hs', answer_stateOf writable hs]
    cases hdoc : FileView.document ⟨ready, file⟩ s with
    | error e => rw [(carryOut_unloadable faithful hs hdoc).1.document_eq, hdoc]
    | ok doc =>
      obtain ⟨-, doc', hdoc', -, hall⟩ := carryOut_legible faithful hs hdoc (hlegible doc hdoc)
      have hname := hall name
      rw [hnone] at hname
      rw [hdoc', Except.map, Except.map, hname]
  case states =>
    intro before order after name hsplit hne
    obtain ⟨hs₁, hs₂, -, hrecords⟩ := hothers before order after hsplit
    rw [answer_stateOf writable hs₂, answer_stateOf writable hs₁,
      hrecords _ fun hkey => hne (key_injective hkey)]
  case nodes =>
    intro before order after hsplit
    obtain ⟨hs₁, hs₂, hnodes, -⟩ := hothers before order after hsplit
    rw [answer_nodes writable hs₂, answer_nodes writable hs₁, hnodes]
  case records =>
    intro before order after other hsplit hne
    obtain ⟨hs₁, hs₂, -, hrecords⟩ := hothers before order after hsplit
    rw [answer_record writable hs₂, answer_record writable hs₁, hrecords _ hne]

/-! ## Where the guarantee ends -/

/-- A site on which nothing but the store does anything, at the beginning of time. -/
def calmSite (store : MembershipStore (StateM σ)) : Site (StateM σ) where
  controller :=
    { application := fun _ name => throw (.applicationNotFound name)
      addUnit := fun _ name _ => throw (.applicationNotFound name)
      removeUnit := fun _ name _ => throw (.applicationNotFound name)
      awaitStatus := fun _ _ _ _ => pure ⟨⟩
      awaitReady := fun _ _ _ => pure ⟨⟩
      latestRevision := fun _ _ _ => pure 0
      modelStatus := fun _ => pure ⟨.empty⟩ }
  infra := { init := fun _ => pure ⟨⟩, apply := fun _ _ => pure ⟨⟩ }
  store
  clock := { sleep := fun _ => pure ⟨⟩, now := pure ⟨0, 0, 0⟩ }

/-- An order to disable a feature that has nothing to apply. -/
def calmOrder (store : MembershipStore (StateM σ)) (name : String) : Order σ where
  feature :=
    { name := name
      version := "1.0"
      config := ""
      enableInputs := .empty
      disableInputs := .empty
      retry := .once }
  site := calmSite store
  enables := false

theorem faithful_calmOrder {store : MembershipStore (StateM σ)} {view : FileView σ}
    (backed : store.BackedBy view) (name : String) : (calmOrder store name).Faithful view where
  store := backed
  apply _ _ := FileView.isKeptBy_pure _
  awaitStatus _ _ _ _ := FileView.isKeptBy_pure _
  sleep _ := FileView.isKeptBy_pure _
  now := FileView.isKeptBy_pure _
  isPoint _ := Timestamp.isPoint_beginning

theorem exec_calmOrder (writable : store.Writable disk ready prepared file temporary) (hs : ready s)
    (hdoc : Document.ofContent (file s) = .ok doc) (name : String) :
    ∃ report record s', exec (calmOrder (store.toStore disk) name).run s = (.ok report, s') ∧
      ready s' ∧ file s' = some (.text (doc.setRecord (key name) record).text) := by
  let order := calmOrder (store.toStore disk) name
  let report : Report := ⟨[⟨"Disable " ++ name, .run, .completed⟩], 1, .completed⟩
  let record := order.plugin.mark false ⟨0, 0, 0⟩ ((doc.record? (key name)).getD .empty)
  -- nothing happens before the record is read
  have hpre : exec (order.plugin.pre false) s = (.ok ⟨⟩, s) := rfl
  have hplan : exec (order.plugin.runPlan (order.plugin.plan false)) s = (.ok report, s) :=
    Definition.exec_runPlan rfl
  have hpost : exec (order.plugin.post false) s = (.ok ⟨⟩, s) := rfl
  have hread := writable.exec_recordOrEmpty hs (key name)
  rw [hdoc] at hread
  obtain ⟨s', hwrite, hs', hfile⟩ :=
    writable.exec_update hs hdoc fun loaded => loaded.setRecord (key name) record
  have hpersist : exec (persist (store.toStore disk) order.site.clock name "1.0" false) s =
      (.ok ⟨⟩, s') := by
    unfold persist
    rw [exec_bind_ok hread]
    exact hwrite
  refine ⟨report, record, s', ?_, hs', hfile⟩
  show exec (order.plugin.change (store.toStore disk) order.site.clock false) s = _
  unfold Definition.change
  rw [exec_bind_ok hpre, exec_bind_ok hplan, exec_bind_ok hpost]
  exact exec_bind_ok hpersist _

/-- A record that every order under another key leaves as it was is steady. -/
theorem steady_of_follows (writable : store.Writable disk ready prepared file temporary)
    (hs : ready s) (hdoc : Document.ofContent (file s) = .ok doc)
    (h : ∀ orders : List (Order σ), (∀ order ∈ orders, order.Faithful ⟨ready, file⟩) →
      Follows (store.toStore disk) orders s) : doc.Steady := by
  intro other record hfind
  -- switching a plugin with another key must leave the record as it is
  obtain ⟨name, hname⟩ : ∃ name, other ≠ key name := by
    by_cases hempty : other = key ""
    · refine ⟨"-", fun heq => ?_⟩
      exact absurd (key_injective (hempty.symm.trans heq)) (by decide)
    · exact ⟨"", hempty⟩
  let order := calmOrder (store.toStore disk) name
  have hfollows := h [order] fun _ hmem =>
    List.mem_singleton.1 hmem ▸ faithful_calmOrder writable.transacts.backedBy name
  have hsame := hfollows.records [] order [] other rfl hname
  obtain ⟨report, mark, s', hrun, hs', hfile⟩ := exec_calmOrder writable hs hdoc name
  have hbefore : answer ((store.toStore disk).record other) s = .ok record := by
    rw [answer, writable.exec_record hs, hdoc, Except.bind, hfind]
  rw [carryOut, hrun, hbefore] at hsame
  -- the record is found in what is read back from the written document
  obtain ⟨doc', hdoc', hother⟩ :=
    writable.transacts.backedBy.record_ok other s' _ record hs' (Prod.ext hsame rfl)
  rw [FileView.document, show FileView.file ⟨ready, file⟩ s' = _ from hfile] at hdoc'
  refine Document.steady_of_ofText?_text (Document.ofText?_of_ofContent hdoc') ?_ hother
  rw [Document.record?_setRecord, if_neg hname, hfind]

/-- The stored states follow the orders that are carried out on a store, and no order touches what
is not its own, whatever the orders and whatever goes wrong, just if every double in the document
that they begin with is steady. -/
theorem follows_iff_steady (writable : store.Writable disk ready prepared file temporary)
    (hs : ready s) :
    (∀ orders : List (Order σ), (∀ order ∈ orders, order.Faithful ⟨ready, file⟩) →
        Follows (store.toStore disk) orders s) ↔
      ∀ doc, Document.ofContent (file s) = .ok doc → doc.Steady :=
  ⟨fun h _ hdoc => steady_of_follows writable hs hdoc h,
    fun hsteady orders faithful => follows_of_steady writable hs hsteady orders faithful⟩

end

/-! ### On a simulated fleet -/

open Converge.Simulation (World)

/-- An order about the feature `p` on a simulated fleet. -/
def fleetOrder (enables : Bool) : Order World :=
  { calmOrder (World.store FileStore.inRoot) "p" with
    site := World.stillSite ⟨0, 0, 0⟩
    enables }

/-- A fleet on which no record can be read the second time. -/
def flakyFleet : World :=
  { World.empty with
    faults := .ofList [("read_config", [none, some (.storeCorrupted "input/output error")])] }

/-- The order to disable fails at the record, so the order to enable is followed. -/
theorem follows_flaky :
    let orders := [fleetOrder true, fleetOrder false]
    (carryOut orders flakyFleet).1.map (·.2.isOk) = [true, false] ∧
      Follows (FileStore.inRoot.toStore World.disk) orders flakyFleet := by
  have hsteady : ∀ doc, Document.ofContent (World.view.file flakyFleet) = .ok doc →
      doc.Steady := by
    intro doc hdoc
    obtain rfl : Document.empty = doc := Except.ok.inj hdoc
    nofun
  have hready : World.view.ready flakyFleet := by
    intro name _
    nofun
  refine ⟨by decide +kernel, ?_⟩
  refine (follows_iff_steady World.writable hready).2 hsteady _ fun order hmem => ?_
  have hsite : order.site = World.stillSite ⟨0, 0, 0⟩ := by
    simp only [List.mem_cons, List.not_mem_nil, or_false] at hmem
    obtain rfl | rfl := hmem <;> rfl
  exact World.faithful hsite Timestamp.isPoint_beginning

/-- A fleet whose store was edited by hand, with a number that has a shorter form. -/
def editedFleet : World :=
  .withStore "\x7b\"nodes\":[],\"config\":\x7b\"other\":\x7b\"x\":5e32\x7d\x7d\x7d"

/-- The form of the record under a key, as far as a store tells. -/
def recordForm? (key : String) (world : World) : Option String :=
  (answer ((FileStore.inRoot.toStore World.disk).record key) world).toOption.map fun record =>
    (Json.ofRecord record).compact

/-- Enabling one feature changes the record under another key. -/
theorem not_follows_edited :
    (fleetOrder true).Faithful World.view ∧ World.view.ready editedFleet ∧
      recordForm? "other" editedFleet = some "\x7b\"x\":5.0000000000000004e+32\x7d" ∧
      recordForm? "other" (exec (fleetOrder true).run editedFleet).2 =
        some "\x7b\"x\":5e+32\x7d" ∧
      ¬ Follows (FileStore.inRoot.toStore World.disk) [fleetOrder true] editedFleet := by
  have hbefore : recordForm? "other" editedFleet =
      some "\x7b\"x\":5.0000000000000004e+32\x7d" := by decide +kernel
  have hafter : recordForm? "other" (exec (fleetOrder true).run editedFleet).2 =
      some "\x7b\"x\":5e+32\x7d" := by decide +kernel
  have hfaithful : (fleetOrder true).Faithful World.view :=
    World.faithful rfl Timestamp.isPoint_beginning
  refine ⟨hfaithful, World.ready_withStore _, hbefore, hafter, fun hfollows => ?_⟩
  have hsame := hfollows.records [] (fleetOrder true) [] "other" rfl (by decide)
  have hform : recordForm? "other" (exec (fleetOrder true).run editedFleet).2 =
      recordForm? "other" editedFleet :=
    congrArg (fun found => found.toOption.map fun record => (Json.ofRecord record).compact) hsame
  rw [hbefore, hafter] at hform
  exact absurd hform (by decide)

end Converge.Plugin
