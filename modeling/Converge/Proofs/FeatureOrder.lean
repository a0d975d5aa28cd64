import Converge.Plugin.Feature
import Converge.Proofs.PluginRecord
import Converge.Proofs.RecordChange
import Converge.Proofs.Stages
/-!
# Orders to enable and disable features

An `Order` is one call to enable or to disable a feature, through collaborators of its own.  Main
statement: a faithful order leaves the store's file as it was when it fails, and marks the feature's
record in the document when it succeeds (`Order.exec_run`).
-/

namespace Converge.Plugin

open Converge.Membership (Document)

variable {σ μ : Type}

/-- A call to enable or to disable a feature, with the site that it is made on. -/
structure Order (σ : Type) where
  feature : Feature
  site : Site (StateM σ)
  enables : Bool

namespace Order

/-- The plugin of the feature. -/
def plugin (order : Order σ) : Definition (StateM σ) :=
  order.feature.plugin order.site

/-- Enables or disables the feature. -/
def run (order : Order σ) : ExceptT Error (StateM σ) Report :=
  order.plugin.switch order.site.store order.site.clock order.enables

/-- No collaborator but the store writes to the file. -/
structure Quiet (order : Order σ) (view : FileView σ) : Prop where
  apply : ∀ config inputs, view.IsKeptBy (order.site.infra.apply config inputs).run
  awaitStatus : ∀ model names statuses timeout,
    view.IsKeptBy (order.site.controller.awaitStatus model names statuses timeout).run
  sleep : ∀ span, view.IsKeptBy (order.site.clock.sleep span)
  now : view.IsKeptBy order.site.clock.now

/-- The store is backed by the file, and no other collaborator writes to it.  The clock shows points
in time that exist. -/
structure Faithful (order : Order σ) (view : FileView σ) : Prop extends order.Quiet view where
  store : order.site.store.BackedBy view
  isPoint : ∀ s, (order.site.clock.now.run s).1.IsPoint

end Order

/-! ## Features -/

section

variable {view : FileView σ} {order : Order σ}

theorem isKeptBy_settle {action : ExceptT Error (StateM σ) Outcome} (h : view.IsKeptBy action.run)
    (memory : μ) : view.IsKeptBy
      ((Outcome.settle (Step.call action) : StateT μ (StateM σ) Outcome).run memory) := by
  intro s hs
  rcases hrun : exec action s with ⟨result, s'⟩
  rw [Outcome.settle_run (Step.exec_call hrun memory)]
  exact h.keeps hs hrun

/-- The step that applies a configuration leaves the file alone if the site does. -/
theorem Order.Quiet.isKeptBy_apply (quiet : order.Quiet view) (task : Task.Apply)
    (memory : Unit) : view.IsKeptBy ((task.step order.site).run.run memory) := by
  refine isKeptBy_settle ?_ memory
  have happly := (quiet.apply task.config task.inputs).retry quiet.sleep task.retry
  refine happly.bind_run fun _ => ?_
  cases task.wait with
  | none => exact FileView.isKeptBy_pure _
  | some wait =>
    exact (quiet.awaitStatus _ _ _ _).bind_run fun _ => FileView.isKeptBy_pure _

theorem Order.Quiet.spares (quiet : order.Quiet view) : order.plugin.Spares view where
  preEnable := FileView.isKeptBy_pure _
  postEnable := FileView.isKeptBy_pure _
  preDisable := FileView.isKeptBy_pure _
  postDisable := FileView.isKeptBy_pure _
  check step hmem memory := by
    have hstep : step = order.feature.enableTask.step order.site ∨
        step = order.feature.disableTask.step order.site := by
      simpa [Order.plugin, Feature.plugin, Definition.ofPlans] using hmem
    rcases hstep with rfl | rfl <;> exact FileView.isKeptBy_pure _
  run step hmem memory := by
    have hstep : step = order.feature.enableTask.step order.site ∨
        step = order.feature.disableTask.step order.site := by
      simpa [Order.plugin, Feature.plugin, Definition.ofPlans] using hmem
    rcases hstep with rfl | rfl
    · exact quiet.isKeptBy_apply _ memory
    · exact quiet.isKeptBy_apply _ memory

/-! ## One order -/

/-- The record that an order leaves: what the feature's record held before, if the store has told
that there is one, with the flag, the version and the time over it. -/
inductive Order.Marks (order : Order σ) (doc : Document) : Record → Prop
  | record {record : Record} {time : Timestamp} (htime : time.IsPoint)
      (h : doc.record? (key order.feature.name) = some record) :
      Marks order doc (order.plugin.mark order.enables time record)
  | empty {time : Timestamp} (htime : time.IsPoint) :
      Marks order doc (order.plugin.mark order.enables time .empty)

/-- What an order that succeeds or fails does to the file. -/
def Order.Effect (order : Order σ) (view : FileView σ) (s : σ) :
    Except Error Report → σ → Prop
  | .error _, s' => view.Keeps s s'
  | .ok _, s' => view.ready s' ∧ ∃ doc record, view.document s = .ok doc ∧
    order.Marks doc record ∧
    view.file s' = some (.text (doc.setRecord (key order.feature.name) record).text)

theorem Order.Faithful.effect_of_stages (faithful : order.Faithful view) {s s' : σ}
    {events : List Event} {result : Except Error Report}
    (h : Stages order.plugin order.site.store order.site.clock view order.enables s events result
      s') : order.Effect view s result s' := by
  cases result with
  | error e => exact h.keeps_of_error faithful.store
  | ok report =>
    obtain ⟨visits, found, record, s₁, asked, hfound, wrote, -⟩ := h.exists_of_ok
    obtain ⟨doc, hdoc, hfile⟩ := wrote.exists_document faithful.store.toReflects
    obtain ⟨s₂, hkeeps, hwrite⟩ := wrote
    refine ⟨faithful.store.setRecord_ready _ _ _ _ hkeeps.ready hwrite, doc, _, hdoc, ?_, hfile⟩
    have htime := faithful.isPoint s₁
    cases found with
    | ok found =>
      -- a record that the store gives is that of the document
      obtain ⟨s₂, s₃, hkeeps, hrecord⟩ := asked
      obtain ⟨doc', hdoc', hfind⟩ := faithful.store.record_ok _ _ _ _ hkeeps.ready hrecord
      rw [hkeeps.document_eq, hdoc] at hdoc'
      obtain rfl := Except.ok.inj hdoc'
      obtain rfl := Except.ok.inj hfound
      exact .record htime hfind
    | error e =>
      rw [foundRecord] at hfound
      split at hfound
      · obtain rfl := Except.ok.inj hfound
        exact .empty htime
      · cases hfound

/-- A faithful order that fails leaves the file as it was, and one that succeeds has put the
document with the feature's record there. -/
theorem Order.exec_run (faithful : order.Faithful view) {s s' : σ} (hs : view.ready s)
    {result : Except Error Report} (h : exec order.run s = (result, s')) :
    order.Effect view s result s' := by
  obtain ⟨events, hswitching⟩ :=
    (shows_switch faithful.spares faithful.store.toReflects faithful.now order.enables hs).of_exec h
  cases hswitching with
  | unmet hkeeps => exact hkeeps
  | met hmet hstages => exact faithful.effect_of_stages hstages

/-! ## Records that were marked -/

variable {doc : Document} {record : Record}

/-- A marked record is read with the direction and the version of the order. -/
theorem Order.Marks.ofRecord (h : order.Marks doc record) :
    ∃ state, State.ofRecord record = .ok state ∧ state.enabled = order.enables ∧
      state.version = some order.feature.version := by
  cases h with
  | record htime => exact ⟨_, State.ofRecord_mergeInto _ _ _ _ _ htime, rfl, rfl⟩
  | empty htime => exact ⟨_, State.ofRecord_mergeInto _ _ _ _ _ htime, rfl, rfl⟩

theorem Order.Marks.legible (h : order.Marks doc record) (hdoc : doc.Legible) :
    (Json.ofRecord record).Legible Document.recordDepth := by
  cases h with
  | record htime hfind => exact (State.plain_mergeInto _ _ _ _).legible (hdoc _ _ hfind)
  | empty htime => exact (State.plain_mergeInto _ _ _ _).legible (.obj .nil nofun)

end

end Converge.Plugin
