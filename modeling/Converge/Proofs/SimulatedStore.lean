import Converge.Proofs.FeatureOrder
import Converge.Proofs.ServedStore
import Converge.Proofs.Watch
import Converge.Simulation.World
/-!
# The store of a simulated fleet

A call on a simulated fleet meets the next fault of its queue or takes effect, and a fault does
nothing to the tree.  Main statements: whatever the faults, the store of a fleet is backed by the
file in its tree (`World.backedBy`), and orders on a fleet are faithful (`World.faithful`).
-/

namespace Converge.Simulation.World

open Converge.Membership (FileStore)
open Converge.Plugin (Order)

/-- What is seen of the file that the membership store of a fleet is in. -/
def view : FileView World where
  ready world := FileStore.RootIsReady world.tree
  file world := FileStore.rootFile? "cluster.json" world.tree

theorem writable : FileStore.inRoot.Writable disk view.ready view.ready view.file
    fun world => FileStore.rootFile? "cluster.tmp" world.tree :=
  FileStore.writable_inRoot (fun _ _ => rfl) fun _ => rfl

variable {α : Type} {call : Call} {effect : Action α} {world world' : World}
  {result : Except Error α}

theorem keeps_of_tree (h : world'.tree = world.tree) (hs : view.ready world) :
    view.Keeps world world' where
  ready := by
    show FileStore.RootIsReady world'.tree
    rw [h]
    exact hs
  file := by
    show FileStore.rootFile? _ world'.tree = FileStore.rootFile? _ world.tree
    rw [h]

/-- What is seen of a fleet does not depend on the calls that were noted and the faults to come. -/
def Steady {τ : Type} (seen : World → τ) : Prop :=
  ∀ world calls faults, seen { world with calls, faults } = seen world

theorem steady_tree : Steady World.tree :=
  fun _ _ _ => rfl

/-- Taking a fault off its queue does not show. -/
theorem Steady.takeFault {τ : Type} {seen : World → τ} (hsteady : Steady seen) (call : Call)
    (world : World) : seen (takeFault call world).2 = seen world := by
  unfold World.takeFault
  split
  · rfl
  · exact hsteady world world.calls _

/-- A call is noted and meets the next fault of its queue, or else takes its effect. -/
theorem exec_perform (call : Call) (effect : Action α) (world : World) :
    exec (perform call effect) world =
      match (takeFault call (note call world)).1 with
      | some fault => (.error fault, (takeFault call (note call world)).2)
      | none => exec effect (takeFault call (note call world)).2 := by
  have hnote : exec (modify (note call) : Action Unit) world = (.ok ⟨⟩, note call world) := rfl
  have htake : exec (modifyGet (takeFault call) : Action (Option Error)) (note call world) =
      (.ok (takeFault call (note call world)).1, (takeFault call (note call world)).2) := rfl
  unfold perform
  rw [exec_bind_ok hnote, exec_bind_ok htake]
  cases (takeFault call (note call world)).1 <;> rfl

/-- A call meets a fault and has no effect, or it has its effect on a fleet that looks the same. -/
theorem exec_perform_cases {τ : Type} {seen : World → τ} (hsteady : Steady seen)
    (h : exec (perform call effect) world = (result, world')) :
    (∃ fault, result = .error fault ∧ seen world' = seen world) ∨
      ∃ met, seen met = seen world ∧ exec effect met = (result, world') := by
  have hseen : seen (takeFault call (note call world)).2 = seen world :=
    (hsteady.takeFault call _).trans (hsteady world _ world.faults)
  rw [exec_perform] at h
  split at h
  · next fault _ =>
    cases h
    exact .inl ⟨fault, rfl, hseen⟩
  · exact .inr ⟨_, hseen, h⟩

/-- A call leaves alone what its effect leaves alone. -/
theorem preserves_perform {τ : Type} {seen : World → τ} (hsteady : Steady seen)
    (h : Preserves seen effect) : Preserves seen (perform call effect) := by
  intro world
  rcases hrun : exec (perform call effect) world with ⟨result, world'⟩
  obtain ⟨-, -, hseen⟩ | ⟨met, hseen, heffect⟩ := exec_perform_cases hsteady hrun
  · exact hseen
  · exact (h.seen_eq heffect).trans hseen

/-- Looking an application up changes nothing. -/
theorem preserves_expect {τ : Type} (seen : World → τ) (model name : String) :
    Preserves seen (expect model name) := by
  refine Preserves.bind (fun _ => rfl) fun world => ?_
  cases world.deployment? model name with
  | some app => exact .pure _
  | none => exact fun _ => rfl

/-- A call whose effect leaves a file alone leaves it alone, if that does not depend on the calls
that were noted and the faults to come. -/
theorem isKeptBy_perform {sight : FileView World}
    (hfault : ∀ world, sight.ready world → sight.Keeps world (takeFault call (note call world)).2)
    (h : sight.IsKeptBy effect.run) : sight.IsKeptBy (perform call effect).run := by
  refine FileView.isKeptBy_of_exec fun world world' result hs hrun => ?_
  have hkeeps := hfault world hs
  rw [exec_perform] at hrun
  split at hrun
  · cases hrun
    exact hkeeps
  · exact hkeeps.trans (h.keeps hkeeps.ready hrun)

theorem keeps_takeFault (call : Call) (world : World) (hs : view.ready world) :
    view.Keeps world (takeFault call (note call world)).2 :=
  keeps_of_tree (steady_tree.takeFault call _) hs

/-- A fault is no answer from the file, and any other answer is. -/
theorem backedBy : (store FileStore.inRoot).BackedBy view where
  record_keeps key :=
    isKeptBy_perform (keeps_takeFault _) (writable.transacts.backedBy.record_keeps key)
  record_ok key world world' record hs h := by
    obtain ⟨fault, hfault, -⟩ | ⟨met, htree, heffect⟩ := exec_perform_cases steady_tree h
    · cases hfault
    · have hkeeps := keeps_of_tree htree hs
      rw [← hkeeps.document_eq]
      exact writable.transacts.backedBy.record_ok _ _ _ _ hkeeps.ready heffect
  setRecord_error key record world world' e hs h := by
    obtain ⟨fault, -, htree⟩ | ⟨met, htree, heffect⟩ := exec_perform_cases steady_tree h
    · exact keeps_of_tree htree hs
    · have hkeeps := keeps_of_tree htree hs
      exact hkeeps.trans
        (writable.transacts.backedBy.setRecord_error _ _ _ _ _ hkeeps.ready heffect)
  setRecord_ok key record world world' hs h := by
    obtain ⟨fault, hfault, -⟩ | ⟨met, htree, heffect⟩ := exec_perform_cases steady_tree h
    · cases hfault
    · have hkeeps := keeps_of_tree htree hs
      rw [← hkeeps.document_eq]
      exact writable.transacts.backedBy.setRecord_ok _ _ _ _ hkeeps.ready heffect
  setRecord_ready key record world world' hs h := by
    obtain ⟨fault, hfault, -⟩ | ⟨met, htree, heffect⟩ := exec_perform_cases steady_tree h
    · cases hfault
    · exact writable.transacts.backedBy.setRecord_ready _ _ _ _ (keeps_of_tree htree hs).ready
        heffect

/-- The collaborators of a fleet, with a clock that stands still. -/
def stillSite (time : Timestamp) : Site (StateM World) :=
  { site FileStore.inRoot with clock := { clock with now := pure time } }

/-- Orders on a fleet are faithful, whatever its faults. -/
theorem faithful {order : Order World} {time : Timestamp} (hsite : order.site = stillSite time)
    (htime : time.IsPoint) : order.Faithful view where
  store := hsite ▸ backedBy
  apply _ _ := hsite ▸ isKeptBy_perform (keeps_takeFault _) (FileView.isKeptBy_pure _)
  awaitStatus _ _ _ _ := hsite ▸ isKeptBy_perform (keeps_takeFault _) (FileView.isKeptBy_pure _)
  sleep _ := hsite ▸ fun _ hs => keeps_of_tree rfl hs
  now := hsite ▸ FileView.isKeptBy_pure _
  isPoint _ := hsite ▸ htime

/-! ### Stores at any path -/

/-- No fault of a fleet says that a record is not there. -/
def Truthful (world : World) : Prop :=
  ∀ fault, some fault ∈ (world.faults.find? "read_config").getD [] →
    fault.kind ≠ .recordNotFound

theorem Truthful.takeFault (h : Truthful world) (call : Call) :
    Truthful (takeFault call (note call world)).2 := by
  unfold World.takeFault
  split
  · exact h
  · next head rest hqueue =>
    intro fault hmem
    simp only [Dict.find?_insert] at hmem
    split at hmem
    · next hmethod =>
      refine h fault ?_
      rw [hmethod]
      exact hqueue ▸ List.mem_cons_of_mem _ hmem
    · exact h fault hmem

theorem Truthful.kind_ne (h : Truthful world) {key : String} {fault : Error}
    (hfault : (World.takeFault (.record key) (note (.record key) world)).1 = some fault) :
    fault.kind ≠ .recordNotFound := by
  unfold World.takeFault at hfault
  split at hfault
  · cases hfault
  · next head rest hqueue =>
    refine h fault ?_
    rw [show (world.faults.find? "read_config").getD [] = _ from hqueue, ← hfault]
    exact List.mem_cons_self

variable {file : FileStore}

theorem seen_keeps_takeFault (call : Call) (world : World) (hs : Truthful world) :
    (file.seen World.tree Truthful).Keeps world (takeFault call (note call world)).2 :=
  ⟨hs.takeFault call, congrArg (·.content? file.path) (steady_tree.takeFault call _)⟩

theorem loadsFrom_disk (file : FileStore) (expected : World → Prop) :
    file.LoadsFrom disk (file.seen World.tree expected) := by
  intro world world' result hs h
  have hload : exec (file.load disk) world =
      (FileStore.loaded (world.tree.isPresent file.path) (world.tree.read file.path), world) :=
    FileStore.exec_load_of_answers rfl fun _ => rfl
  obtain ⟨rfl, rfl⟩ := Prod.mk.inj (hload.symm.trans h)
  -- the tree alone gives the same document
  have hloads := file.loadsFrom_faultyDisk none (fun _ => True) _ _ _ trivial
    (FileStore.exec_load_treeDisk file world.tree)
  generalize FileStore.loaded _ _ = result at hloads ⊢
  cases result with
  | ok doc => exact ⟨.refl hs, hloads.2⟩
  | error e => exact ⟨.refl hs, hloads.2⟩

/-- The store of a fleet serves the file at any path, whatever the faults of the fleet. -/
theorem serves (file : FileStore) : file.Serves (store file) World.tree Truthful where
  record key world world' result h := by
    obtain ⟨fault, rfl, htree⟩ | ⟨met, htree, heffect⟩ := exec_perform_cases steady_tree h
    · exact .inl ⟨⟨fault, rfl⟩, htree⟩
    · rw [← htree]
      exact FileStore.takes_of_mirrors (file.mirrors_record (fun _ _ => rfl) key) _ _ _ heffect
  record_expected key world hs :=
    (isKeptBy_perform (seen_keeps_takeFault _) (FileView.isKeptBy_of_exec fun _ _ _ hs h =>
      ((loadsFrom_disk file Truthful).exec_record hs h).keeps) world hs).ready
  setRecord key record world world' result h := by
    obtain ⟨fault, rfl, htree⟩ | ⟨met, htree, heffect⟩ := exec_perform_cases steady_tree h
    · exact .inl ⟨⟨fault, rfl⟩, htree⟩
    · rw [← htree]
      exact FileStore.takes_of_mirrors (file.mirrors_setRecord (fun _ _ => rfl) key record) _ _ _
        heffect

theorem quiet_seen {order : Order World} {time : Timestamp} (hsite : order.site = stillSite time)
    (file : FileStore) : order.Quiet (file.seen World.tree Truthful) where
  apply _ _ := hsite ▸ isKeptBy_perform (seen_keeps_takeFault _) (FileView.isKeptBy_pure _)
  awaitStatus _ _ _ _ :=
    hsite ▸ isKeptBy_perform (seen_keeps_takeFault _) (FileView.isKeptBy_pure _)
  sleep _ := hsite ▸ fun _ hs => ⟨hs, rfl⟩
  now := hsite ▸ FileView.isKeptBy_pure _

/-- The store of a fleet says that a record is not there only if it is not, when no fault says
so. -/
theorem honest_seen (file : FileStore) : (store file).Honest (file.seen World.tree Truthful) := by
  intro key world world' e hs h hkind
  have hkeeps : (file.seen World.tree Truthful).Keeps world _ :=
    seen_keeps_takeFault (.record key) world hs
  rw [show (store file).record key =
    perform (.record key) ((file.toStore disk).record key) from rfl, exec_perform] at h
  split at h
  · next fault hfault =>
    cases h
    exact absurd hkind (hs.kind_ne hfault)
  · rw [← hkeeps.document_eq]
    exact ((loadsFrom_disk file Truthful).exec_record hkeeps.ready h).2 hkind

/-- A fleet whose store holds a text. -/
def withStore (text : String) : World :=
  { empty with tree := ⟨[(["cluster.json"], .file (.text text))], []⟩ }

theorem ready_withStore (text : String) : view.ready (withStore text) :=
  .file _

end Converge.Simulation.World
