import Converge.Proofs.SimulatedStore
/-!
# Switching plugins in order

A plugin that is enabled or disabled goes through its stages in order, and its record is written
last.  Main statement: with a store that serves a file and does not hide records, the looks at the
store tell what its document holds, and a switch that succeeds ends with the only write, of the
stored record with the flag, the version and the time over it.  One that fails leaves the file as it
was, unless the file is exposed (`switch_ordered`).
-/

namespace Converge.Plugin

open Converge.Membership (Document FileStore Write)

variable {σ : Type}

/-! ## What the looks tell -/

namespace Event

variable {name other : String} {found found' : Except Error Record}

@[simp] theorem look_inj : look name found = look other found' ↔ name = other ∧ found = found' := by
  constructor
  · intro h
    simp only [look, Event.answer.injEq, Answer.mk.injEq, Simulation.Call.record.injEq] at h
    refine ⟨key_injective h.1, ?_⟩
    have hresult := h.2
    cases found <;> cases found' <;> simp_all [Except.map]
  · rintro ⟨rfl, rfl⟩
    rfl

@[simp] theorem look_ne_hook {hook : String} {done : Except Error Unit} :
    look name found ≠ .hook hook done :=
  nofun

@[simp] theorem look_ne_write {record : Record} {done : Except Error Unit} :
    look name found ≠ write other record done := by
  simp [look, write]

@[simp] theorem look_not_mem_ran {enabled : Bool} {visits : List Visit} :
    look name found ∉ ran enabled visits := by
  simp [look, ran]

end Event

/-- An answer about a plugin's record that stands for a record gives what the document holds. -/
def Tells (view : FileView σ) (s : σ) (name : String) (found : Except Error Record) : Prop :=
  ∀ record, foundRecord found = .ok record →
    ∃ doc, view.document s = .ok doc ∧ record = (doc.record? (key name)).getD .empty

section

variable {plugin : Definition (StateM σ)} {store : MembershipStore (StateM σ)}
  {clock : Clock (StateM σ)} {view : FileView σ} {enabled : Bool} {s s' : σ} {name : String}
  {found : Except Error Record} {requirements : List Requirement} {events : List Event}

theorem Asked.tells (reflects : store.Reflects view) (honest : store.Honest view)
    (h : Asked store view s name found) : Tells view s name found := by
  intro record hrecord
  obtain ⟨s₁, s₂, hkeeps, hfound⟩ := h
  rw [← hkeeps.document_eq]
  cases found with
  | ok record' =>
    obtain ⟨doc, hdoc, hfind⟩ := reflects.record_ok _ _ _ _ hkeeps.ready hfound
    obtain rfl := Except.ok.inj hrecord
    exact ⟨doc, hdoc, by rw [hfind]; rfl⟩
  | error e =>
    rw [foundRecord] at hrecord
    split at hrecord
    · next hkind =>
      -- the store says that there is no record, and it is honest
      obtain ⟨doc, hdoc, hfind⟩ := honest _ _ _ _ hkeeps.ready hfound hkind
      obtain rfl := Except.ok.inj hrecord
      exact ⟨doc, hdoc, by rw [hfind]; rfl⟩
    · cases hrecord

theorem Met.asked (h : Met store view s requirements events) (hmem : .look name found ∈ events) :
    Asked store view s name found := by
  induction h with
  | nil => cases hmem
  | cons asked hfound h hrest ih =>
    obtain heq | hmem := List.mem_cons.1 hmem
    · obtain ⟨rfl, rfl⟩ := Event.look_inj.1 heq
      exact asked
    · exact ih hmem

theorem Checked.asked {result : Except Error Unit}
    (h : Checked store view plugin.name s requirements events result)
    (hmem : .look name found ∈ events) : Asked store view s name found := by
  cases h with
  | met h => exact h.asked hmem
  | unmet h asked | unknown h asked =>
    obtain hmem | hmem := List.mem_append.1 hmem
    · exact h.asked hmem
    · obtain ⟨rfl, rfl⟩ := Event.look_inj.1 (List.mem_singleton.1 hmem)
      exact asked

/-- The only look of a change is the one at the plugin's own record. -/
theorem Stages.asked {result : Except Error Report}
    (h : Stages plugin store clock view enabled s events result s')
    (hmem : .look name found ∈ events) : Asked store view s name found := by
  cases h with
  | preFailed | planFailed | postFailed => simp at hmem
  | unread hkeeps hreport hsucceeded asked | unwritten hreport hsucceeded asked
  | written hreport hsucceeded asked =>
    simp only [List.mem_append, Event.look_not_mem_ran, List.mem_cons, Event.look_ne_hook,
      Event.look_ne_write, Event.look_inj, List.not_mem_nil, false_or, or_false] at hmem
    obtain ⟨rfl, rfl⟩ := hmem
    exact asked

theorem Switching.asked {result : Except Error Report}
    (h : Switching plugin store clock view enabled s events result s')
    (hmem : .look name found ∈ events) : Asked store view s name found := by
  cases h with
  | unmet hkeeps h => exact h.asked hmem
  | met hmet h =>
    obtain hmem | hmem := List.mem_append.1 hmem
    · exact hmet.asked hmem
    · exact h.asked hmem

/-! ## What is written -/

theorem Met.not_isWrite (h : Met store view s requirements events) :
    ∀ event ∈ events, ¬ event.IsWrite := by
  induction h with
  | nil => exact List.forall_mem_nil _
  | cons asked hfound h hrest ih => exact List.forall_mem_cons.2 ⟨id, ih⟩

theorem Event.ran_not_isWrite {visits : List Visit} :
    ∀ event ∈ ran enabled visits, ¬ event.IsWrite := by
  intro event hmem
  obtain rfl | hmem := List.mem_cons.1 hmem
  · exact id
  · obtain ⟨visit, -, rfl⟩ := List.mem_map.1 hmem
    exact id

/-- The one write of a switch that succeeds: a record, after all other events, and where the file
gets it. -/
structure Writes (plugin : Definition (StateM σ)) (view : FileView σ) (events : List Event)
    (doc : Document) (record : Record) (s' : σ) : Prop where
  last : ∃ front : List Event, events = front ++ [.write plugin.name record (.ok ⟨⟩)] ∧
    ∀ event ∈ front, ¬ event.IsWrite
  file : view.file s' = some (.text (doc.setRecord (key plugin.name) record).text)

theorem Switching.writes_of_ok {report : Report} (reflects : store.Reflects view)
    (h : Switching plugin store clock view enabled s events (.ok report) s')
    (htells : ∀ found, Asked store view s plugin.name found → Tells view s plugin.name found) :
    ∃ doc s₁, view.document s = .ok doc ∧ Writes plugin view events doc
      (plugin.mark enabled (clock.now.run s₁).1
        ((doc.record? (key plugin.name)).getD .empty)) s' := by
  cases h with
  | @met looks _ _ _ hmet hstages =>
    obtain ⟨visits, found, record, s₁, asked, hfound, wrote, rfl⟩ := hstages.exists_of_ok
    obtain ⟨doc, hdoc, hfile⟩ := wrote.exists_document reflects
    -- the record that was read before the write is that of the document that was written over
    obtain ⟨doc', hdoc', rfl⟩ := htells found asked record hfound
    obtain rfl := Except.ok.inj (hdoc.symm.trans hdoc')
    let front := looks ++ Event.ran enabled visits ++
      [.hook (postName enabled) (.ok ⟨⟩), .look plugin.name found]
    have hfront : ∀ event ∈ front, ¬ event.IsWrite := by
      simp only [front, List.forall_mem_append, List.forall_mem_cons]
      exact ⟨⟨hmet.not_isWrite, Event.ran_not_isWrite⟩, id, id, List.forall_mem_nil _⟩
    refine ⟨doc, s₁, hdoc, ⟨front, ?_, hfront⟩, hfile⟩
    simp only [front, List.append_assoc, List.cons_append, List.nil_append]

/-! ## What is left by a failure -/

/-- A switch that fails leaves the file as it was, or has come to the replacement of the plugin's
record. -/
theorem Switching.keeps_or_wrote {e : Error}
    (h : Switching plugin store clock view enabled s events (.error e) s') :
    view.Keeps s s' ∨ ∃ record, Wrote store view s plugin.name record (.error e) s' := by
  cases h with
  | unmet hkeeps => exact .inl hkeeps
  | met hmet hstages => exact hstages.keeps_or_wrote

end

section

variable {plugin : Definition (StateM σ)} {store : MembershipStore (StateM σ)}
  {clock : Clock (StateM σ)} {file : FileStore} {get : σ → FileTree} {expected : σ → Prop}
  {enabled : Bool} {s s' : σ} {events : List Event}

/-- With a store that serves a file, a failure alters the file only if it was exposed. -/
theorem Switching.keeps_or_exposed {e : Error} (serves : file.Serves store get expected)
    (h : Switching plugin store clock (file.seen get expected) enabled s events (.error e) s') :
    (get s').content? file.path = (get s).content? file.path ∨
      ∃ s₁, (file.seen get expected).Keeps s s₁ ∧ file.Exposed (get s₁) := by
  obtain hkeeps | ⟨record, s₁, hkeeps, hwrite⟩ := h.keeps_or_wrote
  · exact .inl hkeeps.file
  · exact (serves.file_eq_or_exposed hwrite).imp (·.trans hkeeps.file) fun hexposed =>
      ⟨s₁, hkeeps, hexposed⟩

/-- Whatever operation of the disk fails, no plugin that leaves the tree alone alters the store's
file when it cannot be switched. -/
def SwitchesIntact (file : FileStore) (tree : FileTree) : Prop :=
  ∀ (plugin : Definition (StateM FileTree)) (clock : Clock (StateM FileTree)) enabled fault e tree',
    plugin.Spares (file.seen id (· = tree)) → (file.seen id (· = tree)).IsKeptBy clock.now →
    exec (plugin.switch (file.toStore (FileStore.faultyDisk fault)) clock enabled) tree =
      (.error e, tree') → tree'.content? file.path = tree.content? file.path

theorem switchesIntact_of_not_exposed {tree : FileTree} (h : ¬ file.Exposed tree) :
    SwitchesIntact file tree := by
  intro plugin clock enabled fault e tree' spares hnow hrun
  have serves := file.serves_faultyDisk fault (· = tree)
  obtain ⟨_, _, events, hplain, -, hswitching⟩ :=
    shows_switch spares serves.reflects hnow enabled rfl []
  cases hplain.symm.trans hrun
  obtain heq | ⟨_, hkeeps, hexposed⟩ := hswitching.keeps_or_exposed serves
  · exact heq
  · exact absurd (hkeeps.ready ▸ hexposed) h

/-! ### A plugin that does nothing else -/

/-- A plugin without requirements whose plans are empty. -/
def calm : Definition (StateM FileTree) :=
  .ofPlans "calm" "1.0" [] []

/-- A clock that stands still. -/
def stillClock : Clock (StateM FileTree) where
  sleep _ := return ⟨⟩
  now := return ⟨0, 0, 0⟩

theorem spares_calm (view : FileView FileTree) : calm.Spares view where
  preEnable := FileView.isKeptBy_pure _
  postEnable := FileView.isKeptBy_pure _
  preDisable := FileView.isKeptBy_pure _
  postDisable := FileView.isKeptBy_pure _
  check _ hmem := nomatch hmem
  run _ hmem := nomatch hmem

/-- To switch this plugin is to replace its record. -/
theorem exec_switch_calm {disk : Disk (StateM FileTree)} {tree tree' : FileTree} {doc : Document}
    {e : Error} (hload : exec (file.load disk) tree = (.ok doc, tree))
    (hwrite : exec ((file.toStore disk).setRecord (key calm.name) (calm.mark enabled ⟨0, 0, 0⟩
      ((doc.record? (key calm.name)).getD .empty))) tree = (.error e, tree')) :
    exec (calm.switch (file.toStore disk) stillClock enabled) tree = (.error e, tree') := by
  have hpre : exec (calm.pre enabled) tree = (.ok ⟨⟩, tree) := by cases enabled <;> rfl
  have hpost : exec (calm.post enabled) tree = (.ok ⟨⟩, tree) := by cases enabled <;> rfl
  have hplan : ∃ report, exec (calm.runPlan (calm.plan enabled)) tree = (.ok report, tree) := by
    cases enabled <;> exact ⟨_, rfl⟩
  have hpersist : exec (persist (file.toStore disk) stillClock calm.name calm.version enabled)
      tree = (.error e, tree') := by
    unfold persist
    exact (exec_bind_ok (FileStore.exec_recordOrEmpty_of_load hload _) _).trans hwrite
  have hneeds : calm.needs enabled = [] := by cases enabled <;> rfl
  obtain ⟨report, hplan⟩ := hplan
  rw [Definition.switch_eq, hneeds]
  show exec (calm.change (file.toStore disk) stillClock enabled) tree = _
  unfold Definition.change
  rw [exec_bind_ok hpre, exec_bind_ok hplan, exec_bind_ok hpost, exec_bind_error hpersist]

theorem not_exposed_of_switchesIntact {tree : FileTree} (h : SwitchesIntact file tree) :
    ¬ file.Exposed tree := by
  rintro ⟨⟨doc, hload⟩, hguarded⟩
  let record := calm.mark true ⟨0, 0, 0⟩ ((doc.record? (key calm.name)).getD .empty)
  have happlies : (Write.record (key calm.name) record).Applies doc := trivial
  refine hguarded (Write.guarded_of_exec_run hload happlies fun fault e tree' hwrite => ?_)
  rcases hrun : exec (file.load (FileStore.faultyDisk fault)) tree with ⟨_ | doc', tree₁⟩
  · -- nothing is loaded, so nothing is written
    obtain ⟨rfl, -⟩ := FileStore.exec_load_faultyDisk hrun
    cases (exec_bind_error hrun _).symm.trans hwrite
    rfl
  · obtain ⟨rfl, hloads⟩ := FileStore.exec_load_faultyDisk hrun
    cases (hloads doc' rfl).symm.trans hload
    exact h calm stillClock true fault e tree' (spares_calm _) (FileView.isKeptBy_pure _)
      (exec_switch_calm hrun hwrite)

/-! ## The guarantee -/

/-- A plugin is switched in the order of its stages, with any store that serves a file and does not
hide its records.  A switch that succeeds writes once, after all else: the stored record with the
flag, the version and the time over it.  One that fails leaves the file as it was, unless the file
is exposed when the record is replaced; and just the trees in which it is not exposed are those in
which no switch that fails alters it, whatever operation of the disk fails.  A file at a plain path
is never exposed. -/
theorem switch_ordered (serves : file.Serves store get expected)
    (spares : plugin.Spares (file.seen get expected))
    (honest : store.Honest (file.seen get expected))
    (hnow : (file.seen get expected).IsKeptBy clock.now) (enabled : Bool) (hs : expected s) :
    (∃ result s' events,
      exec (plugin.switch store clock enabled) s = (result, s') ∧
      exec (plugin.watched.switch (store.watched Event.answer) clock.watched enabled) (s, []) =
        (result, (s', events)) ∧
      Switching plugin store clock (file.seen get expected) enabled s events result s' ∧
      (∀ name found, .look name found ∈ events → Tells (file.seen get expected) s name found) ∧
      match result with
      | .error _ => (get s').content? file.path = (get s).content? file.path ∨
        ∃ s₁, (file.seen get expected).Keeps s s₁ ∧ file.Exposed (get s₁)
      | .ok _ => ∃ doc record time, (file.seen get expected).document s = .ok doc ∧
        Writes plugin (file.seen get expected) events doc record s' ∧
        (∃ s₁, (clock.now.run s₁).1 = time) ∧
        ∀ name, record.find? name =
          if name = "updated_at" then some (.str time.write)
          else if name = "version" then some (.str plugin.version)
          else if name = "enabled" then some (.bool enabled)
          else ((doc.record? (key plugin.name)).getD .empty).find? name) ∧
    (∀ tree, SwitchesIntact file tree ↔ ¬ file.Exposed tree) ∧
    (file.Plain → ∀ tree : FileTree, tree.Rooted → SwitchesIntact file tree) := by
  refine ⟨?_, fun tree => ⟨not_exposed_of_switchesIntact, switchesIntact_of_not_exposed⟩,
    fun plain tree hrooted => switchesIntact_of_not_exposed (plain.not_exposed hrooted)⟩
  have reflects := serves.reflects
  obtain ⟨result, s', events, hplain, hwatched, hswitching⟩ :=
    shows_switch spares reflects hnow enabled hs []
  refine ⟨result, s', events, hplain, hwatched, hswitching,
    fun name found hmem => (hswitching.asked hmem).tells reflects honest, ?_⟩
  cases result with
  | error e => exact hswitching.keeps_or_exposed serves
  | ok report =>
    obtain ⟨doc, s₁, hdoc, hwrites⟩ :=
      hswitching.writes_of_ok reflects fun found asked => asked.tells reflects honest
    exact ⟨doc, _, _, hdoc, hwrites, ⟨s₁, rfl⟩, State.find?_mergeInto _ _ _ _ _⟩

end

/-! ### On a simulated fleet -/

open Converge.Simulation (World)

/-- An order to enable a feature with an optional requirement and a mandatory one. -/
def requiringOrder : Order World where
  feature :=
    { name := "p"
      version := "1.0"
      config := ""
      enableInputs := .empty
      disableInputs := .empty
      requires := [⟨"q", true⟩, ⟨"r", false⟩]
      retry := .once }
  site := World.stillSite ⟨0, 0, 0⟩
  enables := true

/-- A fleet with a note in the feature's record, on which the mandatory requirement is met. -/
def notedFleet : World :=
  .withStore ("\x7b\"nodes\":[],\"config\":\x7b\"Plugin-p\":\x7b\"note\":1\x7d," ++
    "\"Plugin-r\":\x7b\"enabled\":true\x7d\x7d\x7d")

/-- The feature is enabled, and its note is kept. -/
theorem switch_ordered_noted :
    let plugin := requiringOrder.plugin
    let store := requiringOrder.site.store
    let clock := requiringOrder.site.clock
    let view := FileStore.inRoot.seen World.tree World.Truthful
    ∃ report s' events doc record,
      exec (plugin.watched.switch (store.watched Event.answer) clock.watched true)
        (notedFleet, []) = (.ok report, (s', events)) ∧
      Writes plugin view events doc record s' ∧
      record.find? "enabled" = some (.bool true) ∧
      (record.find? "note").map Json.compact = some "1" := by
  intro plugin store clock view
  have hquiet : requiringOrder.Quiet view := World.quiet_seen rfl _
  have htruthful : World.Truthful notedFleet := fun fault hmem => nomatch hmem
  have hok : (exec (plugin.switch store clock true) notedFleet).1.isOk = true := by
    decide +kernel
  have hnote : ((view.document notedFleet).toOption.bind fun doc =>
      ((doc.record? (key "p")).getD .empty).find? "note").map Json.compact = some "1" := by
    decide +kernel
  obtain ⟨⟨result, s', events, hplain, hwatched, -, -, hend⟩, -⟩ :=
    switch_ordered (World.serves FileStore.inRoot) hquiet.spares (World.honest_seen _) hquiet.now
      true htruthful
  rw [show exec (plugin.switch store clock true) notedFleet = _ from hplain] at hok
  cases result with
  | error e => cases hok
  | ok report =>
    obtain ⟨doc, record, time, hdoc, hwrites, -, hfind⟩ := hend
    rw [hdoc] at hnote
    refine ⟨report, s', events, doc, record, hwatched, hwrites, ?_, ?_⟩
    · rw [hfind, if_neg (by decide), if_neg (by decide), if_pos rfl]
    · rw [hfind, if_neg (by decide), if_neg (by decide), if_neg (by decide)]
      exact hnote

/-! ### On an exposed file -/

/-- A plugin cannot be enabled because the temporary path is a directory; but the store, which held
nothing before, now holds a document. -/
theorem not_switchesIntact_detour :
    let tree : FileTree :=
      ⟨[(["cluster.json"], .file (.text FileStore.oneNodeText)), (["cluster.tmp"], .directory)], []⟩
    ∃ e tree', exec (calm.switch (FileStore.detour.toStore FileStore.treeDisk) stillClock true)
        tree = (.error e, tree') ∧
      tree.content? FileStore.detour.path = none ∧
      tree'.content? FileStore.detour.path = some (.text FileStore.oneNodeText) := by
  have hload : exec (FileStore.detour.load FileStore.treeDisk) FileStore.detourTree =
      (.ok .empty, FileStore.detourTree) := rfl
  let record := calm.mark true ⟨0, 0, 0⟩ (((Document.empty).record? (key calm.name)).getD .empty)
  obtain ⟨e, tree', hsave, hcontent⟩ :=
    FileStore.exec_save_detour (Document.empty.setRecord (key calm.name) record)
  exact ⟨e, tree', exec_switch_calm hload ((exec_bind_ok hload _).trans hsave), rfl, hcontent⟩

end Converge.Plugin
