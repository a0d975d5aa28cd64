import Converge.Proofs.PluginHistory
import Converge.Proofs.PluginText
/-!
# Records that heal

A plugin's record may have been written by an older release, or by hand.  Main statement: a state
that is read from a record is written over it without loss, a whole state is read back from any
record that it was written over, and so a plugin's state can be read as soon as the plugin has been
enabled or disabled, even if it could not be before (`records_heal`).
-/

namespace Converge

open Converge.Membership (Document FileStore)

variable {σ α : Type}

/-! ## Stores -/

/-- What is seen of a file when only its path is looked at. -/
def FileView.pathOnly (view : FileView σ) : FileView σ :=
  ⟨view.ready, fun _ => none⟩

/-- What leaves a file alone leaves its path alone. -/
theorem FileView.IsKeptBy.pathOnly {view : FileView σ} {action : StateM σ α}
    (h : view.IsKeptBy action) : view.pathOnly.IsKeptBy action :=
  fun s hs => ⟨(h s hs).ready, rfl⟩

/-- Where the document can be loaded, nothing but its absence keeps a store from giving a record. -/
def MembershipStore.Answers (store : MembershipStore (StateM σ)) (view : FileView σ) : Prop :=
  ∀ key s doc e, view.ready s → view.document s = .ok doc →
    Plugin.answer (store.record key) s = .error e → e.kind = .recordNotFound

theorem Membership.FileStore.Writable.answers {store : FileStore} {disk : Disk (StateM σ)}
    {ready prepared : σ → Prop} {file temporary : σ → Option Content}
    (writable : store.Writable disk ready prepared file temporary) :
    (store.toStore disk).Answers ⟨ready, file⟩ := by
  intro key s doc e hs hdoc hanswer
  rw [Plugin.answer_record writable hs key, hdoc, Except.map, Except.bind] at hanswer
  cases hfind : doc.record? key with
  | some record =>
    rw [hfind] at hanswer
    cases hanswer
  | none =>
    rw [hfind] at hanswer
    cases hanswer
    rfl

namespace Plugin

/-! ## Records -/

namespace State

variable {state : State} {record : Record}

theorem find?_mergeInto_of_not_mem {key : String} (h : key ∉ ownKeys) :
    (state.mergeInto record).find? key = record.find? key := by
  simp only [ownKeys, List.mem_cons, List.not_mem_nil, or_false, not_or] at h
  rw [find?_mergeInto_or, if_neg h.2.2, if_neg h.2.1, if_neg h.1]

/-- The plugin's own keys are those of the record that a state is written over. -/
theorem erase_mergeInto (state : State) (record : Record) :
    ownKeys.foldl Dict.erase (state.mergeInto record) = ownKeys.foldl Dict.erase record := by
  refine Dict.ext_find? fun key => ?_
  rw [Dict.find?_foldl_erase, Dict.find?_foldl_erase]
  split
  · rfl
  · next hmem => exact find?_mergeInto_of_not_mem hmem

theorem mergeInto_mergeInto (state : State) (record : Record) :
    state.mergeInto (state.mergeInto record) = state.mergeInto record := by
  refine Dict.ext_find? fun key => ?_
  rw [find?_mergeInto_or, find?_mergeInto_or]
  -- what the state knows it has written before, and the rest it has left alone
  split
  · cases state.updatedAt <;> rfl
  · split
    · cases state.version <;> rfl
    · split <;> rfl

/-- A time that is read is read from a record that it was written over, known or not. -/
theorem readUpdatedAt_or {value : Option Json} {updatedAt : Option Timestamp}
    (h : readUpdatedAt value = .ok updatedAt) :
    readUpdatedAt ((updatedAt.map fun time => .str time.write).or value) = .ok updatedAt := by
  cases updatedAt with
  | none => exact h
  | some time =>
    have htime := (isPoint_of_readUpdatedAt h time rfl).read?_write
    simp only [Option.map_some, Option.some_or, readUpdatedAt, htime]

theorem readVersion_or {value : Option Json} {version : Option String}
    (h : readVersion value = .ok version) :
    readVersion ((version.map .str).or value) = .ok version := by
  cases version with
  | none => exact h
  | some text => rfl

/-- What is known of a record that a state is read from. -/
structure Suits (state : State) (record : Record) : Prop where
  extra : state.extra = ownKeys.foldl Dict.erase record
  /-- Written over the record, the state is read again. -/
  ofRecord : ofRecord (state.mergeInto record) = .ok state
  find? : ∀ key ∉ ownKeys, (state.mergeInto record).find? key = record.find? key
  /-- Writing the state twice is writing it once. -/
  again : state.mergeInto (state.mergeInto record) = state.mergeInto record

theorem suits_of_ofRecord (h : ofRecord record = .ok state) : state.Suits record where
  extra := (of_read (ofRecord_eq_ok_iff.1 h)).2
  ofRecord := by
    obtain ⟨-, hupdated, hversion, hextra⟩ := read_eq_ok_iff.1 (ofRecord_eq_ok_iff.1 h)
    rw [ofRecord_eq_ok_iff, read_eq_ok_iff, erase_mergeInto, find?_mergeInto_or,
      find?_mergeInto_or, find?_mergeInto_or]
    exact ⟨rfl, readUpdatedAt_or hupdated, readVersion_or hversion, hextra⟩
  find? _ hmem := find?_mergeInto_of_not_mem hmem
  again := mergeInto_mergeInto state record

/-- A whole state heals any record. -/
theorem ofRecord_mergeInto_erase (enabled : Bool) (version : String) {time : Timestamp}
    (extra record : Record) (htime : time.IsPoint) :
    ofRecord ((mk enabled (some version) (some time) extra).mergeInto record) =
      .ok ⟨enabled, some version, some time, ownKeys.foldl Dict.erase record⟩ := by
  rw [ofRecord_mergeInto _ _ _ _ _ htime, erase_mergeInto]

end State

/-! ## Runs -/

/-- A plugin is switched through a store in a file and a clock that shows points in time.  Its hooks
and its steps may write to the file what they want. -/
structure Definition.Switchable (plugin : Definition (StateM σ))
    (store : MembershipStore (StateM σ)) (clock : Clock (StateM σ)) (view : FileView σ) :
    Prop where
  backed : store.BackedBy view
  honest : store.Honest view
  spares : plugin.Spares view.pathOnly
  now : view.pathOnly.IsKeptBy clock.now
  isPoint : ∀ s, (clock.now.run s).1.IsPoint

theorem Definition.Spares.pathOnly {plugin : Definition (StateM σ)} {view : FileView σ}
    (spares : plugin.Spares view) : plugin.Spares view.pathOnly where
  preEnable := spares.preEnable.pathOnly
  postEnable := spares.postEnable.pathOnly
  preDisable := spares.preDisable.pathOnly
  postDisable := spares.postDisable.pathOnly
  check step hmem memory := (spares.check step hmem memory).pathOnly
  run step hmem memory := (spares.run step hmem memory).pathOnly

section

variable {plugin : Definition (StateM σ)} {store : MembershipStore (StateM σ)}
  {clock : Clock (StateM σ)} {view : FileView σ} {enabled : Bool} {s s' : σ}

/-- A record that a store gives, or the empty one in its place, comes from a text. -/
theorem sound_of_exec_recordOrEmpty (reflects : store.Reflects view) (hs : view.ready s)
    {name : String} {record : Record}
    (h : exec (store.recordOrEmpty (key name)) s = (.ok record, s')) :
    view.ready s' ∧ (Json.ofRecord record).Sound ∧
      (Json.ofRecord record).depth ≤ Document.recordDepth := by
  obtain ⟨-, hkeeps, found, hrecord, -, hfound⟩ := (shows_recordOrEmpty reflects name hs).of_exec h
  refine ⟨hkeeps.ready, ?_⟩
  cases found with
  | ok record' =>
    obtain rfl := Except.ok.inj hfound
    obtain ⟨doc, hdoc, hfind⟩ := reflects.record_ok _ _ _ _ hs hrecord
    obtain ⟨hsound, hfits⟩ := Document.sound_of_ofContent hdoc
    exact ⟨hsound _ _ hfind, hfits _ _ hfind⟩
  | error e =>
    rw [foundRecord] at hfound
    split at hfound
    · obtain rfl := Except.ok.inj hfound
      refine ⟨Json.sound_ofRecord_iff.2 fun key value hfind => ?_, by decide⟩
      cases hfind
    · cases hfound

/-- The document in the file of a state holds the plugin's state as it was switched. -/
def Definition.Holds (plugin : Definition (StateM σ)) (view : FileView σ) (enabled : Bool)
    (s : σ) : Prop :=
  view.ready s ∧ ∃ doc record time, view.document s = .ok doc ∧ time.IsPoint ∧
    doc.record? (key plugin.name) = some (plugin.mark enabled time record)

/-- Once the record is written, the document holds it, whatever the record was before. -/
theorem Definition.Switchable.holds_of_persist (switchable : plugin.Switchable store clock view)
    (hs : view.ready s)
    (h : exec (persist store clock plugin.name plugin.version enabled) s = (.ok ⟨⟩, s')) :
    plugin.Holds view enabled s' := by
  unfold persist at h
  obtain ⟨e, -, h⟩ | ⟨record, s₁, hread, h⟩ := exec_bind_cases h
  · cases h
  obtain ⟨hs₁, hsound, hdepth⟩ := sound_of_exec_recordOrEmpty switchable.backed.toReflects hs hread
  have hclock : exec (monadLift clock.now : ExceptT Error (StateM σ) Timestamp) s₁ =
      (.ok (clock.now.run s₁).1, (clock.now.run s₁).2) := rfl
  rw [exec_bind_ok hclock] at h
  have htime := switchable.isPoint s₁
  have hs₂ : view.ready (clock.now.run s₁).2 := (switchable.now s₁ hs₁).ready
  generalize (clock.now.run s₁).1 = time at h htime
  generalize (clock.now.run s₁).2 = s₂ at h hs₂
  have hs' := switchable.backed.setRecord_ready _ _ _ _ hs₂ h
  obtain ⟨doc, hdoc, hfile⟩ := switchable.backed.setRecord_ok _ _ _ _ hs₂ h
  -- the record is fit to be written, and so is the document that it goes into
  obtain ⟨hdocSound, hdocFits⟩ := Document.sound_of_ofContent hdoc
  have hwritten : view.document s' =
      .ok (doc.setRecord (key plugin.name) (plugin.mark enabled time record)).reread := by
    rw [FileView.document, hfile]
    exact Document.ofContent_text_reread
      (hdocSound.setRecord _ (State.sound_mergeInto _ _ _ _ hsound))
      (hdocFits.setRecord _ (State.depth_mergeInto_le _ _ _ _ hdepth))
  refine ⟨hs', _, Record.reread record, time, hwritten, htime, ?_⟩
  rw [Document.record?_reread, Document.record?_setRecord, if_pos rfl, Option.map_some]
  exact congrArg some (State.mergeInto_reread enabled plugin.version time .empty record)

/-- A switch that succeeds ends with the plugin's state in the document, whatever else it has
written to the file before. -/
theorem Definition.Switchable.holds_of_switch (switchable : plugin.Switchable store clock view)
    (hs : view.ready s) {report : Report}
    (h : exec (plugin.switch store clock enabled) s = (.ok report, s')) :
    plugin.Holds view enabled s' := by
  rw [Definition.switch_eq] at h
  -- the looks keep the file, and the stages that follow them at least keep its path
  obtain ⟨_, s₁, -, ⟨hs₁, -⟩, h⟩ := (shows_checkRequirements switchable.backed.toReflects
    plugin.name (plugin.needs enabled) (.refl hs)).of_exec_bind h
  unfold Definition.change at h
  obtain ⟨_, s₂, -, ⟨hs₂, -⟩, h⟩ :=
    (shows_pre switchable.spares enabled hs₁.ready).of_exec_bind h
  obtain ⟨_, s₃, -, ⟨hs₃, -⟩, h⟩ :=
    (shows_plan switchable.spares enabled hs₂.ready).of_exec_bind h
  obtain ⟨_, s₄, -, ⟨hs₄, -⟩, h⟩ :=
    (shows_post switchable.spares enabled hs₃.ready).of_exec_bind h
  obtain ⟨e, -, h⟩ | ⟨⟨⟩, s₅, hpersist, h⟩ := exec_bind_cases h
  · cases h
  · cases h
    exact switchable.holds_of_persist hs₄.ready hpersist

/-! ## What a store tells -/

/-- A plugin's state is told as it is, or the store has failed to give the plugin's record. -/
def IsTold (store : MembershipStore (StateM σ)) (name : String) (state : State) (s : σ) : Prop :=
  answer (stateOf store name) s = .ok state ∨
    ∃ e, answer (stateOf store name) s = .error e ∧ answer (store.record (key name)) s = .error e

theorem answer_stateOf_eq (store : MembershipStore (StateM σ)) (name : String) (s : σ) :
    answer (stateOf store name) s =
      (foundRecord (answer (store.record (key name)) s)).bind State.ofRecord := by
  have hstate : stateOf store name = absentAsNone .recordNotFound (store.record (key name)) >>=
      fun found => liftM (State.ofRecord (found.getD .empty)) := bind_assoc _ _ _
  rw [hstate, answer, answer]
  rcases hrecord : exec (store.record (key name)) s with ⟨e | record, s'⟩
  · have habsent := exec_absentAsNone_error hrecord .recordNotFound
    rw [foundRecord]
    split at habsent
    · next hkind =>
      rw [exec_bind_ok habsent, if_pos hkind]
      rfl
    · next hkind =>
      rw [exec_bind_error habsent, if_neg hkind]
      rfl
  · rw [exec_bind_ok (exec_absentAsNone_ok hrecord _)]
    rfl

/-- The state that the document holds is told, and certainly by a store that answers. -/
theorem isTold_of_document (reflects : store.Reflects view) (honest : store.Honest view)
    (hs : view.ready s) {doc : Document} {name : String} {record : Record} {state : State}
    (hdoc : view.document s = .ok doc) (hfind : doc.record? (key name) = some record)
    (hstate : State.ofRecord record = .ok state) :
    IsTold store name state s ∧
      (store.Answers view → answer (stateOf store name) s = .ok state) := by
  rw [IsTold, answer_stateOf_eq]
  cases hanswer : answer (store.record (key name)) s with
  | ok found =>
    obtain ⟨doc', hdoc', hfound⟩ := reflects.record_ok _ _ _ _ hs (Prod.ext hanswer rfl)
    obtain rfl := Except.ok.inj (hdoc.symm.trans hdoc')
    obtain rfl := Option.some.inj (hfind.symm.trans hfound)
    exact ⟨.inl hstate, fun _ => hstate⟩
  | error e =>
    -- the record is there, so the store has not said that it is not
    have hkind : e.kind ≠ .recordNotFound := by
      intro hkind
      obtain ⟨doc', hdoc', hnone⟩ := honest _ _ _ _ hs (Prod.ext hanswer rfl) hkind
      obtain rfl := Except.ok.inj (hdoc.symm.trans hdoc')
      cases hfind.symm.trans hnone
    refine ⟨.inr ⟨e, ?_, rfl⟩, fun answers => absurd (answers _ _ _ _ hs hdoc hanswer) hkind⟩
    rw [foundRecord, if_neg hkind]
    rfl

end

/-! ## The guarantee -/

/-- A state that is read is written over its record without loss, and a whole state is read back
from whatever it was written over.  Therefore a plugin's state can be read once the plugin has been
enabled or disabled, as long as the file stays as it is, unless the store fails. -/
theorem records_heal :
    (∀ record state, State.ofRecord record = .ok state → state.Suits record) ∧
      (∀ record enabled version time extra, time.IsPoint →
        State.ofRecord ((State.mk enabled (some version) (some time) extra).mergeInto record) =
          .ok ⟨enabled, some version, some time, State.ownKeys.foldl Dict.erase record⟩) ∧
      ∀ {σ : Type} (plugin : Definition (StateM σ)) (store : MembershipStore (StateM σ))
        (clock : Clock (StateM σ)) (view : FileView σ), plugin.Switchable store clock view →
        ∀ enabled s s' report, view.ready s →
          exec (plugin.switch store clock enabled) s = (.ok report, s') →
          ∃ time extra, time.IsPoint ∧ ∀ later, view.Keeps s' later →
            let state : State := ⟨enabled, some plugin.version, some time, extra⟩
            IsTold store plugin.name state later ∧
              (store.Answers view → answer (stateOf store plugin.name) later = .ok state) := by
  refine ⟨fun _ _ => State.suits_of_ofRecord, fun _ enabled version _ extra htime =>
    State.ofRecord_mergeInto_erase enabled version extra _ htime, ?_⟩
  intro σ plugin store clock view switchable enabled s s' report hs h
  obtain ⟨hs', doc, record, time, hdoc, htime, hfind⟩ := switchable.holds_of_switch hs h
  have hread := State.ofRecord_mergeInto_erase enabled plugin.version .empty record htime
  refine ⟨time, State.ownKeys.foldl Dict.erase record, htime, fun later hkeeps => ?_⟩
  exact isTold_of_document switchable.backed.toReflects switchable.honest hkeeps.ready
    (hkeeps.document_eq.trans hdoc) hfind hread

/-! ### On a simulated fleet -/

open Converge.Simulation (World)

/-- An order to enable a feature that requires nothing. -/
def plainOrder : Order World where
  feature :=
    { name := "p"
      version := "1.0"
      config := ""
      enableInputs := .empty
      disableInputs := .empty
      requires := []
      retry := .once }
  site := World.stillSite ⟨0, 0, 0⟩
  enables := true

/-- A fleet with a record that is no state in any of its own fields. -/
def malformedFleet : World :=
  .withStore ("\x7b\"nodes\":[],\"config\":\x7b\"Plugin-p\":" ++
    "\x7b\"enabled\":3,\"version\":7,\"updated_at\":\"soon\",\"note\":1\x7d\x7d\x7d")

/-- The state cannot be read before the feature is enabled, and can be afterwards. -/
theorem records_heal_malformed :
    let store := FileStore.inRoot.toStore World.disk
    (answer (stateOf store "p") malformedFleet).isOk = false ∧
      ∃ report s' state,
        exec (plainOrder.plugin.switch store plainOrder.site.clock true) malformedFleet =
          (.ok report, s') ∧
        answer (stateOf store "p") s' = .ok state ∧ state.enabled = true := by
  intro store
  refine ⟨by decide +kernel, ?_⟩
  have hfaithful : plainOrder.Faithful World.view :=
    World.faithful rfl Timestamp.isPoint_beginning
  have hok : (exec (plainOrder.plugin.switch store plainOrder.site.clock true)
      malformedFleet).1.isOk = true := by decide +kernel
  rcases hrun : exec (plainOrder.plugin.switch store plainOrder.site.clock true) malformedFleet
    with ⟨e | report, s'⟩
  · rw [hrun] at hok
    cases hok
  · have switchable : plainOrder.plugin.Switchable store plainOrder.site.clock World.view :=
      { backed := World.writable.transacts.backedBy
        honest := World.writable.transacts.load.honest
        spares := hfaithful.spares.pathOnly
        now := FileView.IsKeptBy.pathOnly hfaithful.now
        isPoint := hfaithful.isPoint }
    have hready : World.view.ready malformedFleet := World.ready_withStore _
    have hready' : World.view.ready s' := (switchable.holds_of_switch hready hrun).1
    obtain ⟨time, extra, -, hlater⟩ :=
      records_heal.2.2 _ _ _ _ switchable true malformedFleet s' report hready hrun
    have htold := (hlater s' (.refl hready')).2 World.writable.answers
    exact ⟨report, s', _, rfl, htold, rfl⟩

end Plugin

end Converge
