import Converge.Command.Output
import Converge.Proofs.PluginText
import Mathlib.Data.List.Forall2
/-!
# Plugins in a list

In the JSON form of a list each plugin is an object: its name, and then the fields of its state,
among which are those that the plugin itself has put into its record.  The name is not one of the
state's own keys, so a plugin may have put a field of this name there, which then comes second and
hides the plugin's name.  Main statement: the text of a list can be read, and shows each plugin with
its name, its state and its own fields, just if no plugin's record holds another name and every
field of a plugin comes back from its text (`Command.OutputStyle.plugins_faithful_iff`).
-/

namespace Converge

/-- A list is read if each of its items is. -/
theorem Json.value?_arr_map {α : Type} {levels : Nat} {items : List α} {write read : α → Json}
    (h : ∀ item ∈ items, (write item).toTree.value? levels = some (read item)) :
    (Json.arr (items.map write)).toTree.value? (levels + 1) = some (.arr (items.map read)) := by
  have hitems : Tree.value?.items? levels (toTree.itemTrees (items.map write)) =
      some (items.map read) := by
    induction items with
    | nil => rfl
    | cons item rest ih =>
      obtain ⟨hitem, hrest⟩ := List.forall_mem_cons.1 h
      rw [List.map_cons, toTree.itemTrees, Tree.value?.items?, hitem, ih hrest]
      rfl
  rw [toTree, Tree.value?, hitems]
  rfl

/-- A text comes back from nothing but itself. -/
theorem Json.reread_eq_str_iff {value : Json} {text : String} :
    value.reread = .str text ↔ value = .str text := by
  cases value <;> simp [reread]

namespace Plugin

/-! ## Fields that are not there -/

/-- A value is given that is not null. -/
def IsGiven (value : Option Json) : Prop :=
  ∃ given, value = some given ∧ given ≠ .null

namespace State

theorem isSome_of_readVersion {value : Option Json} {version : Option String}
    (h : readVersion value = .ok version) : version.isSome ↔ IsGiven value := by
  unfold readVersion at h
  split at h <;> cases h <;> simp [IsGiven]

theorem isSome_of_readUpdatedAt {value : Option Json} {updatedAt : Option Timestamp}
    (h : readUpdatedAt value = .ok updatedAt) : updatedAt.isSome ↔ IsGiven value := by
  unfold readUpdatedAt at h
  split at h
  · cases h
    simp [IsGiven]
  · cases h
    simp [IsGiven]
  · split at h
    · cases h
      simp [IsGiven]
    · cases h
  · cases h

end State

/-! ## Plugins of a list -/

/-- A plugin of a list: a record that can be held, and the state that was read from it. -/
structure Entry where
  name : String
  record : Record
  state : State
  sound : (Json.ofRecord record).Sound
  ofRecord : State.ofRecord record = .ok state

namespace Entry

variable {entry : Entry} {levels : Nat} {key : String}

theorem read (entry : Entry) : State.read entry.record = .ok entry.state :=
  State.ofRecord_eq_ok_iff.1 entry.ofRecord

/-- How deeply a plugin's fields may be nested, two levels below the top of a list. -/
def fieldDepth : Nat :=
  125

/-- The object that shows a plugin says what its record says. -/
structure Faithful (entry : Entry) (shown : Record) : Prop where
  name : shown.find? "name" = some (.str entry.name)
  enabled : shown.find? "enabled" = some (.bool entry.state.enabled)
  version : shown.find? "version" = entry.state.version.map .str
  version_isSome : (shown.find? "version").isSome ↔ IsGiven (entry.record.find? "version")
  updatedAt : shown.find? "updated_at" =
    entry.state.updatedAt.map fun time => .str time.writeZulu
  updatedAt_isSome : (shown.find? "updated_at").isSome ↔ IsGiven (entry.record.find? "updated_at")
  /-- The plugin's own fields are shown as they are, and nothing else. -/
  others : ∀ key ∉ State.ownKeys, key ≠ "name" → shown.find? key = entry.record.find? key

/-- A plugin can be shown: its record holds no other name, and the plugin's own fields come back
from their text. -/
structure Presentable (entry : Entry) : Prop where
  name : ∀ value, entry.record.find? "name" = some value → value = .str entry.name
  fields : ∀ key ∉ State.ownKeys, ∀ value, entry.record.find? key = some value →
    value.Legible fieldDepth

/-! ### The object that is read -/

theorem find?_extra : entry.state.extra.find? key =
    if key ∈ State.ownKeys then none else entry.record.find? key := by
  rw [(State.of_read entry.read).2, Dict.find?_foldl_erase]

theorem isRead (hdepth : ∀ key ∉ State.ownKeys, ∀ value, entry.record.find? key = some value →
    value.depth ≤ levels) : entry.state.IsRead levels := by
  refine ⟨(State.of_read entry.read).1, fun name hname => by rw [find?_extra, if_pos hname], ?_⟩
  intro key value hfind
  rw [find?_extra] at hfind
  split at hfind
  · cases hfind
  · next hkey =>
    exact ⟨Json.sound_ofRecord_iff.1 entry.sound key value hfind, hdepth key hkey value hfind⟩

/-- The fields that are shown. -/
def shown (entry : Entry) : Record :=
  State.rereadFields (("name", .str entry.name) :: entry.state.toFields)

/-- The name comes first, so that it counts only if no other field is called so. -/
theorem find?_shown : entry.shown.find? key =
    ((State.rereadFields entry.state.toFields).find? key).or
      (if key = "name" then some (.str entry.name) else none) := by
  have hname : (Dict.ofList [("name", Json.str entry.name)]).find? key =
      if key = "name" then some (.str entry.name) else none := by
    rw [Dict.ofList, List.foldl_cons, List.foldl_nil, Dict.find?_insert]
    rfl
  rw [shown, State.rereadFields, List.map_cons, ← List.singleton_append, Dict.find?_ofList_append]
  exact congrArg (Option.or _) hname

/-- The state's own fields are shown as they are written. -/
theorem find?_shown_of_mem (h : key ∈ State.ownKeys) :
    entry.shown.find? key = (State.rereadFields entry.state.ownFields).find? key := by
  have hname : key ≠ "name" := by
    rintro rfl
    exact absurd h (by decide)
  rw [find?_shown, if_neg hname, Option.or_none, State.find?_toFields, Record.find?_reread,
    find?_extra, if_pos h]
  rfl

/-- The plugin's own fields are shown as they come back, and before the name. -/
theorem find?_shown_of_not_mem (h : key ∉ State.ownKeys) :
    entry.shown.find? key = ((entry.record.find? key).map Json.reread).or
      (if key = "name" then some (.str entry.name) else none) := by
  rw [find?_shown, State.find?_toFields, State.find?_ownFields_of_not_mem _ h, Option.or_none,
    Record.find?_reread, find?_extra, if_neg h]

/-- A plugin whose fields are not nested too deeply is read as it is shown. -/
theorem value?_toTree (hdepth : ∀ key ∉ State.ownKeys, ∀ value,
      entry.record.find? key = some value → value.depth ≤ levels) :
    (Command.OutputStyle.pluginJson entry.name entry.state).toTree.value? (levels + 1) =
      some (.ofRecord entry.shown) :=
  Json.Decoder.value?_of_record (Json.Decoder.record_obj_toTree
    (List.forall_mem_cons.2 ⟨⟨.str _, Nat.zero_le _⟩, (isRead hdepth).sound_toFields⟩))

/-- Only such a plugin is read. -/
theorem depth_of_depth_pluginJson
    (h : (Command.OutputStyle.pluginJson entry.name entry.state).depth ≤ levels + 1) :
    ∀ key ∉ State.ownKeys, ∀ value, entry.record.find? key = some value → value.depth ≤ levels := by
  intro key hkey value hfind
  have hextra : entry.state.extra.find? key = some value := by rw [find?_extra, if_neg hkey, hfind]
  have hmem : (key, value) ∈ entry.state.toFields :=
    List.mem_append_right _ (Dict.find?_eq_some_iff.1 hextra)
  exact Json.depth_obj_le_iff.1 h (key, value) (List.mem_cons_of_mem _ hmem)

/-- What is shown is what the record says just if the record holds no other name and the plugin's
own fields come back as they are. -/
theorem faithful_shown_iff : entry.Faithful entry.shown ↔
    (∀ value, entry.record.find? "name" = some value → value = .str entry.name) ∧
      ∀ key ∉ State.ownKeys, ∀ value, entry.record.find? key = some value → value.Steady := by
  have hsound := Json.sound_ofRecord_iff.1 entry.sound
  have hname : entry.shown.find? "name" =
      ((entry.record.find? "name").map Json.reread).or (some (.str entry.name)) :=
    find?_shown_of_not_mem (by decide)
  have hother (key : String) (hkey : key ∉ State.ownKeys) (hne : key ≠ "name") :
      entry.shown.find? key = (entry.record.find? key).map Json.reread := by
    rw [find?_shown_of_not_mem hkey, if_neg hne, Option.or_none]
  constructor
  · intro h
    have hplain : ∀ value, entry.record.find? "name" = some value → value = .str entry.name := by
      intro value hvalue
      have hshown := h.name
      rw [hname, hvalue] at hshown
      exact Json.reread_eq_str_iff.1 (Option.some.inj hshown)
    refine ⟨hplain, fun key hkey value hvalue => ?_⟩
    -- of a field called like the name only its value is known, and that is a text
    by_cases hne : key = "name"
    · subst hne
      rw [hplain value hvalue]
      exact .str _
    · have hshown := h.others key hkey hne
      rw [hother key hkey hne, hvalue] at hshown
      exact (hsound key value hvalue).reread_eq_iff.1 (Option.some.inj hshown)
  · rintro ⟨hplain, hsteady⟩
    obtain ⟨henabled, hversion, hupdated⟩ := State.find?_ownFields entry.state
    obtain ⟨-, hreadUpdated, hreadVersion, -⟩ := State.read_eq_ok_iff.1 entry.read
    have hshownVersion : entry.shown.find? "version" = entry.state.version.map .str :=
      (find?_shown_of_mem (by decide)).trans hversion
    have hshownUpdated : entry.shown.find? "updated_at" =
        entry.state.updatedAt.map fun time => .str time.writeZulu :=
      (find?_shown_of_mem (by decide)).trans hupdated
    refine ⟨?_, (find?_shown_of_mem (by decide)).trans henabled, hshownVersion, ?_, hshownUpdated,
      ?_, ?_⟩
    · rw [hname]
      cases hvalue : entry.record.find? "name" with
      | none => rfl
      | some value =>
        rw [hplain value hvalue]
        rfl
    · rw [hshownVersion, Option.isSome_map]
      exact State.isSome_of_readVersion hreadVersion
    · rw [hshownUpdated, Option.isSome_map]
      exact State.isSome_of_readUpdatedAt hreadUpdated
    · intro key hkey hne
      rw [hother key hkey hne]
      cases hvalue : entry.record.find? key with
      | none => rfl
      | some value =>
        rw [Option.map_some,
          (hsound key value hvalue).reread_eq_iff.2 (hsteady key hkey value hvalue)]

end Entry

end Plugin

/-! ## The text of a list -/

namespace Command.OutputStyle

open Plugin (Entry)

variable {style : OutputStyle} {entries : List Entry}

/-- What is read from the JSON form of a list of plugins. -/
def readPlugins (style : OutputStyle) (entries : List Entry) : Option Json :=
  Json.decode? Json.Decoder.value
    (style.plugins (entries.map fun entry => (entry.name, entry.state)))

theorem readPlugins_eq (h : style.format = .json) : style.readPlugins entries =
    (Json.arr (entries.map fun entry => pluginJson entry.name entry.state)).toTree.value?
      Json.maxDepth := by
  rw [readPlugins, plugins, choose, h]
  show (Json.Tree.ofText? (Json.pretty _)).bind _ = _
  rw [Json.ofText?_pretty, List.map_map]
  rfl

/-- A list whose fields are not nested too deeply is read as it is shown. -/
theorem readPlugins_of_depth (hstyle : style.format = .json)
    (h : ∀ entry ∈ entries, ∀ key ∉ Plugin.State.ownKeys, ∀ value,
      entry.record.find? key = some value → value.depth ≤ Entry.fieldDepth) :
    style.readPlugins entries = some (.arr (entries.map fun entry => .ofRecord entry.shown)) := by
  rw [readPlugins_eq hstyle]
  exact Json.value?_arr_map fun entry hmem => Entry.value?_toTree (h entry hmem)

/-- Only such a list is read. -/
theorem depth_of_readPlugins (hstyle : style.format = .json) {value : Json}
    (h : style.readPlugins entries = some value) :
    ∀ entry ∈ entries, ∀ key ∉ Plugin.State.ownKeys, ∀ value,
      entry.record.find? key = some value → value.depth ≤ Entry.fieldDepth := by
  rw [readPlugins_eq hstyle] at h
  have hdepth := Json.depth_arr_le_iff.1 (Json.depth_le_of_value? _ h)
  exact fun entry hmem =>
    Entry.depth_of_depth_pluginJson (hdepth _ (List.mem_map_of_mem hmem))

/-- The text of a list of plugins is read as an array with an object for each of them, which says
what the plugin's record says, just if no record holds another name than the plugin's and every
field that the plugin has put there comes back from its text. -/
theorem plugins_faithful_iff (hstyle : style.format = .json) (entries : List Entry) :
    (∃ items, style.readPlugins entries = some (.arr items) ∧
      List.Forall₂ (fun entry item => ∃ shown, item.record? = some shown ∧
        entry.Faithful shown) entries items) ↔
      ∀ entry ∈ entries, entry.Presentable := by
  have hshown (entry : Entry) : (Json.ofRecord entry.shown).record? = some entry.shown :=
    congrArg some (Dict.ofList_entries _)
  constructor
  · rintro ⟨items, hread, hfaithful⟩ entry hmem
    have hdepth := depth_of_readPlugins hstyle hread
    obtain rfl := Json.arr.inj (Option.some.inj
      ((readPlugins_of_depth hstyle hdepth).symm.trans hread))
    rw [List.forall₂_map_right_iff, List.forall₂_same] at hfaithful
    obtain ⟨shown, hitem, hentry⟩ := hfaithful entry hmem
    obtain rfl := Option.some.inj ((hshown entry).symm.trans hitem)
    obtain ⟨hname, hsteady⟩ := Entry.faithful_shown_iff.1 hentry
    refine ⟨hname, fun key hkey value hvalue => Json.legible_iff.2 ⟨?_, ?_, ?_⟩⟩
    · exact Json.sound_ofRecord_iff.1 entry.sound key value hvalue
    · exact hdepth entry hmem key hkey value hvalue
    · exact hsteady key hkey value hvalue
  · intro h
    have hlegible (entry : Entry) (hmem : entry ∈ entries) (key : String)
        (hkey : key ∉ Plugin.State.ownKeys) (value : Json)
        (hvalue : entry.record.find? key = some value) :=
      Json.legible_iff.1 ((h entry hmem).fields key hkey value hvalue)
    refine ⟨_, readPlugins_of_depth hstyle fun entry hmem key hkey value hvalue =>
      (hlegible entry hmem key hkey value hvalue).2.1, ?_⟩
    rw [List.forall₂_map_right_iff, List.forall₂_same]
    intro entry hmem
    refine ⟨entry.shown, hshown entry, Entry.faithful_shown_iff.2 ⟨(h entry hmem).name, ?_⟩⟩
    exact fun key hkey value hvalue => (hlegible entry hmem key hkey value hvalue).2.2

/-! ### Two records -/

/-- A record that an older release has written, with a field of the plugin. -/
def domainEntry : Entry where
  name := "ldap"
  record := .ofList [("enabled", .str "True"), ("updated_at", .null), ("domain", .str "corp")]
  state := ⟨true, none, none, .ofList [("domain", .str "corp")]⟩
  sound := Json.sound_ofRecord_iff.2
    (Dict.forall_insert (.str _) (Dict.forall_insert .null (Dict.forall_insert (.str _) nofun)))
  ofRecord := Plugin.State.ofRecord_eq_ok_iff.2
    (Plugin.State.read_eq_ok_iff.2 ⟨congrArg Except.ok (by decide), rfl, rfl, rfl⟩)

/-- The plugin is shown with its domain. -/
theorem plugins_faithful_iff_domainEntry :
    ∃ items, readPlugins ⟨.json, false⟩ [domainEntry] = some (.arr items) ∧
      List.Forall₂ (fun entry item => ∃ shown, item.record? = some shown ∧
        entry.Faithful shown) [domainEntry] items := by
  have hfields : ∀ key value, domainEntry.record.find? key = some value →
      value.Legible Entry.fieldDepth :=
    Dict.forall_insert (.str _) (Dict.forall_insert .null (Dict.forall_insert (.str _) nofun))
  exact (plugins_faithful_iff rfl _).2
    (List.forall_mem_singleton.2 ⟨nofun, fun key _ => hfields key⟩)

/-- A record in which the plugin has put a name. -/
def namedEntry : Entry where
  name := "ldap"
  record := .ofList [("enabled", .bool true), ("name", .str "directory")]
  state := ⟨true, none, none, .ofList [("name", .str "directory")]⟩
  sound := Json.sound_ofRecord_iff.2
    (Dict.forall_insert (.str _) (Dict.forall_insert (.bool true) nofun))
  ofRecord := Plugin.State.ofRecord_eq_ok_iff.2
    (Plugin.State.read_eq_ok_iff.2 ⟨rfl, rfl, rfl, rfl⟩)

/-- The plugin is shown with the name from its record. -/
theorem not_faithful_namedEntry :
    ¬ ∃ items, readPlugins ⟨.json, false⟩ [namedEntry] = some (.arr items) ∧
      List.Forall₂ (fun entry item => ∃ shown, item.record? = some shown ∧
        entry.Faithful shown) [namedEntry] items := by
  rintro ⟨items, hread, hfaithful⟩
  have hdepth : ∀ key value, namedEntry.record.find? key = some value →
      value.depth ≤ Entry.fieldDepth :=
    Dict.forall_insert (Nat.zero_le _) (Dict.forall_insert (Nat.zero_le _) nofun)
  have hshown : readPlugins ⟨.json, false⟩ [namedEntry] =
      some (.arr [.ofRecord namedEntry.shown]) :=
    readPlugins_of_depth rfl (List.forall_mem_singleton.2 fun key _ => hdepth key)
  obtain rfl := Json.arr.inj (Option.some.inj (hshown.symm.trans hread))
  obtain ⟨shown, hitem, hentry⟩ := (List.forall₂_cons.1 hfaithful).1
  -- the field that comes last is the one that counts
  obtain rfl : namedEntry.shown = shown :=
    (Dict.ofList_entries _).symm.trans (Option.some.inj hitem)
  have hname := (Entry.faithful_shown_iff.1 hentry).1 (.str "directory") rfl
  exact absurd (Json.str.inj hname) (by decide)

end Command.OutputStyle

end Converge
