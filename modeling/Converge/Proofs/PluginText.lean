import Converge.Plugin.Record
import Converge.Proofs.DocumentText
import Converge.Proofs.ReadTime
/-!
# The text of a plugin's state

The written form of a plugin's state holds the state's own fields and, beside them, the fields that
the plugin has added.  Main statements: a state whose own fields are not among the added ones is
read back from it (`State.IsRead.decode_toTree`), and every state that has been read is such a state
(`State.isRead_of_decode`).
-/

namespace Converge

/-! ## Records -/

namespace Dict

variable {α : Type}

/-- What comes later in a list of entries counts first. -/
theorem find?_ofList_append (first second : List (String × α)) (key : String) :
    (ofList (first ++ second)).find? key =
      ((ofList second).find? key).or ((ofList first).find? key) := by
  rw [find?_ofList, find?_ofList, find?_ofList, List.reverse_append, List.find?_append,
    Option.map_or]

theorem find?_foldl_erase (keys : List String) (d : Dict α) (key : String) :
    (keys.foldl erase d).find? key = if key ∈ keys then none else d.find? key := by
  induction keys generalizing d with
  | nil => simp
  | cons first rest ih =>
    rw [List.foldl_cons, ih, find?_erase]
    by_cases hrest : key ∈ rest
    · simp [hrest]
    · by_cases hfirst : key = first
      · simp [hfirst]
      · simp [hrest, hfirst]

end Dict

/-- The fields of an object are read as a record, of which each key's last field counts. -/
theorem Json.Decoder.record_obj_toTree {levels : Nat} {fields : List (String × Json)}
    (h : ∀ field ∈ fields, field.2.Sound ∧ field.2.depth ≤ levels) :
    Decoder.record (levels + 1) (Json.obj fields).toTree =
      some (Dict.ofList (fields.map fun field => (field.1, field.2.reread))) := by
  have hfields : (toTree.fieldTrees fields).mapM (dict.readField? Decoder.value levels) =
      some (fields.map fun field => (field.1, field.2.reread)) := by
    rw [toTree.fieldTrees_eq_map, List.mapM_map]
    refine mapM_eq_some_map fun field hmem => ?_
    obtain ⟨hsound, hdepth⟩ := h field hmem
    show (field.2.toTree.value? levels).bind _ = _
    rw [hsound.value?_toTree hdepth]
    rfl
  show Option.map Dict.ofList ((toTree.fieldTrees fields).mapM _) = _
  rw [hfields]
  rfl

/-! ## States -/

namespace Plugin.State

/-- The state that comes back from the text of a state. -/
def reread (state : State) : State :=
  { state with extra := Record.reread state.extra }

/-- A state that is read. -/
structure IsRead (levels : Nat) (state : State) : Prop where
  updatedAt : ∀ time ∈ state.updatedAt, time.IsPoint
  /-- The state's own keys are not among the plugin's. -/
  find?_extra : ∀ name ∈ ownKeys, state.extra.find? name = none
  sound : ∀ key value, state.extra.find? key = some value → value.Sound ∧ value.depth ≤ levels

/-- The fields of the state itself. -/
def ownFields (state : State) : List (String × Json) :=
  [("enabled", .bool state.enabled)] ++
    (state.version.map fun version => ("version", .str version)).toList ++
    (state.updatedAt.map fun time => ("updated_at", .str time.writeZulu)).toList

theorem toFields_eq (state : State) : state.toFields = state.ownFields ++ state.extra.entries := rfl

/-- None of the state's own keys is written twice. -/
theorem IsRead.count_toFields {state : State} {levels : Nat} (h : state.IsRead levels)
    {name : String} (hname : name ∈ ownKeys) : (state.toFields.map (·.1)).count name ≤ 1 := by
  have hextra : (state.extra.entries.map (·.1)).count name = 0 := by
    refine List.count_eq_zero.2 fun hmem => ?_
    have hsome := Dict.find?_isSome.2 hmem
    rw [h.find?_extra name hname] at hsome
    cases hsome
  rw [toFields_eq, List.map_append, List.count_append, hextra]
  clear hextra h
  revert name
  obtain ⟨enabled, version, updatedAt, extra⟩ := state
  cases version <;> cases updatedAt <;> simp [ownFields, ownKeys]

theorem IsRead.sound_toFields {state : State} {levels : Nat} (h : state.IsRead levels) :
    ∀ field ∈ state.toFields, field.2.Sound ∧ field.2.depth ≤ levels := by
  intro field hmem
  rcases List.mem_append.1 hmem with hown | hextra
  · rcases List.mem_append.1 hown with hown | hupdated
    · rcases List.mem_append.1 hown with henabled | hversion
      · rw [List.mem_singleton.1 henabled]
        exact ⟨.bool _, Nat.zero_le _⟩
      · obtain ⟨version, -, rfl⟩ := Option.map_eq_some_iff.1 (Option.mem_toList.1 hversion)
        exact ⟨.str _, Nat.zero_le _⟩
    · obtain ⟨time, -, rfl⟩ := Option.map_eq_some_iff.1 (Option.mem_toList.1 hupdated)
      exact ⟨.str _, Nat.zero_le _⟩
  · exact h.sound field.1 field.2 (Dict.find?_eq_some_iff.2 hextra)

/-! ### The record that comes back -/

/-- The record of some fields after they have been through a text. -/
def rereadFields (fields : List (String × Json)) : Record :=
  Dict.ofList (fields.map fun field => (field.1, field.2.reread))

theorem find?_ownFields (state : State) :
    (rereadFields state.ownFields).find? "enabled" = some (.bool state.enabled) ∧
      (rereadFields state.ownFields).find? "version" = state.version.map .str ∧
      (rereadFields state.ownFields).find? "updated_at" =
        state.updatedAt.map fun time => .str time.writeZulu := by
  obtain ⟨enabled, version, updatedAt, extra⟩ := state
  cases version <;> cases updatedAt <;>
    simp [rereadFields, ownFields, Dict.ofList, Dict.find?_insert, Json.reread]

theorem find?_ownFields_of_not_mem (state : State) {key : String} (h : key ∉ ownKeys) :
    (rereadFields state.ownFields).find? key = none := by
  refine Option.not_isSome_iff_eq_none.1 fun hsome => h ?_
  rw [Dict.find?_isSome, rereadFields, Dict.mem_keys_ofList] at hsome
  obtain ⟨entry, hmem, rfl⟩ := hsome
  obtain ⟨field, hfield, rfl⟩ := List.mem_map.1 hmem
  obtain ⟨enabled, version, updatedAt, extra⟩ := state
  cases version <;> cases updatedAt <;> simp_all [ownFields, ownKeys]

/-- The record that comes back holds the plugin's fields and the state's own. -/
theorem find?_toFields (state : State) (key : String) :
    (rereadFields state.toFields).find? key =
      ((Record.reread state.extra).find? key).or ((rereadFields state.ownFields).find? key) := by
  have hextra : Dict.ofList (state.extra.entries.map fun field => (field.1, field.2.reread)) =
      Record.reread state.extra := Dict.ofList_entries (Record.reread state.extra)
  rw [rereadFields, toFields_eq, List.map_append, Dict.find?_ofList_append, hextra, rereadFields]

/-- What comes back from the record's text is the state. -/
theorem IsRead.read_toFields {state : State} {levels : Nat} (h : state.IsRead levels) :
    read (rereadFields state.toFields) = .ok state.reread := by
  -- none of the plugin's fields hides one of the state's own, which are read from the record
  have hextra (name : String) (hname : name ∈ ownKeys) :
      (Record.reread state.extra).find? name = none := by
    rw [Record.find?_reread, h.find?_extra name hname]
    rfl
  have hfind (name : String) (hname : name ∈ ownKeys) :
      (rereadFields state.toFields).find? name = (rereadFields state.ownFields).find? name := by
    rw [find?_toFields, hextra name hname, Option.none_or]
  have hupdated : readUpdatedAt (state.updatedAt.map fun time => .str time.writeZulu) =
      .ok state.updatedAt := by
    cases hupdated : state.updatedAt with
    | none => rfl
    | some time =>
      have htime := (h.updatedAt time hupdated).read?_writeZulu
      simp only [Option.map_some, readUpdatedAt, htime]
  have hversion : readVersion (state.version.map .str) = .ok state.version := by
    cases state.version <;> rfl
  have hrest : ownKeys.foldl Dict.erase (rereadFields state.toFields) =
      Record.reread state.extra := by
    refine Dict.ext_find? fun key => ?_
    rw [Dict.find?_foldl_erase, find?_toFields]
    split
    · next hmem => exact (hextra key hmem).symm
    · next hmem => rw [find?_ownFields_of_not_mem state hmem, Option.or_none]
  obtain ⟨hownEnabled, hownVersion, hownUpdated⟩ := find?_ownFields state
  rw [read, hfind "enabled" (by decide), hfind "version" (by decide),
    hfind "updated_at" (by decide), hownEnabled, hownVersion, hownUpdated, hupdated, hversion,
    hrest]
  rfl

/-- A state that can be read is read back from its written form. -/
theorem IsRead.decode_toTree {state : State} {levels : Nat} (h : state.IsRead levels) :
    State.decode (levels + 1) state.toJson.toTree = some state.reread := by
  have hkeys : (Json.toTree.fieldTrees state.toFields).map (·.1) =
      (state.toFields.map (·.1)).map some := by
    rw [Json.toTree.fieldTrees_eq_map, List.map_map, List.map_map]
    rfl
  have hcount : ownKeys.all (fun name =>
      ((Json.toTree.fieldTrees state.toFields).map (·.1)).count (some name) ≤ 1) = true := by
    refine List.all_eq_true.2 fun name hname => decide_eq_true ?_
    rw [hkeys, List.count_map_of_injective _ _ (Option.some_injective _)]
    exact h.count_toFields hname
  have hrecord : Json.Decoder.record (levels + 1) (Json.obj state.toFields).toTree =
      some (rereadFields state.toFields) := Json.Decoder.record_obj_toTree h.sound_toFields
  show (if _ then (Json.Decoder.record (levels + 1) (Json.obj state.toFields).toTree).bind
    fun record => (read record).toOption else none) = _
  rw [if_pos hcount, hrecord, Option.bind_some, h.read_toFields]
  rfl

/-! ### States that are read -/

theorem isPoint_of_readUpdatedAt {value : Option Json} {updatedAt : Option Timestamp}
    (h : readUpdatedAt value = .ok updatedAt) : ∀ time ∈ updatedAt, time.IsPoint := by
  intro time htime
  obtain rfl := Option.mem_def.1 htime
  unfold readUpdatedAt at h
  split at h
  · cases h
  · cases h
  · split at h
    · next hread =>
      cases h
      exact Timestamp.isPoint_of_read? hread
    · cases h
  · cases h

/-- A record holds a state just if it holds each of the state's fields. -/
theorem read_eq_ok_iff {record : Record} {state : State} :
    read record = .ok state ↔
      readEnabled (record.find? "enabled") = .ok state.enabled ∧
        readUpdatedAt (record.find? "updated_at") = .ok state.updatedAt ∧
        readVersion (record.find? "version") = .ok state.version ∧
        state.extra = ownKeys.foldl Dict.erase record := by
  constructor
  · intro h
    cases henabled : readEnabled (record.find? "enabled") with
    | error e =>
      rw [read, henabled] at h
      cases h
    | ok enabled =>
      cases hupdated : readUpdatedAt (record.find? "updated_at") with
      | error e =>
        rw [read, henabled, hupdated] at h
        cases h
      | ok updatedAt =>
        cases hversion : readVersion (record.find? "version") with
        | error e =>
          rw [read, henabled, hupdated, hversion] at h
          cases h
        | ok version =>
          rw [read, henabled, hupdated, hversion] at h
          obtain rfl := Except.ok.inj h
          exact ⟨rfl, rfl, rfl, rfl⟩
  · rintro ⟨henabled, hupdated, hversion, hextra⟩
    rw [read, henabled, hupdated, hversion, ← hextra]
    rfl

theorem ofRecord_eq_ok_iff {record : Record} {state : State} :
    ofRecord record = .ok state ↔ read record = .ok state := by
  rw [ofRecord]
  cases read record <;> simp [Except.mapError]

/-- A state that is read has a point in time, if any, and the fields of the record that are not its
own. -/
theorem of_read {record : Record} {state : State} (h : read record = .ok state) :
    (∀ time ∈ state.updatedAt, time.IsPoint) ∧ state.extra = ownKeys.foldl Dict.erase record := by
  obtain ⟨-, hupdated, -, hextra⟩ := read_eq_ok_iff.1 h
  exact ⟨isPoint_of_readUpdatedAt hupdated, hextra⟩

/-- A state is read from a record. -/
theorem exists_record_of_decode {state : State} {levels : Nat} {tree : Json.Tree}
    (h : State.decode levels tree = some state) :
    ∃ record, Json.Decoder.record levels tree = some record ∧ read record = .ok state := by
  unfold State.decode at h
  split at h
  · split at h
    · obtain ⟨record, hrecord, h⟩ := Option.bind_eq_some_iff.1 h
      refine ⟨record, hrecord, ?_⟩
      cases hread : read record with
      | error e =>
        rw [hread] at h
        cases h
      | ok read =>
        rw [hread] at h
        exact congrArg Except.ok (Option.some.inj h)
    · cases h
  · cases h

theorem isRead_of_decode {state : State} {levels : Nat} {tree : Json.Tree}
    (h : State.decode (levels + 1) tree = some state) : state.IsRead levels := by
  obtain ⟨record, hrecord, hread⟩ := exists_record_of_decode h
  obtain ⟨hupdated, hextra⟩ := of_read hread
  have hfind (key : String) : state.extra.find? key =
      if key ∈ ownKeys then none else record.find? key := by
    rw [hextra, Dict.find?_foldl_erase]
  obtain ⟨hsound, hdepth⟩ := Json.sound_of_value? tree (Json.Decoder.value?_of_record hrecord)
  rw [Json.sound_ofRecord_iff] at hsound
  rw [Json.depth_ofRecord_le_iff] at hdepth
  refine ⟨hupdated, fun name hname => by rw [hfind, if_pos hname], ?_⟩
  intro key value hvalue
  rw [hfind] at hvalue
  split at hvalue
  · cases hvalue
  · exact ⟨hsound key value hvalue, hdepth key value hvalue⟩

/-- The states that come back as they were are those whose plugin's fields are steady. -/
theorem IsRead.reread_eq_iff {state : State} {levels : Nat} (h : state.IsRead levels) :
    state.reread = state ↔ (Json.ofRecord state.extra).Steady := by
  rw [← Record.reread_eq_iff (Json.sound_ofRecord_iff.2 fun key value hfind =>
    (h.sound key value hfind).1)]
  exact ⟨fun heq => congrArg State.extra heq, fun heq => by rw [reread, heq]⟩

end Plugin.State

end Converge
