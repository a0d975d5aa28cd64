import Converge.Membership.Document
import Converge.Proofs.Legible
/-!
# The text of a membership document

A document is sound when its records are, and it fits when none of them is nested so deeply that
the document around it is past what the reader follows.  Main statements: the text of a sound
document that fits is read back, as `Document.reread` says (`Document.ofText?_text_reread`), only a
document that fits is (`Document.fits_of_ofText?_text`), every document that has been read is sound
and fits (`Document.sound_of_ofText?`), and a document is legible, and so read back unchanged
(`Document.ofText?_text`), if its doubles are steady besides (`Document.legible_iff`).
-/

namespace Converge

universe u v

/-! ## Dictionaries -/

namespace Dict

variable {α : Type u} {β : Type v}

theorem find?_map (d : Dict α) (f : α → β) (key : String) :
    (d.map f).find? key = (d.find? key).map f := by
  simp only [find?, map]
  induction d.entries with
  | nil => rfl
  | cons entry rest ih =>
    rw [List.map_cons, lookup_cons_ite, lookup_cons_ite, ih]
    split <;> rfl

theorem map_insert (d : Dict α) (f : α → β) (key : String) (value : α) :
    (d.insert key value).map f = (d.map f).insert key (f value) :=
  ext_find? fun other => by
    rw [find?_map, find?_insert, find?_insert, find?_map]
    split <;> rfl

theorem map_eq_self_iff {d : Dict α} {f : α → α} :
    d.map f = d ↔ ∀ key value, d.find? key = some value → f value = value := by
  constructor
  · intro h key value hfind
    have hmap := find?_map d f key
    rw [h, hfind] at hmap
    exact (Option.some.inj hmap).symm
  · intro h
    refine ext_find? fun key => ?_
    rw [find?_map]
    cases hfind : d.find? key with
    | none => rfl
    | some value => rw [Option.map_some, h key value hfind]

/-- What holds of a value and of all values in a dictionary still does when it is put there. -/
theorem forall_insert {p : α → Prop} {d : Dict α} {key : String} {value : α} (hvalue : p value)
    (h : ∀ other found, d.find? other = some found → p found) :
    ∀ other found, (d.insert key value).find? other = some found → p found := by
  intro other found hfind
  rw [find?_insert] at hfind
  split at hfind
  · rwa [← Option.some.inj hfind]
  · exact h other found hfind

end Dict

/-! ## Records -/

namespace Record

/-- The record that comes back from the text of a record. -/
def reread (record : Record) : Record :=
  record.map Json.reread

theorem find?_reread (record : Record) (key : String) :
    (reread record).find? key = (record.find? key).map Json.reread :=
  record.find?_map _ key

theorem reread_insert (record : Record) (key : String) (value : Json) :
    reread (record.insert key value) = (reread record).insert key value.reread :=
  record.map_insert _ key value

theorem reread_eq_iff {record : Record} (h : (Json.ofRecord record).Sound) :
    reread record = record ↔ (Json.ofRecord record).Steady := by
  rw [← h.reread_eq_iff, Json.reread_ofRecord]
  constructor
  · exact fun heq => congrArg Json.ofRecord heq
  · intro heq
    have hentries : (reread record).entries = record.entries := Json.obj.inj heq
    refine Dict.ext_find? fun key => ?_
    rw [Dict.find?, hentries]
    rfl

end Record

/-! ## Decoding lists and dictionaries -/

theorem mapM_eq_some_map {α β : Type} {f : α → Option β} {g : α → β} {items : List α}
    (h : ∀ item ∈ items, f item = some (g item)) : items.mapM f = some (items.map g) := by
  induction items with
  | nil => rfl
  | cons item rest ih =>
    obtain ⟨hitem, hrest⟩ := List.forall_mem_cons.1 h
    rw [List.mapM_cons, hitem, ih hrest]
    rfl

theorem forall_of_mapM_eq_some {α β : Type} {f : α → Option β} {p : β → Prop} {items : List α}
    {values : List β} (h : items.mapM f = some values)
    (hp : ∀ item ∈ items, ∀ value, f item = some value → p value) : ∀ value ∈ values, p value := by
  induction items generalizing values with
  | nil =>
    cases h
    exact nofun
  | cons item rest ih =>
    rw [List.mapM_cons] at h
    obtain ⟨first, hfirst, h⟩ := Option.bind_eq_some_iff.1 h
    obtain ⟨others, hothers, h⟩ := Option.bind_eq_some_iff.1 h
    obtain rfl := Option.some.inj h
    exact List.forall_mem_cons.2 ⟨hp item List.mem_cons_self first hfirst,
      ih hothers fun other hmem => hp other (List.mem_cons_of_mem _ hmem)⟩

namespace Json.Decoder

variable {α : Type}

/-- A dictionary is read back if each of its values is. -/
theorem dict_toTree_eq {decoder : Decoder α} {levels : Nat} {write : α → Json} {read : α → α}
    {d : Dict α} (h : ∀ key value, d.find? key = some value →
      decoder levels (write value).toTree = some (read value)) :
    Decoder.dict decoder (levels + 1) (Json.ofRecord (d.map write)).toTree =
      some (d.map read) := by
  have hfields : (toTree.fieldTrees (d.map write).entries).mapM (dict.readField? decoder levels) =
      some (d.map read).entries := by
    rw [toTree.fieldTrees_eq_map, Dict.map, List.map_map, List.mapM_map]
    refine mapM_eq_some_map fun entry hmem => ?_
    have hvalue := h entry.1 entry.2 (Dict.find?_eq_some_iff.2 hmem)
    show (decoder levels (write entry.2).toTree).bind _ = _
    rw [hvalue]
    rfl
  show Option.map Dict.ofList ((toTree.fieldTrees (d.map write).entries).mapM
    (dict.readField? decoder levels)) = _
  rw [hfields, Option.map_some, Dict.ofList_entries]

/-- What is read for fields that were written has their keys, each with what is read for its
value. -/
theorem exists_of_mapM_readField? {decoder : Decoder α} {levels : Nat} {write : α → Json}
    {entries values : List (String × α)}
    (h : (entries.map fun entry => (some entry.1, (write entry.2).toTree)).mapM
      (dict.readField? decoder levels) = some values) :
    values.map (·.1) = entries.map (·.1) ∧ ∀ entry ∈ entries, ∃ value,
      decoder levels (write entry.2).toTree = some value ∧ (entry.1, value) ∈ values := by
  induction entries generalizing values with
  | nil =>
    cases h
    exact ⟨rfl, nofun⟩
  | cons entry rest ih =>
    rw [List.map_cons, List.mapM_cons] at h
    obtain ⟨first, hfirst, h⟩ := Option.bind_eq_some_iff.1 h
    obtain ⟨others, hothers, h⟩ := Option.bind_eq_some_iff.1 h
    obtain rfl := Option.some.inj h
    obtain ⟨value, hvalue, hfirst⟩ := Option.bind_eq_some_iff.1 hfirst
    obtain rfl := Option.some.inj hfirst
    obtain ⟨hkeys, hall⟩ := ih hothers
    refine ⟨by rw [List.map_cons, List.map_cons, hkeys],
      List.forall_mem_cons.2 ⟨⟨value, hvalue, List.mem_cons_self⟩, fun other hmem => ?_⟩⟩
    obtain ⟨value', hvalue', hmem'⟩ := hall other hmem
    exact ⟨value', hvalue', List.mem_cons_of_mem _ hmem'⟩

/-- What is read for a dictionary holds what is read for each of its values. -/
theorem find?_of_dict_toTree {decoder : Decoder α} {levels : Nat} {write : α → Json} {d d' : Dict α}
    (h : Decoder.dict decoder (levels + 1) (Json.ofRecord (d.map write)).toTree = some d')
    {key : String} {value : α} (hfind : d.find? key = some value) :
    ∃ read, decoder levels (write value).toTree = some read ∧ d'.find? key = some read := by
  have hmapM : Option.map Dict.ofList ((d.entries.map fun entry =>
      (some entry.1, (write entry.2).toTree)).mapM (dict.readField? decoder levels)) = some d' := by
    rw [← h]
    show _ = Option.map Dict.ofList ((toTree.fieldTrees (d.map write).entries).mapM _)
    rw [toTree.fieldTrees_eq_map, Dict.map, List.map_map]
    rfl
  obtain ⟨values, hvalues, rfl⟩ := Option.map_eq_some_iff.1 hmapM
  obtain ⟨hkeys, hall⟩ := exists_of_mapM_readField? hvalues
  -- the keys are those of a dictionary, so they are in order
  have hsorted : values.Pairwise fun a b => a.1 < b.1 := by
    rw [← List.pairwise_map (R := (· < ·)), hkeys, List.pairwise_map]
    exact d.sorted
  obtain ⟨value', hvalue', hmem⟩ := hall _ (Dict.find?_eq_some_iff.1 hfind)
  refine ⟨value', hvalue', Dict.find?_eq_some_iff.2 ?_⟩
  rwa [Dict.entries_ofList hsorted]

theorem forall_of_dict {decoder : Decoder α} {levels : Nat} {tree : Tree} {d : Dict α}
    {p : α → Prop} (h : Decoder.dict decoder levels tree = some d)
    (hp : ∀ levels' tree' value, levels = levels' + 1 → decoder levels' tree' = some value →
      p value) :
    ∀ key value, d.find? key = some value → p value := by
  intro key value hfind
  unfold Decoder.dict at h
  split at h
  · next levels fields =>
    obtain ⟨entries, hentries, rfl⟩ := Option.map_eq_some_iff.1 h
    have hall : ∀ entry ∈ entries, p entry.2 := forall_of_mapM_eq_some hentries
      fun field _ entry hentry => by
        obtain ⟨key, -, hentry⟩ := Option.bind_eq_some_iff.1 hentry
        obtain ⟨value, hvalue, hentry⟩ := Option.bind_eq_some_iff.1 hentry
        obtain rfl := Option.some.inj hentry
        exact hp levels _ _ rfl hvalue
    exact hall _ (Dict.mem_of_mem_ofList (Dict.find?_eq_some_iff.1 hfind))
  · cases h

/-- A sound record that is not nested too deeply is read back. -/
theorem record_toTree_eq {levels : Nat} {record : Record} (h : (Json.ofRecord record).Sound)
    (hdepth : (Json.ofRecord record).depth ≤ levels + 1) :
    Decoder.record (levels + 1) (Json.ofRecord record).toTree = some (Record.reread record) := by
  have hmap : record.map id = record := Dict.map_eq_self_iff.2 fun _ _ _ => rfl
  rw [Json.sound_ofRecord_iff] at h
  rw [Json.depth_ofRecord_le_iff] at hdepth
  have hdict : Decoder.dict Decoder.value (levels + 1) (Json.ofRecord (record.map id)).toTree =
      some (record.map Json.reread) := dict_toTree_eq fun key value hfind =>
    (h key value hfind).value?_toTree (hdepth key value hfind)
  rwa [hmap] at hdict

theorem mapM_readField?_value (levels : Nat) (fields : List (Option String × Tree)) :
    fields.mapM (dict.readField? value levels) = Tree.value?.fields? levels fields := by
  induction fields with
  | nil => rfl
  | cons field rest ih =>
    rw [List.mapM_cons, ih]
    obtain ⟨_ | key, item⟩ := field
    · rfl
    · show (Option.bind (item.value? levels) fun first => some (key, first)).bind _ =
        (item.value? levels).bind _
      cases item.value? levels <;> rfl

/-- A record is read where an object is read as a value. -/
theorem value?_of_record {levels : Nat} {tree : Tree} {record : Record}
    (h : Decoder.record levels tree = some record) :
    tree.value? levels = some (Json.ofRecord record) := by
  unfold Decoder.record Decoder.dict at h
  split at h
  · next levels fields =>
    obtain ⟨entries, hentries, rfl⟩ := Option.map_eq_some_iff.1 h
    rw [mapM_readField?_value] at hentries
    rw [Tree.value?, hentries]
    rfl
  · cases h

end Json.Decoder

theorem Json.Fields.levels_of_ofTree? {names : List String} {levels : Nat} {tree : Json.Tree}
    {fields : Json.Fields} (h : Json.Fields.ofTree? names levels tree = some fields) :
    levels = fields.levels + 1 := by
  unfold Json.Fields.ofTree? at h
  split at h
  · dsimp only at h
    split at h
    · cases h
      rfl
    · cases h
  · split at h
    · cases h
      rfl
    · cases h
  · cases h

/-! ## Nodes -/

theorem Node.decode_toTree (levels : Nat) (node : Node) :
    Node.decode (levels + 1) node.toJson.toTree = some node := rfl

/-! ## Documents -/

namespace Membership.Document

/-- How deep a record may be nested: the document and the dictionary of its records enclose it. -/
def recordDepth : Nat :=
  Json.maxDepth - 2

/-- Every record of a document is legible. -/
def Legible (doc : Document) : Prop :=
  ∀ key record, doc.record? key = some record → (Json.ofRecord record).Legible recordDepth

/-- Every record of a document is steady. -/
def Steady (doc : Document) : Prop :=
  ∀ key record, doc.record? key = some record → (Json.ofRecord record).Steady

/-- Every record of a document is sound. -/
def Sound (doc : Document) : Prop :=
  ∀ key record, doc.record? key = some record → (Json.ofRecord record).Sound

/-- No record of a document is nested deeper than the reader follows. -/
def Fits (doc : Document) : Prop :=
  ∀ key record, doc.record? key = some record → (Json.ofRecord record).depth ≤ recordDepth

/-- The document that comes back from the text of a document. -/
def reread (doc : Document) : Document :=
  { doc with records := doc.records.map Record.reread }

@[simp] theorem nodes_reread (doc : Document) : doc.reread.nodes = doc.nodes := rfl

theorem record?_reread (doc : Document) (key : String) :
    doc.reread.record? key = (doc.record? key).map Record.reread :=
  doc.records.find?_map _ key

theorem record?_setRecord (doc : Document) (key : String) (record : Record) (other : String) :
    (doc.setRecord key record).record? other =
      if other = key then some record else doc.record? other :=
  Dict.find?_insert doc.records key record other

theorem sound_empty : empty.Sound := nofun

theorem fits_empty : empty.Fits := nofun

theorem Sound.setRecord {doc : Document} (h : doc.Sound) (key : String) {record : Record}
    (hrecord : (Json.ofRecord record).Sound) : (doc.setRecord key record).Sound :=
  Dict.forall_insert hrecord h

theorem Fits.setRecord {doc : Document} (h : doc.Fits) (key : String) {record : Record}
    (hrecord : (Json.ofRecord record).depth ≤ recordDepth) : (doc.setRecord key record).Fits :=
  Dict.forall_insert hrecord h

/-- What comes back from a sound document is sound, and fits if the document does. -/
theorem Sound.sound_reread {doc : Document} (h : doc.Sound) : doc.reread.Sound := by
  intro key record hfind
  rw [record?_reread] at hfind
  obtain ⟨before, hbefore, rfl⟩ := Option.map_eq_some_iff.1 hfind
  rw [Record.reread, ← Json.reread_ofRecord]
  exact (h key before hbefore).sound_reread

theorem Sound.fits_reread {doc : Document} (h : doc.Sound) (hfits : doc.Fits) :
    doc.reread.Fits := by
  intro key record hfind
  rw [record?_reread] at hfind
  obtain ⟨before, hbefore, rfl⟩ := Option.map_eq_some_iff.1 hfind
  rw [Record.reread, ← Json.reread_ofRecord]
  exact Json.depth_reread_le (h key before hbefore) (hfits key before hbefore)

/-- The documents that come back as they were are the steady ones. -/
theorem Sound.reread_eq_iff {doc : Document} (h : doc.Sound) :
    doc.reread = doc ↔ doc.Steady := by
  have hrecords : doc.reread = doc ↔ doc.records.map Record.reread = doc.records :=
    ⟨fun heq => congrArg Document.records heq, fun heq => by rw [reread, heq]⟩
  rw [hrecords, Dict.map_eq_self_iff]
  exact forall_congr' fun key => forall_congr' fun record => forall_congr' fun hfind =>
    Record.reread_eq_iff (h key record hfind)

/-- A document stays legible when a legible record is put into it. -/
theorem Legible.setRecord {doc : Document} (h : doc.Legible) (key : String) {record : Record}
    (hrecord : (Json.ofRecord record).Legible recordDepth) :
    (doc.setRecord key record).Legible :=
  Dict.forall_insert hrecord h

/-- A document is legible if it can be held, fits and is steady. -/
theorem legible_iff {doc : Document} : doc.Legible ↔ doc.Sound ∧ doc.Fits ∧ doc.Steady := by
  constructor
  · exact fun h => ⟨fun key record hfind => (Json.legible_iff.1 (h key record hfind)).1,
      fun key record hfind => (Json.legible_iff.1 (h key record hfind)).2.1,
      fun key record hfind => (Json.legible_iff.1 (h key record hfind)).2.2⟩
  · exact fun ⟨hsound, hfits, hsteady⟩ key record hfind => Json.legible_iff.2
      ⟨hsound key record hfind, hfits key record hfind, hsteady key record hfind⟩

/-! ## Reading documents -/

/-- The nodes come back from a document's text in any case, the records if they can be read. -/
theorem ofText?_text_eq (doc : Document) :
    ofText? doc.text = (Json.Decoder.dict Json.Decoder.record 126
      (Json.ofRecord (doc.records.map Json.ofRecord)).toTree).map fun records =>
        ⟨doc.nodes, records⟩ := by
  have hnodes : Json.Decoder.list Node.decode 126 (Json.arr (doc.nodes.map Node.toJson)).toTree =
      some doc.nodes := by
    show (Json.toTree.itemTrees (doc.nodes.map Node.toJson)).mapM (Node.decode 125) = _
    rw [Json.toTree.itemTrees_eq_map, List.map_map, List.mapM_map]
    exact (mapM_eq_some_map (g := id) fun node _ => Node.decode_toTree 124 node).trans
      (congrArg some (List.map_id _))
  rw [ofText?, Json.decode?, text, Json.ofText?_pretty, Option.bind_some]
  have hslots : ∀ nodes records : Json.Tree,
      List.lookup (some "nodes") [(some "nodes", nodes), (some "config", records)] = some nodes ∧
        List.lookup (some "config") [(some "nodes", nodes), (some "config", records)] =
          some records := fun _ _ => ⟨rfl, rfl⟩
  have hfields : Json.Fields.ofTree? ["nodes", "config"] Json.maxDepth doc.toJson.toTree =
      some ⟨126, fun name => List.lookup (some name)
        [(some "nodes", (Json.arr (doc.nodes.map Node.toJson)).toTree),
          (some "config", (Json.ofRecord (doc.records.map Json.ofRecord)).toTree)]⟩ := rfl
  unfold decode
  rw [hfields]
  simp only [Option.bind_eq_bind, Option.bind_some, Json.Fields.withDefault, hslots, hnodes]
  exact Option.map_eq_bind.symm

/-- A sound document that fits comes back from its text. -/
theorem ofText?_text_reread {doc : Document} (h : doc.Sound) (hfits : doc.Fits) :
    ofText? doc.text = some doc.reread := by
  have hrecords : Json.Decoder.dict Json.Decoder.record 126
      (Json.ofRecord (doc.records.map Json.ofRecord)).toTree =
        some (doc.records.map Record.reread) :=
    Json.Decoder.dict_toTree_eq fun key record hfind =>
      Json.Decoder.record_toTree_eq (h key record hfind) (hfits key record hfind)
  rw [ofText?_text_eq, hrecords]
  rfl

/-- Only a document that fits comes back from its text. -/
theorem fits_of_ofText?_text {doc doc' : Document} (h : ofText? doc.text = some doc') :
    doc.Fits := by
  rw [ofText?_text_eq] at h
  obtain ⟨records, hrecords, -⟩ := Option.map_eq_some_iff.1 h
  intro key record hfind
  obtain ⟨read, hread, -⟩ := Json.Decoder.find?_of_dict_toTree hrecords hfind
  exact Json.depth_le_of_value? _ (Json.Decoder.value?_of_record hread)

/-- A document that has been read is sound and fits. -/
theorem sound_of_ofText? {text : String} {doc : Document} (h : ofText? text = some doc) :
    doc.Sound ∧ doc.Fits := by
  obtain ⟨tree, -, h⟩ := Option.bind_eq_some_iff.1 h
  obtain ⟨fields, hfields, h⟩ := Option.bind_eq_some_iff.1 h
  obtain ⟨nodes, -, h⟩ := Option.bind_eq_some_iff.1 h
  obtain ⟨records, hrecords, h⟩ := Option.bind_eq_some_iff.1 h
  obtain rfl := Option.some.inj h
  -- the records stand two levels below the document
  have hlevels : fields.levels = 126 := Nat.succ.inj (Json.Fields.levels_of_ofTree? hfields).symm
  have hall : ∀ key record, Dict.find? records key = some record →
      (Json.ofRecord record).Sound ∧ (Json.ofRecord record).depth ≤ recordDepth := by
    unfold Json.Fields.withDefault at hrecords
    split at hrecords
    · refine Json.Decoder.forall_of_dict hrecords fun levels tree record hbelow hrecord => ?_
      obtain rfl : levels = recordDepth := Nat.succ.inj (hbelow.symm.trans hlevels)
      exact Json.sound_of_value? tree (Json.Decoder.value?_of_record hrecord)
    · obtain rfl := Option.some.inj hrecords
      exact nofun
  exact ⟨fun key record hfind => (hall key record hfind).1,
    fun key record hfind => (hall key record hfind).2⟩

/-- A legible document is read back from its text. -/
theorem ofText?_text {doc : Document} (h : doc.Legible) : ofText? doc.text = some doc := by
  obtain ⟨hsound, hfits, hsteady⟩ := legible_iff.1 h
  rw [ofText?_text_reread hsound hfits, hsound.reread_eq_iff.2 hsteady]

/-- A document that has been read is legible if its doubles are steady. -/
theorem legible_of_ofText? {text : String} {doc : Document} (h : ofText? text = some doc)
    (hsteady : doc.Steady) : doc.Legible :=
  legible_iff.2 ⟨(sound_of_ofText? h).1, (sound_of_ofText? h).2, hsteady⟩

/-- A record that a document's text gives back as it was is steady. -/
theorem steady_of_ofText?_text {doc doc' : Document} (h : ofText? doc.text = some doc')
    {key : String} {record : Record} (hbefore : doc.record? key = some record)
    (hafter : doc'.record? key = some record) : (Json.ofRecord record).Steady := by
  rw [ofText?_text_eq] at h
  obtain ⟨records, hrecords, rfl⟩ := Option.map_eq_some_iff.1 h
  obtain ⟨read, hread, hfind⟩ := Json.Decoder.find?_of_dict_toTree hrecords hbefore
  obtain rfl : record = read := Option.some.inj (hafter.symm.trans hfind)
  exact Json.steady_of_value? _ (Json.Decoder.value?_of_record hread)

end Membership.Document

end Converge
