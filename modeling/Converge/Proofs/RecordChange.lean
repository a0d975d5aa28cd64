import Converge.Placement
import Converge.Plugin.Record
import Converge.Proofs.DocumentText
/-!
# Changes of records that come back

What the library itself writes into a record are texts and truth values, which come back from a
file as they were; a change that writes nothing else is plain.  Main statements: a machine that
joins or leaves is a plain change (`Placement.plain_amend`), so is a plugin's state that is written
over a record (`Plugin.State.plain_mergeInto`), and a plain change is made to the document that
comes back as it is to the document (`Membership.Document.reread_revise`).
-/

namespace Converge

open Converge.Membership (Document)

/-- A change is made to the record that comes back as it is to the record, and makes no record
unfit to come back. -/
structure Record.Plain (change : Record → Record) : Prop where
  reread : ∀ record, Record.reread (change record) = change (Record.reread record)
  sound : ∀ record, (Json.ofRecord record).Sound → (Json.ofRecord (change record)).Sound
  depth : ∀ record, (Json.ofRecord record).depth ≤ Document.recordDepth →
    (Json.ofRecord (change record)).depth ≤ Document.recordDepth

/-- A record that comes back as it was still does after a plain change. -/
theorem Record.Plain.legible {change : Record → Record} (h : Record.Plain change) {record : Record}
    (hrecord : (Json.ofRecord record).Legible Document.recordDepth) :
    (Json.ofRecord (change record)).Legible Document.recordDepth := by
  obtain ⟨hsound, hdepth, hsteady⟩ := Json.legible_iff.1 hrecord
  have hsound' := h.sound record hsound
  refine Json.legible_iff.2 ⟨hsound', h.depth record hdepth, (Record.reread_eq_iff hsound').1 ?_⟩
  rw [h.reread, (Record.reread_eq_iff hsound).2 hsteady]

namespace Placement

theorem machineIds_reread (record : Record) :
    machineIds (Record.reread record) = machineIds record := by
  have hitems : ∀ items : List Json,
      (items.map Json.reread).filterMap Json.string? = items.filterMap Json.string? := by
    intro items
    rw [List.filterMap_map]
    exact congrArg (items.filterMap ·) (funext fun item => by cases item <;> rfl)
  unfold machineIds
  rw [Record.find?_reread]
  cases record.find? machineIdsKey with
  | none => rfl
  | some value =>
    cases value with
    | arr items => exact (congrArg _ (reread_items items)).trans (hitems items)
    | _ => rfl
where
  reread_items (items : List Json) :
      ((some (Json.arr items).reread).bind Json.items?).getD [] = items.map Json.reread := by
    rw [Json.reread_arr]
    rfl

/-- A machine joins or leaves the record that comes back as it does the record. -/
theorem amend_reread (change : Change) (machine : String) (record : Record) :
    Record.reread (amend change machine record) = amend change machine (Record.reread record) := by
  rw [amend, amend, Record.reread_insert, Json.reread_ofStrings, machineIds_reread]

theorem sound_amend (change : Change) (machine : String) {record : Record}
    (h : (Json.ofRecord record).Sound) :
    (Json.ofRecord (amend change machine record)).Sound :=
  Json.sound_ofRecord_iff.2 (Dict.forall_insert
    (.arr (List.forall_mem_map.2 fun text _ => .str text)) (Json.sound_ofRecord_iff.1 h))

theorem depth_amend_le (change : Change) (machine : String) {record : Record} {levels : Nat}
    (h : (Json.ofRecord record).depth ≤ levels + 2) :
    (Json.ofRecord (amend change machine record)).depth ≤ levels + 2 :=
  Json.depth_ofRecord_le_iff.2 (Dict.forall_insert
    (Json.depth_arr_le_iff.2 (List.forall_mem_map.2 fun _ _ => Nat.zero_le _))
    (Json.depth_ofRecord_le_iff.1 h))

/-- A machine that joins or leaves is a plain change. -/
theorem plain_amend (change : Change) (machine : String) :
    Record.Plain (amend change machine) where
  reread := amend_reread change machine
  sound _ := sound_amend change machine
  depth _ := depth_amend_le change machine

end Placement

namespace Plugin.State

variable (enabled : Bool) (version : String) (time : Timestamp) (extra : Record)

/-- A state is written over the record that comes back as it is over the record. -/
theorem mergeInto_reread (record : Record) :
    Record.reread ((mk enabled (some version) (some time) extra).mergeInto record) =
      (mk enabled (some version) (some time) extra).mergeInto (Record.reread record) := by
  simp only [mergeInto, Record.reread_insert, Json.reread]

/-- What a state writes into a record is one of three plain values. -/
theorem forall_mergeInto {record : Record} {p : Json → Prop} (hbool : ∀ b, p (.bool b))
    (hstr : ∀ text, p (.str text)) (h : ∀ key value, record.find? key = some value → p value) :
    ∀ key value, ((mk enabled (some version) (some time) extra).mergeInto record).find? key =
      some value → p value :=
  Dict.forall_insert (hstr _) (Dict.forall_insert (hstr _) (Dict.forall_insert (hbool _) h))

theorem sound_mergeInto {record : Record} (h : (Json.ofRecord record).Sound) :
    (Json.ofRecord ((mk enabled (some version) (some time) extra).mergeInto record)).Sound :=
  Json.sound_ofRecord_iff.2 (forall_mergeInto enabled version time extra .bool .str
    (Json.sound_ofRecord_iff.1 h))

theorem depth_mergeInto_le {record : Record} {levels : Nat}
    (h : (Json.ofRecord record).depth ≤ levels + 1) :
    (Json.ofRecord ((mk enabled (some version) (some time) extra).mergeInto record)).depth ≤
      levels + 1 :=
  Json.depth_ofRecord_le_iff.2 (forall_mergeInto enabled version time extra
    (fun _ => Nat.zero_le _) (fun _ => Nat.zero_le _) (Json.depth_ofRecord_le_iff.1 h))

/-- A state that is written over a record is a plain change. -/
theorem plain_mergeInto :
    Record.Plain (mk enabled (some version) (some time) extra).mergeInto where
  reread := mergeInto_reread enabled version time extra
  sound _ := sound_mergeInto enabled version time extra
  depth _ := depth_mergeInto_le enabled version time extra

end Plugin.State

/-! ## Changes of a document -/

namespace Membership.Document

/-- The document after a change of the record under a key; a record that is not there is empty. -/
def revise (key : String) (change : Record → Record) (doc : Document) : Document :=
  doc.setRecord key (change ((doc.record? key).getD .empty))

section

variable {key other : String} {change change' : Record → Record} {doc : Document}

@[simp] theorem nodes_revise : (doc.revise key change).nodes = doc.nodes := rfl

theorem record?_revise : (doc.revise key change).record? other =
    if other = key then some (change ((doc.record? key).getD .empty)) else doc.record? other :=
  record?_setRecord doc key _ other

theorem reread_setRecord (key : String) (record : Record) (doc : Document) :
    (doc.setRecord key record).reread = doc.reread.setRecord key (Record.reread record) := by
  rw [setRecord, reread, Dict.map_insert]
  rfl

theorem getD_record?_reread (doc : Document) (key : String) :
    (doc.reread.record? key).getD .empty = Record.reread ((doc.record? key).getD .empty) := by
  rw [record?_reread]
  cases doc.record? key <;> rfl

/-- A plain change is made to the document that comes back as it is to the document. -/
theorem reread_revise (h : Record.Plain change) :
    (doc.revise key change).reread = doc.reread.revise key change := by
  rw [revise, reread_setRecord, h.reread, ← getD_record?_reread, revise]

/-- Changes of records under different keys commute. -/
theorem revise_comm (hne : key ≠ other) :
    (doc.revise key change).revise other change' =
      (doc.revise other change').revise key change := by
  rw [revise, record?_revise, if_neg hne.symm, revise, revise, record?_revise, if_neg hne, revise]
  exact congrArg (mk doc.nodes) (Dict.insert_insert_of_ne _ _ _ hne)

/-- What holds of the empty record and of those in a document holds of what is found there. -/
theorem getD_record? {p : Record → Prop} (hempty : p .empty)
    (h : ∀ key record, doc.record? key = some record → p record) :
    p ((doc.record? key).getD .empty) := by
  cases hrecord : doc.record? key with
  | none => exact hempty
  | some record => exact h key record hrecord

theorem Sound.revise (h : doc.Sound) (key : String) (hchange : Record.Plain change) :
    (doc.revise key change).Sound :=
  h.setRecord key (hchange.sound _ (getD_record? (.obj .nil nofun) h))

theorem Fits.revise (h : doc.Fits) (key : String) (hchange : Record.Plain change) :
    (doc.revise key change).Fits :=
  h.setRecord key (hchange.depth _ (getD_record? (by decide) h))

/-- A document that comes back as it was still does after a plain change. -/
theorem Legible.revise (h : doc.Legible) (key : String) (hchange : Record.Plain change) :
    (doc.revise key change).Legible :=
  h.setRecord key (hchange.legible (getD_record? (.obj .nil nofun) h))

end

end Membership.Document

end Converge
