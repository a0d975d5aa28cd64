import Converge.Collaborator
/-!
# The recorded placement

A record lists the machines that an application is placed on under `machine_ids`.  A machine joins
or leaves the list when a unit is added to it or removed from it.
-/

namespace Converge.Placement

/-- The input that lists the machines of an application. -/
def machineIdsKey : String := "machine_ids"

/-- The input that names the model of an application. -/
def machineModelKey : String := "machine_model"

/-- A change of the list. -/
inductive Change where
  | join
  | leave
  deriving DecidableEq

/-- The machines that a record lists; entries that are no texts do not count. -/
def machineIds (record : Record) : List String :=
  (((record.find? machineIdsKey).bind Json.items?).getD []).filterMap Json.string?

/-- The list after a machine has joined or left: a machine that is listed does not join again, and
one that leaves is listed no more. -/
def Change.apply (change : Change) (machine : String) (ids : List String) : List String :=
  match change with
  | .join => if machine ∈ ids then ids else ids ++ [machine]
  | .leave => ids.filter (· ≠ machine)

/-- The record after a machine has joined or left. -/
def amend (change : Change) (machine : String) (record : Record) : Record :=
  record.insert machineIdsKey (.ofStrings (change.apply machine (machineIds record)))

/-! ## The list after a change -/

theorem machineIds_eq_nil {record : Record} (h : record.find? machineIdsKey = none) :
    machineIds record = [] := by
  rw [machineIds, h]
  rfl

theorem machineIds_eq {record : Record} {ids : List String}
    (h : record.find? machineIdsKey = some (.ofStrings ids)) : machineIds record = ids := by
  rw [machineIds, h]
  show (ids.map Json.str).filterMap Json.string? = ids
  rw [List.filterMap_map]
  exact List.filterMap_some

theorem find?_amend (change : Change) (machine : String) (record : Record) :
    (amend change machine record).find? machineIdsKey =
      some (.ofStrings (change.apply machine (machineIds record))) := by
  rw [amend, Dict.find?_insert, if_pos rfl]

/-- A change of the list leaves the rest of the record alone. -/
theorem find?_amend_of_ne (change : Change) (machine : String) (record : Record) {key : String}
    (h : key ≠ machineIdsKey) : (amend change machine record).find? key = record.find? key := by
  rw [amend, Dict.find?_insert, if_neg h]

theorem machineIds_amend (change : Change) (machine : String) (record : Record) :
    machineIds (amend change machine record) = change.apply machine (machineIds record) :=
  machineIds_eq (find?_amend change machine record)

theorem mem_apply_join {machine other : String} {ids : List String} :
    other ∈ Change.join.apply machine ids ↔ other = machine ∨ other ∈ ids := by
  by_cases h : machine ∈ ids
  · rw [Change.apply, if_pos h]
    exact ⟨.inr, fun hor => hor.elim (fun heq => heq ▸ h) id⟩
  · rw [Change.apply, if_neg h, List.mem_append, List.mem_singleton, or_comm]

theorem mem_apply_leave {machine other : String} {ids : List String} :
    other ∈ Change.leave.apply machine ids ↔ other ∈ ids ∧ other ≠ machine := by
  simp [Change.apply]

/-- A machine that joins and leaves is not listed, whether it was or not. -/
theorem leave_join (machine : String) (ids : List String) :
    Change.leave.apply machine (Change.join.apply machine ids) =
      Change.leave.apply machine ids := by
  by_cases h : machine ∈ ids
  · rw [show Change.join.apply machine ids = ids from if_pos h]
  · rw [show Change.join.apply machine ids = ids ++ [machine] from if_neg h]
    simp [Change.apply]

theorem nodup_apply (change : Change) (machine : String) {ids : List String} (h : ids.Nodup) :
    (change.apply machine ids).Nodup := by
  cases change with
  | leave => exact h.filter _
  | join =>
    by_cases hmem : machine ∈ ids
    · rwa [Change.apply, if_pos hmem]
    · rw [Change.apply, if_neg hmem, List.nodup_append]
      refine ⟨h, by simp, fun id hid other hother heq => hmem ?_⟩
      rwa [← List.mem_singleton.1 hother, ← heq]

/-! ## Noting a change -/

/-- Notes in a store that a machine has joined or left. -/
def note {m : Type → Type} [Monad m] (store : MembershipStore m) (key machine : String)
    (change : Change) : ExceptT Error m Unit := do
  store.setRecord key (amend change machine (← store.recordOrEmpty key))

end Converge.Placement
