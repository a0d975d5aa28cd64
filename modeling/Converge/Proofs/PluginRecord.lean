import Converge.Plugin.Record
import Converge.Proofs.WrittenTime
/-!
# Written plugin records

What becomes of a record when a plugin's state is written over it.  Main statements: the three
fields of the state are replaced and every other one is kept (`State.find?_mergeInto`), and the
state is read back whatever the record held before (`State.ofRecord_mergeInto`).
-/

namespace Converge

namespace Plugin

theorem key_injective {name other : String} (h : key name = key other) : name = other := by
  have hlist := congrArg String.toList h
  rw [key, key, String.toList_append, String.toList_append] at hlist
  exact String.toList_injective (List.append_cancel_left hlist)

namespace State

/-- The record that a state is written over keeps every field but those that the state knows. -/
theorem find?_mergeInto_or (state : State) (record : Record) (name : String) :
    (state.mergeInto record).find? name =
      if name = "updated_at" then
        (state.updatedAt.map fun time => .str time.write).or (record.find? name)
      else if name = "version" then (state.version.map .str).or (record.find? name)
      else if name = "enabled" then some (.bool state.enabled)
      else record.find? name := by
  obtain ⟨enabled, version, updatedAt, extra⟩ := state
  -- what a state does not know is left to the record, as is every other field
  cases version <;> cases updatedAt <;> simp only [mergeInto, Dict.find?_insert] <;>
    by_cases hupdated : name = "updated_at" <;> by_cases hversion : name = "version" <;>
    simp_all

variable (enabled : Bool) (version : String) (time : Timestamp) (extra record : Record)

/-- The record that a whole state is written over keeps every field but the state's own. -/
theorem find?_mergeInto (name : String) :
    ((mk enabled (some version) (some time) extra).mergeInto record).find? name =
      if name = "updated_at" then some (.str time.write)
      else if name = "version" then some (.str version)
      else if name = "enabled" then some (.bool enabled)
      else record.find? name :=
  find?_mergeInto_or _ record name

/-- A state that was written is read back, whatever it was written over. -/
theorem ofRecord_mergeInto (htime : time.IsPoint) :
    ofRecord ((mk enabled (some version) (some time) extra).mergeInto record) =
      .ok ⟨enabled, some version, some time, ownKeys.foldl Dict.erase
        ((mk enabled (some version) (some time) extra).mergeInto record)⟩ := by
  simp [ofRecord, read, find?_mergeInto, readEnabled, readUpdatedAt, readVersion,
    htime.read?_write]
  rfl

end State

end Plugin

end Converge
