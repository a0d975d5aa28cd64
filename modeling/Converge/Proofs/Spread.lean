import Converge.Topology
import Mathlib.Data.List.Nodup
/-!
# Units spread over machines

`Hosts` says that one of some units is on a machine, and `Spread` that no two of them have the same
name or the same machine.  Main statements: adding a unit with a fresh name on a free machine keeps
units spread (`Spread.insert`), and among spread units removing one by its name is the same as
freeing its machine (`Spread.filter_name`).
-/

namespace Converge

/-- Whether one of the units is on a machine. -/
def Hosts (units : List AppUnit) (machine : String) : Prop :=
  ∃ unit ∈ units, unit.machine = machine

theorem not_hosts_nil (machine : String) : ¬ Hosts [] machine := by
  rintro ⟨unit, hmem, -⟩
  cases hmem

/-- Units with a name and a machine of their own. -/
structure Spread (units : List AppUnit) : Prop where
  names : (units.map (·.name)).Nodup
  machines : (units.map (·.machine)).Nodup

theorem Application.unitOn?_eq_none_iff {app : Application} {machine : String} :
    app.unitOn? machine = none ↔ ¬ Hosts app.units machine := by
  simp [unitOn?, Hosts]

theorem mem_map_machine {units : List AppUnit} {machine : String} :
    machine ∈ units.map (·.machine) ↔ Hosts units machine :=
  List.mem_map

theorem hosts_insert {before after : List AppUnit} {unit : AppUnit} {machine : String} :
    Hosts (before ++ unit :: after) machine ↔
      machine = unit.machine ∨ Hosts (before ++ after) machine := by
  rw [Hosts, Hosts, eq_comm]
  constructor
  · rintro ⟨other, hmem, rfl⟩
    rcases List.mem_append.1 hmem with hbefore | hafter
    · exact .inr ⟨other, List.mem_append_left _ hbefore, rfl⟩
    · rcases List.mem_cons.1 hafter with rfl | hafter
      · exact .inl rfl
      · exact .inr ⟨other, List.mem_append_right _ hafter, rfl⟩
  · rintro (rfl | ⟨other, hmem, rfl⟩)
    · exact ⟨unit, by simp, rfl⟩
    · refine ⟨other, ?_, rfl⟩
      rcases List.mem_append.1 hmem with hbefore | hafter
      · exact List.mem_append_left _ hbefore
      · exact List.mem_append_right _ (List.mem_cons_of_mem _ hafter)

/-- Freeing a machine takes its units away and no others. -/
theorem hosts_free {units : List AppUnit} {freed machine : String} :
    Hosts (units.filter (·.machine ≠ freed)) machine ↔ Hosts units machine ∧ machine ≠ freed := by
  constructor
  · rintro ⟨unit, hmem, rfl⟩
    obtain ⟨hunits, hne⟩ := List.mem_filter.1 hmem
    exact ⟨⟨unit, hunits, rfl⟩, of_decide_eq_true hne⟩
  · rintro ⟨⟨unit, hunits, rfl⟩, hne⟩
    exact ⟨unit, List.mem_filter.2 ⟨hunits, decide_eq_true hne⟩, rfl⟩

namespace Spread

variable {units : List AppUnit}

theorem nil : Spread [] :=
  ⟨.nil, .nil⟩

theorem filter (h : Spread units) (p : AppUnit → Bool) : Spread (units.filter p) where
  names := h.names.sublist (List.filter_sublist.map _)
  machines := h.machines.sublist (List.filter_sublist.map _)

/-- A unit with a fresh name on a free machine keeps units spread, wherever it is listed. -/
theorem insert {before after : List AppUnit} {unit : AppUnit} (h : Spread (before ++ after))
    (hname : unit.name ∉ (before ++ after).map (·.name))
    (hmachine : ¬ Hosts (before ++ after) unit.machine) : Spread (before ++ unit :: after) where
  names := by
    have hnames := h.names
    rw [List.map_append] at hname hnames ⊢
    exact List.nodup_middle.2 (List.nodup_cons.2 ⟨hname, hnames⟩)
  machines := by
    have hmachines := h.machines
    rw [← mem_map_machine] at hmachine
    rw [List.map_append] at hmachine hmachines ⊢
    exact List.nodup_middle.2 (List.nodup_cons.2 ⟨hmachine, hmachines⟩)

/-- Among spread units, removing a unit by its name frees its machine and takes nothing else. -/
theorem filter_name (h : Spread units) {unit : AppUnit} (hmem : unit ∈ units) :
    units.filter (·.name ≠ unit.name) = units.filter (·.machine ≠ unit.machine) := by
  refine List.filter_congr fun other hother => ?_
  rw [decide_eq_decide]
  -- either equality makes the two units the same one
  refine not_congr ⟨fun hname => ?_, fun hmachine => ?_⟩
  · rw [List.inj_on_of_nodup_map h.names hother hmem hname]
  · rw [List.inj_on_of_nodup_map h.machines hother hmem hmachine]

end Spread

end Converge
