import Converge.Json.Decode
import Converge.Proofs.Reread
/-!
# Legible values

A double is steady when it is the number that its own text stands for; not every double is, because
reading rounds more than once.  A free-form value is legible when its integers fit into 64 bits, its
doubles are steady, its fields are in order and it is not nested too deeply.  Main statements: a
legible value is a sound one that is not too deep and has steady doubles (`legible_iff`), and only a
value with steady doubles is read back (`steady_of_value?`).
-/

namespace Converge

/-- The text of the number stands for the number. -/
def Double.IsSteady (x : Double) : Prop :=
  x.literal.number? = some (.real x)

theorem Double.IsSteady.isFinite {x : Double} (h : x.IsSteady) : x.IsFinite :=
  Json.Literal.isFinite_of_number? h

theorem Double.IsFinite.isSteady_iff {x : Double} (h : x.IsFinite) :
    x.IsSteady ↔ x.reread = x := by
  rw [IsSteady, h.number?_literal, Option.some.injEq, Json.real.injEq]

namespace Json

/-- Every double in a value is steady. -/
inductive Steady : Json → Prop
  | null : Steady .null
  | bool (b : Bool) : Steady (.bool b)
  | int (n : Int) : Steady (.int n)
  | real {x : Double} (h : x.IsSteady) : Steady (.real x)
  | str (text : String) : Steady (.str text)
  | arr {items : List Json} (h : ∀ item ∈ items, item.Steady) : Steady (.arr items)
  | obj {fields : List (String × Json)} (h : ∀ field ∈ fields, field.2.Steady) :
      Steady (.obj fields)

/-- A value that is read back from its text, if it may be nested by the levels. -/
inductive Legible : Nat → Json → Prop
  | null {levels : Nat} : Legible levels .null
  | bool {levels : Nat} (b : Bool) : Legible levels (.bool b)
  | int {levels : Nat} {n : Int} (h : -2 ^ 63 ≤ n ∧ n < 2 ^ 64) : Legible levels (.int n)
  | real {levels : Nat} {x : Double} (h : x.IsSteady) : Legible levels (.real x)
  | str {levels : Nat} (text : String) : Legible levels (.str text)
  | arr {levels : Nat} {items : List Json} (h : ∀ item ∈ items, Legible levels item) :
      Legible (levels + 1) (.arr items)
  | obj {levels : Nat} {fields : List (String × Json)}
      (sorted : fields.Pairwise (fun a b => a.1 < b.1))
      (h : ∀ field ∈ fields, Legible levels field.2) : Legible (levels + 1) (.obj fields)

/-! ## Steady values come back unchanged -/

theorem map_eq_self_iff {α : Type} {f : α → α} {items : List α} :
    items.map f = items ↔ ∀ item ∈ items, f item = item := by
  simpa using List.map_inj_left (f := f) (g := id) (l := items)

/-- The values that come back as they were are the steady ones. -/
theorem Sound.reread_eq_iff {value : Json} (h : value.Sound) :
    value.reread = value ↔ value.Steady := by
  induction h with
  | null => exact ⟨fun _ => .null, fun _ => rfl⟩
  | bool b => exact ⟨fun _ => .bool b, fun _ => rfl⟩
  | @int n _ => exact ⟨fun _ => .int n, fun _ => rfl⟩
  | str text => exact ⟨fun _ => .str text, fun _ => rfl⟩
  | real h =>
    rw [Json.reread, Json.real.injEq, ← h.isSteady_iff]
    exact ⟨.real, fun hsteady => by cases hsteady; assumption⟩
  | @arr items _ ih =>
    rw [reread_arr, Json.arr.injEq, map_eq_self_iff]
    constructor
    · exact fun hall => .arr fun item hmem => (ih item hmem).1 (hall item hmem)
    · intro hsteady item hmem
      cases hsteady with
      | arr hall => exact (ih item hmem).2 (hall item hmem)
  | @obj fields _ _ ih =>
    rw [Json.reread, reread.rereadFields_eq_map, Json.obj.injEq, map_eq_self_iff]
    constructor
    · exact fun hall => .obj fun field hmem =>
        (ih field hmem).1 (congrArg Prod.snd (hall field hmem))
    · intro hsteady field hmem
      cases hsteady with
      | obj hall => exact Prod.ext rfl ((ih field hmem).2 (hall field hmem))

/-- A value is legible if it can be held, is not nested too deeply and is steady. -/
theorem legible_iff {levels : Nat} {value : Json} :
    value.Legible levels ↔ value.Sound ∧ value.depth ≤ levels ∧ value.Steady := by
  constructor
  · intro h
    induction h with
    | null => exact ⟨.null, Nat.zero_le _, .null⟩
    | bool b => exact ⟨.bool b, Nat.zero_le _, .bool b⟩
    | @int levels n h => exact ⟨.int h, Nat.zero_le _, .int n⟩
    | real h => exact ⟨.real h.isFinite, Nat.zero_le _, .real h⟩
    | str text => exact ⟨.str text, Nat.zero_le _, .str text⟩
    | arr _ ih =>
      exact ⟨.arr fun item hmem => (ih item hmem).1,
        depth_arr_le_iff.2 fun item hmem => (ih item hmem).2.1,
        .arr fun item hmem => (ih item hmem).2.2⟩
    | obj sorted _ ih =>
      exact ⟨.obj sorted fun field hmem => (ih field hmem).1,
        depth_obj_le_iff.2 fun field hmem => (ih field hmem).2.1,
        .obj fun field hmem => (ih field hmem).2.2⟩
  · rintro ⟨hsound, hdepth, hsteady⟩
    induction hsound generalizing levels with
    | null => exact .null
    | bool b => exact .bool b
    | int h => exact .int h
    | str text => exact .str text
    | real _ =>
      cases hsteady with
      | real h => exact .real h
    | @arr items _ ih =>
      have hpos := depth_arr_pos items
      obtain ⟨levels, rfl⟩ := Nat.exists_eq_add_one_of_ne_zero (by omega : levels ≠ 0)
      cases hsteady with
      | arr hall =>
        exact .arr fun item hmem =>
          ih item hmem (depth_arr_le_iff.1 hdepth item hmem) (hall item hmem)
    | @obj fields sorted _ ih =>
      have hpos := depth_obj_pos fields
      obtain ⟨levels, rfl⟩ := Nat.exists_eq_add_one_of_ne_zero (by omega : levels ≠ 0)
      cases hsteady with
      | obj hall =>
        exact .obj sorted fun field hmem =>
          ih field hmem (depth_obj_le_iff.1 hdepth field hmem) (hall field hmem)

/-! ## Values that are read back -/

/-- A value that is read back from its own content is steady. -/
theorem steady_of_value? (value : Json) {levels : Nat}
    (h : value.toTree.value? levels = some value) : value.Steady := by
  obtain ⟨hsound, hdepth⟩ := sound_of_value? _ h
  rw [hsound.value?_toTree hdepth, Option.some.injEq] at h
  exact hsound.reread_eq_iff.1 h

end Json

end Converge
