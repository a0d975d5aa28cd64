import Converge.Proofs.DoubleText
import Converge.Proofs.RoundTrip
/-!
# Values that have been through a text

A value is sound when a program can hold it: its integers fit into 64 bits, its doubles are finite
and the fields of its objects are in order.  From its text such a value comes back as `Json.reread`
says, each double as the one that its own text stands for.  Main statements: a sound value is read
back if it is nested no deeper than the reader goes (`Sound.value?_toTree`), only such a value is
(`depth_le_of_value?`), and whatever is read is sound (`sound_of_value?`).
-/

namespace Converge

/-! ## Doubles -/

namespace Double

/-- The double that a double's text stands for. -/
def reread (x : Double) : Double :=
  match x.literal.number? with
  | some (.real y) => y
  | _ => x

variable {x : Double}

theorem IsFinite.number?_literal (h : x.IsFinite) :
    x.literal.number? = some (.real x.reread) := by
  obtain ⟨y, hy, -⟩ := exists_number?_literal h
  rw [reread, hy]

theorem IsFinite.isFinite_reread (h : x.IsFinite) : x.reread.IsFinite :=
  Json.Literal.isFinite_of_number? h.number?_literal

end Double

namespace Json

/-! ## Sound values -/

/-- A value that can be held. -/
inductive Sound : Json → Prop
  | null : Sound .null
  | bool (b : Bool) : Sound (.bool b)
  | int {n : Int} (h : -2 ^ 63 ≤ n ∧ n < 2 ^ 64) : Sound (.int n)
  | real {x : Double} (h : x.IsFinite) : Sound (.real x)
  | str (text : String) : Sound (.str text)
  | arr {items : List Json} (h : ∀ item ∈ items, item.Sound) : Sound (.arr items)
  | obj {fields : List (String × Json)} (sorted : fields.Pairwise (fun a b => a.1 < b.1))
      (h : ∀ field ∈ fields, field.2.Sound) : Sound (.obj fields)

theorem sound_ofRecord_iff {record : Record} :
    (ofRecord record).Sound ↔ ∀ key value, record.find? key = some value → value.Sound := by
  constructor
  · intro h key value hfind
    cases h with
    | obj sorted hfields => exact hfields (key, value) (Dict.find?_eq_some_iff.1 hfind)
  · exact fun h => .obj record.sorted fun field hmem =>
      h field.1 field.2 (Dict.find?_eq_some_iff.2 hmem)

/-! ## Depth -/

theorem depth.itemsDepth_le_iff {items : List Json} {levels : Nat} :
    itemsDepth items ≤ levels ↔ ∀ item ∈ items, item.depth ≤ levels := by
  induction items with
  | nil => simp [itemsDepth]
  | cons item rest ih => rw [itemsDepth, Nat.max_le, ih, List.forall_mem_cons]

theorem depth.fieldsDepth_le_iff {fields : List (String × Json)} {levels : Nat} :
    fieldsDepth fields ≤ levels ↔ ∀ field ∈ fields, field.2.depth ≤ levels := by
  induction fields with
  | nil => simp [fieldsDepth]
  | cons field rest ih =>
    obtain ⟨key, value⟩ := field
    rw [fieldsDepth, Nat.max_le, ih, List.forall_mem_cons]

theorem depth_arr_le_iff {items : List Json} {levels : Nat} :
    (Json.arr items).depth ≤ levels + 1 ↔ ∀ item ∈ items, item.depth ≤ levels := by
  rw [← depth.itemsDepth_le_iff, depth]
  omega

theorem depth_obj_le_iff {fields : List (String × Json)} {levels : Nat} :
    (Json.obj fields).depth ≤ levels + 1 ↔ ∀ field ∈ fields, field.2.depth ≤ levels := by
  rw [← depth.fieldsDepth_le_iff, depth]
  omega

theorem depth_arr_pos (items : List Json) : 0 < (Json.arr items).depth := by
  rw [depth]
  omega

theorem depth_obj_pos (fields : List (String × Json)) : 0 < (Json.obj fields).depth := by
  rw [depth]
  omega

theorem depth_ofRecord_le_iff {record : Record} {levels : Nat} :
    (ofRecord record).depth ≤ levels + 1 ↔
      ∀ key value, record.find? key = some value → value.depth ≤ levels := by
  rw [ofRecord, depth_obj_le_iff]
  constructor
  · exact fun h key value hfind => h (key, value) (Dict.find?_eq_some_iff.1 hfind)
  · exact fun h field hmem => h field.1 field.2 (Dict.find?_eq_some_iff.2 hmem)

/-! ## What comes back -/

/-- The value that comes back from the text of a value. -/
def reread : Json → Json
  | .null => .null
  | .bool b => .bool b
  | .int n => .int n
  | .real x => .real x.reread
  | .str text => .str text
  | .arr items => .arr (rereadItems items)
  | .obj fields => .obj (rereadFields fields)
where
  /-- The items that come back. -/
  rereadItems : List Json → List Json
    | [] => []
    | item :: rest => item.reread :: rereadItems rest
  /-- The fields that come back. -/
  rereadFields : List (String × Json) → List (String × Json)
    | [] => []
    | (key, value) :: rest => (key, value.reread) :: rereadFields rest

theorem reread.rereadItems_eq_map (items : List Json) : rereadItems items = items.map reread := by
  induction items with
  | nil => rfl
  | cons item rest ih => rw [rereadItems, ih, List.map_cons]

theorem reread.rereadFields_eq_map (fields : List (String × Json)) :
    rereadFields fields = fields.map fun field => (field.1, field.2.reread) := by
  induction fields with
  | nil => rfl
  | cons field rest ih => rw [rereadFields, ih, List.map_cons]

theorem reread_arr (items : List Json) : (Json.arr items).reread = .arr (items.map reread) := by
  rw [reread, reread.rereadItems_eq_map]

theorem reread_ofRecord (record : Record) :
    (ofRecord record).reread = ofRecord (record.map reread) := by
  rw [ofRecord, reread, reread.rereadFields_eq_map]
  rfl

theorem reread_ofStrings (texts : List String) : (ofStrings texts).reread = ofStrings texts := by
  rw [ofStrings, reread_arr, List.map_map]
  rfl

/-- What comes back is nested as before. -/
theorem depth_reread_le {value : Json} {levels : Nat} (h : value.Sound)
    (hdepth : value.depth ≤ levels) : value.reread.depth ≤ levels := by
  induction h generalizing levels with
  | null | bool | int | real | str => exact hdepth
  | @arr items _ ih =>
    have hpos := depth_arr_pos items
    obtain ⟨levels, rfl⟩ := Nat.exists_eq_add_one_of_ne_zero (by omega : levels ≠ 0)
    rw [depth_arr_le_iff] at hdepth
    rw [reread_arr, depth_arr_le_iff]
    exact List.forall_mem_map.2 fun item hmem => ih item hmem (hdepth item hmem)
  | @obj fields _ _ ih =>
    have hpos := depth_obj_pos fields
    obtain ⟨levels, rfl⟩ := Nat.exists_eq_add_one_of_ne_zero (by omega : levels ≠ 0)
    rw [depth_obj_le_iff] at hdepth
    rw [reread, reread.rereadFields_eq_map, depth_obj_le_iff]
    exact List.forall_mem_map.2 fun field hmem => ih field hmem (hdepth field hmem)

/-- What comes back is sound. -/
theorem Sound.sound_reread {value : Json} (h : value.Sound) : value.reread.Sound := by
  induction h with
  | null => exact .null
  | bool b => exact .bool b
  | int h => exact .int h
  | real h => exact .real h.isFinite_reread
  | str text => exact .str text
  | arr _ ih =>
    rw [reread_arr]
    exact .arr (List.forall_mem_map.2 ih)
  | obj sorted _ ih =>
    rw [Json.reread, reread.rereadFields_eq_map]
    exact .obj (List.pairwise_map.2 sorted) (List.forall_mem_map.2 ih)

/-- A sound value comes back from its text if it is not nested too deeply. -/
theorem Sound.value?_toTree {value : Json} (h : value.Sound) {levels : Nat}
    (hdepth : value.depth ≤ levels) : value.toTree.value? levels = some value.reread := by
  induction h generalizing levels with
  | null | bool | str => rfl
  | int h => exact Literal.number?_ofInt h
  | real h => exact h.number?_literal
  | @arr items hsound ih =>
    have hpos := depth_arr_pos items
    obtain ⟨levels, rfl⟩ := Nat.exists_eq_add_one_of_ne_zero (by omega : levels ≠ 0)
    rw [depth_arr_le_iff] at hdepth
    have hitems : Tree.value?.items? levels (toTree.itemTrees items) =
        some (reread.rereadItems items) := by
      clear hpos hsound
      induction items with
      | nil => rfl
      | cons item rest ihrest =>
        obtain ⟨hitem, hrest⟩ := List.forall_mem_cons.1 hdepth
        rw [toTree.itemTrees, Tree.value?.items?, ih item List.mem_cons_self hitem,
          ihrest (fun other hmem => ih other (List.mem_cons_of_mem _ hmem)) hrest]
        rfl
    rw [toTree, Tree.value?, hitems]
    rfl
  | @obj fields sorted hsound ih =>
    have hpos := depth_obj_pos fields
    obtain ⟨levels, rfl⟩ := Nat.exists_eq_add_one_of_ne_zero (by omega : levels ≠ 0)
    rw [depth_obj_le_iff] at hdepth
    have hfields : Tree.value?.fields? levels (toTree.fieldTrees fields) =
        some (reread.rereadFields fields) := by
      clear hpos sorted hsound
      induction fields with
      | nil => rfl
      | cons field rest ihrest =>
        obtain ⟨hfield, hrest⟩ := List.forall_mem_cons.1 hdepth
        rw [toTree.fieldTrees, Tree.value?.fields?, ih field List.mem_cons_self hfield,
          ihrest (fun other hmem => ih other (List.mem_cons_of_mem _ hmem)) hrest]
        rfl
    have hsorted : (reread.rereadFields fields).Pairwise fun a b => a.1 < b.1 := by
      rw [reread.rereadFields_eq_map]
      exact List.pairwise_map.2 sorted
    rw [toTree, Tree.value?, hfields, Option.map_some, ofRecord, Dict.entries_ofList hsorted,
      reread]

/-! ## What is read -/

theorem Literal.number?_cases {l : Literal} {value : Json} (h : l.number? = some value) :
    (∃ n : Int, value = .int n ∧ -2 ^ 63 ≤ n ∧ n < 2 ^ 64) ∨ ∃ x, value = .real x := by
  have hword : Text.wordLimit = 2 ^ 64 := rfl
  have hhalf : Nat.pow 2 63 = 2 ^ 63 := rfl
  unfold Literal.number? at h
  extract_lets whole isInteger at h
  split at h
  · next hfits =>
    obtain rfl := Option.some.inj h
    simp only [Bool.and_eq_true, decide_eq_true_eq] at hfits
    exact .inl ⟨whole, rfl, by omega, by omega⟩
  · split at h
    · next hfits =>
      obtain rfl := Option.some.inj h
      simp only [Bool.and_eq_true, decide_eq_true_eq] at hfits
      exact .inl ⟨-whole, rfl, by omega, by omega⟩
    · obtain ⟨x, -, rfl⟩ := Option.map_eq_some_iff.1 h
      exact .inr ⟨x, rfl⟩

mutual

/-- Whatever is read is sound and nested no deeper than the reader goes. -/
theorem sound_of_value? : ∀ (tree : Tree) {levels : Nat} {value : Json},
    tree.value? levels = some value → value.Sound ∧ value.depth ≤ levels
  | .null, levels, value, h => by
    cases h
    exact ⟨.null, Nat.zero_le _⟩
  | .bool b, levels, value, h => by
    cases h
    exact ⟨.bool b, Nat.zero_le _⟩
  | .number l, levels, value, h => by
    rcases Literal.number?_cases h with ⟨n, rfl, hn⟩ | ⟨x, rfl⟩
    · exact ⟨.int hn, Nat.zero_le _⟩
    · exact ⟨.real (Literal.isFinite_of_number? h), Nat.zero_le _⟩
  | .str text, levels, value, h => by
    obtain ⟨text, -, rfl⟩ := Option.map_eq_some_iff.1 h
    exact ⟨.str text, Nat.zero_le _⟩
  | .arr items, 0, value, h => nomatch h
  | .arr items, levels + 1, value, h => by
    obtain ⟨values, hvalues, rfl⟩ := Option.map_eq_some_iff.1 h
    have hall := sound_of_items? items hvalues
    exact ⟨.arr fun item hmem => (hall item hmem).1,
      depth_arr_le_iff.2 fun item hmem => (hall item hmem).2⟩
  | .obj fields, 0, value, h => nomatch h
  | .obj fields, levels + 1, value, h => by
    obtain ⟨values, hvalues, rfl⟩ := Option.map_eq_some_iff.1 h
    have hall := sound_of_fields? fields hvalues
    exact ⟨.obj (Dict.sorted _) fun field hmem => (hall field (Dict.mem_of_mem_ofList hmem)).1,
      depth_obj_le_iff.2 fun field hmem => (hall field (Dict.mem_of_mem_ofList hmem)).2⟩

theorem sound_of_items? : ∀ (items : List Tree) {levels : Nat} {values : List Json},
    Tree.value?.items? levels items = some values →
      ∀ value ∈ values, value.Sound ∧ value.depth ≤ levels
  | [], levels, values, h => by
    cases h
    exact nofun
  | item :: rest, levels, values, h => by
    obtain ⟨first, hfirst, h⟩ := Option.bind_eq_some_iff.1 h
    obtain ⟨others, hothers, h⟩ := Option.bind_eq_some_iff.1 h
    obtain rfl := Option.some.inj h
    exact List.forall_mem_cons.2 ⟨sound_of_value? item hfirst, sound_of_items? rest hothers⟩

theorem sound_of_fields? : ∀ (fields : List (Option String × Tree)) {levels : Nat}
    {values : List (String × Json)}, Tree.value?.fields? levels fields = some values →
      ∀ field ∈ values, field.2.Sound ∧ field.2.depth ≤ levels
  | [], levels, values, h => by
    cases h
    exact nofun
  | (key, item) :: rest, levels, values, h => by
    obtain ⟨name, -, h⟩ := Option.bind_eq_some_iff.1 h
    obtain ⟨first, hfirst, h⟩ := Option.bind_eq_some_iff.1 h
    obtain ⟨others, hothers, h⟩ := Option.bind_eq_some_iff.1 h
    obtain rfl := Option.some.inj h
    exact List.forall_mem_cons.2 ⟨sound_of_value? item hfirst, sound_of_fields? rest hothers⟩

end

mutual

/-- What is read from the content of a value is nested as deeply as the value. -/
theorem depth_le_of_value? : ∀ (value : Json) {levels : Nat} {read : Json},
    value.toTree.value? levels = some read → value.depth ≤ levels
  | .null, _, _, _ | .bool _, _, _, _ | .int _, _, _, _ | .real _, _, _, _ | .str _, _, _, _ =>
    Nat.zero_le _
  | .arr _, 0, _, h => nomatch h
  | .arr items, levels + 1, _, h => by
    obtain ⟨values, hvalues, -⟩ := Option.map_eq_some_iff.1 h
    exact depth_arr_le_iff.2 (depth_le_of_items? items hvalues)
  | .obj _, 0, _, h => nomatch h
  | .obj fields, levels + 1, _, h => by
    obtain ⟨values, hvalues, -⟩ := Option.map_eq_some_iff.1 h
    exact depth_obj_le_iff.2 (depth_le_of_fields? fields hvalues)

theorem depth_le_of_items? : ∀ (items : List Json) {levels : Nat} {values : List Json},
    Tree.value?.items? levels (toTree.itemTrees items) = some values →
      ∀ item ∈ items, item.depth ≤ levels
  | [], _, _, _ => nofun
  | item :: rest, levels, values, h => by
    obtain ⟨first, hfirst, h⟩ := Option.bind_eq_some_iff.1 h
    obtain ⟨others, hothers, -⟩ := Option.bind_eq_some_iff.1 h
    exact List.forall_mem_cons.2 ⟨depth_le_of_value? item hfirst, depth_le_of_items? rest hothers⟩

theorem depth_le_of_fields? : ∀ (fields : List (String × Json)) {levels : Nat}
    {values : List (String × Json)},
    Tree.value?.fields? levels (toTree.fieldTrees fields) = some values →
      ∀ field ∈ fields, field.2.depth ≤ levels
  | [], _, _, _ => nofun
  | (key, value) :: rest, levels, values, h => by
    obtain ⟨first, hfirst, h⟩ := Option.bind_eq_some_iff.1 h
    obtain ⟨others, hothers, -⟩ := Option.bind_eq_some_iff.1 h
    exact List.forall_mem_cons.2
      ⟨depth_le_of_value? value hfirst, depth_le_of_fields? rest hothers⟩

end

end Json

end Converge
