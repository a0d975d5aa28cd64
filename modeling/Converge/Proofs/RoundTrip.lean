import Converge.Proofs.Numeral
import Converge.Proofs.Quotation
/-!
# Written values

Main statement: what is printed for a value, in a style whose line breaks are blank, is read back as
the value's content (`readValue_render`), so a whole text is (`ofText?_compact` and
`ofText?_pretty`).
-/

namespace Converge.Json

/-! ## The content of a text -/

/-- The content of the text of a value. -/
def toTree : Json → Tree
  | .null => .null
  | .bool b => .bool b
  | .int n => .number (.ofInt n)
  | .real x => .number x.literal
  | .str text => .str (some text)
  | .arr items => .arr (itemTrees items)
  | .obj fields => .obj (fieldTrees fields)
where
  /-- The content of items. -/
  itemTrees : List Json → List Tree
    | [] => []
    | item :: rest => item.toTree :: itemTrees rest
  /-- The content of fields. -/
  fieldTrees : List (String × Json) → List (Option String × Tree)
    | [] => []
    | (key, value) :: rest => (some key, value.toTree) :: fieldTrees rest

theorem toTree.itemTrees_eq_map (items : List Json) : itemTrees items = items.map toTree := by
  induction items with
  | nil => rfl
  | cons item rest ih => rw [itemTrees, ih, List.map_cons]

theorem toTree.fieldTrees_eq_map (fields : List (String × Json)) :
    fieldTrees fields = fields.map fun field => (some field.1, field.2.toTree) := by
  induction fields with
  | nil => rfl
  | cons field rest ih => rw [fieldTrees, ih, List.map_cons]

/-! ## Blanks -/

/-- Nothing but blanks. -/
def IsBlank (s : List Char) : Prop :=
  ∀ c ∈ s, isSpace c

/-- A style that puts nothing but blanks between tokens. -/
structure Style.IsBlank (style : Style) : Prop where
  lineBreak : ∀ level, Json.IsBlank (style.lineBreak level)
  afterColon : Json.IsBlank style.afterColon

theorem Style.isBlank_compact : Style.compact.IsBlank :=
  ⟨fun _ => nofun, nofun⟩

theorem Style.isBlank_pretty : Style.pretty.IsBlank where
  lineBreak level c hc := by
    rcases List.mem_cons.1 hc with rfl | hc
    · rfl
    · rw [List.eq_of_mem_replicate hc]
      rfl
  afterColon c hc := by
    rw [List.mem_singleton.1 hc]
    rfl

theorem skipSpace_append {blank : List Char} (h : IsBlank blank) (s : List Char) :
    skipSpace (blank ++ s) = skipSpace s :=
  List.dropWhile_append_of_pos h

theorem skipSpace_cons {c : Char} (h : isSpace c = false) (s : List Char) :
    skipSpace (c :: s) = c :: s := by
  rw [skipSpace, List.dropWhile_cons, h]
  rfl

theorem readValue_append {blank : List Char} (h : IsBlank blank) (fuel : Nat) (s : List Char) :
    readValue fuel (blank ++ s) = readValue fuel s := by
  cases fuel with
  | zero => rfl
  | succ fuel => rw [readValue, readValue, skipSpace_append h]

theorem readFields_append {blank : List Char} (h : IsBlank blank) (fuel : Nat) (s : List Char) :
    readFields fuel (blank ++ s) = readFields fuel s := by
  cases fuel with
  | zero => rfl
  | succ fuel => rw [readFields, readFields, skipSpace_append h]

/-- A blank ends a number, and so does what stands behind blanks. -/
theorem endsNumber_append {blank rest : List Char} (h : IsBlank blank) (hrest : EndsNumber rest) :
    EndsNumber (blank ++ rest) := by
  cases blank with
  | nil => exact hrest
  | cons c blank =>
    refine endsNumber_cons ?_
    have hspace := h c List.mem_cons_self
    simp only [isSpace, Bool.or_eq_true, decide_eq_true_eq] at hspace
    rcases hspace with ((rfl | rfl) | rfl) | rfl <;> decide

/-! ## First characters -/

/-- A character that a number begins with begins nothing else. -/
theorem ne_of_beginsNumber {c : Char} (h : Text.isDigit c ∨ c = '-') :
    ∀ other ∈ ['n', 't', 'f', '"', '[', '{', ']', '}', ' ', '\n', '\t', '\r'], c ≠ other := by
  rintro other hother rfl
  simp only [List.mem_cons, List.not_mem_nil, or_false] at hother
  rcases hother with rfl | rfl | rfl | rfl | rfl | rfl | rfl | rfl | rfl | rfl | rfl | rfl <;>
    rcases h with h | h <;> cases h

theorem readValue_number {c : Char} (h : Text.isDigit c ∨ c = '-') (fuel : Nat) (s : List Char) :
    readValue (fuel + 1) (c :: s) =
      (readNumber (c :: s)).map fun (literal, rest) => (.number literal, rest) := by
  have hne := ne_of_beginsNumber h
  have hspace : isSpace c = false := by simp [isSpace, hne]
  rw [readValue, skipSpace_cons hspace]
  split
  · next heq => exact absurd (List.cons.inj heq).1 (hne 'n' (by simp))
  · next heq => exact absurd (List.cons.inj heq).1 (hne 't' (by simp))
  · next heq => exact absurd (List.cons.inj heq).1 (hne 'f' (by simp))
  · next heq => exact absurd (List.cons.inj heq).1 (hne '"' (by simp))
  · next heq => exact absurd (List.cons.inj heq).1 (hne '[' (by simp))
  · next heq => exact absurd (List.cons.inj heq).1 (hne '{' (by simp))
  · rfl

theorem Literal.Valid.exists_cons {l : Literal} (h : l.Valid) :
    ∃ c rest, l.text = c :: rest ∧ (Text.isDigit c ∨ c = '-') := by
  obtain ⟨d, tail, hcons⟩ := List.exists_cons_of_ne_nil h.digits.ne_nil
  rw [Literal.text, hcons]
  cases l.negative with
  | true => exact ⟨'-', _, rfl, .inr rfl⟩
  | false => exact ⟨d, _, rfl, .inl (h.digits.isDigit d (by rw [hcons]; exact List.mem_cons_self))⟩

/-- What is printed for a value begins neither with a blank nor with a closing bracket. -/
theorem exists_cons_render (style : Style) (level : Nat) (value : Json) :
    ∃ c rest, render style level value = c :: rest ∧ isSpace c = false ∧ c ≠ ']' := by
  have hnumber : ∀ {l : Literal}, l.Valid →
      ∃ c rest, l.text = c :: rest ∧ isSpace c = false ∧ c ≠ ']' := by
    intro l hl
    obtain ⟨c, rest, htext, hc⟩ := hl.exists_cons
    have hne := ne_of_beginsNumber hc
    exact ⟨c, rest, htext, by simp [isSpace, hne], hne ']' (by simp)⟩
  match value with
  | .null => exact ⟨'n', _, rfl, by decide⟩
  | .bool true => exact ⟨'t', _, rfl, by decide⟩
  | .bool false => exact ⟨'f', _, rfl, by decide⟩
  | .int n =>
    rw [render, integerText_eq]
    exact hnumber (Literal.valid_ofInt n)
  | .real x =>
    rw [render, Double.text_eq]
    exact hnumber x.valid_literal
  | .str text => exact ⟨'"', _, rfl, by decide⟩
  | .arr [] => exact ⟨'[', _, rfl, by decide⟩
  | .arr (_ :: _) => exact ⟨'[', _, rfl, by decide⟩
  | .obj [] => exact ⟨'{', _, rfl, by decide⟩
  | .obj (_ :: _) => exact ⟨'{', _, rfl, by decide⟩

/-! ## Reading what is printed -/

theorem readValue_literal {l : Literal} (h : l.Valid) (fuel : Nat) {rest : List Char}
    (hrest : EndsNumber rest) :
    readValue (fuel + 1) (l.text ++ rest) = some (.number l, rest) := by
  obtain ⟨c, tail, htext, hc⟩ := h.exists_cons
  have hread := h.readNumber_text hrest
  rw [htext, List.cons_append] at hread ⊢
  rw [readValue_number hc, hread]
  rfl

theorem readValue_quote (text : String) (fuel : Nat) (rest : List Char) :
    readValue (fuel + 1) (quote text ++ rest) = some (.str (some text), rest) := by
  have hread := readString_quote text rest
  have hquote : quote text ++ rest = '"' :: (text.toList.flatMap escape ++ '"' :: rest) := by
    simp [quote]
  rw [hquote, readValue, skipSpace_cons (by decide)]
  simp only [hread, Option.map_some]

theorem readValue_items {c : Char} {s tail : List Char} (h : skipSpace s = c :: tail) (hc : c ≠ ']')
    (fuel : Nat) :
    readValue (fuel + 1) ('[' :: s) =
      (readItems fuel s).map fun (items, rest) => (.arr items, rest) := by
  rw [readValue, skipSpace_cons (by decide)]
  simp only [h]
  split
  · next heq => exact absurd (List.cons.inj heq).1 hc
  · rfl

theorem readValue_fields {c : Char} {s tail : List Char} (h : skipSpace s = c :: tail)
    (hc : c ≠ '}') (fuel : Nat) :
    readValue (fuel + 1) ('{' :: s) =
      (readFields fuel s).map fun (fields, rest) => (.obj fields, rest) := by
  rw [readValue, skipSpace_cons (by decide)]
  simp only [h]
  split
  · next heq => exact absurd (List.cons.inj heq).1 hc
  · rfl

/-- What is read behind the value of a field: more fields, or the closing brace. -/
def readFieldsAfter (fuel : Nat) (field : Option String × Tree) (s : List Char) :
    Option (List (Option String × Tree) × List Char) :=
  match skipSpace s with
  | ',' :: rest => (readFields fuel rest).map fun (fields, rest) => (field :: fields, rest)
  | '}' :: rest => some ([field], rest)
  | _ => none

/-- A field is read up to what follows its value. -/
theorem readFields_field {blank afterColon s rest : List Char} (key : String) {value : Tree}
    {fuel : Nat} (hblank : IsBlank blank) (hcolon : IsBlank afterColon)
    (hvalue : readValue fuel s = some (value, rest)) :
    readFields (fuel + 1) (blank ++ (quote key ++ ':' :: (afterColon ++ s))) =
      readFieldsAfter fuel (some key, value) rest := by
  have hquote : quote key ++ ':' :: (afterColon ++ s) =
      '"' :: (key.toList.flatMap escape ++ '"' :: ':' :: (afterColon ++ s)) := by
    simp [quote]
  rw [readFields_append hblank, hquote, readFields, skipSpace_cons (by decide)]
  simp only [readString_quote, skipSpace_cons (show isSpace ':' = false by decide),
    readValue_append hcolon, hvalue]
  rfl

/-! ### Lists -/

theorem renderItems_singleton (style : Style) (level : Nat) (item : Json) :
    render.renderItems style level [item] = style.lineBreak level ++ render style level item := by
  rw [render.renderItems]

theorem renderItems_cons_cons (style : Style) (level : Nat) (item next : Json) (items : List Json) :
    render.renderItems style level (item :: next :: items) =
      style.lineBreak level ++ (render style level item ++
        ',' :: render.renderItems style level (next :: items)) := by
  rw [render.renderItems, List.append_assoc]
  exact List.cons_ne_nil _ _

theorem renderFields_singleton (style : Style) (level : Nat) (key : String) (value : Json) :
    render.renderFields style level [(key, value)] =
      style.lineBreak level ++
        (quote key ++ ':' :: (style.afterColon ++ render style level value)) := by
  simp [render.renderFields]

theorem renderFields_cons_cons (style : Style) (level : Nat) (key : String) (value : Json)
    (next : String × Json) (fields : List (String × Json)) :
    render.renderFields style level ((key, value) :: next :: fields) =
      style.lineBreak level ++ (quote key ++ ':' :: (style.afterColon ++
        (render style level value ++
          ',' :: render.renderFields style level (next :: fields)))) := by
  simp [render.renderFields]

theorem exists_skipSpace_renderItems {style : Style} (hstyle : style.IsBlank) (level : Nat)
    (item : Json) (items : List Json) (rest : List Char) : ∃ c tail,
      skipSpace (render.renderItems style level (item :: items) ++ rest) = c :: tail ∧ c ≠ ']' := by
  obtain ⟨c, tail, hrender, hspace, hne⟩ := exists_cons_render style level item
  cases items with
  | nil =>
    rw [renderItems_singleton, hrender, List.append_assoc,
      skipSpace_append (hstyle.lineBreak level)]
    exact ⟨c, _, skipSpace_cons hspace _, hne⟩
  | cons next items =>
    rw [renderItems_cons_cons, hrender, List.append_assoc,
      skipSpace_append (hstyle.lineBreak level)]
    exact ⟨c, _, skipSpace_cons hspace _, hne⟩

theorem exists_skipSpace_renderFields {style : Style} (hstyle : style.IsBlank) (level : Nat)
    (field : String × Json) (fields : List (String × Json)) (rest : List Char) : ∃ tail,
      skipSpace (render.renderFields style level (field :: fields) ++ rest) = '"' :: tail := by
  cases fields with
  | nil =>
    rw [renderFields_singleton, List.append_assoc, skipSpace_append (hstyle.lineBreak level)]
    exact ⟨_, skipSpace_cons (by decide) _⟩
  | cons next fields =>
    rw [renderFields_cons_cons, List.append_assoc, skipSpace_append (hstyle.lineBreak level)]
    exact ⟨_, skipSpace_cons (by decide) _⟩

section

variable {style : Style} (hstyle : style.IsBlank)
include hstyle

mutual

/-- What is printed for a value is read as its content, given twice its length as fuel. -/
theorem readValue_render (value : Json) (level fuel : Nat) (rest : List Char)
    (hfuel : 2 * (render style level value).length ≤ fuel) (hrest : EndsNumber rest) :
    readValue fuel (render style level value ++ rest) = some (value.toTree, rest) := by
  have hpos : 0 < (render style level value).length := by
    obtain ⟨c, tail, hrender, -⟩ := exists_cons_render style level value
    rw [hrender]
    exact Nat.succ_pos _
  obtain ⟨fuel, rfl⟩ : ∃ n, fuel = n + 1 := ⟨fuel - 1, by omega⟩
  match value, hfuel with
  | .null, _ => rfl
  | .bool true, _ => rfl
  | .bool false, _ => rfl
  | .int n, _ =>
    rw [render, integerText_eq]
    exact readValue_literal (Literal.valid_ofInt n) fuel hrest
  | .real x, _ =>
    rw [render, Double.text_eq]
    exact readValue_literal x.valid_literal fuel hrest
  | .str text, _ => exact readValue_quote text fuel rest
  | .arr [], _ => rfl
  | .obj [], _ => rfl
  | .arr (item :: items), hfuel =>
    have hrender : render style level (.arr (item :: items)) =
        '[' :: (render.renderItems style (level + 1) (item :: items) ++
          (style.lineBreak level ++ [']'])) := by
      simp [render]
    rw [hrender] at hfuel ⊢
    have hitems := readItems_render (item :: items) (level + 1) fuel (style.lineBreak level) rest
      (List.cons_ne_nil _ _) (hstyle.lineBreak level) (by simp at hfuel; omega)
    obtain ⟨c, tail, hhead, hne⟩ := exists_skipSpace_renderItems hstyle (level + 1) item items
      (style.lineBreak level ++ ']' :: rest)
    rw [List.cons_append, List.append_assoc, List.append_assoc, List.singleton_append,
      readValue_items hhead hne, hitems]
    rfl
  | .obj (field :: fields), hfuel =>
    have hrender : render style level (.obj (field :: fields)) =
        '{' :: (render.renderFields style (level + 1) (field :: fields) ++
          (style.lineBreak level ++ ['}'])) := by
      simp [render]
    rw [hrender] at hfuel ⊢
    have hfields := readFields_render (field :: fields) (level + 1) fuel
      (style.lineBreak level) rest (List.cons_ne_nil _ _) (hstyle.lineBreak level)
      (by simp at hfuel; omega)
    obtain ⟨tail, hhead⟩ := exists_skipSpace_renderFields hstyle (level + 1) field fields
      (style.lineBreak level ++ '}' :: rest)
    rw [List.cons_append, List.append_assoc, List.append_assoc, List.singleton_append,
      readValue_fields hhead (by decide), hfields]
    rfl

/-- The same of items and the closing bracket. -/
theorem readItems_render (items : List Json) (level fuel : Nat) (blank rest : List Char)
    (hne : items ≠ []) (hblank : IsBlank blank)
    (hfuel : 2 * (render.renderItems style level items).length + 1 ≤ fuel) :
    readItems fuel (render.renderItems style level items ++ (blank ++ ']' :: rest)) =
      some (toTree.itemTrees items, rest) := by
  obtain ⟨fuel, rfl⟩ : ∃ n, fuel = n + 1 := ⟨fuel - 1, by omega⟩
  match items, hfuel with
  | [item], hfuel =>
    rw [render.renderItems] at hfuel ⊢
    have hitem := readValue_render item level fuel (blank ++ ']' :: rest)
      (by simp at hfuel; omega) (endsNumber_append hblank (endsNumber_cons (by decide)))
    rw [List.append_assoc, readItems, readValue_append (hstyle.lineBreak level), hitem]
    simp only [skipSpace_append hblank, skipSpace_cons (show isSpace ']' = false by decide)]
    rfl
  | item :: next :: items, hfuel =>
    rw [renderItems_cons_cons] at hfuel ⊢
    have hitem := readValue_render item level fuel
      (',' :: (render.renderItems style level (next :: items) ++ (blank ++ ']' :: rest)))
      (by simp at hfuel; omega) (endsNumber_cons (by decide))
    have hitems := readItems_render (next :: items) level fuel blank rest (List.cons_ne_nil _ _)
      hblank (by simp at hfuel; omega)
    rw [List.append_assoc, List.append_assoc, List.cons_append, readItems,
      readValue_append (hstyle.lineBreak level), hitem]
    simp only [skipSpace_cons (show isSpace ',' = false by decide), hitems]
    rfl

/-- The same of fields and the closing brace. -/
theorem readFields_render (fields : List (String × Json)) (level fuel : Nat)
    (blank rest : List Char) (hne : fields ≠ []) (hblank : IsBlank blank)
    (hfuel : 2 * (render.renderFields style level fields).length + 1 ≤ fuel) :
    readFields fuel (render.renderFields style level fields ++ (blank ++ '}' :: rest)) =
      some (toTree.fieldTrees fields, rest) := by
  obtain ⟨fuel, rfl⟩ : ∃ n, fuel = n + 1 := ⟨fuel - 1, by omega⟩
  match fields, hfuel with
  | [(key, value)], hfuel =>
    rw [renderFields_singleton] at hfuel ⊢
    have hvalue := readValue_render value level fuel (blank ++ '}' :: rest)
      (by simp at hfuel; omega) (endsNumber_append hblank (endsNumber_cons (by decide)))
    -- behind the last field only blanks and the brace are left
    have hfield := readFields_field key (hstyle.lineBreak level) hstyle.afterColon hvalue
    rw [readFieldsAfter, skipSpace_append hblank, skipSpace_cons (by decide)] at hfield
    simpa [toTree.fieldTrees] using hfield
  | (key, value) :: next :: fields, hfuel =>
    rw [renderFields_cons_cons] at hfuel ⊢
    have hvalue := readValue_render value level fuel
      (',' :: (render.renderFields style level (next :: fields) ++ (blank ++ '}' :: rest)))
      (by simp at hfuel; omega) (endsNumber_cons (by decide))
    have hfields := readFields_render (next :: fields) level fuel blank rest (List.cons_ne_nil _ _)
      hblank (by simp at hfuel; omega)
    have hfield := readFields_field key (hstyle.lineBreak level) hstyle.afterColon hvalue
    rw [readFieldsAfter, skipSpace_cons (by decide)] at hfield
    simp only [hfields] at hfield
    simpa [toTree.fieldTrees] using hfield

end

end

/-! ### Whole texts -/

theorem ofText?_ofList_render {style : Style} (hstyle : style.IsBlank) (value : Json) :
    Tree.ofText? (String.ofList (render style 0 value)) = some value.toTree := by
  have hread := readValue_render hstyle value 0 (2 * (render style 0 value).length + 2) []
    (Nat.le_add_right _ 2) endsNumber_nil
  rw [List.append_nil] at hread
  unfold Tree.ofText?
  simp only [String.toList_ofList, hread]
  rfl

theorem ofText?_compact (value : Json) : Tree.ofText? value.compact = some value.toTree :=
  ofText?_ofList_render Style.isBlank_compact value

theorem ofText?_pretty (value : Json) : Tree.ofText? value.pretty = some value.toTree :=
  ofText?_ofList_render Style.isBlank_pretty value

end Converge.Json
