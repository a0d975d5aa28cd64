/-!
# Dictionaries ordered by key

A dictionary keeps one value per key, in ascending order of the keys' code points.  The order is
part of the type, so two dictionaries with the same look-ups are equal (`ext_find?`).  Main
statements: `find?_insert`, `find?_erase`, and `insert_insert_of_ne` (writes under different keys
commute).
-/

namespace Converge

universe u v

/-- A finite map from text to values, as entries in ascending order of their keys. -/
structure Dict (α : Type u) where
  /-- The entries, each key once. -/
  entries : List (String × α)
  sorted : entries.Pairwise (fun a b => a.1 < b.1)
  deriving DecidableEq

namespace Dict

variable {α : Type u} {β : Type v}

/-- The dictionary without entries. -/
def empty : Dict α := ⟨[], .nil⟩

instance : Inhabited (Dict α) := ⟨empty⟩

/-! ## Entries in order -/

/-- Puts an entry at its place, over one of the same key. -/
def insertEntry (key : String) (value : α) : List (String × α) → List (String × α)
  | [] => [(key, value)]
  | entry :: rest =>
    if key < entry.1 then (key, value) :: entry :: rest
    else if key = entry.1 then (key, value) :: rest
    else entry :: insertEntry key value rest

private theorem lt_of_not_lt_of_ne {a b : String} (h : ¬ a < b) (hne : a ≠ b) : b < a := by
  rcases String.le_total a b with hab | hba
  · exact absurd (String.le_antisymm hab (String.not_lt.1 h)) hne
  · exact Decidable.byContradiction fun hlt =>
      hne (String.le_antisymm (String.not_lt.1 hlt) hba)

theorem mem_insertEntry {key : String} {value : α} {entries : List (String × α)}
    {entry : String × α} (h : entry ∈ insertEntry key value entries) :
    entry = (key, value) ∨ entry ∈ entries := by
  induction entries with
  | nil => exact .inl (List.mem_singleton.1 h)
  | cons head rest ih =>
    rw [insertEntry] at h
    split at h
    · exact List.mem_cons.1 h
    · split at h
      · exact (List.mem_cons.1 h).imp_right (List.mem_cons_of_mem _)
      · rcases List.mem_cons.1 h with rfl | h
        · exact .inr List.mem_cons_self
        · exact (ih h).imp_right (List.mem_cons_of_mem _)

theorem pairwise_insertEntry (key : String) (value : α) {entries : List (String × α)}
    (h : entries.Pairwise (fun a b => a.1 < b.1)) :
    (insertEntry key value entries).Pairwise (fun a b => a.1 < b.1) := by
  induction entries with
  | nil => simp [insertEntry]
  | cons head rest ih =>
    obtain ⟨hhead, hrest⟩ := List.pairwise_cons.1 h
    rw [insertEntry]
    split
    · next hlt =>
      refine List.pairwise_cons.2 ⟨fun entry hmem => ?_, h⟩
      rcases List.mem_cons.1 hmem with rfl | hmem
      · exact hlt
      · exact String.lt_trans hlt (hhead _ hmem)
    · next hlt =>
      split
      · next heq => exact List.pairwise_cons.2 ⟨fun entry hmem => heq ▸ hhead _ hmem, hrest⟩
      · next hne =>
        refine List.pairwise_cons.2 ⟨fun entry hmem => ?_, ih hrest⟩
        rcases mem_insertEntry hmem with rfl | hmem
        · exact lt_of_not_lt_of_ne hlt hne
        · exact hhead _ hmem

/-! ## Operations -/

/-- The value under a key. -/
def find? (d : Dict α) (key : String) : Option α :=
  d.entries.lookup key

/-- Puts a value under a key, over one that is there. -/
def insert (d : Dict α) (key : String) (value : α) : Dict α :=
  ⟨insertEntry key value d.entries, pairwise_insertEntry key value d.sorted⟩

/-- Takes a key out. -/
def erase (d : Dict α) (key : String) : Dict α :=
  ⟨d.entries.filter (·.1 ≠ key), d.sorted.filter _⟩

/-- The entries of a list; of several with one key the last is kept. -/
def ofList (entries : List (String × α)) : Dict α :=
  entries.foldl (fun d entry => d.insert entry.1 entry.2) empty

/-- The keys in ascending order. -/
def keys (d : Dict α) : List String :=
  d.entries.map (·.1)

/-- Whether there is an entry at all. -/
def isEmpty (d : Dict α) : Bool :=
  d.entries.isEmpty

/-- Applies a function to every value. -/
def map (f : α → β) (d : Dict α) : Dict β :=
  ⟨d.entries.map fun entry => (entry.1, f entry.2), List.pairwise_map.2 d.sorted⟩

/-! ## What is found after a write -/

@[simp] theorem find?_empty (key : String) : (empty : Dict α).find? key = none := rfl

theorem lookup_cons_ite (key : String) (entry : String × α) (rest : List (String × α)) :
    (entry :: rest).lookup key = if key = entry.1 then some entry.2 else rest.lookup key := by
  rw [List.lookup_cons]
  by_cases h : key = entry.1
  · simp [h]
  · rw [beq_eq_false_iff_ne.2 h, if_neg h]

theorem lookup_insertEntry (key : String) (value : α) (entries : List (String × α))
    (other : String) :
    (insertEntry key value entries).lookup other =
      if other = key then some value else entries.lookup other := by
  induction entries with
  | nil =>
    rw [insertEntry, lookup_cons_ite]
  | cons head rest ih =>
    rw [insertEntry]
    split
    · rw [lookup_cons_ite]
    · split
      · next heq =>
        simp only [lookup_cons_ite, ← heq]
        split <;> rfl
      · next hne =>
        simp only [lookup_cons_ite, ih]
        by_cases h : other = key
        · rw [if_pos h, if_pos h, if_neg (h ▸ hne)]
        · rw [if_neg h, if_neg h]

theorem find?_insert (d : Dict α) (key : String) (value : α) (other : String) :
    (d.insert key value).find? other = if other = key then some value else d.find? other :=
  lookup_insertEntry key value d.entries other

theorem find?_erase (d : Dict α) (key other : String) :
    (d.erase key).find? other = if other = key then none else d.find? other := by
  simp only [find?, erase]
  induction d.entries with
  | nil => simp
  | cons head rest ih =>
    by_cases hh : head.1 = key
    · rw [List.filter_cons_of_neg (by simpa using hh), ih]
      by_cases h : other = key
      · simp [h]
      · rw [lookup_cons_ite, if_neg h, if_neg h, if_neg (hh ▸ h)]
    · rw [List.filter_cons_of_pos (by simpa using hh), lookup_cons_ite, lookup_cons_ite, ih]
      by_cases h : other = head.1
      · rw [if_pos h, if_neg (h ▸ hh), if_pos h]
      · rw [if_neg h, if_neg h]

theorem find?_isSome {d : Dict α} {key : String} : (d.find? key).isSome ↔ key ∈ d.keys := by
  simp only [find?, keys]
  induction d.entries with
  | nil => simp
  | cons head rest ih =>
    rw [lookup_cons_ite]
    by_cases h : key = head.1
    · simp [h]
    · simp [h, ih]

theorem mem_keys_insert {d : Dict α} {key : String} {value : α} {other : String} :
    other ∈ (d.insert key value).keys ↔ other = key ∨ other ∈ d.keys := by
  rw [← find?_isSome, find?_insert, ← find?_isSome]
  split <;> simp_all

theorem mem_keys_ofList {entries : List (String × α)} {key : String} :
    key ∈ (ofList entries).keys ↔ ∃ entry ∈ entries, entry.1 = key := by
  have step : ∀ (rest : List (String × α)) (d : Dict α),
      key ∈ (rest.foldl (fun d entry => d.insert entry.1 entry.2) d).keys ↔
        key ∈ d.keys ∨ ∃ entry ∈ rest, entry.1 = key := by
    intro rest
    induction rest with
    | nil => simp
    | cons head rest ih =>
      intro d
      rw [List.foldl_cons, ih, mem_keys_insert]
      simp only [List.mem_cons, exists_eq_or_imp, eq_comm (a := key)]
      rw [or_assoc, or_left_comm]
  simpa [ofList, empty, keys] using step entries empty

theorem mem_of_mem_ofList {entries : List (String × α)} {entry : String × α}
    (h : entry ∈ (ofList entries).entries) : entry ∈ entries := by
  have step : ∀ (rest : List (String × α)) (d : Dict α),
      entry ∈ (rest.foldl (fun d entry => d.insert entry.1 entry.2) d).entries →
        entry ∈ d.entries ∨ entry ∈ rest := by
    intro rest
    induction rest with
    | nil => exact fun d hd => .inl hd
    | cons head rest ih =>
      intro d hd
      rcases ih (d.insert head.1 head.2) hd with hinsert | hrest
      · rcases mem_insertEntry hinsert with rfl | hmem
        · exact .inr List.mem_cons_self
        · exact .inl hmem
      · exact .inr (List.mem_cons_of_mem _ hrest)
  exact (step entries empty h).resolve_left (by simp [empty])

/-- Of several entries with one key the last counts. -/
theorem find?_ofList (entries : List (String × α)) (key : String) :
    (ofList entries).find? key = (entries.reverse.find? (·.1 = key)).map (·.2) := by
  have step : ∀ (rest : List (String × α)) (d : Dict α),
      (rest.foldl (fun d entry => d.insert entry.1 entry.2) d).find? key =
        ((rest.reverse.find? (·.1 = key)).map (·.2)).or (d.find? key) := by
    intro rest
    induction rest with
    | nil => exact fun d => rfl
    | cons head rest ih =>
      intro d
      rw [List.foldl_cons, ih, find?_insert, List.reverse_cons, List.find?_append]
      cases rest.reverse.find? (·.1 = key) with
      | some entry => rfl
      | none =>
        by_cases hkey : head.1 = key
        · simp [hkey]
        · simp [hkey, Ne.symm hkey]
  rw [ofList, step]
  simp [find?_empty]

/-! ## Entries that are in order -/

/-- An entry that comes after all others is put at the end. -/
theorem insertEntry_of_lt {key : String} (value : α) {entries : List (String × α)}
    (h : ∀ entry ∈ entries, entry.1 < key) :
    insertEntry key value entries = entries ++ [(key, value)] := by
  induction entries with
  | nil => rfl
  | cons head rest ih =>
    have hlt := h head List.mem_cons_self
    have hnot : ¬ key < head.1 := fun hgt => String.lt_irrefl _ (String.lt_trans hlt hgt)
    have hne : key ≠ head.1 := fun heq => String.lt_irrefl _ (heq ▸ hlt)
    rw [insertEntry, if_neg hnot, if_neg hne,
      ih fun entry hmem => h entry (List.mem_cons_of_mem _ hmem)]
    rfl

/-- Entries that are in order stay as they are. -/
theorem entries_ofList {entries : List (String × α)}
    (h : entries.Pairwise (fun a b => a.1 < b.1)) : (ofList entries).entries = entries := by
  have step : ∀ (rest : List (String × α)) (d : Dict α),
      (d.entries ++ rest).Pairwise (fun a b => a.1 < b.1) →
        (rest.foldl (fun d entry => d.insert entry.1 entry.2) d).entries = d.entries ++ rest := by
    intro rest
    induction rest with
    | nil => exact fun d _ => (List.append_nil _).symm
    | cons head rest ih =>
      intro d hd
      have hlt : ∀ entry ∈ d.entries, entry.1 < head.1 := fun entry hmem =>
        (List.pairwise_append.1 hd).2.2 entry hmem head List.mem_cons_self
      have hinsert : (d.insert head.1 head.2).entries = d.entries ++ [head] :=
        insertEntry_of_lt head.2 hlt
      rw [List.foldl_cons, ih _ (by rwa [hinsert, List.append_assoc]), hinsert, List.append_assoc]
      rfl
  exact step entries empty h

theorem ofList_entries (d : Dict α) : ofList d.entries = d := by
  cases d with
  | mk entries sorted =>
    have h := entries_ofList sorted
    generalize ofList entries = other at h
    cases other
    cases h
    rfl

/-- What is found under a key is the value of the entry with that key. -/
theorem find?_eq_some_iff {d : Dict α} {key : String} {value : α} :
    d.find? key = some value ↔ (key, value) ∈ d.entries := by
  have hsorted := d.sorted
  rw [find?]
  generalize d.entries = entries at hsorted
  induction entries with
  | nil => simp
  | cons head rest ih =>
    obtain ⟨hhead, hrest⟩ := List.pairwise_cons.1 hsorted
    rw [lookup_cons_ite, List.mem_cons]
    by_cases hkey : key = head.1
    · subst hkey
      have hnot : (head.1, value) ∉ rest := fun hmem =>
        String.lt_irrefl head.1 (hhead (head.1, value) hmem)
      rw [if_pos rfl, or_iff_left hnot, Option.some.injEq]
      exact ⟨fun h => by rw [← h], fun h => by rw [← h]⟩
    · have hne : (key, value) ≠ head := fun heq => hkey (by rw [← heq])
      rw [if_neg hkey, or_iff_right hne]
      exact ih hrest

/-! ## Look-ups determine a dictionary -/

private theorem lookup_eq_none_of_lt {key : String} {entries : List (String × α)}
    (h : ∀ entry ∈ entries, key < entry.1) : entries.lookup key = none := by
  induction entries with
  | nil => rfl
  | cons head rest ih =>
    have hlt := h head List.mem_cons_self
    have hne : key ≠ head.1 := fun heq => String.lt_irrefl _ (heq ▸ hlt)
    rw [lookup_cons_ite, if_neg hne]
    exact ih fun entry hmem => h entry (List.mem_cons_of_mem _ hmem)

private theorem entries_eq_of_lookup : ∀ {a b : List (String × α)},
    a.Pairwise (fun x y => x.1 < y.1) → b.Pairwise (fun x y => x.1 < y.1) →
    (∀ key, a.lookup key = b.lookup key) → a = b
  | [], [], _, _, _ => rfl
  | [], head :: rest, _, _, h => by
    have := h head.1
    simp [lookup_cons_ite] at this
  | head :: rest, [], _, _, h => by
    have := h head.1
    simp [lookup_cons_ite] at this
  | x :: xs, y :: ys, ha, hb, h => by
    obtain ⟨hx, hxs⟩ := List.pairwise_cons.1 ha
    obtain ⟨hy, hys⟩ := List.pairwise_cons.1 hb
    have below {k : String} {entry : String × α} {rest : List (String × α)}
        (hlt : k < entry.1) (hrest : ∀ e ∈ rest, entry.1 < e.1) :
        (entry :: rest).lookup k = none :=
      lookup_eq_none_of_lt fun e he => by
        rcases List.mem_cons.1 he with rfl | he
        · exact hlt
        · exact String.lt_trans hlt (hrest e he)
    have hkey : x.1 = y.1 := by
      refine Decidable.byContradiction fun hne => ?_
      by_cases hlt : x.1 < y.1
      · have := h x.1
        rw [below hlt hy] at this
        simp [lookup_cons_ite] at this
      · have := h y.1
        rw [below (lt_of_not_lt_of_ne hlt hne) hx] at this
        simp [lookup_cons_ite] at this
    have hval : x.2 = y.2 := by
      have := h x.1
      simpa [lookup_cons_ite, hkey] using this
    have hrest : xs = ys := entries_eq_of_lookup hxs hys fun key => by
      by_cases hk : key = x.1
      · rw [hk, lookup_eq_none_of_lt hx, lookup_eq_none_of_lt (hkey ▸ hy)]
      · have := h key
        rwa [lookup_cons_ite, if_neg hk, lookup_cons_ite, if_neg (hkey ▸ hk)] at this
    rw [hrest, Prod.ext hkey hval]

theorem ext_find? {a b : Dict α} (h : ∀ key, a.find? key = b.find? key) : a = b := by
  cases a with
  | mk entries sorted =>
    cases b with
    | mk entries' sorted' =>
      cases entries_eq_of_lookup sorted sorted' h
      rfl

theorem insert_insert_of_ne (d : Dict α) {key key' : String} (value value' : α)
    (h : key ≠ key') :
    (d.insert key value).insert key' value' = (d.insert key' value').insert key value :=
  ext_find? fun k => by
    simp only [find?_insert]
    by_cases hk : k = key
    · simp [hk, h]
    · simp [hk]

end Dict

end Converge
