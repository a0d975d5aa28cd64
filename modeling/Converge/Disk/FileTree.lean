import Converge.Disk.Basic
import Converge.Text.Split
/-!
# A file tree in memory

A disk whose state is a value: which directories and files there are, and the directory that
relative paths start from.  Names are followed one by one, so that two dots lead to the directory
above the one that was reached.
-/

namespace Converge

/-- What a name stands for. -/
inductive DiskEntry where
  | directory
  | file (content : Content)

/-- The place of an entry: the names that lead to it from the root. -/
abbrev Location := List String

/-- The state of a disk. -/
structure FileTree where
  /-- The entries below the root, each place once. -/
  entries : List (Location × DiskEntry)
  /-- The directory that relative paths start from. -/
  workingDir : Location

namespace FileTree

/-- A disk with nothing on it. -/
def empty : FileTree :=
  ⟨[], []⟩

instance : Inhabited FileTree := ⟨empty⟩

/-! ## Entries -/

/-- The entry at a place.  The root is always there. -/
def stored? (tree : FileTree) (location : Location) : Option DiskEntry :=
  if location.isEmpty then some .directory else tree.entries.lookup location

/-- Puts an entry at a place. -/
def put (tree : FileTree) (location : Location) (entry : DiskEntry) : FileTree :=
  { tree with entries := (location, entry) :: tree.entries.filter (·.1 ≠ location) }

/-- Takes the entry at a place away. -/
def remove (tree : FileTree) (location : Location) : FileTree :=
  { tree with entries := tree.entries.filter (·.1 ≠ location) }

theorem lookup_filter_ne {location other : Location} (h : other ≠ location)
    (entries : List (Location × DiskEntry)) :
    (entries.filter (·.1 ≠ location)).lookup other = entries.lookup other := by
  induction entries with
  | nil => rfl
  | cons head rest ih =>
    by_cases hhead : head.1 = location
    · have hother : (other == head.1) = false := beq_eq_false_iff_ne.2 (hhead ▸ h)
      rw [List.filter_cons_of_neg (by simpa using hhead), ih, List.lookup_cons, hother]
    · rw [List.filter_cons_of_pos (by simpa using hhead), List.lookup_cons, List.lookup_cons, ih]

theorem stored?_put_self {location : Location} (h : location ≠ []) (tree : FileTree)
    (entry : DiskEntry) : (tree.put location entry).stored? location = some entry := by
  rw [stored?, if_neg (by simpa using h), put, List.lookup_cons, beq_self_eq_true]

theorem stored?_put_of_ne {location other : Location} (h : other ≠ location) (tree : FileTree)
    (entry : DiskEntry) : (tree.put location entry).stored? other = tree.stored? other := by
  have hother : (other == location) = false := beq_eq_false_iff_ne.2 h
  simp only [stored?, put, List.lookup_cons, hother, lookup_filter_ne h]

theorem stored?_remove_self {location : Location} (h : location ≠ []) (tree : FileTree) :
    (tree.remove location).stored? location = none := by
  rw [stored?, if_neg (by simpa using h), remove]
  induction tree.entries with
  | nil => rfl
  | cons head rest ih =>
    by_cases hhead : head.1 = location
    · rw [List.filter_cons_of_neg (by simpa using hhead), ih]
    · have hlocation : (location == head.1) = false := beq_eq_false_iff_ne.2 (Ne.symm hhead)
      rw [List.filter_cons_of_pos (by simpa using hhead), List.lookup_cons, hlocation, ih]

theorem stored?_remove_of_ne {location other : Location} (h : other ≠ location)
    (tree : FileTree) : (tree.remove location).stored? other = tree.stored? other := by
  simp only [stored?, remove, lookup_filter_ne h]

/-! ## Following a path -/

/-- The names in a path, the empty ones between slashes included. -/
def names (path : String) : List String :=
  (Text.splitAll '/' path.toList).map String.ofList

/-- The longest name that an entry may have, in bytes. -/
def maxNameSize : Nat := 255

/-- The longest path, in bytes. -/
def maxPathSize : Nat := 4095

/-- Makes sure that a place is a directory. -/
def expectDirectory (tree : FileTree) (location : Location) : Except DiskError Unit :=
  match tree.stored? location with
  | some .directory => return ⟨⟩
  | some (.file _) => throw .notDirectory
  | none => throw .notFound

/-- Follows names from a place.  Every name is looked up in a directory. -/
def walk (tree : FileTree) (location : Location) : List String → Except DiskError Location
  | [] => return location
  | name :: rest => do
    tree.expectDirectory location
    if name = "" || name = "." then tree.walk location rest
    else if name = ".." then tree.walk location.dropLast rest
    else if name.utf8ByteSize > maxNameSize then throw .nameTooLong
    else tree.walk (location ++ [name]) rest

/-- Where a path starts. -/
def startOf (tree : FileTree) (path : String) : Location :=
  if path.toList.head? = some '/' then [] else tree.workingDir

/-- The place that a path leads to, whether or not there is an entry. -/
def locate (tree : FileTree) (path : String) : Except DiskError Location :=
  if path.isEmpty then throw .notFound
  else if path.utf8ByteSize > maxPathSize then throw .nameTooLong
  else if '\x00' ∈ path.toList then
    throw (.other "file name contained an unexpected NUL byte")
  else tree.walk (tree.startOf path) (names path)

/-! ## Operations -/

/-- Whether there is an entry. -/
def isPresent (tree : FileTree) (path : String) : Bool :=
  match tree.locate path with
  | .ok location => (tree.stored? location).isSome
  | .error _ => false

/-- The content of a file. -/
def read (tree : FileTree) (path : String) : Except DiskError Content := do
  match tree.stored? (← tree.locate path) with
  | some (.file content) => return content
  | some .directory => throw .isDirectory
  | none => throw .notFound

/-- Makes the directories that names lead through, as far as they are missing. -/
def createDirsFrom (tree : FileTree) (location : Location) :
    List String → FileTree × Except DiskError Unit
  | [] => (tree, return ⟨⟩)
  | name :: rest =>
    if name = "" || name = "." then tree.createDirsFrom location rest
    else if name = ".." then tree.createDirsFrom location.dropLast rest
    else if name.utf8ByteSize > maxNameSize then (tree, throw .nameTooLong)
    else
      let next := location ++ [name]
      match tree.stored? next with
      | some .directory => tree.createDirsFrom next rest
      | some (.file _) => (tree, throw (if rest.isEmpty then .alreadyExists else .notDirectory))
      | none => (tree.put next .directory).createDirsFrom next rest

/-- Makes a directory and those above it. -/
def createDirs (tree : FileTree) (path : String) : FileTree × Except DiskError Unit :=
  if path.utf8ByteSize > maxPathSize then (tree, throw .nameTooLong)
  else if '\x00' ∈ path.toList then
    (tree, throw (.other "file name contained an unexpected NUL byte"))
  else tree.createDirsFrom (tree.startOf path) (names path)

/-- Makes an empty file, or empties one. -/
def create (tree : FileTree) (path : String) : Except DiskError FileTree := do
  let location ← tree.locate path
  match tree.stored? location with
  | some .directory => throw .isDirectory
  | _ => return tree.put location (.file (.text ""))

/-- Writes a text at the end of a file. -/
def write (tree : FileTree) (path text : String) : Except DiskError FileTree := do
  let location ← tree.locate path
  match tree.stored? location with
  | some (.file (.text old)) => return tree.put location (.file (.text (old ++ text)))
  | some (.file (.binary old)) =>
    return tree.put location (.file (.ofBytes (old ++ text.toUTF8)))
  | some .directory => throw .isDirectory
  | none => throw .notFound

/-- Moves a file. -/
def rename (tree : FileTree) (path target : String) : Except DiskError FileTree := do
  let source ← tree.locate path
  let location ← tree.locate target
  match tree.stored? source with
  | some (.file content) =>
    match tree.stored? location with
    | some .directory => throw .isDirectory
    | _ => return (tree.remove source).put location (.file content)
  | some .directory => throw .isDirectory
  | none => throw .notFound

/-! ## Operations on files -/

section

variable {tree : FileTree} {path : String} {location : Location} {content : Content}

theorem read_eq (hlocation : tree.locate path = .ok location)
    (h : tree.stored? location = some (.file content)) : tree.read path = .ok content := by
  unfold read
  rw [hlocation]
  show (match tree.stored? location with
    | some (.file content) => _
    | some .directory => _
    | none => _) = _
  rw [h]
  rfl

theorem create_eq (hlocation : tree.locate path = .ok location)
    (h : tree.stored? location ≠ some .directory) :
    tree.create path = .ok (tree.put location (.file (.text ""))) := by
  unfold create
  rw [hlocation]
  show (match tree.stored? location with
    | some .directory => _
    | _ => _) = _
  split
  · next hdirectory => exact absurd hdirectory h
  · rfl

theorem write_eq {old : String} (hlocation : tree.locate path = .ok location)
    (h : tree.stored? location = some (.file (.text old))) (text : String) :
    tree.write path text = .ok (tree.put location (.file (.text (old ++ text)))) := by
  unfold write
  rw [hlocation]
  show (match tree.stored? location with
    | some (.file (.text old)) => _
    | some (.file (.binary old)) => _
    | some .directory => _
    | none => _) = _
  rw [h]
  rfl

theorem rename_eq {target : String} {place : Location} (hlocation : tree.locate path = .ok location)
    (hplace : tree.locate target = .ok place) (h : tree.stored? location = some (.file content))
    (hnot : tree.stored? place ≠ some .directory) :
    tree.rename path target = .ok ((tree.remove location).put place (.file content)) := by
  unfold rename
  rw [hlocation, hplace]
  show (match tree.stored? location with
    | some (.file content) => _
    | some .directory => _
    | none => _) = _
  rw [h]
  show (match tree.stored? place with
    | some .directory => _
    | _ => _) = _
  split
  · next hdirectory => exact absurd hdirectory hnot
  · rfl

end

/-! ## The disk of a state -/

variable {σ : Type}

/-- Runs an operation on the tree within a state. -/
def within (get : σ → FileTree) (set : FileTree → σ → σ) {α : Type}
    (operation : FileTree → FileTree × Except DiskError α) : ExceptT DiskError (StateM σ) α :=
  fun state =>
    let (tree, result) := operation (get state)
    (result, set tree state)

/-- An operation that changes the tree only when it succeeds. -/
def commit (operation : FileTree → Except DiskError FileTree) (tree : FileTree) :
    FileTree × Except DiskError Unit :=
  match operation tree with
  | .ok next => (next, return ⟨⟩)
  | .error e => (tree, throw e)

/-- The disk that a tree within a state makes up. -/
def disk (get : σ → FileTree) (set : FileTree → σ → σ) : Disk (StateM σ) where
  isPresent path := fun state => ((get state).isPresent path, state)
  read path := within get set fun tree => (tree, tree.read path)
  createDirs path := within get set fun tree => tree.createDirs path
  create path := within get set (commit fun tree => tree.create path)
  write path text := within get set (commit fun tree => tree.write path text)
  sync path := within get set fun tree => (tree, (tree.read path).map fun _ => ⟨⟩)
  rename path target := within get set (commit fun tree => tree.rename path target)

end FileTree

end Converge
