import Converge.Text.Split
/-!
# Paths

A path is a text whose components stand between slashes.  Empty components and those of one dot
say nothing, except for a dot in front; two dots are a component like any other, so a parent is
found without looking at a disk.  Main definitions: `Path.join`, `Path.parent?` and
`Path.withExtension`.  Main statement: a parent is shorter than its path
(`length_lt_of_parent?`).
-/

namespace Converge.Path

/-! ## The two parts of a path -/

/-- What stands in front of a path's components: the slash of an absolute path, or the dot of one
that starts with a component of one dot. -/
def lead : List Char → List Char
  | '/' :: _ => ['/']
  | ['.'] => ['.']
  | '.' :: '/' :: _ => ['.']
  | _ => []

/-- What stands behind the lead. -/
def body (path : List Char) : List Char :=
  path.drop (lead path).length

/-- Cuts the last component off a body, with the slash in front of it. -/
def splitBody (body : List Char) : List Char × List Char :=
  (Text.splitLast '/' body).getD ([], body)

theorem length_splitBody_lt {body : List Char} (h : body ≠ []) :
    (splitBody body).1.length < body.length := by
  rw [splitBody]
  cases hcut : Text.splitLast '/' body with
  | none => simpa using List.length_pos_iff.2 h
  | some cut =>
    rw [Text.eq_append_of_splitLast hcut]
    simp only [Option.getD_some, List.length_append, List.length_cons]
    omega

/-- Drops the components at the end that say nothing. -/
def trimBody (body : List Char) : List Char :=
  if h : body = [] then []
  else
    let cut := splitBody body
    have : cut.1.length < body.length := length_splitBody_lt h
    if cut.2 = [] || cut.2 = ['.'] then trimBody cut.1 else body
termination_by body.length

theorem length_trimBody_le (body : List Char) : (trimBody body).length ≤ body.length := by
  induction body using trimBody.induct with
  | case1 => simp [trimBody]
  | case2 body h cut hlt hempty ih =>
    rw [trimBody, dif_neg h, if_pos hempty]
    exact Nat.le_trans ih (Nat.le_of_lt hlt)
  | case3 body h cut hlt hempty =>
    have heq : trimBody body = body := by rw [trimBody, dif_neg h, if_neg hempty]
    exact Nat.le_of_eq (congrArg List.length heq)

/-! ## Operations -/

/-- Whether a path starts at the root. -/
def isAbsolute (path : String) : Bool :=
  path.toList.head? = some '/'

/-- A path seen from a directory.  An absolute path stays as it is. -/
def join (directory path : String) : String :=
  if isAbsolute path || directory.isEmpty then path
  else if directory.toList.getLast? = some '/' then directory ++ path
  else directory ++ "/" ++ path

/-- The parent of a path given as characters. -/
def parentChars? (path : List Char) : Option (List Char) :=
  let rest := trimBody (body path)
  if rest ≠ [] then some (lead path ++ trimBody (splitBody rest).1)
  else if lead path = ['.'] then some []
  else none

/-- The path without its last component; a root and an empty path have none. -/
def parent? (path : String) : Option String :=
  (parentChars? path.toList).map String.ofList

/-- The last component, if it is the name of a file: neither two dots nor a dot in front. -/
def fileName? (path : List Char) : Option (List Char) :=
  match trimBody (body path) with
  | [] => none
  | rest =>
    let name := (splitBody rest).2
    if name = ['.', '.'] then none else some name

/-- A file's name up to its last dot, and what stands behind it; a dot in front does not count. -/
def splitName (name : List Char) : List Char × Option (List Char) :=
  match Text.splitLast '.' name with
  | some ([], _) | none => (name, none)
  | some (stem, extension) => (stem, some extension)

/-- What stands behind the last dot of the file name. -/
def extension? (path : List Char) : Option (List Char) :=
  (fileName? path).bind fun name => (splitName name).2

/-- Puts an extension behind the stem of the file name, where what stood behind it is dropped.  A
path without a file name stays as it is. -/
def setExtension (path extension : List Char) : List Char :=
  match fileName? path with
  | none => path
  | some name =>
    let trimmed := lead path ++ trimBody (body path)
    trimmed.take (trimmed.length - name.length) ++ (splitName name).1 ++ '.' :: extension

/-- The path with another extension.  The old one is cut off first, as many characters from the end
as it has, and where no file name is left then, there is none to give the new extension to. -/
def withExtension (path extension : String) : String :=
  let s := path.toList
  let cut := s.take (s.length - ((extension? s).getD []).length)
  String.ofList (setExtension cut extension.toList)

/-! ## Lengths -/

theorem length_lead_add_body (path : List Char) :
    (lead path).length + (body path).length = path.length := by
  have : (lead path).length ≤ path.length := by
    rw [lead.eq_def]
    split <;> simp
  simp only [body, List.length_drop]
  omega

theorem length_lt_of_parentChars? {path parent : List Char}
    (h : parentChars? path = some parent) : parent.length < path.length := by
  have hlen := length_lead_add_body path
  simp only [parentChars?] at h
  split at h
  · next hne =>
    cases h
    have htrim := length_trimBody_le (body path)
    have hcut := length_splitBody_lt hne
    have := length_trimBody_le (splitBody (trimBody (body path))).1
    simp only [List.length_append]
    omega
  · split at h
    · next hlead =>
      cases h
      rw [hlead] at hlen
      simp only [List.length_cons, List.length_nil] at hlen ⊢
      omega
    · simp at h

theorem length_lt_of_parent? {path parent : String} (h : parent? path = some parent) :
    parent.length < path.length := by
  obtain ⟨chars, hchars, rfl⟩ := Option.map_eq_some_iff.1 h
  simpa [← String.length_toList] using length_lt_of_parentChars? hchars

/-! ## Ancestors -/

/-- A path and the directories above it, from the path up. -/
def ancestors (path : String) : List String :=
  path ::
    match h : parent? path with
    | some parent =>
      have : parent.length < path.length := length_lt_of_parent? h
      ancestors parent
    | none => []
termination_by path.length

theorem ancestors_of_none {path : String} (h : parent? path = none) : ancestors path = [path] := by
  rw [ancestors]
  split
  · next hsome => cases h.symm.trans hsome
  · rfl

theorem ancestors_of_some {path parent : String} (h : parent? path = some parent) :
    ancestors path = path :: ancestors parent := by
  rw [ancestors]
  split
  · next hsome => rw [Option.some.inj (h.symm.trans hsome)]
  · next hnone => cases h.symm.trans hnone

theorem head?_ancestors (path : String) : (ancestors path).head? = some path := by
  rw [ancestors]
  rfl

end Converge.Path
