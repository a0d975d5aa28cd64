import Converge.DotEnv.Load
import Converge.Settings.Overrides
import Converge.Settings.Text
/-!
# Loading settings

Finds the file of settings in a directory or above it, reads it, and lets the environment win over
it.
-/

namespace Converge.Settings

variable {m : Type → Type} [Monad m]

/-! ## Finding the file -/

/-- The names that a file of settings may have; the first wins within a directory. -/
def fileNames : List String :=
  ["fleet.yaml", "fleet.yml"]

/-- The file that is looked for when none is found. -/
def preferredName : String := "fleet.yaml"

/-- Where a file of settings may be, seen from a directory: there, then in the directories above
it. -/
def candidates (start : String) : List String :=
  (Path.ancestors start).flatMap fun directory => fileNames.map (Path.join directory)

/-- The first of some paths that is on a disk. -/
def firstPresent (disk : Disk m) : List String → m (Option String)
  | [] => return none
  | path :: rest => do
    if ← disk.isPresent path then return some path else firstPresent disk rest

/-- The nearest file of settings, from a directory upwards, if there is one. -/
def nearestFile? (disk : Disk m) (start : String) : m (Option String) :=
  firstPresent disk (candidates start)

/-- The nearest file of settings, from a directory upwards. -/
def findFile (disk : Disk m) (start : String) : ExceptT Error m String := do
  match ← (nearestFile? disk start : m (Option String)) with
  | some path => return path
  | none => throw (.configNotFound (Path.join start preferredName))

/-! ## Reading -/

/-- Reads settings from a text; the source is where it comes from. -/
def parse (text : String) (source : Option String) : Except Error Settings :=
  match ofText? text with
  | some settings => .ok settings
  | none => .error (.configUnreadable "YAML parse error: not a document of settings" source)

/-- Reads a file of settings. -/
def loadFile (disk : Disk m) (path : String) : ExceptT Error m Settings := do
  if !(← disk.isPresent path) then throw (.configNotFound path)
  let text ← (disk.readText path).adapt fun e =>
    .configUnreadable ("Failed to read file: " ++ e.message) (some path)
  MonadExcept.ofExcept (parse text (some path))

/-- Lets the environment win over settings. -/
def override (environment : Environment m) (settings : Settings) : ExceptT Error m Settings := do
  let overrides ← (Overrides.ofEnvironment environment : m Overrides)
  match overrides.apply settings with
  | (settings, .ok ()) => return settings
  | (_, .error e) => throw e

/-- Reads a file of settings and lets the environment win over it. -/
def loadWithOverrides (disk : Disk m) (environment : Environment m) (path : String) :
    ExceptT Error m Settings := do
  override environment (← loadFile disk path)

/-- Loads the environment file in a directory, if there is one. -/
def loadDotEnv (disk : Disk m) (environment : Environment m) (directory : String) :
    ExceptT Error m Unit := do
  let path := Path.join directory ".env"
  if ← disk.isPresent path then
    (DotEnv.load disk environment path).adapt fun e =>
      .configUnreadable ("Failed to load .env file: " ++ e.message) (some path)

/-- The directory where data is kept, as an environment has it. -/
def dataDirectoryOf (environment : Environment m) : m String := do
  return dataDirectory (← environment.path? "XDG_DATA_HOME") (← environment.path? "HOME")
    (← environment.accountHome)

end Converge.Settings
