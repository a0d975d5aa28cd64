import Converge.Command.Line
import Converge.Membership.FileStore
import Converge.Plugin.Lifecycle
import Converge.Settings.Load
/-!
# Running commands

`run` follows a command line on a disk and in an environment.  What it shows and the code it exits
with are its value, a `Response`.  A command that needs the store opens it with settings that have
passed validation (`openStore`), so that nothing is read from a store or written to it under
settings that break a rule.
-/

namespace Converge.Command

/-- What a run of the program leaves behind on its terminal. -/
structure Response where
  /-- The exit code. -/
  code : Nat
  output : String
  diagnostics : String
  deriving DecidableEq

variable {m : Type → Type} [Monad m]

/-! ## Settings -/

/-- The file of settings: the one that is named, or the nearest from the working directory
upwards. -/
def settingsPath (disk : Disk m) : Option String → ExceptT Error m String
  | some path => return path
  | none => Settings.findFile disk "."

/-- Reads a file of settings.  The environment file beside it is loaded first, and the environment
wins over the file. -/
def loadSettings (disk : Disk m) (environment : Environment m) (path : String) :
    ExceptT Error m Settings := do
  Settings.loadDotEnv disk environment ((Path.parent? path).getD ".")
  Settings.loadWithOverrides disk environment path

/-- The settings for a file that is named, or else for the nearest; where there is none, those of
the environment. -/
def settingsFor (disk : Disk m) (environment : Environment m) (config : Option String) :
    ExceptT Error m Settings := do
  match config with
  | some path => loadSettings disk environment path
  | none =>
    match ← (Settings.nearestFile? disk "." : m (Option String)) with
    | some path => loadSettings disk environment path
    | none => Settings.override environment .standard

/-- The path of the store under settings. -/
def storePath (environment : Environment m) (settings : Settings) : m String := do
  return settings.store.resolvedPath (← Settings.dataDirectoryOf environment)

/-- The store that valid settings name. -/
def openStore (disk : Disk m) (environment : Environment m) (config : Option String) :
    ExceptT Error m Membership.FileStore := do
  let settings ← settingsFor disk environment config
  let _ ← (MonadExcept.ofExcept settings.check : ExceptT Error m Settings.Validation)
  return ⟨← (storePath environment settings : m String)⟩

/-! ## Commands -/

/-- A success that shows something. -/
def shown (text : String) : Response :=
  ⟨0, text, ""⟩

/-- A success that is only noted. -/
def noted (text : String) : Response :=
  ⟨0, "", text ++ "\n"⟩

/-- The style of what is shown; the environment has a say on colours. -/
def outputStyle (environment : Environment m) (isTerminal : Bool) (format : OutputFormat) :
    m OutputStyle := do
  let wishes : Terminal.ColourWishes := {
    forced := ← environment.find? "CLICOLOR_FORCE"
    refused := ← environment.find? "NO_COLOR"
    wanted := ← environment.find? "CLICOLOR" }
  return ⟨format, wishes.grant isTerminal⟩

/-- Checks the settings and shows what was found. -/
def validate (disk : Disk m) (environment : Environment m) (config : Option String)
    (style : m OutputStyle) (warnings : Bool) : ExceptT Error m Response := do
  let settings ← loadSettings disk environment (← settingsPath disk config)
  let found ← (MonadExcept.ofExcept settings.check : ExceptT Error m Settings.Validation)
  let path ← (storePath environment settings : m String)
  return shown ((← (style : m OutputStyle)).validation found settings path warnings)

/-- The states of plugins, each with its name. -/
def pluginStates (store : MembershipStore m) :
    List String → ExceptT Error m (List (String × Plugin.State))
  | [] => return []
  | name :: names => do
    let state ← Plugin.stateOf store name
    return (name, state) :: (← pluginStates store names)

/-- Does what a line asks for. -/
def perform (disk : Disk m) (environment : Environment m) (config : Option String)
    (style : m OutputStyle) : Request → ExceptT Error m Response
  | .validate warnings => validate disk environment config style warnings
  | .listNodes => do
    let store ← openStore disk environment config
    let nodes ← (store.toStore disk).nodes
    return shown ((← (style : m OutputStyle)).nodes nodes)
  | .addNode node => do
    let store ← openStore disk environment config
    store.addNode disk node
    return noted "Node added."
  | .removeNode name => do
    let store ← openStore disk environment config
    store.removeNode disk name
    return noted "Node removed."
  | .plugins names => do
    let store ← openStore disk environment config
    let plugins ← pluginStates (store.toStore disk) names
    return shown ((← (style : m OutputStyle)).plugins plugins)
  | .channel deployed target => do
    return shown ((← (style : m OutputStyle)).channelCheck deployed target)
  | .charm url => do
    return shown ((← (style : m OutputStyle)).charm (Charm.parse url))

/-! ## Runs -/

/-- What is left behind for a line that is not followed: an answer that was asked for, or an
error. -/
def UsageError.response (e : UsageError) : Response :=
  if e.isAnswer then shown e.text else ⟨2, "", e.text⟩

/-- What is left behind for an error. -/
def failed (e : Error) : Response :=
  ⟨1, "", "Error: " ++ e.message ++ "\n"⟩

/-- Runs the program with the words of a command line. -/
def run (disk : Disk m) (environment : Environment m) (isTerminal : Bool) (words : List String) :
    m Response := do
  match Line.parse (← environment.path? "FLEET_CONFIG") words with
  | .error e => return e.response
  | .ok line =>
    let style := outputStyle environment isTerminal line.output
    match ← (perform disk environment line.config style line.request).run with
    | .ok response => return response
    | .error e => return failed e

end Converge.Command
