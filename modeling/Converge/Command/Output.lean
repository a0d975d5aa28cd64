import Converge.Charm
import Converge.Json.Render
import Converge.Plugin.Record
import Converge.Settings.Validation
import Converge.Terminal.Paint
import Converge.Terminal.Table
import Converge.Topology
import Converge.Update
/-!
# What the command line prints

Each answer has a form for a reader and a JSON form for a program.  An `OutputStyle` says which of
the two is wanted, and whether the former has colours.
-/

namespace Converge.Command

/-- The form of an answer. -/
inductive OutputFormat where
  | text
  | json
  deriving DecidableEq

/-- The name of a form. -/
def OutputFormat.name : OutputFormat → String
  | .text => "text"
  | .json => "json"

/-- The form with a name. -/
def OutputFormat.ofName? (name : String) : Option OutputFormat :=
  [OutputFormat.text, .json].find? (·.name = name)

/-- How answers are printed. -/
structure OutputStyle where
  format : OutputFormat
  colours : Bool

namespace OutputStyle

/-- The JSON form or the form for a reader. -/
def choose (style : OutputStyle) (json : Json) (text : String) : String :=
  match style.format with
  | .json => json.pretty
  | .text => text

/-- A painted text. -/
def paint (style : OutputStyle) (paint : Terminal.Paint) (text : String) : String :=
  Terminal.paint style.colours paint text

/-- The decimal digits of a number. -/
def digits (n : Nat) : String :=
  String.ofList (Text.decimal n)

/-- A table and the end of its last line. -/
def tableText (rows : List (List String)) : String :=
  Terminal.table rows ++ "\n"

/-- The nodes of the cluster. -/
def nodes (style : OutputStyle) (nodes : List Node) : String :=
  style.choose (.arr (nodes.map Node.toJson)) <|
    if nodes.isEmpty then "No nodes registered.\n"
    else tableText (["Name", "Machine"] :: nodes.map fun node => [node.name, node.machine])

/-- The JSON form of a plugin's state. -/
def pluginJson (name : String) (state : Plugin.State) : Json :=
  .obj (("name", .str name) :: state.toFields)

/-- The row of a plugin. -/
def pluginRow (style : OutputStyle) (name : String) (state : Plugin.State) : List String :=
  [name, if state.enabled then style.paint .green "yes" else style.paint .dimmed "no",
    state.version.getD "-", (state.updatedAt.map Timestamp.writeBrief).getD "-"]

/-- The states of plugins. -/
def plugins (style : OutputStyle) (plugins : List (String × Plugin.State)) : String :=
  style.choose (.arr (plugins.map fun (name, state) => pluginJson name state)) <|
    tableText (["Plugin", "Enabled", "Version", "Updated"] ::
      plugins.map fun (name, state) => style.pluginRow name state)

/-- Whether a move from a channel to another is an update. -/
def channelCheck (style : OutputStyle) (deployed target : String) : String :=
  let needed := channelUpdateNeeded deployed target
  let move := " " ++ deployed ++ " -> " ++ target
  style.choose
    (.obj [("deployed", .str deployed), ("target", .str target), ("update_needed", .bool needed)])
    (if needed then style.paint .green "↑" ++ move ++ " is an update\n"
      else style.paint .yellow "=" ++ move ++ " needs no update\n")

/-- A charm. -/
def charm (style : OutputStyle) (charm : Charm) : String :=
  style.choose
    (.obj [("name", .str charm.name),
      ("revision", match charm.revision with
        | some revision => .int revision
        | none => .null)])
    ("Charm: " ++ style.paint .bold charm.name ++ "\nRevision: " ++
      (charm.revision.map digits).getD "none" ++ "\n")

/-- What validation has found, with the settings; the store's path is given resolved. -/
def validation (style : OutputStyle) (found : Settings.Validation) (settings : Settings)
    (storePath : String) (showWarnings : Bool) : String :=
  let warnings :=
    if showWarnings && !found.warnings.isEmpty then
      "\nWarnings:\n" ++
        String.join (found.warnings.map fun warning =>
          "  " ++ style.paint .yellow "!" ++ " " ++ warning ++ "\n")
    else ""
  style.choose
    (.obj [("valid", .bool found.isValid), ("warnings", .ofStrings found.warnings),
      ("config", settings.toJson)])
    (style.paint .green "✓" ++ " Configuration is valid\n" ++ warnings ++
      "\nStore: " ++ storePath ++
      "\nTimeouts: deploy " ++ digits settings.timeouts.deploy ++
      "s, unit " ++ digits settings.timeouts.unit ++
      "s, upgrade " ++ digits settings.timeouts.upgrade ++
      "s\nRetry: " ++ digits settings.retry.maxAttempts ++ " attempts, " ++
      digits settings.retry.pause ++ "s pause\n")

end OutputStyle

end Converge.Command
