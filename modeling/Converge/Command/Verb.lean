/-!
# Verbs and switches

What the words of a command line can be.  Verbs form a tree with the program itself at its root; a
verb either has further verbs below it or takes operands.  Switches are known at every verb, apart
from one of `validate`.
-/

namespace Converge.Command

/-! ## Verbs -/

/-- What the program is asked to do; `fleet` is the program itself. -/
inductive Verb where
  | fleet
  | validate
  | nodes
  | listNodes
  | addNode
  | removeNode
  | plugins
  | channel
  | charm
  deriving DecidableEq

namespace Verb

/-- The word for a verb. -/
def name : Verb → String
  | .fleet => "fleet"
  | .validate => "validate"
  | .nodes => "nodes"
  | .listNodes => "list"
  | .addNode => "add"
  | .removeNode => "remove"
  | .plugins => "plugins"
  | .channel => "channel"
  | .charm => "charm"

/-- What a verb is for. -/
def about : Verb → String
  | .fleet => "Converges a fleet of machines onto a topology of applications"
  | .validate => "Validate the orchestrator configuration"
  | .nodes => "Manage cluster members in the membership store"
  | .listNodes => "List cluster nodes"
  | .addNode => "Register a node"
  | .removeNode => "Remove a node"
  | .plugins => "Show the stored state of plugins"
  | .channel => "Check whether moving between two channels is an update"
  | .charm => "Parse a charm URL into name and revision"

/-- The verbs below a verb. -/
def subverbs : Verb → List Verb
  | .fleet => [.validate, .nodes, .plugins, .channel, .charm]
  | .nodes => [.listNodes, .addNode, .removeNode]
  | _ => []

/-- Whether there are verbs below a verb. -/
def isGroup (verb : Verb) : Bool :=
  !verb.subverbs.isEmpty

/-- The verb below a verb that a word names. -/
def subverb? (verb : Verb) (word : String) : Option Verb :=
  verb.subverbs.find? (·.name = word)

/-- The word that asks for help, at a verb with others below it. -/
def helpWord : String := "help"

/-- The words that lead to a verb. -/
def path : Verb → List String
  | .listNodes => ["fleet", "nodes", "list"]
  | .addNode => ["fleet", "nodes", "add"]
  | .removeNode => ["fleet", "nodes", "remove"]
  | .fleet => ["fleet"]
  | verb => ["fleet", verb.name]

/-- What the operands of a verb stand for; each is required. -/
def operands : Verb → List String
  | .addNode => ["NAME", "MACHINE_ID"]
  | .removeNode => ["NAME"]
  | .plugins => ["NAMES"]
  | .channel => ["DEPLOYED", "TARGET"]
  | .charm => ["URL"]
  | _ => []

/-- Whether the last operand of a verb may be repeated. -/
def repeatsOperand : Verb → Bool
  | .plugins => true
  | _ => false

/-- Whether a verb takes an operand behind a number of others. -/
def takesOperand (verb : Verb) (given : Nat) : Bool :=
  verb.repeatsOperand || given < verb.operands.length

end Verb

/-! ## Switches -/

/-- A switch without a value. -/
inductive Flag where
  | verbose
  | logJson
  | warnings
  | help
  | version
  deriving DecidableEq

/-- A switch with a value. -/
inductive Setting where
  | config
  | output
  deriving DecidableEq

/-- What a word or a letter with a hyphen before it names. -/
inductive Switch where
  | flag (flag : Flag)
  | setting (setting : Setting)
  deriving DecidableEq

namespace Switch

/-- Every switch. -/
def all : List Switch :=
  [.setting .config, .flag .verbose, .flag .logJson, .setting .output, .flag .warnings,
    .flag .help, .flag .version]

theorem mem_all (switch : Switch) : switch ∈ all := by
  rcases switch with flag | setting
  · cases flag <;> decide
  · cases setting <;> decide

/-- The word for a switch, without the hyphens. -/
def name : Switch → String
  | .setting .config => "config"
  | .setting .output => "output"
  | .flag .verbose => "verbose"
  | .flag .logJson => "log-json"
  | .flag .warnings => "warnings"
  | .flag .help => "help"
  | .flag .version => "version"

/-- The letter for a switch. -/
def letter? : Switch → Option Char
  | .setting .config => some 'c'
  | .setting .output => none
  | .flag .verbose => some 'v'
  | .flag .logJson => none
  | .flag .warnings => some 'w'
  | .flag .help => some 'h'
  | .flag .version => some 'V'

/-- What a switch is for. -/
def about : Switch → String
  | .setting .config => "Path to the configuration file [env: FLEET_CONFIG=]"
  | .setting .output => "Output format (text, json)"
  | .flag .verbose => "Enable verbose output"
  | .flag .logJson => "Emit logs as JSON"
  | .flag .warnings => "Show all warnings, not just errors"
  | .flag .help => "Print help"
  | .flag .version => "Print version"

/-- Whether a switch is known at a verb. -/
def isKnownAt (verb : Verb) (switch : Switch) : Bool :=
  switch ≠ .flag .warnings || verb = .validate

/-- The switch with a name, at a verb. -/
def ofName? (verb : Verb) (name : String) : Option Switch :=
  all.find? fun switch => switch.isKnownAt verb && switch.name = name

/-- The switch with a letter, at a verb. -/
def ofLetter? (verb : Verb) (letter : Char) : Option Switch :=
  all.find? fun switch => switch.isKnownAt verb && switch.letter? = some letter

/-- A switch as it is written. -/
def text (switch : Switch) : String :=
  "--" ++ switch.name

end Switch

end Converge.Command
