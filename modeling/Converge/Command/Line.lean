import Converge.Command.Output
import Converge.Command.Usage
/-!
# Command lines

`Line.parse` reads the words of a command line.  Each verb on the line opens a level with the
switches behind it; a switch that a deeper level repeats wins there.  A level is settled from the
innermost outwards, so what is wrong at a deeper level is reported first.
-/

namespace Converge.Command

/-! ## Words -/

/-- What a word of a line is before it is known what it names. -/
inductive Word where
  /-- Two hyphens: what follows are operands. -/
  | terminator
  /-- A name behind two hyphens, with a value behind an equals sign. -/
  | long (name : String) (value : Option String)
  /-- Letters behind one hyphen. -/
  | letters (letters : List Char)
  | plain
  deriving DecidableEq

/-- What a word is by its hyphens; a hyphen alone is a plain word. -/
def Word.ofString (word : String) : Word :=
  match word.toList with
  | ['-', '-'] => .terminator
  | '-' :: '-' :: rest =>
    let value := rest.dropWhile (· ≠ '=')
    .long (String.ofList (rest.takeWhile (· ≠ '=')))
      (if value.isEmpty then none else some (String.ofList (value.drop 1)))
  | '-' :: letter :: rest => .letters (letter :: rest)
  | _ => .plain

/-! ## Options -/

/-- The switches of a level. -/
structure Options where
  config : Option String
  output : Option OutputFormat
  verbose : Bool
  logJson : Bool
  warnings : Bool
  deriving DecidableEq

namespace Options

/-- No switches. -/
def none : Options := ⟨.none, .none, false, false, false⟩

/-- The switches of a level within another. -/
def within (inner outer : Options) : Options where
  config := inner.config <|> outer.config
  output := inner.output <|> outer.output
  verbose := inner.verbose || outer.verbose
  logJson := inner.logJson || outer.logJson
  warnings := inner.warnings || outer.warnings

/-- Gives a value to a switch.  A path is not empty. -/
def give (options : Options) : Setting → String → Except UsageError Options
  | .config, path =>
    if options.config.isSome then .error (.repeatedSwitch (.setting .config))
    else if path = "" then .error (.invalidValue .config)
    else .ok { options with config := some path }
  | .output, name =>
    if options.output.isSome then .error (.repeatedSwitch (.setting .output))
    else match OutputFormat.ofName? name with
      | some format => .ok { options with output := some format }
      | .none => .error (.invalidValue .output)

/-- Raises a flag. -/
def raise (options : Options) (verb : Verb) (flag : Flag) : Except UsageError Options :=
  let once (raised : Bool) (options : Options) : Except UsageError Options :=
    if raised then .error (.repeatedSwitch (.flag flag)) else .ok options
  match flag with
  | .help => .error (.helpWanted verb)
  | .version => .error (.versionWanted verb)
  | .verbose => once options.verbose { options with verbose := true }
  | .logJson => once options.logJson { options with logJson := true }
  | .warnings => once options.warnings { options with warnings := true }

end Options

/-! ## Levels -/

/-- What a verb has been given so far. -/
structure Level where
  options : Options
  operands : List String
  /-- The switch at the end, with its value unless that is to follow. -/
  pending : Option (Setting × Option String)
  /-- Whether only operands follow. -/
  closed : Bool

namespace Level

/-- A verb that has been given nothing. -/
def empty : Level := ⟨.none, [], none, false⟩

/-- Whether the next word is the value of a switch. -/
def awaitsValue (level : Level) : Bool :=
  level.pending.any (·.2.isNone)

/-- Gives the switch at the end its value. -/
def settle (level : Level) : Except UsageError Level :=
  match level.pending with
  | none => .ok level
  | some (setting, none) => .error (.invalidValue setting)
  | some (setting, some value) => do
    return { level with options := ← level.options.give setting value, pending := none }

/-- Takes a flag. -/
def takeFlag (level : Level) (verb : Verb) (flag : Flag) : Except UsageError Level := do
  let level ← level.settle
  return { level with options := ← level.options.raise verb flag }

/-- Takes a switch with the value behind it in the same word, if there is one. -/
def takeSetting (level : Level) (setting : Setting) :
    Option String → Except UsageError Level
  | some value => do
    let level ← level.settle
    return { level with options := ← level.options.give setting value }
  | none => do
    let level ← level.settle
    return { level with pending := some (setting, none) }

/-- Takes a name behind two hyphens. -/
def takeLong (level : Level) (verb : Verb) (word name : String) (value : Option String) :
    Except UsageError Level :=
  match Switch.ofName? verb name, value with
  | none, _ => .error (.unexpectedWord word)
  | some (.flag flag), some _ => .error (.surplusValue flag)
  | some (.flag flag), none => level.takeFlag verb flag
  | some (.setting setting), value => level.takeSetting setting value

/-- The value behind the letter of a switch, without the equals sign that may stand before it. -/
def attached : List Char → Option String
  | [] => none
  | '=' :: rest => some (String.ofList rest)
  | rest => some (String.ofList rest)

/-- Takes letters behind a hyphen.  What follows the letter of a switch with a value is its
value. -/
def takeLetters (level : Level) (verb : Verb) (word : String) :
    List Char → Except UsageError Level
  | [] => .ok level
  | letter :: rest =>
    match Switch.ofLetter? verb letter with
    | none => .error (.unexpectedWord word)
    | some (.setting setting) => level.takeSetting setting (attached rest)
    | some (.flag flag) => do takeLetters (← level.takeFlag verb flag) verb word rest

/-- What is wrong with a word for which a verb has no use.  At a verb that has others below it the
word should have been one of these, unless it is, but stands behind two hyphens. -/
def surplus (level : Level) (verb : Verb) (word : String) : UsageError :=
  let isVerb := (verb.subverb? word).isSome || word = Verb.helpWord
  if verb.isGroup && !(level.closed && isVerb) then .unknownVerb word else .unexpectedWord word

/-- Takes an operand. -/
def takeOperand (level : Level) (verb : Verb) (word : String) : Except UsageError Level :=
  if verb.takesOperand level.operands.length then do
    let level ← level.settle
    return { level with operands := level.operands ++ [word] }
  else .error (level.surplus verb word)

/-- Takes a plain word: the value of the switch at the end if that awaits one, else an operand. -/
def takePlain (level : Level) (verb : Verb) (word : String) : Except UsageError Level :=
  match level.pending with
  | some (setting, none) => .ok { level with pending := some (setting, some word) }
  | _ => level.takeOperand verb word

/-- Takes a word that is no verb. -/
def take (level : Level) (verb : Verb) (word : String) : Except UsageError Level :=
  if level.closed then level.takeOperand verb word
  else match Word.ofString word with
    | .terminator => .ok { level with closed := true }
    | .long name value => level.takeLong verb word name value
    | .letters letters => level.takeLetters verb word letters
    | .plain => level.takePlain verb word

/-- Whether the next word may be a verb. -/
def takesVerb (level : Level) : Bool :=
  !level.closed && !level.awaitsValue

/-- Settles a level at its end; the ambient path is that of the environment, which counts where
the level has none, and must not be empty there. -/
def finish (level : Level) (ambient : Option String) : Except UsageError Level := do
  let level ← level.settle
  if level.options.config.isNone && ambient = some "" then throw (.invalidValue .config)
  return level

end Level

/-! ## Requests -/

/-- What a command line asks for. -/
inductive Request where
  | validate (warnings : Bool)
  | listNodes
  | addNode (node : Node)
  | removeNode (name : String)
  | plugins (names : List String)
  | channel (deployed target : String)
  | charm (url : String)
  deriving DecidableEq

namespace Request

/-- The request of a verb with its operands, if none is missing. -/
def ofVerb? (verb : Verb) (options : Options) (operands : List String) : Option Request :=
  match verb, operands with
  | .validate, [] => some (.validate options.warnings)
  | .listNodes, [] => some .listNodes
  | .addNode, [name, machine] => some (.addNode ⟨name, machine⟩)
  | .removeNode, [name] => some (.removeNode name)
  | .plugins, name :: names => some (.plugins (name :: names))
  | .channel, [deployed, target] => some (.channel deployed target)
  | .charm, [url] => some (.charm url)
  | _, _ => none

/-- The request of a verb at the end of a line. -/
def ofLevel (level : Level) (ambient : Option String) (verb : Verb) :
    Except UsageError Request :=
  if verb.isGroup then
    .error <|
      if level.options = .none && ambient.isNone then .nothingGiven verb else .missingVerb verb
  else
    match ofVerb? verb level.options level.operands with
    | some request => .ok request
    | none => .error (.missingOperand verb)

end Request

/-! ## Lines -/

/-- The verb on which words behind a request for help ask for it. -/
def helpOn (verb : Verb) : List String → UsageError
  | [] => .helpWanted verb
  | word :: rest =>
    match verb.subverb? word with
    | some subverb => helpOn subverb rest
    | none =>
      if verb.isGroup && word = Verb.helpWord && rest.isEmpty then .helpWanted verb
      else .unknownVerb (if word = Verb.helpWord then rest.headD word else word)

/-- Reads the words behind a verb: the request and the switches of all levels. -/
def readLevel (ambient : Option String) (verb : Verb) (level : Level) :
    List String → Except UsageError (Request × Options)
  | [] => do
    let level ← level.finish ambient
    return (← Request.ofLevel level ambient verb, level.options)
  | word :: rest =>
    match if level.takesVerb then verb.subverb? word else none with
    | some subverb => do
      let (request, options) ← readLevel ambient subverb .empty rest
      let level ← level.finish ambient
      return (request, options.within level.options)
    | none =>
      if level.takesVerb && verb.isGroup && word = Verb.helpWord then .error (helpOn verb rest)
      else do readLevel ambient verb (← level.take verb word) rest

/-- A command line that is understood. -/
structure Line where
  /-- The file of settings, if one is named. -/
  config : Option String
  verbose : Bool
  logJson : Bool
  output : OutputFormat
  request : Request

/-- Reads a command line.  The ambient path names the file of settings for a line that does
not. -/
def Line.parse (ambient : Option String) (words : List String) : Except UsageError Line := do
  let (request, options) ← readLevel ambient .fleet .empty words
  return {
    config := options.config <|> ambient
    verbose := options.verbose
    logJson := options.logJson
    output := options.output.getD .text
    request }

end Converge.Command
