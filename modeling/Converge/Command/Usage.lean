import Converge.Command.Verb
/-!
# Help, and what is wrong with a command line

`UsageError` is a reason not to do what a line asks for: the line asks for help, or it breaks the
grammar.  `help` is the text that describes a verb.
-/

namespace Converge.Command

/-- The version of the program. -/
def version : String := "0.1.0"

/-! ## Help -/

/-- Text in a column of a width, followed by another. -/
def column (width : Nat) (left right : String) : String :=
  "  " ++ left ++ String.ofList (List.replicate (width - left.length) ' ') ++ "  " ++ right ++ "\n"

/-- A titled list of pairs; nothing when there are none. -/
def titled (title : String) (rows : List (String × String)) : String :=
  if rows.isEmpty then ""
  else
    let width := rows.foldl (fun width row => max width row.1.length) 0
    "\n" ++ title ++ ":\n" ++ String.join (rows.map fun row => column width row.1 row.2)

/-- A switch as help shows it. -/
def switchText (switch : Switch) : String :=
  let letter := match switch.letter? with
    | some letter => String.ofList ['-', letter] ++ ", "
    | none => "    "
  let value := match switch with
    | .setting setting => " <" ++ (Switch.setting setting).name.toUpper ++ ">"
    | .flag _ => ""
  letter ++ switch.text ++ value

/-- The operands of a verb as its usage shows them. -/
def operandText (verb : Verb) : String :=
  String.join (verb.operands.map fun operand => " <" ++ operand ++ ">") ++
    if verb.repeatsOperand then "..." else ""

/-- The line that tells how a verb is used. -/
def usage (verb : Verb) : String :=
  "Usage: " ++ " ".intercalate verb.path ++ " [OPTIONS]" ++
    (if verb.isGroup then " <COMMAND>" else operandText verb) ++ "\n"

/-- What a verb is for, and the words that may follow it. -/
def help (verb : Verb) : String :=
  let verbs := verb.subverbs.map fun subverb => (subverb.name, subverb.about)
  let helpRow := (Verb.helpWord, "Print this message or the help of a command")
  verb.about ++ "\n\n" ++ usage verb ++
    titled "Commands" (if verb.isGroup then verbs ++ [helpRow] else []) ++
    titled "Options"
      ((Switch.all.filter (·.isKnownAt verb)).map fun switch => (switchText switch, switch.about))

/-- The line that tells the version, at a verb. -/
def versionText (verb : Verb) : String :=
  "-".intercalate verb.path ++ " " ++ version ++ "\n"

/-! ## Errors -/

/-- Why a line is not followed. -/
inductive UsageError where
  /-- Help on a verb is asked for. -/
  | helpWanted (verb : Verb)
  /-- The version is asked for. -/
  | versionWanted (verb : Verb)
  /-- A verb that needs another below it stands alone, without any switch. -/
  | nothingGiven (verb : Verb)
  /-- A verb that needs another below it has switches only. -/
  | missingVerb (verb : Verb)
  | unknownVerb (word : String)
  /-- A word that is no switch of its verb, or one operand too many. -/
  | unexpectedWord (word : String)
  /-- A switch without its value, or with one that it cannot have. -/
  | invalidValue (setting : Setting)
  /-- A value for a switch that has none. -/
  | surplusValue (flag : Flag)
  /-- A switch that is given twice at one verb. -/
  | repeatedSwitch (switch : Switch)
  | missingOperand (verb : Verb)
  deriving DecidableEq

namespace UsageError

/-- What is wrong, in one line. -/
def message : UsageError → String
  | .helpWanted _ => "help is asked for"
  | .versionWanted _ => "the version is asked for"
  | .nothingGiven verb => "'" ++ " ".intercalate verb.path ++ "' requires a subcommand"
  | .missingVerb verb =>
    "'" ++ " ".intercalate verb.path ++ "' requires a subcommand but one was not provided"
  | .unknownVerb word => "unrecognized subcommand '" ++ word ++ "'"
  | .unexpectedWord word => "unexpected argument '" ++ word ++ "' found"
  | .invalidValue setting => "no valid value for '" ++ (Switch.setting setting).text ++ "'"
  | .surplusValue flag => "unexpected value for '" ++ (Switch.flag flag).text ++ "'"
  | .repeatedSwitch switch =>
    "the argument '" ++ switch.text ++ "' cannot be used multiple times"
  | .missingOperand verb =>
    "the following required arguments were not provided:" ++ operandText verb

/-- Whether an error is an answer that was asked for. -/
def isAnswer : UsageError → Bool
  | .helpWanted _ => true
  | .versionWanted _ => true
  | _ => false

/-- What is shown for an error. -/
def text : UsageError → String
  | .helpWanted verb => help verb
  | .versionWanted verb => versionText verb
  | .nothingGiven verb => help verb
  | e => "error: " ++ e.message ++ "\n\nFor more information, try '--help'.\n"

end UsageError

end Converge.Command
