import Converge.Text.Digits
import Converge.Text.Split
/-!
# Accounts

The home directory of an account, from what a POSIX system tells: the table of its accounts, with
seven fields to a line, and the state of a process, which names the account that runs it.
-/

namespace Converge.Account

/-- The first number behind the title of a line. -/
def numberBehind? (title : String) (line : List Char) : Option Nat :=
  if title.toList.isPrefixOf line then
    match (Text.splitAll '\t' line).drop 1 with
    | number :: _ => Text.natOfDigits? 10 number
    | [] => none
  else none

/-- The number of the account that runs a process, from the state of the process. -/
def number? (status : String) : Option Nat :=
  (Text.splitAll '\n' status.toList).findSome? (numberBehind? "Uid:")

/-- The home directory that a line of the table gives an account. -/
def homeIn? (number : Nat) (line : List Char) : Option String :=
  match Text.splitAll ':' line with
  | [_, _, account, _, _, home, _] =>
    if Text.natOfDigits? 10 account = some number then some (String.ofList home) else none
  | _ => none

/-- The home directory of the account that runs a process. -/
def home? (status accounts : String) : Option String := do
  let number ← number? status
  (Text.splitAll '\n' accounts.toList).findSome? (homeIn? number)

end Converge.Account
