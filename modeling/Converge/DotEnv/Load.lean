import Converge.Dict
import Converge.Disk.Basic
import Converge.DotEnv.Assignment
import Converge.Environment
/-!
# Loading environment files

A file's assignments are put into the environment in order.  A variable that is set already stays
as it is, so the environment wins over the file and an earlier line over a later one.
-/

namespace Converge.DotEnv

variable {m : Type → Type} [Monad m]

/-- What a name stands for in a value: the variable of the environment, or else what the file has
given it so far. -/
def lookUp (environment : Environment m) (given : Dict String) (name : String) : m String := do
  match ← environment.valueOf? name with
  | some value => return value
  | none => return (given.find? name).getD ""

/-- The text of a value. -/
def expand (environment : Environment m) (given : Dict String) : List Part → m (List Char)
  | [] => return []
  | .char c :: rest => return c :: (← expand environment given rest)
  | .reference name :: rest => do
    let value ← lookUp environment given (String.ofList name)
    return value.toList ++ (← expand environment given rest)

/-- Puts assignments into the environment. -/
def assign (environment : Environment m) (given : Dict String) : List Assignment → m Unit
  | [] => return ()
  | assignment :: rest => do
    let value := String.ofList (← expand environment given assignment.value)
    if (← environment.find? assignment.key).isNone then
      environment.set assignment.key value
    assign environment (given.insert assignment.key value) rest

/-- The text of the longest run of whole lines within the first bytes of a file. -/
def wholeLines (bytes : ByteArray) : Nat → String
  | 0 => ""
  | size + 1 =>
    let text? := if bytes[size]? = some 10 then String.fromUTF8? (bytes.extract 0 (size + 1))
      else none
    text?.getD (wholeLines bytes size)

/-- The assignments of a file up to the first line that breaks the rules or is no text, and
whether none does. -/
def assignments : Content → List Assignment × Bool
  | .text text => parse text
  | .binary bytes => ((parse (wholeLines bytes bytes.size)).1, false)

/-- Loads the file at a path, and tells whether all of it was read. -/
def load (disk : Disk m) (environment : Environment m) (path : String) :
    ExceptT DiskError m Unit := do
  let (assignments, ok) := assignments (← disk.read path)
  (assign environment .empty assignments : m Unit)
  if !ok then throw (.other "a line is no assignment")

end Converge.DotEnv
