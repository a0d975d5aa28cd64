import Converge.Account
import Converge.Command.Run
/-!
# The program

The disk and the environment of the machine that the program runs on, and the program itself.
-/

namespace Converge.Main

/-- Why an operation of the machine's disk has failed. -/
def diskError : IO.Error → DiskError
  | .noFileOrDirectory .. => .notFound
  | .alreadyExists .. => .alreadyExists
  | e => .other (toString e)

/-- Runs an operation of the machine's disk. -/
def attempt {α : Type} (operation : IO α) : ExceptT DiskError IO α := do
  match ← operation.toBaseIO with
  | .ok value => return value
  | .error e => throw (diskError e)

/-- Whether there is a file or a directory at a path. -/
def isPresent (path : String) : IO Bool := do
  match ← (IO.FS.realPath path).toBaseIO with
  | .ok _ => return true
  | .error _ => return false

/-- The machine's disk. -/
def disk : Disk IO where
  isPresent := isPresent
  read path := attempt do return Content.ofBytes (← IO.FS.readBinFile path)
  createDirs path := attempt (IO.FS.createDirAll path)
  create path := attempt (IO.FS.withFile path .write fun _ => return ⟨⟩)
  write path text := attempt (IO.FS.withFile path .append fun handle => handle.putStr text)
  sync path := attempt (IO.FS.withFile path .append fun handle => handle.flush)
  rename path target := attempt (IO.FS.rename path target)

/-- The home directory that the system keeps for the account, if it tells. -/
def accountHome : IO (Option String) := do
  try
    let status ← IO.FS.readFile "/proc/self/status"
    let accounts ← IO.FS.readFile "/etc/passwd"
    return Account.home? status accounts
  catch _ => return none

/-- A variable that the program has set itself, or else one of those that it was started with. -/
def find? (own : IO.Ref (Dict String)) (name : String) : IO (Option String) := do
  match (← own.get).find? name with
  | some value => return some value
  | none => IO.getEnv name

/-- The environment of the program; what the program sets itself is kept aside. -/
def environment (own : IO.Ref (Dict String)) : Environment IO where
  find? := find? own
  path? := find? own
  set name value :=
    if Environment.takes name value then own.modify (·.insert name value)
    else throw (.userError ("failed to set environment variable " ++ name))
  accountHome := accountHome

end Converge.Main

/-- The program.  What it does not catch ends it as a signal would. -/
def main (words : List String) : IO UInt32 := do
  let own ← IO.mkRef Converge.Dict.empty
  let output ← IO.getStdout
  let errors ← IO.getStderr
  try
    let response ← Converge.Command.run Converge.Main.disk (Converge.Main.environment own)
      (← output.isTty) words
    output.putStr response.output
    output.flush
    errors.putStr response.diagnostics
    return response.code.toUInt32
  catch e =>
    errors.putStr (toString e ++ "\n")
    return 134
