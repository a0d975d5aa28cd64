/-!
# Disks

What the library asks of a file system, as a structure of actions in a monad, and the reasons for
which they fail.
-/

namespace Converge

/-- The content of a file: a text, or bytes that are not the UTF-8 form of any. -/
inductive Content where
  | text (text : String)
  | binary (bytes : ByteArray)

/-- The content that bytes make up. -/
def Content.ofBytes (bytes : ByteArray) : Content :=
  match String.fromUTF8? bytes with
  | some decoded => .text decoded
  | none => .binary bytes

/-- Why an operation on a disk fails. -/
inductive DiskError where
  | notFound
  | alreadyExists
  | notDirectory
  | isDirectory
  | nameTooLong
  /-- A file that is read as a text is none. -/
  | notText
  /-- Any other reason, in the words of the system. -/
  | other (message : String)
  deriving DecidableEq

/-- The text of a reason. -/
def DiskError.message : DiskError → String
  | .notFound => "No such file or directory (os error 2)"
  | .alreadyExists => "File exists (os error 17)"
  | .notDirectory => "Not a directory (os error 20)"
  | .isDirectory => "Is a directory (os error 21)"
  | .nameTooLong => "File name too long (os error 36)"
  | .notText => "stream did not contain valid UTF-8"
  | .other message => message

/-- A file system. -/
structure Disk (m : Type → Type) where
  /-- Whether there is a file or a directory at a path. -/
  isPresent (path : String) : m Bool
  /-- The content of a file. -/
  read (path : String) : ExceptT DiskError m Content
  /-- Makes a directory and those above it, as far as they are missing. -/
  createDirs (path : String) : ExceptT DiskError m Unit
  /-- Makes an empty file, or empties one that is there. -/
  create (path : String) : ExceptT DiskError m Unit
  /-- Writes a text at the end of a file. -/
  write (path text : String) : ExceptT DiskError m Unit
  /-- Brings what was written to the disk itself. -/
  sync (path : String) : ExceptT DiskError m Unit
  /-- Moves a file to a path, over a file that is there. -/
  rename (path target : String) : ExceptT DiskError m Unit

namespace Disk

variable {m : Type → Type} [Monad m]

/-- The text of a file; fails with `notText` when it is none. -/
def readText (disk : Disk m) (path : String) : ExceptT DiskError m String := do
  match ← disk.read path with
  | .text text => return text
  | .binary _ => throw .notText

/-- The disk of a program that may come to an end. -/
def lift (disk : Disk m) : Disk (OptionT m) where
  isPresent path := OptionT.lift (disk.isPresent path)
  read path := ExceptT.mk (OptionT.lift (disk.read path).run)
  createDirs path := ExceptT.mk (OptionT.lift (disk.createDirs path).run)
  create path := ExceptT.mk (OptionT.lift (disk.create path).run)
  write path text := ExceptT.mk (OptionT.lift (disk.write path text).run)
  sync path := ExceptT.mk (OptionT.lift (disk.sync path).run)
  rename path target := ExceptT.mk (OptionT.lift (disk.rename path target).run)

end Disk

end Converge
