import Converge.Collaborator
import Converge.Disk.Basic
import Converge.Disk.Path
import Converge.Membership.Document
/-!
# A membership store in a file

The document is read from a file for every access.  It is written to a file beside it, which is
then moved over the old one, so that the store's file holds a whole document at any time.
-/

namespace Converge.Membership

/-- A store in the file at a path. -/
structure FileStore where
  path : String

namespace FileStore

variable {m : Type → Type} [Monad m]

/-- The file that a new document is written to before it replaces the old one. -/
def temporaryPath (store : FileStore) : String :=
  Path.withExtension store.path "tmp"

/-- Runs an operation of a disk; the cause tells what its failure means. -/
def attempt {α : Type} (cause : DiskError → Error) (operation : ExceptT DiskError m α) :
    ExceptT Error m α :=
  operation.adapt cause

/-- Reads the document.  A file that is not there holds none. -/
def load (store : FileStore) (disk : Disk m) : ExceptT Error m Document := do
  if !(← disk.isPresent store.path) then return .empty
  let text ← attempt
    (fun e => .storeCorrupted ("Failed to read store file: " ++ e.message))
    (disk.readText store.path)
  match Document.ofText? text with
  | some doc => return doc
  | none => throw (.storeCorrupted "Failed to parse store file: not a membership document")

/-- Writes the document to the temporary file. -/
def writeTemporary (store : FileStore) (disk : Disk m) (doc : Document) :
    ExceptT Error m Unit :=
  let path := store.temporaryPath
  attempt (fun e => .storeUnwritable (path ++ ": " ++ e.message)) do
    disk.create path
    disk.write path doc.text
    disk.sync path

/-- The directory of the store's file, if its path names one. -/
def directory? (store : FileStore) : Option String :=
  (Path.parent? store.path).filter (!·.isEmpty)

/-- Replaces the document. -/
def save (store : FileStore) (disk : Disk m) (doc : Document) : ExceptT Error m Unit := do
  if let some directory := store.directory? then
    attempt (fun e => .storeUnwritable ("Failed to create store directory: " ++ e.message))
      (disk.createDirs directory)
  store.writeTemporary disk doc
  attempt (fun e => .storeUnwritable ("Failed to rename store file: " ++ e.message))
    (disk.rename store.temporaryPath store.path)

/-! ## Operations -/

/-- Registers a node, in place of one with its name. -/
def addNode (store : FileStore) (disk : Disk m) (node : Node) : ExceptT Error m Unit := do
  store.save disk ((← store.load disk).addNode node)

/-- Takes a node out; fails with `nodeNotFound` when there is none. -/
def removeNode (store : FileStore) (disk : Disk m) (name : String) :
    ExceptT Error m Unit := do
  let doc ← store.load disk
  if doc.hasNode name then store.save disk (doc.dropNode name)
  else throw (.nodeNotFound name)

/-- The store as a collaborator of the engine. -/
def toStore (store : FileStore) (disk : Disk m) : MembershipStore m where
  nodes := return (← store.load disk).nodes
  record key := do
    match (← store.load disk).record? key with
    | some record => return record
    | none => throw (.recordNotFound key)
  setRecord key record := do
    store.save disk ((← store.load disk).setRecord key record)

end FileStore

end Converge.Membership
