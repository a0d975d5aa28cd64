import Converge.Json.Render
import Converge.Topology
/-!
# The membership document

The whole store as one value: the nodes in the order of their registration, and a record for each
key.  A node's name is registered once: registering it again replaces the node and moves it to the
end.
-/

namespace Converge.Membership

/-- The content of a membership store. -/
structure Document where
  nodes : List Node
  records : Dict Record

namespace Document

/-- A store with nothing in it. -/
def empty : Document :=
  ⟨[], .empty⟩

instance : Inhabited Document := ⟨empty⟩

/-! ## Changes -/

/-- Takes the nodes with a name out. -/
def dropNode (name : String) (doc : Document) : Document :=
  { doc with nodes := doc.nodes.filter (·.name ≠ name) }

/-- Registers a node in place of those with its name. -/
def addNode (node : Node) (doc : Document) : Document :=
  let rest := doc.dropNode node.name
  { rest with nodes := rest.nodes ++ [node] }

/-- Whether a node has a name. -/
def hasNode (name : String) (doc : Document) : Bool :=
  doc.nodes.any (·.name = name)

/-- The record under a key. -/
def record? (doc : Document) (key : String) : Option Record :=
  doc.records.find? key

/-- Puts a record under a key. -/
def setRecord (key : String) (record : Record) (doc : Document) : Document :=
  { doc with records := doc.records.insert key record }

/-! ## The written form -/

/-- The document as a JSON value. -/
def toJson (doc : Document) : Json :=
  .obj [("nodes", .arr (doc.nodes.map Node.toJson)),
    ("config", .ofRecord (doc.records.map Json.ofRecord))]

/-- The document as a text. -/
def text (doc : Document) : String :=
  doc.toJson.pretty

/-- Reads the written form; what is left out is empty. -/
def decode : Json.Decoder Document := fun levels tree => do
  let fields ← Json.Fields.ofTree? ["nodes", "config"] levels tree
  return {
    nodes := ← fields.withDefault "nodes" (.list Node.decode) []
    records := ← fields.withDefault "config" (.dict .record) .empty }

/-- Reads the document from a text. -/
def ofText? (text : String) : Option Document :=
  Json.decode? decode text

end Document

end Converge.Membership
