import Converge.Yaml.Scan
/-!
# YAML nodes

The structure of a document: scalars, sequences, mappings, and aliases of nodes that have an
anchor.  `Node.ofTokens?` reads the nodes from tokens, and `Document.ofText?` reads a text of at
most one document.
-/

namespace Converge.Yaml

/-- What a node consists of.  The number of an alias stands for the anchors of its name that were
met before it. -/
inductive Node where
  | scalar (anchor : Option Nat) (tag : Option (List Char)) (text : List Char) (style : Style)
  | sequence (anchor : Option Nat) (items : List Node)
  | mapping (anchor : Option Nat) (pairs : List (Node × Node))
  | alias (number : Nat)

instance : Inhabited Node := ⟨.alias 0⟩

namespace Node

/-- The empty scalar that stands where a node is left out. -/
def missing : Node :=
  .scalar none none [] .plain

/-- The number of a node's anchor. -/
def anchor : Node → Option Nat
  | .scalar anchor .. => anchor
  | .sequence anchor _ => anchor
  | .mapping anchor _ => anchor
  | .alias _ => none

/-- The nodes that have an anchor, with its number, in the order in which they start. -/
def anchored : Node → List (Nat × Node)
  | .scalar anchor tag text style =>
    (anchor.map fun n => (n, .scalar anchor tag text style)).toList
  | .sequence anchor items =>
    (anchor.map fun n => (n, .sequence anchor items)).toList ++ ofItems items
  | .mapping anchor pairs =>
    (anchor.map fun n => (n, .mapping anchor pairs)).toList ++ ofPairs pairs
  | .alias _ => []
where
  /-- The nodes with an anchor among items. -/
  ofItems : List Node → List (Nat × Node)
    | [] => []
    | item :: rest => item.anchored ++ ofItems rest
  /-- The nodes with an anchor among keys and values. -/
  ofPairs : List (Node × Node) → List (Nat × Node)
    | [] => []
    | (key, value) :: rest => key.anchored ++ (value.anchored ++ ofPairs rest)

/-! ## Reading -/

/-- What is known while a document is read. -/
structure Intake where
  tokens : List Token
  /-- What the handles of tags stand for. -/
  handles : List (List Char × List Char)
  /-- The numbers of the anchors so far. -/
  anchors : List (List Char × Nat)

/-- A step of reading; `none` where the tokens form no document. -/
abbrev Read := StateT Intake Option

/-- The next token, which is left in place. -/
def peek : Read Token := do
  match (← get).tokens with
  | token :: _ => return token
  | [] => return .streamEnd

/-- Passes over the next token. -/
def skip : Read Unit :=
  modify fun s => { s with tokens := s.tokens.tail }

/-- Stops reading: the tokens form no document. -/
def fail {α : Type} : Read α :=
  StateT.lift none

/-- The number of a new anchor: how many names have been met.  A name that is used again keeps
the new number. -/
def register (name : List Char) : Read Nat := do
  let s ← get
  let names := s.anchors.filter (·.1 ≠ name)
  set { s with anchors := (name, s.anchors.length) :: names }
  return s.anchors.length

/-- The whole tag of a handle and a suffix. -/
def resolveTag (handle suffix : List Char) : Read (List Char) := do
  if handle.isEmpty then return suffix
  match (← get).handles.lookup handle with
  | some start => return start ++ suffix
  | none => fail

/-- An anchor, where there is one. -/
def readAnchor : Read (Option (List Char)) := do
  match ← peek with
  | .anchor name =>
    skip
    return some name
  | _ => return none

/-- A tag, where there is one. -/
def readTag : Read (Option (List Char × List Char)) := do
  match ← peek with
  | .tag handle suffix =>
    skip
    return some (handle, suffix)
  | _ => return none

/-- The anchor and the tag of a node in either order. -/
def readProperties : Read (Option (List Char) × Option (List Char)) := do
  let (name, tag) ← match ← readAnchor with
    | some name => do
      let tag ← readTag
      pure (some name, tag)
    | none => do
      let tag ← readTag
      let name ← if tag.isSome then readAnchor else pure none
      pure (name, tag)
  match tag with
  | some (handle, suffix) => return (name, some (← resolveTag handle suffix))
  | none => return (name, none)

/-- An alias of the node with an anchor; fails if there has been no such anchor. -/
def readAlias (name : List Char) : Read Node := do
  match (← get).anchors.lookup name with
  | some number => return .alias number
  | none => fail

/-- Whether an entry of a sequence is left out before a token. -/
def endsEntry : Token → Bool
  | .blockEntry | .blockEnd => true
  | _ => false

/-- Whether a key or a value of a block mapping is left out before a token. -/
def endsField : Token → Bool
  | .key | .value | .blockEnd => true
  | _ => false

/-- Whether a key or a value of a flow collection is left out before a token. -/
def endsFlowField (close : Token) (token : Token) : Bool :=
  token = .flowEntry || token = close

/-- Whether a document has no content before a token. -/
def endsDocument : Token → Bool
  | .versionDirective .. | .tagDirective .. | .documentStart | .documentEnd | .streamEnd => true
  | _ => false

mutual

/-- Reads a node.  Block collections stand only where `block` allows them, and a sequence without
indentation of its own only where `compact` does. -/
def read (block compact : Bool) : Nat → Read Node
  | 0 => fail
  | fuel + 1 => do
    if let .alias name := ← peek then
      skip
      return ← readAlias name
    let (name, tag) ← readProperties
    let anchor ← name.mapM register
    match ← peek with
    | .blockEntry =>
      if compact then return .sequence anchor (← compactEntries fuel)
      else empty name anchor tag
    | .scalar text style =>
      skip
      return .scalar anchor tag text style
    | .flowSequenceStart =>
      skip
      return .sequence anchor (← flowItems true fuel)
    | .flowMappingStart =>
      skip
      return .mapping anchor (← flowPairs true fuel)
    | .blockSequenceStart =>
      if block then
        skip
        return .sequence anchor (← blockEntries fuel)
      else empty name anchor tag
    | .blockMappingStart =>
      if block then
        skip
        return .mapping anchor (← blockPairs fuel)
      else empty name anchor tag
    | _ => empty name anchor tag
where
  /-- A node of nothing but properties. -/
  empty (name : Option (List Char)) (anchor : Option Nat) (tag : Option (List Char)) :
      Read Node :=
    if name.isSome || tag.isSome then return .scalar anchor tag [] .plain else fail

/-- Reads the entries of a block sequence. -/
def blockEntries : Nat → Read (List Node)
  | 0 => fail
  | fuel + 1 => do
    match ← peek with
    | .blockEntry =>
      skip
      let item ← if endsEntry (← peek) then pure missing else read true false fuel
      return item :: (← blockEntries fuel)
    | .blockEnd =>
      skip
      return []
    | _ => fail

/-- Reads the entries of a sequence that stands as far in as the mapping around it. -/
def compactEntries : Nat → Read (List Node)
  | 0 => fail
  | fuel + 1 => do
    match ← peek with
    | .blockEntry =>
      skip
      let token ← peek
      let item ←
        if endsEntry token || endsField token then pure missing else read true false fuel
      return item :: (← compactEntries fuel)
    | _ => return []

/-- Reads the keys and values of a block mapping. -/
def blockPairs : Nat → Read (List (Node × Node))
  | 0 => fail
  | fuel + 1 => do
    match ← peek with
    | .key =>
      skip
      let key ← if endsField (← peek) then pure missing else read true true fuel
      let value ← blockValue fuel
      return (key, value) :: (← blockPairs fuel)
    | .blockEnd =>
      skip
      return []
    | _ => fail

/-- Reads the value of a key of a block mapping. -/
def blockValue : Nat → Read Node
  | 0 => fail
  | fuel + 1 => do
    if (← peek) = .value then
      skip
      if endsField (← peek) then return missing else read true true fuel
    else return missing

/-- Reads the items of a flow sequence from the first one on or from a comma on. -/
def flowItems (first : Bool) : Nat → Read (List Node)
  | 0 => fail
  | fuel + 1 => do
    if (← peek) = .flowSequenceEnd then
      skip
      return []
    if !first then
      if (← peek) ≠ .flowEntry then fail
      skip
    match ← peek with
    | .flowSequenceEnd =>
      skip
      return []
    | .key =>
      skip
      let pair ← flowPair fuel
      return .mapping none [pair] :: (← flowItems false fuel)
    | _ =>
      let item ← read false false fuel
      return item :: (← flowItems false fuel)

/-- Reads an item of a flow sequence that is a key with a value.  Where the key is left out, the
token behind it is passed over. -/
def flowPair : Nat → Read (Node × Node)
  | 0 => fail
  | fuel + 1 => do
    let token ← peek
    if token = .value || endsFlowField .flowSequenceEnd token then
      skip
      return (missing, ← flowValue .flowSequenceEnd fuel)
    else
      let key ← read false false fuel
      return (key, ← flowValue .flowSequenceEnd fuel)

/-- Reads the value of a key in a flow collection. -/
def flowValue (close : Token) : Nat → Read Node
  | 0 => fail
  | fuel + 1 => do
    if (← peek) = .value then
      skip
      if endsFlowField close (← peek) then return missing else read false false fuel
    else return missing

/-- Reads the keys and values of a flow mapping from the first one on or from a comma on. -/
def flowPairs (first : Bool) : Nat → Read (List (Node × Node))
  | 0 => fail
  | fuel + 1 => do
    if (← peek) = .flowMappingEnd then
      skip
      return []
    if !first then
      if (← peek) ≠ .flowEntry then fail
      skip
    match ← peek with
    | .flowMappingEnd =>
      skip
      return []
    | .key =>
      skip
      let token ← peek
      let key ←
        if token = .value || endsFlowField .flowMappingEnd token then pure missing
        else read false false fuel
      let value ← flowValue .flowMappingEnd fuel
      return (key, value) :: (← flowPairs false fuel)
    | _ =>
      let key ← read false false fuel
      return (key, missing) :: (← flowPairs false fuel)

end

end Node

/-! ## Documents -/

/-- A document: its node, and what its aliases stand for. -/
structure Document where
  root : Node
  /-- The nodes with an anchor by number; of several with one number the last counts. -/
  anchored : List (Nat × Node)

namespace Document

/-- The document of a node. -/
def ofNode (root : Node) : Document :=
  ⟨root, root.anchored.reverse⟩

/-- The node that a node stands for: itself, or the one that it is an alias of. -/
def resolve (doc : Document) : Node → Node
  | .alias number => (doc.anchored.lookup number).getD .missing
  | node => node

/-- The handles that need no directive. -/
def standardHandles : List (List Char × List Char) :=
  [(['!'], ['!']), (['!', '!'], "tag:yaml.org,2002:".toList)]

/-- Takes in the directives in front of a document: at most one version, which has to be 1.1 or
1.2, and no handle twice.  The result says whether there was any. -/
def readDirectives (version : Bool) : Nat → Node.Read Bool
  | 0 => Node.fail
  | fuel + 1 => do
    match ← Node.peek with
    | .versionDirective major minor =>
      if version || major ≠ 1 || (minor ≠ 1 && minor ≠ 2) then Node.fail
      Node.skip
      let _ ← readDirectives true fuel
      return true
    | .tagDirective handle start =>
      let s ← get
      if (s.handles.lookup handle).isSome then Node.fail
      set { s with handles := s.handles ++ [(handle, start)] }
      Node.skip
      let _ ← readDirectives version fuel
      return true
    | _ => return false

/-- Passes over the ends of documents, behind which the text has to end. -/
def readEnd : Nat → Node.Read Unit
  | 0 => Node.fail
  | fuel + 1 => do
    match ← Node.peek with
    | .documentEnd =>
      Node.skip
      readEnd fuel
    | .streamEnd => return ()
    | _ => Node.fail

/-- Reads a stream of at most one document; `none` inside is a stream without any. -/
def readStream (fuel : Nat) : Node.Read (Option Node) := do
  if (← Node.peek) = .streamEnd then return none
  let declared ← readDirectives false fuel
  modify fun s => { s with handles := s.handles ++ standardHandles }
  let node ←
    if (← Node.peek) = .documentStart then do
      Node.skip
      if Node.endsDocument (← Node.peek) then pure Node.missing else Node.read true false fuel
    else if declared then Node.fail
    else Node.read true false fuel
  readEnd fuel
  return some node

/-- The document of a text.  A text of nothing but comments has the document of an empty scalar.
The result is `none` if the text breaks the rules or has several documents. -/
def ofText? (text : String) : Option Document := do
  let tokens ← Token.scan text.toList
  let (node, _) ← (readStream (3 * tokens.length + 10)).run ⟨tokens, [], []⟩
  return ofNode (node.getD .missing)

end Document

end Converge.Yaml
