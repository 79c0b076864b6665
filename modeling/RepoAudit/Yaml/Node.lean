import RepoAudit.Yaml.Tag
import RepoAudit.Yaml.Token

/-!
# Graphs of YAML nodes

A document is a graph: an alias leads to a node that has been met before, perhaps to one that the alias
is part of. Nodes are known by their numbers. A node gets its number before its parts are read.
-/

namespace RepoAudit.Yaml

/-- A node; the parts of a collection are numbers of nodes. -/
inductive Node where
  | scalar (tag : Tag) (text : String)
  | sequence (tag : Tag) (items : List Nat)
  | mapping (tag : Tag) (entries : List (Nat × Nat))
  deriving Repr

/-- The tag of a node. -/
def Node.tag : Node → Tag
  | .scalar tag _ => tag
  | .sequence tag _ => tag
  | .mapping tag _ => tag

/-- The nodes of a document. -/
structure Graph where
  nodes : Array Node := #[]
  anchors : List (List Char × Nat) := []

namespace Graph

/-- The state of reading a graph from tokens. -/
structure Builder where
  tokens : List Token
  /-- What is wrong after the last token. -/
  fault : Option Fault
  graph : Graph := {}
  /-- The handles of tags with the addresses they stand for. -/
  handles : List (List Char × List Char) := []

/-- A step of reading a graph. -/
abbrev Building := StateT Builder (Except Fault)

namespace Building

/-- Stops: the tokens are no document. -/
def refuse {α : Type} : Building α := throw .malformed

/-- The next token. -/
def peek : Building Token := do
  let b ← get
  match b.tokens with
  | token :: _ => return token
  | [] => throw (b.fault.getD .malformed)

/-- Moves past the next token. -/
def skip : Building Unit := modify fun b => { b with tokens := b.tokens.tail }

/-- True when the next token is one of the given ones. -/
def isNext (tokens : List Token) : Building Bool := do return tokens.contains (← peek)

/-- Moves past the next token when it is the given one. -/
def accept (token : Token) : Building Bool := do
  let found ← isNext [token]
  if found then skip
  return found

/-- Moves past the given token, which has to be next. -/
def expect (token : Token) : Building Unit := do
  if !(← accept token) then refuse

/-- Adds a node. -/
def add (node : Node) : Building Nat := do
  let b ← get
  set { b with graph := { b.graph with nodes := b.graph.nodes.push node } }
  return b.graph.nodes.size

/-- Puts a node under a number. -/
def put (number : Nat) (node : Node) : Building Unit :=
  modify fun b => { b with graph := { b.graph with nodes := b.graph.nodes.setIfInBounds number node } }

/-- Gives a node the name of an anchor; a name can be given once. -/
def nameNode (anchor : Option (List Char)) (number : Nat) : Building Unit := do
  match anchor with
  | none => return ()
  | some name =>
    let b ← get
    if (b.graph.anchors.lookup name).isSome then refuse
    else set { b with graph := { b.graph with anchors := (name, number) :: b.graph.anchors } }

/-- A scalar without text, where a value is missing. -/
def missing : Building Nat := add (.scalar .null "")

/-- The full name of a written tag; the mark alone has none. -/
def fullName? (tag : WrittenTag) : Building (Option String) := do
  match tag.handle with
  | none => return if tag.suffix == ['!'] then none else some (String.ofList tag.suffix)
  | some handle =>
    match (← get).handles.lookup handle with
    | none => refuse
    | some address =>
      let name := address ++ tag.suffix
      return if name == ['!'] then none else some (String.ofList name)

/-- What may stand before a node. -/
structure Properties where
  anchor : Option (List Char) := none
  /-- The tag, and its full name if it has one. -/
  tag : Option (Option String) := none

/-- An anchor, if there is one. -/
def readAnchor : Building (Option (List Char)) := do
  match ← peek with
  | .anchor name =>
    skip
    return some name
  | _ => return none

/-- A tag, if there is one. -/
def readTag : Building (Option WrittenTag) := do
  match ← peek with
  | .tag tag =>
    skip
    return some tag
  | _ => return none

/-- An anchor and a tag in either order. -/
def readProperties : Building Properties := do
  let first ← readAnchor
  let tag ← readTag
  let anchor ← if first.isNone && tag.isSome then readAnchor else pure first
  match tag with
  | none => return ⟨anchor, none⟩
  | some tag => return ⟨anchor, some (← fullName? tag)⟩

/-- The tag of a collection. -/
def Properties.collectionTag (properties : Properties) (standard : Tag) : Tag :=
  match properties.tag with
  | some (some name) => Tag.ofName name
  | _ => standard

/-- The tag of a scalar. The mark alone asks for the form to decide, even between quotes. -/
def Properties.scalarTag (properties : Properties) (text : List Char) (plain : Bool) : Tag :=
  match properties.tag with
  | some (some name) => Tag.ofName name
  | some none => Tag.ofForm text
  | none => if plain then Tag.ofForm text else .text

/-- A scalar with its properties. -/
def addScalar (properties : Properties) (text : List Char) (plain : Bool) : Building Nat := do
  let number ← add (.scalar (properties.scalarTag text plain) (String.ofList text))
  nameNode properties.anchor number
  return number

/-- Where a node stands: inside brackets, in a block, or in a block where entries of a sequence need no
indentation of their own. -/
inductive Position where
  | flow
  | block
  | looseBlock
  deriving DecidableEq

mutual

/-- A node. -/
def readNode : Nat → Position → Building Nat
  | 0, _ => refuse
  | steps + 1, position => do
    match ← peek with
    | .alias name =>
      skip
      match (← get).graph.anchors.lookup name with
      | some number => return number
      | none => refuse
    | _ =>
      let properties ← readProperties
      let inBlock := position != .flow
      match ← peek with
      | .entry =>
        if position == .looseBlock then
          collect properties (readLooseEntries steps [])
        else emptyOr properties
      | .scalar text plain =>
        skip
        addScalar properties text plain
      | .flowSequence =>
        skip
        collect properties (readFlowItems steps true [])
      | .flowMapping =>
        skip
        collectEntries properties (readFlowEntries steps true [])
      | .blockSequence =>
        if inBlock then
          skip
          collect properties (readEntries steps [])
        else emptyOr properties
      | .blockMapping =>
        if inBlock then
          skip
          collectEntries properties (readBlockEntries steps [])
        else emptyOr properties
      | _ => emptyOr properties
where
  emptyOr (properties : Properties) : Building Nat := do
    if properties.anchor.isSome || properties.tag.isSome then addScalar properties [] true else refuse
  collect (properties : Properties) (read : Building (List Nat)) : Building Nat := do
    let tag := properties.collectionTag .list
    let number ← add (.sequence tag [])
    nameNode properties.anchor number
    put number (.sequence tag (← read))
    return number
  collectEntries (properties : Properties) (read : Building (List (Nat × Nat))) : Building Nat := do
    let tag := properties.collectionTag .map
    let number ← add (.mapping tag [])
    nameNode properties.anchor number
    put number (.mapping tag (← read))
    return number

/-- A node, or a missing one before one of the given tokens. -/
def readOrMissing : Nat → Position → List Token → Building Nat
  | 0, _, _ => refuse
  | steps + 1, position, ends => do
    if ← isNext ends then missing else readNode steps position

/-- The entries of a block of its own; those read so far are in reverse order. -/
def readEntries : Nat → List Nat → Building (List Nat)
  | 0, _ => refuse
  | steps + 1, done => do
    if ← accept .entry then
      let item ← readOrMissing steps .block [.entry, .blockEnd]
      readEntries steps (item :: done)
    else
      expect .blockEnd
      return done.reverse

/-- The entries of a sequence without indentation of its own. -/
def readLooseEntries : Nat → List Nat → Building (List Nat)
  | 0, _ => refuse
  | steps + 1, done => do
    if ← accept .entry then
      let item ← readOrMissing steps .block [.entry, .key, .value, .blockEnd]
      readLooseEntries steps (item :: done)
    else return done.reverse

/-- The entries of a block mapping. -/
def readBlockEntries : Nat → List (Nat × Nat) → Building (List (Nat × Nat))
  | 0, _ => refuse
  | steps + 1, done => do
    if ← isNext [.key, .value] then
      let key ← if ← accept .key then
          readOrMissing steps .looseBlock [.key, .value, .blockEnd]
        else missing
      let value ← if ← accept .value then
          readOrMissing steps .looseBlock [.key, .value, .blockEnd]
        else missing
      readBlockEntries steps ((key, value) :: done)
    else
      expect .blockEnd
      return done.reverse

/-- The items of a sequence in brackets. -/
def readFlowItems : Nat → Bool → List Nat → Building (List Nat)
  | 0, _, _ => refuse
  | steps + 1, first, done => do
    if ← accept .flowSequenceEnd then return done.reverse
    else
      if !first then expect .flowEntry
      if ← accept .key then
        let number ← add (.mapping .map [])
        let key ← readOrMissing steps .flow [.value, .flowEntry, .flowSequenceEnd]
        let value ← if ← accept .value then
            readOrMissing steps .flow [.flowEntry, .flowSequenceEnd]
          else missing
        put number (.mapping .map [(key, value)])
        readFlowItems steps false (number :: done)
      else if ← accept .flowSequenceEnd then return done.reverse
      else
        let item ← readNode steps .flow
        readFlowItems steps false (item :: done)

/-- The entries of a mapping in braces. -/
def readFlowEntries : Nat → Bool → List (Nat × Nat) → Building (List (Nat × Nat))
  | 0, _, _ => refuse
  | steps + 1, first, done => do
    if ← accept .flowMappingEnd then return done.reverse
    else
      if !first then expect .flowEntry
      if ← accept .key then
        let key ← readOrMissing steps .flow [.value, .flowEntry, .flowMappingEnd]
        let value ← if ← accept .value then
            readOrMissing steps .flow [.flowEntry, .flowMappingEnd]
          else missing
        readFlowEntries steps false ((key, value) :: done)
      else if ← accept .flowMappingEnd then return done.reverse
      else
        let key ← readNode steps .flow
        let value ← missing
        readFlowEntries steps false ((key, value) :: done)

end

/-- The directives before a document: whether a version was told, and the handles. -/
def readDirectives : Nat → Bool → List (List Char × List Char) → Building (List (List Char × List Char))
  | 0, _, _ => refuse
  | steps + 1, versioned, handles => do
    match ← peek with
    | .version major _ =>
      if versioned || major != 1 then refuse
      else
        skip
        readDirectives steps true handles
    | .shorthand name address =>
      if (handles.lookup name).isSome then refuse
      else
        skip
        readDirectives steps versioned ((name, address) :: handles)
    | .otherDirective =>
      skip
      readDirectives steps versioned handles
    | _ => return handles

/-- The handles that need no directive. -/
def standardHandles : List (List Char × List Char) :=
  [(['!'], ['!']), (['!', '!'], Tag.core.toList)]

/-- Moves past the marks that end documents. -/
def skipEnds : Nat → Building Unit
  | 0 => return ()
  | steps + 1 => do
    if ← accept .documentEnd then skipEnds steps

/-- The content of a document after its start mark. -/
def readContent (steps : Nat) : Building Nat := do
  match ← peek with
  | .version .. => missing
  | .shorthand .. => missing
  | .otherDirective => missing
  | .documentStart => missing
  | .documentEnd => missing
  | .streamEnd => missing
  | _ => readNode steps .block

/-- A document with directives or a start mark. -/
def readExplicit (steps : Nat) : Building Nat := do
  let handles ← readDirectives steps false []
  modify fun b => { b with handles := handles ++ standardHandles }
  expect .documentStart
  readContent steps

/-- The only document of a text, if there is one. -/
def readSingle : Building (Option Nat) := do
  let steps := 4 * (← get).tokens.length + 16
  let root ← match ← peek with
    | .streamEnd => return none
    | .version .. => readExplicit steps
    | .shorthand .. => readExplicit steps
    | .otherDirective => readExplicit steps
    | .documentStart => readExplicit steps
    | _ =>
      modify fun b => { b with handles := standardHandles }
      readNode steps .block
  skipEnds steps
  expect .streamEnd
  return some root

end Building

/-- The graph of the only document of a text and the number of its root; there is no root when the text
holds no document. -/
def ofText (text : List Char) : Except Fault (Option Nat × Graph) := do
  let (tokens, fault) := Token.scan text
  let (root, builder) ← Building.readSingle.run { tokens := tokens.toList, fault }
  .ok (root, builder.graph)

end Graph

end RepoAudit.Yaml
