import RepoAudit.Yaml.Meaning
import RepoAudit.Yaml.Node
import RepoAudit.Yaml.Value

/-!
# Values of YAML documents

The value of a graph of nodes is again a graph: the parts of a collection are numbers of nodes. Nodes are
given their values level by level from the root, so of several faults the one nearest to the root
is told. The keys `<<` of a mapping are replaced by the entries that they bring in, before the value of
the mapping is found.
-/

namespace RepoAudit.Yaml

/-- The value of a node. The parts of a collection are numbers of nodes; a mapping lists the entries whose
key is a text. -/
inductive Datum where
  | null
  | bool (value : Bool)
  | integer (value : Int)
  | double (value : Double)
  | text (value : String)
  | octets (value : List UInt8)
  | moment
  | pairs (count : Nat)
  | set (size : Nat)
  | list (items : List Nat)
  | mapping (size : Nat) (entries : List (String × Nat))
  deriving Repr

/-- True of the values that may be keys. -/
def Datum.isKey : Datum → Bool
  | .pairs _ => false
  | .set _ => false
  | .list _ => false
  | .mapping _ _ => false
  | _ => true

/-- The state of finding the values of nodes. -/
structure Valuation where
  nodes : Array Node
  /-- The values found so far; that of a collection is empty until its turn comes. -/
  data : Array (Option Datum)
  /-- The collections whose turn has still to come, the next one first. -/
  waiting : List Nat := []

/-- A step of finding values. -/
abbrev Valuing := StateT Valuation (Except Fault)

namespace Valuing

/-- Stops: the document has no value. -/
def refuse {α : Type} : Valuing α := throw .malformed

/-- The node of a number. -/
def node (number : Nat) : Valuing Node := do
  match (← get).nodes[number]? with
  | some node => return node
  | none => refuse

/-- Changes a node. -/
def setNode (number : Nat) (node : Node) : Valuing Unit :=
  modify fun v => { v with nodes := v.nodes.setIfInBounds number node }

/-- The value of a node, if it has been found. -/
def datum? (number : Nat) : Valuing (Option Datum) := do
  return ((← get).data[number]?).join

/-- Gives a node its value. -/
def setDatum (number : Nat) (datum : Datum) : Valuing Unit :=
  modify fun v => { v with data := v.data.setIfInBounds number (some datum) }

/-- The entries of a mapping. -/
def entriesOf (number : Nat) : Valuing (List (Nat × Nat)) := do
  match ← node number with
  | .mapping _ entries => return entries
  | _ => refuse

/-- Changes the entries of a mapping. -/
def setEntries (number : Nat) (entries : List (Nat × Nat)) : Valuing Unit := do
  setNode number (.mapping (← node number).tag entries)

/-- The first entry of a list whose key has a tag that mappings treat in a way of its own, and its
place. -/
def firstSpecial : Nat → List (Nat × Nat) → Valuing (Option (Nat × Tag × Nat × Nat))
  | _, [] => return none
  | index, (key, value) :: rest => do
    let tag := (← node key).tag
    if tag == .merge || tag == .value then return some (index, tag, key, value)
    else firstSpecial (index + 1) rest

/-- Brings the entries of the keys `<<` into a mapping, before its own ones; an equals sign as a key is a
text. The first argument bounds the number of such keys. -/
def flatten : Nat → Nat → List (Nat × Nat) → Valuing Unit
  | 0, _, _ => refuse
  | steps + 1, number, merged => do
    let entries ← entriesOf number
    match ← firstSpecial 0 entries with
    | none => if !merged.isEmpty then setEntries number (merged ++ entries)
    | some (index, tag, key, value) =>
      if tag == .merge then
        setEntries number (entries.eraseIdx index)
        match ← node value with
        | .mapping _ _ =>
          flatten steps value []
          flatten steps number (merged ++ (← entriesOf value))
        | .sequence _ items =>
          let groups ← items.mapM fun item => do
            discard (entriesOf item)
            flatten steps item []
            entriesOf item
          flatten steps number (merged ++ groups.reverse.flatten)
        | .scalar _ _ => refuse
      else
        match ← node key with
        | .scalar _ text => setNode key (.scalar .text text)
        | .sequence _ items => setNode key (.sequence .text items)
        | .mapping _ entries => setNode key (.mapping .text entries)
        flatten steps number merged

/-- The number of entries of all mappings. -/
def entryCount (nodes : Array Node) : Nat :=
  nodes.foldl (fun n node =>
    match node with
    | .mapping _ entries => n + entries.length
    | _ => n) 0

/-- Brings the entries of the keys `<<` into a mapping. -/
def flattenMapping (number : Nat) : Valuing Unit := do
  let nodes := (← get).nodes
  flatten (4 * entryCount nodes + 8) number []

/-- The text of a scalar. A mapping has the text of its entry with an equals sign as the key. -/
def textOf : Nat → Nat → Valuing String
  | 0, _ => refuse
  | steps + 1, number => do
    match ← node number with
    | .scalar _ text => return text
    | .sequence _ _ => refuse
    | .mapping _ entries =>
      let tags ← entries.mapM fun (key, _) => do return (← node key).tag
      match (entries.zip tags).find? (·.2 == .value) with
      | some ((_, value), _) => textOf steps value
      | none => refuse

/-- The value of a scalar by its tag; `none` when the tag is that of a collection. -/
def scalarDatum? (tag : Tag) (number : Nat) : Valuing (Option Datum) := do
  let text := do textOf ((← get).nodes.size + 1) number
  match tag with
  | .null =>
    discard text
    return some .null
  | .bool => return some (.bool (← readTruth (← text)))
  | .int => return some (.integer (← readInteger (← text)))
  | .float => return some (.double (← readDouble (← text)))
  | .binary => return some (.octets (← readOctets (← text)))
  | .timestamp =>
    let written ← text
    match ← node number with
    | .scalar _ _ =>
      checkMoment written
      return some .moment
    | _ => throw .momentNotText
  | .text => return some (.text (← text))
  | .merge => refuse
  | .value => refuse
  | .unknown => refuse
  | _ => return none

/-- The value that a collection has until its turn comes. -/
def emptyDatum : Tag → Datum
  | .list => .list []
  | .set => .set 0
  | .orderedMap => .pairs 0
  | .pairs => .pairs 0
  | _ => .mapping 0 []

/-- Finds the value of a node; a collection has to wait for its parts. -/
def visit (number : Nat) : Valuing Datum := do
  match ← datum? number with
  | some datum => return datum
  | none =>
    let tag := (← node number).tag
    match ← scalarDatum? tag number with
    | some datum =>
      setDatum number datum
      return datum
    | none =>
      setDatum number (emptyDatum tag)
      modify fun v => { v with waiting := v.waiting ++ [number] }
      return emptyDatum tag

/-- Visits the keys and values of entries: the entries whose key is a text. -/
def visitEntries (entries : List (Nat × Nat)) : Valuing (List (String × Nat)) := do
  let texts ← entries.mapM fun (key, value) => do
    let datum ← visit key
    if !datum.isKey then refuse
    discard (visit value)
    match datum with
    | .text name => return some (name, value)
    | _ => return none
  return texts.filterMap id

/-- Visits the parts of an item of an ordered mapping, which is a mapping with one entry. -/
def visitPair (number : Nat) : Valuing Unit := do
  match ← entriesOf number with
  | [(key, value)] =>
    discard (visit key)
    discard (visit value)
  | _ => refuse

/-- Finds the parts of a collection. -/
def fill (number : Nat) : Valuing Unit := do
  match ← node number with
  | .sequence .list items =>
    items.forM fun item => discard (visit item)
    setDatum number (.list items)
  | .sequence .orderedMap items =>
    items.forM visitPair
    setDatum number (.pairs items.length)
  | .sequence .pairs items =>
    items.forM visitPair
    setDatum number (.pairs items.length)
  | .mapping .map _ =>
    flattenMapping number
    let entries ← entriesOf number
    setDatum number (.mapping entries.length (← visitEntries entries))
  | .mapping .set _ =>
    flattenMapping number
    let entries ← entriesOf number
    discard (visitEntries entries)
    setDatum number (.set entries.length)
  | _ => refuse

/-- Fills the collections that wait. Each node waits at most once, which bounds the number of steps. -/
def fillAll : Nat → Valuing Unit
  | 0 => return ()
  | steps + 1 => do
    match (← get).waiting with
    | [] => return ()
    | number :: rest =>
      modify fun v => { v with waiting := rest }
      fill number
      fillAll steps

end Valuing

/-- The values of a document's nodes. -/
structure Document where
  data : Array (Option Datum)
  root : Option Nat

namespace Document

/-- The document of a text. -/
def ofText (text : List Char) : Except Fault Document := do
  let (root, graph) ← Graph.ofText text
  match root with
  | none => .ok ⟨#[], none⟩
  | some number =>
    let size := graph.nodes.size
    let start : Valuation := { nodes := graph.nodes, data := Array.replicate size none }
    let run : Valuing Unit := do
      discard (Valuing.visit number)
      Valuing.fillAll (size + 1)
    let (_, valuation) ← run.run start
    .ok ⟨valuation.data, some number⟩

/-- The value of a node down to so many levels of collections; collections below have no parts. -/
def valueAt (document : Document) : Nat → Nat → Value
  | 0, _ => .null
  | levels + 1, number =>
    match (document.data[number]?).join with
    | none => .null
    | some .null => .null
    | some (.bool b) => .bool b
    | some (.integer n) => .integer n
    | some (.double x) => .double x
    | some (.text s) => .text s
    | some (.octets bytes) => .octets bytes
    | some .moment => .moment
    | some (.pairs count) => .list (List.replicate count .pair)
    | some (.set size) => .set size
    | some (.list items) => .list (items.map (document.valueAt levels))
    | some (.mapping size entries) =>
      .mapping size (entries.map fun (name, item) => (name, document.valueAt levels item))

/-- The value of the document down to so many levels of collections. -/
def value (document : Document) (levels : Nat) : Value :=
  match document.root with
  | some number => document.valueAt levels number
  | none => .null

end Document

end RepoAudit.Yaml
