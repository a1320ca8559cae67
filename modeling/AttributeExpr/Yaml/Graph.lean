import AttributeExpr.Text.Character
import AttributeExpr.Yaml.Tag
/-!
A YAML document as a graph of nodes. An alias is another edge to the node with its anchor, so a
collection may be reached from inside itself.
-/
namespace AttributeExpr.Yaml

/-- The number of a node in its document. -/
abbrev NodeId := Nat

inductive Node
  | scalar (tag : Tag) (text : CodePoints)
  | sequence (tag : Tag) (items : List NodeId)
  | mapping (tag : Tag) (entries : List (NodeId × NodeId))
deriving DecidableEq

def Node.tag : Node → Tag
  | scalar tag _ | sequence tag _ | mapping tag _ => tag

def Node.withTag (tag : Tag) : Node → Node
  | scalar _ text => scalar tag text
  | sequence _ items => sequence tag items
  | mapping _ entries => mapping tag entries

structure Graph where
  nodes : Array Node
  root : NodeId

namespace Graph

def node (graph : Graph) (id : NodeId) : Node := graph.nodes[id]?.getD (.scalar .null [])

def tag (graph : Graph) (id : NodeId) : Tag := (graph.node id).tag

/-- The items of a sequence. -/
def items? (graph : Graph) (id : NodeId) : Option (List NodeId) :=
  match graph.node id with
  | .sequence _ items => some items
  | _ => none

/-- The entries of a mapping as they are written. -/
def entries? (graph : Graph) (id : NodeId) : Option (List (NodeId × NodeId)) :=
  match graph.node id with
  | .mapping _ entries => some entries
  | _ => none

/-- The text of a scalar. A mapping with a default value stands for that value. -/
def textFrom? (graph : Graph) : (fuel : Nat) → (id : NodeId) → Option CodePoints
  | 0, _ => none
  | fuel + 1, id =>
    match graph.node id with
    | .scalar _ text => some text
    | .sequence .. => none
    | .mapping _ entries =>
      match entries.find? fun (key, _) => graph.tag key = .defaultValue with
      | some (_, value) => graph.textFrom? fuel value
      | none => none

def text? (graph : Graph) (id : NodeId) : Option CodePoints :=
  graph.textFrom? (graph.nodes.size + 1) id

def setEntries (graph : Graph) (id : NodeId) (entries : List (NodeId × NodeId)) : Graph :=
  { graph with nodes := graph.nodes.setIfInBounds id (.mapping (graph.tag id) entries) }

/-- Merges mappings into the one whose number is given, after some entries that have been merged
into it. A merge key goes away before its value is looked at, so a mapping that is merged into
itself adds its own entries only. Of several mappings under one key the last comes first. -/
def mergeFrom? : (fuel : Nat) → (merged : List (NodeId × NodeId)) → Graph → (id : NodeId) →
    Option Graph
  | 0, _, _, _ => none
  | fuel + 1, merged, graph, id => do
    let entries ← graph.entries? id
    match entries.find? fun (key, _) => graph.tag key = .merge with
    | none => return if merged.isEmpty then graph else graph.setEntries id (merged ++ entries)
    | some entry =>
      let values := (graph.items? entry.2).getD [entry.2]
      let graph := graph.setEntries id (entries.erase entry)
      let (graph, added) ← values.foldlM
        (fun (graph, added) value => do
          let graph ← mergeFrom? fuel [] graph value
          return (graph, (graph.entries? value).getD [] ++ added))
        (graph, [])
      mergeFrom? fuel (merged ++ added) graph id

/-- Gives keys that would stand for default values the tag of strings. -/
def withPlainKeys (graph : Graph) (id : NodeId) : Graph :=
  let keys := ((graph.entries? id).getD []).map (·.1)
  let retag (nodes : Array Node) (key : NodeId) : Array Node :=
    if graph.tag key = .defaultValue then
      nodes.setIfInBounds key ((graph.node key).withTag .string)
    else nodes
  { graph with nodes := keys.foldl retag graph.nodes }

/-- Replaces the merge keys of a mapping by the entries of the mappings that they name. The entries
of the mapping itself come last and so override them. -/
def merge? (graph : Graph) (id : NodeId) : Option Graph :=
  (mergeFrom? (graph.nodes.size + 2) [] graph id).map (·.withPlainKeys id)

end Graph

end AttributeExpr.Yaml
