import AttributeExpr.Yaml.Graph
import AttributeExpr.Yaml.Scalar
/-!
From the nodes of a graph to values. Not every graph has values: tags may be unknown or not fit
their nodes, and scalars may stand for nothing. The nodes are visited in order of their depth, and
the first fault on that way counts.
-/
namespace AttributeExpr.Yaml

namespace Graph

/-- The value of a scalar node. -/
def scalar (graph : Graph) (id : NodeId) : Except Fault Yaml :=
  match graph.tag id, graph.text? id, graph.entries? id with
  | _, none, _ => .error .malformed
  | .timestamp, some _, some _ => .error (.scalar .nestedTimestamp)
  | tag, some text, _ => scalarValue tag text

/-- The only entry of a mapping. -/
def onlyEntry? (graph : Graph) (id : NodeId) : Option (NodeId × NodeId) :=
  match graph.entries? id with
  | some [entry] => some entry
  | _ => none

end Graph

/-- A node inside a collection. -/
structure Part where
  id : NodeId
  isKey : Bool

/-- The nodes that have been visited: the values of the scalars among them, by their numbers, and
the collections in the order in which they were met. -/
structure Survey where
  graph : Graph
  scalars : Array (Option Yaml)
  collections : List NodeId

namespace Survey

def start (graph : Graph) : Survey := ⟨graph, Array.replicate graph.nodes.size none, []⟩

/-- Visits a part of a collection: a scalar gets its value and a collection is noted, unless it has
been visited before. Where a part is missing, the graph has no values. -/
def visit (survey : Survey) : Option Part → Except Fault Survey
  | none => .error .malformed
  | some ⟨id, isKey⟩ =>
    if (survey.graph.tag id).isCollection then
      if isKey then .error .malformed
      else if survey.collections.contains id then .ok survey
      else .ok { survey with collections := survey.collections ++ [id] }
    else if (survey.scalars[id]?.getD none).isSome then .ok survey
    else
      (survey.graph.scalar id).map fun value =>
        { survey with scalars := survey.scalars.setIfInBounds id (some value) }

/-- Visits the parts of a collection in order. Where its form is not the one that its tag asks for,
a part is missing. -/
def visitParts (survey : Survey) (id : NodeId) : Except Fault Survey :=
  let graph := survey.graph
  let item (id : NodeId) : Option Part := some ⟨id, false⟩
  match graph.tag id, graph.items? id, graph.merge? id with
  | .sequence, some items, _ => (items.map item).foldlM visit survey
  | .pairs, some items, _ | .orderedPairs, some items, _ =>
    (items.flatMap fun pair =>
      match graph.onlyEntry? pair with
      | some (key, value) => [item key, item value]
      | none => [none]).foldlM visit survey
  | .mapping, _, some graph | .set, _, some graph =>
    let entries := (graph.entries? id).getD []
    (entries.flatMap fun (key, value) => [some ⟨key, true⟩, item value]).foldlM visit
      { survey with graph }
  | _, _, _ => .error .malformed

/-- Visits the parts of the collections that have been noted, from a given one on. -/
def visitFrom : (fuel : Nat) → (done : Nat) → Survey → Except Fault Survey
  | 0, _, survey => .ok survey
  | fuel + 1, done, survey =>
    match survey.collections[done]? with
    | none => .ok survey
    | some id => do visitFrom fuel (done + 1) (← survey.visitParts id)

/-- Visits all nodes of a graph that can be reached. -/
def ofGraph (graph : Graph) : Except Fault Survey := do
  visitFrom (graph.nodes.size + 1) 0 (← (start graph).visit (some ⟨graph.root, false⟩))

def scalar (survey : Survey) (id : NodeId) : Yaml := (survey.scalars[id]?.getD none).getD null

/-- The value of a node inside the collections of a path. -/
def valueFrom (survey : Survey) : (fuel : Nat) → (path : List NodeId) → (id : NodeId) → Yaml
  | 0, _, _ => null
  | fuel + 1, path, id =>
    let graph := survey.graph
    let value := survey.valueFrom fuel (id :: path)
    match graph.tag id with
    | .sequence =>
      if path.contains id then sameList else sequence (((graph.items? id).getD []).map value)
    | .pairs | .orderedPairs =>
      if path.contains id then sameList
      else
        let entries := ((graph.items? id).getD []).filterMap graph.onlyEntry?
        pairs (entries.map fun (k, v) => (value k, value v))
    | .mapping =>
      if path.contains id then sameMapping
      else
        let entries := (graph.entries? id).getD []
        mapping (mappingEntries (entries.map fun (k, v) => (survey.scalar k, value v)))
    | .set =>
      let entries := (graph.entries? id).getD []
      set (setElements ((mappingEntries (entries.map fun (k, _) => (survey.scalar k, null))).map
        (·.1)))
    | _ => survey.scalar id

/-- The value of a node that has been visited. -/
def value (survey : Survey) (id : NodeId) : Yaml :=
  survey.valueFrom (survey.graph.nodes.size + 1) [] id

/-- The node of the value under a key that is a string, if the node is a mapping with that key. -/
def member? (survey : Survey) (id : NodeId) (key : String) : Option NodeId :=
  match survey.graph.tag id, survey.graph.entries? id with
  | .mapping, some entries =>
    let wanted := string (CodePoints.ofChars key.toList)
    (entries.reverse.find? fun (k, _) => sameKey (survey.scalar k) wanted).map (·.2)
  | _, _ => none

end Survey

end AttributeExpr.Yaml
