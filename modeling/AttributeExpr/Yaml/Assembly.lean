import AttributeExpr.Yaml.Graph
import AttributeExpr.Yaml.Layout
/-!
From tokens to a graph of nodes. Each reader stands for a rule of the grammar: a node with its tag
and anchor, and the entries of block and flow collections up to their end.
-/
namespace AttributeExpr.Yaml

/-- The tokens that are left and why there are no more, the nodes so far, those with an anchor, and
what the handles of tags stand for. -/
structure Assembly where
  tokens : List Token
  fault : Fault
  nodes : Array Node
  anchors : List (List Char × NodeId)
  handles : List (List Char × List Char)

namespace Assembly

/-- What the handles of tags stand for in a document that says nothing else. -/
def commonHandles : List (List Char × List Char) :=
  [(['!'], ['!']), (['!', '!'], Tag.family.toList)]

def start (lexed : Lexed) : Assembly := ⟨lexed.tokens, lexed.fault, #[], [], commonHandles⟩

end Assembly

abbrev Assembling := StateT Assembly (Except Fault)

namespace Assembling

def malformed {α : Type} : Assembling α := throw .malformed

/-- The next token, which stays. -/
def peek : Assembling Token := do
  let assembly ← get
  match assembly.tokens with
  | token :: _ => return token
  | [] => throw assembly.fault

/-- Passes over a token. -/
def drop : Assembling Unit := modify fun assembly =>
  { assembly with tokens := assembly.tokens.drop 1 }

/-- Passes over a token if it is the given one, and tells whether it was. -/
def accept (token : Token) : Assembling Bool := do
  if (← peek) = token then
    drop
    return true
  else return false

/-- Adds a node. No two nodes of a document have the same anchor. -/
def add (anchor : Option (List Char)) (node : Node) : Assembling NodeId := do
  let assembly ← get
  let id := assembly.nodes.size
  let anchors ← match anchor with
    | none => pure assembly.anchors
    | some name =>
      if (assembly.anchors.lookup name).isSome then malformed
      else pure ((name, id) :: assembly.anchors)
  modify fun assembly => { assembly with nodes := assembly.nodes.push node, anchors }
  return id

/-- Gives a node its content when that has been read. -/
def fill (id : NodeId) (node : Node) : Assembling Unit := modify fun assembly =>
  { assembly with nodes := assembly.nodes.setIfInBounds id node }

/-- A node that is not written: null. -/
def addEmpty : Assembling NodeId := add none (.scalar .null [])

/-- The anchor and the name of the tag before a node, in either order. -/
structure Properties where
  anchor : Option (List Char)
  tag : Option (List Char)

/-- The name of a tag, its handle replaced by what it stands for. -/
def tagName (text : TagText) : Assembling (List Char) := do
  match text.handle with
  | none => return text.suffix
  | some handle =>
    match (← get).handles.lookup handle with
    | some start => return start ++ text.suffix
    | none => malformed

def readProperties : Assembling Properties := do
  match ← peek with
  | .anchor name =>
    drop
    match ← peek with
    | .tag text =>
      drop
      return ⟨some name, some (← tagName text)⟩
    | _ => return ⟨some name, none⟩
  | .tag text =>
    drop
    match ← peek with
    | .anchor name =>
      drop
      return ⟨some name, some (← tagName text)⟩
    | _ => return ⟨none, some (← tagName text)⟩
  | _ => return ⟨none, none⟩

/-- The tag of a scalar. A single exclamation mark asks for the tag of a plain scalar. -/
def scalarTag (name : Option (List Char)) (isPlain : Bool) (text : CodePoints) : Tag :=
  match name with
  | none => if isPlain then .ofPlain text.chars else .string
  | some name => if name = ['!'] then .ofPlain text.chars else .ofName name

def collectionTag (name : Option (List Char)) (default : Tag) : Tag :=
  match name with
  | none => default
  | some name => if name = ['!'] then default else .ofName name

/-- Adds a sequence whose items are read next. -/
def sequenceOf (properties : Properties) (read : Assembling (List NodeId)) :
    Assembling NodeId := do
  let tag := collectionTag properties.tag .sequence
  let id ← add properties.anchor (.sequence tag [])
  fill id (.sequence tag (← read))
  return id

/-- Adds a mapping whose entries are read next. -/
def mappingOf (properties : Properties) (read : Assembling (List (NodeId × NodeId))) :
    Assembling NodeId := do
  let tag := collectionTag properties.tag .mapping
  let id ← add properties.anchor (.mapping tag [])
  fill id (.mapping tag (← read))
  return id

/-- Reads a node unless one of the given tokens shows that there is none. -/
def orEmpty (ends : List Token) (read : Assembling NodeId) : Assembling NodeId := do
  if ends.contains (← peek) then addEmpty else read

/-- Reads the value after a key: a colon and a node, either of which may be missing. -/
def valueOf (ends : List Token) (read : Assembling NodeId) : Assembling NodeId := do
  if ← accept .value then orEmpty ends read else addEmpty

mutual

/-- Reads a node. Where `inBlock`, it may be a collection in block form, and where `underKey`, a
sequence in the column of its key. -/
def readNode (fuel : Nat) (inBlock underKey : Bool) : Assembling NodeId := do
  match fuel, ← peek with
  | 0, _ => malformed
  | _ + 1, .alias name =>
    drop
    match (← get).anchors.lookup name with
    | some id => return id
    | none => malformed
  | fuel + 1, _ =>
    let properties ← readProperties
    match ← peek with
    | .scalar text isPlain =>
      drop
      add properties.anchor (.scalar (scalarTag properties.tag isPlain text) text)
    | .openFlow .sequence =>
      sequenceOf properties do
        drop
        readFlowItems fuel true
    | .openFlow .mapping =>
      mappingOf properties do
        drop
        readFlowEntries fuel true
    | token =>
      if underKey && token = .item then sequenceOf properties (readItemsUnderKey fuel)
      else if inBlock && token = .openBlock .sequence then
        sequenceOf properties do
          drop
          readItems fuel
      else if inBlock && token = .openBlock .mapping then
        mappingOf properties do
          drop
          readEntries fuel
      else if properties.anchor.isSome || properties.tag.isSome then
        add properties.anchor (.scalar (scalarTag properties.tag true []) [])
      else malformed

/-- Reads the items of a block sequence up to its end. -/
def readItems (fuel : Nat) : Assembling (List NodeId) := do
  match fuel, ← peek with
  | fuel + 1, .item =>
    drop
    let item ← orEmpty [.item, .closeBlock] (readNode fuel true false)
    return item :: (← readItems fuel)
  | _ + 1, .closeBlock =>
    drop
    return []
  | _, _ => malformed

/-- Reads the items of a sequence in the column of its key. Any other token ends it. -/
def readItemsUnderKey (fuel : Nat) : Assembling (List NodeId) := do
  match fuel, ← peek with
  | fuel + 1, .item =>
    drop
    let item ← orEmpty [.item, .key, .value, .closeBlock] (readNode fuel true false)
    return item :: (← readItemsUnderKey fuel)
  | _, _ => return []

/-- Reads the entries of a block mapping up to its end. -/
def readEntries (fuel : Nat) : Assembling (List (NodeId × NodeId)) := do
  match fuel, ← peek with
  | fuel + 1, .key =>
    drop
    let ends := [.key, .value, .closeBlock]
    let key ← orEmpty ends (readNode fuel true true)
    let value ← valueOf ends (readNode fuel true true)
    return (key, value) :: (← readEntries fuel)
  | _ + 1, .closeBlock =>
    drop
    return []
  | _, _ => malformed

/-- Reads the items of a flow sequence up to its end. A key among them makes a mapping of one
entry. -/
def readFlowItems (fuel : Nat) (isFirst : Bool) : Assembling (List NodeId) := do
  match fuel with
  | 0 => malformed
  | fuel + 1 =>
    if ← accept (.closeFlow .sequence) then return []
    if !isFirst then
      if !(← accept .comma) then malformed
    match ← peek with
    | .closeFlow .sequence =>
      drop
      return []
    | .key =>
      let ends := [.comma, .closeFlow .sequence]
      let item ← mappingOf ⟨none, none⟩ do
        drop
        let key ← orEmpty (.value :: ends) (readNode fuel false false)
        let value ← valueOf ends (readNode fuel false false)
        return [(key, value)]
      return item :: (← readFlowItems fuel false)
    | _ =>
      let item ← readNode fuel false false
      return item :: (← readFlowItems fuel false)

/-- Reads the entries of a flow mapping up to its end. A node alone is a key without value. -/
def readFlowEntries (fuel : Nat) (isFirst : Bool) : Assembling (List (NodeId × NodeId)) := do
  match fuel with
  | 0 => malformed
  | fuel + 1 =>
    if ← accept (.closeFlow .mapping) then return []
    if !isFirst then
      if !(← accept .comma) then malformed
    match ← peek with
    | .closeFlow .mapping =>
      drop
      return []
    | .key =>
      drop
      let ends := [.comma, .closeFlow .mapping]
      let key ← orEmpty (.value :: ends) (readNode fuel false false)
      let value ← valueOf ends (readNode fuel false false)
      return (key, value) :: (← readFlowEntries fuel false)
    | _ =>
      let key ← readNode fuel false false
      let value ← addEmpty
      return (key, value) :: (← readFlowEntries fuel false)

end

/-- Reads directives, each of which may be given once, and tells whether the version was among
them. -/
def readDirectives (fuel : Nat) (hasVersion : Bool) (handles : List (List Char × List Char)) :
    Assembling (List (List Char × List Char)) := do
  match fuel, ← peek with
  | fuel + 1, .directive directive =>
    drop
    match directive with
    | .version major =>
      if hasVersion || major ≠ 1 then malformed else readDirectives fuel true handles
    | .tag handle start =>
      if (handles.lookup handle).isSome then malformed
      else readDirectives fuel hasVersion ((handle, start) :: handles)
    | .other => readDirectives fuel hasVersion handles
  | _, _ => return handles

/-- Reads the content of a document that starts with a mark. -/
def readMarked (fuel : Nat) : Assembling NodeId := do
  let handles ← readDirectives fuel false []
  modify fun assembly => { assembly with handles := handles ++ Assembly.commonHandles }
  if !(← accept .documentStart) then malformed
  match ← peek with
  | .directive _ | .documentStart | .documentEnd | .endOfText => addEmpty
  | _ => readNode fuel true false

/-- Passes over marks with which documents end. -/
def skipEnds (fuel : Nat) : Assembling Unit := do
  match fuel with
  | 0 => return
  | fuel + 1 => if ← accept .documentEnd then skipEnds fuel

/-- Reads the only document of a text, if it has one. -/
def readText (fuel : Nat) : Assembling (Option NodeId) := do
  match ← peek with
  | .endOfText => return none
  | token =>
    let root ← match token with
      | .directive _ | .documentStart => readMarked fuel
      | _ => readNode fuel true false
    skipEnds fuel
    if (← peek) = .endOfText then return some root else malformed

end Assembling

/-- The document in a text, if there is one. -/
def Graph.read (text : String) : Except Fault (Option Graph) := do
  let lexed := Lexed.ofText text
  let fuel := 4 * lexed.tokens.length + 4
  let (root, assembly) ← (Assembling.readText fuel).run (.start lexed)
  return root.map (⟨assembly.nodes, ·⟩)

end AttributeExpr.Yaml
