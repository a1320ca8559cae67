import AttributeExpr.Key.Basic
import AttributeExpr.Placeholder
import AttributeExpr.Value.Parser
import AttributeExpr.Value.Wire
/-!
Parts of requests. The key of an item and the item itself are in the encoding of the store: the
values of the key attributes come first, and the body of an item may name them again only with the
same values. A projection names the attributes that a query returns: the key attributes come first
and are always there; blank names do not count, and a name given twice counts once.
-/
namespace AttributeExpr

/-- The key that identifies one item. -/
def buildKey (schema : KeySchema) (partitionText : String) (sortText : Option String) :
    Except Failure (Dictionary Json) := do
  let partition ← (← Key.valueOf schema.partition.type partitionText).encode
  match sortText, schema.sort with
  | none, none => return [(schema.partition.name, partition)]
  | none, some sort => refuse (SemanticError.missingSortValue sort.display)
  | some _, none => refuse (SemanticError.noSortKey schema.partition.display)
  | some text, some sort =>
    let value ← (← Key.valueOf sort.type text).encode
    return Dictionary.insert [(schema.partition.name, partition)] sort.name value

/-- Whether an envelope is that of a key value, whose payload is always a text. -/
def isSameKeyValue (key other : Json) : Bool :=
  match key, other with
  | .object [(tag, .string text)], .object [(otherTag, .string otherText)] =>
    tag = otherTag && text = otherText
  | _, _ => false

/-- Adds the entries of a body to an item. -/
def addEntries (item : Dictionary Json) :
    List (String × Value) → Except Failure (Dictionary Json)
  | [] => .ok item
  | (name, value) :: rest => do
    let envelope ← value.encode
    match Dictionary.get? item name with
    | some present =>
      if !isSameKeyValue present envelope then refuse (SemanticError.keyConflict name)
    | none => pure ()
    addEntries (Dictionary.insert item name envelope) rest

/-- The item with the given key values and, unless it is empty, the given body. -/
def buildItem (inferring : Bool) (schema : KeySchema) (partitionText : String)
    (sortText body : Option String) : Except Failure (Dictionary Json) := do
  let key ← buildKey schema partitionText sortText
  match body with
  | none | some "" => return key
  | some text => addEntries key (← Value.parseItem inferring text)

/-- Keeps each member of a list at its first place. -/
def dropRepeats {α : Type} [DecidableEq α] (seen : List α) : List α → List α
  | [] => []
  | a :: rest => if a ∈ seen then dropRepeats seen rest else a :: dropRepeats (a :: seen) rest

/-- The names of further attributes to be returned. -/
def projectedNames (schema : KeySchema) (attributes : List String) : List String :=
  (attributes.map trimString).filter fun name => name ≠ "" && name ∉ schema.attributes

/-- Compiles a projection, if one is asked for. -/
def compileProjection (keysOnly : Bool) (schema : KeySchema) (attributes : Option (List String)) :
    Compiling (Option CompiledExpression) := do
  if !keysOnly && attributes.isNone then return none
  let further := if keysOnly then [] else projectedNames schema (attributes.getD [])
  let refs ← (schema.attributes ++ further).mapM Compiling.nameRef
  return some (← Compiling.compiled (", ".intercalate (dropRepeats [] refs)))

end AttributeExpr
