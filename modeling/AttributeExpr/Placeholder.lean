import AttributeExpr.Value.Sharing
import AttributeExpr.Value.Wire
/-!
Placeholders. A compiled expression holds no attribute name and no value: each is replaced by a
reference into a table that travels beside the expression. Asking again for the same name or for an
equal value gives the same reference, and references are numbered from zero in the order of first
use. A value that cannot be encoded gets no reference.
-/
namespace AttributeExpr

/-- A value with its reference and its encoding. -/
structure ValueEntry where
  ref : String
  value : Value
  wire : Json

/-- The names and values referred to so far, in the order of their references. -/
structure PlaceholderTable where
  names : List (String × String)
  values : List ValueEntry

/-- An expression with the references that its table held when it was compiled. -/
structure CompiledExpression where
  expression : String
  names : List (String × String)
  values : List (String × Json)

/-- Steps that extend a table. A step that fails keeps what it has added before. -/
abbrev Compiling (α : Type) := ExceptT Failure (StateM PlaceholderTable) α

namespace PlaceholderTable

def empty : PlaceholderTable := ⟨[], []⟩

def nameRef (index : Nat) : String := "#p" ++ toString index

def valueRef (index : Nat) : String := ":v" ++ toString index

def nameRef? (table : PlaceholderTable) (name : String) : Option String :=
  (table.names.find? (·.2 == name)).map (·.1)

def valueRef? (table : PlaceholderTable) (value : Value) : Option String :=
  (table.values.find? (·.value.shares value)).map (·.ref)

/-- The table with a further name, and the reference to it. -/
def addName (table : PlaceholderTable) (name : String) : String × PlaceholderTable :=
  let ref := nameRef table.names.length
  (ref, { table with names := table.names ++ [(ref, name)] })

/-- The table with a further value, and the reference to it. -/
def addValue (table : PlaceholderTable) (value : Value) (wire : Json) : String × PlaceholderTable :=
  let ref := valueRef table.values.length
  (ref, { table with values := table.values ++ [⟨ref, value, wire⟩] })

/-- An expression beside the whole table. -/
def compiled (table : PlaceholderTable) (expression : String) : CompiledExpression :=
  ⟨expression, table.names, table.values.map fun entry => (entry.ref, entry.wire)⟩

end PlaceholderTable

namespace Compiling

/-- The outcome on an empty table. -/
def onEmptyTable {α : Type} (steps : Compiling α) : Except Failure α :=
  (steps.run PlaceholderTable.empty).1

def ofExcept {α : Type} (outcome : Except Failure α) : Compiling α := ExceptT.mk (pure outcome)

/-- The reference to a name. -/
def nameRef (name : String) : Compiling String := do
  let table ← get
  match table.nameRef? name with
  | some ref => return ref
  | none =>
    let (ref, table) := table.addName name
    set table
    return ref

/-- The reference to a value, which has to have an encoding. -/
def valueRef (value : Value) : Compiling String := do
  ofExcept value.checkComparable
  let table ← get
  match table.valueRef? value with
  | some ref => return ref
  | none =>
    let wire ← ofExcept value.encode
    let (ref, table) := table.addValue value wire
    set table
    return ref

/-- An expression beside the table as it stands. -/
def compiled (expression : String) : Compiling CompiledExpression := do
  return (← get).compiled expression

end Compiling

/-- The expression as a parameter of a request, beside the parts of the table that are not
empty. -/
def CompiledExpression.parameters (compiled : CompiledExpression) (key : String) :
    Dictionary Json :=
  let names := compiled.names.map fun (ref, name) => (ref, Json.string name)
  Dictionary.ofEntries <|
    (key, Json.string compiled.expression) ::
      (if names.isEmpty then [] else [("ExpressionAttributeNames", Json.object names)]) ++
      (if compiled.values.isEmpty then []
        else [("ExpressionAttributeValues", Json.object compiled.values)])

end AttributeExpr
