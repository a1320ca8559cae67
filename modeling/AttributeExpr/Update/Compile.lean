import AttributeExpr.Placeholder
import AttributeExpr.Update.Parser
/-!
Compiling updates to the expression language of the store. Placeholders are allocated from the left,
for the target of an action before its formula. A clause needs at least one action, all of its own
kind, and none whose target lies in a key attribute. The parameters of a request hold exactly one
clause, compiled on a table of its own.
-/
namespace AttributeExpr

namespace Compiling

/-- The segments of a path, of which `path` is the whole. The first has to be a name. -/
def segments (path : Path) : (first : Bool) → List Segment → Compiling (List String)
  | _, [] => return []
  | first, .index index :: rest => do
    if first then throw (.refused SemanticError.pathWithoutName)
    return ("[" ++ toString index ++ "]") :: (← segments path false rest)
  | first, .name name :: rest => do
    if name = "" then throw (.refused (SemanticError.emptyName path.text))
    let ref ← nameRef name
    return (if first then ref else "." ++ ref) :: (← segments path false rest)

def path (path : Path) : Compiling String := do
  if path.isEmpty then throw (.refused SemanticError.emptyPath)
  return String.join (← segments path true path)

def formula : Formula → Compiling String
  | .literal value => valueRef value
  | .path operand => path operand
  | .arithmetic op left right => do
    let left ← formula left
    let right ← formula right
    return left ++ " " ++ op.text ++ " " ++ right
  | .listAppend left right => do
    let left ← formula left
    let right ← formula right
    return "list_append(" ++ left ++ ", " ++ right ++ ")"
  | .ifNotExists operand otherwise => do
    let operand ← path operand
    let otherwise ← formula otherwise
    return "if_not_exists(" ++ operand ++ ", " ++ otherwise ++ ")"

def action : Action → Compiling String
  | .set target computed => do
    let target ← path target
    let computed ← formula computed
    return target ++ " = " ++ computed
  | .remove target => path target

end Compiling

namespace Update

/-- Checks the kind and the target of an action. -/
def checkAction (clause : Clause) (keys : List String) (action : Action) :
    Except SemanticError Unit :=
  if action.clause ≠ clause then .error (.mixedActions clause action.clause)
  else match action.target with
    | [] => .error .emptyPath
    | .name name :: _ =>
      if name ∈ keys then .error (.keyAttribute clause action.target.text name) else .ok ()
    | .index _ :: _ => .ok ()

def checkActions (clause : Clause) (keys : List String) (actions : List Action) :
    Except SemanticError Unit :=
  if actions.isEmpty then .error (.noActions clause)
  else actions.forM (checkAction clause keys)

/-- Compiles actions to a clause of the given kind. -/
def compile (clause : Clause) (keys : List String) (actions : List Action) :
    Compiling CompiledExpression := do
  Compiling.ofExcept <|
    (checkActions clause keys actions).mapError fun error => .refused (.semantic error)
  let parts ← actions.mapM Compiling.action
  Compiling.compiled (clause.keyword ++ " " ++ ", ".intercalate parts)

/-- The parameters for a text of assignments or of removals. -/
def parameters (keys : List String) (setText removeText : Option String) :
    Except Failure (Dictionary Json) := do
  let compiled ← match setText, removeText with
    | some text, none => (compile .set keys (← parseSet text)).onEmptyTable
    | none, some text => (compile .remove keys (← parseRemove text)).onEmptyTable
    | _, _ => refuse SemanticError.oneClause
  return compiled.parameters "UpdateExpression"

/-- The assignment that adds one to an attribute. -/
def atomicCounter (name : String) : String :=
  Name.quote name ++ " = " ++ Name.quote name ++ " + 1"

end Update

end AttributeExpr
