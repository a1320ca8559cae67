import AttributeExpr.CommandLine.Invocation
import AttributeExpr.Config.Basic
import AttributeExpr.Request
import AttributeExpr.Json.Printer
import AttributeExpr.SortCondition.Compile
import AttributeExpr.Update.Compile
/-!
Running a command: the parameters of a request, as a document. A run ends with the document on the
standard output or with a refusal on the standard error.
-/
namespace AttributeExpr.CommandLine

def itemParameters (target : Target) (body : Option String) (inferSets : Bool) :
    Except Failure (Dictionary Json) := do
  let item ← buildItem inferSets target.schema target.partitionText target.sortText body
  return [("Item", .object item)]

def updateParameters (target : Target) (setText removeText counter : Option String) :
    Except Failure (Dictionary Json) := do
  if counter.isSome && (setText.isSome || removeText.isSome) then
    refuse SemanticError.counterWithClause
  let setText := (counter.map Update.atomicCounter).or setText
  let key ← buildKey target.schema target.partitionText target.sortText
  let parameters ← Update.parameters target.schema.attributes setText removeText
  return Dictionary.ofEntries (("Key", .object key) :: parameters)

/-- The parameters of a query. The projection extends the table of the key condition, and its names
are those of both. -/
def queryParameters (strict : Bool) (target : Target) (condition attributes : Option String)
    (keysOnly : Bool) : Except Failure (Dictionary Json) := do
  let attributes := attributes.map fun text =>
    (KeySchema.splitCommas text.toList).map String.ofList
  let (compiled, projection) ← Compiling.onEmptyTable do
    let compiled ← compileKeyCondition strict target.schema target.partitionText condition
    let projection ← compileProjection keysOnly target.schema attributes
    return (compiled, projection)
  let parameters := compiled.parameters "KeyConditionExpression"
  match projection with
  | none => return parameters
  | some projection =>
    let names := projection.names.map fun (ref, name) => (ref, Json.string name)
    return Dictionary.insert
      (Dictionary.insert parameters "ProjectionExpression" (.string projection.expression))
      "ExpressionAttributeNames" (.object names)

/-- Only a query looks at the configuration. -/
def Command.readsConfig : Command → Bool
  | .query .. => true
  | _ => false

/-- The parameters that a command asks for. -/
def Command.parameters (config : ConfigFile) : Command → Except Failure (Dictionary Json)
  | .item target body inferSets => itemParameters target body inferSets
  | .update target setText removeText counter =>
    updateParameters target setText removeText counter
  | .query target condition strict lenient attributes keysOnly => do
    let settings ← Config.ofFile config
    let strict ← liftRefusal ((Config.strictness strict lenient (some settings)).mapError .config)
    queryParameters strict target condition attributes keysOnly

/-- What a run writes and the status with which it ends. -/
structure Outcome where
  status : Nat
  output : String
  errors : String
deriving DecidableEq, Repr

/-- The end of a run that fails with a message. -/
def Outcome.failed (failure : Failure) : Outcome := ⟨1, "", "Error: " ++ failure.message ++ "\n"⟩

/-- The end of a run, unless it fails in a way that is not foreseen: only refusals and files that
cannot be read are reported. -/
def Command.run (config : ConfigFile) (command : Command) : Except Failure Outcome :=
  match command.parameters config with
  | .ok parameters => .ok ⟨0, (Json.object parameters).print ++ "\n", ""⟩
  | .error (.refused error) => .ok (.failed (.refused error))
  | .error (.unreadableFile path reason) => .ok (.failed (.unreadableFile path reason))
  | .error failure => .error failure

/-- The status with which a command line ends that does not lead to a run. -/
def Stop.status : Stop → Nat
  | .help => 0
  | .usage => 2

end AttributeExpr.CommandLine
