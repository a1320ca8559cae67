import AttributeExpr.Placeholder
import AttributeExpr.SortCondition.Resolution
/-!
Compiling the conditions of a query on its keys. The partition key is always equal to a value; a
condition on the sort key may follow.
-/
namespace AttributeExpr

/-- Compiles a condition on a sort key. -/
def SortCondition.compile (key : Key) (condition : SortCondition) : Compiling String := do
  let name ← Compiling.nameRef key.name
  match condition with
  | compare comparison value =>
    let value ← Compiling.valueRef value
    return name ++ " " ++ comparison.text ++ " " ++ value
  | between low high =>
    let low ← Compiling.valueRef low
    let high ← Compiling.valueRef high
    return name ++ " BETWEEN " ++ low ++ " AND " ++ high
  | beginsWith start =>
    let start ← Compiling.valueRef start
    return "begins_with(" ++ name ++ ", " ++ start ++ ")"

/-- Compiles the conditions for a partition value and, where a text is given, for the sort key. -/
def compileKeyCondition (strict : Bool) (schema : KeySchema) (partitionText : String)
    (sortText : Option String) : Compiling CompiledExpression := do
  let value ← Compiling.ofExcept (Key.valueOf schema.partition.type partitionText)
  let name ← Compiling.nameRef schema.partition.name
  let value ← Compiling.valueRef value
  let partition := name ++ " = " ++ value
  match sortText, schema.sort with
  | none, _ => Compiling.compiled partition
  | some _, none =>
    throw (.refused (SemanticError.conditionWithoutSortKey schema.partition.display))
  | some text, some key =>
    let condition ← Compiling.ofExcept (SortCondition.parseFor strict key text)
    let sort ← condition.compile key
    Compiling.compiled (partition ++ " AND " ++ sort)

end AttributeExpr
