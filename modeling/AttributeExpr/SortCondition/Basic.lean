import AttributeExpr.Value.Render
/-!
Conditions on the sort key of a query: a comparison with a value, a range between two values, or a
common beginning.
-/
namespace AttributeExpr

inductive Comparison
  | equal | less | lessEqual | greater | greaterEqual
deriving DecidableEq, Repr

def Comparison.text : Comparison → String
  | equal => "="
  | less => "<"
  | lessEqual => "<="
  | greater => ">"
  | greaterEqual => ">="

inductive SortCondition
  | compare (comparison : Comparison) (value : Value)
  | between (low high : Value)
  | beginsWith (start : Value)
deriving Repr

namespace SortCondition

/-- The values of a condition, in the order in which they are written. -/
def operands : SortCondition → List Value
  | compare _ value => [value]
  | between low high => [low, high]
  | beginsWith start => [start]

/-- The same condition on other values, which are computed in the order of writing. -/
def mapValues {ε : Type} (f : Value → Except ε Value) : SortCondition → Except ε SortCondition
  | compare comparison value => do return compare comparison (← f value)
  | between low high => do return between (← f low) (← f high)
  | beginsWith start => do return beginsWith (← f start)

/-- The text that spells a condition. -/
def render : SortCondition → String
  | compare comparison value => comparison.text ++ " " ++ value.render
  | between low high => "between " ++ low.render ++ " and " ++ high.render
  | beginsWith start => "begins_with " ++ start.render

end SortCondition

end AttributeExpr
