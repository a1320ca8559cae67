import AttributeExpr.AttributeType
import AttributeExpr.Bytes
import AttributeExpr.Dictionary
/-!
Typed attribute values. A number is kept as the text that spells it. Lists, maps and sets keep the
order of their parts, whether or not the order counts for equality.
-/
namespace AttributeExpr

inductive Value
  | null
  | bool (value : Bool)
  | number (text : String)
  | string (text : String)
  | binary (bytes : Bytes)
  | list (items : List Value)
  | map (entries : List (String × Value))
  | numberSet (elements : List String)
  | stringSet (elements : List String)
  | binarySet (elements : List Bytes)
deriving Repr

namespace Value

def type : Value → AttributeType
  | null => .null
  | bool _ => .bool
  | number _ => .number
  | string _ => .string
  | binary _ => .binary
  | list _ => .list
  | map _ => .map
  | numberSet _ => .numberSet
  | stringSet _ => .stringSet
  | binarySet _ => .binarySet

/-- The value under a key of a map; of a repeated key the last one counts. -/
def get? (value : Value) (key : String) : Option Value :=
  match value with
  | map entries => Dictionary.get? (Dictionary.ofEntries entries) key
  | _ => none

/-- The number of elements of a set. -/
def setSize? : Value → Option Nat
  | numberSet elements | stringSet elements => some elements.length
  | binarySet elements => some elements.length
  | _ => none

end Value

end AttributeExpr
