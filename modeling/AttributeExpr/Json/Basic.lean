import AttributeExpr.Decimal.Shortest
import AttributeExpr.Dictionary
import AttributeExpr.Text.Display
/-!
JSON documents. Integers are exact; other numbers are binary, or decimal where a reader asks for
that. The members of an object keep their order.
-/
namespace AttributeExpr

inductive Json
  | null
  | bool (value : Bool)
  | int (value : Int)
  | binary (value : Binary64)
  | decimal (value : Decimal)
  | string (value : String)
  | array (items : List Json)
  | object (members : List (String × Json))

namespace Json

mutual

/-- How a message shows a document. -/
def display : Json → String
  | null => Display.null
  | bool b => Display.bool b
  | int n => toString n
  | binary x => x.text
  | decimal d => "Decimal('" ++ d.toScientific ++ "')"
  | string s => Display.string s
  | array items => Display.list (displayItems items)
  | object members => Display.map (displayMembers members)

def displayItems : List Json → List String
  | [] => []
  | item :: rest => display item :: displayItems rest

def displayMembers : List (String × Json) → List (String × String)
  | [] => []
  | (key, value) :: rest => (Display.string key, display value) :: displayMembers rest

end

/-- The text of a document where it stands for itself: a string as it is, anything else as shown. -/
def plainText : Json → String
  | string s => s
  | document => document.display

/-- Whether a document counts as true: not null, zero or empty. -/
def isTruthy : Json → Bool
  | null => false
  | bool b => b
  | int n => n ≠ 0
  | binary (.finite _ mantissa _) => mantissa ≠ 0
  | binary _ => true
  | decimal (.finite _ coefficient _) => coefficient ≠ 0
  | decimal _ => true
  | string s => s ≠ ""
  | array items => !items.isEmpty
  | object members => !members.isEmpty

end Json

end AttributeExpr
