import AttributeExpr.Literal.ByteBody
import AttributeExpr.Literal.StringBody
import AttributeExpr.Value.Basic
/-!
The literal that spells a value. Strings and keys are double-quoted, binaries are base64 literals,
and a number stands as its own text.
-/
namespace AttributeExpr.Value

private def enclose (opening closing : String) (parts : List String) : String :=
  opening ++ ", ".intercalate parts ++ closing

mutual

def render : Value → String
  | null => "null"
  | bool b => if b then "true" else "false"
  | number text => text
  | string text => StringBody.literal text
  | binary bytes => Base64Body.literal bytes
  | list items => enclose "[" "]" (renderItems items)
  | map entries => enclose "\x7b" "\x7d" (renderEntries entries)
  | numberSet elements => enclose "<<" ">>" elements
  | stringSet elements => enclose "<<" ">>" (elements.map StringBody.literal)
  | binarySet elements => enclose "<<" ">>" (elements.map Base64Body.literal)

def renderItems : List Value → List String
  | [] => []
  | item :: rest => render item :: renderItems rest

def renderEntries : List (String × Value) → List String
  | [] => []
  | (key, value) :: rest => (StringBody.literal key ++ ": " ++ render value) :: renderEntries rest

end

end AttributeExpr.Value
