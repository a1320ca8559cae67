import AttributeExpr.Text.Character
/-!
The tokens of YAML text. Beside what is written there are tokens for what only the layout shows:
where a block starts and ends, and that a node is a key.
-/
namespace AttributeExpr.Yaml

inductive Shape
  | sequence | mapping
deriving DecidableEq

/-- A tag as written: a handle, which stands for the start of a name, and the rest of the name. -/
structure TagText where
  handle : Option (List Char)
  suffix : List Char
deriving DecidableEq

inductive Directive
  | version (major : Nat)
  | tag (handle start : List Char)
  | other
deriving DecidableEq

inductive Token
  | directive (directive : Directive)
  | documentStart
  | documentEnd
  | endOfText
  | openBlock (shape : Shape)
  | closeBlock
  | openFlow (shape : Shape)
  | closeFlow (shape : Shape)
  /-- The dash before an item of a block. -/
  | item
  | comma
  | key
  | value
  | alias (name : List Char)
  | anchor (name : List Char)
  | tag (text : TagText)
  | scalar (text : CodePoints) (isPlain : Bool)
deriving DecidableEq

end AttributeExpr.Yaml
