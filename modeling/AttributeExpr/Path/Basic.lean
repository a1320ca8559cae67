import AttributeExpr.Text.IdentifierChar
/-!
Names of attributes, and paths into an item: names of attributes and members, and positions in
lists. A name stands bare when it is an identifier and not one of the words that are literals; any
other name is written between backticks, with each backtick in it doubled. A path is written with
points between names and with positions in brackets.
-/
namespace AttributeExpr

namespace Name

/-- The offset of the first character that keeps a text from being an identifier. -/
def invalidOffset? : List Char → Option Nat
  | [] => some 0
  | c :: rest =>
    if isIdentifierStart c then (rest.findIdx? fun d => !isIdentifierContinue d).map (· + 1)
    else some 0

def isIdentifier (text : List Char) : Bool := (invalidOffset? text).isNone

/-- Lower case of the ASCII letters; no other letter is part of a keyword in any case. -/
def lowerCase (text : List Char) : List Char := text.map Char.toLower

/-- The words that denote values and so cannot stand bare as names. -/
def literalWords : List String := ["true", "false", "null"]

/-- The inside of a quoted name. -/
def doubleBackticks (name : List Char) : List Char :=
  name.flatMap fun c => if c = '\x60' then [c, c] else [c]

def standsBare (name : List Char) : Bool :=
  isIdentifier name && !literalWords.contains (String.ofList (lowerCase name))

/-- The spelling of a name as a segment of a path. -/
def quote (name : String) : String :=
  if standsBare name.toList then name
  else String.ofList ('\x60' :: doubleBackticks name.toList ++ ['\x60'])

end Name

inductive Segment
  | name (name : String)
  | index (index : Int)
deriving DecidableEq, Repr

abbrev Path := List Segment

namespace Path

/-- The spelling of a segment that is not the first. -/
def segmentText : Segment → String
  | .name name => "." ++ Name.quote name
  | .index index => "[" ++ toString index ++ "]"

/-- The spelling of a path: only a name that is not first follows a point. -/
def text : Path → String
  | .name name :: rest => Name.quote name ++ String.join (rest.map segmentText)
  | path => String.join (path.map segmentText)

end Path

end AttributeExpr
