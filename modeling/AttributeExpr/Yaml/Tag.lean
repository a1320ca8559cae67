import AttributeExpr.Yaml.Form
import AttributeExpr.Yaml.Timestamp
/-!
The tags of YAML 1.1, which say what kind of value a node stands for. A plain scalar has the tag of
its form: a word without quotes is null, a boolean, a number or a date if it looks like one, and
otherwise a string.
-/
namespace AttributeExpr.Yaml

inductive Tag
  | null | bool | int | float | binary | timestamp | string
  | sequence | mapping | set | pairs | orderedPairs
  /-- The key whose value is merged into the mapping around it. -/
  | merge
  /-- The key whose value stands for the whole mapping where a scalar is wanted. -/
  | defaultValue
  | unknown
deriving DecidableEq, Repr

namespace Tag

/-- Whether a node with the tag holds other nodes. -/
def isCollection : Tag → Bool
  | sequence | mapping | set | pairs | orderedPairs => true
  | _ => false

/-- The tags by the last part of their names. -/
def names : List (String × Tag) :=
  [("null", null), ("bool", bool), ("int", int), ("float", float), ("binary", binary),
    ("timestamp", timestamp), ("str", string), ("seq", sequence), ("map", mapping), ("set", set),
    ("pairs", pairs), ("omap", orderedPairs), ("merge", merge), ("value", defaultValue)]

/-- What the names of all tags start with. -/
def family : String := "tag:yaml.org,2002:"

def ofName (name : List Char) : Tag :=
  let start := family.toList
  if start.isPrefixOf name then
    (names.lookup (String.ofList (name.drop start.length))).getD unknown
  else unknown

def nullWords : List String := ["", "~", "null", "Null", "NULL"]

def trueWords : List String :=
  ["yes", "Yes", "YES", "true", "True", "TRUE", "on", "On", "ON"]

def falseWords : List String :=
  ["no", "No", "NO", "false", "False", "FALSE", "off", "Off", "OFF"]

/-- Whether a text has the form of a date of four, two and two digits, or of a date with a time. -/
def isTimestamp (text : List Char) : Bool :=
  match Timestamp.read? text with
  | none => false
  | some time => time.clock.isSome || text.length = 10

/-- The tag of a plain scalar. A line break at its end does not count. -/
def ofPlain (text : List Char) : Tag :=
  let text := if 1 < text.length && text.getLast? = some '\n' then text.dropLast else text
  let word := String.ofList text
  if (trueWords ++ falseWords).contains word then bool
  else if isFraction text then float
  else if isInteger text then int
  else if word = "<<" then merge
  else if nullWords.contains word then null
  else if isTimestamp text then timestamp
  else if word = "=" then defaultValue
  else if ["!", "&", "*"].contains word then unknown
  else string

end Tag

end AttributeExpr.Yaml
