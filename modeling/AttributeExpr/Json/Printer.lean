import AttributeExpr.Json.Basic
/-!
Writing JSON text over several lines, with two spaces of indentation for each level. Empty arrays
and objects stay on one line. Only the quote, the backslash and the controls below the space are
escaped.
-/
namespace AttributeExpr.Json

def escapeChar (c : Char) : List Char :=
  match c with
  | '\x22' => ['\\', '\x22']
  | '\\' => ['\\', '\\']
  | '\n' => ['\\', 'n']
  | '\r' => ['\\', 'r']
  | '\t' => ['\\', 't']
  | '\x08' => ['\\', 'b']
  | '\x0c' => ['\\', 'f']
  | c => if c.toNat < 0x20 then '\\' :: 'u' :: hexDigits 4 c.toNat else [c]

def printString (text : String) : String :=
  String.ofList ('\x22' :: text.toList.flatMap escapeChar ++ ['\x22'])

/-- A line break and the indentation of a level. -/
def lineStart (level : Nat) : String := "\n" ++ String.ofList (List.replicate (2 * level) ' ')

/-- Lines between brackets, each on its own; without lines the brackets stand together. -/
def block (opening closing : String) (level : Nat) (lines : List String) : String :=
  if lines.isEmpty then opening ++ closing
  else opening ++ lineStart (level + 1) ++ ("," ++ lineStart (level + 1)).intercalate lines ++
    lineStart level ++ closing

mutual

/-- Prints a document whose first line is already indented for `level`. -/
def printAt (level : Nat) : Json → String
  | null => "null"
  | bool b => if b then "true" else "false"
  | int n => toString n
  | binary x => x.text
  | decimal d => d.toScientific
  | string s => printString s
  | array items => block "[" "]" level (printItems (level + 1) items)
  | object members => block "\x7b" "\x7d" level (printMembers (level + 1) members)

def printItems (level : Nat) : List Json → List String
  | [] => []
  | item :: rest => printAt level item :: printItems level rest

def printMembers (level : Nat) : List (String × Json) → List String
  | [] => []
  | (key, value) :: rest =>
    (printString key ++ ": " ++ printAt level value) :: printMembers level rest

end

def print (document : Json) : String := printAt 0 document

end AttributeExpr.Json
