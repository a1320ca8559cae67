import AttributeExpr.Error.Failure
import AttributeExpr.Numeral
import AttributeExpr.Text.Character
import AttributeExpr.Text.UpperCase
import AttributeExpr.Value.Basic
/-!
The primary key of a table: a partition key and an optional sort key, each an attribute name with
the type of its values. A key is written as its name, or as name, colon and type; the two keys of a
table are separated by a comma. The values of keys are written plainly: a string as it is, a number
as a numeral and a binary in base64.
-/
namespace AttributeExpr

/-- The types that a key may have. -/
def keyTypes : List AttributeType := [.string, .number, .binary]

/-- The type that a letter denotes. -/
def parseKeyType (text : String) : Except SemanticError AttributeType :=
  match keyTypes.find? (·.tag == text) with
  | some type => .ok type
  | none => .error (.keyType text)

structure Key where
  name : String
  type : AttributeType
deriving DecidableEq, Repr

namespace Key

/-- The key with a name and a type, which must be one that keys may have. -/
def make (name : String) (type : AttributeType) : Except SemanticError Key :=
  if !type.isScalar then .error (.keyType type.tag)
  else if name = "" then .error .emptyKeyName
  else .ok ⟨name, type⟩

def display (key : Key) : String := key.name ++ " (" ++ key.type.tag ++ ")"

/-- The parts before and after the last colon. -/
def splitType? (text : List Char) : Option (List Char × List Char) :=
  let reversed := text.reverse
  match reversed.dropWhile (· ≠ ':') with
  | [] => none
  | _ :: name => some (name.reverse, (reversed.takeWhile (· ≠ ':')).reverse)

/-- Reads a key; without a type its values are strings. -/
def parse (text : String) : Except SemanticError Key :=
  let text := trim text.toList
  match splitType? text with
  | none => make (String.ofList text) .string
  | some (name, type) => do
    let type ← parseKeyType (String.ofList (upperCase (trim type)))
    make (String.ofList (trim name)) type

/-- The value of a type that a text denotes. -/
def valueOf (type : AttributeType) (text : String) : Except Failure Value :=
  match type with
  | .string => .ok (.string text)
  | .number =>
    match Numeral.read? text.toList with
    | some numeral => .ok (.number (String.ofList numeral))
    | none => refuse (TypingError.numberKey text)
  | .binary =>
    match Base64.decode text.toList with
    | .ok bytes => .ok (.binary bytes)
    | .error .nonAscii => .error .nonAsciiBase64
    | .error _ => refuse (TypingError.binaryKey text)
  | other => refuse (SemanticError.keyType other.tag)

end Key

structure KeySchema where
  partition : Key
  sort : Option Key
deriving DecidableEq, Repr

namespace KeySchema

/-- The names of the key attributes, the partition key first. -/
def attributes (schema : KeySchema) : List String :=
  schema.partition.name :: (schema.sort.map (·.name)).toList

/-- The parts of a text between commas. -/
def splitCommas : List Char → List (List Char)
  | [] => [[]]
  | c :: rest =>
    if c = ',' then [] :: splitCommas rest
    else (c :: (splitCommas rest).headD []) :: (splitCommas rest).tail

/-- Reads one or two keys. Parts that are blank do not count. -/
def parse (text : String) : Except SemanticError KeySchema :=
  match (splitCommas text.toList).filter fun part => !part.all isBlank with
  | [partition] => do return ⟨← Key.parse (String.ofList partition), none⟩
  | [partition, sort] => do
    let partition ← Key.parse (String.ofList partition)
    return ⟨partition, some (← Key.parse (String.ofList sort))⟩
  | _ => .error (.keySchema text)

end KeySchema

end AttributeExpr
