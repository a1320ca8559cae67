/-!
The ten types of an attribute value, with the tag that names each in an encoded value.
-/
namespace AttributeExpr

inductive AttributeType
  | string | number | binary | bool | null | list | map | numberSet | stringSet | binarySet
deriving DecidableEq, Repr

namespace AttributeType

def all : List AttributeType :=
  [string, number, binary, bool, null, list, map, numberSet, stringSet, binarySet]

def tag : AttributeType → String
  | string => "S"
  | number => "N"
  | binary => "B"
  | bool => "BOOL"
  | null => "NULL"
  | list => "L"
  | map => "M"
  | numberSet => "NS"
  | stringSet => "SS"
  | binarySet => "BS"

def name : AttributeType → String
  | string => "String"
  | number => "Number"
  | binary => "Binary"
  | bool => "Boolean"
  | null => "Null"
  | list => "List"
  | map => "Map"
  | numberSet => "Number Set"
  | stringSet => "String Set"
  | binarySet => "Binary Set"

def display (type : AttributeType) : String := type.name ++ " (" ++ type.tag ++ ")"

def ofTag? (tag : String) : Option AttributeType := all.find? (·.tag == tag)

/-- The types whose values may be keys and elements of sets. -/
def isScalar (type : AttributeType) : Bool :=
  type = string || type = number || type = binary

end AttributeType

end AttributeExpr
