import AttributeExpr.AttributeType
import AttributeExpr.Error.Syntax
/-!
Errors of typing: what a value of each type can hold, and where values of only some types may stand.
-/
namespace AttributeExpr

/-- A value of the wrong type, or outside what its type can hold. -/
inductive TypingError
  | emptySet
  /-- A set whose first element is not a scalar. -/
  | setElement (type : AttributeType)
  | mixedSet (first other : AttributeType)
  | duplicateElement (text : String)
  | notNumber (text : String)
  | tooPrecise (text : String)
  | outOfRange (text : String)
  /-- A document number that is infinite or not a number. -/
  | notFinite (text : String)
  | notEnvelope (shown : String)
  | binaryPayload (shown : String)
  | unknownTag (tag : String)
  | arithmeticOperand (operator : String) (type : AttributeType)
  | itemType (type : AttributeType)
  | numberKey (text : String)
  | binaryKey (text : String)
  | sortKeyMismatch (expected actual : AttributeType) (suggestion : Option String)
  | ambiguousCoercion (actual expected : AttributeType) (text : String)
deriving DecidableEq, Repr

def TypingError.message : TypingError → String
  | emptySet => "Empty set is not allowed"
  | setElement type => "Set elements must be numbers, strings or binaries, found " ++ type.display
  | mixedSet first other =>
    "Set elements must all be numbers, all strings or all binaries, but found " ++
      first.display ++ " and " ++ other.display
  | duplicateElement text => "Duplicate element in set: " ++ text
  | notNumber text | notFinite text => "Not a valid number: " ++ text
  | tooPrecise text => "Number " ++ text ++ " has more than 38 significant digits"
  | outOfRange text => "Number " ++ text ++ " is out of the supported range"
  | notEnvelope shown => "Not an attribute value envelope: " ++ shown
  | binaryPayload shown => "Invalid base64 in binary attribute: " ++ shown
  | unknownTag tag => "Unknown attribute type: " ++ tag
  | arithmeticOperand operator type =>
    "Operand of " ++ quoted operator ++ " must be a number or a path, but got " ++ type.display
  | itemType type => "Item must be a map literal, but got " ++ type.display
  | numberKey text => "Not a valid number for a key of type N: " ++ text
  | binaryKey text => "Not valid base64 for a key of type B: " ++ text
  | sortKeyMismatch expected actual suggestion =>
    "Invalid type detected. Expected type is " ++ expected.display ++ ", but actual type is " ++
      actual.display ++ "." ++ (suggestion.map readingOffer).getD ""
  | ambiguousCoercion actual expected text =>
    "Cannot interpret " ++ actual.display ++ " literal as " ++ expected.display ++ ": " ++ text

end AttributeExpr
