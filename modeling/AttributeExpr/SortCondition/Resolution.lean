import AttributeExpr.Key.Basic
import AttributeExpr.SortCondition.BareWord
import AttributeExpr.SortCondition.Parser
/-!
Fitting a condition to the type of a sort key. The strict policy demands values of that type and
offers the other reading, if there is one, in its refusal. The lenient policy reads a value as one
of the key's type where that can mean only one thing.
-/
namespace AttributeExpr

/-- A scalar as a value of another type: a number as the string of its text, a string as the number
that it spells, and a string of hexadecimal digits as the bytes that it spells. -/
def Value.coerce (type : AttributeType) (value : Value) : Except TypingError Value :=
  if value.type = type then .ok value
  else
    let ambiguous := TypingError.ambiguousCoercion value.type type value.render
    match type, value with
    | .string, .number text => .ok (.string text)
    | .number, .string text =>
      match Numeral.read? (trim text.toList) with
      | some numeral => .ok (.number (String.ofList numeral))
      | none => .error ambiguous
    | .binary, .string text =>
      match Bytes.ofHexDigits? text.toList with
      | some (byte :: bytes) => .ok (.binary (byte :: bytes))
      | _ => .error ambiguous
    | _, _ => .error ambiguous

namespace SortCondition

/-- The condition with its values as values of the key's type. -/
def coerce (key : Key) (condition : SortCondition) : Except TypingError SortCondition :=
  condition.mapValues (Value.coerce key.type)

/-- The reading that a strict refusal offers. -/
def suggestion? (key : Key) (condition : SortCondition) : Option String :=
  match condition.coerce key with
  | .ok coerced => some coerced.render
  | .error _ => none

/-- Whether a condition asks for a beginning of numbers, which have none. -/
def asksNumberStart (key : Key) : SortCondition → Bool
  | beginsWith _ => key.type = .number
  | _ => false

/-- Fits a condition to a key under the strict or the lenient policy. -/
def resolve (strict : Bool) (key : Key) (condition : SortCondition) :
    Except ExpressionError SortCondition :=
  if condition.asksNumberStart key then
    .error (SemanticError.beginsWithNumberKey key.display)
  else if strict then
    match condition.operands.find? (·.type ≠ key.type) with
    | some value =>
      .error (TypingError.sortKeyMismatch key.type value.type (condition.suggestion? key))
    | none => .ok condition
  else (condition.coerce key).mapError .typing

/-- Whether a failure leaves open that the text has another reading. -/
def allowsOtherReading : Failure → Bool
  | .refused (.lexical _) | .refused (.grammar _) => true
  | _ => false

/-- Reads a condition and fits it to a key. For string keys, a text that is no condition of
literals is read again with its words as strings; the strict policy only names that reading. -/
def parseFor (strict : Bool) (key : Key) (text : String) : Except Failure SortCondition :=
  match parse text with
  | .ok condition => liftRefusal (condition.resolve strict key)
  | .error failure =>
    if !allowsOtherReading failure then .error failure
    else match failure, (if key.type = .string then parseBare? text else none) with
      | .refused error, some condition =>
        if strict then refuse (.offering error condition.render)
        else liftRefusal (condition.resolve strict key)
      | failure, _ => .error failure

end SortCondition

end AttributeExpr
