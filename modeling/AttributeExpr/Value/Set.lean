import AttributeExpr.Decimal.Basic
import AttributeExpr.Error.Failure
import AttributeExpr.Value.Render
/-!
Sets. A set has at least one element, its elements are all numbers, all strings or all binaries,
and no two of them are equal; numbers are compared by value.
-/
namespace AttributeExpr

/-- The value of a number as an element of a set. -/
def comparable (text : String) : Except Failure Decimal :=
  match Decimal.read? text with
  | none => .error .noDecimal
  | some d => if d.isSignaling then .error .signalingNaN else .ok d

/-- Checks that no number of a list equals an earlier one or one of `seen`. -/
def checkNumbers (seen : List Decimal) : List String → Except Failure Unit
  | [] => .ok ()
  | text :: rest =>
    match comparable text with
    | .error e => .error e
    | .ok d =>
      if seen.any d.sameValue then refuse (TypingError.duplicateElement text)
      else checkNumbers (d :: seen) rest

/-- The first member of a list that equals an earlier one or one of `seen`. -/
def firstRepeat? {α : Type} [DecidableEq α] (seen : List α) : List α → Option α
  | [] => none
  | a :: rest => if a ∈ seen then some a else firstRepeat? (a :: seen) rest

namespace Value

def numberText? : Value → Option String
  | number text => some text
  | _ => none

def stringText? : Value → Option String
  | string text => some text
  | _ => none

def binaryBytes? : Value → Option Bytes
  | binary bytes => some bytes
  | _ => none

def ofNumbers (elements : List String) : Except Failure Value :=
  (checkNumbers [] elements).map fun _ => numberSet elements

def ofStrings (elements : List String) : Except Failure Value :=
  match firstRepeat? [] elements with
  | some text => refuse (TypingError.duplicateElement (render (string text)))
  | none => .ok (stringSet elements)

def ofBinaries (elements : List Bytes) : Except Failure Value :=
  match firstRepeat? [] elements with
  | some bytes => refuse (TypingError.duplicateElement (render (binary bytes)))
  | none => .ok (binarySet elements)

/-- The set of the given elements. -/
def setOf (elements : List Value) : Except Failure Value :=
  match elements with
  | [] => refuse TypingError.emptySet
  | first :: _ =>
    if !first.type.isScalar then refuse (TypingError.setElement first.type)
    else match elements.find? (·.type ≠ first.type) with
      | some other => refuse (TypingError.mixedSet first.type other.type)
      | none =>
        match first with
        | number _ => ofNumbers (elements.filterMap numberText?)
        | string _ => ofStrings (elements.filterMap stringText?)
        | _ => ofBinaries (elements.filterMap binaryBytes?)

end Value

end AttributeExpr
