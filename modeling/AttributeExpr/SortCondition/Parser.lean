import AttributeExpr.SortCondition.Basic
import AttributeExpr.Token.Reading
/-!
Reading conditions on a sort key. A comparison sign is followed by a scalar, `between` by two with
an optional `and`, and `begins_with` by one; a scalar alone is to be equalled. A sign that stands
apart from its number is part of it.
-/
namespace AttributeExpr.SortCondition

def comparison? : Symbol → Option Comparison
  | .mark .equal | .mark .doubleEqual => some .equal
  | .mark .less => some .less
  | .mark .lessEqual => some .lessEqual
  | .mark .greater => some .greater
  | .mark .greaterEqual => some .greaterEqual
  | _ => none

/-- The symbols that may stand after a scalar somewhere in a condition. -/
def mayFollowScalar : Symbol → Bool
  | .number _ | .string _ | .binary _ | .keyword .conj _ | .mark .plus | .mark .minus => true
  | _ => false

/-- The number at `position` with a sign that stands before its text. -/
def signed (negative : Bool) (position : Nat) (text : String) : Except Failure Value :=
  if text.toList.head?.any Numeral.isSign then
    refuse (GrammarError.unexpectedToken text position)
  else .ok (.number (if negative then "-" ++ text else text))

/-- Reads the number after a sign. -/
def readSigned (fault : Option ExpressionError) (negative : Bool) (tokens : List Token) :
    Reading Value :=
  match tokens with
  | ⟨.number text, position, _⟩ :: rest =>
    match Reading.lookAhead fault mayFollowScalar rest with
    | .error e => .error e
    | .ok () => (signed negative position text).map (·, rest)
  | rest => Reading.fail fault rest

def readScalar (fault : Option ExpressionError) (tokens : List Token) : Reading Value :=
  match tokens with
  | ⟨.number text, _, _⟩ :: rest => .ok (.number text, rest)
  | ⟨.string text, _, _⟩ :: rest => .ok (.string text, rest)
  | ⟨.binary bytes, _, _⟩ :: rest => .ok (.binary bytes, rest)
  | ⟨.mark .minus, _, _⟩ :: rest => readSigned fault true rest
  | ⟨.mark .plus, _, _⟩ :: rest => readSigned fault false rest
  | rest => Reading.fail fault rest

/-- Passes over an `and`. -/
def skipConj : List Token → List Token
  | ⟨.keyword .conj _, _, _⟩ :: rest => rest
  | rest => rest

def read (fault : Option ExpressionError) (tokens : List Token) :
    Except Failure (SortCondition × List Token) :=
  match tokens with
  | [] => Reading.fail fault []
  | token :: rest =>
    match comparison? token.symbol, token.symbol with
    | some comparison, _ => do
      let (value, rest) ← readScalar fault rest
      return (compare comparison value, rest)
    | none, .keyword .between _ => do
      let (low, rest) ← readScalar fault rest
      let (high, rest) ← readScalar fault (skipConj rest)
      return (between low high, rest)
    | none, .keyword .beginsWith _ => do
      let (start, rest) ← readScalar fault rest
      return (beginsWith start, rest)
    | none, _ => do
      let (value, rest) ← readScalar fault (token :: rest)
      return (compare .equal value, rest)

/-- The condition that the tokens of a text spell. -/
def ofScan (scan : Scan) : Except Failure SortCondition :=
  Reading.complete scan.fault (read scan.fault scan.tokens)

/-- The condition that a text spells. -/
def parse (text : String) : Except Failure SortCondition := ofScan (scanNested text)

end AttributeExpr.SortCondition
