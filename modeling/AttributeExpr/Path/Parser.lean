import AttributeExpr.Decimal.Basic
import AttributeExpr.Path.Basic
import AttributeExpr.Token.Reading
/-!
Reading paths. A position in a list is a run of digits. Keywords other than the three literals may
stand as names.
-/
namespace AttributeExpr.Path

/-- The name that a symbol stands for in a path. -/
def nameText? : Symbol → Option String
  | .name text => some text
  | .keyword .between spelling | .keyword .conj spelling | .keyword .beginsWith spelling =>
    some spelling
  | _ => none

/-- The segment for the text of a number at `position`. -/
def indexOf (position : Nat) (text : String) : Except Failure Segment :=
  let digits := text.toList
  if digits.isEmpty || !digits.all Numeral.isDigit then
    refuse (GrammarError.listIndex text position)
  else if Numeral.maxDigits < digits.length then .error .longIndex
  else .ok (.index (Decimal.ofDigits digits))

/-- Reads the segments after the first. -/
def readSegments (s : Surroundings) : List Token → Reading Path
  | ⟨.mark .dot, _, _⟩ :: [] => Reading.fail s.fault []
  | ⟨.mark .dot, _, _⟩ :: token :: rest =>
    match nameText? token.symbol with
    | some name => (readSegments s rest).map fun (segments, rest) => (.name name :: segments, rest)
    | none => Reading.fail s.fault (token :: rest)
  | ⟨.mark (.opening .square), _, _⟩ :: ⟨.number text, position, _⟩ ::
      ⟨.mark (.closing .square), _, _⟩ :: rest =>
    match Reading.lookAhead s.fault s.afterIndex rest with
    | .error e => .error e
    | .ok () =>
      match indexOf position text with
      | .error e => .error e
      | .ok segment => (readSegments s rest).map fun (segments, rest) => (segment :: segments, rest)
  | ⟨.mark (.opening .square), _, _⟩ :: ⟨.number _, _, _⟩ :: rest => Reading.fail s.fault rest
  | ⟨.mark (.opening .square), _, _⟩ :: rest => Reading.fail s.fault rest
  | rest => .ok ([], rest)

/-- Reads one path at the front of some tokens. -/
def read (s : Surroundings) (tokens : List Token) : Reading Path :=
  match tokens with
  | [] => Reading.fail s.fault []
  | token :: rest =>
    match nameText? token.symbol with
    | some name => (readSegments s rest).map fun (segments, rest) => (.name name :: segments, rest)
    | none => Reading.fail s.fault (token :: rest)

/-- The symbols that may stand after a position where a path is all there is. -/
def mayFollowIndex : Symbol → Bool
  | .mark .dot | .mark (.opening .square) => true
  | _ => false

/-- The path that the tokens of a text spell. -/
def ofScan (scan : Scan) : Except Failure Path :=
  Reading.complete scan.fault (read ⟨scan.fault, fun _ => false, mayFollowIndex⟩ scan.tokens)

/-- The path that a text spells. -/
def parse (text : String) : Except Failure Path := ofScan (scanNested text)

end AttributeExpr.Path
