import AttributeExpr.Path.Parser
import AttributeExpr.Update.Basic
import AttributeExpr.Value.Parser
/-!
Reading the clauses of an update: assignments or paths, separated by commas. A formula is an
operand or the sum or difference of two, and an operand is a literal, a path or a call of one of
the two functions. A name before a parenthesis is always a call.
-/
namespace AttributeExpr.Update

/-- The symbols that may stand after a literal somewhere in an assignment. -/
def mayFollowLiteral : Symbol → Bool
  | .mark .plus | .mark .minus | .mark (.closing .paren) => true
  | symbol => Value.mayFollowLiteral symbol

/-- The symbols that may stand after a position of a path somewhere in an assignment. -/
def mayFollowIndex : Symbol → Bool
  | .mark .equal | .mark .plus | .mark .minus | .mark .comma | .mark (.closing .paren) => true
  | symbol => Path.mayFollowIndex symbol

/-- The same where the only paths are those to be removed. -/
def mayFollowRemovedIndex : Symbol → Bool
  | .mark .comma => true
  | symbol => Path.mayFollowIndex symbol

def mayFollowFormula : Symbol → Bool
  | .mark .comma | .mark (.closing .paren) => true
  | _ => false

def mayFollowCall : Symbol → Bool
  | .mark .plus | .mark .minus => true
  | symbol => mayFollowFormula symbol

/-- Refuses a literal other than a number as an operand of arithmetic. -/
def checkOperand (op : ArithmeticOp) : Formula → Except Failure Unit
  | .literal value =>
    if value.type = .number then .ok ()
    else refuse (TypingError.arithmeticOperand op.text value.type)
  | _ => .ok ()

def arithmeticOf (op : ArithmeticOp) (left right : Formula) : Except Failure Formula := do
  checkOperand op left
  checkOperand op right
  return .arithmetic op left right

/-- The call of a function whose name is at `position`. -/
def callOf (name : String) (position : Nat) (first second : Formula) : Except Failure Formula :=
  if name = "list_append" then .ok (.listAppend first second)
  else if name = "if_not_exists" then
    match first with
    | .path path => .ok (.ifNotExists path second)
    | _ => refuse (GrammarError.firstArgument position)
  else refuse (GrammarError.unsupportedFunction name position)

/-- The operation that a symbol stands for between two operands. -/
def arithmeticOp? : Symbol → Option ArithmeticOp
  | .mark .plus => some .plus
  | .mark .minus => some .minus
  | _ => none

mutual

def readOperand (s : Surroundings) (fuel : Nat) (tokens : List Token) :
    Except Failure (Formula × List Token) :=
  match fuel, tokens with
  | fuel + 1, ⟨.name name, position, _⟩ :: ⟨.mark (.opening .paren), _, _⟩ :: rest => do
    let (first, rest) ← readFormula s fuel rest
    let rest ← Reading.expect s.fault .comma rest
    let (second, rest) ← readFormula s fuel rest
    let rest ← Reading.expect s.fault (.closing .paren) rest
    Reading.lookAhead s.fault mayFollowCall rest
    return (← callOf name position first second, rest)
  | _, token :: rest =>
    match Path.nameText? token.symbol with
    | some _ => (Path.read s (token :: rest)).map fun (path, rest) => (.path path, rest)
    | none => (Value.read s (token :: rest)).map fun (value, rest) => (.literal value, rest)
  | _, [] => Reading.fail s.fault []

def readFormula (s : Surroundings) (fuel : Nat) (tokens : List Token) :
    Except Failure (Formula × List Token) :=
  match fuel with
  | 0 => Reading.fail s.fault tokens
  | fuel + 1 =>
    match readOperand s fuel tokens with
    | .error e => .error e
    | .ok (left, []) => .ok (left, [])
    | .ok (left, token :: rest) =>
      match arithmeticOp? token.symbol with
      | none => .ok (left, token :: rest)
      | some op => do
        let (right, rest) ← readOperand s fuel rest
        Reading.lookAhead s.fault mayFollowFormula rest
        return (← arithmeticOf op left right, rest)

end

def readAssignment (s : Surroundings) (tokens : List Token) :
    Except Failure (Action × List Token) := do
  let (target, rest) ← Path.read s tokens
  let rest ← Reading.expect s.fault .equal rest
  let (formula, rest) ← readFormula s (Value.fuelFor rest) rest
  return (.set target formula, rest)

def readRemoval (s : Surroundings) (tokens : List Token) : Reading Action :=
  (Path.read s tokens).map fun (target, rest) => (.remove target, rest)

/-- Reads actions separated by commas. -/
def readActions (s : Surroundings) (readAction : List Token → Reading Action) (fuel : Nat)
    (tokens : List Token) : Reading (List Action) :=
  match fuel with
  | 0 => Reading.fail s.fault tokens
  | fuel + 1 =>
    match readAction tokens with
    | .error e => .error e
    | .ok (action, ⟨.mark .comma, _, _⟩ :: rest) =>
      (readActions s readAction fuel rest).map fun (actions, rest) => (action :: actions, rest)
    | .ok (action, rest) => .ok ([action], rest)

/-- The assignments that the tokens of a text spell. -/
def assignmentsOf (scan : Scan) : Except Failure (List Action) :=
  let s : Surroundings := ⟨scan.fault, mayFollowLiteral, mayFollowIndex⟩
  Reading.complete s.fault
    (readActions s (readAssignment s) (scan.tokens.length + 1) scan.tokens)

/-- The removals that the tokens of a text spell. -/
def removalsOf (scan : Scan) : Except Failure (List Action) :=
  let s : Surroundings := ⟨scan.fault, fun _ => false, mayFollowRemovedIndex⟩
  Reading.complete s.fault (readActions s (readRemoval s) (scan.tokens.length + 1) scan.tokens)

/-- The assignments that a text spells. -/
def parseSet (text : String) : Except Failure (List Action) := assignmentsOf (scanNested text)

/-- The removals that a text spells. -/
def parseRemove (text : String) : Except Failure (List Action) := removalsOf (scanNested text)

end AttributeExpr.Update
