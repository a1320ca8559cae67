import AttributeExpr.Error.Failure
import AttributeExpr.Token.Nesting
/-!
What the readers of tokens share. A reader takes tokens from the front and returns what it has read
with the tokens after it. The place where the tokens end is either the end of the text or a fault
of scanning, and the fault counts only for a reader that asks for another token there.
-/
namespace AttributeExpr

/-- What one kind of text lets stand after a literal and after a list index. Before a step that may
refuse what has been read, the next token is looked at, and one that can stand nowhere in such
texts is refused first. -/
structure Surroundings where
  /-- The fault that ends the tokens, if it is not the end of the text. -/
  fault : Option ExpressionError
  afterLiteral : Symbol → Bool
  afterIndex : Symbol → Bool

/-- What a reader returns. -/
abbrev Reading (α : Type) := Except Failure (α × List Token)

namespace Reading

/-- The refusal of a token. -/
def unexpected (token : Token) : GrammarError :=
  match token.symbol with
  | .mark .star => .unsupportedOperator Mark.star.text token.position
  | .mark .slash => .unsupportedOperator Mark.slash.text token.position
  | symbol => .unexpectedToken symbol.shown token.position

/-- Fails at the next token, whatever it is. -/
def fail {α : Type} (fault : Option ExpressionError) (tokens : List Token) : Except Failure α :=
  match tokens, fault with
  | token :: _, _ => refuse (unexpected token)
  | [], some error => refuse error
  | [], none => refuse GrammarError.unexpectedEnd

/-- Looks at the next token, which has to be among those allowed if there is one. -/
def lookAhead (fault : Option ExpressionError) (allowed : Symbol → Bool) (tokens : List Token) :
    Except Failure Unit :=
  match tokens, fault with
  | token :: _, _ => if allowed token.symbol then .ok () else refuse (unexpected token)
  | [], some error => refuse error
  | [], none => .ok ()

/-- Takes the next token, which has to be the given mark. -/
def expect (fault : Option ExpressionError) (mark : Mark) (tokens : List Token) :
    Except Failure (List Token) :=
  match tokens with
  | [] => fail fault []
  | token :: rest => if token.symbol = .mark mark then .ok rest else fail fault (token :: rest)

/-- The result of a reader that has to read all tokens. -/
def complete {α : Type} (fault : Option ExpressionError) (reading : Reading α) :
    Except Failure α := do
  let (a, rest) ← reading
  lookAhead fault (fun _ => false) rest
  return a

end Reading

end AttributeExpr
