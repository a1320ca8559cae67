import AttributeExpr.Token.Lexeme
/-!
Cutting a text into tokens. Spaces, tabs and line breaks separate tokens and are dropped. The
result holds every token before the first fault, so that a reader of the tokens meets the fault
exactly when it asks for the token that cannot be made.
-/
namespace AttributeExpr

/-- The tokens of a text up to its first fault, if it has one, and the line reached. -/
structure Scan where
  tokens : List Token
  fault : Option ExpressionError
  line : Nat
deriving DecidableEq, Repr

/-- The scan with a further token in front. -/
def Scan.push (scan : Scan) (token : Token) : Scan := { scan with tokens := token :: scan.tokens }

/-- All tokens of a text without fault. -/
def Scan.result (scan : Scan) : Except ExpressionError (List Token) :=
  match scan.fault with
  | some error => .error error
  | none => .ok scan.tokens

namespace Lexer

def isSeparator (c : Char) : Bool := c = ' ' || c = '\t' || c = '\r' || c = '\n'

/-- Whether the token is a bare `b` or `b64` that ends at `position`. -/
def introducesBinary (position : Nat) (token : Token) : Bool :=
  (token.symbol = .name "b" && token.position + 1 = position) ||
    (token.symbol = .name "b64" && token.position + 3 = position)

/-- The fault at a character with which no lexeme starts. -/
def stray (position : Nat) (previous : Option Token) (c : Char) : LexicalError :=
  if c = '\x22' || c = '\x27' then
    match previous.filter (introducesBinary position) with
    | some token => .unterminatedBinary token.position
    | none => .unterminatedString position
  else if c = '\x60' then .unterminatedName position
  else .unexpectedChar c position

/-- Scans a text that starts at `position` and `line`, after the token `previous`. -/
def scanFrom (position line : Nat) (previous : Option Token) (text : List Char) : Scan :=
  match text with
  | [] => ⟨[], none, line⟩
  | c :: rest =>
    if isSeparator c then
      scanFrom (position + 1) (if c = '\n' then line + 1 else line) previous rest
    else
      match h : Lexeme.split? (previous.any (·.symbol.endsOperand)) (c :: rest) with
      | none => ⟨[], some (stray position previous c), line⟩
      | some (lexeme, after) =>
        have : after.length < (c :: rest).length := Lexeme.split?_length h
        let nextLine := line + lexeme.lineBreaks
        match lexeme.symbol position with
        | .error error => ⟨[], some error, nextLine⟩
        | .ok symbol =>
          let token := ⟨symbol, position, line⟩
          (scanFrom (position + ((c :: rest).length - after.length)) nextLine (some token)
            after).push token
termination_by text.length
decreasing_by
  · exact Nat.lt_succ_self _
  · exact this

/-- Scans a whole text whose first line has the number `line`. -/
def scan (line : Nat) (text : String) : Scan := scanFrom 0 line none text.toList

end Lexer

/-- The tokens of a text, without regard to how its delimiters nest. -/
def tokenize (text : String) : Except ExpressionError (List Token) := (Lexer.scan 1 text).result

end AttributeExpr
