import AttributeExpr.Token.Lexer
/-!
The nesting of delimiters. Every closing delimiter has to match the last one opened, and none may
be open at the end. A fault of nesting takes the place of the token at which it shows.
-/
namespace AttributeExpr.Nesting

/-- An opening delimiter that has not been closed yet. -/
structure Opening where
  bracket : Bracket
  position : Nat

/-- What stands after the last token: the fault of the scan, or else the innermost delimiter that
is still open. -/
def atEnd (fault : Option ExpressionError) (opened : List Opening) : Option ExpressionError :=
  match fault, opened with
  | some error, _ => some error
  | none, [] => none
  | none, innermost :: _ =>
    some (GrammarError.unclosedDelimiter (Mark.opening innermost.bracket).text innermost.position)

/-- The tokens up to the first fault of nesting, with that fault or the one after the tokens.
Nothing is read behind a fault of nesting, so the line reached is the one on which it stands. -/
def checkFrom (fault : Option ExpressionError) (line : Nat) : List Opening → List Token → Scan
  | opened, [] => ⟨[], atEnd fault opened, line⟩
  | opened, token :: rest =>
    match token.symbol, opened with
    | .mark (.opening bracket), _ =>
      (checkFrom fault line (⟨bracket, token.position⟩ :: opened) rest).push token
    | .mark (.closing bracket), innermost :: outer =>
      if innermost.bracket = bracket then (checkFrom fault line outer rest).push token
      else stray bracket token
    | .mark (.closing bracket), [] => stray bracket token
    | _, _ => (checkFrom fault line opened rest).push token
where
  stray (bracket : Bracket) (token : Token) : Scan :=
    ⟨[], some (GrammarError.strayDelimiter (Mark.closing bracket).text token.position), token.line⟩

def check (scan : Scan) : Scan := checkFrom scan.fault scan.line [] scan.tokens

end AttributeExpr.Nesting

namespace AttributeExpr

/-- Scans several texts one after another, with or without the check of their delimiters. Only the
count of lines goes on from one text to the next. -/
def Lexer.scanAll (nested : Bool) (line : Nat) : List String → List Scan
  | [] => []
  | text :: rest =>
    let scan := if nested then Nesting.check (Lexer.scan line text) else Lexer.scan line text
    scan :: scanAll nested scan.line rest

/-- The tokens of a text with the check of its delimiters. -/
def scanNested (text : String) : Scan := Nesting.check (Lexer.scan 1 text)

end AttributeExpr
