import AttributeExpr.Bytes
/-!
Tokens of the expression language: names, literals, keywords and marks, each with the place where
it starts.
-/
namespace AttributeExpr

/-- The words with a meaning of their own, in any mixture of cases. -/
inductive Keyword
  | between | conj | beginsWith | true | false | null
deriving DecidableEq, Repr

def Keyword.ofWord? : String → Option Keyword
  | "between" => some between
  | "and" => some conj
  | "begins_with" => some beginsWith
  | "true" => some true
  | "false" => some false
  | "null" => some null
  | _ => none

/-- The four pairs of delimiters. -/
inductive Bracket
  | brace | square | set | paren
deriving DecidableEq, Repr

inductive Mark
  | opening (bracket : Bracket)
  | closing (bracket : Bracket)
  | comma | dot | colon
  | doubleEqual | equal | lessEqual | less | greaterEqual | greater
  | plus | minus
  /-- Read only in order to be refused as operators. -/
  | star | slash
deriving DecidableEq, Repr

namespace Mark

def text : Mark → String
  | opening .brace => "\x7b"
  | closing .brace => "\x7d"
  | opening .square => "["
  | closing .square => "]"
  | opening .set => "<<"
  | closing .set => ">>"
  | opening .paren => "("
  | closing .paren => ")"
  | comma => ","
  | dot => "."
  | colon => ":"
  | doubleEqual => "=="
  | equal => "="
  | lessEqual => "<="
  | less => "<"
  | greaterEqual => ">="
  | greater => ">"
  | plus => "+"
  | minus => "-"
  | star => "*"
  | slash => "/"

/-- The longest mark at the start of a text, and what follows it. -/
def split? : List Char → Option (Mark × List Char)
  | '<' :: '<' :: rest => some (opening .set, rest)
  | '>' :: '>' :: rest => some (closing .set, rest)
  | '=' :: '=' :: rest => some (doubleEqual, rest)
  | '<' :: '=' :: rest => some (lessEqual, rest)
  | '>' :: '=' :: rest => some (greaterEqual, rest)
  | '\x7b' :: rest => some (opening .brace, rest)
  | '\x7d' :: rest => some (closing .brace, rest)
  | '[' :: rest => some (opening .square, rest)
  | ']' :: rest => some (closing .square, rest)
  | '(' :: rest => some (opening .paren, rest)
  | ')' :: rest => some (closing .paren, rest)
  | ',' :: rest => some (comma, rest)
  | '.' :: rest => some (dot, rest)
  | ':' :: rest => some (colon, rest)
  | '=' :: rest => some (equal, rest)
  | '<' :: rest => some (less, rest)
  | '>' :: rest => some (greater, rest)
  | '+' :: rest => some (plus, rest)
  | '-' :: rest => some (minus, rest)
  | '*' :: rest => some (star, rest)
  | '/' :: rest => some (slash, rest)
  | _ => none

theorem split?_length {text after : List Char} {mark : Mark}
    (h : split? text = some (mark, after)) : after.length < text.length := by
  unfold split? at h
  split at h <;> simp at h <;> (simp only [← h.2, List.length_cons]; omega)

end Mark

/-- What a token says. A string, binary or quoted name is already decoded; a number keeps its
spelling without a plus sign, and a keyword keeps its own. -/
inductive Symbol
  | name (text : String)
  | string (text : String)
  | binary (bytes : Bytes)
  | number (text : String)
  | keyword (word : Keyword) (spelling : String)
  | mark (mark : Mark)
deriving DecidableEq, Repr

namespace Symbol

/-- Whether an operand can end with this symbol, so that a sign after it is an operator. -/
def endsOperand : Symbol → Bool
  | name _ | string _ | binary _ | number _ => true
  | keyword .true _ | keyword .false _ | keyword .null _ => true
  | mark (.closing _) => true
  | _ => false

/-- How a message shows the symbol. -/
def shown : Symbol → String
  | name text | string text | number text | keyword _ text => text
  | binary _ => "binary literal"
  | mark m => m.text

end Symbol

/-- A symbol with the offset of its first character and the line on which it starts. -/
structure Token where
  symbol : Symbol
  position : Nat
  line : Nat
deriving DecidableEq, Repr

end AttributeExpr
