import AttributeExpr.Bytes
/-!
Errors of tokens and of grammar, with the phrases that all messages share. The positions of lexical
errors count characters from the start of the text that was read; of the errors of grammar, only an
end of the text that comes too early has no position.
-/
namespace AttributeExpr

def quoted (text : String) : String := "'" ++ text ++ "'"

def atPosition (position : Nat) : String := " at position " ++ toString position

/-- The question that offers another reading of a refused text. -/
def readingOffer (reading : String) : String := "\nDid you intend " ++ quoted reading ++ "?"

/-- A text that cannot be cut into tokens. -/
inductive LexicalError
  | unterminatedString (position : Nat)
  | unterminatedName (position : Nat)
  | unterminatedBinary (position : Nat)
  | unexpectedChar (char : Char) (position : Nat)
  | escapeAtEnd (position : Nat)
  | unicodeEscape (digits : String) (position : Nat)
  | stringEscape (code : Char) (position : Nat)
  | loneLowSurrogate (position : Nat)
  | brokenSurrogatePair (position : Nat)
  | byteEscape (code : Char) (position : Nat)
  | byteEscapeDigits (digits : String) (position : Nat)
  | byteEscapeRange (digits : String) (position : Nat)
  | base64 (fault : Base64.Fault) (position : Nat)
deriving DecidableEq, Repr

namespace LexicalError

def message : LexicalError → String
  | unterminatedString p => "Unterminated string literal" ++ atPosition p
  | unterminatedName p => "Unterminated quoted identifier" ++ atPosition p
  | unterminatedBinary p => "Unterminated binary literal" ++ atPosition p
  | unexpectedChar c p => "Unexpected character " ++ quoted c.toString ++ atPosition p
  | escapeAtEnd p => "Unexpected end of escape sequence" ++ atPosition p
  | unicodeEscape digits p => "Invalid unicode escape " ++ quoted ("\\u" ++ digits) ++ atPosition p
  | stringEscape c p => "Invalid escape " ++ quoted ("\\" ++ c.toString) ++ atPosition p
  | loneLowSurrogate p => "Unpaired low surrogate" ++ atPosition p
  | brokenSurrogatePair p => "Invalid unicode character" ++ atPosition p
  | byteEscape c p => "Invalid byte escape " ++ quoted ("\\" ++ c.toString) ++ atPosition p
  | byteEscapeDigits digits p => "Invalid byte escape " ++ quoted ("\\x" ++ digits) ++ atPosition p
  | byteEscapeRange digits p =>
    "Byte escape " ++ quoted ("\\x" ++ digits) ++ atPosition p ++
      " is above \\x7F; use a b64 literal for arbitrary bytes"
  | base64 fault p => "Failed to decode base64 literal" ++ atPosition p ++ ": " ++ fault.message

def position : LexicalError → Nat
  | unterminatedString p | unterminatedName p | unterminatedBinary p | unexpectedChar _ p
  | escapeAtEnd p | unicodeEscape _ p | stringEscape _ p | loneLowSurrogate p
  | brokenSurrogatePair p | byteEscape _ p | byteEscapeDigits _ p | byteEscapeRange _ p
  | base64 _ p => p

end LexicalError

/-- Tokens that no rule of the grammar derives, or that are not well nested. -/
inductive GrammarError
  | unexpectedEnd
  | unexpectedToken (text : String) (position : Nat)
  | unsupportedOperator (symbol : String) (position : Nat)
  | listIndex (text : String) (position : Nat)
  | unsupportedFunction (name : String) (position : Nat)
  /-- The first argument of `if_not_exists` is not a plain path. -/
  | firstArgument (position : Nat)
  | strayDelimiter (text : String) (position : Nat)
  | unclosedDelimiter (text : String) (position : Nat)
deriving DecidableEq, Repr

namespace GrammarError

def message : GrammarError → String
  | unexpectedEnd => "Unexpected end of input"
  | unexpectedToken text p => "Unexpected token " ++ quoted text ++ atPosition p
  | unsupportedOperator symbol p => "Unsupported operator " ++ quoted symbol ++ atPosition p
  | listIndex text p =>
    "List index must be a non-negative integer, got " ++ quoted text ++ atPosition p
  | unsupportedFunction name p =>
    "Unsupported function " ++ quoted name ++ atPosition p ++
      "; expected one of list_append, if_not_exists"
  | firstArgument p =>
    "First argument of if_not_exists must be a path (position " ++ toString p ++ ")"
  | strayDelimiter text p => "Unexpected " ++ quoted text ++ atPosition p
  | unclosedDelimiter text p => "Unclosed " ++ quoted text ++ atPosition p

def position? : GrammarError → Option Nat
  | unexpectedEnd => none
  | unexpectedToken _ p | unsupportedOperator _ p | listIndex _ p | unsupportedFunction _ p
  | firstArgument p | strayDelimiter _ p | unclosedDelimiter _ p => some p

end GrammarError

end AttributeExpr
