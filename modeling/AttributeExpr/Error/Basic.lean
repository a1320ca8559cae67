import AttributeExpr.Error.Config
import AttributeExpr.Error.Syntax
import AttributeExpr.Error.Semantic
import AttributeExpr.Error.Typing
/-!
Why an input is refused. Each cause is a constructor, with the data that its message names, and has
its wording in a `message` function; a cause without a position in the text has none.
-/
namespace AttributeExpr

/-- Everything that the library refuses with a message. -/
inductive ExpressionError
  | lexical (error : LexicalError)
  | grammar (error : GrammarError)
  | typing (error : TypingError)
  | semantic (error : SemanticError)
  | config (error : ConfigError)
  /-- A refusal that names another reading of the same text. -/
  | offering (error : ExpressionError) (reading : String)
deriving DecidableEq, Repr

namespace ExpressionError

def message : ExpressionError → String
  | lexical e => e.message
  | grammar e => e.message
  | typing e => e.message
  | semantic e => e.message
  | config e => e.message
  | offering e reading => e.message ++ readingOffer reading

def position? : ExpressionError → Option Nat
  | lexical e => some e.position
  | grammar e => e.position?
  | semantic e => e.position?
  | offering e _ => e.position?
  | typing _ | config _ => none

end ExpressionError

instance : Coe LexicalError ExpressionError := ⟨.lexical⟩
instance : Coe GrammarError ExpressionError := ⟨.grammar⟩
instance : Coe TypingError ExpressionError := ⟨.typing⟩
instance : Coe SemanticError ExpressionError := ⟨.semantic⟩
instance : Coe ConfigError ExpressionError := ⟨.config⟩

end AttributeExpr
