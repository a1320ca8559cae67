import AttributeExpr.Error.Semantic
import AttributeExpr.Path.Basic
import AttributeExpr.Value.Basic
/-!
Updates of an item: assignments of formulas to paths, and removals of paths.
-/
namespace AttributeExpr

inductive ArithmeticOp
  | plus | minus
deriving DecidableEq, Repr

def ArithmeticOp.text : ArithmeticOp → String
  | plus => "+"
  | minus => "-"

/-- What an assignment computes. -/
inductive Formula
  | literal (value : Value)
  | path (path : Path)
  | arithmetic (op : ArithmeticOp) (left right : Formula)
  | listAppend (left right : Formula)
  | ifNotExists (path : Path) (otherwise : Formula)
deriving Repr

inductive Action
  | set (target : Path) (formula : Formula)
  | remove (target : Path)
deriving Repr

namespace Action

def target : Action → Path
  | set target _ | remove target => target

/-- The clause to which an action belongs. -/
def clause : Action → Clause
  | set .. => .set
  | remove _ => .remove

end Action

end AttributeExpr
