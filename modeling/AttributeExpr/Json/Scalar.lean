import AttributeExpr.Json.Basic
/-!
Which documents count as the same element. Numbers are compared by value, in whatever form they are
held, and a truth value counts as zero or one. Arrays and objects are not compared.
-/
namespace AttributeExpr

/-- The exact decimal form of a binary number. -/
def Binary64.toDecimal : Binary64 → Decimal
  | finite negative mantissa exponent =>
    if 0 ≤ exponent then .finite negative (mantissa * Nat.pow 2 exponent.toNat) 0
    else .finite negative (mantissa * Nat.pow 5 (-exponent).toNat) exponent
  | infinite negative => .infinite negative
  | nan => .nan false false

namespace Json

def isCollection : Json → Bool
  | array _ | object _ => true
  | _ => false

/-- The number that a document counts as. -/
def number? : Json → Option Decimal
  | bool b => some (.finite false b.toNat 0)
  | int n => some (.finite (n < 0) n.natAbs 0)
  | binary x => some x.toDecimal
  | decimal d => some d
  | _ => none

/-- Whether two documents that are no collections are the same. All binary numbers that are not a
number are one and the same, unlike decimal ones. -/
def sameScalar : Json → Json → Bool
  | null, null => true
  | string a, string b => a = b
  | binary .nan, binary .nan => true
  | a, b =>
    match a.number?, b.number? with
    | some x, some y => x.sameValue y
    | _, _ => false

end Json

end AttributeExpr
