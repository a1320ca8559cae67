/-!
Binary floating-point numbers of 64 bits, held as exact integers. A decimal fraction is rounded to
the nearest of them, and an exact half goes to the even mantissa. Sums and products are rounded in
the same way; the sum of a number and its opposite is a positive zero.
-/
namespace AttributeExpr

/-- A finite number is its mantissa times a power of two. -/
inductive Binary64
  | finite (negative : Bool) (mantissa : Nat) (exponent : Int)
  | infinite (negative : Bool)
  | nan
deriving DecidableEq, Repr

namespace Binary64

/-- The least power of two, which subnormal numbers share. -/
def minExponent : Int := -1074

def maxExponent : Int := 971

def mantissaLimit : Nat := Nat.pow 2 53

/-- The quotient rounded to the nearest integer, an exact half to the even one. -/
def roundDiv (numerator denominator : Nat) : Nat :=
  let quotient := numerator / denominator
  let remainder := numerator % denominator
  if 2 * remainder < denominator then quotient
  else if denominator < 2 * remainder then quotient + 1
  else quotient + quotient % 2

/-- A positive fraction rounded to a multiple of `2 ^ exponent`. -/
def roundAt (numerator denominator : Nat) (exponent : Int) : Nat :=
  roundDiv (numerator * Nat.pow 2 (-exponent).toNat) (denominator * Nat.pow 2 exponent.toNat)

/-- The number nearest to a positive fraction. -/
def ofFraction (negative : Bool) (numerator denominator : Nat) : Binary64 :=
  let scale : Int := Nat.log2 numerator - Nat.log2 denominator
  let low := max minExponent (scale - 53)
  let exponent := if roundAt numerator denominator low < mantissaLimit then low else low + 1
  let mantissa := roundAt numerator denominator exponent
  let (mantissa, exponent) :=
    if mantissa = mantissaLimit then (mantissa / 2, exponent + 1) else (mantissa, exponent)
  if maxExponent < exponent then .infinite negative else .finite negative mantissa exponent

/-- The number nearest to `coefficient * 10 ^ exponent`. Powers of ten far outside the range are
decided by the position of the leading digit alone. -/
def ofDecimal (negative : Bool) (coefficient : Nat) (exponent : Int) : Binary64 :=
  let leading := exponent + (Nat.repr coefficient).length
  if coefficient = 0 || leading < -400 then .finite negative 0 minExponent
  else if 400 < leading then .infinite negative
  else ofFraction negative (coefficient * Nat.pow 10 exponent.toNat) (Nat.pow 10 (-exponent).toNat)

def negate : Binary64 → Binary64
  | finite negative mantissa exponent => finite (!negative) mantissa exponent
  | infinite negative => infinite !negative
  | nan => nan

/-- The number nearest to `mantissa * 2 ^ exponent`. -/
def ofScaled (negative : Bool) (mantissa : Nat) (exponent : Int) : Binary64 :=
  if mantissa = 0 then finite negative 0 minExponent
  else ofFraction negative (mantissa * Nat.pow 2 exponent.toNat) (Nat.pow 2 (-exponent).toNat)

def ofNat (n : Nat) : Binary64 := ofScaled false n 0

/-- A mantissa with its sign, as a multiple of a smaller power of two. -/
def aligned (negative : Bool) (mantissa : Nat) (exponent least : Int) : Int :=
  let n : Int := mantissa * Nat.pow 2 (exponent - least).toNat
  if negative then -n else n

def add : Binary64 → Binary64 → Binary64
  | nan, _ | _, nan => nan
  | infinite a, infinite b => if a = b then infinite a else nan
  | infinite a, finite .. | finite .., infinite a => infinite a
  | finite a m e, finite b n f =>
    let least := min e f
    let sum := aligned a m e least + aligned b n f least
    if sum = 0 then finite (a && b) 0 minExponent else ofScaled (sum < 0) sum.natAbs least

def mul : Binary64 → Binary64 → Binary64
  | nan, _ | _, nan => nan
  | infinite a, infinite b => infinite (a != b)
  | infinite a, finite b n _ | finite b n _, infinite a =>
    if n = 0 then nan else infinite (a != b)
  | finite a m e, finite b n f => ofScaled (a != b) (m * n) (e + f)

end Binary64

end AttributeExpr
