import AttributeExpr.Numeral
import AttributeExpr.Text.Character
/-!
Decimal numbers of any precision: a sign, a coefficient and a power of ten, beside the infinities
and the results that are not numbers. Reading keeps trailing zeros, so a number remembers how
precisely it was written; comparison is by value.
-/
namespace AttributeExpr

inductive Decimal
  | finite (negative : Bool) (coefficient : Nat) (exponent : Int)
  | infinite (negative : Bool)
  | nan (negative signaling : Bool)
deriving DecidableEq, Repr

namespace Decimal

/-- The greatest position of a leading digit. -/
def maxAdjusted : Int := 999999999999999999

/-- The least position of a last digit. -/
def minExponent : Int := -1999999999999999997

/-- The number of digits of a coefficient; zero has one. -/
def digitCount (coefficient : Nat) : Nat := (Nat.repr coefficient).length

/-- The position of the leading digit. -/
def adjusted (coefficient : Nat) (exponent : Int) : Int :=
  exponent + (digitCount coefficient - 1 : Nat)

/-- The value of a run of decimal digits, most significant first. -/
def ofDigits (digits : List Char) : Nat :=
  digits.foldl (fun n c => 10 * n + (c.toNat - '0'.toNat)) 0

/-- Reads an unsigned number, or none if its digits lie beyond the limits. -/
def readFinite? (negative : Bool) (text : List Char) : Option Decimal :=
  let whole := text.takeWhile Numeral.isDigit
  let afterWhole := text.dropWhile Numeral.isDigit
  let fraction := match afterWhole with
    | '.' :: rest => rest.takeWhile Numeral.isDigit
    | _ => []
  let afterFraction := match afterWhole with
    | '.' :: rest => rest.dropWhile Numeral.isDigit
    | _ => afterWhole
  if whole.isEmpty && fraction.isEmpty then none
  else
    let scaled (power : Int) : Option Decimal :=
      let coefficient := ofDigits (whole ++ fraction)
      let exponent := power - fraction.length
      if maxAdjusted < adjusted coefficient exponent || exponent < minExponent then none
      else some (.finite negative coefficient exponent)
    match afterFraction with
    | [] => scaled 0
    | letter :: rest =>
      let digits := match rest with
        | c :: digits => if Numeral.isSign c then digits else rest
        | [] => []
      if (letter = 'e' || letter = 'E') && !digits.isEmpty && digits.all Numeral.isDigit then
        scaled (if rest.head? = some '-' then -(ofDigits digits : Int) else ofDigits digits)
      else none

/-- Reads what follows the sign. -/
def readUnsigned? (negative : Bool) (text : List Char) : Option Decimal :=
  let lower := text.map Char.toLower
  if lower = "inf".toList || lower = "infinity".toList then some (.infinite negative)
  else if lower.take 3 = "nan".toList && (text.drop 3).all Numeral.isDigit then
    some (.nan negative false)
  else if lower.take 4 = "snan".toList && (text.drop 4).all Numeral.isDigit then
    some (.nan negative true)
  else readFinite? negative text

/-- Digits of other scripts become ASCII digits; no other character outside ASCII can be read. -/
def asciiDigits? (text : List Char) : Option (List Char) :=
  text.mapM fun c =>
    if c.toNat < 128 then some c
    else (decimalDigit? c).map fun n => Char.ofNat ('0'.toNat + n)

/-- The decimal number that a text denotes. White space around it and underscores in it are
ignored, and digits may be of any script. -/
def read? (text : String) : Option Decimal := do
  let text ← asciiDigits? ((trim text.toList).filter (· ≠ '_'))
  match text with
  | '+' :: rest => readUnsigned? false rest
  | '-' :: rest => readUnsigned? true rest
  | _ => readUnsigned? false text

/-- Takes the trailing zeros of a positive coefficient into the exponent. -/
def stripZeros (coefficient : Nat) (exponent : Int) : Nat × Int :=
  if h : 0 < coefficient ∧ coefficient % 10 = 0 then
    stripZeros (coefficient / 10) (exponent + 1)
  else (coefficient, exponent)
termination_by coefficient
decreasing_by omega

/-- One spelling for all finite numbers of the same value. -/
def normalize : Decimal → Decimal
  | finite negative coefficient exponent =>
    if coefficient = 0 then finite false 0 0
    else finite negative (stripZeros coefficient exponent).1 (stripZeros coefficient exponent).2
  | d => d

def isNaN : Decimal → Bool
  | nan .. => true
  | _ => false

def isSignaling : Decimal → Bool
  | nan _ signaling => signaling
  | _ => false

/-- Equality by value. What is not a number equals nothing, itself included. -/
def sameValue (a b : Decimal) : Bool := !a.isNaN && !b.isNaN && a.normalize = b.normalize

private def point (digits : String) (places : Nat) : String :=
  let width := digits.length
  if places = 0 then digits
  else if places < width then
    (digits.take (width - places)).toString ++ "." ++ (digits.drop (width - places)).toString
  else "0." ++ String.ofList (List.replicate (places - width) '0') ++ digits

/-- The scientific notation of the decimal arithmetic specification: positional for exponents
from zero down to where six zeros follow the point, with an exponent otherwise. -/
def toScientific : Decimal → String
  | infinite negative => (if negative then "-" else "") ++ "Infinity"
  | nan negative signaling =>
    (if negative then "-" else "") ++ (if signaling then "sNaN" else "NaN")
  | finite negative coefficient exponent =>
    let digits := Nat.repr coefficient
    let leading := adjusted coefficient exponent
    (if negative then "-" else "") ++
      if exponent ≤ 0 && -6 ≤ leading then point digits (-exponent).toNat
      else point digits (digits.length - 1) ++ "E" ++ (if leading < 0 then "-" else "+") ++
        Nat.repr leading.natAbs

end Decimal

end AttributeExpr
