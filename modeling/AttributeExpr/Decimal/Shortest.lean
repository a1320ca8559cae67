import AttributeExpr.Decimal.Basic
import AttributeExpr.Decimal.Binary
/-!
The shortest decimal text of a binary number: the fewest digits that are read back as the same
number, and of those the ones nearest to it. Candidates are the two neighbours of the number on a
decimal grid, tried from the coarsest grid on.
-/
namespace AttributeExpr.Binary64

/-- The interval of reals that round to `mantissa * 2 ^ exponent`, in quarters of that power. Its
ends belong to it if the mantissa is even. -/
structure Rounding where
  mantissa : Nat
  exponent : Int

namespace Rounding

def low (r : Rounding) : Nat :=
  if r.mantissa = mantissaLimit / 2 ∧ minExponent < r.exponent then 4 * r.mantissa - 1
  else 4 * r.mantissa - 2

def high (r : Rounding) : Nat := 4 * r.mantissa + 2

/-- A quarter unit and a step of the grid `10 ^ power`, as integers of one scale. -/
def quarter (r : Rounding) (power : Int) : Nat :=
  Nat.pow 2 (r.exponent - 2).toNat * Nat.pow 10 (-power).toNat

def step (r : Rounding) (power : Int) : Nat :=
  Nat.pow 2 (2 - r.exponent).toNat * Nat.pow 10 power.toNat

def contains (r : Rounding) (power : Int) (digits : Nat) : Bool :=
  let point := digits * r.step power
  let low := r.low * r.quarter power
  let high := r.high * r.quarter power
  if r.mantissa % 2 = 0 then low ≤ point && point ≤ high else low < point && point < high

/-- The nearer of the two neighbours on the grid that lie in the interval; an exact half goes to
the even one. -/
def neighbour? (r : Rounding) (power : Int) : Option Nat :=
  let number := 4 * r.mantissa * r.quarter power
  let below := number / r.step power
  match r.contains power below, r.contains power (below + 1) with
  | false, false => none
  | true, false => some below
  | false, true => some (below + 1)
  | true, true =>
    let middle := (2 * below + 1) * r.step power
    if 2 * number < middle then some below
    else if middle < 2 * number then some (below + 1)
    else some (below + below % 2)

/-- Tries `grids` grids from `10 ^ power` down. -/
def search (r : Rounding) : (grids : Nat) → (power : Int) → Nat × Int
  | 0, power => (4 * r.mantissa * r.quarter power / r.step power, power)
  | grids + 1, power =>
    match r.neighbour? power with
    | some digits => (digits, power)
    | none => r.search grids (power - 1)

/-- A power of ten above the number. -/
def start (r : Rounding) : Int := (Nat.log2 r.mantissa + 1 + r.exponent) * 30103 / 100000 + 1

end Rounding

/-- The digits of a positive number and the power of ten of the last one. -/
def shortestDigits (mantissa : Nat) (exponent : Int) : Nat × Int :=
  let r : Rounding := ⟨mantissa, exponent⟩
  let (digits, power) := r.search 20 r.start
  Decimal.stripZeros digits power

private def exponentText (leading : Int) : String :=
  let digits := Nat.repr leading.natAbs
  (if leading < 0 then "-" else "+") ++ (if digits.length < 2 then "0" else "") ++ digits

/-- Digits with the point where it belongs; an integer keeps one zero after the point. -/
private def positional (digits : String) (power : Int) : String :=
  let whole := (digits.length + power).toNat
  if 0 ≤ power then digits ++ String.ofList (List.replicate power.toNat '0') ++ ".0"
  else if 0 < digits.length + power then
    (digits.take whole).toString ++ "." ++ (digits.drop whole).toString
  else "0." ++ String.ofList (List.replicate (-power).toNat '0' |>.drop digits.length) ++ digits

private def scientific (digits : String) (leading : Int) : String :=
  (digits.take 1).toString ++
    (if digits.length = 1 then "" else "." ++ (digits.drop 1).toString) ++ "e" ++
    exponentText leading

/-- Positional from `0.0001` up to sixteen digits before the point, and with an exponent of at
least two digits elsewhere. -/
def text : Binary64 → String
  | nan => "nan"
  | infinite negative => if negative then "-inf" else "inf"
  | finite negative mantissa exponent =>
    (if negative then "-" else "") ++
      if mantissa = 0 then "0.0"
      else
        let (digits, power) := shortestDigits mantissa exponent
        let digits := Nat.repr digits
        let leading := power + digits.length - 1
        if leading < -4 || 16 ≤ leading then scientific digits leading
        else positional digits power

end AttributeExpr.Binary64
