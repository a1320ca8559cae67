import AttributeExpr.Decimal.Basic
import AttributeExpr.Decimal.Binary
/-!
Reading binary numbers: the number nearest to what a text spells, however large or small its
exponent is. Beside numerals there are words for the infinities and for what is not a number.
-/
namespace AttributeExpr

/-- The power of ten that an exponent spells: a letter, perhaps a sign, and digits. -/
def Numeral.exponentValue (exponent : List Char) : Int :=
  let digits : Int := Decimal.ofDigits (exponent.filter Numeral.isDigit)
  if exponent[1]? = some '-' then -digits else digits

namespace Binary64

/-- The number that a numeral spells, given its whole digits, the digits of its fraction and its
exponent, which may be empty. -/
def ofNumeral (negative : Bool) (whole fraction exponent : List Char) : Binary64 :=
  ofDecimal negative (Decimal.ofDigits (whole ++ fraction))
    (Numeral.exponentValue exponent - fraction.length)

/-- Reads what follows the sign. -/
def readUnsigned? (negative : Bool) (text : List Char) : Option Binary64 :=
  let lower := text.map Char.toLower
  if lower = "inf".toList || lower = "infinity".toList then some (.infinite negative)
  else if lower = "nan".toList then some .nan
  else
    let whole := text.takeWhile Numeral.isDigit
    let (fraction, rest) := Numeral.splitFraction (text.dropWhile Numeral.isDigit)
    let (exponent, rest) := Numeral.splitExponent rest
    if (whole.isEmpty && fraction.length < 2) || !rest.isEmpty then none
    else some (ofNumeral negative whole (fraction.drop 1) exponent)

/-- The number that a text denotes. White space around it is ignored, and digits may be of any
script. -/
def read? (text : List Char) : Option Binary64 := do
  let text ← Decimal.asciiDigits? (trim text)
  match text with
  | '+' :: rest => readUnsigned? false rest
  | '-' :: rest => readUnsigned? true rest
  | _ => readUnsigned? false text

end Binary64

end AttributeExpr
