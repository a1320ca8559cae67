import AttributeExpr.Numeral
import AttributeExpr.Text.Character
/-!
The forms of numbers in YAML 1.1: integers in base two, eight, ten, sixteen and sixty, and fractions
in base ten and sixty. Underscores may stand among the digits.
-/
namespace AttributeExpr.Yaml

/-- A sign, if there is one, and what follows it. -/
def splitSign : List Char → Bool × List Char
  | '-' :: rest => (true, rest)
  | '+' :: rest => (false, rest)
  | text => (false, text)

/-- The parts of a text between colons. -/
def splitColons : List Char → List (List Char)
  | [] => [[]]
  | c :: rest =>
    if c = ':' then [] :: splitColons rest
    else (c :: (splitColons rest).headD []) :: (splitColons rest).tail

def isDigitOrBar (c : Char) : Bool := Numeral.isDigit c || c = '_'

/-- One or two digits below sixty, as after a colon of a number to base sixty. -/
def isSixtieth (digits : List Char) : Bool :=
  match digits with
  | [a] => Numeral.isDigit a
  | [a, b] => '0' ≤ a && a ≤ '5' && Numeral.isDigit b
  | _ => false

/-- Whether a text is a digit with more digits and underscores behind it. -/
def isDigits (text : List Char) : Bool := text.head?.any Numeral.isDigit && text.all isDigitOrBar

/-- Whether an unsigned text has the form of an integer. -/
def isNatural (text : List Char) : Bool :=
  match text with
  | ['0'] => true
  | '0' :: 'b' :: digits =>
    !digits.isEmpty && digits.all fun c => c = '0' || c = '1' || c = '_'
  | '0' :: 'x' :: digits => !digits.isEmpty && digits.all fun c => isHexDigit c || c = '_'
  | '0' :: digits => digits.all fun c => ('0' ≤ c && c ≤ '7') || c = '_'
  | _ =>
    match splitColons text with
    | whole :: sixtieths => isDigits whole && sixtieths.all isSixtieth
    | [] => false

def isInteger (text : List Char) : Bool := isNatural (splitSign text).2

/-- Whether a text is nothing or an exponent, which needs a sign. -/
def isSignedExponent (text : List Char) : Bool :=
  match text with
  | [] => true
  | letter :: sign :: digits =>
    (letter = 'e' || letter = 'E') && Numeral.isSign sign && !digits.isEmpty &&
      digits.all Numeral.isDigit
  | _ => false

/-- Whether a text has the form of a number with a point, or is one of the words for what is not
finite. A point that comes first takes no sign before it. -/
def isFraction (text : List Char) : Bool :=
  let unsigned := (splitSign text).2
  let afterPoint := (unsigned.dropWhile (· ≠ '.')).drop 1
  let wholes := splitColons (unsigned.takeWhile (· ≠ '.'))
  [".inf", ".Inf", ".INF"].contains (String.ofList unsigned) ||
    [".nan", ".NaN", ".NAN"].contains (String.ofList text) ||
    unsigned.contains '.' &&
      match wholes with
      | [[]] =>
        text.head? = some '.' && afterPoint.head?.any Numeral.isDigit &&
          isSignedExponent (afterPoint.dropWhile isDigitOrBar)
      | [whole] => isDigits whole && isSignedExponent (afterPoint.dropWhile isDigitOrBar)
      | whole :: sixtieths =>
        isDigits whole && sixtieths.all isSixtieth && afterPoint.all isDigitOrBar
      | [] => false

end AttributeExpr.Yaml
