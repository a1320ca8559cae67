import AttributeExpr.Bytes
import AttributeExpr.Decimal.Binary
import AttributeExpr.Decimal.BinaryText
import AttributeExpr.Yaml.Basic
import AttributeExpr.Error.Config
import AttributeExpr.Yaml.Tag
/-!
The values of scalars by their tags. A scalar whose tag is written out may have any text, so each
kind says which texts it can read.
-/
namespace AttributeExpr.Yaml

private def withoutBars (text : List Char) : List Char := text.filter (· ≠ '_')

private def fail {α : Type} (fault : ScalarFault) : Except Fault α := .error (.scalar fault)

/-- The letter of a base that may stand behind a zero before the digits. -/
def baseLetter : Nat → Char
  | 2 => 'b'
  | 8 => 'o'
  | 16 => 'x'
  | _ => '0'

/-- The digits of a number to a base that may name its base. -/
def dropBase (base : Nat) (text : List Char) : List Char :=
  match text with
  | '0' :: letter :: rest =>
    if base ≠ 10 && letter.toLower = baseLetter base then rest else text
  | _ => text

/-- The number that a run of digits spells, most significant digit first. -/
def digitsToNat? (base : Nat) (digits : List Char) : Option Nat :=
  if digits.isEmpty then none
  else digits.foldlM (fun n c =>
    match hexValue? c with
    | some digit => if digit < base then some (base * n + digit) else none
    | none => none) 0

/-- Reads an integer to a base. White space around it is ignored, and digits may be of any
script. -/
def readInt (base : Nat) (text : List Char) : Except Fault Int :=
  match Decimal.asciiDigits? (trim text) with
  | none => fail .notNumber
  | some text =>
    let (negative, unsigned) := splitSign text
    match digitsToNat? base (dropBase base unsigned) with
    | none => fail .notNumber
    | some n =>
      if base = 10 && Numeral.maxDigits < unsigned.length then fail .notNumber
      else .ok (if negative then -(n : Int) else n)

/-- The value of an integer without sign: the form decides the base. -/
def unsignedInt (text : List Char) : Except Fault Int :=
  match text with
  | [] => fail .emptyNumber
  | '0' :: 'b' :: digits => readInt 2 digits
  | '0' :: 'x' :: digits => readInt 16 digits
  | '0' :: _ => readInt 8 text
  | _ => do
    let parts ← (splitColons text).mapM (readInt 10)
    return parts.foldl (fun n part => 60 * n + part) 0

def intValue (text : List Char) : Except Fault Int :=
  let (negative, unsigned) := splitSign (withoutBars text)
  (unsignedInt unsigned).map fun n => if negative then -n else n

def readFloat (text : List Char) : Except Fault Binary64 :=
  match Binary64.read? text with
  | some x => .ok x
  | none => fail .notNumber

/-- Adds up the places of a number to base sixty, the last of which comes first. -/
def sumSixtieths (place : Nat) (sum : Binary64) : List Binary64 → Except Fault Binary64
  | [] => .ok sum
  | digit :: rest =>
    match Binary64.ofNat place with
    | .infinite _ => fail .longSexagesimal
    | factor => sumSixtieths (60 * place) (sum.add (digit.mul factor)) rest

/-- The value of a number with a point, without its sign. -/
def unsignedFloat (text : List Char) : Except Fault Binary64 :=
  if text = ".inf".toList then .ok (.infinite false)
  else if text = ".nan".toList then .ok .nan
  else
    match splitColons text with
    | _ :: _ :: _ => do
      let digits ← (splitColons text).mapM readFloat
      sumSixtieths 1 (.ofNat 0) digits.reverse
    | _ => readFloat text

def floatValue (text : List Char) : Except Fault Binary64 :=
  let text := (withoutBars text).map Char.toLower
  let (negative, unsigned) := splitSign text
  if text.isEmpty then fail .emptyNumber
  else (unsignedFloat unsigned).map fun x => if negative then x.negate else x

def boolValue (text : List Char) : Except Fault Bool :=
  match String.ofList (text.map Char.toLower) with
  | "yes" | "true" | "on" => .ok true
  | "no" | "false" | "off" => .ok false
  | _ => fail .notBoolean

/-- The date or time that a text names. A line break at its end does not count. -/
def timestampValue (text : List Char) : Except Fault Timestamp :=
  let text := if text.getLast? = some '\n' then text.dropLast else text
  match Timestamp.read? text with
  | none => fail .notTimestamp
  | some time => if time.isValid then .ok time else fail .outsideCalendar

/-- The value of a scalar with a tag. -/
def scalarValue (tag : Tag) (text : CodePoints) : Except Fault Yaml :=
  match tag with
  | .null => .ok null
  | .bool => (boolValue text.chars).map bool
  | .int => (intValue text.chars).map int
  | .float => (floatValue text.chars).map float
  | .binary =>
    match Base64.decodeLoose? text.chars with
    | some bytes => .ok (binary bytes)
    | none => .error .malformed
  | .timestamp => (timestampValue text.chars).map timestamp
  | .string => .ok (string text)
  | _ => .error .malformed

end AttributeExpr.Yaml
