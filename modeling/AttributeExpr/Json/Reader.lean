import AttributeExpr.Decimal.BinaryText
import AttributeExpr.Json.Basic
import AttributeExpr.Literal.Outline
import AttributeExpr.Literal.StringBody
/-!
Reading JSON text. Beside the standard forms the constants `NaN`, `Infinity` and `-Infinity` are
numbers. A member given twice keeps its first place and its last value.
-/
namespace AttributeExpr.Json

/-- How a number with a fraction or an exponent is held. -/
inductive NumberForm
  | binary | decimal
deriving DecidableEq

/-- Why a text is not read as a document. -/
inductive ReadFault
  | malformed
  /-- An integer with more digits than are converted. -/
  | longInteger
  /-- A number outside the limits of decimal numbers. -/
  | noDecimal
deriving DecidableEq, Repr

def isSpace (c : Char) : Bool := c = ' ' || c = '\t' || c = '\n' || c = '\r'

def skipSpace (text : List Char) : List Char := text.dropWhile isSpace

/-- What a one-letter escape stands for. -/
def shortEscape? : Char → Option Char
  | '\x22' => some '\x22'
  | '\\' => some '\\'
  | '/' => some '/'
  | 'b' => some '\x08'
  | 'f' => some '\x0c'
  | 'n' => some '\n'
  | 'r' => some '\r'
  | 't' => some '\t'
  | _ => none

/-- Decodes the body of a string. A surrogate without its partner becomes the replacement
character. -/
def decodeBody? : List Char → Option (List Char)
  | [] => some []
  | '\\' :: 'u' :: a :: b :: c :: d :: rest =>
    match hexNumber? [a, b, c, d] with
    | none => none
    | some unit =>
      match rest with
      | '\\' :: 'u' :: a :: b :: c :: d :: after =>
        match hexNumber? [a, b, c, d] with
        | some low =>
          if StringBody.isHighSurrogate unit && StringBody.isLowSurrogate low then
            (decodeBody? after).map (StringBody.surrogatePair unit low :: ·)
          else (decodeBody? ('\\' :: 'u' :: a :: b :: c :: d :: after)).map (unitChar unit :: ·)
        | none => none
      | rest => (decodeBody? rest).map (unitChar unit :: ·)
  | '\\' :: c :: rest => (shortEscape? c).bind fun c => (decodeBody? rest).map (c :: ·)
  | c :: rest => (decodeBody? rest).map (c :: ·)
where
  unitChar (unit : Nat) : Char :=
    if StringBody.isHighSurrogate unit || StringBody.isLowSurrogate unit then '\uFFFD'
    else Char.ofNat unit

/-- Reads a string whose opening quote has been read. -/
def readString (text : List Char) : Except ReadFault (String × List Char) :=
  match escapedBody? '\x22' (fun c => 0x20 ≤ c.toNat) text with
  | none => .error .malformed
  | some (body, rest) =>
    match decodeBody? body with
    | none => .error .malformed
    | some cs => .ok (String.ofList cs, rest)

/-- The number that a numeral spells. A fraction needs digits, and a whole part of several digits
does not start with zero. -/
def readNumber (form : NumberForm) (negative : Bool) (text : List Char) :
    Except ReadFault (Json × List Char) :=
  let digits := text.takeWhile Numeral.isDigit
  let rest := text.dropWhile Numeral.isDigit
  let (whole, rest) :=
    if digits.head? = some '0' then (['0'], digits.drop 1 ++ rest) else (digits, rest)
  let (fraction, rest) := match Numeral.splitFraction rest with
    | (['.'], _) => ([], rest)
    | split => split
  let (exponent, rest) := Numeral.splitExponent rest
  if whole.isEmpty then .error .malformed
  else if fraction.isEmpty && exponent.isEmpty then
    if Numeral.maxDigits < whole.length then .error .longInteger
    else
      let n : Int := Decimal.ofDigits whole
      .ok (int (if negative then -n else n), rest)
  else
    match form with
    | .binary => .ok (binary (.ofNumeral negative whole (fraction.drop 1) exponent), rest)
    | .decimal =>
      let sign := if negative then "-" else ""
      match Decimal.read? (sign ++ String.ofList (whole ++ fraction ++ exponent)) with
      | some d => .ok (decimal d, rest)
      | none => .error .noDecimal

/-- A constant that denotes no finite number. -/
def constant (form : NumberForm) (x : Binary64) (d : Decimal) : Json :=
  match form with
  | .binary => binary x
  | .decimal => decimal d

def dropPrefix? (word : String) (text : List Char) : Option (List Char) :=
  if word.toList.isPrefixOf text then some (text.drop word.length) else none

/-- Reads a word that is a whole document. -/
def readWord? (form : NumberForm) (text : List Char) : Option (Json × List Char) :=
  let meanings : List (String × Json) :=
    [("null", null), ("true", bool true), ("false", bool false),
      ("NaN", constant form .nan (.nan false false)),
      ("Infinity", constant form (.infinite false) (.infinite false)),
      ("-Infinity", constant form (.infinite true) (.infinite true))]
  meanings.findSome? fun (word, document) =>
    (dropPrefix? word text).map fun rest => (document, rest)

mutual

/-- Reads a document after white space; `depth` bounds the nested steps. -/
def readValue (form : NumberForm) (depth : Nat) (text : List Char) :
    Except ReadFault (Json × List Char) :=
  match depth with
  | 0 => .error .malformed
  | depth + 1 =>
    match skipSpace text with
    | '\x22' :: rest => (readString rest).map fun (s, rest) => (string s, rest)
    | '[' :: rest =>
      match skipSpace rest with
      | ']' :: rest => .ok (array [], rest)
      | _ => (readItems form depth rest).map fun (items, rest) => (array items, rest)
    | '\x7b' :: rest =>
      match skipSpace rest with
      | '\x7d' :: rest => .ok (object [], rest)
      | _ =>
        (readMembers form depth rest).map fun (members, rest) =>
          (object (Dictionary.ofEntries members), rest)
    | text =>
      match readWord? form text with
      | some read => .ok read
      | none =>
        match text with
        | '-' :: rest => readNumber form true rest
        | _ => readNumber form false text

/-- Reads the items of an array up to its closing bracket. -/
def readItems (form : NumberForm) (depth : Nat) (text : List Char) :
    Except ReadFault (List Json × List Char) :=
  match depth with
  | 0 => .error .malformed
  | depth + 1 => do
    let (item, rest) ← readValue form depth text
    match skipSpace rest with
    | ']' :: rest => return ([item], rest)
    | ',' :: rest =>
      let (items, rest) ← readItems form depth rest
      return (item :: items, rest)
    | _ => throw .malformed

/-- Reads the members of an object up to its closing brace. -/
def readMembers (form : NumberForm) (depth : Nat) (text : List Char) :
    Except ReadFault (List (String × Json) × List Char) :=
  match depth with
  | 0 => .error .malformed
  | depth + 1 =>
    match skipSpace text with
    | '\x22' :: rest => do
      let (key, rest) ← readString rest
      match skipSpace rest with
      | ':' :: rest =>
        let (value, rest) ← readValue form depth rest
        match skipSpace rest with
        | '\x7d' :: rest => return ([(key, value)], rest)
        | ',' :: rest =>
          let (members, rest) ← readMembers form depth rest
          return ((key, value) :: members, rest)
        | _ => throw .malformed
      | _ => throw .malformed
    | _ => .error .malformed

end

/-- Reads a text that is one document and nothing else. -/
def read (form : NumberForm) (text : String) : Except ReadFault Json := do
  let cs := text.toList
  let (document, rest) ← readValue form (2 * cs.length + 1) cs
  if (skipSpace rest).isEmpty then return document else throw .malformed

end AttributeExpr.Json
