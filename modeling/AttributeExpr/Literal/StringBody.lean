import AttributeExpr.Error.Syntax
import AttributeExpr.Literal.Outline
import AttributeExpr.Text.Character
/-!
The inside of a double-quoted string literal. Decoding accepts the escapes of JSON, `\0` and `\'`;
a code point beyond the basic plane is written as a surrogate pair of two `\u` escapes. Encoding
escapes the quote, the backslash, all control characters and the surrogates that stand alone, and
leaves the rest as it is.

Text with surrogates that stand alone is text by its code points, and decoding works on either: such
a surrogate is kept where it stands in a body itself, and refused where an escape names it.
-/
namespace AttributeExpr.StringBody

/-- What a one-letter escape stands for. -/
def shortEscape? : Char → Option Char
  | '0' => some '\x00'
  | 'b' => some '\x08'
  | 'f' => some '\x0c'
  | 'n' => some '\n'
  | 'r' => some '\r'
  | 't' => some '\t'
  | '\x22' => some '\x22'
  | '\x27' => some '\x27'
  | '\\' => some '\\'
  | '/' => some '/'
  | _ => none

def isHighSurrogate (n : Nat) : Bool := 0xD800 ≤ n && n ≤ 0xDBFF

def isLowSurrogate (n : Nat) : Bool := 0xDC00 ≤ n && n ≤ 0xDFFF

theorem isHighSurrogate_iff {n : Nat} :
    isHighSurrogate n = true ↔ 0xD800 ≤ n ∧ n ≤ 0xDBFF := by
  simp [isHighSurrogate]

theorem isLowSurrogate_iff {n : Nat} : isLowSurrogate n = true ↔ 0xDC00 ≤ n ∧ n ≤ 0xDFFF := by
  simp [isLowSurrogate]

def isSurrogate (n : Nat) : Bool := isHighSurrogate n || isLowSurrogate n

/-- The code point that a high and a low surrogate stand for together. -/
def surrogatePoint (high low : Nat) : Nat := (high - 0xD800) * 0x400 + (low - 0xDC00) + 0x10000

def surrogatePair (high low : Nat) : Char := Char.ofNat (surrogatePoint high low)

/-- Reads the four digits of a `\u` escape whose backslash is at `position`. -/
def codeUnit (position : Nat) (digits : List Char) : Except LexicalError Nat :=
  match digits.length == 4, hexNumber? digits with
  | true, some n => .ok n
  | _, _ => .error (.unicodeEscape (String.ofList digits) position)

/-- Reads the escape whose backslash is at `position`. The code point that it stands for comes with
the number of characters behind the backslash that belong to the escape. -/
def readEscape (position : Nat) : List Char → Except LexicalError (Nat × Nat)
  | [] => .error (.escapeAtEnd position)
  | code :: rest =>
    match shortEscape? code with
    | some meaning => .ok (meaning.toNat, 1)
    | none =>
      if code ≠ 'u' then .error (.stringEscape code position)
      else match codeUnit position (rest.take 4) with
        | .error e => .error e
        | .ok unit =>
          if isLowSurrogate unit then .error (.loneLowSurrogate position)
          else if !isHighSurrogate unit then .ok (unit, 5)
          else if (rest.drop 4).take 2 ≠ ['\\', 'u'] then .error (.brokenSurrogatePair position)
          else match codeUnit (position + 6) ((rest.drop 6).take 4) with
            | .error e => .error e
            | .ok low =>
              if isLowSurrogate low then .ok (surrogatePoint unit low, 11)
              else .error (.brokenSurrogatePair position)

section

variable {α : Type} (char : α → Char) (ofPoint : Nat → α)

/-- Decodes a body whose first unit is at `position` of the text. A unit is looked at as a
character, and made from the code point that an escape stands for. -/
def decodeAs (position : Nat) : List α → Except LexicalError (List α)
  | [] => .ok []
  | c :: rest =>
    if char c ≠ '\\' then (decodeAs (position + 1) rest).map (c :: ·)
    else
      -- No escape is longer than a pair.
      match readEscape position ((rest.take 11).map char) with
      | .error e => .error e
      | .ok (point, width) =>
        (decodeAs (position + 1 + width) (rest.drop width)).map (ofPoint point :: ·)
termination_by body => body.length
decreasing_by all_goals (simp only [List.length_cons, List.length_drop]; omega)

end

/-- Decodes a body without surrogates. -/
def decode (position : Nat) (body : List Char) : Except LexicalError (List Char) :=
  decodeAs id Char.ofNat position body

/-- Decodes a body in which surrogates may stand. -/
def decodePoints (position : Nat) (body : CodePoints) : Except LexicalError CodePoints :=
  decodeAs CodePoints.char id position body

/-- The spelling of one character inside a literal. -/
def encodeChar (c : Char) : List Char :=
  match c with
  | '\x22' => ['\\', '\x22']
  | '\\' => ['\\', '\\']
  | '\x08' => ['\\', 'b']
  | '\x0c' => ['\\', 'f']
  | '\n' => ['\\', 'n']
  | '\r' => ['\\', 'r']
  | '\t' => ['\\', 't']
  | c =>
    if c.toNat < 0x20 || (0x7F ≤ c.toNat && c.toNat ≤ 0x9F) then
      '\\' :: 'u' :: hexDigits 4 c.toNat
    else [c]

/-- The spelling of one code point. A surrogate is written as an escape. -/
def encodePoint (n : Nat) : List Char :=
  if isSurrogate n then '\\' :: 'u' :: hexDigits 4 n else encodeChar (CodePoints.char n)

def encode (text : CodePoints) : List Char := text.flatMap encodePoint

/-- The literal that is written for a text by its code points. -/
def literalOf (text : CodePoints) : String :=
  String.ofList ('\x22' :: encode text ++ ['\x22'])

/-- The literal that spells `text`. -/
def literal (text : String) : String := literalOf (CodePoints.ofChars text.toList)

/-- Reads a text that is a double-quoted literal and nothing else. -/
def readLiteral? (text : CodePoints) : Option (Except LexicalError CodePoints) :=
  match CodePoints.chars text with
  | '\x22' :: rest =>
    match escapedBody? '\x22' (fun _ => true) rest with
    | some (body, []) => some (decodePoints 1 ((text.drop 1).take body.length))
    | _ => none
  | _ => none

end AttributeExpr.StringBody
