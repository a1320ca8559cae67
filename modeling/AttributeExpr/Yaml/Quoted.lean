import AttributeExpr.Error.Config
import AttributeExpr.Text.Character
import AttributeExpr.Yaml.Plain
/-!
Scalars in quotes. In single quotes only the quote itself is written twice; in double quotes a
backslash starts an escape. Line breaks are folded as in plain scalars.
-/
namespace AttributeExpr.Yaml

/-- What a one-letter escape stands for. -/
def shortEscape? : Char → Option Char
  | '0' => some '\x00'
  | 'a' => some '\x07'
  | 'b' => some '\x08'
  | 't' | '\t' => some '\t'
  | 'n' => some '\n'
  | 'v' => some '\x0b'
  | 'f' => some '\x0c'
  | 'r' => some '\r'
  | 'e' => some '\x1b'
  | ' ' => some ' '
  | '\x22' => some '\x22'
  | '\\' => some '\\'
  | '/' => some '/'
  | 'N' => some '\u0085'
  | '_' => some '\u00A0'
  | 'L' => some '\u2028'
  | 'P' => some '\u2029'
  | _ => none

/-- The number of digits of a numeric escape. -/
def escapeWidth? : Char → Option Nat
  | 'x' => some 2
  | 'u' => some 4
  | 'U' => some 8
  | _ => none

/-- The code point with a number. -/
def codePoint (n : Nat) : Except Fault Nat :=
  if n < 0x110000 then .ok n
  else if n < 0x80000000 then .error (.scalar .outsideUnicode)
  else .error (.scalar .outsideCodes)

/-- Blank lines inside a quoted scalar and the blanks before the next text. A mark that separates
documents may not stand there. -/
def quotedBreaks (fuel : Nat) (breaks : List Char) (cursor : Cursor) :
    Except Fault (List Char × Cursor) :=
  if cursor.isAtMarker then .error .malformed
  else
    let after := cursor.skipWhile isSpaceOrTab
    match fuel, after.takeBreak? with
    | fuel + 1, some (c, after) => quotedBreaks fuel (breaks ++ [c]) after
    | _, _ => .ok (breaks, after)

/-- Reads an escape after its backslash. -/
def readEscape (cursor : Cursor) : Except Fault (CodePoints × Cursor) :=
  match cursor.char?, cursor.takeBreak? with
  | none, _ => .error .malformed
  | _, some (_, after) => do
    let (breaks, after) ← quotedBreaks after.rest.length [] after
    return (CodePoints.ofChars breaks, after)
  | some c, none =>
    match shortEscape? c, escapeWidth? c with
    | some meaning, _ => .ok ([meaning.toNat], cursor.next)
    | none, none => .error .malformed
    | none, some width =>
      let digits := cursor.next.rest.take width
      match hexNumber? digits with
      | none => .error .malformed
      | some n =>
        if digits.length < width then .error .malformed
        else (codePoint n).map fun n => ([n], cursor.next.forward width)

/-- Reads white space inside a quoted scalar. -/
def readQuotedGap (cursor : Cursor) : Except Fault (CodePoints × Cursor) :=
  let (blanks, after) := cursor.takeWhile isSpaceOrTab
  match after.takeBreak? with
  | none => .ok (CodePoints.ofChars blanks, after)
  | some (first, after) => do
    let (others, after) ← quotedBreaks after.rest.length [] after
    return (CodePoints.ofChars (foldBreaks first others), after)

/-- Reads the inside of a quoted scalar after some text, up to and with the closing quote. -/
def readQuotedFrom (quote : Char) (fuel : Nat) (text : CodePoints) (cursor : Cursor) :
    Except Fault (CodePoints × Cursor) :=
  match fuel, cursor.rest with
  | 0, _ | _, [] => .error .malformed
  | fuel + 1, c :: rest =>
    if c = quote then
      if quote = '\x27' && rest.head? = some quote then
        readQuotedFrom quote fuel (text ++ [c.toNat]) (cursor.forward 2)
      else .ok (text, cursor.next)
    else if c = '\\' && quote = '\x22' then do
      let (part, after) ← readEscape cursor.next
      readQuotedFrom quote fuel (text ++ part) after
    else if isSpaceOrTab c || isBreak c then do
      let (part, after) ← readQuotedGap cursor
      readQuotedFrom quote fuel (text ++ part) after
    else readQuotedFrom quote fuel (text ++ [c.toNat]) cursor.next

/-- Reads a scalar whose opening quote is at the cursor. -/
def readQuoted (cursor : Cursor) : Except Fault (CodePoints × Cursor) :=
  match cursor.char? with
  | none => .error .malformed
  | some quote => readQuotedFrom quote cursor.rest.length [] cursor.next

end AttributeExpr.Yaml
