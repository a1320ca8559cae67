import AttributeExpr.Bytes
import AttributeExpr.Text.Character
import AttributeExpr.Text.Printable
/-!
How messages show data. A string stands in single quotes, or in double quotes if it holds a single
quote and no double one; backslashes, the enclosing quote and what cannot be printed are escaped.
-/
namespace AttributeExpr.Display

def char (quote c : Char) : List Char :=
  if c = quote || c = '\\' then ['\\', c]
  else if c = '\n' then ['\\', 'n']
  else if c = '\r' then ['\\', 'r']
  else if c = '\t' then ['\\', 't']
  else if isPrintable c then [c]
  else if c.toNat < 0x100 then '\\' :: 'x' :: hexDigits 2 c.toNat
  else if c.toNat < 0x10000 then '\\' :: 'u' :: hexDigits 4 c.toNat
  else '\\' :: 'U' :: hexDigits 8 c.toNat

/-- The quote that encloses a text. -/
def quoteFor (text : List Char) : Char :=
  if text.contains '\x27' && !text.contains '\x22' then '\x22' else '\x27'

def string (text : String) : String :=
  let cs := text.toList
  let quote := quoteFor cs
  String.ofList (quote :: cs.flatMap (char quote) ++ [quote])

/-- Half of a surrogate pair is shown by number, like a character that cannot be printed. -/
def codePoint (quote : Char) (n : Nat) : List Char :=
  if n.isValidChar then char quote (Char.ofNat n) else '\\' :: 'u' :: hexDigits 4 n

def codePoints (text : CodePoints) : String :=
  let quote := quoteFor text.chars
  String.ofList (quote :: text.flatMap (codePoint quote) ++ [quote])

/-- A byte is shown as its ASCII character if that can be printed. -/
def byte (quote : Char) (b : UInt8) : List Char :=
  if b.toNat < 0x7F then char quote (Char.ofNat b.toNat) else '\\' :: 'x' :: hexDigits 2 b.toNat

def bytes (bytes : Bytes) : String :=
  let quote := quoteFor (bytes.map fun b => Char.ofNat b.toNat)
  String.ofList ('b' :: quote :: bytes.flatMap (byte quote) ++ [quote])

def bool (b : Bool) : String := if b then "True" else "False"

def null : String := "None"

def list (items : List String) : String := "[" ++ ", ".intercalate items ++ "]"

def map (entries : List (String × String)) : String :=
  "\x7b" ++ ", ".intercalate (entries.map fun (key, value) => key ++ ": " ++ value) ++ "\x7d"

end AttributeExpr.Display
