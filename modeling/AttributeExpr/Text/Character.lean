/-!
Characters by their numbers and by their kinds. White space separates words, is trimmed from the
ends of a text and is ignored inside base64 literals. Decimal digits may be of every script;
hexadecimal digits are read in either case and written in lower case.
-/
namespace AttributeExpr

/-! Sets of characters, and text as numbers. An escape by number can name one half of a surrogate
pair, which is no character, so text with such halves is held as code points. -/

/-- Whether a character is in one of the ranges, both ends included. -/
def inRanges (ranges : List (Nat × Nat)) (c : Char) : Bool :=
  ranges.any fun (first, last) => first ≤ c.toNat && c.toNat ≤ last

abbrev CodePoints := List Nat

namespace CodePoints

def ofChars (text : List Char) : CodePoints := text.map Char.toNat

/-- The character at a code point; what is no character becomes the replacement character. -/
def char (n : Nat) : Char := if n.isValidChar then Char.ofNat n else '\uFFFD'

def chars (text : CodePoints) : List Char := text.map char

/-- No character is a surrogate. -/
theorem not_surrogate (c : Char) : c.toNat < 0xD800 ∨ 0xDFFF < c.toNat ∧ c.toNat < 0x110000 :=
  c.valid

@[simp] theorem char_toNat (c : Char) : char c.toNat = c := by
  have hvalid : c.toNat.isValidChar := not_surrogate c
  rw [char, if_pos hvalid, Char.ofNat_toNat]

@[simp] theorem chars_ofChars (text : List Char) : chars (ofChars text) = text := by
  simp [chars, ofChars, Function.comp_def]

end CodePoints

/-! White space and the words between it. -/

/-- Unicode white space, together with the four information separators. -/
def isBlank (c : Char) : Bool :=
  let n := c.toNat
  (0x09 ≤ n && n ≤ 0x0D) || (0x1C ≤ n && n ≤ 0x20) || n == 0x85 || n == 0xA0 || n == 0x1680 ||
    (0x2000 ≤ n && n ≤ 0x200A) || n == 0x2028 || n == 0x2029 || n == 0x202F || n == 0x205F ||
    n == 0x3000

def isSpaceOrTab (c : Char) : Bool := c = ' ' || c = '\t'

def trimStart (text : List Char) : List Char := text.dropWhile isBlank

def trimEnd (text : List Char) : List Char := (text.reverse.dropWhile isBlank).reverse

def trim (text : List Char) : List Char := trimEnd (trimStart text)

def trimString (text : String) : String := String.ofList (trim text.toList)

/-- The maximal runs of characters that are not blank, in order. -/
def words : List Char → List (List Char)
  | [] => []
  | c :: rest =>
    if isBlank c then words rest
    else if rest.head?.all isBlank then [c] :: words rest
    else (c :: (words rest).headD []) :: (words rest).tail

/-! Digits. Each script has ten decimal digits in a row, so its zero determines them. -/

/-- The zeros of Unicode 14.0, in increasing order. -/
def digitZeros : List Nat := [
  0x30, 0x660, 0x6F0, 0x7C0, 0x966, 0x9E6, 0xA66, 0xAE6, 0xB66, 0xBE6, 0xC66, 0xCE6, 0xD66, 0xDE6,
  0xE50, 0xED0, 0xF20, 0x1040, 0x1090, 0x17E0, 0x1810, 0x1946, 0x19D0, 0x1A80, 0x1A90, 0x1B50,
  0x1BB0, 0x1C40, 0x1C50, 0xA620, 0xA8D0, 0xA900, 0xA9D0, 0xA9F0, 0xAA50, 0xABF0, 0xFF10, 0x104A0,
  0x10D30, 0x11066, 0x110F0, 0x11136, 0x111D0, 0x112F0, 0x11450, 0x114D0, 0x11650, 0x116C0,
  0x11730, 0x118E0, 0x11950, 0x11C50, 0x11D50, 0x11DA0, 0x16A60, 0x16AC0, 0x16B50, 0x1D7CE,
  0x1D7D8, 0x1D7E2, 0x1D7EC, 0x1D7F6, 0x1E140, 0x1E2F0, 0x1E950, 0x1FBF0]

/-- The digit that a character stands for, in whichever script it is written. -/
def decimalDigit? (c : Char) : Option Nat :=
  (digitZeros.find? fun first => first ≤ c.toNat && c.toNat < first + 10).map (c.toNat - ·)

def hexValue? (c : Char) : Option Nat :=
  if '0' ≤ c && c ≤ '9' then some (c.toNat - '0'.toNat)
  else if 'a' ≤ c && c ≤ 'f' then some (c.toNat - 'a'.toNat + 10)
  else if 'A' ≤ c && c ≤ 'F' then some (c.toNat - 'A'.toNat + 10)
  else none

def isHexDigit (c : Char) : Bool := (hexValue? c).isSome

/-- The number that a run of digits spells, most significant digit first. -/
def hexNumber? (digits : List Char) : Option Nat :=
  digits.foldlM (fun n c => (hexValue? c).map (16 * n + ·)) 0

def hexDigit (n : Nat) : Char := (Nat.digitChar (n % 16))

/-- The last `width` digits of `n`, with leading zeros. -/
def hexDigits : (width : Nat) → (n : Nat) → List Char
  | 0, _ => []
  | width + 1, n => hexDigits width (n / 16) ++ [hexDigit n]

end AttributeExpr
