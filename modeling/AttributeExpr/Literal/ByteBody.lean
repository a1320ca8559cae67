import AttributeExpr.Error.Syntax
import AttributeExpr.Text.Character
/-!
The inside of a literal of bytes. In a byte string, characters without escape stand for their bytes
in UTF-8, and numeric escapes end at `\x7F`, so that every literal spells valid UTF-8. Where
continuation is allowed, a backslash at the end of a line takes away the line break and the blanks
after it. In a base64 literal white space is ignored and missing padding is supplied.
-/
namespace AttributeExpr

namespace ByteBody

/-- What a one-letter escape stands for. -/
def shortEscape? : Char → Option UInt8
  | '0' => some 0x00
  | 'n' => some 0x0A
  | 'r' => some 0x0D
  | 't' => some 0x09
  | '\\' => some 0x5C
  | '\x27' => some 0x27
  | '\x22' => some 0x22
  | _ => none

def isLineBreak (c : Char) : Bool := c = '\r' || c = '\n'

/-- The characters that a continuation takes away. -/
def isLayout (c : Char) : Bool := c = ' ' || c = '\t' || isLineBreak c

/-- Decodes a body whose first character is at `position` of the text. While `continuing`, layout
is passed over. -/
def decodeFrom (continuation continuing : Bool) (position : Nat) :
    List Char → Except LexicalError Bytes
  | [] => .ok []
  | c :: rest =>
    if continuing && isLayout c then decodeFrom continuation true (position + 1) rest
    else if c ≠ '\\' then
      (decodeFrom continuation false (position + 1) rest).map (String.utf8EncodeChar c ++ ·)
    else match rest with
      | [] => .error (.escapeAtEnd position)
      | code :: rest =>
        match shortEscape? code with
        | some byte => (decodeFrom continuation false (position + 2) rest).map (byte :: ·)
        | none =>
          if code = 'x' then
            match rest with
            | high :: low :: rest =>
              match hexNumber? [high, low] with
              | none => .error (.byteEscapeDigits (String.ofList [high, low]) position)
              | some n =>
                if 0x7F < n then
                  .error (.byteEscapeRange (String.ofList [high, low]) position)
                else
                  (decodeFrom continuation false (position + 4) rest).map (UInt8.ofNat n :: ·)
            | short => .error (.byteEscapeDigits (String.ofList short) position)
          else if continuation && isLineBreak code then
            decodeFrom continuation true (position + 2) rest
          else .error (.byteEscape code position)

def decode (continuation : Bool) (position : Nat) (body : List Char) : Except LexicalError Bytes :=
  decodeFrom continuation false position body

end ByteBody

namespace Base64Body

/-- The padding that completes the last group of four characters. -/
def missingPadding (length : Nat) : List Char := List.replicate ((4 - length % 4) % 4) '='

/-- Decodes the body of a literal that starts at `position` of the text. -/
def decode (position : Nat) (body : List Char) : Except LexicalError Bytes :=
  let payload := body.filter fun c => !isBlank c
  (Base64.decode (payload ++ missingPadding payload.length)).mapError (.base64 · position)

/-- The literal that spells `bytes`. -/
def literal (bytes : Bytes) : String := "b64\"" ++ Base64.encodeString bytes ++ "\""

end Base64Body

end AttributeExpr
