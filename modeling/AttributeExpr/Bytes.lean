import AttributeExpr.Text.Character
/-!
Byte sequences, and two ways to write them: in hexadecimal, and in base64 with the standard
alphabet. Encoding in base64 pads to a multiple of four characters. Decoding accepts the alphabet
and its padding only, and says what is wrong with any other text; the unused low bits of the last
character are ignored, so several texts may decode to the same bytes.
-/
namespace AttributeExpr

abbrev Bytes := List UInt8

namespace Bytes

def toHex (bytes : Bytes) : String :=
  String.ofList (bytes.flatMap fun b => hexDigits 2 b.toNat)

/-- Two digits spell one byte; an odd number of digits spells nothing. -/
def ofHexDigits? : List Char → Option Bytes
  | [] => some []
  | [_] => none
  | high :: low :: rest =>
    match hexValue? high, hexValue? low, ofHexDigits? rest with
    | some h, some l, some bytes => some (UInt8.ofNat (16 * h + l) :: bytes)
    | _, _, _ => none

end Bytes

namespace Base64

/-- Why a text is not base64. -/
inductive Fault
  | nonAscii
  | leadingPadding
  | excessData
  | outsideAlphabet
  | interruptedPadding
  /-- One character is left over after whole groups of four. -/
  | danglingCharacter (count : Nat)
  | missingPadding
deriving DecidableEq, Repr

def Fault.message : Fault → String
  | nonAscii => "string argument should contain only ASCII characters"
  | leadingPadding => "Leading padding not allowed"
  | excessData => "Excess data after padding"
  | outsideAlphabet => "Only base64 data is allowed"
  | interruptedPadding => "Discontinuous padding not allowed"
  | danglingCharacter count =>
    "Invalid base64-encoded string: number of data characters (" ++ toString count ++
      ") cannot be 1 more than a multiple of 4"
  | missingPadding => "Incorrect padding"

/-- The character for a number of six bits. -/
def digit (n : Nat) : Char :=
  if n < 26 then Char.ofNat ('A'.toNat + n)
  else if n < 52 then Char.ofNat ('a'.toNat + (n - 26))
  else if n < 62 then Char.ofNat ('0'.toNat + (n - 52))
  else if n = 62 then '+' else '/'

/-- The six bits that a character of the alphabet stands for. -/
def digitValue? (c : Char) : Option Nat :=
  if 'A' ≤ c && c ≤ 'Z' then some (c.toNat - 'A'.toNat)
  else if 'a' ≤ c && c ≤ 'z' then some (c.toNat - 'a'.toNat + 26)
  else if '0' ≤ c && c ≤ '9' then some (c.toNat - '0'.toNat + 52)
  else if c = '+' then some 62
  else if c = '/' then some 63
  else none

def encode : Bytes → List Char
  | [] => []
  | [a] => [digit (a.toNat / 4), digit (a.toNat % 4 * 16), '=', '=']
  | [a, b] =>
    [digit (a.toNat / 4), digit (a.toNat % 4 * 16 + b.toNat / 16), digit (b.toNat % 16 * 4), '=']
  | a :: b :: c :: rest =>
    digit (a.toNat / 4) :: digit (a.toNat % 4 * 16 + b.toNat / 16) ::
      digit (b.toNat % 16 * 4 + c.toNat / 64) :: digit (c.toNat % 64) :: encode rest

def encodeString (bytes : Bytes) : String := String.ofList (encode bytes)

/-- The whole bytes that a sequence of six-bit numbers holds. -/
def pack : List Nat → Bytes
  | [] => []
  | [_] => []
  | [a, b] => [UInt8.ofNat (a * 4 + b / 16)]
  | [a, b, c] => [UInt8.ofNat (a * 4 + b / 16), UInt8.ofNat (b % 16 * 16 + c / 4)]
  | a :: b :: c :: d :: rest =>
    UInt8.ofNat (a * 4 + b / 16) :: UInt8.ofNat (b % 16 * 16 + c / 4) ::
      UInt8.ofNat (c % 4 * 64 + d) :: pack rest

/-- Reads the characters after `count` characters of data and, if padding has started, `pads`
padding characters that count. Padding ends the data when it completes a group that holds at least
two characters; padding anywhere else is passed over, but no data may follow it. -/
def sextets (count : Nat) (padding : Bool) (pads : Nat) : List Char → Except Fault (List Nat)
  | [] =>
    if count % 4 = 0 then .ok []
    else if count % 4 = 1 then .error (.danglingCharacter count)
    else .error .missingPadding
  | c :: rest =>
    if c = '=' then
      if 2 ≤ count % 4 then
        if 4 ≤ count % 4 + (pads + 1) then
          if rest.isEmpty then .ok [] else .error .excessData
        else sextets count true (pads + 1) rest
      else sextets count true pads rest
    else
      match digitValue? c with
      | none => .error .outsideAlphabet
      | some n =>
        if padding then .error .interruptedPadding
        else (sextets (count + 1) false 0 rest).map (n :: ·)

/-- Reads the characters after `count` characters of data and `pads` padding characters that count.
Characters outside the alphabet are passed over, and so is everything after padding that completes a
group; data that ends inside a group is refused. -/
def looseSextets? (count pads : Nat) : List Char → Option (List Nat)
  | [] => if count % 4 = 0 then some [] else none
  | c :: rest =>
    if c = '=' then
      if count % 4 < 2 then looseSextets? count pads rest
      else if 4 ≤ count % 4 + (pads + 1) then some []
      else looseSextets? count (pads + 1) rest
    else
      match digitValue? c with
      | none => looseSextets? count pads rest
      | some n => (looseSextets? (count + 1) 0 rest).map (n :: ·)

/-- Decodes a text that may be broken by other ASCII characters. -/
def decodeLoose? (text : List Char) : Option Bytes :=
  if text.any fun c => 128 ≤ c.toNat then none else (looseSextets? 0 0 text).map pack

def decode (text : List Char) : Except Fault Bytes :=
  if text.any fun c => 128 ≤ c.toNat then .error .nonAscii
  else if text.head? = some '=' then .error .leadingPadding
  else (sextets 0 false 0 text).map pack

end Base64

end AttributeExpr
