import AttributeExpr.Decimal.Basic
import AttributeExpr.Error.Typing
import AttributeExpr.Json.Scalar
import AttributeExpr.Value.Set
/-!
The encoding of values as documents. An envelope is an object with one member, whose key is the tag
of the type. Binaries travel as base64. Numbers travel as text and have to be within the limits of a
stored number: zero, and magnitudes from `1E-130` up to `9.99E+125` with at most 38 significant
digits.
-/
namespace AttributeExpr

def maxPrecision : Nat := 38

def minMagnitude : Int := -130

def maxMagnitude : Int := 125

/-- The number that a text denotes, if it can be stored. -/
def checkNumber (text : String) : Except TypingError Decimal :=
  match Decimal.read? text with
  | some (.finite negative coefficient exponent) =>
    if coefficient = 0 then .ok (.finite negative coefficient exponent)
    else if maxPrecision < Decimal.digitCount (Decimal.stripZeros coefficient exponent).1 then
      .error (.tooPrecise text)
    else
      let magnitude := Decimal.adjusted coefficient exponent
      if magnitude < minMagnitude || maxMagnitude < magnitude then .error (.outOfRange text)
      else .ok (.finite negative coefficient exponent)
  | _ => .error (.notNumber text)

namespace Value

/-- The document with a payload under the tag of its type. -/
def envelope (type : AttributeType) (payload : Json) : Json := .object [(type.tag, payload)]

/-- Checks every number of a list. -/
def checkNumbers : List String → Except TypingError Unit
  | [] => .ok ()
  | text :: rest =>
    match checkNumber text with
    | .error e => .error e
    | .ok _ => checkNumbers rest

mutual

def toWire : Value → Except TypingError Json
  | null => .ok (envelope .null (.bool true))
  | bool b => .ok (envelope .bool (.bool b))
  | number text => (checkNumber text).map fun _ => envelope .number (.string text)
  | string text => .ok (envelope .string (.string text))
  | binary bytes => .ok (envelope .binary (.string (Base64.encodeString bytes)))
  | list items => (itemsToWire items).map fun items => envelope .list (.array items)
  | map entries =>
    (entriesToWire entries).map fun members =>
      envelope .map (.object (Dictionary.ofEntries members))
  | numberSet elements =>
    (checkNumbers elements).map fun _ => envelope .numberSet (.array (elements.map .string))
  | stringSet elements => .ok (envelope .stringSet (.array (elements.map .string)))
  | binarySet elements =>
    let payload := elements.map fun bytes => Json.string (Base64.encodeString bytes)
    .ok (envelope .binarySet (.array payload))

def itemsToWire : List Value → Except TypingError (List Json)
  | [] => .ok []
  | item :: rest =>
    match toWire item with
    | .error e => .error e
    | .ok document => (itemsToWire rest).map (document :: ·)

def entriesToWire : List (String × Value) → Except TypingError (List (String × Json))
  | [] => .ok []
  | (key, value) :: rest =>
    match toWire value with
    | .error e => .error e
    | .ok document => (entriesToWire rest).map ((key, document) :: ·)

end

/-- The encoding of a value, as a step among others that may fail. -/
def encode (value : Value) : Except Failure Json :=
  value.toWire.mapError fun error => .refused (.typing error)

/-- The bytes of a binary payload. -/
def payloadBytes : Json → Except Failure Bytes
  | .string text =>
    match Base64.decode text.toList with
    | .ok bytes => .ok bytes
    | .error .nonAscii => .error .nonAsciiBase64
    | .error _ => refuse (TypingError.binaryPayload (Display.string text))
  | _ => .error .payloadNotText

/-- The text of a payload. What is no text counts as empty until the whole document has been
read. -/
def payloadText : Json → String
  | .string text => text
  | _ => ""

def isText : Json → Bool
  | .string _ => true
  | _ => false

/-- The parts of a payload: the items of an array, the characters of a string or the keys of an
object. -/
def payloadParts : Json → Except Failure (List Json)
  | .array items => .ok items
  | .string text => .ok (text.toList.map fun c => .string c.toString)
  | .object members => .ok (members.map fun (key, _) => .string key)
  | _ => .error .payloadNotIterable

/-- What a repeated element of a string set fails with: only a text can be shown in a message. -/
def repetition : Json → Failure
  | .string text => .refused (TypingError.duplicateElement (render (string text)))
  | _ => .payloadNotText

/-- Fails if one of the elements of a string set, not all of which are texts, is a collection or is
the same as an earlier one or one of `seen`. -/
def checkElements (seen : List Json) : List Json → Except Failure Unit
  | [] => .ok ()
  | element :: rest =>
    if element.isCollection then .error .payloadNotText
    else if seen.any element.sameScalar then .error (repetition element)
    else checkElements (element :: seen) rest

mutual

/-- Reads an envelope in which payloads of strings need not be texts: what is no text counts as the
empty one. -/
def ofEnvelope : Json → Except Failure Value
  | .object [(tag, payload)] =>
    match AttributeType.ofTag? tag with
    | some .null => .ok null
    | some .bool => .ok (bool payload.isTruthy)
    | some .number => .ok (number payload.plainText)
    | some .string => .ok (string (payloadText payload))
    | some .binary => (payloadBytes payload).map binary
    | some .list =>
      match payload with
      | .array items => (itemsOfEnvelopes items).map list
      | other =>
        match payloadParts other with
        | .error e => .error e
        | .ok [] => .ok (list [])
        | .ok (part :: _) => refuse (TypingError.notEnvelope part.display)
    | some .map =>
      match payload with
      | .object members => (entriesOfEnvelopes members).map map
      | _ => .error .payloadNotObject
    | some .numberSet => do setOf ((← payloadParts payload).map fun part => number part.plainText)
    | some .stringSet => do
      let parts ← payloadParts payload
      if parts.all isText then setOf (parts.map fun part => string (payloadText part))
      else (checkElements [] parts).map fun _ => stringSet []
    | some .binarySet => do setOf ((← (← payloadParts payload).mapM payloadBytes).map binary)
    | none => refuse (TypingError.unknownTag tag)
  | document => refuse (TypingError.notEnvelope document.display)

def itemsOfEnvelopes : List Json → Except Failure (List Value)
  | [] => .ok []
  | item :: rest =>
    match ofEnvelope item with
    | .error e => .error e
    | .ok value => (itemsOfEnvelopes rest).map (value :: ·)

def entriesOfEnvelopes : List (String × Json) → Except Failure (List (String × Value))
  | [] => .ok []
  | (key, document) :: rest =>
    match ofEnvelope document with
    | .error e => .error e
    | .ok value => (entriesOfEnvelopes rest).map ((key, value) :: ·)

end

mutual

/-- Whether all payloads of strings in an envelope are texts. -/
def holdsTexts : Json → Bool
  | .object [(tag, payload)] =>
    match AttributeType.ofTag? tag, payload with
    | some .string, .string _ => true
    | some .string, _ => false
    | some .stringSet, .array items => items.all isText
    | some .list, .array items => itemsHoldTexts items
    | some .map, .object members => membersHoldTexts members
    | _, _ => true
  | _ => true

def itemsHoldTexts : List Json → Bool
  | [] => true
  | item :: rest => holdsTexts item && itemsHoldTexts rest

def membersHoldTexts : List (String × Json) → Bool
  | [] => true
  | (_, document) :: rest => holdsTexts document && membersHoldTexts rest

end

/-- Reads an envelope whose strings have texts as payloads. The reader of the program is
`ofEnvelope`, which takes any payload for the text of a string; that a payload is no text is noticed
here only, after whatever else is wrong with the envelope. -/
def ofWire (document : Json) : Except Failure Value :=
  match ofEnvelope document with
  | .error e => .error e
  | .ok value => if holdsTexts document then .ok value else .error .payloadNotText

end Value

end AttributeExpr
