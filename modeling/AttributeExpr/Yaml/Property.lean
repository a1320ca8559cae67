import AttributeExpr.Decimal.Basic
import AttributeExpr.Error.Config
import AttributeExpr.Text.Character
import AttributeExpr.Yaml.Cursor
import AttributeExpr.Yaml.Token
/-!
What stands before a node or a document: anchors, tags and directives.
-/
namespace AttributeExpr.Yaml

/-- Reads the name of an anchor after its indicator. -/
def readAnchorName? (cursor : Cursor) : Option (List Char × Cursor) :=
  let (name, after) := cursor.takeWhile isNameChar
  let ends := endsToken after.rest || after.char?.any fun c => "?:,]\x7d%@\x60".toList.contains c
  if name.isEmpty || !ends then none else some (name, after)

def isUriChar (c : Char) : Bool :=
  isNameChar c || ";/?:@&=+$,_.!~*'()[]%".toList.contains c

/-- Reads escaped bytes: percent signs with two digits each. -/
def readUriBytes? (fuel : Nat) (cursor : Cursor) : Option (List UInt8 × Cursor) :=
  match fuel, cursor.rest with
  | fuel + 1, '%' :: a :: b :: _ => do
    let byte ← hexNumber? [a, b]
    let (bytes, after) ← readUriBytes? fuel (cursor.forward 3)
    return (UInt8.ofNat byte :: bytes, after)
  | _, '%' :: _ => none
  | _, _ => some ([], cursor)

/-- Reads a part of the name of a tag. Escaped bytes have to be UTF-8. -/
def readUriFrom? (fuel : Nat) (text : List Char) (cursor : Cursor) : Option (List Char × Cursor) :=
  match fuel, cursor.char? with
  | fuel + 1, some c =>
    if c = '%' then do
      let (bytes, after) ← readUriBytes? cursor.rest.length cursor
      let decoded ← String.fromUTF8? ⟨bytes.toArray⟩
      readUriFrom? fuel (text ++ decoded.toList) after
    else if isUriChar c then readUriFrom? fuel (text ++ [c]) cursor.next
    else some (text, cursor)
  | _, _ => some (text, cursor)

def readUri? (cursor : Cursor) : Option (List Char × Cursor) :=
  if cursor.char?.any isUriChar then readUriFrom? cursor.rest.length [] cursor else none

/-- Reads a handle: an exclamation mark, or a name between two of them. -/
def readHandle? (cursor : Cursor) : Option (List Char × Cursor) :=
  match cursor.rest with
  | '!' :: rest =>
    if rest.head? = some ' ' then some (['!'], cursor.next)
    else
      let (name, after) := cursor.next.takeWhile isNameChar
      if after.char? = some '!' then some ('!' :: name ++ ['!'], after.next) else none
  | _ => none

/-- Reads a tag between angle brackets, or one with a handle. -/
def readTagText? (cursor : Cursor) : Option (TagText × Cursor) :=
  match cursor.rest.drop 1 with
  | '<' :: _ => do
    let (name, after) ← readUri? (cursor.forward 2)
    if after.char? = some '>' then some (⟨none, name⟩, after.next) else none
  | rest =>
    if endsToken rest then some (⟨none, ['!']⟩, cursor.next)
    else do
      let word := rest.takeWhile fun c => !(c = ' ' || isBreak c)
      let (handle, after) ← if word.contains '!' then readHandle? cursor
        else some (['!'], cursor.next)
      let (suffix, after) ← readUri? after
      return (⟨some handle, suffix⟩, after)

/-- Reads a tag whose exclamation mark is at the cursor. White space has to follow it. -/
def readTag? (cursor : Cursor) : Option (TagText × Cursor) :=
  (readTagText? cursor).filter fun (_, after) => endsProperty after.rest

/-- Reads the number before or after the point of a version. -/
def readVersionNumber (cursor : Cursor) : Except Fault (Nat × Cursor) :=
  let (digits, after) := cursor.takeWhile Char.isDigit
  if digits.isEmpty then .error .malformed
  else if Numeral.maxDigits < digits.length then .error (.scalar .longInteger)
  else .ok (Decimal.ofDigits digits, after)

def readVersion (cursor : Cursor) : Except Fault (Directive × Cursor) := do
  let (major, after) ← readVersionNumber (cursor.skipWhile (· = ' '))
  if after.char? ≠ some '.' then throw .malformed
  let (_, after) ← readVersionNumber after.next
  if endsProperty after.rest then return (.version major, after) else throw .malformed

def readTagDirective? (cursor : Cursor) : Option (Directive × Cursor) := do
  let (handle, after) ← readHandle? (cursor.skipWhile (· = ' '))
  if after.char? ≠ some ' ' then none
  let (start, after) ← readUri? (after.skipWhile (· = ' '))
  if endsProperty after.rest then some (.tag handle start, after) else none

/-- Lifts the outcome of a reader that knows no faults but one. -/
def orMalformed {α : Type} (outcome : Option α) : Except Fault α :=
  match outcome with
  | some a => .ok a
  | none => .error .malformed

/-- Reads the line of a directive, whose percent sign is at the cursor. -/
def readDirective (cursor : Cursor) : Except Fault (Directive × Cursor) := do
  let (name, after) := cursor.next.takeWhile isNameChar
  if name.isEmpty || !endsProperty after.rest then throw .malformed
  let (directive, after) ←
    if name = "YAML".toList then readVersion after
    else if name = "TAG".toList then orMalformed (readTagDirective? after)
    else pure (Directive.other, after.skipWhile (!isBreak ·))
  return (directive, ← orMalformed after.finishLine?)

end AttributeExpr.Yaml
