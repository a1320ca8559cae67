import AttributeExpr.Yaml.BlockScalar
import AttributeExpr.Yaml.Property
import AttributeExpr.Yaml.Quoted
/-!
From text to tokens. The columns of a block decide where it starts and ends, and a token turns out
to be a key when a colon follows on its line.
-/
namespace AttributeExpr.Yaml

/-- The number of characters within which the colon of a key has to follow. -/
def maxKeyLength : Nat := 1024

/-- A token that is a key if a colon follows, with its number and its place. In a block, a token in
the column of the keys has to be one. -/
structure PossibleKey where
  token : Nat
  required : Bool
  place : Cursor

/-- The tokens read so far, the latest first, and what the layout asks of the next one: the column
of the innermost block, the columns of those around it, the number of open flow collections, whether
a key may start here, and the possible keys by the number of collections around them. -/
structure Layout where
  cursor : Cursor
  tokens : List Token
  column : Int
  outer : List Int
  level : Nat
  allowsKey : Bool
  keys : List (Nat × PossibleKey)

namespace Layout

def start (text : List Char) : Layout := ⟨.start text, [], -1, [], 0, true, []⟩

def inFlow (layout : Layout) : Bool := 0 < layout.level

def push (layout : Layout) (token : Token) : Layout :=
  { layout with tokens := token :: layout.tokens }

/-- Adds a token before one that has been read. -/
def insertBefore (layout : Layout) (number : Nat) (token : Token) : Layout :=
  { layout with tokens := layout.tokens.insertIdx (layout.tokens.length - number) token }

/-- Adds a token that takes some characters. -/
def pushWide (layout : Layout) (token : Token) (width : Nat) : Layout :=
  { layout.push token with cursor := layout.cursor.forward width }

/-- Forgets the possible keys whose line is over; one that had to be a key is missed. -/
def expire (layout : Layout) : Except Fault Layout :=
  let isOver (key : PossibleKey) : Bool := key.place.line ≠ layout.cursor.line ||
    maxKeyLength < layout.cursor.index - key.place.index
  if layout.keys.any fun (_, key) => isOver key && key.required then .error .malformed
  else .ok { layout with keys := layout.keys.filter fun (_, key) => !isOver key }

/-- Forgets the possible key among the tokens of the innermost collection. -/
def dropKey (layout : Layout) : Except Fault Layout :=
  if layout.keys.any fun (level, key) => level = layout.level && key.required then
    .error .malformed
  else .ok { layout with keys := layout.keys.filter fun (level, _) => level ≠ layout.level }

/-- Notes that the next token may be a key. -/
def noteKey (layout : Layout) : Except Fault Layout :=
  if !layout.allowsKey then .ok layout
  else
    layout.dropKey.map fun layout =>
      let required := !layout.inFlow && layout.column = layout.cursor.column
      let key : PossibleKey := ⟨layout.tokens.length, required, layout.cursor⟩
      { layout with keys := (layout.level, key) :: layout.keys }

/-- The number of the first token that may still turn out to be a key. -/
def firstPossibleKey? (layout : Layout) : Option Nat := (layout.keys.map (·.2.token)).min?

/-- Closes the blocks that lie to the right of a column, innermost first. -/
def closeBlocks (column : Int) (layout : Layout) : Layout :=
  if layout.inFlow then layout
  else
    let closes := (layout.column :: layout.outer).takeWhile (column < ·)
    let left := (layout.column :: layout.outer).drop closes.length
    { layout with
      tokens := List.replicate closes.length .closeBlock ++ layout.tokens
      column := left.headD (-1)
      outer := left.drop 1 }

/-- Whether a column opens a new block, and the layout inside it. -/
def openBlock? (column : Nat) (layout : Layout) : Option Layout :=
  if layout.column < column then
    some { layout with column := column, outer := layout.column :: layout.outer }
  else none

/-- Opens a block at the cursor, if there is none at its column. -/
def openBlockHere (shape : Shape) (layout : Layout) : Layout :=
  match layout.openBlock? layout.cursor.column with
  | some inner => inner.push (.openBlock shape)
  | none => layout

/-- Reads a mark between documents or a directive, which close all blocks. -/
def outsideBlocks (layout : Layout) : Except Fault Layout :=
  (layout.closeBlocks (-1)).dropKey.map fun layout => { layout with allowsKey := false }

def readDirectiveLine (layout : Layout) : Except Fault Layout := do
  let layout ← layout.outsideBlocks
  let (directive, after) ← readDirective layout.cursor
  return { layout.push (.directive directive) with cursor := after }

def openFlow (shape : Shape) (layout : Layout) : Except Fault Layout :=
  layout.noteKey.map fun layout =>
    { layout.pushWide (.openFlow shape) 1 with level := layout.level + 1, allowsKey := true }

def closeFlow (shape : Shape) (layout : Layout) : Except Fault Layout :=
  if !layout.inFlow then .error .malformed
  else
    layout.dropKey.map fun layout =>
      { layout.pushWide (.closeFlow shape) 1 with level := layout.level - 1, allowsKey := false }

def readComma (layout : Layout) : Except Fault Layout :=
  layout.dropKey.map fun layout => { layout.pushWide .comma 1 with allowsKey := true }

/-- Reads an indicator that opens a block in its column, where a key may start. -/
def readIndicator (shape : Shape) (token : Token) (layout : Layout) : Except Fault Layout :=
  if layout.inFlow then layout.dropKey.map (·.pushWide token 1)
  else if !layout.allowsKey then .error .malformed
  else (layout.openBlockHere shape).dropKey.map (·.pushWide token 1)

def readItem (layout : Layout) : Except Fault Layout :=
  (layout.readIndicator .sequence .item).map fun layout => { layout with allowsKey := true }

def readKey (layout : Layout) : Except Fault Layout :=
  (layout.readIndicator .mapping .key).map fun layout =>
    { layout with allowsKey := !layout.inFlow }

/-- Reads a colon. If there is a possible key, that is the key, and a block may start with it. -/
def readValue (layout : Layout) : Except Fault Layout :=
  match layout.keys.find? (·.1 = layout.level) with
  | some (level, key) =>
    let layout := { layout with keys := layout.keys.filter (·.1 ≠ level), allowsKey := false }
    let layout := layout.insertBefore key.token .key
    let layout := if layout.inFlow then layout
      else match layout.openBlock? key.place.column with
        | some inner => inner.insertBefore key.token (.openBlock .mapping)
        | none => layout
    .ok (layout.pushWide .value 1)
  | none =>
    (layout.readIndicator .mapping .value).map fun layout =>
      { layout with allowsKey := !layout.inFlow }

/-- Reads a token that may be or start a key. -/
def readContent (read : Cursor → Except Fault (Token × Cursor)) (layout : Layout) :
    Except Fault Layout := do
  let layout ← layout.noteKey
  let (token, after) ← read layout.cursor
  return { layout.push token with cursor := after, allowsKey := false }

def readPlain (layout : Layout) : Except Fault Layout :=
  layout.noteKey.map fun layout =>
    let scalar := PlainScalar.read layout.inFlow (layout.column + 1) layout.cursor
    { layout.push (.scalar (CodePoints.ofChars scalar.text) true) with
      cursor := scalar.after, allowsKey := scalar.crossed }

def readBlock (layout : Layout) : Except Fault Layout := do
  let layout ← layout.dropKey
  let (text, after) ← orMalformed (readBlockScalar? layout.column layout.cursor)
  return { layout.push (.scalar (CodePoints.ofChars text) false) with
    cursor := after, allowsKey := true }

/-- Passes over what separates tokens. On a new line of a block a key may start. -/
def skip (layout : Layout) : Layout :=
  let cursor := if layout.cursor.index = 0 && layout.cursor.char? = some '\uFEFF' then
      layout.cursor.next
    else layout.cursor
  let (crossed, after) := cursor.skip
  { layout with cursor := after, allowsKey := layout.allowsKey || (crossed && !layout.inFlow) }

/-- Reads the tokens that start at the cursor. -/
def readHere (layout : Layout) : Except Fault Layout :=
  let cursor := layout.cursor
  match cursor.rest with
  | [] => layout.outsideBlocks.map (·.push .endOfText)
  | c :: rest =>
    let stands := layout.inFlow || endsToken rest
    if c = '%' && cursor.column = 0 then layout.readDirectiveLine
    else if cursor.isAtStart then layout.outsideBlocks.map (·.pushWide .documentStart 3)
    else if cursor.isAtEnd then layout.outsideBlocks.map (·.pushWide .documentEnd 3)
    else if c = '[' then layout.openFlow .sequence
    else if c = '\x7b' then layout.openFlow .mapping
    else if c = ']' then layout.closeFlow .sequence
    else if c = '\x7d' then layout.closeFlow .mapping
    else if c = ',' then layout.readComma
    else if c = '-' && endsToken rest then layout.readItem
    else if c = '?' && stands then layout.readKey
    else if c = ':' && stands then layout.readValue
    else if c = '*' then layout.readContent fun cursor =>
      orMalformed ((readAnchorName? cursor.next).map fun (name, after) => (.alias name, after))
    else if c = '&' then layout.readContent fun cursor =>
      orMalformed ((readAnchorName? cursor.next).map fun (name, after) => (.anchor name, after))
    else if c = '!' then layout.readContent fun cursor =>
      orMalformed ((readTag? cursor).map fun (text, after) => (.tag text, after))
    else if (c = '|' || c = '>') && !layout.inFlow then layout.readBlock
    else if c = '\x27' || c = '\x22' then layout.readContent fun cursor =>
      (readQuoted cursor).map fun (text, after) => (.scalar text false, after)
    else if startsPlain layout.inFlow cursor.rest then layout.readPlain
    else .error .malformed

/-- Reads the next tokens: blocks end in front of them. -/
def step (layout : Layout) : Except Fault Layout := do
  let layout ← layout.skip.expire
  (layout.closeBlocks layout.cursor.column).readHere

end Layout

/-- The tokens of a text, in order. If a fault keeps the next token from being read, the tokens end
there; the fault is met where the first token is wanted that could still have become a key. -/
structure Lexed where
  tokens : List Token
  fault : Fault

def Lexed.readFrom (fuel : Nat) (layout : Layout) : Lexed :=
  match fuel, layout.expire with
  | 0, _ => ⟨[], .malformed⟩
  | _, .error fault => ⟨[], fault⟩
  | fuel + 1, .ok layout =>
    match layout.step with
    | .error fault =>
      let read := layout.tokens.reverse
      ⟨read.take (layout.firstPossibleKey?.getD read.length), fault⟩
    | .ok next =>
      if next.tokens.head? = some .endOfText then ⟨next.tokens.reverse, .malformed⟩
      else readFrom fuel next

/-- The characters that may stand in a text. -/
def isAllowed (c : Char) : Bool :=
  let n := c.toNat
  c = '\t' || c = '\n' || (0x20 ≤ n && n ≤ 0x7E) || n = 0x85 || (0xA0 ≤ n && n ≤ 0xFFFD) ||
    0x10000 ≤ n

/-- Line breaks of two characters or of carriage returns become simple ones. -/
def unifyBreaks : List Char → List Char
  | '\r' :: '\n' :: rest => '\n' :: unifyBreaks rest
  | '\r' :: rest => '\n' :: unifyBreaks rest
  | c :: rest => c :: unifyBreaks rest
  | [] => []

def Lexed.ofText (text : String) : Lexed :=
  let chars := unifyBreaks text.toList
  if chars.all isAllowed then readFrom (chars.length + 2) (.start chars) else ⟨[], .malformed⟩

end AttributeExpr.Yaml
