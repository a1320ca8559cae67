import AttributeExpr.Text.Character
/-!
A place in YAML text. The column of a token decides to which block it belongs, and a key has to end
on its line, so the place carries both along.
-/
namespace AttributeExpr.Yaml

def isBreak (c : Char) : Bool := c = '\n' || c = '\u0085' || c = '\u2028' || c = '\u2029'

/-- The letters, digits and signs of anchors, handles and directives. -/
def isNameChar (c : Char) : Bool := c.isAlphanum || c = '-' || c = '_'

/-- Whether the line ends where a text starts. -/
def endsLine (text : List Char) : Bool := text.head?.all isBreak

/-- Whether a space or the end of the line is where a text starts. -/
def endsProperty (text : List Char) : Bool := text.head?.all fun c => c = ' ' || isBreak c

/-- Whether white space or the end is where a text starts. -/
def endsToken (text : List Char) : Bool := text.head?.all fun c => isSpaceOrTab c || isBreak c

/-- The text that is left, with the place of its first character: how many characters and how many
lines come before it, and how many characters of its line. -/
structure Cursor where
  index : Nat
  line : Nat
  column : Nat
  rest : List Char

namespace Cursor

def start (text : List Char) : Cursor := ⟨0, 0, 0, text⟩

/-- Passes over a character. A byte order mark takes no column. -/
def next (cursor : Cursor) : Cursor :=
  match cursor.rest with
  | [] => cursor
  | c :: rest =>
    if isBreak c then ⟨cursor.index + 1, cursor.line + 1, 0, rest⟩
    else if c = '\uFEFF' then ⟨cursor.index + 1, cursor.line, cursor.column, rest⟩
    else ⟨cursor.index + 1, cursor.line, cursor.column + 1, rest⟩

def forward (cursor : Cursor) : Nat → Cursor
  | 0 => cursor
  | count + 1 => cursor.next.forward count

def char? (cursor : Cursor) : Option Char := cursor.rest.head?

/-- The longest run of characters of a kind, and the place after it. -/
def takeWhile (p : Char → Bool) (cursor : Cursor) : List Char × Cursor :=
  let run := cursor.rest.takeWhile p
  (run, cursor.forward run.length)

def skipWhile (p : Char → Bool) (cursor : Cursor) : Cursor := (cursor.takeWhile p).2

/-- A line break, as it counts in a text: a next-line control is a plain one. -/
def takeBreak? (cursor : Cursor) : Option (Char × Cursor) :=
  match cursor.rest with
  | c :: _ => if isBreak c then some (if c = '\u0085' then '\n' else c, cursor.next) else none
  | [] => none

def isAtMark (mark : String) (cursor : Cursor) : Bool :=
  cursor.column = 0 && mark.toList.isPrefixOf cursor.rest && endsToken (cursor.rest.drop 3)

/-- Whether the mark stands here with which a document starts. -/
def isAtStart (cursor : Cursor) : Bool := cursor.isAtMark "---"

/-- Whether the mark stands here with which a document ends. -/
def isAtEnd (cursor : Cursor) : Bool := cursor.isAtMark "..."

def isAtMarker (cursor : Cursor) : Bool := cursor.isAtStart || cursor.isAtEnd

def skipFrom (fuel : Nat) (crossed : Bool) (cursor : Cursor) : Bool × Cursor :=
  match fuel, cursor.rest with
  | 0, _ | _, [] => (crossed, cursor)
  | fuel + 1, c :: _ =>
    if c = ' ' then skipFrom fuel crossed cursor.next
    else if c = '#' then skipFrom fuel crossed (cursor.skipWhile (!isBreak ·))
    else if isBreak c then skipFrom fuel true cursor.next
    else (crossed, cursor)

/-- Passes over spaces, comments and line breaks, and tells whether there was a line break. -/
def skip (cursor : Cursor) : Bool × Cursor := skipFrom cursor.rest.length false cursor

/-- Passes over spaces and a comment to the end of the line; nothing else may stand there. -/
def finishLine? (cursor : Cursor) : Option Cursor :=
  let after := cursor.skipWhile (· = ' ')
  let after := if after.char? = some '#' then after.skipWhile (!isBreak ·) else after
  if endsLine after.rest then some after.next else none

end Cursor

end AttributeExpr.Yaml
