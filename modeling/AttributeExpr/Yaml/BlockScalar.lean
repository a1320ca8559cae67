import AttributeExpr.Yaml.Cursor
/-!
Scalars that are blocks of indented lines: literal ones keep their line breaks, folded ones make
spaces of them. A header tells how far the lines are indented and what becomes of the last breaks.
-/
namespace AttributeExpr.Yaml

/-- What becomes of the line breaks at the end: one is kept, none or all. -/
inductive Chomping
  | clip | strip | keep
deriving DecidableEq

def Chomping.ofChar? : Char → Option Chomping
  | '+' => some keep
  | '-' => some strip
  | _ => none

/-- The header after the indicator; the width of the indentation need not be given. -/
structure BlockHeader where
  chomping : Chomping
  width : Option Nat

namespace BlockHeader

private def width? (c : Char) : Option Nat := if c.isDigit then some (c.toNat - '0'.toNat) else none

/-- Reads the chomping and the width, in either order. -/
def indicators (text : List Char) : BlockHeader × Nat :=
  match text.head?.bind Chomping.ofChar?, text.head?.bind width? with
  | some chomping, _ =>
    match text[1]?.bind width? with
    | some width => (⟨chomping, some width⟩, 2)
    | none => (⟨chomping, none⟩, 1)
  | none, some width =>
    match text[1]?.bind Chomping.ofChar? with
    | some chomping => (⟨chomping, some width⟩, 2)
    | none => (⟨.clip, some width⟩, 1)
  | none, none => (⟨.clip, none⟩, 0)

/-- Reads the rest of the line with the indicator. -/
def read? (cursor : Cursor) : Option (BlockHeader × Cursor) :=
  let (header, length) := indicators cursor.rest
  let after := cursor.forward length
  if header.width = some 0 || !endsProperty after.rest then none
  else after.finishLine?.map (header, ·)

end BlockHeader

/-- Passes over blank lines and indentation before the first line of text, and tells how far that
goes: the line breaks, and the greatest column that is reached. -/
def leadingLines (fuel : Nat) (breaks : List Char) (column : Nat) (cursor : Cursor) :
    List Char × Nat × Cursor :=
  match fuel, cursor.takeBreak? with
  | 0, _ => (breaks, column, cursor)
  | fuel + 1, some (c, after) => leadingLines fuel (breaks ++ [c]) column after
  | fuel + 1, none =>
    if cursor.char? = some ' ' then
      leadingLines fuel breaks (max column cursor.next.column) cursor.next
    else (breaks, column, cursor)

/-- Passes over the indentation of a line, as far as it goes. -/
def skipIndent (indent : Nat) (cursor : Cursor) : Cursor :=
  cursor.forward ((cursor.rest.take (indent - cursor.column)).takeWhile (· = ' ')).length

/-- Passes over blank lines and the indentation of the next line with text. -/
def blankLines (indent : Nat) (fuel : Nat) (breaks : List Char) (cursor : Cursor) :
    List Char × Cursor :=
  let cursor := skipIndent indent cursor
  match fuel, cursor.takeBreak? with
  | fuel + 1, some (c, after) => blankLines indent fuel (breaks ++ [c]) after
  | _, _ => (breaks, cursor)

/-- A block scalar as far as it has been read: its text, the break after its last line, the blank
lines after that, and the place of the next line. -/
structure BlockLines where
  text : List Char
  lastBreak : List Char
  breaks : List Char
  after : Cursor

/-- Reads the lines of a block scalar. Folding spares lines that start with white space. -/
def BlockLines.readFrom (folded : Bool) (indent : Nat) (fuel : Nat) (lines : BlockLines) :
    BlockLines :=
  let cursor := lines.after
  match fuel with
  | 0 => lines
  | fuel + 1 =>
    if cursor.column ≠ indent || cursor.rest.isEmpty then lines
    else
      let (line, after) := cursor.takeWhile (!isBreak ·)
      let (lastBreak, after) := match after.takeBreak? with
        | some (c, after) => ([c], after)
        | none => ([], after)
      let (breaks, after) := blankLines indent after.rest.length [] after
      let text := lines.text ++ lines.breaks ++ line
      let isText (cursor : Cursor) : Bool := !cursor.char?.any isSpaceOrTab
      if after.column ≠ indent || after.rest.isEmpty then ⟨text, lastBreak, breaks, after⟩
      else
        let joint := if folded && lastBreak = ['\n'] && isText cursor && isText after then
            if breaks.isEmpty then [' '] else []
          else lastBreak
        readFrom folded indent fuel ⟨text ++ joint, lastBreak, breaks, after⟩

/-- Reads a block scalar whose indicator is at the cursor, inside a block of the given column. -/
def readBlockScalar? (parent : Int) (cursor : Cursor) : Option (List Char × Cursor) := do
  let folded := cursor.char? = some '>'
  let (header, start) ← BlockHeader.read? cursor.next
  let least := max 1 (parent + 1).toNat
  let (indent, breaks, start) := match header.width with
    | some width =>
      let indent := least + width - 1
      (indent, blankLines indent start.rest.length [] start)
    | none =>
      let (breaks, column, start) := leadingLines start.rest.length [] 0 start
      (max least column, breaks, start)
  let lines := BlockLines.readFrom folded indent (start.rest.length + 1) ⟨[], [], breaks, start⟩
  let ending := match header.chomping with
    | .strip => []
    | .clip => lines.lastBreak
    | .keep => lines.lastBreak ++ lines.breaks
  return (lines.text ++ ending, lines.after)

end AttributeExpr.Yaml
