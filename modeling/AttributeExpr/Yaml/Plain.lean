import AttributeExpr.Yaml.Cursor
/-!
Scalars without quotes. A plain scalar may go on over several lines, whose breaks are folded into
spaces.
-/
namespace AttributeExpr.Yaml

/-- Line breaks between two parts of a scalar, the first of them apart: a single one is a space, and
of several the first does not count. -/
def foldBreaks (first : Char) (others : List Char) : List Char :=
  if first ≠ '\n' then first :: others else if others.isEmpty then [' '] else others

/-- Whether a plain scalar can start with a text. -/
def startsPlain (inFlow : Bool) : List Char → Bool
  | [] => false
  | c :: rest =>
    if isSpaceOrTab c || isBreak c then false
    else if "-?:,[]\x7b\x7d#&*!|>'\"%@\x60".toList.contains c then
      !endsToken rest && (c = '-' || (!inFlow && (c = '?' || c = ':')))
    else true

/-- The part of a plain scalar up to the next white space. -/
def plainChunk (inFlow : Bool) : List Char → List Char
  | [] => []
  | c :: rest =>
    let ends := endsToken [c] || (inFlow && ",?[]\x7b\x7d".toList.contains c) ||
      (c = ':' && (endsToken rest ||
        (inFlow && rest.head?.any fun d => ",[]\x7b\x7d".toList.contains d)))
    if ends then [] else c :: plainChunk inFlow rest

/-- Further line breaks and the spaces around them, up to the next line with text. At a mark that
separates documents the scalar is over, and there is none. -/
def plainBreaks (fuel : Nat) (breaks : List Char) (cursor : Cursor) : Option (List Char) × Cursor :=
  match fuel, cursor.takeBreak? with
  | 0, _ => (some breaks, cursor)
  | fuel + 1, some (c, after) =>
    if after.isAtMarker then (none, after) else plainBreaks fuel (breaks ++ [c]) after
  | fuel + 1, none =>
    if cursor.char? = some ' ' then plainBreaks fuel breaks cursor.next else (some breaks, cursor)

/-- What stands between two parts of a plain scalar, as it counts in its text, and where the next
part is. A gap without text ends the scalar. -/
structure Gap where
  text : List Char
  crossed : Bool
  after : Cursor

def Gap.read (cursor : Cursor) : Gap :=
  let (blanks, after) := cursor.takeWhile (· = ' ')
  match after.takeBreak? with
  | none => ⟨blanks, false, after⟩
  | some (first, after) =>
    if after.isAtMarker then ⟨[], true, after⟩
    else match plainBreaks after.rest.length [] after with
      | (none, after) => ⟨[], true, after⟩
      | (some others, after) => ⟨foldBreaks first others, true, after⟩

/-- A plain scalar as read, and whether the place after it is on a new line. -/
structure PlainScalar where
  text : List Char
  crossed : Bool
  after : Cursor

/-- Reads the parts of a plain scalar after some text and a gap. In a block, further lines belong to
it from the column `least` on. -/
def PlainScalar.readFrom (inFlow : Bool) (least : Int) (fuel : Nat) (text : List Char) (gap : Gap) :
    PlainScalar :=
  let chunk := plainChunk inFlow gap.after.rest
  match fuel with
  | 0 => ⟨text, gap.crossed, gap.after⟩
  | fuel + 1 =>
    if gap.after.char? = some '#' || chunk.isEmpty then ⟨text, gap.crossed, gap.after⟩
    else
      let text := text ++ gap.text ++ chunk
      let gap := Gap.read (gap.after.forward chunk.length)
      if gap.text.isEmpty || (!inFlow && gap.after.column < least) then
        ⟨text, gap.crossed, gap.after⟩
      else readFrom inFlow least fuel text gap

def PlainScalar.read (inFlow : Bool) (least : Int) (cursor : Cursor) : PlainScalar :=
  readFrom inFlow least cursor.rest.length [] ⟨[], false, cursor⟩

end AttributeExpr.Yaml
