import AttributeExpr.Proofs.Numeral
import AttributeExpr.Text.Character
import AttributeExpr.Value.Basic
/-!
JSON documents and their spellings. A number of a document is kept as the text that spells it, and
strings are texts of characters, so no surrogate is left without its partner. The relation follows
the grammar of JSON texts: layout may stand around every value and every key, a character of a
string stands for itself or is escaped, and an array or object has single commas between its parts.
-/
namespace AttributeExpr.JsonText

inductive Tree where
  | null
  | bool (value : Bool)
  | number (text : String)
  | string (text : String)
  | array (items : List Tree)
  | object (members : List (String × Tree))

namespace Tree

mutual

/-- The value that corresponds to a document, with the same parts in the same order. -/
def value : Tree → Value
  | null => .null
  | bool b => .bool b
  | number text => .number text
  | string text => .string text
  | array items => .list (values items)
  | object members => .map (entries members)

def values : List Tree → List Value
  | [] => []
  | item :: rest => value item :: values rest

def entries : List (String × Tree) → List (String × Value)
  | [] => []
  | (key, item) :: rest => (key, value item) :: entries rest

end

theorem values_eq_map (items : List Tree) : values items = items.map value := by
  induction items with
  | nil => rfl
  | cons item items ih => rw [values, ih, List.map_cons]

theorem entries_eq_map (members : List (String × Tree)) :
    entries members = members.map fun member => (member.1, member.2.value) := by
  induction members with
  | nil => rfl
  | cons member members ih => rw [entries, ih, List.map_cons]

/-- No object repeats a key. -/
inductive UniqueKeys : Tree → Prop where
  | null : UniqueKeys null
  | bool (b : Bool) : UniqueKeys (bool b)
  | number (text : String) : UniqueKeys (number text)
  | string (text : String) : UniqueKeys (string text)
  | array {items : List Tree} (h : ∀ item ∈ items, UniqueKeys item) : UniqueKeys (array items)
  | object {members : List (String × Tree)} (distinct : (members.map (·.1)).Nodup)
      (h : ∀ member ∈ members, UniqueKeys member.2) : UniqueKeys (object members)

end Tree

/-- Space, tab, carriage return and line feed. -/
def isSpace (c : Char) : Bool := c = ' ' || c = '\t' || c = '\r' || c = '\n'

/-! Numbers. -/

inductive IsWhole : List Char → Prop where
  | zero : IsWhole ['0']
  | positive {first : Char} {digits : List Char} (nonzero : first ≠ '0')
      (h : ∀ c ∈ first :: digits, Numeral.isDigit c = true) : IsWhole (first :: digits)

inductive IsFraction : List Char → Prop where
  | absent : IsFraction []
  | point {digits : List Char} (nonempty : digits ≠ [])
      (h : ∀ c ∈ digits, Numeral.isDigit c = true) : IsFraction ('.' :: digits)

inductive IsExponent : List Char → Prop where
  | absent : IsExponent []
  | power {letter : Char} {sign digits : List Char} (letter_eq : letter = 'e' ∨ letter = 'E')
      (sign_eq : sign = [] ∨ sign = ['+'] ∨ sign = ['-']) (nonempty : digits ≠ [])
      (h : ∀ c ∈ digits, Numeral.isDigit c = true) : IsExponent (letter :: sign ++ digits)

inductive IsNumber : List Char → Prop where
  | plain {whole fraction exponent : List Char} (integral : IsWhole whole)
      (fractional : IsFraction fraction) (powered : IsExponent exponent) :
      IsNumber (whole ++ fraction ++ exponent)
  | minus {whole fraction exponent : List Char} (integral : IsWhole whole)
      (fractional : IsFraction fraction) (powered : IsExponent exponent) :
      IsNumber ('-' :: (whole ++ fraction ++ exponent))

/-! Strings. -/

/-- The letters of short escapes and the characters that they stand for. -/
def shortEscapes : List (Char × Char) :=
  [('\x22', '\x22'), ('\\', '\\'), ('/', '/'), ('b', '\x08'), ('f', '\x0c'), ('n', '\n'),
    ('r', '\r'), ('t', '\t')]

/-- One character inside a string. Beyond the basic plane an escape takes two code units. -/
inductive SpellsChar : List Char → Char → Prop where
  | raw {c : Char} (printable : 0x20 ≤ c.toNat) (quote : c ≠ '\x22') (escape : c ≠ '\\') :
      SpellsChar [c] c
  | short {letter c : Char} (h : (letter, c) ∈ shortEscapes) : SpellsChar ['\\', letter] c
  | unit {digits : List Char} {c : Char} (length : digits.length = 4)
      (h : hexNumber? digits = some c.toNat) : SpellsChar ('\\' :: 'u' :: digits) c
  | pair {first second : List Char} {c : Char} (beyond : 0x10000 ≤ c.toNat)
      (length : first.length = 4)
      (high : hexNumber? first = some (0xD800 + (c.toNat - 0x10000) / 0x400))
      (length' : second.length = 4)
      (low : hexNumber? second = some (0xDC00 + (c.toNat - 0x10000) % 0x400)) :
      SpellsChar ('\\' :: 'u' :: first ++ '\\' :: 'u' :: second) c

inductive SpellsChars : List Char → List Char → Prop where
  | nil : SpellsChars [] []
  | cons {piece body text : List Char} {c : Char} (first : SpellsChar piece c)
      (rest : SpellsChars body text) : SpellsChars (piece ++ body) (c :: text)

/-- A string with its quotes. -/
inductive SpellsString : List Char → String → Prop where
  | quoted {body text : List Char} (h : SpellsChars body text) :
      SpellsString ('\x22' :: (body ++ ['\x22'])) (String.ofList text)

/-- The text of a member of an object, with the layout around its key. -/
structure MemberText where
  before : List Char
  key : List Char
  after : List Char
  name : String
  text : List Char
  tree : Tree

namespace MemberText

def spelled (part : MemberText) : List Char :=
  part.before ++ part.key ++ part.after ++ ':' :: part.text

def member (part : MemberText) : String × Tree := (part.name, part.tree)

/-- The key is spelled as a string between layout. -/
structure KeySpelled (part : MemberText) : Prop where
  before : ∀ c ∈ part.before, isSpace c = true
  key : SpellsString part.key part.name
  after : ∀ c ∈ part.after, isSpace c = true

end MemberText

/-- The text spells the document, maybe with layout around it. -/
inductive Spells : List Char → Tree → Prop where
  | before {c : Char} {text : List Char} {tree : Tree} (space : isSpace c = true)
      (h : Spells text tree) : Spells (c :: text) tree
  | after {c : Char} {text : List Char} {tree : Tree} (h : Spells text tree)
      (space : isSpace c = true) : Spells (text ++ [c]) tree
  | null : Spells "null".toList .null
  | true : Spells "true".toList (.bool true)
  | false : Spells "false".toList (.bool false)
  | number {text : String} (h : IsNumber text.toList) : Spells text.toList (.number text)
  | string {text : List Char} {meaning : String} (h : SpellsString text meaning) :
      Spells text (.string meaning)
  | emptyArray {blanks : List Char} (spaces : ∀ c ∈ blanks, isSpace c = true) :
      Spells ('[' :: (blanks ++ [']'])) (.array [])
  | array (parts : List (List Char × Tree)) (nonempty : parts ≠ [])
      (h : ∀ part ∈ parts, Spells part.1 part.2) :
      Spells ('[' :: ([','].intercalate (parts.map (·.1)) ++ [']'])) (.array (parts.map (·.2)))
  | emptyObject {blanks : List Char} (spaces : ∀ c ∈ blanks, isSpace c = true) :
      Spells ('\x7b' :: (blanks ++ ['\x7d'])) (.object [])
  | object (parts : List MemberText) (nonempty : parts ≠ [])
      (keys : ∀ part ∈ parts, part.KeySpelled) (h : ∀ part ∈ parts, Spells part.text part.tree) :
      Spells ('\x7b' :: ([','].intercalate (parts.map (·.spelled)) ++ ['\x7d']))
        (.object (parts.map (·.member)))

end AttributeExpr.JsonText
