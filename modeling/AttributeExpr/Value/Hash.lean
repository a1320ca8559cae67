import AttributeExpr.Value.Sharing
import Mathlib.Data.List.Pairwise
/-!
Hash codes of values, and tables that are searched by them. How texts, bytes, truth values and
numbers are hashed and how the codes of parts are put together is left open: all that is asked of it
is that numbers of the same value have the same code, and that the code of a collection without an
order does not depend on the order in which its members are found.
-/
namespace AttributeExpr

/-- Hashing of what values are made of. -/
structure Hashing (Code : Type) where
  text : String → Code
  bytes : Bytes → Code
  truth : Bool → Code
  number : Decimal → Code
  tuple : List Code → Code
  unordered : List Code → Code
  number_eq : ∀ {d d' : Decimal}, d.sameValue d' = true → number d = number d'
  unordered_eq : ∀ {codes codes' : List Code}, codes.Perm codes' →
    unordered codes = unordered codes'

/-- A list without the members that are the same as a later one. -/
def distinctBy {α : Type} (same : α → α → Bool) (members : List α) : List α :=
  members.pwFilter fun a b => same a b = false

namespace Value

section

variable {Code : Type} [DecidableEq Code] (hashing : Hashing Code)

/-- Whether two entries with the codes of their values are one: they have the same key, and their
values have the same code and are equal. -/
def sameEntry (a b : (String × Value) × Code) : Bool :=
  a.1.1 = b.1.1 && a.2 = b.2 && isEqual a.1.2 b.1.2

/-- The code of a map, from its entries with the codes of their values. -/
def mapCode (entries : List ((String × Value) × Code)) : Code :=
  hashing.unordered <| (distinctBy sameEntry entries).map fun (entry, code) =>
    hashing.tuple [hashing.text entry.1, code]

/-- The code of a set of some kind, from the codes of its elements. -/
def setCode (kind : String) (codes : List Code) : Code :=
  hashing.tuple [hashing.text kind, hashing.unordered codes]

mutual

/-- The code of a value. There is none if a number of a set cannot be compared. -/
def hash : Value → Except Failure Code
  | null => .ok (hashing.tuple [])
  | bool b => .ok (hashing.tuple [hashing.truth b])
  | number text | string text => .ok (hashing.tuple [hashing.text text])
  | binary bytes => .ok (hashing.tuple [hashing.bytes bytes])
  | list items => (hashItems items).map fun codes => hashing.tuple [hashing.tuple codes]
  | map entries => (hashEntries entries).map (mapCode hashing)
  | numberSet elements => (elements.mapM comparable).map fun numbers =>
    setCode hashing "NumberSet" ((distinctBy Decimal.sameValue numbers).map hashing.number)
  | stringSet elements =>
    .ok (setCode hashing "StringSet" ((distinctBy (· = ·) elements).map hashing.text))
  | binarySet elements =>
    .ok (setCode hashing "BinarySet" ((distinctBy (· = ·) elements).map hashing.bytes))

def hashItems : List Value → Except Failure (List Code)
  | [] => .ok []
  | item :: rest =>
    match hash item with
    | .error e => .error e
    | .ok code => (hashItems rest).map (code :: ·)

/-- The entries of a map with the codes of their values. -/
def hashEntries : List (String × Value) → Except Failure (List ((String × Value) × Code))
  | [] => .ok []
  | entry :: rest =>
    match hash entry.2 with
    | .error e => .error e
    | .ok code => (hashEntries rest).map ((entry, code) :: ·)

end

end

/-- A key of a table with its code, and what stands under it. -/
structure Slot (Code α : Type) where
  code : Code
  key : Value
  content : α

/-- A finite map whose keys are values. A key that equals a stored one is the same key. -/
abbrev HashTable (Code α : Type) := List (Slot Code α)

namespace HashTable

variable {Code α : Type} [DecidableEq Code]

/-- Whether a key with the given code is the one of a slot. -/
def isAt (code : Code) (key : Value) (slot : Slot Code α) : Bool :=
  slot.code = code && isEqual slot.key key

def find? (table : HashTable Code α) (code : Code) (key : Value) : Option α :=
  (List.find? (isAt code key) table).map (·.content)

/-- The table with a new content under a key. A stored key that equals it stays. -/
def put : HashTable Code α → Code → Value → α → HashTable Code α
  | [], code, key, content => [⟨code, key, content⟩]
  | slot :: rest, code, key, content =>
    if isAt code key slot then { slot with content := content } :: rest
    else slot :: put rest code key content

variable (hashing : Hashing Code)

def get? (table : HashTable Code α) (key : Value) : Except Failure (Option α) :=
  (hash hashing key).map fun code => find? table code key

def insert (table : HashTable Code α) (key : Value) (content : α) :
    Except Failure (HashTable Code α) :=
  (hash hashing key).map fun code => put table code key content

/-- The table that some entries leave, put into it one after another. -/
def ofEntries (entries : List (Value × α)) : Except Failure (HashTable Code α) :=
  entries.foldlM (fun table entry => insert hashing table entry.1 entry.2) []

end HashTable

end Value

end AttributeExpr
