import AttributeExpr.Json.Basic
import AttributeExpr.Value.Set
/-!
Values of plain documents, and the older convention under which a list of numbers, of strings or of
binaries stood for a set. The convention is a rewriting of values: a list becomes a set wherever
its items could be the elements of one.
-/
namespace AttributeExpr.Value

/-- Whether no number of a list equals an earlier one. Every text is read before any two are
compared. -/
def distinctNumbers (texts : List String) : Except Failure Bool := do
  let numbers ← texts.mapM fun text =>
    match Decimal.read? text with
    | some d => .ok d
    | none => .error Failure.noDecimal
  if numbers.any (·.isSignaling) then throw .signalingNaN
  return numbers.Pairwise fun a b => !a.sameValue b

/-- Whether the items of a list could be the elements of a set. -/
def isSetLike (items : List Value) : Except Failure Bool :=
  match items with
  | [] => .ok false
  | first :: _ =>
    if !first.type.isScalar || items.any (·.type ≠ first.type) then .ok false
    else match first with
      | number _ => distinctNumbers (items.filterMap numberText?)
      | string _ => .ok (firstRepeat? [] (items.filterMap stringText?)).isNone
      | _ => .ok (firstRepeat? [] (items.filterMap binaryBytes?)).isNone

mutual

/-- Turns every list that could be a set into that set. -/
def inferSets : Value → Except Failure Value
  | list items =>
    match isSetLike items with
    | .error e => .error e
    | .ok true => setOf items
    | .ok false => (inferSetsInItems items).map list
  | map entries => (inferSetsInEntries entries).map map
  | value => .ok value

def inferSetsInItems : List Value → Except Failure (List Value)
  | [] => .ok []
  | item :: rest =>
    match inferSets item with
    | .error e => .error e
    | .ok value => (inferSetsInItems rest).map (value :: ·)

def inferSetsInEntries : List (String × Value) → Except Failure (List (String × Value))
  | [] => .ok []
  | (key, item) :: rest =>
    match inferSets item with
    | .error e => .error e
    | .ok value => (inferSetsInEntries rest).map ((key, value) :: ·)

end

mutual

/-- The value of a plain document: its numbers become texts, its arrays lists and its objects
maps. -/
def ofDocument : Json → Except TypingError Value
  | .null => .ok null
  | .bool b => .ok (bool b)
  | .int n => .ok (number (toString n))
  | .binary x =>
    match x with
    | .finite .. => .ok (number x.text)
    | _ => .error (.notFinite x.text)
  | .decimal d =>
    match d with
    | .finite .. => .ok (number d.toScientific)
    | _ => .error (.notFinite d.toScientific)
  | .string text => .ok (string text)
  | .array items => (ofDocuments items).map list
  | .object members => (ofMembers members).map map

def ofDocuments : List Json → Except TypingError (List Value)
  | [] => .ok []
  | document :: rest =>
    match ofDocument document with
    | .error e => .error e
    | .ok value => (ofDocuments rest).map (value :: ·)

def ofMembers : List (String × Json) → Except TypingError (List (String × Value))
  | [] => .ok []
  | (key, document) :: rest =>
    match ofDocument document with
    | .error e => .error e
    | .ok value => (ofMembers rest).map ((key, value) :: ·)

end

/-- The value of a plain document, with or without the convention that lists may be sets. -/
def ofJson (inferring : Bool) (document : Json) : Except Failure Value :=
  match ofDocument document with
  | .error e => refuse e
  | .ok value => if inferring then inferSets value else .ok value

end AttributeExpr.Value
