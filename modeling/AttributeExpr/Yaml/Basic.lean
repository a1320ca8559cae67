import AttributeExpr.Json.Basic
import AttributeExpr.Yaml.Timestamp
/-!
The values of YAML documents: scalars of many kinds, sequences, mappings whose keys may be any
scalars, and the less common collections. A collection may contain itself.
-/
namespace AttributeExpr

inductive Yaml
  | null
  | bool (value : Bool)
  | int (value : Int)
  | float (value : Binary64)
  | binary (value : Bytes)
  | timestamp (value : Timestamp)
  | string (value : CodePoints)
  | sequence (items : List Yaml)
  | pairs (entries : List (Yaml × Yaml))
  | set (elements : List Yaml)
  | mapping (entries : List (Yaml × Yaml))
  /-- A list inside itself. -/
  | sameList
  /-- A mapping inside itself. -/
  | sameMapping

namespace Yaml

mutual

/-- How a message shows a value. -/
def display : Yaml → String
  | null => Display.null
  | bool b => Display.bool b
  | int n => toString n
  | float x => x.text
  | binary bytes => Display.bytes bytes
  | timestamp time => time.display
  | string s => Display.codePoints s
  | sequence items => Display.list (displayItems items)
  | pairs entries =>
    Display.list
      ((displayEntries entries).map fun (key, value) => "(" ++ key ++ ", " ++ value ++ ")")
  | set [] => "set()"
  | set elements => "\x7b" ++ ", ".intercalate (displayItems elements) ++ "\x7d"
  | mapping entries => Display.map (displayEntries entries)
  | sameList => "[...]"
  | sameMapping => "\x7b...\x7d"

def displayItems : List Yaml → List String
  | [] => []
  | item :: rest => display item :: displayItems rest

def displayEntries : List (Yaml × Yaml) → List (String × String)
  | [] => []
  | (key, value) :: rest => (display key, display value) :: displayEntries rest

end

mutual

/-- Whether a value holds an integer with too many digits to be shown. -/
def holdsLongInt : Yaml → Bool
  | int n => Numeral.maxDigits < (Nat.repr n.natAbs).length
  | sequence items | set items => itemsHoldLongInt items
  | pairs entries | mapping entries => entriesHoldLongInt entries
  | _ => false

def itemsHoldLongInt : List Yaml → Bool
  | [] => false
  | item :: rest => holdsLongInt item || itemsHoldLongInt rest

def entriesHoldLongInt : List (Yaml × Yaml) → Bool
  | [] => false
  | (key, value) :: rest => holdsLongInt key || holdsLongInt value || entriesHoldLongInt rest

end

/-- Whether a value counts as true: not null, zero or empty. -/
def isTruthy : Yaml → Bool
  | null => false
  | bool b => b
  | int n => n ≠ 0
  | float (.finite _ mantissa _) => mantissa ≠ 0
  | float _ | timestamp _ | sameList | sameMapping => true
  | binary bytes => !bytes.isEmpty
  | string s => !s.isEmpty
  | sequence items | set items => !items.isEmpty
  | pairs entries | mapping entries => !entries.isEmpty

/-- A finite number as a numerator and a power of two that divides it. -/
def fraction? : Yaml → Option (Int × Nat)
  | bool b => some (if b then 1 else 0, 0)
  | int n => some (n, 0)
  | float (.finite negative mantissa exponent) =>
    let n : Int := mantissa * Nat.pow 2 exponent.toNat
    some (if negative then -n else n, (-exponent).toNat)
  | _ => none

/-- Whether two scalars are the same key of a mapping. Numbers of all kinds are compared by value,
booleans counting as zero and one. -/
def sameKey (a b : Yaml) : Bool :=
  match a.fraction?, b.fraction? with
  | some (m, d), some (n, e) => m * Nat.pow 2 e = n * Nat.pow 2 d
  | none, none =>
    match a, b with
    | null, null => true
    | float x, float y => x = y
    | binary x, binary y => x = y
    | timestamp x, timestamp y => x.same y
    | string x, string y => x = y
    | _, _ => false
  | _, _ => false

/-- Adds an entry to a mapping. A key given again keeps its place and takes the new value. -/
def insertEntry : List (Yaml × Yaml) → Yaml → Yaml → List (Yaml × Yaml)
  | [], key, value => [(key, value)]
  | (k, v) :: rest, key, value =>
    if sameKey k key then (k, value) :: rest else (k, v) :: insertEntry rest key value

/-- The entries of a mapping that is given key by key. -/
def mappingEntries (entries : List (Yaml × Yaml)) : List (Yaml × Yaml) :=
  entries.foldl (fun m (key, value) => insertEntry m key value) []

/-- The elements of a set in the order in which they are shown: integers increase, and all else is
as it was given. -/
def setElements (elements : List Yaml) : List Yaml :=
  let isInt : Yaml → Bool
    | int _ | bool _ => true
    | _ => false
  if elements.all isInt then
    elements.mergeSort fun a b => (a.fraction?.map (·.1)).getD 0 ≤ (b.fraction?.map (·.1)).getD 0
  else elements

/-- The value under a key that is a string. -/
def lookup? (entries : List (Yaml × Yaml)) (key : String) : Option Yaml :=
  (entries.find? fun (k, _) => sameKey k (string (CodePoints.ofChars key.toList))).map (·.2)

mutual

/-- Every JSON document is a value of YAML. -/
def ofJson : Json → Yaml
  | .null => null
  | .bool b => bool b
  | .int n => int n
  | .binary x => float x
  | .decimal d => string (CodePoints.ofChars d.toScientific.toList)
  | .string s => string (CodePoints.ofChars s.toList)
  | .array items => sequence (ofJsonItems items)
  | .object members => mapping (ofJsonMembers members)

def ofJsonItems : List Json → List Yaml
  | [] => []
  | item :: rest => ofJson item :: ofJsonItems rest

def ofJsonMembers : List (String × Json) → List (Yaml × Yaml)
  | [] => []
  | (key, value) :: rest =>
    (string (CodePoints.ofChars key.toList), ofJson value) :: ofJsonMembers rest

end

end Yaml

end AttributeExpr
