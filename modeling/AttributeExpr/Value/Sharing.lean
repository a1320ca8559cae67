import AttributeExpr.Value.Equality
/-!
When two values may share one placeholder. They have to be equal, and maps in them have to list the
same entries: of two equal maps, one may hold under a repeated key a value that does not count, and
then the two are kept apart unless the values that do not count are at least spelled alike.
-/
namespace AttributeExpr.Value

/-- Whether two values compare as equal. -/
def isEqual (a b : Value) : Bool :=
  match equal a b with
  | .ok outcome => outcome
  | .error _ => false

mutual

/-- Fails if a number of a set anywhere in a value cannot be compared. -/
def checkComparable : Value → Except Failure Unit
  | list items => checkComparableItems items
  | map entries => checkComparableEntries entries
  | numberSet elements => (elements.mapM comparable).map fun _ => ()
  | _ => .ok ()

def checkComparableItems : List Value → Except Failure Unit
  | [] => .ok ()
  | item :: rest =>
    match checkComparable item with
    | .error e => .error e
    | .ok () => checkComparableItems rest

def checkComparableEntries : List (String × Value) → Except Failure Unit
  | [] => .ok ()
  | (_, value) :: rest =>
    match checkComparable value with
    | .error e => .error e
    | .ok () => checkComparableEntries rest

end

/-- The bytes that a scalar spells, whatever its kind is. -/
def spelling? : Value → Option Bytes
  | number text | string text => some text.toUTF8.toList
  | binary bytes => some bytes
  | bool false => some []
  | _ => none

/-- The number of entries of a map that do not equal an earlier one or one of `seen`. -/
def countDistinct (seen : List (String × Value)) : List (String × Value) → Nat
  | [] => 0
  | (key, value) :: rest =>
    if seen.any fun (k, v) => k = key && isEqual v value then countDistinct seen rest
    else countDistinct ((key, value) :: seen) rest + 1

mutual

/-- Whether two values are spelled alike: scalars have the same bytes, and collections the same
parts. -/
def sameSpelling : Value → Value → Bool
  | null, null => true
  | bool true, bool true => true
  | list a, list b => sameSpellingOfItems a b
  | map a, map b =>
    countDistinct [] a = countDistinct [] b && entriesWithin a b &&
      b.all fun entry => hasEntry a entry.1 entry.2
  | numberSet a, numberSet b => isEqual (numberSet a) (numberSet b)
  | stringSet a, stringSet b => isEqual (stringSet a) (stringSet b)
  | binarySet a, binarySet b => isEqual (binarySet a) (binarySet b)
  | a, b =>
    match a.spelling?, b.spelling? with
    | some x, some y => x = y
    | _, _ => false

def sameSpellingOfItems : List Value → List Value → Bool
  | [], [] => true
  | a :: as, b :: bs => sameSpelling a b && sameSpellingOfItems as bs
  | _, _ => false

/-- Whether each entry of one list is spelled like one of another. -/
def entriesWithin : List (String × Value) → List (String × Value) → Bool
  | [], _ => true
  | (key, value) :: rest, entries =>
    entries.any (fun (k, v) => k = key && sameSpelling value v) && entriesWithin rest entries

/-- Whether a list has an entry with the given key and a value that is spelled alike. -/
def hasEntry : List (String × Value) → String → Value → Bool
  | [], _, _ => false
  | (k, v) :: rest, key, value => (k = key && sameSpelling v value) || hasEntry rest key value

end

/-- Whether a placeholder of one value may stand for the other. -/
def shares (a b : Value) : Bool := isEqual a b && sameSpelling a b

end AttributeExpr.Value
