import AttributeExpr.Value.Set
/-!
Equality of values. Numbers are equal if their texts are, except as elements of sets, where their
values count; the order of map entries and of set elements does not matter. Of a repeated key the
last value counts. Comparison can fail where a set holds a text without numeric value, so its steps
are taken in a fixed order: parts are compared from the left and the first difference decides.
-/
namespace AttributeExpr.Value

/-- Whether all of the outcomes are true; the first one that is not decides. -/
def allTrue : List (Except Failure Bool) → Except Failure Bool
  | [] => .ok true
  | .ok true :: rest => allTrue rest
  | other :: _ => other

/-- Whether two lists have the same members under a relation. -/
def sameMembers {α : Type} (same : α → α → Bool) (a b : List α) : Bool :=
  a.all (fun x => b.any (same x)) && b.all (fun y => a.any (same y))

def equalNumberSets (a b : List String) : Except Failure Bool := do
  let a ← a.mapM comparable
  let b ← b.mapM comparable
  return sameMembers Decimal.sameValue a b

mutual

def equal : Value → Value → Except Failure Bool
  | null, null => .ok true
  | bool a, bool b => .ok (a = b)
  | number a, number b | string a, string b => .ok (a = b)
  | binary a, binary b => .ok (a = b)
  | list a, list b => equalItems a b
  | map a, map b =>
    let b := Dictionary.ofEntries b
    let outcomes := Dictionary.ofEntries (equalEntries a b)
    if outcomes.length = b.length then allTrue (outcomes.map (·.2)) else .ok false
  | numberSet a, numberSet b => equalNumberSets a b
  | stringSet a, stringSet b => .ok (sameMembers (· = ·) a b)
  | binarySet a, binarySet b => .ok (sameMembers (· = ·) a b)
  | _, _ => .ok false

def equalItems : List Value → List Value → Except Failure Bool
  | [], [] => .ok true
  | a :: as, b :: bs =>
    match equal a b with
    | .ok true => equalItems as bs
    | other => other
  | _, _ => .ok false

/-- For each entry of the first map, whether the second has an equal value under the same key. -/
def equalEntries : List (String × Value) → Dictionary Value → List (String × Except Failure Bool)
  | [], _ => []
  | (key, value) :: rest, b =>
    (key, match Dictionary.get? b key with
      | some other => equal value other
      | none => .ok false) :: equalEntries rest b

end

end AttributeExpr.Value
