/-!
Finite maps with string keys that remember the order in which their keys were first given. A key
given again keeps its place and takes the new value.
-/
namespace AttributeExpr

abbrev Dictionary (α : Type) := List (String × α)

namespace Dictionary

variable {α : Type}

def get? (d : Dictionary α) (key : String) : Option α := d.lookup key

def insert : Dictionary α → String → α → Dictionary α
  | [], key, value => [(key, value)]
  | (k, v) :: rest, key, value =>
    if k = key then (k, value) :: rest else (k, v) :: insert rest key value

def ofEntries (entries : List (String × α)) : Dictionary α :=
  entries.foldl (fun d (key, value) => insert d key value) []

end Dictionary

end AttributeExpr
