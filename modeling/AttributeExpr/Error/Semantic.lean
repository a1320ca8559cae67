import AttributeExpr.Error.Syntax
/-!
Errors of meaning: keys, paths and clauses that contradict each other or the definition of a table.
-/
namespace AttributeExpr

/-- The two kinds of update clause. -/
inductive Clause
  | set | remove
deriving DecidableEq, Repr

def Clause.keyword : Clause → String
  | set => "SET"
  | remove => "REMOVE"

/-- Well-formed input from which no valid request can be made. -/
inductive SemanticError
  | duplicateKey (key : String) (position : Nat)
  | keyType (text : String)
  | emptyKeyName
  | keySchema (text : String)
  | beginsWithNumberKey (key : String)
  | emptyPath
  | pathWithoutName
  | emptyName (path : String)
  | noActions (clause : Clause)
  | mixedActions (clause other : Clause)
  | keyAttribute (clause : Clause) (path name : String)
  | noSortKey (partitionKey : String)
  | missingSortValue (sortKey : String)
  | keyConflict (name : String)
  | conditionWithoutSortKey (partitionKey : String)
  | oneClause
  | counterWithClause
deriving DecidableEq, Repr

namespace SemanticError

def message : SemanticError → String
  | duplicateKey key p => "Duplicate key " ++ quoted key ++ " in map" ++ atPosition p
  | keyType text => "Not a valid DynamoDB primary key type: " ++ text
  | emptyKeyName => "Key attribute name must not be empty"
  | keySchema text =>
    "Key schema must name a partition key and an optional sort key, got " ++ quoted text
  | beginsWithNumberKey key =>
    "begins_with cannot be used with sort key " ++ key ++
      "; it requires a string or binary sort key"
  | emptyPath => "Attribute path must not be empty"
  | pathWithoutName => "Attribute path must start with an attribute name"
  | emptyName path => "Attribute name must not be empty in path " ++ quoted path
  | noActions clause => "No " ++ clause.keyword ++ " actions to compile"
  | mixedActions clause other =>
    "Cannot mix " ++ clause.keyword ++ " and " ++ other.keyword ++ " actions in one update"
  | keyAttribute clause path name =>
    "Cannot " ++ clause.keyword ++ " " ++ quoted path ++ ": " ++ quoted name ++
      " is part of the primary key"
  | noSortKey key =>
    "Partition and sort keys are given to identify an item, but the table uses partition key " ++
      key ++ " only"
  | missingSortValue key => "Sort key " ++ key ++ " is required to identify an item"
  | keyConflict name => "Item body sets key attribute " ++ quoted name ++ " to a different value"
  | conditionWithoutSortKey key =>
    "A sort key condition was given, but the table has no sort key (partition key " ++ key ++ ")"
  | oneClause => "One of --set or --remove is required. Passing both options is invalid."
  | counterWithClause => "--atomic-counter option cannot be used with --set or --remove."

def position? : SemanticError → Option Nat
  | duplicateKey _ p => some p
  | _ => none

end SemanticError

end AttributeExpr
