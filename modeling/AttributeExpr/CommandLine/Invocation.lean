import AttributeExpr.CommandLine.Options
import AttributeExpr.Key.Basic
/-!
The three commands and their arguments. Each needs the definition of the table's keys and a
partition value; those that address an item take a sort value as well.
-/
namespace AttributeExpr.CommandLine

/-- A table's keys and the texts of key values. -/
structure Target where
  schema : KeySchema
  partitionText : String
  sortText : Option String

inductive Command
  | item (target : Target) (body : Option String) (inferSets : Bool)
  | update (target : Target) (setText removeText counter : Option String)
  | query (target : Target) (condition : Option String) (strict lenient : Bool)
      (attributes : Option String) (keysOnly : Bool)

/-- A command with the configuration file that it names. -/
structure Invocation where
  configFile : Option String
  command : Command

private def anyText : String → Bool := fun _ => true

private def option (long : String) (short : Option String) (kind : OptionKind) : OptionSpec :=
  ⟨long, short, kind⟩

private def helpOption : OptionSpec := option "--help" (some "-h") .help

private def schemaOption : OptionSpec :=
  option "--schema" none (.value fun text => (KeySchema.parse text).toBool)

def generalOptions : List OptionSpec :=
  [helpOption, option "--verbose" (some "-v") .flag, option "--config" none (.value anyText)]

def itemOptions : List OptionSpec :=
  [helpOption, schemaOption, option "--item" (some "-i") (.value anyText),
    option "--infer-sets" none .flag]

def updateOptions : List OptionSpec :=
  [helpOption, schemaOption, option "--set" none (.value anyText),
    option "--remove" none (.value anyText), option "--atomic-counter" none (.value anyText)]

def queryOptions : List OptionSpec :=
  [helpOption, schemaOption, option "--sort-key" (some "-s") (.value anyText),
    option "--strict" none .flag, option "--non-strict" none .flag,
    option "--attributes" none (.value anyText), option "--keys-only" none .flag]

/-- The key definition and the key values among the arguments of a command. -/
def Found.target (found : Found) : Except Stop Target :=
  match found.positionals, (found.value? "--schema").map KeySchema.parse with
  | some (partitionText, sortText), some (.ok schema) => .ok ⟨schema, partitionText, sortText⟩
  | _, _ => .error .usage

/-- Reads the arguments of a command, and tells whether there was one without use. -/
def readCommand (name : String) (arguments : List String) : Except Stop (Command × Bool) := do
  match name with
  | "item" =>
    let found ← read itemOptions true arguments
    return (.item (← found.target) (found.value? "--item") (found.has "--infer-sets"),
      found.leftover)
  | "update" =>
    let found ← read updateOptions true arguments
    return (.update (← found.target) (found.value? "--set") (found.value? "--remove")
      (found.value? "--atomic-counter"), found.leftover)
  | "query" =>
    let found ← read queryOptions false arguments
    return (.query (← found.target) (found.value? "--sort-key") (found.has "--strict")
      (found.has "--non-strict") (found.value? "--attributes") (found.has "--keys-only"),
      found.leftover)
  | _ => throw .usage

/-- Reads a whole command line. -/
def Invocation.parse (arguments : List String) : Except Stop Invocation := do
  let (found, rest) ← readToCommand generalOptions arguments
  match rest with
  | [] => throw .usage
  | name :: rest =>
    let (command, leftover) ← readCommand name rest
    if found.leftover || leftover then throw .usage
    return ⟨found.value? "--config", command⟩

end AttributeExpr.CommandLine
