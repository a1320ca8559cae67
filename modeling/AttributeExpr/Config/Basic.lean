import AttributeExpr.Error.Failure
import AttributeExpr.Yaml.Assembly
import AttributeExpr.Yaml.Survey
/-!
The configuration: whether queries fit their sort key conditions strictly. It comes from a YAML
file in which all other settings are ignored.
-/
namespace AttributeExpr

structure Config where
  strictMode : Bool
deriving DecidableEq, Repr

/-- What is found at the path of a file. -/
inductive FileContent
  | missing
  | unreadable (reason : String)
  | text (text : String)
deriving DecidableEq, Repr

/-- A configuration file, which need not exist. -/
structure ConfigFile where
  path : String
  content : FileContent
deriving DecidableEq, Repr

namespace Config

def default : Config := ⟨false⟩

/-- The setting of queries, given the value of the settings of queries and the value of this one
among them. -/
def ofSettings (query strictMode : Option Yaml) : Except Failure Config :=
  let query := query.getD .null
  match query.isTruthy, query, strictMode with
  | false, _, _ | true, .mapping _, none => .ok default
  | true, .mapping _, some (.bool b) => .ok ⟨b⟩
  | true, .mapping _, some other =>
    if other.holdsLongInt then .error (.scalar .longInteger)
    else refuse (ConfigError.strictModeType other.display)
  | true, _, _ => refuse ConfigError.queryType

/-- The configuration in the entries of a document. -/
def ofEntries (entries : List (Yaml × Yaml)) : Except Failure Config :=
  let query := Yaml.lookup? entries "query"
  match query with
  | some (.mapping settings) => ofSettings query (Yaml.lookup? settings "strict_mode")
  | _ => ofSettings query none

/-- The configuration in a document of a file. -/
def ofDocument (path : String) (document : Yaml.Survey) : Except Failure Config :=
  let root := document.graph.root
  match document.graph.tag root with
  | .null => .ok default
  | .mapping =>
    let query := document.member? root "query"
    ofSettings (query.map document.value)
      ((query.bind (document.member? · "strict_mode")).map document.value)
  | _ => refuse (ConfigError.notMapping path)

/-- The configuration in the text of a file. -/
def ofText (path text : String) : Except Failure Config :=
  let document : Except Yaml.Fault (Option Yaml.Survey) := do
    (← Yaml.Graph.read text).mapM Yaml.Survey.ofGraph
  match document with
  | .ok none => .ok default
  | .ok (some document) => ofDocument path document
  | .error .malformed => refuse (ConfigError.malformedFile path "not a YAML document")
  | .error (.scalar fault) => .error (.scalar fault)

/-- The configuration in a file. If there is no file, nothing is configured. -/
def ofFile (file : ConfigFile) : Except Failure Config :=
  match file.content with
  | .missing => .ok default
  | .unreadable reason => .error (.unreadableFile file.path reason)
  | .text text => ofText file.path text

/-- Whether queries are strict: either flag wins over the configuration, and the two exclude each
other. -/
def strictness (strict lenient : Bool) (config : Option Config) : Except ConfigError Bool :=
  if strict && lenient then .error .conflictingFlags
  else if strict || lenient then .ok strict
  else .ok (config.any (·.strictMode))

end Config

end AttributeExpr
