import AttributeExpr.Error.Syntax
/-!
What is wrong with a configuration: flags that contradict each other, settings of the wrong type, a
file whose text has not the form of a document, or one of whose scalars stands for no value.
-/
namespace AttributeExpr

/-- Settings that contradict each other or that a configuration file spells wrongly. -/
inductive ConfigError
  | queryType
  | strictModeType (shown : String)
  | conflictingFlags
  | malformedFile (file : String) (reason : String)
  | notMapping (file : String)
deriving DecidableEq, Repr

def ConfigError.message : ConfigError → String
  | queryType => "'query' in configuration must be a mapping"
  | strictModeType shown => "'query.strict_mode' must be true or false, got " ++ shown
  | conflictingFlags => "--strict and --non-strict cannot be used together"
  | malformedFile file reason => "Failed to parse configuration file " ++ file ++ ": " ++ reason
  | notMapping file => "Configuration file " ++ file ++ " must contain a mapping"

/-- What is wrong with a scalar in a well-formed file. -/
inductive ScalarFault
  /-- A text that is to be a number spells none. -/
  | notNumber
  /-- A text that is to be a number is empty. -/
  | emptyNumber
  | notBoolean
  | notTimestamp
  /-- A mapping that is to be a date by its default value. -/
  | nestedTimestamp
  /-- A date or a time of day that does not exist. -/
  | outsideCalendar
  /-- A number to base sixty has more places than binary numbers reach. -/
  | longSexagesimal
  /-- An integer with more digits than are converted. -/
  | longInteger
  /-- An escape names no code point. -/
  | outsideUnicode
  /-- An escape names a number that is not even one of 31 bits. -/
  | outsideCodes
deriving DecidableEq, Repr

def ScalarFault.message : ScalarFault → String
  | notNumber => "A scalar of the configuration is not a number"
  | emptyNumber => "A number in the configuration is empty"
  | notBoolean => "A scalar of the configuration is not a boolean"
  | notTimestamp => "A scalar of the configuration is not a date"
  | nestedTimestamp => "A date in the configuration is not a text"
  | outsideCalendar => "A date in the configuration does not exist"
  | longSexagesimal => "A number in the configuration has too many places to base sixty"
  | longInteger => "An integer in the configuration has too many digits"
  | outsideUnicode => "An escape in the configuration names no code point"
  | outsideCodes => "An escape in the configuration names too large a number"

/-- Why a text is not read as a document. -/
inductive Yaml.Fault
  /-- The text has not the form of a document. -/
  | malformed
  | scalar (fault : ScalarFault)
deriving DecidableEq, Repr

end AttributeExpr
