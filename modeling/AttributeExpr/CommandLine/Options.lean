import AttributeExpr.CommandLine.Word
/-!
Options with their values and positional arguments. Arguments are read from the left, so a call for
help counts only before the first mistake.
-/
namespace AttributeExpr.CommandLine

/-- What has been read: options by their long names in order, and whether there was an argument
for which there is no use. -/
structure Found where
  options : List (String × String)
  positionals : Option (String × Option String)
  leftover : Bool

namespace Found

def none : Found := ⟨[], .none, false⟩

/-- The last value given for an option. -/
def value? (found : Found) (long : String) : Option String :=
  (found.options.reverse.find? (·.1 == long)).map (·.2)

def has (found : Found) (long : String) : Bool := (found.value? long).isSome

def add (found : Found) (spec : OptionSpec) (value : String) : Found :=
  { found with options := found.options ++ [(spec.long, value)] }

end Found

/-- An option that still needs its value, and whether help was called for along with it. -/
structure Pending where
  spec : OptionSpec
  helped : Bool

/-- Takes a value that is attached to an option. -/
def takeAttached (helped : Bool) (found : Found) (spec : OptionSpec)
    (accepts : String → Bool) (text : List Char) : Except Stop (Found × Option Pending) :=
  if helped then .error .help
  else if accepts (String.ofList text) then .ok (found.add spec (String.ofList text), none)
  else .error .usage

/-- Takes an option with the letters that follow it. Flags of one letter may be joined to a run, and
the first option with a value takes the rest of the run; every other letter has to be an option. A
call for help among them counts once the run has been read. An option that still needs its value is
returned. -/
def takeRun (specs : List OptionSpec) (helped : Bool) (found : Found) (spec : OptionSpec) :
    List Char → Except Stop (Found × Option Pending)
  | [] =>
    match spec.kind with
    | .value _ => .ok (found, some ⟨spec, helped⟩)
    | kind =>
      if helped || kind matches .help then .error .help else .ok (found.add spec "", none)
  | letter :: rest =>
    match spec.kind, named? specs (String.ofList ['-', letter]) with
    | .value accepts, _ => takeAttached helped found spec accepts (letter :: rest)
    | _, none => .error .usage
    | kind, some next =>
      takeRun specs (helped || kind matches .help) (found.add spec "") next rest

/-- Takes an option with what is attached to it. -/
def takeOption (specs : List OptionSpec) (found : Found) (spec : OptionSpec)
    (attached : Option Attachment) : Except Stop (Found × Option Pending) :=
  match attached, spec.kind with
  | none, _ => takeRun specs false found spec []
  | some attachment, .value accepts => takeAttached false found spec accepts attachment.text
  | some attachment, _ =>
    if attachment.toLetter && !attachment.text.isEmpty then
      takeRun specs false found spec attachment.text
    else .error .usage

/-- Takes the value of an option from the next argument. -/
def takeValue (found : Found) (pending : Pending) (words : List Word) :
    Except Stop (Found × List Word) :=
  match words, pending.spec.kind with
  | .plain value :: rest, .value accepts =>
    if pending.helped then .error .help
    else if accepts value then .ok (found.add pending.spec value, rest)
    else .error .usage
  | _, _ => .error .usage

/-- The texts of the arguments before the next option. -/
def plainRun : List Word → List String
  | .plain text :: rest => text :: plainRun rest
  | .separator :: rest => "--" :: plainRun rest
  | _ => []

/-- The number of double dashes at the start. -/
def separators (words : List Word) : Nat := (words.takeWhile (· matches .separator)).length

/-- The number of arguments that one positional takes, with the double dashes around it. -/
def positionalLength? (words : List Word) : Option Nat :=
  let before := separators words
  match words.drop before with
  | .plain _ :: rest => some (before + 1 + separators rest)
  | _ => none

/-- The text that a positional means: the double dash around it does not count. -/
def positionalText? (words : List Word) : Option String := ((plainRun words).erase "--").head?

/-- Takes the positional arguments where a run of arguments without option starts: one that is
needed and, if there may be a second and it follows at once, that one. -/
def takePositionals (second : Bool) (words : List Word) :
    Option ((String × Option String) × List Word) := do
  let count ← positionalLength? words
  let first ← positionalText? (words.take count)
  let rest := words.drop count
  if second then
    let count := (positionalLength? rest).getD (separators rest)
    return ((first, positionalText? (rest.take count)), rest.drop count)
  else return ((first, none), rest)

/-- Reads the arguments after a command. -/
def walk (specs : List OptionSpec) (second : Bool) (fuel : Nat) (found : Found)
    (words : List Word) : Except Stop Found :=
  match fuel, words with
  | 0, _ | _, [] => .ok found
  | fuel + 1, .unknown :: rest => walk specs second fuel { found with leftover := true } rest
  | fuel + 1, .option spec attached :: rest => do
    match ← takeOption specs found spec attached with
    | (found, none) => walk specs second fuel found rest
    | (found, some pending) =>
      let (found, rest) ← takeValue found pending rest
      walk specs second fuel found rest
  | fuel + 1, word :: rest =>
    match found.positionals, takePositionals second (word :: rest) with
    | none, some (positionals, rest) =>
      walk specs second fuel { found with positionals := some positionals } rest
    | _, _ => walk specs second fuel { found with leftover := true } rest

/-- Reads all arguments after a command. -/
def read (specs : List OptionSpec) (second : Bool) (arguments : List String) :
    Except Stop Found := do
  let words ← classifyAll specs arguments
  walk specs second (words.length + 1) Found.none words

/-- Reads options up to the first argument that is none, which is the command, and returns it with
the arguments after it. -/
def walkToCommand (specs : List OptionSpec) (fuel : Nat) (found : Found) (words : List Word)
    (arguments : List String) : Except Stop (Found × List String) :=
  match fuel, words with
  | fuel + 1, .unknown :: rest =>
    walkToCommand specs fuel { found with leftover := true } rest (arguments.drop 1)
  | fuel + 1, .option spec attached :: rest => do
    match ← takeOption specs found spec attached with
    | (found, none) => walkToCommand specs fuel found rest (arguments.drop 1)
    | (found, some pending) =>
      let (found, rest) ← takeValue found pending rest
      walkToCommand specs fuel found rest (arguments.drop 2)
  | _, .plain _ :: _ => .ok (found, arguments)
  | _, _ => .error .usage

/-- Reads the options before a command. -/
def readToCommand (specs : List OptionSpec) (arguments : List String) :
    Except Stop (Found × List String) := do
  let words ← classifyAll specs arguments
  walkToCommand specs (words.length + 1) Found.none words arguments

end AttributeExpr.CommandLine
