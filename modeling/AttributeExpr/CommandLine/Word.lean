import AttributeExpr.Text.Character
/-!
What a single argument of a command line is: an option, a plain text or a double dash. An option has
a long name, which may be shortened as long as it stays unique, and perhaps a short one; its value
may be attached to it. Arguments that look like negative numbers or hold spaces are not options, and
after a double dash nothing is.
-/
namespace AttributeExpr.CommandLine

/-- Why a command line does not lead to a run. -/
inductive Stop
  | help | usage
deriving DecidableEq, Repr

inductive OptionKind
  | help
  | flag
  /-- An option with a value that has to pass a check. -/
  | value (accepts : String → Bool)

structure OptionSpec where
  long : String
  short : Option String
  kind : OptionKind

def OptionSpec.names (spec : OptionSpec) : List String := spec.short.toList ++ [spec.long]

/-- What is written together with the name of an option: after an equals sign or, if the name is a
single letter, right behind it. -/
structure Attachment where
  toLetter : Bool
  text : List Char

/-- An argument, as far as it can be told without those before it. -/
inductive Word
  /-- The first double dash. -/
  | separator
  | plain (text : String)
  | option (spec : OptionSpec) (attached : Option Attachment)
  | unknown

def named? (specs : List OptionSpec) (name : String) : Option OptionSpec :=
  specs.find? fun spec => spec.names.contains name

/-- A name and what an equals sign attaches to it. -/
def splitEquals (text : List Char) : List Char × Option Attachment :=
  let name := text.takeWhile (· ≠ '=')
  match text.dropWhile (· ≠ '=') with
  | [] => (text, none)
  | _ :: value => (name, some ⟨name[1]? ≠ some '-', value⟩)

/-- The options that a text may mean when names can be shortened and values attached. -/
def candidates (specs : List OptionSpec) (text : List Char) : List Word :=
  match text with
  | '-' :: '-' :: _ =>
    let (name, attached) := splitEquals text
    (specs.filter fun spec => name.isPrefixOf spec.long.toList).map (.option · attached)
  | '-' :: letter :: value =>
    (specs.filter fun spec => spec.short = some (String.ofList ['-', letter])).map
      (.option · (some ⟨true, value⟩))
  | _ => []

/-- Whether a text is a dash and a number, with or without a point. -/
def isNegativeNumber (text : List Char) : Bool :=
  let isDigit (c : Char) : Bool := (decimalDigit? c).isSome
  let number := if text.getLast? = some '\n' then text.dropLast else text
  match number with
  | '-' :: digits =>
    match digits.dropWhile isDigit with
    | [] => !digits.isEmpty
    | '.' :: fraction => !fraction.isEmpty && fraction.all isDigit
    | _ => false
  | _ => false

/-- What a single argument is. -/
def classify (specs : List OptionSpec) (argument : String) : Except Stop Word :=
  let text := argument.toList
  if text.head? ≠ some '-' then .ok (.plain argument)
  else match named? specs argument with
    | some spec => .ok (.option spec none)
    | none =>
      if text.length = 1 then .ok (.plain argument)
      else
        let (name, attached) := splitEquals text
        match named? specs (String.ofList name), candidates specs text with
        | some spec, _ => .ok (.option spec attached)
        | none, [word] => .ok word
        | none, _ :: _ :: _ => .error .usage
        | none, [] =>
          if isNegativeNumber text || text.contains ' ' then .ok (.plain argument)
          else .ok .unknown

/-- What the arguments are, up to a double dash and after it. -/
def classifyAll (specs : List OptionSpec) : List String → Except Stop (List Word)
  | [] => .ok []
  | argument :: rest =>
    if argument = "--" then .ok (.separator :: rest.map .plain)
    else
      match classify specs argument with
      | .error stop => .error stop
      | .ok word => (classifyAll specs rest).map (word :: ·)

end AttributeExpr.CommandLine
