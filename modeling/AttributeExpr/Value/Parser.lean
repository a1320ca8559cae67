import AttributeExpr.Token.Reading
import AttributeExpr.Value.Inference
import AttributeExpr.Value.Set
/-!
Reading literals: null, booleans, numbers, strings, binaries, and lists, maps and sets of literals.
Parts are separated by single commas. Keywords and names may be keys of a map. A set has to be one
that its elements can form, and the keys of a map have to differ.
-/
namespace AttributeExpr

namespace Value

/-- The key that a symbol stands for before a colon. -/
def keyText? : Symbol → Option String
  | .string text | .name text | .keyword _ text => some text
  | _ => none

/-- The literal that a single symbol stands for. -/
def ofSymbol? : Symbol → Option Value
  | .keyword .null _ => some null
  | .keyword .true _ => some (bool true)
  | .keyword .false _ => some (bool false)
  | .number text => some (number text)
  | .string text => some (string text)
  | .binary bytes => some (binary bytes)
  | _ => none

/-- The map of the given entries, whose opening brace is at `position`. -/
def mapOf (position : Nat) (entries : List (String × Value)) : Except Failure Value :=
  match firstRepeat? [] (entries.map (·.1)) with
  | some key => refuse (SemanticError.duplicateKey key position)
  | none => .ok (map entries)

/-- Builds a value after a look at the next token. -/
def build (s : Surroundings) (value : Except Failure Value) (rest : List Token) : Reading Value :=
  match Reading.lookAhead s.fault s.afterLiteral rest with
  | .error e => .error e
  | .ok () => value.map (·, rest)

mutual

/-- Reads one literal. The steps into its parts are bounded by `fuel`. -/
def readLiteral (s : Surroundings) (fuel : Nat) (tokens : List Token) : Reading Value :=
  match fuel, tokens with
  | 0, _ | _, [] => Reading.fail s.fault tokens
  | fuel + 1, token :: rest =>
    match token.symbol with
    | .mark (.opening .square) =>
      match rest with
      | ⟨.mark (.closing .square), _, _⟩ :: rest => .ok (list [], rest)
      | _ => (readItems s .square fuel rest).map fun (items, rest) => (list items, rest)
    | .mark (.opening .brace) =>
      match rest with
      | ⟨.mark (.closing .brace), _, _⟩ :: rest => .ok (map [], rest)
      | _ =>
        match readEntries s fuel rest with
        | .error e => .error e
        | .ok (entries, rest) => build s (mapOf token.position entries) rest
    | .mark (.opening .set) =>
      match rest with
      | ⟨.mark (.closing .set), _, _⟩ :: rest => build s (setOf []) rest
      | _ =>
        match readItems s .set fuel rest with
        | .error e => .error e
        | .ok (items, rest) => build s (setOf items) rest
    | symbol =>
      match ofSymbol? symbol with
      | some value => .ok (value, rest)
      | none => Reading.fail s.fault (token :: rest)

/-- Reads literals separated by commas, up to and with the closing delimiter. -/
def readItems (s : Surroundings) (bracket : Bracket) (fuel : Nat) (tokens : List Token) :
    Reading (List Value) :=
  match fuel with
  | 0 => Reading.fail s.fault tokens
  | fuel + 1 =>
    match readLiteral s fuel tokens with
    | .error e => .error e
    | .ok (item, ⟨.mark .comma, _, _⟩ :: rest) =>
      (readItems s bracket fuel rest).map fun (items, rest) => (item :: items, rest)
    | .ok (item, rest) => (Reading.expect s.fault (.closing bracket) rest).map ([item], ·)

/-- Reads the entries of a map, up to and with the closing brace. -/
def readEntries (s : Surroundings) (fuel : Nat) (tokens : List Token) :
    Reading (List (String × Value)) :=
  match fuel, tokens with
  | 0, _ | _, [] => Reading.fail s.fault tokens
  | fuel + 1, token :: rest =>
    match keyText? token.symbol with
    | none => Reading.fail s.fault (token :: rest)
    | some key =>
      match Reading.expect s.fault .colon rest with
      | .error e => .error e
      | .ok rest =>
        match readLiteral s fuel rest with
        | .error e => .error e
        | .ok (value, ⟨.mark .comma, _, _⟩ :: rest) =>
          (readEntries s fuel rest).map fun (entries, rest) => ((key, value) :: entries, rest)
        | .ok (value, rest) =>
          (Reading.expect s.fault (.closing .brace) rest).map ([(key, value)], ·)

end

/-- Enough fuel for all steps into the parts of a literal. -/
def fuelFor (tokens : List Token) : Nat := 2 * tokens.length + 1

/-- Reads one literal at the front of some tokens. -/
def read (s : Surroundings) (tokens : List Token) : Reading Value :=
  readLiteral s (fuelFor tokens) tokens

/-- The symbols that may stand after a literal where literals are all there is. -/
def mayFollowLiteral : Symbol → Bool
  | .mark .comma | .mark (.closing .square) | .mark (.closing .brace)
  | .mark (.closing .set) => true
  | _ => false

/-- The value that the tokens of a text spell. -/
def ofScan (scan : Scan) : Except Failure Value :=
  Reading.complete scan.fault (read ⟨scan.fault, mayFollowLiteral, fun _ => false⟩ scan.tokens)

/-- The value that a text spells. -/
def parse (text : String) : Except Failure Value := ofScan (scanNested text)

/-- The value that a text spells, with or without the convention that lists may be sets. -/
def parseWith (inferring : Bool) (text : String) : Except Failure Value := do
  let value ← parse text
  if inferring then inferSets value else return value

/-- The entries of a text that spells a map. -/
def parseItem (inferring : Bool) (text : String) : Except Failure (List (String × Value)) := do
  match ← parseWith inferring text with
  | map entries => return entries
  | value => refuse (TypingError.itemType value.type)

end Value

end AttributeExpr
