import AttributeExpr.Path.Basic
import AttributeExpr.SortCondition.Basic
import AttributeExpr.Text.Character
/-!
A second reading of conditions, in which words without quotes are strings. It looks at words only:
the longest comparison sign that leaves exactly one word, or one of the two keywords in any case
followed by as many words as it needs, or a single word to be equalled.
-/
namespace AttributeExpr.SortCondition

/-- Whether a character is a lower-case letter in any case. The letters `i`, `k` and `s` have
further forms outside ASCII. -/
def isFormOf (letter c : Char) : Bool :=
  c.toLower = letter || (letter = 'i' && (c = '\u0130' || c = '\u0131')) ||
    (letter = 'k' && c = '\u212A') || (letter = 's' && c = '\u017F')

def isFormOfWord : (keyword word : List Char) → Bool
  | [], [] => true
  | letter :: keyword, c :: word => isFormOf letter c && isFormOfWord keyword word
  | _, _ => false

/-- The comparison signs, a longer one before its own beginning. -/
def comparisonSigns : List (String × Comparison) :=
  [("==", .equal), ("=", .equal), ("<=", .lessEqual), ("<", .less), (">=", .greaterEqual),
    (">", .greater)]

def wordValue (word : List Char) : Value := .string (String.ofList word)

/-- The comparison that a sign at the start of a text makes with the only word after it. -/
def compareWith? (sign : String × Comparison) (text : List Char) : Option SortCondition :=
  if sign.1.toList.isPrefixOf text then
    match words (text.drop sign.1.length) with
    | [word] => some (compare sign.2 (wordValue word))
    | _ => none
  else none

/-- The condition that the words of a text make without a comparison sign. -/
def ofWords? : List (List Char) → Option SortCondition
  | [word] => some (compare .equal (wordValue word))
  | [keyword, word] =>
    if isFormOfWord "begins_with".toList keyword then some (beginsWith (wordValue word)) else none
  | [keyword, low, high] =>
    if isFormOfWord "between".toList keyword then some (between (wordValue low) (wordValue high))
    else none
  | [keyword, low, conj, high] =>
    if isFormOfWord "between".toList keyword && isFormOfWord "and".toList conj then
      some (between (wordValue low) (wordValue high))
    else none
  | _ => none

/-- The condition that a text makes when its words are taken as strings. -/
def parseBare? (text : String) : Option SortCondition :=
  let stripped := trimStart text.toList
  match comparisonSigns.findSome? (compareWith? · stripped) with
  | some condition => some condition
  | none => ofWords? (words text.toList)

end AttributeExpr.SortCondition
