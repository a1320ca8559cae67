/-!
Numerals: digits, an optional fraction that may be empty, and an optional exponent. A sign stands
before the numeral. Only ASCII digits count.
-/
namespace AttributeExpr.Numeral

def isDigit (c : Char) : Bool := '0' ≤ c && c ≤ '9'

/-- The greatest number of digits that are converted to an integer. -/
def maxDigits : Nat := 4300

def isSign (c : Char) : Bool := c = '+' || c = '-'

/-- Splits off a point and the digits after it, if there are any. -/
def splitFraction (text : List Char) : List Char × List Char :=
  match text with
  | '.' :: rest => ('.' :: rest.takeWhile isDigit, rest.dropWhile isDigit)
  | _ => ([], text)

/-- Splits off an exponent. A letter that no digits follow belongs to the rest. -/
def splitExponent (text : List Char) : List Char × List Char :=
  match text with
  | letter :: rest =>
    if letter = 'e' || letter = 'E' then
      let sign := (rest.take 1).filter isSign
      let digits := (rest.drop sign.length).takeWhile isDigit
      if digits.isEmpty then ([], text)
      else (letter :: sign ++ digits, (rest.drop sign.length).dropWhile isDigit)
    else ([], text)
  | [] => ([], [])

/-- The longest unsigned numeral at the start of a text, and what follows it. -/
def split? (text : List Char) : Option (List Char × List Char) :=
  let digits := text.takeWhile isDigit
  if digits.isEmpty then none
  else
    let (fraction, rest) := splitFraction (text.dropWhile isDigit)
    let (exponent, rest) := splitExponent rest
    some (digits ++ fraction ++ exponent, rest)

theorem length_splitFraction (text : List Char) :
    (splitFraction text).2.length ≤ text.length := by
  unfold splitFraction
  split
  · rename_i rest
    have := (List.dropWhile_sublist isDigit (l := rest)).length_le
    simp; omega
  · simp

theorem length_splitExponent (text : List Char) :
    (splitExponent text).2.length ≤ text.length := by
  unfold splitExponent
  split
  · rename_i letter rest
    split
    · dsimp only
      split
      · simp
      · have := (List.dropWhile_sublist isDigit
          (l := rest.drop ((rest.take 1).filter isSign).length)).length_le
        simp only [List.length_drop] at this
        simp only [List.length_cons]
        omega
    · simp
  · simp

theorem split?_length {text numeral rest : List Char}
    (h : split? text = some (numeral, rest)) : rest.length < text.length := by
  unfold split? at h
  dsimp only at h
  split at h
  · simp at h
  · rename_i hd
    simp only [Option.some.injEq, Prod.mk.injEq] at h
    obtain ⟨_, rfl⟩ := h
    have h1 := length_splitExponent (splitFraction (text.dropWhile isDigit)).2
    have h2 := length_splitFraction (text.dropWhile isDigit)
    have h3 : (text.takeWhile isDigit).length + (text.dropWhile isDigit).length = text.length := by
      rw [← List.length_append, List.takeWhile_append_dropWhile]
    have h4 : 0 < (text.takeWhile isDigit).length := by
      simpa [List.length_pos_iff] using hd
    omega

/-- Whether the whole text is an unsigned numeral. -/
def isUnsigned (text : List Char) : Bool :=
  match split? text with
  | some (_, []) => true
  | _ => false

/-- Reads a text that is a numeral with an optional sign; a plus sign is dropped. -/
def read? (text : List Char) : Option (List Char) :=
  match text with
  | '+' :: numeral => if isUnsigned numeral then some numeral else none
  | '-' :: numeral => if isUnsigned numeral then some text else none
  | numeral => if isUnsigned numeral then some numeral else none

end AttributeExpr.Numeral
