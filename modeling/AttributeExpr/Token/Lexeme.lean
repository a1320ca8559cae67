import AttributeExpr.Error.Basic
import AttributeExpr.Literal.ByteBody
import AttributeExpr.Literal.Outline
import AttributeExpr.Literal.StringBody
import AttributeExpr.Numeral
import AttributeExpr.Path.Basic
import AttributeExpr.Text.Character
import AttributeExpr.Token.Basic
/-!
Lexemes: the stretches of text that make up one token each. Reading a lexeme looks only at the
outline of a literal, its quotes and backslashes; decoding its inside is a step of its own, which
may refuse it. Every lexeme takes at least one character.
-/
namespace AttributeExpr

def isWordStart (c : Char) : Bool :=
  ('a' ≤ c && c ≤ 'z') || ('A' ≤ c && c ≤ 'Z') || c = '_' || (128 ≤ c.toNat && !isBlank c)

def isWordChar (c : Char) : Bool := isWordStart c || Numeral.isDigit c

inductive Lexeme
  | base64 (body : List Char)
  | bytes (continuation : Bool) (body : List Char)
  | string (body : List Char)
  /-- A single-quoted string, which is taken as it stands. -/
  | verbatim (body : List Char)
  | quotedName (name : List Char)
  | number (text : List Char)
  | word (text : List Char)
  | mark (mark : Mark)
deriving Repr

namespace Lexeme

/-- A literal or name that starts with a quote or with `b` or `b64` and a quote. -/
def quoted? : List Char → Option (Lexeme × List Char)
  | 'b' :: '6' :: '4' :: '\x22' :: rest => (plainBody? '\x22' rest).map (·.map base64 id)
  | 'b' :: '6' :: '4' :: '\x27' :: rest => (plainBody? '\x27' rest).map (·.map base64 id)
  | 'b' :: '\x22' :: rest =>
    (escapedBody? '\x22' (fun _ => true) rest).map (·.map (bytes true) id)
  | 'b' :: '\x27' :: rest => (escapedBody? '\x27' (· ≠ '\n') rest).map (·.map (bytes false) id)
  | '\x22' :: rest => (escapedBody? '\x22' (fun _ => true) rest).map (·.map string id)
  | '\x27' :: rest => (escapedBody? '\x27' (fun _ => true) rest).map (·.map verbatim id)
  | '\x60' :: rest => (quotedName? rest).map (·.map quotedName id)
  | _ => none

/-- A number with an optional sign. After an operand the sign is an operator, and the numeral
behind it is left for later. -/
def number? (afterOperand : Bool) (text : List Char) : Option (Lexeme × List Char) :=
  match text with
  | '+' :: rest =>
    (Numeral.split? rest).map fun (numeral, after) =>
      if afterOperand then (mark .plus, rest) else (number numeral, after)
  | '-' :: rest =>
    (Numeral.split? rest).map fun (numeral, after) =>
      if afterOperand then (mark .minus, rest) else (number ('-' :: numeral), after)
  | _ => (Numeral.split? text).map (·.map number id)

def word? (text : List Char) : Option (Lexeme × List Char) :=
  if text.head?.any isWordStart then
    some (word (text.takeWhile isWordChar), text.dropWhile isWordChar)
  else none

def mark? (text : List Char) : Option (Lexeme × List Char) :=
  (Mark.split? text).map (·.map mark id)

/-- The lexeme at the start of a text, and what follows it. -/
def split? (afterOperand : Bool) (text : List Char) : Option (Lexeme × List Char) :=
  (quoted? text).or <| (number? afterOperand text).or <| (word? text).or <| mark? text

theorem quoted?_length {text after : List Char} {lexeme : Lexeme}
    (h : quoted? text = some (lexeme, after)) : after.length < text.length := by
  unfold quoted? at h
  split at h <;> simp at h
  all_goals
    obtain ⟨_, h, _⟩ := h
    first
    | have := plainBody?_length h
      simp; omega
    | have := escapedBody?_length h
      simp; omega
    | have := quotedName?_length h
      simp; omega

theorem number?_length {afterOperand : Bool} {text after : List Char} {lexeme : Lexeme}
    (h : number? afterOperand text = some (lexeme, after)) : after.length < text.length := by
  unfold number? at h
  split at h
  · simp only [Option.map_eq_some_iff, Prod.exists] at h
    obtain ⟨_, _, h, e⟩ := h
    have := Numeral.split?_length h
    split at e <;> (simp at e; simp [← e.2]; try omega)
  · simp only [Option.map_eq_some_iff, Prod.exists] at h
    obtain ⟨_, _, h, e⟩ := h
    have := Numeral.split?_length h
    split at e <;> (simp at e; simp [← e.2]; try omega)
  · simp only [Option.map_eq_some_iff, Prod.exists] at h
    obtain ⟨_, _, h, e⟩ := h
    simp at e
    exact e.2 ▸ Numeral.split?_length h

theorem word?_length {text after : List Char} {lexeme : Lexeme}
    (h : word? text = some (lexeme, after)) : after.length < text.length := by
  unfold word? at h
  cases text with
  | nil => simp at h
  | cons c rest =>
    by_cases hc : isWordStart c
    · simp only [List.head?_cons, Option.any_some, hc, ↓reduceIte, Option.some.injEq,
        Prod.mk.injEq] at h
      have : isWordChar c = true := by simp [isWordChar, hc]
      rw [← h.2, List.dropWhile_cons, if_pos this]
      have := (List.dropWhile_sublist isWordChar (l := rest)).length_le
      simp; omega
    · simp [hc] at h

theorem mark?_length {text after : List Char} {lexeme : Lexeme}
    (h : mark? text = some (lexeme, after)) : after.length < text.length := by
  simp only [mark?, Option.map_eq_some_iff, Prod.exists] at h
  obtain ⟨_, _, h, e⟩ := h
  simp at e
  exact e.2 ▸ Mark.split?_length h

theorem split?_length {afterOperand : Bool} {text after : List Char} {lexeme : Lexeme}
    (h : split? afterOperand text = some (lexeme, after)) : after.length < text.length := by
  simp only [split?, Option.or_eq_some_iff] at h
  rcases h with h | ⟨_, h | ⟨_, h | ⟨_, h⟩⟩⟩
  · exact quoted?_length h
  · exact number?_length h
  · exact word?_length h
  · exact mark?_length h

/-- The line breaks inside a lexeme that count as lines. -/
def lineBreaks : Lexeme → Nat
  | bytes true body | string body | verbatim body => body.count '\n'
  | _ => 0

/-- The symbol that a word stands for, if it is a keyword or an identifier. -/
def wordSymbol (position : Nat) (text : List Char) : Except LexicalError Symbol :=
  match Name.invalidOffset? text with
  | some offset => .error (.unexpectedChar (text.getD offset ' ') (position + offset))
  | none =>
    .ok (match Keyword.ofWord? (String.ofList (Name.lowerCase text)) with
      | some keyword => .keyword keyword (String.ofList text)
      | none => .name (String.ofList text))

/-- The symbol that a lexeme at `position` stands for. -/
def symbol (position : Nat) : Lexeme → Except LexicalError Symbol
  | base64 body => (Base64Body.decode position body).map .binary
  | bytes continuation body => (ByteBody.decode continuation (position + 2) body).map .binary
  | string body =>
    (StringBody.decode (position + 1) body).map fun text => .string (String.ofList text)
  | verbatim body => .ok (.string (String.ofList body))
  | quotedName name => .ok (.name (String.ofList name))
  | number text => .ok (.number (String.ofList text))
  | word text => wordSymbol position text
  | mark m => .ok (.mark m)

end Lexeme

end AttributeExpr
