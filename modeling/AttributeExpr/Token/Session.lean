import AttributeExpr.Token.Nesting
/-!
A lexer that is used for one text after another. It is asked for one token at a time, and whoever
asks may stop anywhere, also because the lexer has failed. A new text takes the place of whatever is
left of the old one; only the count of lines goes on.
-/
namespace AttributeExpr.Lexer

/-- A lexer between two requests. -/
structure Session where
  /-- Whether the nesting of delimiters is checked. -/
  nested : Bool
  rest : List Char
  position : Nat
  line : Nat
  /-- The token that was handed out last. -/
  previous : Option Token
  opened : List Nesting.Opening

namespace Session

def fresh (nested : Bool) : Session := ⟨nested, [], 0, 1, none, []⟩

@[simp] theorem fresh_nested (nested : Bool) : (fresh nested).nested = nested := rfl

/-- Takes a new text. -/
def input (session : Session) (text : String) : Session :=
  { session with rest := text.toList, position := 0, previous := none, opened := [] }

/-- Goes to the first character of a text that is no separator. -/
def skip (session : Session) : List Char → Session
  | [] => { session with rest := [] }
  | c :: rest =>
    if isSeparator c then
      { session with
        position := session.position + 1
        line := if c = '\n' then session.line + 1 else session.line }.skip rest
    else { session with rest := c :: rest }

/-- Cuts the token off that starts right here, if the text goes on. -/
def cutHere (session : Session) : Except ExpressionError (Option Token) × Session :=
  match session.rest with
  | [] => (.ok none, session)
  | c :: rest =>
    match Lexeme.split? (session.previous.any (·.symbol.endsOperand)) (c :: rest) with
    | none => (.error (stray session.position session.previous c), session)
    | some (lexeme, after) =>
      let behind := { session with
        rest := after
        position := session.position + ((c :: rest).length - after.length)
        line := session.line + lexeme.lineBreaks }
      match lexeme.symbol session.position with
      | .error error => (.error error, behind)
      | .ok symbol => (.ok (some ⟨symbol, session.position, session.line⟩), behind)

/-- Cuts off the next token, with the separators in front of it. -/
def cut (session : Session) : Except ExpressionError (Option Token) × Session :=
  (session.skip session.rest).cutHere

/-- The delimiters that are open behind a token. -/
def track (opened : List Nesting.Opening) (token : Token) :
    Except ExpressionError (List Nesting.Opening) :=
  match token.symbol, opened with
  | .mark (.opening bracket), _ => .ok (⟨bracket, token.position⟩ :: opened)
  | .mark (.closing bracket), innermost :: outer =>
    if innermost.bracket = bracket then .ok outer else stray bracket
  | .mark (.closing bracket), [] => stray bracket
  | _, _ => .ok opened
where
  stray (bracket : Bracket) : Except ExpressionError (List Nesting.Opening) :=
    .error (GrammarError.strayDelimiter (Mark.closing bracket).text token.position)

/-- The same at the end of the text, where none may be open. -/
def trackNext (opened : List Nesting.Opening) :
    Option Token → Except ExpressionError (List Nesting.Opening)
  | some token => track opened token
  | none =>
    match Nesting.atEnd none opened with
    | some error => .error error
    | none => .ok opened

/-- Asks for the next token. A token that is not handed out is not remembered either. -/
def token (session : Session) : Except ExpressionError (Option Token) × Session :=
  match session.cut with
  | (.error error, behind) => (.error error, behind)
  | (.ok next, behind) =>
    match if behind.nested then trackNext behind.opened next else .ok behind.opened with
    | .error error => (.error error, behind)
    | .ok opened => (.ok next, { behind with opened, previous := next.or behind.previous })

theorem skip_length (session : Session) (text : List Char) :
    (session.skip text).rest.length ≤ text.length := by
  induction text generalizing session with
  | nil => simp [skip]
  | cons c text ih =>
    rw [skip]
    split
    · exact Nat.le_succ_of_le (ih _)
    · exact Nat.le_refl _

theorem cutHere_length {session behind : Session} {token : Token}
    (h : session.cutHere = (.ok (some token), behind)) :
    behind.rest.length < session.rest.length := by
  unfold cutHere at h
  split at h
  · cases h
  · next c rest hrest =>
    split at h
    · cases h
    · next lexeme after hsplit =>
      dsimp only at h
      split at h
      · cases h
      · cases h
        rw [hrest]
        exact Lexeme.split?_length hsplit

theorem cut_length {session behind : Session} {token : Token}
    (h : session.cut = (.ok (some token), behind)) : behind.rest.length < session.rest.length :=
  Nat.lt_of_lt_of_le (cutHere_length h) (session.skip_length session.rest)

theorem token_length {session behind : Session} {next : Token}
    (h : session.token = (.ok (some next), behind)) : behind.rest.length < session.rest.length := by
  unfold token at h
  split at h
  · cases h
  · next hcut =>
    split at h
    · cases h
    · cases h
      have hless := cut_length hcut
      exact hless

/-- All further tokens up to the first fault. -/
def scan (session : Session) : Scan :=
  match _ : session.token with
  | (.ok (some next), behind) => behind.scan.push next
  | (.ok none, behind) => ⟨[], none, behind.line⟩
  | (.error error, behind) => ⟨[], some error, behind.line⟩
termination_by session.rest.length
decreasing_by exact token_length ‹_›

/-- The lexer after a number of requests. -/
def after (session : Session) : Nat → Session
  | 0 => session
  | asked + 1 => session.token.2.after asked

/-- The answers to a number of requests, one after another, also behind a fault. -/
def answers (session : Session) : Nat → List (Except ExpressionError (Option Token))
  | 0 => []
  | asked + 1 => session.token.1 :: session.token.2.answers asked

/-- What is read from one text after another. With each text comes how many tokens are asked for
before the next text is taken. -/
def readAll {α : Type} (read : Session → α) (session : Session) : List (String × Nat) → List α
  | [] => []
  | (text, asked) :: rest =>
    let started := session.input text
    read started :: (started.after asked).readAll read rest

end Session

end AttributeExpr.Lexer
