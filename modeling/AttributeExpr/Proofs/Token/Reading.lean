import AttributeExpr.Proofs.Outcome
import AttributeExpr.Token.Reading
/-!
What it says about the tokens that a step of a reader has succeeded.
-/
namespace AttributeExpr.Reading

/-- Any symbols are those of some tokens. -/
theorem exists_tokens (symbols : List Symbol) :
    ∃ tokens : List Token, tokens.map (·.symbol) = symbols :=
  ⟨symbols.map fun symbol => ⟨symbol, 0, 0⟩, by simp [Function.comp_def]⟩

/-- The first of some symbols is that of a token somewhere in the text. -/
theorem exists_token {tokens : List Token} {symbol : Symbol} {symbols : List Symbol}
    (h : tokens.map (·.symbol) = symbol :: symbols) :
    ∃ position line behind, tokens = ⟨symbol, position, line⟩ :: behind ∧
      behind.map (·.symbol) = symbols := by
  obtain ⟨⟨_, position, line⟩, behind, rfl, rfl, hbehind⟩ := List.map_eq_cons_iff.mp h
  exact ⟨position, line, behind, rfl, hbehind⟩

/-- An expected mark is there. -/
theorem expect_eq_ok {fault : Option ExpressionError} {mark : Mark}
    {tokens rest : List Token} (h : expect fault mark tokens = .ok rest) :
    ∃ token, tokens = token :: rest ∧ token.symbol = .mark mark := by
  cases tokens with
  | nil => cases fault <;> simp [expect, fail, refuse] at h
  | cons token tokens =>
    rw [expect] at h
    split_ifs at h with hmark
    · obtain rfl := Except.ok.inj h
      exact ⟨token, rfl, hmark⟩
    · simp [fail, refuse] at h

@[simp] theorem fail_ne_ok {α : Type} (fault : Option ExpressionError)
    (tokens : List Token) (a : α) : (fail fault tokens : Except Failure α) ≠ .ok a := by
  cases tokens <;> cases fault <;> simp [fail, refuse]

/-- All tokens are read. -/
theorem complete_eq_ok {α : Type} {fault : Option ExpressionError} {reading : Reading α} {a : α}
    (h : complete fault reading = .ok a) : fault = none ∧ reading = .ok (a, []) := by
  obtain ⟨⟨a', rest⟩, hread, h⟩ := bind_eq_ok_iff.mp h
  obtain ⟨_, hlook, h⟩ := bind_eq_ok_iff.mp h
  obtain rfl := Except.ok.inj h
  cases rest with
  | nil =>
    cases fault with
    | none => exact ⟨rfl, hread⟩
    | some error => simp [lookAhead, refuse] at hlook
  | cons token rest => simp [lookAhead, refuse] at hlook

/-! Readers fail at a token with an error of grammar, and at the end with the fault there. -/

/-- The error has no place in the text, or that of one of the tokens. -/
def AtToken (tokens : List Token) (error : ExpressionError) : Prop :=
  ∀ position ∈ error.position?, ∃ token ∈ tokens, token.position = position

theorem AtToken.subset {tokens tokens' : List Token} {error : ExpressionError}
    (h : AtToken tokens' error) (hsub : tokens' ⊆ tokens) : AtToken tokens error := by
  intro position hposition
  obtain ⟨token, htoken, heq⟩ := h position hposition
  exact ⟨token, hsub htoken, heq⟩

theorem atToken_of_mem {tokens : List Token} {token : Token} {error : ExpressionError}
    (h : token ∈ tokens) (hposition : error.position? = some token.position) :
    AtToken tokens error := by
  intro position hp
  rw [hposition] at hp
  exact ⟨token, h, Option.some.inj hp⟩

theorem position?_unexpected (token : Token) :
    (unexpected token).position? = some token.position := by
  unfold unexpected
  split <;> rfl

/-- The property allows for errors of grammar at the tokens, and for the fault behind them. -/
structure Allows (p : Failure → Prop) (fault : Option ExpressionError) (tokens : List Token) :
    Prop where
  grammar : ∀ error : GrammarError, AtToken tokens error → p (.refused (.grammar error))
  atEnd : ∀ error ∈ fault, p (.refused error)

section

variable {p : Failure → Prop} {fault : Option ExpressionError} {tokens : List Token}

theorem Allows.subset {tokens' : List Token} (allows : Allows p fault tokens)
    (hsub : tokens' ⊆ tokens) : Allows p fault tokens' :=
  ⟨fun error h => allows.grammar error (h.subset hsub), allows.atEnd⟩

theorem failsOnly_unexpected {α : Type} {token : Token} {rest : List Token}
    (allows : Allows p fault (token :: rest)) :
    FailsOnly p (refuse (unexpected token) : Except Failure α) :=
  failsOnly_error (allows.grammar _
    (atToken_of_mem List.mem_cons_self (position?_unexpected token)))

variable (allows : Allows p fault tokens)

include allows

theorem failsOnly_fail {α : Type} : FailsOnly p (fail fault tokens : Except Failure α) := by
  cases tokens with
  | cons token rest => exact failsOnly_unexpected allows
  | nil =>
    cases fault with
    | some error => exact failsOnly_error (allows.atEnd error rfl)
    | none => exact failsOnly_error (allows.grammar _ nofun)

theorem failsOnly_expect (mark : Mark) : FailsOnly p (expect fault mark tokens) := by
  cases tokens with
  | nil => exact failsOnly_fail allows
  | cons token rest =>
    rw [expect]
    split
    · exact failsOnly_ok rest
    · exact failsOnly_fail allows

theorem failsOnly_lookAhead (allowed : Symbol → Bool) :
    FailsOnly p (lookAhead fault allowed tokens) := by
  cases tokens with
  | cons token rest =>
    rw [lookAhead]
    split
    · exact failsOnly_ok ()
    · exact failsOnly_unexpected allows
  | nil =>
    cases fault with
    | some error => exact failsOnly_error (allows.atEnd error rfl)
    | none => exact failsOnly_ok ()

theorem failsOnly_complete {α : Type} {reading : Reading α} (h : FailsOnly p reading)
    (hrest : ∀ a rest, reading = .ok (a, rest) → rest ⊆ tokens) :
    FailsOnly p (complete fault reading) := by
  apply h.bind
  rintro ⟨a, rest⟩ hread
  have hlook := failsOnly_lookAhead (allows.subset (hrest a rest hread)) fun _ => false
  exact hlook.bind fun _ _ => failsOnly_ok _

end

end AttributeExpr.Reading
