import AttributeExpr.Proofs.Token.Reading
import AttributeExpr.Proofs.Token.Scan
import Mathlib
/-!
Tokens without their lines. No fault of a scan depends on the line it stands on, and no step of a
reader looks at the lines of the tokens it reads.
-/
namespace AttributeExpr

/-- The token with its line left out. -/
def Token.unlined (token : Token) : Token := { token with line := 0 }

/-- The scan with all lines left out. -/
def Scan.unlined (scan : Scan) : Scan := ⟨scan.tokens.map Token.unlined, scan.fault, 0⟩

@[simp] theorem Token.symbol_unlined (token : Token) : token.unlined.symbol = token.symbol := rfl

@[simp] theorem Token.position_unlined (token : Token) :
    token.unlined.position = token.position := rfl

@[simp] theorem Token.unlined_mk (symbol : Symbol) (position line : Nat) :
    unlined ⟨symbol, position, line⟩ = ⟨symbol, position, 0⟩ := rfl

/-- A token of the list without lines is one of the list, but for its line. -/
theorem Token.map_unlined_eq_cons {tokens rest : List Token} {symbol : Symbol}
    {position line : Nat} (h : tokens.map unlined = ⟨symbol, position, line⟩ :: rest) :
    ∃ line' rest', tokens = ⟨symbol, position, line'⟩ :: rest' ∧ rest'.map unlined = rest := by
  obtain ⟨⟨_, _, line'⟩, rest', rfl, htoken, hrest⟩ := List.map_eq_cons_iff.mp h
  obtain ⟨rfl, rfl, -⟩ := Token.mk.inj htoken
  exact ⟨line', rest', rfl, hrest⟩

theorem Scan.unlined_push (scan : Scan) (token : Token) :
    (scan.push token).unlined = scan.unlined.push token.unlined := rfl

theorem Scan.result_unlined (scan : Scan) :
    scan.unlined.result = scan.result.map (List.map Token.unlined) := by
  unfold result unlined
  cases scan.fault <;> rfl

namespace Lexer

theorem any_endsOperand_unlined (previous : Option Token) :
    (previous.map Token.unlined).any (·.symbol.endsOperand) =
      previous.any (·.symbol.endsOperand) := by
  cases previous <;> rfl

theorem stray_unlined (position : Nat) (previous : Option Token) (c : Char) :
    stray position (previous.map Token.unlined) c = stray position previous c := by
  cases previous with
  | none => rfl
  | some token =>
    have hsame : introducesBinary position token.unlined = introducesBinary position token := rfl
    simp only [stray, Option.map_some, Option.filter, hsame]
    cases introducesBinary position token <;> rfl

end Lexer

/-! Steps of readers. -/

namespace Reading

variable {α : Type} (fault : Option ExpressionError)

/-- The tokens do not begin with the symbol. -/
def NotAhead (symbol : Symbol) (tokens : List Token) : Prop :=
  ∀ position line rest, tokens = ⟨symbol, position, line⟩ :: rest → False

theorem ahead_or_notAhead (symbol : Symbol) (tokens : List Token) :
    (∃ position line rest, tokens = ⟨symbol, position, line⟩ :: rest) ∨
      NotAhead symbol tokens := by
  by_cases h : NotAhead symbol tokens
  · exact .inr h
  · simp only [NotAhead, not_forall, not_false_eq_true, exists_prop, and_true] at h
    exact .inl h

theorem NotAhead.unlined {symbol : Symbol} {tokens : List Token} (h : NotAhead symbol tokens) :
    NotAhead symbol (tokens.map Token.unlined) := by
  intro position line rest heq
  obtain ⟨line', rest', rfl, -⟩ := Token.map_unlined_eq_cons heq
  exact h position line' rest' rfl

/-- What is read, with the lines of the tokens behind it left out. -/
def unlined (reading : Except Failure (α × List Token)) : Except Failure (α × List Token) :=
  reading.map fun (a, rest) => (a, rest.map Token.unlined)

theorem unlined_map {β : Type} (reading : Reading α) (f : α → β) :
    unlined (reading.map fun (a, rest) => (f a, rest)) =
      (unlined reading).map fun (a, rest) => (f a, rest) := by
  cases reading <;> rfl

@[simp] theorem fail_unlined (tokens : List Token) :
    (fail fault (tokens.map Token.unlined) : Except Failure α) = fail fault tokens := by
  cases tokens <;> rfl

theorem unlined_fail (tokens : List Token) :
    unlined (fail fault tokens : Reading α) = fail fault tokens := by
  cases tokens <;> cases fault <;> rfl

@[simp] theorem lookAhead_unlined (allowed : Symbol → Bool) (tokens : List Token) :
    lookAhead fault allowed (tokens.map Token.unlined) = lookAhead fault allowed tokens := by
  cases tokens <;> rfl

theorem expect_unlined (mark : Mark) (tokens : List Token) :
    expect fault mark (tokens.map Token.unlined) =
      (expect fault mark tokens).map (List.map Token.unlined) := by
  cases tokens with
  | nil => cases fault <;> rfl
  | cons token rest =>
    rw [List.map_cons, expect, expect, Token.symbol_unlined]
    split
    · rfl
    · rfl

theorem unlined_bind {β : Type} (reading : Except Failure (α × List Token))
    {next next' : α × List Token → Except Failure (β × List Token)}
    (h : ∀ a rest, next' (a, rest.map Token.unlined) = unlined (next (a, rest))) :
    (unlined reading >>= next') = unlined (reading >>= next) := by
  cases reading with
  | error failure => rfl
  | ok result => exact h result.1 result.2

theorem expect_unlined_bind {β : Type} (mark : Mark) (tokens : List Token)
    {next next' : List Token → Except Failure (β × List Token)}
    (h : ∀ rest, next' (rest.map Token.unlined) = unlined (next rest)) :
    (expect fault mark (tokens.map Token.unlined) >>= next') =
      unlined (expect fault mark tokens >>= next) := by
  rw [expect_unlined]
  cases expect fault mark tokens with
  | error failure => rfl
  | ok rest => exact h rest

/-- A step that has nothing to do with tokens stays as it is. -/
theorem step_bind {β γ : Type} (step : Except Failure γ)
    {next next' : γ → Except Failure (β × List Token)}
    (h : ∀ a, next' a = unlined (next a)) : (step >>= next') = unlined (step >>= next) := by
  cases step with
  | error failure => rfl
  | ok a => exact h a

theorem complete_unlined (reading : Reading α) :
    complete fault (unlined reading) = complete fault reading := by
  cases reading with
  | error failure => rfl
  | ok result =>
    show (lookAhead fault _ (result.2.map Token.unlined) >>= _) = _
    rw [lookAhead_unlined]
    rfl

end Reading

end AttributeExpr
