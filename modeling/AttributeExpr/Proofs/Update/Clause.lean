import AttributeExpr.Proofs.Update.Completeness
import AttributeExpr.Proofs.Update.Soundness
/-!
The two clauses of an update under one name, as they are parsed and as the grammar derives them.
-/
namespace AttributeExpr.Update

/-- The actions that a text for a clause spells. -/
def parse : Clause → String → Except Failure (List Action)
  | .set => parseSet
  | .remove => parseRemove

/-- The actions that the tokens of a text for a clause spell. -/
def ofScan : Clause → Scan → Except Failure (List Action)
  | .set => assignmentsOf
  | .remove => removalsOf

/-- The actions of a clause, as the grammar derives them. -/
def DerivesAction : Clause → List Symbol → Action → Prop
  | .set => DerivesAssignment
  | .remove => DerivesRemoval

variable {text : String} {clause : Clause} {actions : List Action}

theorem parse_eq_ofScan (clause : Clause) (text : String) :
    parse clause text = ofScan clause (scanNested text) := by
  cases clause <;> rfl

theorem parse_sound (h : parse clause text = .ok actions) :
    ∃ parts : List (List Symbol × Action), parts ≠ [] ∧
      symbolsOf text = Value.separated (parts.map (·.1)) ∧
      (∀ part ∈ parts, DerivesAction clause part.1 part.2) ∧ actions = parts.map (·.2) := by
  cases clause with
  | set => exact parseSet_sound h
  | remove => exact parseRemove_sound h

/-- Nothing is parsed unless the tokens end with the text. -/
theorem fault_of_parse (h : parse clause text = .ok actions) : (scanNested text).fault = none := by
  cases clause with
  | set => exact (Reading.complete_eq_ok h).1
  | remove => exact (Reading.complete_eq_ok h).1

theorem DerivesAction.commasInside {symbols : List Symbol} {action : Action}
    (h : DerivesAction clause symbols action) : Nesting.CommasInside symbols := by
  cases clause with
  | set => exact DerivesAssignment.commasInside h
  | remove => exact DerivesRemoval.commasInside h

section

variable {tokens : List Token} {parts : List (List Symbol × Action)}

/-- Tokens that are actions are read as them. -/
theorem ofScan_separated (nonempty : parts ≠ [])
    (h : ∀ part ∈ parts, DerivesAction clause part.1 part.2)
    (htokens : tokens.map (·.symbol) = Value.separated (parts.map (·.1))) (line : Nat) :
    ofScan clause ⟨tokens, none, line⟩ = .ok (parts.map (·.2)) := by
  cases clause with
  | set => exact assignmentsOf_separated nonempty h htokens line
  | remove => exact removalsOf_separated nonempty h htokens line

/-- A text that spells actions is parsed as them. -/
theorem parse_of_spells (nonempty : parts ≠ [])
    (h : ∀ part ∈ parts, DerivesAction clause part.1 part.2)
    (spells : Lexer.Spells false text.toList (Value.separated (parts.map (·.1)))) :
    parse clause text = .ok (parts.map (·.2)) := by
  obtain ⟨tokens, line, hscan, htokens⟩ :=
    scanNested_of_spells spells
      (wellNested_actions fun part hpart => (h part hpart).commasInside.wellNested)
  rw [parse_eq_ofScan, hscan, ofScan_separated nonempty h htokens]

end

end AttributeExpr.Update
