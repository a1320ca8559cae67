import AttributeExpr.Proofs.Token.Context
import AttributeExpr.Proofs.Update.Clause
import Mathlib
/-!
Clauses put together. Behind a comma the actions of a text are read as they are read alone, and the
comma changes nothing of what stands before it, since an accepted text leaves no quote open. So the
texts of several clauses make one text, whose actions are those of all of them.
-/
namespace AttributeExpr.Update

open Lexer (Spells)

/-- The text spells actions of the clause, with commas between them. -/
inductive SpellsActions (clause : Clause) (text : List Char) : List Action → Prop where
  | separated (parts : List (List Symbol × Action)) (nonempty : parts ≠ [])
      (derives : ∀ part ∈ parts, DerivesAction clause part.1 part.2)
      (spells : Spells false text (Value.separated (parts.map (·.1)))) :
      SpellsActions clause text (parts.map (·.2))

/-- A text is parsed as the actions that it spells. -/
theorem parse_eq_ok_iff_spells {clause : Clause} {text : String} {actions : List Action} :
    parse clause text = .ok actions ↔ SpellsActions clause text.toList actions := by
  constructor
  · intro h
    obtain ⟨parts, nonempty, hsymbols, derives, rfl⟩ := parse_sound h
    have spells := Lexer.spells_of_tokenize (tokenize_of_scanNested (fault_of_parse h))
    rw [← symbolsOf, hsymbols] at spells
    exact .separated parts nonempty derives spells
  · rintro ⟨parts, nonempty, derives, spells⟩
    exact parse_of_spells nonempty derives spells

theorem separated_append {parts parts' : List (List Symbol)} (h : parts ≠ []) (h' : parts' ≠ []) :
    Value.separated (parts ++ parts') =
      Value.separated parts ++ .mark .comma :: Value.separated parts' := by
  induction parts with
  | nil => contradiction
  | cons part parts ih =>
    cases parts with
    | nil => simpa [Value.separated] using Value.separated_cons part h'
    | cons next parts =>
      rw [List.cons_append, Value.separated_cons part (by simp), ih (by simp),
        Value.separated_cons part (by simp), List.append_assoc, List.cons_append]

section

variable {clause : Clause} {text text' : List Char} {actions actions' : List Action}

/-- Between two texts that spell actions there may be a comma and any layout. -/
theorem SpellsActions.join {blanks : List Char} (h : SpellsActions clause text actions)
    (hb : ∀ c ∈ blanks, Lexer.isSeparator c = true) (h' : SpellsActions clause text' actions') :
    SpellsActions clause (text ++ ',' :: (blanks ++ text')) (actions ++ actions') := by
  obtain ⟨parts, nonempty, derives, spells⟩ := h
  obtain ⟨parts', nonempty', derives', spells'⟩ := h'
  have hbehind (operand : Bool) : Spells operand (',' :: (blanks ++ text'))
      (.mark .comma :: Value.separated (parts'.map (·.1))) :=
    @Spells.mark operand .comma _ _ trivial (.layout hb spells')
  have hspells := spells.append (Lexeme.bounds_cons rfl (blanks ++ text')) hbehind
  rw [← separated_append (by simpa using nonempty) (by simpa using nonempty'),
    ← List.map_append] at hspells
  rw [← List.map_append]
  refine .separated (parts ++ parts') (by simp [nonempty]) ?_ hspells
  intro part hpart
  rcases List.mem_append.mp hpart with hpart | hpart
  · exact derives part hpart
  · exact derives' part hpart

theorem spellsActions_intercalate {texts : List String} {results : List (List Action)}
    (nonempty : texts ≠ [])
    (h : List.Forall₂ (fun text actions => SpellsActions clause text.toList actions)
      texts results) :
    SpellsActions clause (", ".intercalate texts).toList results.flatten := by
  induction h with
  | nil => contradiction
  | @cons text actions texts results hfirst hrest ih =>
    cases texts with
    | nil =>
      cases hrest
      simpa using hfirst
    | cons next texts =>
      have hblank : ∀ c ∈ [' '], Lexer.isSeparator c = true := by simp [Lexer.isSeparator]
      have hjoin := hfirst.join hblank (ih (by simp))
      simpa [String.intercalate_cons_cons] using hjoin

end

/-- The texts of any clauses with `, ` between them are the text of one clause, whose actions are
those of all of them in their order. -/
theorem parse_intercalate (clause : Clause) {texts : List String} {results : List (List Action)}
    (nonempty : texts ≠ [])
    (h : List.Forall₂ (fun text actions => parse clause text = .ok actions) texts results) :
    parse clause (", ".intercalate texts) = .ok results.flatten := by
  rw [parse_eq_ok_iff_spells]
  exact spellsActions_intercalate nonempty (h.imp fun _ _ => parse_eq_ok_iff_spells.mp)

set_option maxRecDepth 4000 in
/-- The first clause ends with a quoted name, the second begins with one and has a comma and a quote
in a string, and the third ends with `b`, which with a quote behind it would begin a literal. -/
theorem parse_intercalate_quotes :
    let texts := ["x = \x60a\x60", "\x60c\x60\x60d\x60 = 'p, \"', y = -1", "z = b"]
    let results := [[.set [.name "x"] (.path [.name "a"])],
      [.set [.name "c\x60d"] (.literal (.string "p, \"")),
        .set [.name "y"] (.literal (.number "-1"))],
      [.set [.name "z"] (.path [.name "b"])]]
    List.Forall₂ (fun text actions => parse .set text = .ok actions) texts results ∧
      parse .set (", ".intercalate texts) = .ok results.flatten := by
  intro texts results
  have h : List.Forall₂ (fun text actions => parse .set text = .ok actions) texts results :=
    .cons (by cbv) (.cons (by cbv) (.cons (by cbv) .nil))
  exact ⟨h, parse_intercalate .set (by simp [texts]) h⟩

end AttributeExpr.Update
