import AttributeExpr.Proofs.Path.Spelling
import AttributeExpr.Proofs.Placeholder.Expansion
import AttributeExpr.Proofs.Update.Grammar
import AttributeExpr.Proofs.Update.Written
import AttributeExpr.Proofs.Value.RoundTrip
/-!
Restoring formulas. Where the references of a written text are expanded, the text spells a formula
again. Paths come back as they were, and a literal comes back as the first of the equal values that
share its reference.
-/
namespace AttributeExpr

/-- The formulas differ at most in literals, which are equal. -/
inductive Formula.Same : Formula → Formula → Prop where
  | literal {value value' : Value} (h : Value.Equals value value') :
      Same (.literal value) (.literal value')
  | path (path : Path) : Same (.path path) (.path path)
  | arithmetic (op : ArithmeticOp) {left left' right right' : Formula} (hleft : Same left left')
      (hright : Same right right') : Same (.arithmetic op left right) (.arithmetic op left' right')
  | listAppend {left left' right right' : Formula} (hleft : Same left left')
      (hright : Same right right') : Same (.listAppend left right) (.listAppend left' right')
  | ifNotExists (path : Path) {otherwise otherwise' : Formula} (h : Same otherwise otherwise') :
      Same (.ifNotExists path otherwise) (.ifNotExists path otherwise')

/-- The actions are of one kind and have one target, and their formulas are the same. -/
inductive Action.Same : Action → Action → Prop where
  | set (target : Path) {formula formula' : Formula} (h : formula.Same formula') :
      Same (.set target formula) (.set target formula')
  | remove (target : Path) : Same (.remove target) (.remove target)

/-- The signs that are written between blanks. -/
def Update.IsSpaced (mark : Mark) : Prop := mark = .equal ∨ mark = .plus ∨ mark = .minus

theorem Update.isSpaced_opMark (op : ArithmeticOp) : IsSpaced (opMark op) := by
  cases op <;> simp [IsSpaced, opMark]

/-- The text of a sign between two texts. -/
def Update.spacedText (mark : Mark) (first second : List Char) : List Char :=
  first ++ ' ' :: (mark.text.toList ++ ' ' :: second)

/-- The text of a call around the texts of its arguments. -/
def Update.callText (name : String) (first second : List Char) : List Char :=
  name.toList ++ '(' :: (first ++ ',' :: ' ' :: (second ++ [')']))

/-- A name that is written bare in a call and contains no placeholder. -/
structure Update.IsFunction (name : String) : Prop where
  identifier : Name.isIdentifier name.toList = true
  symbol : Lexer.wordSymbol name.toList = .name name
  plain : ∀ c ∈ name.toList, CompiledExpression.IsPlain c

set_option maxRecDepth 2000 in
theorem Update.isFunction_listAppend : IsFunction "list_append" where
  identifier := by decide
  symbol := by rfl
  plain := by simp [CompiledExpression.IsPlain]

set_option maxRecDepth 2000 in
theorem Update.isFunction_ifNotExists : IsFunction "if_not_exists" where
  identifier := by decide
  symbol := by rfl
  plain := by simp [CompiledExpression.IsPlain]

namespace Lexer

variable {rest : List Char} {symbols : List Symbol}

/-- Before a blank, a sign is a mark even where a numeral could begin. -/
theorem split?_spaced {mark : Mark} (h : Update.IsSpaced mark) (operand : Bool)
    (rest : List Char) :
    Lexeme.split? operand (mark.text.toList ++ ' ' :: rest) = some (.mark mark, ' ' :: rest) := by
  rcases h with rfl | rfl | rfl <;> cases operand <;> rfl

/-- A sign between two parts, of which the first may be an operand. -/
theorem Spelling.spaced {mark : Mark} (h : Update.IsSpaced mark) {text text' : List Char}
    {first second : List Symbol} (spelling : Spelling text first)
    (spelling' : Spelling text' second) :
    Spelling (Update.spacedText mark text text') (first ++ .mark mark :: second) := by
  intro rest further hf
  have hsecond := spelling' hf
  have hends : (Symbol.mark mark).endsOperand = false := by
    rcases h with rfl | rfl | rfl <;> rfl
  have hfollows : Follows (' ' :: (mark.text.toList ++ ' ' :: (text' ++ rest)))
      (.mark mark :: (second ++ further)) := by
    refine ⟨stops_cons.mpr (by decide), fun operand => .separator (by decide) ?_⟩
    refine .lexeme (split?_spaced h operand _) (fun _ => rfl) (.separator (by decide) ?_)
    rwa [hends]
  simpa [Update.spacedText] using spelling hfollows

theorem Spells.paren {operand : Bool} (h : Spells false rest symbols) :
    Spells operand ('(' :: rest) (.mark (.opening .paren) :: symbols) :=
  @Spells.mark operand (.opening .paren) rest symbols trivial h

/-- A call is spelled as its two arguments are, whatever is called. -/
theorem Spelling.call {name : String} (function : Update.IsFunction name) {text text' : List Char}
    {first second : List Symbol} (h : Spelling text first) (h' : Spelling text' second) :
    Spelling (Update.callText name text text') (Update.callSymbols name first second) := by
  intro rest further hf
  have hclose := h' (hf.closing .paren)
  have hspace := @Spells.separator _ ' ' _ _ (by decide) hclose
  have hopen := @Spells.paren _ _ (Symbol.name name).endsOperand (h (.comma hspace))
  rw [← function.symbol] at hopen
  have hword := @Spells.word false _ _ _ function.identifier (stops_cons.mpr (by decide)) hopen
  rw [function.symbol] at hword
  simpa [Update.callText, Update.callSymbols, Mark.text] using hword

end Lexer

namespace Update

open CompiledExpression (Expands IsPlain isPlain_of_isDigit)
open PlaceholderTable (Coherent)

variable {numeral : String → Prop} {table : PlaceholderTable} {text : String}

/-! Paths come back as they were. -/

theorem WrittenSegments.stops {segments : List Segment} (h : WrittenSegments table segments text) :
    Stops Numeral.isDigit text.toList := by
  cases h with
  | nil => simp
  | name => simp [Numeral.isDigit]
  | index => simp [Numeral.isDigit]

theorem WrittenSegments.expands (coherent : Coherent numeral table) {segments : List Segment}
    (h : WrittenSegments table segments text)
    (readable : ∀ segment ∈ segments, Path.IsReadable segment) (expression : String) :
    Expands (table.compiled expression) text.toList (Path.segmentsText segments) := by
  induction h with
  | nil => exact .nil
  | @name name ref text segments held rest ih =>
    obtain ⟨-, hsegments⟩ := List.forall_mem_cons.mp readable
    have hname := held.expands coherent expression
    have hdot := Expands.plain_append (a := ['.']) (by simp [IsPlain]) hname
    simpa [Path.segmentsText, Path.segmentText] using hdot.append (ih hsegments) rest.stops
  | @index text segments index rest ih =>
    obtain ⟨⟨n, rfl, -⟩, hsegments⟩ := List.forall_mem_cons.mp readable
    have hplain : ∀ c ∈ ("[" ++ toString (n : Int) ++ "]").toList, IsPlain c := by
      have hdigits := fun c hc => isPlain_of_isDigit (Decimal.isDigit_toString n c hc)
      rw [Path.toList_position, List.forall_mem_cons, List.forall_mem_append]
      exact ⟨by simp [IsPlain], hdigits, by simp [IsPlain]⟩
    rw [String.toList_append]
    exact Expands.plain_append hplain (ih hsegments)

theorem WrittenPath.expands (coherent : Coherent numeral table) {path : Path}
    (h : WrittenPath table path text) {symbols : List Symbol} (derives : Path.Derives symbols path)
    (expression : String) :
    Expands (table.compiled expression) text.toList (Path.text path).toList := by
  cases h with
  | path held rest =>
    cases derives with
    | path _ further =>
      have hrest := rest.expands coherent further.readable expression
      rw [Path.toList_text, String.toList_append]
      exact (held.expands coherent expression).append hrest rest.stops

/-- An expansion of the text spells symbols from which the grammar derives what is the same as the
formula. -/
def Restores (compiled : CompiledExpression) (operand : Bool) (text : String)
    (formula : Formula) : Prop :=
  ∃ (text' : List Char) (symbols : List Symbol) (formula' : Formula),
    Expands compiled text.toList text' ∧ Lexer.Spelling text' symbols ∧
      Derives operand symbols formula' ∧ formula'.Same formula

theorem IsAddend.of_same {formula formula' : Formula} (h : IsAddend formula)
    (same : formula'.Same formula) : IsAddend formula' := by
  rintro value rfl
  cases same with
  | @literal _ value' hequals =>
    have htype := h value' rfl
    cases hequals.parts <;> simp [Value.type] at htype ⊢

theorem expands_call {compiled : CompiledExpression} {name : String} {a a' b b' : List Char}
    (function : IsFunction name) (ha : Expands compiled a a') (hb : Expands compiled b b') :
    Expands compiled (callText name a b) (callText name a' b') := by
  have hclose := hb.append (@Expands.plain compiled [')'] (by simp [IsPlain])) (by simp; decide)
  have hcomma := @Expands.plain_append compiled [',', ' '] _ _ (by simp [IsPlain]) hclose
  have hinside := ha.append hcomma (stops_cons.mpr (by decide))
  have hopen := @Expands.plain_append compiled ['('] _ _ (by simp [IsPlain]) hinside
  exact Expands.plain_append function.plain hopen

theorem expands_spaced {compiled : CompiledExpression} {mark : Mark} {a a' b b' : List Char}
    (h : IsSpaced mark) (ha : Expands compiled a a') (hb : Expands compiled b b') :
    Expands compiled (spacedText mark a b) (spacedText mark a' b') := by
  have hplain : ∀ c ∈ ' ' :: (mark.text.toList ++ [' ']), IsPlain c := by
    rcases h with rfl | rfl | rfl <;> simp [IsPlain, Mark.text]
  have hsecond := Expands.plain_append hplain hb
  have htext := ha.append hsecond (stops_cons.mpr (by decide))
  simpa [spacedText] using htext

section

variable (coherent : Coherent (fun text => Numeral.Signed text.toList) table) (expression : String)
include coherent

/-- Every formula that the grammar derives is restored from what is written for it. -/
theorem Derives.restores {operand : Bool} {symbols : List Symbol} {formula : Formula}
    (derives : Derives operand symbols formula) (written : WrittenFormula table formula text) :
    Restores (table.compiled expression) operand text formula := by
  induction derives generalizing text with
  | literal h =>
    cases written with
    | literal held =>
      obtain ⟨decoded, wellFormed, hequals, hexpands⟩ := held.expands coherent expression
      obtain ⟨symbols', derives', spelling⟩ := wellFormed.isLiteral_render
      exact ⟨_, symbols', _, hexpands, spelling, .literal derives', .literal hequals⟩
  | path h =>
    cases written with
    | path written =>
      obtain ⟨symbols', derives', spelling⟩ := h.spelling_text
      have hexpands := written.expands coherent h expression
      exact ⟨_, symbols', _, hexpands, spelling, .path derives', .path _⟩
  | listAppend _ _ ih ih' =>
    cases written with
    | @listAppend _ _ text text' written written' =>
      obtain ⟨first, symbols, left, hleft, spelling, derives, same⟩ := ih written
      obtain ⟨second, symbols', right, hright, spelling', derives', same'⟩ := ih' written'
      refine ⟨callText "list_append" first second, _, _, ?_, .call isFunction_listAppend spelling
        spelling', .listAppend derives derives', .listAppend same same'⟩
      simpa [callText] using expands_call isFunction_listAppend hleft hright
  | ifNotExists hpath _ ih =>
    cases written with
    | @ifNotExists _ _ text text' written written' =>
      obtain ⟨symbols, derives, spelling⟩ := hpath.spelling_text
      have hleft := written.expands coherent hpath expression
      obtain ⟨second, symbols', right, hright, spelling', derives', same'⟩ := ih written'
      refine ⟨callText "if_not_exists" _ second, _, _, ?_, .call isFunction_ifNotExists
        spelling spelling', .ifNotExists derives derives', .ifNotExists _ same'⟩
      simpa [callText] using expands_call isFunction_ifNotExists hleft hright
  | operand _ ih =>
    obtain ⟨text', symbols', formula', hexpands, spelling, derives, same⟩ := ih written
    exact ⟨text', symbols', formula', hexpands, spelling, .operand derives, same⟩
  | @arithmetic op _ _ _ _ _ _ addend addend' ih ih' =>
    cases written with
    | @arithmetic _ _ _ text text' written written' =>
      obtain ⟨first, symbols, left, hleft, spelling, derives, same⟩ := ih written
      obtain ⟨second, symbols', right, hright, spelling', derives', same'⟩ := ih' written'
      refine ⟨_, _, _, ?_, .spaced (isSpaced_opMark op) spelling spelling',
        .arithmetic derives derives' (addend.of_same same) (addend'.of_same same'),
        .arithmetic op same same'⟩
      have htext : (text ++ " " ++ op.text ++ " " ++ text').toList =
          spacedText (opMark op) text.toList text'.toList := by
        cases op <;> simp [spacedText, ArithmeticOp.text, opMark, Mark.text]
      rw [htext]
      exact expands_spaced (isSpaced_opMark op) hleft hright

/-- An expansion of the text spells symbols from which the same action is derived. -/
def RestoresAction (compiled : CompiledExpression) (P : List Symbol → Action → Prop) (text : String)
    (action : Action) : Prop :=
  ∃ (text' : List Char) (symbols : List Symbol) (action' : Action),
    Expands compiled text.toList text' ∧ Lexer.Spelling text' symbols ∧ P symbols action' ∧
      action'.Same action

theorem DerivesAssignment.restores {symbols : List Symbol} {action : Action}
    (derives : DerivesAssignment symbols action) (written : WrittenAction table action text) :
    RestoresAction (table.compiled expression) DerivesAssignment text action := by
  cases derives with
  | set htarget hformula =>
    cases written with
    | @set _ _ text text' written written' =>
      obtain ⟨symbols, derives, spelling⟩ := htarget.spelling_text
      have hleft := written.expands coherent htarget expression
      obtain ⟨second, symbols', computed, hright, spelling', derives', same⟩ :=
        hformula.restores coherent expression written'
      refine ⟨_, _, _, ?_, .spaced (.inl rfl) spelling spelling', .set derives derives',
        .set _ same⟩
      simpa [spacedText, Mark.text] using expands_spaced (.inl rfl) hleft hright

theorem DerivesRemoval.restores {symbols : List Symbol} {action : Action}
    (derives : DerivesRemoval symbols action) (written : WrittenAction table action text) :
    RestoresAction (table.compiled expression) DerivesRemoval text action := by
  cases derives with
  | remove htarget =>
    cases written with
    | remove written =>
      obtain ⟨symbols, derives, spelling⟩ := htarget.spelling_text
      have hexpands := written.expands coherent htarget expression
      exact ⟨_, symbols, _, hexpands, spelling, .remove derives, .remove _⟩

end

end Update

end AttributeExpr
