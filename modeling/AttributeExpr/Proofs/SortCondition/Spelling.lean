import AttributeExpr.Proofs.SortCondition
import AttributeExpr.Proofs.Token.Nesting
import AttributeExpr.Proofs.Token.Operand
import Mathlib
/-!
The text of a condition is read as the condition. Every value of it spells a single symbol, and the
comparison sign or the keywords around the values are cut off at the blanks behind them. Only
conditions that are read from their own text are read from any text, so that rendering what was
parsed and parsing it again comes to the same condition.
-/
namespace AttributeExpr

open Lexer (Spells Spelling Follows)

/-- The text of the value spells the symbol, which is read as the value. -/
structure Value.SpelledBy (value : Value) (symbol : Symbol) : Prop where
  spelling : Spelling value.render.toList [symbol]
  plain : ¬ Nesting.IsBracket symbol
  reads : ∀ fault position line rest,
    SortCondition.readScalar fault (⟨symbol, position, line⟩ :: rest) = .ok (value, rest)

theorem Value.IsOperand.exists_symbol {value : Value} (h : value.IsOperand) :
    ∃ symbol, value.SpelledBy symbol := by
  cases h with
  | @number text h =>
    refine ⟨.number text, .number h, ?_, fun _ _ _ _ => rfl⟩
    rintro ⟨bracket, h | h⟩ <;> cases h
  | string text =>
    refine ⟨.string text, .stringLiteral text, ?_, fun _ _ _ _ => rfl⟩
    rintro ⟨bracket, h | h⟩ <;> cases h
  | binary bytes =>
    refine ⟨.binary bytes, .base64Literal bytes, ?_, fun _ _ _ _ => rfl⟩
    rintro ⟨bracket, h | h⟩ <;> cases h

namespace SortCondition

/-- The sign of a comparison. -/
def comparisonMark : Comparison → Mark
  | .equal => .equal
  | .less => .less
  | .lessEqual => .lessEqual
  | .greater => .greater
  | .greaterEqual => .greaterEqual

theorem comparison?_mark (comparison : Comparison) :
    comparison? (.mark (comparisonMark comparison)) = some comparison := by
  cases comparison <;> rfl

theorem spells_comparison (comparison : Comparison) {operand : Bool} {rest : List Char}
    {symbols : List Symbol} (h : Spells false rest symbols) :
    Spells operand (comparison.text.toList ++ ' ' :: rest)
      (.mark (comparisonMark comparison) :: symbols) := by
  have hsplit : Lexeme.split? operand (comparison.text.toList ++ ' ' :: rest) =
      some (.mark (comparisonMark comparison), ' ' :: rest) := by
    cases operand <;> cases comparison <;> rfl
  have hends : (Symbol.mark (comparisonMark comparison)).endsOperand = false := by
    cases comparison <;> rfl
  refine .lexeme hsplit (fun _ => rfl) (.separator (by decide) ?_)
  rwa [hends]

/-- A keyword of conditions, in lower case. -/
structure IsKeyword (word : String) (keyword : Keyword) : Prop where
  identifier : Name.isIdentifier word.toList = true
  symbol : Lexer.wordSymbol word.toList = .keyword keyword word
  opens : (Symbol.keyword keyword word).endsOperand = false

theorem isKeyword_between : IsKeyword "between" .between where
  identifier := by decide
  symbol := by rfl
  opens := rfl

theorem isKeyword_conj : IsKeyword "and" .conj where
  identifier := by decide
  symbol := by rfl
  opens := rfl

set_option maxRecDepth 2000 in
theorem isKeyword_beginsWith : IsKeyword "begins_with" .beginsWith where
  identifier := by decide
  symbol := by rfl
  opens := rfl

theorem IsKeyword.spells {word : String} {keyword : Keyword} (h : IsKeyword word keyword)
    {operand : Bool} {rest : List Char} {symbols : List Symbol}
    (hrest : Spells false rest symbols) :
    Spells operand (word.toList ++ ' ' :: rest) (.keyword keyword word :: symbols) := by
  have hword := @Spells.word operand word.toList (' ' :: rest) symbols h.identifier
    (stops_cons.mpr (by decide)) (.separator (by decide) (by rwa [h.symbol, h.opens]))
  rwa [h.symbol] at hword

theorem IsKeyword.follows {word : String} {keyword : Keyword} (h : IsKeyword word keyword)
    {rest : List Char} {symbols : List Symbol} (hrest : Spells false rest symbols) :
    Follows (' ' :: (word.toList ++ ' ' :: rest)) (.keyword keyword word :: symbols) :=
  ⟨stops_cons.mpr (by decide), fun _ => .separator (by decide) (h.spells hrest)⟩

/-- A text is parsed as what its symbols are read as. -/
theorem parse_of_spells {text : String} {symbols : List Symbol} {condition : SortCondition}
    (spells : Spells false text.toList symbols)
    (plain : ∀ symbol ∈ symbols, ¬ Nesting.IsBracket symbol)
    (reads : ∀ tokens : List Token, tokens.map (·.symbol) = symbols →
      read none tokens = .ok (condition, [])) : parse text = .ok condition := by
  obtain ⟨tokens, line, hscan, htokens⟩ :=
    scanNested_of_spells spells (Nesting.wellNested_plain plain)
  rw [parse, hscan, ofScan, Reading.complete, reads tokens htokens]
  rfl

/-- The tokens of two symbols, of which the second is read as a value. -/
theorem reads_compare {comparison : Comparison} {value : Value} {symbol : Symbol}
    (h : ∀ fault position line rest,
      readScalar fault (⟨symbol, position, line⟩ :: rest) = .ok (value, rest)) {tokens : List Token}
    (ht : tokens.map (·.symbol) = [.mark (comparisonMark comparison), symbol]) :
    read none tokens = .ok (compare comparison value, []) := by
  obtain ⟨sign, tail, rfl, hsign, htail⟩ := List.map_eq_cons_iff.mp ht
  obtain ⟨_, _, tail, rfl, hnil⟩ := Reading.exists_token htail
  obtain rfl := List.map_eq_nil_iff.mp hnil
  simp [read, hsign, comparison?_mark, h, bind, Except.bind, pure, Except.pure]

theorem reads_between {word conj : String} {low high : Value} {first second : Symbol}
    (hlow : low.SpelledBy first) (hhigh : high.SpelledBy second) {tokens : List Token}
    (ht : tokens.map (·.symbol) =
      [.keyword .between word, first, .keyword .conj conj, second]) :
    read none tokens = .ok (between low high, []) := by
  obtain ⟨_, _, more, rfl, hlow'⟩ := Reading.exists_token ht
  obtain ⟨_, _, more, rfl, hconj⟩ := Reading.exists_token hlow'
  obtain ⟨_, _, more, rfl, hhigh'⟩ := Reading.exists_token hconj
  obtain ⟨_, _, more, rfl, hnil⟩ := Reading.exists_token hhigh'
  obtain rfl := List.map_eq_nil_iff.mp hnil
  simp [read, comparison?, skipConj, hlow.reads, hhigh.reads, bind, Except.bind, pure, Except.pure]

theorem reads_beginsWith {word : String} {start : Value} {symbol : Symbol}
    (h : start.SpelledBy symbol) {tokens : List Token}
    (ht : tokens.map (·.symbol) = [.keyword .beginsWith word, symbol]) :
    read none tokens = .ok (beginsWith start, []) := by
  obtain ⟨_, _, tail, rfl, htail⟩ := Reading.exists_token ht
  obtain ⟨_, _, tail, rfl, hnil⟩ := Reading.exists_token htail
  obtain rfl := List.map_eq_nil_iff.mp hnil
  simp [read, comparison?, h.reads, bind, Except.bind, pure, Except.pure]

theorem not_isBracket_comparison (comparison : Comparison) :
    ¬ Nesting.IsBracket (.mark (comparisonMark comparison)) := by
  rintro ⟨bracket, h | h⟩ <;> cases comparison <;> cases h

theorem not_isBracket_keyword (keyword : Keyword) (word : String) :
    ¬ Nesting.IsBracket (.keyword keyword word) := by
  rintro ⟨bracket, h | h⟩ <;> cases h

/-- A rendered condition is parsed as it was. -/
theorem WellFormed.parse {condition : SortCondition} (h : condition.WellFormed) :
    parse condition.render = .ok condition := by
  cases condition with
  | compare comparison value =>
    obtain ⟨symbol, hvalue⟩ := (forall_operands_compare.mp h).exists_symbol
    have spells := @spells_comparison comparison false _ _ hvalue.spelling.spells
    refine parse_of_spells (by simpa [render] using spells) ?_ fun tokens =>
      reads_compare hvalue.reads
    simp [not_isBracket_comparison, hvalue.plain]
  | between low high =>
    obtain ⟨hlow, hhigh⟩ := forall_operands_between.mp h
    obtain ⟨first, hfirst⟩ := hlow.exists_symbol
    obtain ⟨second, hsecond⟩ := hhigh.exists_symbol
    have hbehind := hfirst.spelling (isKeyword_conj.follows hsecond.spelling.spells)
    have spells := @IsKeyword.spells _ _ isKeyword_between false _ _ hbehind
    refine parse_of_spells (by simpa [render] using spells) ?_
      fun tokens => reads_between hfirst hsecond
    simp [not_isBracket_keyword, hfirst.plain, hsecond.plain]
  | beginsWith start =>
    obtain ⟨symbol, hstart⟩ := (forall_operands_beginsWith.mp h).exists_symbol
    have spells := @IsKeyword.spells _ _ isKeyword_beginsWith false _ _ hstart.spelling.spells
    refine parse_of_spells (by simpa [render] using spells) ?_
      fun tokens => reads_beginsWith hstart
    simp [not_isBracket_keyword, hstart.plain]

/-- The text of a condition is parsed as the condition just when its values are operands. All values
of a parsed condition are, so that its own text is parsed as it, however it was written. -/
theorem parse_render_iff_wellFormed (condition : SortCondition) :
    (parse condition.render = .ok condition ↔ condition.WellFormed) ∧
      ∀ text, parse text = .ok condition →
        condition.WellFormed ∧ parse condition.render = .ok condition := by
  refine ⟨⟨parse_wellFormed, WellFormed.parse⟩, fun text h => ?_⟩
  have wellFormed := parse_wellFormed h
  exact ⟨wellFormed, wellFormed.parse⟩

set_option maxRecDepth 4000 in
/-- A plus sign, the missing `and` and single quotes are not written again. -/
theorem parse_render_iff_wellFormed_quotes :
    let condition := between (.number "1") (.string "a\"b")
    parse "Between +1'a\"b'" = .ok condition ∧
      condition.render = "between 1 and \"a\\\"b\"" ∧
      condition.WellFormed ∧ parse condition.render = .ok condition := by
  intro condition
  have h : parse "Between +1'a\"b'" = .ok condition := by cbv
  exact ⟨h, by cbv, (parse_render_iff_wellFormed condition).2 _ h⟩

/-- The text that is written for a condition on a surrogate is not parsed. -/
theorem parse_equal_surrogate : parse ("= " ++ StringBody.literalOf [0xD800]) =
    .error (.refused (.lexical (.brokenSurrogatePair 3))) := by
  cbv

end SortCondition

end AttributeExpr
