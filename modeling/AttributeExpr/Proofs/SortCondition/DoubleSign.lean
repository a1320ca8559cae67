import AttributeExpr.Proofs.Context
import AttributeExpr.Proofs.Decimal
import AttributeExpr.Proofs.Token.Sign
/-!
Two signs before a number. A sign that stands apart is part of the number behind it, which must not
have a sign of its own. The second sign is seen only if it is a minus: a plus sign has been dropped
from the number before the condition is read.
-/
namespace AttributeExpr.SortCondition

open Lexer (Spells signMark signChar signedText)
open Value (IsScalarSymbol)

/-- A text that begins a condition and lacks its last scalar, with the condition that it becomes. -/
inductive Awaits : String → (Value → SortCondition) → Prop where
  | scalar : Awaits "" (compare .equal)
  | comparison {mark : Mark} {comparison : Comparison}
      (h : comparison? (.mark mark) = some comparison) :
      Awaits (mark.text ++ " ") (compare comparison)
  | beginsWith : Awaits "begins_with " beginsWith
  | between {text : String} {low : Value} (h : Value.parse text = .ok low)
      (scalar : low.IsScalar) : Awaits ("between " ++ text ++ " ") (between low)
  | conj {text : String} {low : Value} (h : Value.parse text = .ok low)
      (scalar : low.IsScalar) : Awaits ("between " ++ text ++ " and ") (between low)

/-- The symbols of such a text in front of a scalar that begins with a sign. -/
structure Opening (start : String) (complete : Value → SortCondition) (symbols : List Symbol) :
    Prop where
  plain : ∀ symbol ∈ symbols, ¬ Nesting.IsBracket symbol
  spells : ∀ ⦃post : List Char⦄ ⦃further : List Symbol⦄, (∀ operand, Spells operand post further) →
    Spells false (start.toList ++ post) (symbols ++ further)
  reads : ∀ ⦃front : List Token⦄, front.map (·.symbol) = symbols →
    ∀ negative position line rest,
      let tail := ⟨.mark (signMark negative), position, line⟩ :: rest
      read none (front ++ tail) =
        (readScalar none tail).map fun (value, rest) => (complete value, rest)

/-! What each beginning spells, and how the reader goes on behind it. -/

theorem spells_comparisonMark {mark : Mark} {comparison : Comparison}
    (h : comparison? (.mark mark) = some comparison) {rest : List Char} {symbols : List Symbol}
    (hrest : Spells false rest symbols) :
    Spells false (mark.text.toList ++ ' ' :: rest) (.mark mark :: symbols) := by
  have hsplit : Lexeme.split? false (mark.text.toList ++ ' ' :: rest) =
      some (.mark mark, ' ' :: rest) := by
    cases mark <;> first | rfl | cases h
  have hends : (Symbol.mark mark).endsOperand = false := by
    cases mark <;> first | rfl | cases h
  refine .lexeme hsplit (fun _ => rfl) (.separator (by decide) ?_)
  rwa [hends]

theorem not_isBracket_of_comparison? {mark : Mark} {comparison : Comparison}
    (h : comparison? (.mark mark) = some comparison) : ¬ Nesting.IsBracket (.mark mark) := by
  rintro ⟨bracket, heq | heq⟩ <;> obtain rfl := Symbol.mark.inj heq <;> cases h

theorem opening_scalar : Opening "" (compare .equal) [] where
  plain := by simp
  spells _ _ hpost := hpost false
  reads front hfront negative position line rest := by
    obtain rfl := List.map_eq_nil_iff.mp hfront
    intro tail
    have hread : read none tail =
        (readScalar none tail).bind fun (value, rest) => .ok (compare .equal value, rest) := by
      cases negative <;> rfl
    rw [List.nil_append, hread]
    cases readScalar none tail <;> rfl

theorem opening_comparison {mark : Mark} {comparison : Comparison}
    (h : comparison? (.mark mark) = some comparison) :
    Opening (mark.text ++ " ") (compare comparison) [.mark mark] where
  plain := by simpa using not_isBracket_of_comparison? h
  spells _ _ hpost := by simpa using spells_comparisonMark h (hpost false)
  reads front hfront negative position line rest := by
    obtain ⟨_, _, behind, rfl, hnil⟩ := Reading.exists_token hfront
    obtain rfl := List.map_eq_nil_iff.mp hnil
    intro tail
    simp only [List.cons_append, List.nil_append, read, h]
    cases readScalar none tail <;> rfl

theorem opening_beginsWith :
    Opening "begins_with " beginsWith [.keyword .beginsWith "begins_with"] where
  plain := by simp [not_isBracket_keyword]
  spells _ _ hpost := by simpa using isKeyword_beginsWith.spells (hpost false)
  reads front hfront negative position line rest := by
    obtain ⟨_, _, behind, rfl, hnil⟩ := Reading.exists_token hfront
    obtain rfl := List.map_eq_nil_iff.mp hnil
    intro tail
    simp only [List.cons_append, List.nil_append, read, comparison?]
    cases readScalar none tail <;> rfl

section

variable {text : String} {low : Value} {symbol : Symbol} (h : IsScalarSymbol symbol low)
  (spells : Spells false text.toList [symbol])

include h spells

theorem opening_between :
    Opening ("between " ++ text ++ " ") (between low) [.keyword .between "between", symbol] where
  plain := by simp [not_isBracket_keyword, not_isBracket_scalar h]
  spells post _ hpost := by
    have bounds : Lexeme.Bounds (' ' :: post) := Lexeme.bounds_cons rfl post
    have hlow := spells.append bounds fun operand => .separator (by decide) (hpost operand)
    simpa using @IsKeyword.spells _ _ isKeyword_between false _ _ hlow
  reads front hfront negative position line rest := by
    obtain ⟨_, _, behind, rfl, hbehind⟩ := Reading.exists_token hfront
    obtain ⟨_, _, behind, rfl, hnil⟩ := Reading.exists_token hbehind
    obtain rfl := List.map_eq_nil_iff.mp hnil
    intro tail
    have hskip : skipConj tail = tail := by cases negative <;> rfl
    simp only [List.cons_append, List.nil_append, read, comparison?, readScalar_symbol h, bind,
      Except.bind, hskip]
    cases readScalar none tail <;> rfl

theorem opening_conj :
    Opening ("between " ++ text ++ " and ") (between low)
      [.keyword .between "between", symbol, .keyword .conj "and"] where
  plain := by simp [not_isBracket_keyword, not_isBracket_scalar h]
  spells post _ hpost := by
    have bounds : Lexeme.Bounds (' ' :: ("and".toList ++ ' ' :: post)) := Lexeme.bounds_cons rfl _
    have hlow := spells.append bounds (isKeyword_conj.follows (hpost false)).spells
    simpa using @IsKeyword.spells _ _ isKeyword_between false _ _ hlow
  reads front hfront negative position line rest := by
    obtain ⟨_, _, behind, rfl, hbehind⟩ := Reading.exists_token hfront
    obtain ⟨_, _, behind, rfl, hconj⟩ := Reading.exists_token hbehind
    obtain ⟨_, _, behind, rfl, hnil⟩ := Reading.exists_token hconj
    obtain rfl := List.map_eq_nil_iff.mp hnil
    intro tail
    simp only [List.cons_append, List.nil_append, read, comparison?, readScalar_symbol h, bind,
      Except.bind, skipConj]
    cases readScalar none tail <;> rfl

end

theorem Awaits.opening {start : String} {complete : Value → SortCondition}
    (h : Awaits start complete) : ∃ symbols, Opening start complete symbols := by
  cases h with
  | scalar => exact ⟨_, opening_scalar⟩
  | comparison h => exact ⟨_, opening_comparison h⟩
  | beginsWith => exact ⟨_, opening_beginsWith⟩
  | between h scalar =>
    obtain ⟨symbols, spells, derives⟩ := Value.exists_spells_of_parse h
    obtain ⟨symbol, rfl, hsymbol⟩ := derives.exists_scalarSymbol scalar
    exact ⟨_, opening_between hsymbol spells⟩
  | conj h scalar =>
    obtain ⟨symbols, spells, derives⟩ := Value.exists_spells_of_parse h
    obtain ⟨symbol, rfl, hsymbol⟩ := derives.exists_scalarSymbol scalar
    exact ⟨_, opening_conj hsymbol spells⟩

/-! A number with two signs. -/

theorem readScalar_sign (fault : Option ExpressionError) (negative : Bool) (position line : Nat)
    (rest : List Token) :
    readScalar fault (⟨.mark (signMark negative), position, line⟩ :: rest) =
      readSigned fault negative rest := by
  cases negative <;> rfl

theorem signed_minus (negative : Bool) (position : Nat) (numeral : String) :
    signed negative position ("-" ++ numeral) =
      refuse (GrammarError.unexpectedToken ("-" ++ numeral) position) := by
  simp [signed, Numeral.isSign]

theorem signed_unsigned (negative : Bool) (position : Nat) {numeral : String}
    (h : Numeral.Unsigned numeral.toList) :
    signed negative position numeral = .ok (.number (signedText negative numeral)) := by
  obtain ⟨digit, rest, hnumeral, hdigit⟩ := Lexer.head_of_unsigned h
  have hsign : Numeral.isSign digit = false := by
    by_contra hs
    rw [Numeral.not_isDigit_of_isSign (Bool.eq_true_of_not_eq_false hs)] at hdigit
    contradiction
  simp [signed, hnumeral, hsign, signedText]

/-- Two signs before a numeral, with layout between them. -/
def doublySigned (first second : Bool) (blanks numeral : String) : String :=
  (signMark first).text ++ blanks ++ (signMark second).text ++ numeral

theorem toList_doublySigned (first second : Bool) (blanks numeral : String) :
    (doublySigned first second blanks numeral).toList =
      signChar first :: (blanks.toList ++ signChar second :: numeral.toList) := by
  cases first <;> cases second <;> simp [doublySigned, signMark, signChar, Mark.text]

section

variable {blanks numeral : String} (hb : ∀ c ∈ blanks.toList, Lexer.isSeparator c = true)
  (hn : Numeral.Unsigned numeral.toList)

include hb hn

/-- The first sign has no numeral behind it and stays a mark, and the second becomes part of the
number. -/
theorem spells_doublySigned (first second operand : Bool) :
    Spells operand (doublySigned first second blanks numeral).toList
      [.mark (signMark first), .number (signedText second numeral)] := by
  have hstops : Stops Numeral.isDigit (blanks.toList ++ signChar second :: numeral.toList) := by
    cases hblanks : blanks.toList with
    | nil => cases second <;> exact stops_cons.mpr (by decide)
    | cons c rest =>
      have hc := hb c (by simp [hblanks])
      rcases Lexer.isSeparator_cases hc with rfl | rfl | rfl | rfl <;>
        exact stops_cons.mpr (by decide)
  rw [toList_doublySigned]
  exact .loneSign first hstops (.layout hb (Lexer.spells_signed hn false second))

/-- Behind the beginning of a condition the two signs come to the check of the second one. -/
theorem parse_awaited {start : String} {complete : Value → SortCondition}
    (h : Awaits start complete) (first second : Bool) :
    ∃ position, parse (start ++ doublySigned first second blanks numeral) =
      (signed first position (signedText second numeral)).map complete := by
  obtain ⟨symbols, plain, spells, reads⟩ := h.opening
  have hspells := spells (spells_doublySigned hb hn first second)
  have hpair : ∀ symbol ∈ [Symbol.mark (signMark first), .number (signedText second numeral)],
      ¬ Nesting.IsBracket symbol := by
    cases first <;> simp [Nesting.IsBracket, signMark]
  have hnested := (Nesting.wellNested_plain plain).append (Nesting.wellNested_plain hpair)
  obtain ⟨tokens, line, hscan, htokens⟩ :=
    @scanNested_of_spells (start ++ doublySigned first second blanks numeral) _
      (by simpa using hspells) hnested
  obtain ⟨front, tail, rfl, hfront, htail⟩ := List.map_eq_append_iff.mp htokens
  obtain ⟨position, line', behind, rfl, hbehind⟩ := Reading.exists_token htail
  obtain ⟨position', line'', behind, rfl, hnil⟩ := Reading.exists_token hbehind
  obtain rfl := List.map_eq_nil_iff.mp hnil
  refine ⟨position', ?_⟩
  rw [parse, hscan, ofScan, reads hfront, readScalar_sign]
  simp only [readSigned, Reading.lookAhead]
  cases signed first position' (signedText second numeral) <;> rfl

end

/-- A condition whose last scalar has two signs, with any layout between them. A second minus sign
is refused, and a second plus sign is passed over. -/
theorem parse_doublySigned {start : String} {complete : Value → SortCondition}
    (h : Awaits start complete) (first : Bool) {blanks : String}
    (hb : ∀ c ∈ blanks.toList, Lexer.isSeparator c = true) {numeral : String}
    (hn : Numeral.Unsigned numeral.toList) :
    (∃ position, parse (start ++ doublySigned first true blanks numeral) =
        refuse (GrammarError.unexpectedToken ("-" ++ numeral) position)) ∧
      parse (start ++ doublySigned first false blanks numeral) =
        .ok (complete (.number (signedText first numeral))) := by
  constructor
  · obtain ⟨position, hparse⟩ := parse_awaited hb hn h first true
    refine ⟨position, ?_⟩
    rw [hparse, signedText, if_pos rfl, signed_minus]
    rfl
  · obtain ⟨position, hparse⟩ := parse_awaited hb hn h first false
    rw [hparse, signedText, if_neg Bool.false_ne_true, signed_unsigned first position hn]
    rfl

theorem parse_doublySigned_between :
    Value.parse "1" = .ok (.number "1") ∧ Numeral.Unsigned "5".toList ∧
      ∃ position, parse ("between 1 " ++ doublySigned false true " \n" "5") =
        refuse (GrammarError.unexpectedToken "-5" position) := by
  have hlow : Value.parse "1" = .ok (.number "1") := by cbv
  have hblanks : ∀ c ∈ " \n".toList, Lexer.isSeparator c = true := by
    simp [Lexer.isSeparator]
  have hn : Numeral.Unsigned "5".toList := Numeral.unsigned_of_isUnsigned (by decide)
  exact ⟨hlow, hn, (parse_doublySigned (.between hlow rfl) false hblanks hn).1⟩

theorem parse_plusBehindMinus :
    "= " ++ doublySigned true false "" "5" = "= -+5" ∧
      parse "= -+5" = .ok (compare .equal (.number "-5")) := by
  constructor
  · cbv
  · cbv

end AttributeExpr.SortCondition
