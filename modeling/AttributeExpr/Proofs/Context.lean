import AttributeExpr.Proofs.SortCondition.Spelling
import AttributeExpr.Proofs.Token.Context
import AttributeExpr.Proofs.Update.Clause
import AttributeExpr.Proofs.Value.Exactness
/-!
Literals and paths in longer texts. A text that is accepted on its own spells the same symbols
between delimiters, as an operand of an assignment or of a condition, and as a target, and there it
is read as the same value or path.
-/
namespace AttributeExpr

open Lexer (Spells)

namespace Lexer

variable {text : List Char} {symbols : List Symbol}

theorem bounds_closing {bracket : Bracket} (h : bracket = .square ∨ bracket = .brace) :
    Lexeme.Bounds (Mark.closing bracket).text.toList := by
  rcases h with rfl | rfl
  · exact Lexeme.bounds_cons rfl []
  · exact Lexeme.bounds_cons rfl []

/-- A text before the delimiter that closes a list or a map. -/
theorem Spells.closed {bracket : Bracket} (hb : bracket = .square ∨ bracket = .brace)
    (h : Spells false text symbols) :
    Spells false (text ++ (Mark.closing bracket).text.toList)
      (symbols ++ [.mark (.closing bracket)]) := by
  apply h.append (bounds_closing hb)
  intro operand
  simpa using @Spells.mark operand (.closing bracket) [] [] trivial .nil

/-- A text as the only item of a list, or as a position. -/
theorem Spells.singleItem {operand : Bool} (h : Spells false text symbols) :
    Spells operand ('[' :: (text ++ [']']))
      (.mark (.opening .square) :: (symbols ++ [.mark (.closing .square)])) :=
  @Spells.mark operand (.opening .square) _ _ trivial (h.closed (.inl rfl))

/-- A text under the only key `k` of a map. -/
theorem Spells.singleEntry (h : Spells false text symbols) :
    Spells false ('\x7b' :: 'k' :: ':' :: ' ' :: (text ++ ['\x7d']))
      (.mark (.opening .brace) :: .name "k" :: .mark .colon ::
        (symbols ++ [.mark (.closing .brace)])) := by
  have hkey : Name.isIdentifier ['k'] = true := by decide
  have hvalue := @Spells.separator false ' ' _ _ (by decide) (h.closed (.inr rfl))
  have hcolon := @Spells.mark true .colon _ _ trivial hvalue
  have hentry := @Spells.word false ['k'] _ _ hkey (stops_cons.mpr (by decide)) hcolon
  exact @Spells.mark false (.opening .brace) _ _ trivial hentry

/-- A text as what is assigned to the attribute `x`. -/
theorem Spells.assigned (h : Spells false text symbols) :
    Spells false ('x' :: ' ' :: '=' :: ' ' :: text) (.name "x" :: .mark .equal :: symbols) := by
  have hword : Name.isIdentifier ['x'] = true := by decide
  have hsign := @SortCondition.spells_comparison .equal true text symbols h
  exact @Spells.word false ['x'] (' ' :: '=' :: ' ' :: text) _ hword (stops_cons.mpr (by decide))
    (.separator (by decide) hsign)

/-- A text as the target to which the number one is assigned. -/
theorem Spells.target (h : Spells false text symbols) :
    Spells false (text ++ [' ', '=', ' ', '1']) (symbols ++ [.mark .equal, .number "1"]) := by
  apply h.append
  · exact Lexeme.bounds_cons rfl _
  · intro operand
    have hone : Spells false ['1'] [.number "1"] :=
      .lexeme rfl (fun _ => rfl) .nil
    exact .separator (by decide) (@SortCondition.spells_comparison .equal operand _ _ hone)

end Lexer

namespace Value

variable {text : String} {value : Value} {symbols : List Symbol}

theorem exists_spells_of_parse (h : parse text = .ok value) :
    ∃ symbols, Spells false text.toList symbols ∧ Derives symbols value := by
  obtain ⟨tokens, htokens, hderives⟩ := parse_sound h
  exact ⟨_, Lexer.spells_of_tokenize htokens, hderives⟩

theorem derives_singleList (h : Derives symbols value) :
    Derives (.mark (.opening .square) :: (symbols ++ [.mark (.closing .square)]))
      (Value.list [value]) := by
  have hparts : ∀ part ∈ [(symbols, value)], Derives part.1 part.2 := by simpa using h
  simpa [enclosed, separated] using Derives.list _ hparts

theorem derives_singleMap {key : Symbol} {name : String} (hkey : keyText? key = some name)
    (h : Derives symbols value) :
    Derives (.mark (.opening .brace) :: key :: .mark .colon ::
      (symbols ++ [.mark (.closing .brace)])) (Value.map [(name, value)]) := by
  let part : EntryPart := ⟨key, name, symbols, value⟩
  have hkeys : ∀ p ∈ [part], keyText? p.key = some p.name := by simpa using hkey
  have hparts : ∀ p ∈ [part], Derives p.symbols p.value := by simpa using h
  simpa [enclosed, separated, part, EntryPart.spelled, EntryPart.entry] using
    Derives.map _ hkeys hparts (by simp)

/-- The one symbol of a number, a string or a binary. -/
inductive IsScalarSymbol : Symbol → Value → Prop
  | number (text : String) : IsScalarSymbol (.number text) (number text)
  | string (text : String) : IsScalarSymbol (.string text) (string text)
  | binary (bytes : Bytes) : IsScalarSymbol (.binary bytes) (binary bytes)

/-- A scalar is a single symbol, since the other literals are keywords or have delimiters. -/
theorem Derives.exists_scalarSymbol (h : Derives symbols value) (scalar : value.IsScalar) :
    ∃ symbol, symbols = [symbol] ∧ IsScalarSymbol symbol value := by
  cases h with
  | @scalar symbol _ hsymbol =>
    refine ⟨symbol, rfl, ?_⟩
    unfold ofSymbol? at hsymbol
    split at hsymbol <;> cases hsymbol
    case h_4 text => exact .number text
    case h_5 text => exact .string text
    case h_6 bytes => exact .binary bytes
    all_goals contradiction
  | list => contradiction
  | map => contradiction
  | set parts _ forms =>
    generalize parts.map (·.2) = items at forms
    cases forms <;> contradiction

end Value

namespace SortCondition

open Value (IsScalarSymbol)

variable {text : String} {value : Value} {symbol : Symbol}

theorem readScalar_symbol (h : IsScalarSymbol symbol value) (fault : Option ExpressionError)
    (position line : Nat) (rest : List Token) :
    readScalar fault (⟨symbol, position, line⟩ :: rest) = .ok (value, rest) := by
  cases h <;> rfl

/-- A scalar alone is to be equalled. -/
theorem reads_scalar (h : IsScalarSymbol symbol value) {tokens : List Token}
    (ht : tokens.map (·.symbol) = [symbol]) :
    read none tokens = .ok (compare .equal value, []) := by
  obtain ⟨position, line, tail, rfl, htail⟩ := Reading.exists_token ht
  obtain rfl := List.map_eq_nil_iff.mp htail
  cases h <;> rfl

theorem not_isBracket_scalar (h : IsScalarSymbol symbol value) : ¬ Nesting.IsBracket symbol := by
  rintro ⟨bracket, rfl | rfl⟩ <;> cases h

theorem parse_scalar (h : Value.parse text = .ok value) (scalar : value.IsScalar) :
    parse text = .ok (compare .equal value) ∧
      parse ("= " ++ text) = .ok (compare .equal value) := by
  obtain ⟨symbols, spells, derives⟩ := Value.exists_spells_of_parse h
  obtain ⟨symbol, rfl, hsymbol⟩ := derives.exists_scalarSymbol scalar
  have hplain := not_isBracket_scalar hsymbol
  constructor
  · exact parse_of_spells spells (by simpa using hplain) fun tokens => reads_scalar hsymbol
  · have hsign := @spells_comparison .equal false _ _ spells
    refine parse_of_spells (by simpa [Comparison.text] using hsign) ?_
      fun tokens => reads_compare (readScalar_symbol hsymbol)
    simp [not_isBracket_comparison, hplain]

end SortCondition

namespace Path

variable {text : String} {path : Path}

theorem exists_spells_of_parse (h : parse text = .ok path) :
    ∃ symbols, Spells false text.toList symbols ∧ Derives symbols path := by
  obtain ⟨hfault, hread⟩ := Reading.complete_eq_ok h
  obtain ⟨front, htokens, hfront⟩ := read_sound hread
  rw [List.append_nil] at htokens
  exact ⟨_, Lexer.spells_of_tokenize (tokenize_of_scanNested hfault), by rwa [htokens]⟩

end Path

namespace Update

variable {text : String} {symbols : List Symbol}

/-- A text that spells a single action is parsed as it. -/
theorem parse_single {clause : Clause} {action : Action} (h : DerivesAction clause symbols action)
    (spells : Spells false text.toList symbols) : parse clause text = .ok [action] := by
  have hparts : ∀ part ∈ [(symbols, action)], DerivesAction clause part.1 part.2 := by
    simpa using h
  apply parse_of_spells (List.cons_ne_nil _ _) hparts
  simpa [Value.separated] using spells

/-- What is an operand on its own may be assigned to an attribute. -/
theorem parseSet_operand {formula : Formula} (h : Derives true symbols formula)
    (spells : Spells false text.toList symbols) :
    parseSet ("x = " ++ text) = .ok [.set [.name "x"] formula] := by
  have htarget : Path.Derives [.name "x"] [.name "x"] := .path rfl .nil
  have hassign : DerivesAssignment (.name "x" :: .mark .equal :: symbols)
      (.set [.name "x"] formula) := .set htarget (.operand h)
  apply @parse_single _ _ .set _ hassign
  simpa using spells.assigned

theorem parseSet_target {path : Path} (h : Path.Derives symbols path)
    (spells : Spells false text.toList symbols) :
    parseSet (text ++ " = 1") = .ok [.set path (.literal (.number "1"))] := by
  have hone : Derives false [.number "1"] (.literal (.number "1")) :=
    .operand (.literal (.scalar rfl))
  apply @parse_single _ _ .set _ (.set h hone)
  simpa using spells.target

end Update

/-- A text that is accepted as a literal or as a path means the same wherever it may stand: in a
list and in a map, as what is assigned or compared, and as what is removed or assigned to. -/
theorem parse_in_context :
    (∀ text value, Value.parse text = .ok value →
      Value.parse ("[" ++ text ++ "]") = .ok (.list [value]) ∧
      Value.parse ("\x7bk: " ++ text ++ "\x7d") = .ok (.map [("k", value)]) ∧
      Update.parseSet ("x = " ++ text) = .ok [.set [.name "x"] (.literal value)] ∧
      (value.IsScalar → SortCondition.parse text = .ok (.compare .equal value) ∧
        SortCondition.parse ("= " ++ text) = .ok (.compare .equal value))) ∧
    ∀ text path, Path.parse text = .ok path →
      Update.parseRemove text = .ok [.remove path] ∧
      Update.parseSet (text ++ " = 1") = .ok [.set path (.literal (.number "1"))] ∧
      Update.parseSet ("x = " ++ text) = .ok [.set [.name "x"] (.path path)] := by
  constructor
  · intro text value h
    obtain ⟨symbols, spells, derives⟩ := Value.exists_spells_of_parse h
    have hkey : Value.keyText? (.name "k") = some "k" := rfl
    refine ⟨?_, ?_, Update.parseSet_operand (.literal derives) spells,
      SortCondition.parse_scalar h⟩
    · apply Value.parse_of_spells _ (Value.derives_singleList derives)
      have hitem : Spells false _ _ := spells.singleItem
      simpa using hitem
    · apply Value.parse_of_spells _ (Value.derives_singleMap hkey derives)
      simpa using spells.singleEntry
  · intro text path h
    obtain ⟨symbols, spells, derives⟩ := Path.exists_spells_of_parse h
    refine ⟨?_, Update.parseSet_target derives spells,
      Update.parseSet_operand (.path derives) spells⟩
    exact @Update.parse_single _ _ .remove _ (.remove derives) spells

set_option maxRecDepth 4000 in
/-- A signed number behind a blank, and a path with a quoted name and a keyword as a name. -/
theorem parse_in_context_signed :
    Value.parse " -0.5" = .ok (.number "-0.5") ∧
      Value.parse ("[" ++ " -0.5" ++ "]") = .ok (.list [.number "-0.5"]) ∧
      SortCondition.parse ("= " ++ " -0.5") = .ok (.compare .equal (.number "-0.5")) ∧
    Path.parse "\x60a b\x60.and[2]" = .ok [.name "a b", .name "and", .index 2] ∧
      Update.parseSet ("\x60a b\x60.and[2]" ++ " = 1") =
        .ok [.set [.name "a b", .name "and", .index 2] (.literal (.number "1"))] := by
  have hvalue : Value.parse " -0.5" = .ok (.number "-0.5") := by cbv
  have hpath : Path.parse "\x60a b\x60.and[2]" = .ok [.name "a b", .name "and", .index 2] := by cbv
  obtain ⟨onValue, onPath⟩ := parse_in_context
  obtain ⟨hlist, -, -, hcondition⟩ := onValue _ _ hvalue
  obtain ⟨-, htarget, -⟩ := onPath _ _ hpath
  exact ⟨hvalue, hlist, (hcondition rfl).2, hpath, htarget⟩

end AttributeExpr
