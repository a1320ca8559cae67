import AttributeExpr.Proofs.Path.Grammar
import AttributeExpr.Proofs.Text.Digits
import AttributeExpr.Proofs.Token.Operand
/-!
Paths as they are written. The text of a path spells symbols from which the grammar derives the path
again, whatever its names are. This takes a name in front and positions that can be read. An operand
ends with a written path unless its last name is a keyword.
-/
namespace AttributeExpr.Path

/-- A position counts from zero and is short enough to be read. -/
def IsReadable : Segment → Prop
  | .name _ => True
  | .index index => ∃ n : Nat, index = n ∧ (toString n).toList.length ≤ Numeral.maxDigits

theorem DerivesSegments.readable {symbols : List Symbol} {segments : List Segment}
    (h : DerivesSegments symbols segments) : ∀ segment ∈ segments, IsReadable segment := by
  induction h with
  | nil => simp
  | name _ _ ih => exact List.forall_mem_cons.mpr ⟨trivial, ih⟩
  | index hindex _ ih =>
    have hshort := Decimal.length_toString_ofDigits_le hindex.nonempty hindex.digits
    exact List.forall_mem_cons.mpr ⟨⟨_, rfl, hshort.trans hindex.short⟩, ih⟩

/-- The written segments behind the first. -/
def segmentsText (segments : List Segment) : List Char :=
  segments.flatMap fun segment => (segmentText segment).toList

theorem toList_text (name : String) (segments : List Segment) :
    (text (.name name :: segments)).toList = (Name.quote name).toList ++ segmentsText segments := by
  rw [text, String.toList_append, String.toList_join, List.flatMap_map]
  rfl

theorem toList_position (n : Nat) :
    ("[" ++ toString (n : Int) ++ "]").toList = '[' :: ((toString n).toList ++ [']']) := by
  rw [String.toList_append, String.toList_append]
  rfl

/-- The symbols of a segment that is not the first, as it is written. -/
def segmentSymbols : Segment → List Symbol
  | .name name => [.mark .dot, Lexer.nameSymbol name]
  | .index index =>
    [.mark (.opening .square), .number (toString index), .mark (.closing .square)]

/-- The symbols of the written segments behind the first. -/
def segmentsSymbols (segments : List Segment) : List Symbol := segments.flatMap segmentSymbols

theorem derivesSegments_symbols {segments : List Segment}
    (h : ∀ segment ∈ segments, IsReadable segment) :
    DerivesSegments (segmentsSymbols segments) segments := by
  induction segments with
  | nil => exact .nil
  | cons segment segments ih =>
    obtain ⟨hsegment, hsegments⟩ := List.forall_mem_cons.mp h
    cases segment with
    | name name => exact .name (Lexer.nameText?_nameSymbol name) (ih hsegments)
    | index index =>
      obtain ⟨n, rfl, hshort⟩ := hsegment
      have hindex : IsIndex (toString n) :=
        ⟨Decimal.toString_ne_nil n, Decimal.isDigit_toString n, hshort⟩
      have hderives := DerivesSegments.index hindex (ih hsegments)
      rwa [Decimal.ofDigits_toString] at hderives

/-- The written segments go on no word that stands before them. -/
theorem stops_segmentsText (segments : List Segment) {rest : List Char}
    (hs : Stops Lexer.extendsWord rest) :
    Stops Lexer.extendsWord (segmentsText segments ++ rest) := by
  cases segments with
  | nil => exact hs
  | cons segment segments =>
    cases segment <;>
      simp [segmentsText, segmentText, Lexer.extendsWord, isWordChar, isWordStart, Numeral.isDigit]

/-- What follows a position in brackets is spelled behind the bracket. -/
theorem spells_index {n : Nat} {rest : List Char} {symbols : List Symbol} (operand : Bool)
    (h : Lexer.Spells true rest symbols) :
    Lexer.Spells operand ('[' :: ((toString n).toList ++ ']' :: rest))
      (.mark (.opening .square) :: .number (toString n) :: .mark (.closing .square) ::
        symbols) := by
  have hclose : Lexer.Spells true (']' :: rest) (.mark (.closing .square) :: symbols) :=
    @Lexer.Spells.mark _ (.closing .square) _ _ trivial h
  refine @Lexer.Spells.mark _ (.opening .square) _ _ trivial ?_
  have hstops : Stops Numeral.continues (']' :: rest) := stops_cons.mpr (by decide)
  refine .lexeme (Lexer.split?_unsigned (Decimal.unsigned_toString n) hstops false) ?_ hclose
  intro position
  rw [Lexeme.symbol, String.ofList_toList]

/-- The written segments spell their symbols in front of any text that goes on no word, and whether
an operand ends before that text depends on the last of them. -/
theorem spells_segments {segments : List Segment}
    (h : ∀ segment ∈ segments, IsReadable segment) {rest : List Char} {further : List Symbol}
    (hs : Stops Lexer.extendsWord rest) {operand : Bool}
    (hrest : Lexer.Spells (Lexer.endsOperand operand (segmentsSymbols segments)) rest further) :
    Lexer.Spells operand (segmentsText segments ++ rest) (segmentsSymbols segments ++ further) := by
  induction segments generalizing operand with
  | nil => exact hrest
  | cons segment segments ih =>
    obtain ⟨hsegment, hsegments⟩ := List.forall_mem_cons.mp h
    cases segment with
    | name name =>
      have htext : segmentsText (.name name :: segments) ++ rest =
          '.' :: ((Name.quote name).toList ++ (segmentsText segments ++ rest)) := by
        simp [segmentsText, segmentText]
      rw [htext]
      exact @Lexer.Spells.mark _ .dot _ _ trivial
        (.quote (stops_segmentsText segments hs) (ih hsegments hrest))
    | index index =>
      obtain ⟨n, rfl, hshort⟩ := hsegment
      have htext : segmentsText (.index n :: segments) ++ rest =
          '[' :: ((toString n).toList ++ ']' :: (segmentsText segments ++ rest)) := by
        rw [segmentsText, List.flatMap_cons, segmentText, toList_position]
        simp [segmentsText]
      rw [htext]
      exact spells_index operand (ih hsegments hrest)

/-- The symbols of a written path. -/
def symbols : Path → List Symbol
  | .name name :: segments => Lexer.nameSymbol name :: segmentsSymbols segments
  | path => segmentsSymbols path

/-- The path ends with a name that is written as a keyword. -/
def endsInKeyword (path : Path) : Bool :=
  match path.getLast? with
  | some (.name name) => Name.isBareKeyword name
  | _ => false

theorem endsOperand_symbols (name : String) (segments : List Segment) :
    Lexer.endsOperand false (symbols (.name name :: segments)) =
      !endsInKeyword (.name name :: segments) := by
  rcases List.eq_nil_or_concat segments with rfl | ⟨front, last, rfl⟩
  · exact Lexer.endsOperand_nameSymbol name
  · rw [endsInKeyword, List.concat_eq_append, ← List.cons_append, List.getLast?_concat]
    cases last with
    | name name =>
      simp [symbols, segmentsSymbols, segmentSymbols, Lexer.endsOperand,
        Lexer.endsOperand_nameSymbol]
    | index index =>
      simp [symbols, segmentsSymbols, segmentSymbols, Lexer.endsOperand, Symbol.endsOperand]

section

variable (name : String) {segments : List Segment}
  (h : ∀ segment ∈ segments, IsReadable segment)

include h

theorem derives_symbols : Derives (symbols (.name name :: segments)) (.name name :: segments) :=
  .path (Lexer.nameText?_nameSymbol name) (derivesSegments_symbols h)

theorem spells_text {rest : List Char} {further : List Symbol} {operand : Bool}
    (hs : Stops Lexer.extendsWord rest)
    (hrest : Lexer.Spells (Lexer.endsOperand operand (symbols (.name name :: segments))) rest
      further) :
    Lexer.Spells operand ((text (.name name :: segments)).toList ++ rest)
      (symbols (.name name :: segments) ++ further) := by
  rw [toList_text, List.append_assoc]
  exact .quote (stops_segmentsText segments hs) (spells_segments h hs hrest)

theorem spelling_symbols :
    Lexer.Spelling (text (.name name :: segments)).toList (symbols (.name name :: segments)) :=
  fun _ _ hf =>
    spells_text name h (hf.stops.mono fun _ => Lexer.extendsOperand_of_extendsWord) (hf.spells _)

end

/-- What has been derived as a path is written so that the same path is derived again. -/
theorem Derives.spelling_text {symbols : List Symbol} {path : Path} (h : Derives symbols path) :
    ∃ symbols', Derives symbols' path ∧ Lexer.Spelling (text path).toList symbols' := by
  cases h with
  | path _ further =>
    exact ⟨_, derives_symbols _ further.readable, spelling_symbols _ further.readable⟩

end AttributeExpr.Path
