import AttributeExpr.Proofs.Token.Sign
import AttributeExpr.Proofs.Update.Counter
/-!
A sign between a path and a number. Behind an operand the sign is an operation, whether or not
blanks stand around it. A keyword that is taken as a name ends no operand, and a sign behind it
belongs to the number unless a blank parts the two.
-/
namespace AttributeExpr.Update

open Lexer (Spells signChar signMark signedSymbols)

/-! What is assigned to an attribute is read exactly as the grammar derives it. -/

theorem symbolsOf_of_spells {text : String} {symbols : List Symbol}
    (spells : Spells false text.toList symbols) (nested : Nesting.WellNested symbols) :
    symbolsOf text = symbols := by
  obtain ⟨tokens, line, hscan, htokens⟩ := scanNested_of_spells spells nested
  rw [symbolsOf, hscan, htokens]

/-- A single assignment is derived from all symbols of the text. -/
theorem parseSet_single {text : String} {action : Action} (h : parseSet text = .ok [action]) :
    DerivesAssignment (symbolsOf text) action := by
  obtain ⟨parts, -, hsymbols, hparts, hactions⟩ := parseSet_sound h
  obtain ⟨⟨symbols, action⟩, rfl, rfl⟩ := List.map_eq_singleton_iff.mp hactions.symm
  rw [hsymbols]
  simpa [Value.separated] using hparts

theorem DerivesAssignment.formula {symbols : List Symbol} {formula : Formula}
    (h : DerivesAssignment (.name "x" :: .mark .equal :: symbols) (.set [.name "x"] formula)) :
    Derives false symbols formula := by
  generalize hall : (Symbol.name "x" :: .mark .equal :: symbols) = all at h
  cases h with
  | set htarget hformula =>
    cases htarget with
    | path _ further =>
      cases further
      obtain ⟨-, hrest⟩ := List.cons.inj hall
      obtain rfl := (List.cons.inj hrest).2
      exact hformula

theorem parseSet_assigned_iff {text : String} {symbols : List Symbol} {formula : Formula}
    (spells : Spells false text.toList symbols) (nested : Nesting.WellNested symbols) :
    parseSet ("x = " ++ text) = .ok [.set [.name "x"] formula] ↔
      Derives false symbols formula := by
  have hassigned : Spells false ("x = " ++ text).toList (.name "x" :: .mark .equal :: symbols) := by
    simpa using spells.assigned
  constructor
  · intro h
    have hassignment := parseSet_single h
    have hwell : Nesting.WellNested (.name "x" :: .mark .equal :: symbols) :=
      .plain (by simp [Nesting.IsBracket]) (.plain (by simp [Nesting.IsBracket]) nested)
    rw [symbolsOf_of_spells hassigned hwell] at hassignment
    exact hassignment.formula
  · intro h
    have htarget : Path.Derives [.name "x"] [.name "x"] := .path rfl .nil
    exact @parse_single _ _ .set _ (.set htarget h) hassigned

/-- A sum or difference of a path and a number is the path, the sign and the number. -/
theorem derives_sum_iff {symbols : List Symbol} {op : ArithmeticOp} {path : Path}
    {numeral : String} :
    Derives false symbols (.arithmetic op (.path path) (.literal (.number numeral))) ↔
      ∃ first, symbols = first ++ [.mark (opMark op), .number numeral] ∧
        Path.Derives first path := by
  constructor
  · intro h
    cases h with
    | operand h => cases h
    | arithmetic hleft hright =>
      cases hleft with
      | path hpath =>
        cases hright with
        | literal hvalue =>
          obtain ⟨symbol, rfl, hsymbol⟩ := hvalue.exists_scalarSymbol rfl
          cases hsymbol
          exact ⟨_, rfl, hpath⟩
  · rintro ⟨first, rfl, hpath⟩
    exact .arithmetic (.path hpath) (.literal (.scalar rfl)) (isAddend_path path)
      (isAddend_number numeral)

/-- What is read as a sum has a path whose positions can be read. -/
theorem readable_of_parseSet {text name numeral : String} {segments : List Segment}
    {op : ArithmeticOp} {target : Path}
    (h : parseSet text = .ok [.set target
      (.arithmetic op (.path (.name name :: segments)) (.literal (.number numeral)))]) :
    ∀ segment ∈ segments, Path.IsReadable segment := by
  have hassignment := parseSet_single h
  generalize symbolsOf text = symbols at hassignment
  cases hassignment with
  | set _ hformula =>
    obtain ⟨first, -, hpath⟩ := derives_sum_iff.mp hformula
    cases hpath with
    | path _ further => exact further.readable

/-! The sign behind a path. -/

/-- Whether an operation subtracts. -/
def isMinus : ArithmeticOp → Bool
  | .plus => false
  | .minus => true

theorem toList_text_op (op : ArithmeticOp) : op.text.toList = [signChar (isMinus op)] := by
  cases op <;> rfl

theorem opMark_eq (op : ArithmeticOp) : opMark op = signMark (isMinus op) := by
  cases op <;> rfl

theorem signedSymbols_plain (operand negative : Bool) (numeral : String) :
    ∀ symbol ∈ signedSymbols operand negative numeral, ¬ Nesting.IsBracket symbol := by
  cases operand <;> cases negative <;>
    simp [signedSymbols, signMark, Nesting.IsBracket]

/-- The symbols of a path and of a numeral that has a sign before it. -/
def joinedSymbols (path : Path) (op : ArithmeticOp) (numeral : String) : List Symbol :=
  path.symbols ++ signedSymbols (Lexer.endsOperand false path.symbols) (isMinus op) numeral

section

variable {name : String} {segments : List Segment} {op : ArithmeticOp} {numeral : String}
  (h : Numeral.Unsigned numeral.toList)
  (readable : ∀ segment ∈ segments, Path.IsReadable segment)

include readable

theorem wellNested_joined :
    Nesting.WellNested (joinedSymbols (.name name :: segments) op numeral) :=
  (commasInside_path (Path.derives_symbols name readable)).wellNested.append
    (Nesting.wellNested_plain (signedSymbols_plain _ _ numeral))

/-- The path is followed by a sign of its own unless the sign belongs to the number. -/
theorem derives_joined_iff :
    Derives false (joinedSymbols (.name name :: segments) op numeral)
        (.arithmetic op (.path (.name name :: segments)) (.literal (.number numeral))) ↔
      Path.endsInKeyword (.name name :: segments) = false := by
  have hpath := Path.derives_symbols name readable
  rw [derives_sum_iff, joinedSymbols, Path.endsOperand_symbols]
  cases Path.endsInKeyword (.name name :: segments) with
  | false =>
    simp only [Bool.not_false, signedSymbols, ↓reduceIte, opMark_eq, iff_true]
    exact ⟨_, rfl, hpath⟩
  | true =>
    simp only [Bool.not_true, signedSymbols, Bool.false_eq_true, ↓reduceIte, Bool.true_eq_false,
      iff_false, not_exists, not_and]
    intro first heq
    -- The number has taken the sign, and a path has no signs.
    rw [List.append_cons first] at heq
    have hsign : .mark (opMark op) ∈ Path.symbols (.name name :: segments) := by
      rw [(List.append_inj' heq rfl).1]
      simp
    have hmark := hpath.mark_mem hsign
    cases op <;> simp [opMark] at hmark

include h

theorem spells_joined {blanks : List Char} (hb : ∀ c ∈ blanks, Lexer.isSeparator c = true) :
    Spells false
      ((Path.text (.name name :: segments)).toList ++
        (blanks ++ (op.text.toList ++ numeral.toList)))
      (joinedSymbols (.name name :: segments) op numeral) := by
  have hstops : Stops Lexer.extendsWord (blanks ++ (op.text.toList ++ numeral.toList)) := by
    cases blanks with
    | nil => cases op <;> exact stops_cons.mpr (by decide)
    | cons c blanks =>
      have hc := Lexer.extendsOperand_of_isSeparator (hb c (by simp))
      exact stops_cons.mpr (Bool.or_eq_false_iff.mp hc).1
  apply Path.spells_text name readable hstops
  rw [toList_text_op]
  exact .layout hb (Lexer.spells_signed h _ (isMinus op))

/-- Blanks before the sign do not matter where none stands behind it. -/
theorem parseSet_joined_iff {blanks : List Char} (hb : ∀ c ∈ blanks, Lexer.isSeparator c = true) :
    parseSet ("x = " ++ (Path.text (.name name :: segments) ++
        (String.ofList blanks ++ (op.text ++ numeral)))) =
      .ok [.set [.name "x"]
        (.arithmetic op (.path (.name name :: segments)) (.literal (.number numeral)))] ↔
      Path.endsInKeyword (.name name :: segments) = false := by
  have hspells := @spells_joined name _ op _ h readable _ hb
  rw [parseSet_assigned_iff (by simpa using hspells) (wellNested_joined readable),
    derives_joined_iff readable]

/-- Between blanks, the sign is an operation whatever the path ends with. -/
theorem parseSet_spaced :
    parseSet ("x = " ++ (Path.text (.name name :: segments) ++
        (" " ++ (op.text ++ (" " ++ numeral))))) =
      .ok [.set [.name "x"]
        (.arithmetic op (.path (.name name :: segments)) (.literal (.number numeral)))] := by
  have hpath := Path.derives_symbols name readable
  have hformula := (@derives_sum_iff _ op _ numeral).mpr ⟨_, rfl, hpath⟩
  have hspelling : Lexer.Spelling (spacedText (opMark op) _ _) _ :=
    .spaced (isSpaced_opMark op) (Path.spelling_symbols name readable) (.number (.plain h))
  refine (parseSet_assigned_iff ?_ hformula.commasInside.wellNested).mpr hformula
  have htext : op.text.toList = (opMark op).text.toList := by cases op <;> rfl
  simpa [spacedText, htext] using hspelling.spells

end

/-- A path with a number added to it or subtracted from it, with blanks on both sides of the sign,
before the sign only, or without blanks. Between blanks the sign is the operation for every path
whose positions can be read. Where no blank stands behind the sign, it is the operation unless the
path ends with a name that is written as a keyword. -/
theorem parseSet_sum_iff (name : String) (segments : List Segment) (op : ArithmeticOp)
    {numeral : String} (h : Numeral.Unsigned numeral.toList) :
    let path : Path := .name name :: segments
    let sum : Action := .set [.name "x"] (.arithmetic op (.path path) (.literal (.number numeral)))
    let readable := ∀ segment ∈ segments, Path.IsReadable segment
    (parseSet ("x = " ++ path.text ++ " " ++ op.text ++ " " ++ numeral) = .ok [sum] ↔ readable) ∧
      (parseSet ("x = " ++ path.text ++ " " ++ op.text ++ numeral) = .ok [sum] ↔
        readable ∧ path.endsInKeyword = false) ∧
      (parseSet ("x = " ++ path.text ++ op.text ++ numeral) = .ok [sum] ↔
        readable ∧ path.endsInKeyword = false) := by
  intro path sum readable
  have hreadable (text : String) (hparse : parseSet text = .ok [sum]) : readable :=
    readable_of_parseSet hparse
  have joined (blanks : List Char) (hb : ∀ c ∈ blanks, Lexer.isSeparator c = true) :
      parseSet ("x = " ++ (path.text ++ (String.ofList blanks ++ (op.text ++ numeral)))) =
        .ok [sum] ↔ readable ∧ path.endsInKeyword = false := by
    constructor
    · intro hparse
      have hr := hreadable _ hparse
      exact ⟨hr, (parseSet_joined_iff h hr hb).mp hparse⟩
    · rintro ⟨hr, hend⟩
      exact (parseSet_joined_iff h hr hb).mpr hend
  simp only [String.append_assoc]
  refine ⟨⟨hreadable _, fun hr => parseSet_spaced h hr⟩, ?_, ?_⟩
  · exact joined [' '] (by simp [Lexer.isSeparator])
  · simpa using joined [] (by simp)

theorem parseSet_sum_position :
    Numeral.Unsigned "0.5".toList ∧
      parseSet ("x = " ++ Path.text [.name "and", .name "a b", .index 3] ++ "-" ++ "0.5") =
        .ok [.set [.name "x"] (.arithmetic .minus (.path [.name "and", .name "a b", .index 3])
          (.literal (.number "0.5")))] := by
  have h : Numeral.Unsigned "0.5".toList := Numeral.unsigned_of_isUnsigned (by decide)
  have hindex : Path.IsReadable (.index 3) := ⟨3, rfl, by decide⟩
  have readable : ∀ segment ∈ [.name "a b", .index 3], Path.IsReadable segment := by
    simpa [Path.IsReadable] using hindex
  exact ⟨h, (parseSet_sum_iff "and" _ .minus h).2.2.mpr ⟨readable, rfl⟩⟩

set_option maxRecDepth 4000 in
/-- Behind a keyword that is taken as a name the sign belongs to the number, for which there is no
place then. -/
theorem parseSet_between_refused :
    parseSet ("x = " ++ Path.text [.name "between"] ++ ArithmeticOp.plus.text ++ "1") =
        refuse (GrammarError.unexpectedToken "1" 11) ∧
      parseSet ("x = " ++ Path.text [.name "between"] ++ " " ++ ArithmeticOp.plus.text ++ "1") =
        refuse (GrammarError.unexpectedToken "1" 12) := by
  constructor
  · cbv
  · cbv

end AttributeExpr.Update
