import AttributeExpr.Proofs.Token.Scan
import AttributeExpr.Proofs.Update.Clause
import AttributeExpr.Proofs.Update.Restoring
import Mathlib
/-!
Compiling updates loses nothing. If every placeholder of a compiled clause is replaced by what it
stands for, the text is parsed as the actions that were compiled. Only the spelling of a literal may
differ, since equal values share a placeholder.
-/
namespace AttributeExpr.Update

open CompiledExpression (Expands IsPlain)

/-! The literals of what is parsed are well-formed, as the numbers among the tokens are numerals. -/

/-- All numbers among the symbols are numerals. -/
def Lexical (symbols : List Symbol) : Prop := ∀ symbol ∈ symbols, symbol.Lexical

theorem lexical_symbolsOf (text : String) : Lexical (symbolsOf text) :=
  List.forall_mem_map.mpr (scanNested_lexical text)

theorem Lexical.subset {symbols symbols' : List Symbol} (h : Lexical symbols)
    (hsub : symbols' ⊆ symbols) : Lexical symbols' :=
  fun symbol hsymbol => h symbol (hsub hsymbol)

theorem callSymbols_subset (name : String) (first second : List Symbol) :
    first ⊆ callSymbols name first second ∧ second ⊆ callSymbols name first second := by
  constructor <;> intro symbol h <;> simp [callSymbols, h]

theorem Derives.wellFormed {operand : Bool} {symbols : List Symbol} {formula : Formula}
    (h : Derives operand symbols formula) (lexical : Lexical symbols) :
    ∀ value ∈ formula.literals, value.WellFormed fun text => Numeral.Signed text.toList := by
  induction h with
  | literal h =>
    have hvalue := h.wellFormed fun symbol hsymbol text htext => lexical symbol hsymbol text htext
    simpa [Formula.literals] using hvalue
  | path h => simp [Formula.literals]
  | @listAppend first second _ _ _ _ ih ih' =>
    obtain ⟨hfirst, hsecond⟩ := callSymbols_subset "list_append" first second
    rw [Formula.literals, List.forall_mem_append]
    exact ⟨ih (lexical.subset hfirst), ih' (lexical.subset hsecond)⟩
  | @ifNotExists first second _ _ _ _ ih =>
    exact ih (lexical.subset (callSymbols_subset "if_not_exists" first second).2)
  | operand _ ih => exact ih lexical
  | arithmetic _ _ _ _ ih ih' =>
    rw [Formula.literals, List.forall_mem_append]
    exact ⟨ih (lexical.subset (by simp)), ih' (lexical.subset (by simp))⟩

theorem DerivesAction.wellFormed {clause : Clause} {symbols : List Symbol} {action : Action}
    (h : DerivesAction clause symbols action) (lexical : Lexical symbols) :
    ∀ value ∈ action.literals, value.WellFormed fun text => Numeral.Signed text.toList := by
  cases clause with
  | set =>
    cases h with
    | set _ hformula => exact hformula.wellFormed (lexical.subset (by simp))
  | remove =>
    cases h with
    | remove => simp [Action.literals]

theorem wellFormed_of_parse {clause : Clause} {text : String}
    {parts : List (List Symbol × Action)}
    (hsymbols : symbolsOf text = Value.separated (parts.map (·.1)))
    (h : ∀ part ∈ parts, DerivesAction clause part.1 part.2) :
    ∀ part ∈ parts, ∀ value ∈ part.2.literals,
      value.WellFormed fun text => Numeral.Signed text.toList := by
  intro part hpart
  have hsub : part.1 ⊆ symbolsOf text := by
    rw [hsymbols]
    exact Value.subset_separated (List.mem_map_of_mem hpart)
  exact (h part hpart).wellFormed ((lexical_symbolsOf text).subset hsub)

theorem literals_of_parse {clause : Clause} {text : String} {actions : List Action}
    (h : parse clause text = .ok actions) : ∀ action ∈ actions, ∀ value ∈ action.literals,
      value.WellFormed fun text => Numeral.Signed text.toList := by
  obtain ⟨parts, -, hsymbols, hderives, rfl⟩ := parse_sound h
  exact List.forall_mem_map.mpr (wellFormed_of_parse hsymbols hderives)

/-! Actions are restored one by one, and so is the clause. -/

theorem DerivesAction.restores {table : PlaceholderTable}
    (coherent : table.Coherent fun text => Numeral.Signed text.toList) (expression : String)
    {clause : Clause} {symbols : List Symbol} {action : Action} {text : String}
    (h : DerivesAction clause symbols action) (written : WrittenAction table action text) :
    RestoresAction (table.compiled expression) (DerivesAction clause) text action := by
  cases clause with
  | set => exact DerivesAssignment.restores coherent expression h written
  | remove => exact DerivesRemoval.restores coherent expression h written

/-- An expanded action. -/
structure Restored where
  text : List Char
  symbols : List Symbol
  action : Action

/-- The texts of actions between commas expand to texts of actions between commas. -/
theorem restores_actions {compiled : CompiledExpression} {P : List Symbol → Action → Prop}
    {actions : List Action} {texts : List String}
    (h : List.Forall₂ (fun action text => RestoresAction compiled P text action) actions texts) :
    ∃ parts : List Restored,
      Expands compiled ([',', ' '].intercalate (texts.map (·.toList)))
        ([',', ' '].intercalate (parts.map (·.text))) ∧
      (∀ part ∈ parts, Lexer.Spelling part.text part.symbols ∧ P part.symbols part.action) ∧
      List.Forall₂ Action.Same (parts.map (·.action)) actions := by
  induction h with
  | nil => exact ⟨[], .nil, by simp, .nil⟩
  | @cons action text actions texts haction hactions ih =>
    obtain ⟨text', symbols, action', hexpands, spelling, derives, same⟩ := haction
    obtain ⟨parts, hparts, hall, hsame⟩ := ih
    refine ⟨⟨text', symbols, action'⟩ :: parts, ?_,
      List.forall_mem_cons.mpr ⟨⟨spelling, derives⟩, hall⟩, .cons same hsame⟩
    have hlength := hsame.length_eq
    cases hactions with
    | nil =>
      obtain rfl : parts = [] := by simpa using hlength
      simpa using hexpands
    | cons =>
      obtain ⟨part, parts, rfl⟩ : ∃ part rest, parts = part :: rest :=
        List.exists_cons_of_length_eq_add_one (by simpa using hlength)
      have hcomma := Expands.plain_append (a := [',', ' ']) (by simp [IsPlain]) hparts
      simpa using hexpands.append hcomma (stops_cons.mpr (by decide))

/-- Actions that are spelled between commas are parsed. -/
theorem parse_restored {clause : Clause} {parts : List Restored} (nonempty : parts ≠ [])
    (h : ∀ part ∈ parts,
      Lexer.Spelling part.text part.symbols ∧ DerivesAction clause part.symbols part.action) :
    parse clause (String.ofList ([',', ' '].intercalate (parts.map (·.text)))) =
      .ok (parts.map (·.action)) := by
  have spelling := Lexer.Spelling.join (parts.map fun part => (part.text, part.symbols))
    (by simpa using nonempty) Value.isSeparator_space
    (List.forall_mem_map.mpr fun part hpart => (h part hpart).1)
  have spells := spelling.spells
  simp only [List.map_map, Function.comp_def] at spells
  have hparse := @parse_of_spells (String.ofList ([',', ' '].intercalate (parts.map (·.text))))
    clause (parts.map fun part => (part.symbols, part.action)) (by simpa using nonempty)
    (List.forall_mem_map.mpr fun part hpart => (h part hpart).2)
  simp only [List.map_map, Function.comp_def, String.toList_ofList] at hparse
  exact hparse spells

/-- Whatever is parsed and compiled can be read off the compiled clause. -/
theorem parse_expand_compile {clause : Clause} {keys : List String} {text : String}
    {actions : List Action} {compiled : CompiledExpression}
    (hparse : parse clause text = .ok actions)
    (hcompile : (compile clause keys actions).onEmptyTable = .ok compiled) :
    ∃ body expanded reparsed, compiled.expression = clause.keyword ++ " " ++ body ∧
      compiled.expand body = some expanded ∧ parse clause expanded = .ok reparsed ∧
      List.Forall₂ Action.Same reparsed actions := by
  obtain ⟨parts, nonempty, hsymbols, hderives, rfl⟩ := parse_sound hparse
  have sound := wellFormed_of_parse hsymbols hderives
  obtain ⟨table, texts, coherent, hwritten, hcompiled⟩ :=
    written_of_compile (List.forall_mem_map.mpr sound) hcompile
  have hrestores : List.Forall₂ (fun action text =>
      RestoresAction compiled (DerivesAction clause) text action) (parts.map (·.2)) texts := by
    apply forall₂_imp_of_mem hwritten
    intro action haction text _ written
    obtain ⟨part, hpart, rfl⟩ := List.mem_map.mp haction
    rw [hcompiled]
    exact (hderives part hpart).restores coherent _ written
  obtain ⟨restored, hexpands, hrestored, hsame⟩ := restores_actions hrestores
  have hlength := hsame.length_eq
  have nonempty' : restored ≠ [] := by
    rintro rfl
    simp at hlength
    exact nonempty (List.length_eq_zero_iff.mp hlength.symm)
  refine ⟨", ".intercalate texts, String.ofList ([',', ' '].intercalate (restored.map (·.text))),
    restored.map (·.action), by rw [hcompiled]; rfl, ?_, parse_restored nonempty' hrestored, hsame⟩
  exact Expands.expand_eq (by simpa using hexpands)

set_option maxRecDepth 4000 in
/-- A name is quoted, and two sets that are equal share a placeholder. -/
theorem parse_expand_compile_shared :
    let actions := [Action.set [.name "\x60", .index 7] (.literal (.stringSet ["y", "x"])),
      .set [.name "b"] (.literal (.stringSet ["x", "y"]))]
    let compiled : CompiledExpression := ⟨"SET #p0[7] = :v0, #p1 = :v0",
      [("#p0", "\x60"), ("#p1", "b")],
      [(":v0", .object [("SS", .array [.string "y", .string "x"])])]⟩
    parse .set "\x60\x60\x60\x60[07] = <<\"y\", \"x\">>, b = <<\"x\", \"y\">>" = .ok actions ∧
      (compile .set ["id"] actions).onEmptyTable = .ok compiled ∧
      ∃ body expanded reparsed, compiled.expression = Clause.set.keyword ++ " " ++ body ∧
        compiled.expand body = some expanded ∧ parse .set expanded = .ok reparsed ∧
        List.Forall₂ Action.Same reparsed actions := by
  intro actions compiled
  have hparse : parse .set "\x60\x60\x60\x60[07] = <<\"y\", \"x\">>, b = <<\"x\", \"y\">>" =
      .ok actions := by cbv
  have hcompile : (compile .set ["id"] actions).onEmptyTable = .ok compiled := by cbv
  exact ⟨hparse, hcompile, parse_expand_compile hparse hcompile⟩

set_option maxRecDepth 4000 in
/-- A clause with the literal that is written for a surrogate is refused. -/
theorem parseSet_surrogate : parse .set ("x = " ++ StringBody.literalOf [0xD800]) =
    .error (.refused (.lexical (.brokenSurrogatePair 5))) := by
  cbv

end AttributeExpr.Update
