import AttributeExpr.Proofs.Literal.Base64
import AttributeExpr.Proofs.Literal.StringBody
import AttributeExpr.Proofs.Name
import AttributeExpr.Proofs.Numeral
import AttributeExpr.Token.Lexer
/-!
Which symbols a text spells, without regard to where they stand. A scan finds exactly these symbols,
so a text can be put together from parts. A part that ends an operand may be followed by any text
whose first character cannot belong to it.
-/
namespace AttributeExpr.Lexer

/-- A text is cut into symbols. `operand` says whether an operand ends before the text. -/
inductive Spells : (operand : Bool) → List Char → List Symbol → Prop where
  | nil {operand : Bool} : Spells operand [] []
  | separator {operand : Bool} {c : Char} {rest : List Char} {symbols : List Symbol}
      (h : isSeparator c = true) (further : Spells operand rest symbols) :
      Spells operand (c :: rest) symbols
  | lexeme {operand : Bool} {text rest : List Char} {lexeme : Lexeme} {symbol : Symbol}
      {symbols : List Symbol} (split : Lexeme.split? operand text = some (lexeme, rest))
      (reads : ∀ position, lexeme.symbol position = .ok symbol)
      (further : Spells symbol.endsOperand rest symbols) : Spells operand text (symbol :: symbols)

/-- Whether an operand ends behind some symbols. `operand` says so of the place before them. -/
def endsOperand (operand : Bool) (symbols : List Symbol) : Bool :=
  symbols.foldl (fun _ symbol => symbol.endsOperand) operand

theorem isSeparator_cases {c : Char} (h : isSeparator c = true) :
    c = ' ' ∨ c = '\t' ∨ c = '\r' ∨ c = '\n' := by
  simpa [isSeparator, or_assoc] using h

theorem isBlank_of_isSeparator {c : Char} (h : isSeparator c = true) : isBlank c = true := by
  rcases isSeparator_cases h with rfl | rfl | rfl | rfl <;> decide

/-- No lexeme starts with a separator. -/
theorem split?_separator {operand : Bool} {c : Char} {rest : List Char}
    (h : isSeparator c = true) : Lexeme.split? operand (c :: rest) = none := by
  rcases isSeparator_cases h with rfl | rfl | rfl | rfl <;> rfl

theorem split?_nil (operand : Bool) : Lexeme.split? operand [] = none := rfl

/-! What is spelled by a text whose beginning is known. -/

theorem Spells.of_separator {operand : Bool} {c : Char} {rest : List Char} {symbols : List Symbol}
    (hc : isSeparator c = true) (h : Spells operand (c :: rest) symbols) :
    Spells operand rest symbols := by
  cases h with
  | separator _ further => exact further
  | lexeme split =>
    rw [split?_separator hc] at split
    contradiction

theorem Spells.of_split? {operand : Bool} {text rest : List Char} {lexeme : Lexeme}
    {symbols : List Symbol} (split : Lexeme.split? operand text = some (lexeme, rest))
    (h : Spells operand text symbols) :
    ∃ symbol further, symbols = symbol :: further ∧
      (∀ position, lexeme.symbol position = .ok symbol) ∧
      Spells symbol.endsOperand rest further := by
  cases h with
  | nil => cases split
  | separator hc =>
    rw [split?_separator hc] at split
    contradiction
  | lexeme split' reads further =>
    obtain ⟨rfl, rfl⟩ := Prod.mk.inj (Option.some.inj (split.symm.trans split'))
    exact ⟨_, _, rfl, reads, further⟩

section

variable {operand : Bool} {text : List Char} (solid : ∀ c ∈ text, isSeparator c = false)

include solid

theorem Spells.eq_nil (h : Spells operand text []) : text = [] := by
  cases h with
  | nil => rfl
  | separator hc =>
    rw [solid _ List.mem_cons_self] at hc
    contradiction

/-- Where there are no separators, the first symbol is that of the first lexeme. -/
theorem Spells.exists_split? {symbol : Symbol} {symbols : List Symbol}
    (h : Spells operand text (symbol :: symbols)) :
    ∃ lexeme rest, Lexeme.split? operand text = some (lexeme, rest) ∧
      (∀ position, lexeme.symbol position = .ok symbol) ∧
      Spells symbol.endsOperand rest symbols := by
  cases h with
  | separator hc =>
    rw [solid _ List.mem_cons_self] at hc
    contradiction
  | lexeme split reads further => exact ⟨_, _, split, reads, further⟩

end

/-- A scan finds the symbols that a text spells, and no fault. -/
theorem scanFrom_of_spells {operand : Bool} {text : List Char} {symbols : List Symbol}
    (h : Spells operand text symbols) (position line : Nat) (previous : Option Token)
    (hp : previous.any (·.symbol.endsOperand) = operand) :
    ∃ tokens line', scanFrom position line previous text = ⟨tokens, none, line'⟩ ∧
      tokens.map (·.symbol) = symbols := by
  induction h generalizing position line previous with
  | nil => exact ⟨[], line, by rw [scanFrom], rfl⟩
  | @separator operand c rest symbols hc _ ih =>
    rw [scanFrom, if_pos hc]
    exact ih (position + 1) _ previous hp
  | @lexeme operand text rest lexeme symbol symbols split reads _ ih =>
    cases text with
    | nil => rw [split?_nil] at split; contradiction
    | cons c tail =>
      have hc : ¬ isSeparator c = true := by
        intro hc
        rw [split?_separator hc] at split
        contradiction
      obtain ⟨tokens, line', htokens, hsymbols⟩ :=
        ih (position + ((c :: tail).length - rest.length)) (line + lexeme.lineBreaks)
          (some ⟨symbol, position, line⟩) rfl
      refine ⟨⟨symbol, position, line⟩ :: tokens, line', ?_, by simp [hsymbols]⟩
      rw [scanFrom, if_neg hc]
      split
      · next hnone => rw [hp, split] at hnone; contradiction
      · next lexeme' after hsome =>
        rw [hp, split] at hsome
        obtain ⟨rfl, rfl⟩ := Prod.mk.inj (Option.some.inj hsome)
        simp only [reads position, htokens, Scan.push]

/-! Characters that could belong to the word, or to the literal or numeral, that stands before
them. -/

/-- A word goes on with these, or turns with them into the opening of a literal. -/
def extendsWord (c : Char) : Bool := isWordChar c || c = '\x22' || c = '\x27' || c = '\x60'

def extendsOperand (c : Char) : Bool := extendsWord c || c = '.'

theorem extendsOperand_of_isSeparator {c : Char} (h : isSeparator c = true) :
    extendsOperand c = false := by
  rcases isSeparator_cases h with rfl | rfl | rfl | rfl <;> decide

/-- A text that may stand behind any operand, with the symbols that it spells there. -/
structure Follows (rest : List Char) (symbols : List Symbol) : Prop where
  stops : Stops extendsOperand rest
  spells : ∀ operand, Spells operand rest symbols

/-- A text that spells symbols wherever an operand may begin and end. -/
def Spelling (text : List Char) (symbols : List Symbol) : Prop :=
  ∀ ⦃rest : List Char⦄ ⦃further : List Symbol⦄, Follows rest further →
    Spells false (text ++ rest) (symbols ++ further)

theorem Follows.nil : Follows [] [] := ⟨stops_nil _, fun _ => .nil⟩

theorem Spelling.spells {text : List Char} {symbols : List Symbol} (h : Spelling text symbols) :
    Spells false text symbols := by
  simpa using h .nil

/-- A mark that ends where it ends, whatever stands behind it. -/
def IsSolid : Mark → Prop
  | .equal | .less | .greater | .plus | .minus => False
  | _ => True

theorem split?_mark {mark : Mark} (h : IsSolid mark) (operand : Bool) (rest : List Char) :
    Lexeme.split? operand (mark.text.toList ++ rest) = some (.mark mark, rest) := by
  rcases mark with (bracket | bracket | _ | _ | _ | _ | _ | _ | _ | _ | _ | _ | _ | _ | _)
  case opening => cases bracket <;> rfl
  case closing => cases bracket <;> rfl
  case equal => contradiction
  case less => contradiction
  case greater => contradiction
  case plus => contradiction
  case minus => contradiction
  all_goals rfl

theorem Spells.mark {operand : Bool} {mark : Mark} {rest : List Char} {symbols : List Symbol}
    (h : IsSolid mark) (further : Spells (Symbol.mark mark).endsOperand rest symbols) :
    Spells operand (mark.text.toList ++ rest) (.mark mark :: symbols) :=
  .lexeme (split?_mark h operand rest) (fun _ => rfl) further

theorem Spells.layout {operand : Bool} {blanks rest : List Char} {symbols : List Symbol}
    (h : ∀ c ∈ blanks, isSeparator c = true) (further : Spells operand rest symbols) :
    Spells operand (blanks ++ rest) symbols := by
  induction blanks with
  | nil => exact further
  | cons c blanks ih =>
    obtain ⟨hc, hblanks⟩ := List.forall_mem_cons.mp h
    exact .separator hc (ih hblanks)

theorem Follows.layout {blanks rest : List Char} {symbols : List Symbol}
    (h : ∀ c ∈ blanks, isSeparator c = true) (further : Follows rest symbols) :
    Follows (blanks ++ rest) symbols := by
  refine ⟨?_, fun operand => .layout h (further.spells operand)⟩
  cases blanks with
  | nil => exact further.stops
  | cons c blanks => exact stops_cons.mpr (extendsOperand_of_isSeparator (h c (by simp)))

theorem Follows.comma {rest : List Char} {symbols : List Symbol} (h : Spells false rest symbols) :
    Follows (',' :: rest) (.mark .comma :: symbols) :=
  ⟨stops_cons.mpr (by decide), fun _ => @Spells.mark _ .comma _ _ trivial h⟩

theorem Follows.closing {rest : List Char} {symbols : List Symbol} (bracket : Bracket)
    (h : Follows rest symbols) :
    Follows ((Mark.closing bracket).text.toList ++ rest)
      (.mark (.closing bracket) :: symbols) := by
  refine ⟨?_, fun _ => .mark trivial (h.spells true)⟩
  cases bracket <;> exact stops_cons.mpr (by decide)

namespace Spelling

variable {text blanks : List Char} {symbols : List Symbol}

theorem layout_left (h : ∀ c ∈ blanks, isSeparator c = true) (spelling : Spelling text symbols) :
    Spelling (blanks ++ text) symbols := by
  intro rest further hf
  rw [List.append_assoc]
  exact .layout h (spelling hf)

theorem layout_right (h : ∀ c ∈ blanks, isSeparator c = true) (spelling : Spelling text symbols) :
    Spelling (text ++ blanks) symbols := by
  intro rest further hf
  rw [List.append_assoc]
  exact spelling (.layout h hf)

/-- Parts with a comma and the same layout between any two of them. -/
theorem join (parts : List (List Char × List Symbol)) (nonempty : parts ≠ [])
    (hb : ∀ c ∈ blanks, isSeparator c = true) (h : ∀ part ∈ parts, Spelling part.1 part.2) :
    Spelling ((',' :: blanks).intercalate (parts.map (·.1)))
      ([.mark .comma].intercalate (parts.map (·.2))) := by
  induction parts with
  | nil => contradiction
  | cons part parts ih =>
    obtain ⟨hpart, hparts⟩ := List.forall_mem_cons.mp h
    intro rest further hf
    cases parts with
    | nil => simpa using hpart hf
    | cons next parts =>
      simp only [List.map_cons, List.intercalate_cons_cons, List.append_assoc, List.cons_append,
        List.nil_append] at ih ⊢
      exact hpart (.comma (.layout hb (ih (by simp) hparts hf)))

theorem enclose (bracket : Bracket) (spelling : Spelling text symbols) :
    Spelling ((Mark.opening bracket).text.toList ++ (text ++ (Mark.closing bracket).text.toList))
      (.mark (.opening bracket) :: (symbols ++ [.mark (.closing bracket)])) := by
  intro rest further hf
  simp only [List.append_assoc, List.cons_append, List.nil_append]
  exact .mark trivial (spelling (hf.closing bracket))

theorem encloseLayout (bracket : Bracket) (h : ∀ c ∈ blanks, isSeparator c = true) :
    Spelling ((Mark.opening bracket).text.toList ++ (blanks ++ (Mark.closing bracket).text.toList))
      [.mark (.opening bracket), .mark (.closing bracket)] := by
  intro rest further hf
  simp only [List.append_assoc, List.cons_append, List.nil_append]
  exact .mark trivial (.layout h ((hf.closing bracket).spells _))

/-- A key, a colon and what the key stands for. -/
theorem entry {key : List Char} {symbol : Symbol} (hkey : Spelling key [symbol])
    (spelling : Spelling text symbols) :
    Spelling (key ++ ':' :: text) (symbol :: .mark .colon :: symbols) := by
  intro rest further hf
  rw [List.append_assoc]
  apply hkey
  refine ⟨stops_cons.mpr (by decide), ?_⟩
  intro operand
  exact @Spells.mark _ .colon _ _ trivial (spelling hf)

end Spelling

end AttributeExpr.Lexer
