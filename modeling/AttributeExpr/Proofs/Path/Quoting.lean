import AttributeExpr.Proofs.Path.RoundTrip
import AttributeExpr.Proofs.Token.Position
/-!
Which names are quoted. A name is quoted just when it would not be read back as it stands, and a
text is a token of its own, identifier or keyword, just when it is an identifier.
-/
namespace AttributeExpr

/-- The text of an identifier or of a keyword. -/
def Symbol.wordText? : Symbol → Option String
  | name text | keyword _ text => some text
  | _ => none

namespace Lexer

/-- A text that spells one symbol has one lexeme in it. -/
theorem Spells.exists_alone {operand : Bool} {text : List Char} {symbol : Symbol}
    (h : Spells operand text [symbol]) :
    ∃ before front after lexeme, text = before ++ front ++ after ∧
      Lexeme.split? false front = some (lexeme, []) ∧
      ∀ position, lexeme.symbol position = .ok symbol := by
  generalize hsymbols : [symbol] = symbols at h
  induction h with
  | nil => cases hsymbols
  | @separator _ c _ _ _ _ ih =>
    obtain ⟨before, front, after, lexeme, rfl, hfront, reads⟩ := ih hsymbols
    exact ⟨c :: before, front, after, lexeme, rfl, hfront, reads⟩
  | @lexeme _ _ rest lexeme _ _ split reads _ =>
    obtain ⟨rfl, -⟩ := List.cons.inj hsymbols
    obtain ⟨front, rfl, hfront⟩ := Lexeme.split?_alone split
    exact ⟨[], front, rest, lexeme, rfl, hfront, reads⟩

/-- Only a word stands for a name or a keyword with all the characters of its lexeme, as the quotes
around a name take up further ones. -/
theorem eq_word_of_symbol {front : List Char} {lexeme : Lexeme} {symbol : Symbol} {name : String}
    {position : Nat} (h : Lexeme.split? false front = some (lexeme, []))
    (reads : lexeme.symbol position = .ok symbol) (hname : symbol.wordText? = some name)
    (hlength : front.length ≤ name.toList.length) : lexeme = .word name.toList := by
  cases symbol with
  | name text =>
    obtain rfl := Option.some.inj hname
    exact (Lexeme.eq_of_symbol_name h reads hlength).2
  | keyword keyword text =>
    obtain rfl := Option.some.inj hname
    exact (Lexeme.symbol_eq_keyword reads).1
  | string | binary | number | mark => cases hname

/-- A word stands for a symbol only if it is an identifier. -/
theorem isIdentifier_of_symbol {word : List Char} {symbol : Symbol} {position : Nat}
    (h : (Lexeme.word word).symbol position = .ok symbol) :
    Name.isIdentifier word = true ∧ symbol = wordSymbol word := by
  have hidentifier : Name.isIdentifier word = true := by
    simp only [Lexeme.symbol, Lexeme.wordSymbol] at h
    split at h
    · cases h
    · next hnone => simp [Name.isIdentifier, hnone]
  rw [symbol_word hidentifier] at h
  exact ⟨hidentifier, (Except.ok.inj h).symm⟩

/-- A name that spells itself is an identifier, and has no layout around it. -/
theorem Spells.isIdentifier {name : String} {symbol : Symbol}
    (h : Spells false name.toList [symbol]) (hname : symbol.wordText? = some name) :
    Name.isIdentifier name.toList = true ∧ symbol = wordSymbol name.toList := by
  obtain ⟨before, front, after, lexeme, htext, hfront, reads⟩ := h.exists_alone
  have hlength : front.length ≤ name.toList.length := by
    rw [htext, List.length_append, List.length_append]
    omega
  obtain rfl := eq_word_of_symbol hfront (reads 0) hname hlength
  exact isIdentifier_of_symbol (reads 0)

theorem wordText?_wordSymbol (name : String) :
    (wordSymbol name.toList).wordText? = some name := by
  unfold wordSymbol
  split <;> simp [Symbol.wordText?]

/-- The tokens of a name are the name itself just where it is an identifier. -/
theorem exists_token_iff (name : String) :
    (∃ token, tokenize name = .ok [token] ∧ token.symbol.wordText? = some name) ↔
      Name.isIdentifier name.toList = true := by
  constructor
  · rintro ⟨token, htokens, hname⟩
    exact (Spells.isIdentifier (spells_of_tokenize htokens) hname).1
  · intro h
    have hsplit := split?_identifier h (stops_nil extendsWord) false
    rw [List.append_nil] at hsplit
    have htokens := tokenize_of_split? hsplit (symbol_word h 0)
    rw [String.ofList_toList] at htokens
    exact ⟨_, htokens, wordText?_wordSymbol name⟩

end Lexer

namespace Name

theorem wordText?_of_nameText? {symbol : Symbol} {name : String}
    (h : Path.nameText? symbol = some name) : symbol.wordText? = some name := by
  unfold Path.nameText? at h
  split at h <;> first | exact h | cases h

/-- A literal word does not stand for a name in a path. -/
theorem standsBare_of_nameText? {name : String} (hidentifier : isIdentifier name.toList = true)
    (h : Path.nameText? (Lexer.wordSymbol name.toList) = some name) :
    standsBare name.toList = true := by
  rw [standsBare, hidentifier, Bool.true_and, Bool.not_eq_true', ← Bool.not_eq_true]
  intro hliteral
  simp only [literalWords, List.contains_eq_mem, List.mem_cons, List.not_mem_nil, or_false,
    decide_eq_true_eq] at hliteral
  rcases hliteral with hword | hword | hword <;>
    · rw [Lexer.wordSymbol, hword] at h
      cases h

theorem parse_quote (name : String) : Path.parse (quote name) = .ok [.name name] := by
  have spells : Lexer.Spells false ((quote name).toList ++ []) [Lexer.nameSymbol name] :=
    .quote (stops_nil _) .nil
  rw [List.append_nil] at spells
  exact Path.parse_of_spells (.path (Lexer.nameText?_nameSymbol name) .nil) spells

theorem standsBare_of_parse {name : String} (h : Path.parse name = .ok [.name name]) :
    standsBare name.toList = true := by
  obtain ⟨symbols, spells, derives⟩ := Path.exists_spells_of_parse h
  cases derives with
  | path hname further =>
    cases further with
    | nil =>
      obtain ⟨hidentifier, rfl⟩ := spells.isIdentifier (wordText?_of_nameText? hname)
      exact standsBare_of_nameText? hidentifier hname

/-- Names are quoted where they have to be. A name as it is written is read as a path of that name,
and nothing is changed about the name just when it is read so as it stands. The texts that are one
token with themselves as its text are the identifiers. -/
theorem quote_whereNeeded (name : String) :
    Path.parse (quote name) = .ok [.name name] ∧
      (quote name = name ↔ Path.parse name = .ok [.name name]) ∧
      ((∃ token, tokenize name = .ok [token] ∧ token.symbol.wordText? = some name) ↔
        isIdentifier name.toList = true) := by
  refine ⟨parse_quote name, ⟨fun h => ?_, fun h => ?_⟩, Lexer.exists_token_iff name⟩
  · rw [← h, parse_quote, h]
  · rw [quote, if_pos (standsBare_of_parse h)]

example : quote "Between" = "Between" ∧ quote "TRUE" = "\x60TRUE\x60" ∧
    quote "a\x60\x60" = "\x60a\x60\x60\x60\x60\x60" := by
  decide +kernel

end Name

end AttributeExpr
