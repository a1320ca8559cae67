import AttributeExpr.Proofs.Numeral
import AttributeExpr.Token.Nesting
/-!
What scans are made of. Whatever the text is, each number among its tokens is a numeral that may
have a minus sign, and a fault is one of the characters or of the nesting of delimiters.
-/
namespace AttributeExpr

/-- A number is written as a numeral. -/
def Symbol.Lexical (symbol : Symbol) : Prop :=
  ∀ text, symbol = .number text → Numeral.Signed text.toList

theorem Mark.split?_sound {text rest : List Char} {mark : Mark}
    (h : split? text = some (mark, rest)) : text = mark.text.toList ++ rest := by
  unfold split? at h
  split at h <;> cases h <;> rfl

namespace Lexeme

/-- What can be cut off a text, with the rest that is left. -/
inductive Cut (operand : Bool) (text rest : List Char) : Lexeme → Prop where
  | base64 (body : List Char) (h : '\x22' ∈ text ∨ '\x27' ∈ text) :
      Cut operand text rest (.base64 body)
  | bytes (continuation : Bool) (body : List Char) (h : '\x22' ∈ text ∨ '\x27' ∈ text) :
      Cut operand text rest (.bytes continuation body)
  | string (body : List Char) (h : '\x22' ∈ text) : Cut operand text rest (.string body)
  | verbatim (body : List Char) (h : '\x27' ∈ text) : Cut operand text rest (.verbatim body)
  | quotedName (name : List Char) : Cut operand text rest (.quotedName name)
  | number {numeral : List Char} (h : Numeral.Unsigned numeral) (split : text = numeral ++ rest) :
      Cut operand text rest (.number numeral)
  | plus {numeral : List Char} (h : Numeral.Unsigned numeral) (free : operand = false)
      (split : text = '+' :: (numeral ++ rest)) : Cut operand text rest (.number numeral)
  | minus {numeral : List Char} (h : Numeral.Unsigned numeral) (free : operand = false)
      (split : text = '-' :: (numeral ++ rest)) : Cut operand text rest (.number ('-' :: numeral))
  | word (word : List Char) : Cut operand text rest (.word word)
  | mark {m : Mark} (h : text = m.text.toList ++ rest) : Cut operand text rest (.mark m)

theorem cut_of_quoted? {text rest : List Char} {lexeme : Lexeme} (operand : Bool)
    (h : quoted? text = some (lexeme, rest)) : Cut operand text rest lexeme := by
  unfold quoted? at h
  split at h
  case h_8 => cases h
  all_goals
    obtain ⟨⟨body, after⟩, -, heq⟩ := Option.map_eq_some_iff.mp h
    obtain ⟨rfl, rfl⟩ := Prod.mk.inj heq
    constructor <;> simp

theorem cut_of_number? {operand : Bool} {text rest : List Char} {lexeme : Lexeme}
    (h : number? operand text = some (lexeme, rest)) : Cut operand text rest lexeme := by
  unfold number? at h
  split at h
  · obtain ⟨⟨numeral, after⟩, hsplit, heq⟩ := Option.map_eq_some_iff.mp h
    obtain ⟨rfl, unsigned⟩ := Numeral.split?_sound hsplit
    cases operand with
    | true =>
      obtain ⟨rfl, rfl⟩ := Prod.mk.inj heq
      exact .mark rfl
    | false =>
      obtain ⟨rfl, rfl⟩ := Prod.mk.inj heq
      exact .plus unsigned rfl rfl
  · obtain ⟨⟨numeral, after⟩, hsplit, heq⟩ := Option.map_eq_some_iff.mp h
    obtain ⟨rfl, unsigned⟩ := Numeral.split?_sound hsplit
    cases operand with
    | true =>
      obtain ⟨rfl, rfl⟩ := Prod.mk.inj heq
      exact .mark rfl
    | false =>
      obtain ⟨rfl, rfl⟩ := Prod.mk.inj heq
      exact .minus unsigned rfl rfl
  · obtain ⟨⟨numeral, after⟩, hsplit, heq⟩ := Option.map_eq_some_iff.mp h
    obtain ⟨rfl, unsigned⟩ := Numeral.split?_sound hsplit
    obtain ⟨rfl, rfl⟩ := Prod.mk.inj heq
    exact .number unsigned rfl

theorem cut_of_split? {operand : Bool} {text rest : List Char} {lexeme : Lexeme}
    (h : split? operand text = some (lexeme, rest)) : Cut operand text rest lexeme := by
  simp only [split?, Option.or_eq_some_iff] at h
  rcases h with hquoted | ⟨-, hnumber | ⟨-, hword | ⟨-, hmark⟩⟩⟩
  · exact cut_of_quoted? operand hquoted
  · exact cut_of_number? hnumber
  · unfold word? at hword
    split_ifs at hword
    obtain ⟨rfl, -⟩ := Prod.mk.inj (Option.some.inj hword)
    exact .word _
  · obtain ⟨⟨m, after⟩, hm, heq⟩ := Option.map_eq_some_iff.mp hmark
    obtain ⟨rfl, rfl⟩ := Prod.mk.inj heq
    exact .mark (Mark.split?_sound hm)

theorem split?_signed {operand : Bool} {text numeral rest : List Char}
    (h : split? operand text = some (.number numeral, rest)) : Numeral.Signed numeral := by
  cases cut_of_split? h with
  | number unsigned => exact .plain unsigned
  | plus unsigned => exact .plain unsigned
  | minus unsigned => exact .minus unsigned

/-! What a lexeme stands for tells what the lexeme is. -/

section

variable {lexeme : Lexeme} {position : Nat}

/-- A word stands for a keyword or for a name. -/
theorem symbol_word_cases {word : List Char} {symbol : Symbol}
    (h : (Lexeme.word word).symbol position = .ok symbol) :
    symbol = .name (String.ofList word) ∨
      ∃ keyword, symbol = .keyword keyword (String.ofList word) := by
  simp only [Lexeme.symbol, wordSymbol] at h
  split at h
  · cases h
  · split at h
    · exact .inr ⟨_, (Except.ok.inj h).symm⟩
    · exact .inl (Except.ok.inj h).symm

/-- Only the lexeme of a number becomes a number. -/
theorem symbol_eq_number {text : String} (h : lexeme.symbol position = .ok (.number text)) :
    lexeme = .number text.toList := by
  cases lexeme with
  | number numeral =>
    obtain rfl : String.ofList numeral = text := by simpa [symbol] using h
    simp
  | word word => rcases symbol_word_cases h with heq | ⟨_, heq⟩ <;> cases heq
  | base64 body | bytes continuation body | string body =>
    simp only [symbol, Except.map] at h
    split at h <;> cases h
  | verbatim | quotedName | mark => cases h

theorem symbol_eq_mark {m : Mark} (h : lexeme.symbol position = .ok (.mark m)) :
    lexeme = .mark m := by
  cases lexeme with
  | mark m' =>
    cases h
    rfl
  | word word => rcases symbol_word_cases h with heq | ⟨_, heq⟩ <;> cases heq
  | base64 body | bytes continuation body | string body =>
    simp only [symbol, Except.map] at h
    split at h <;> cases h
  | verbatim | quotedName | number => cases h

theorem symbol_eq_keyword {keyword : Keyword} {spelling : String}
    (h : lexeme.symbol position = .ok (.keyword keyword spelling)) :
    lexeme = .word spelling.toList ∧
      Keyword.ofWord? (String.ofList (Name.lowerCase spelling.toList)) = some keyword := by
  cases lexeme with
  | word word =>
    simp only [Lexeme.symbol, wordSymbol] at h
    split at h
    · cases h
    · split at h
      · next keyword' hkeyword =>
        obtain ⟨rfl, rfl⟩ := Symbol.keyword.inj (Except.ok.inj h)
        simpa using hkeyword
      · cases h
  | base64 body | bytes continuation body | string body =>
    simp only [symbol, Except.map] at h
    split at h <;> cases h
  | verbatim | quotedName | number | mark => cases h

end

/-! A word and a mark are cut off by a rule of their own. -/

theorem quoted?_cases {text rest : List Char} {lexeme : Lexeme}
    (h : quoted? text = some (lexeme, rest)) :
    (∀ word, lexeme ≠ .word word) ∧ ∀ m, lexeme ≠ .mark m := by
  unfold quoted? at h
  split at h
  case h_8 => cases h
  all_goals
    obtain ⟨⟨body, after⟩, -, heq⟩ := Option.map_eq_some_iff.mp h
    obtain ⟨rfl, rfl⟩ := Prod.mk.inj heq
    constructor <;> simp

theorem number?_cases {text rest : List Char} {lexeme : Lexeme}
    (h : number? false text = some (lexeme, rest)) :
    (∀ word, lexeme ≠ .word word) ∧ ∀ m, lexeme ≠ .mark m := by
  unfold number? at h
  split at h
  all_goals
    obtain ⟨⟨numeral, after⟩, -, heq⟩ := Option.map_eq_some_iff.mp h
    obtain ⟨rfl, rfl⟩ := Prod.mk.inj heq
    constructor <;> simp

theorem split?_eq_word {text word rest : List Char}
    (h : split? false text = some (.word word, rest)) : word? text = some (.word word, rest) := by
  simp only [split?, Option.or_eq_some_iff] at h
  rcases h with hquoted | ⟨-, hnumber | ⟨-, hword | ⟨-, hmark⟩⟩⟩
  · exact absurd rfl ((quoted?_cases hquoted).1 word)
  · exact absurd rfl ((number?_cases hnumber).1 word)
  · exact hword
  · obtain ⟨_, _, heq⟩ := Option.map_eq_some_iff.mp hmark
    cases heq

theorem split?_eq_mark {text rest : List Char} {m : Mark}
    (h : split? false text = some (.mark m, rest)) : Mark.split? text = some (m, rest) := by
  simp only [split?, Option.or_eq_some_iff] at h
  rcases h with hquoted | ⟨-, hnumber | ⟨-, hword | ⟨-, hmark⟩⟩⟩
  · exact absurd rfl ((quoted?_cases hquoted).2 m)
  · exact absurd rfl ((number?_cases hnumber).2 m)
  · unfold word? at hword
    split_ifs at hword
    cases hword
  · obtain ⟨⟨m', after⟩, hm, heq⟩ := Option.map_eq_some_iff.mp hmark
    cases heq
    exact hm

end Lexeme

namespace Lexer

/-- Where no separator stands, a scan goes on by one lexeme. -/
theorem scanFrom_cons {c : Char} (h : isSeparator c = false) (position line : Nat)
    (previous : Option Token) (rest : List Char) :
    scanFrom position line previous (c :: rest) =
      match Lexeme.split? (previous.any (·.symbol.endsOperand)) (c :: rest) with
      | none => ⟨[], some (stray position previous c), line⟩
      | some (lexeme, after) =>
        match lexeme.symbol position with
        | .error error => ⟨[], some error, line + lexeme.lineBreaks⟩
        | .ok symbol =>
          (scanFrom (position + ((c :: rest).length - after.length)) (line + lexeme.lineBreaks)
            (some ⟨symbol, position, line⟩) after).push ⟨symbol, position, line⟩ := by
  rw [scanFrom, if_neg (by simp [h])]
  dsimp only
  split
  · next hsplit => simp only [hsplit]
  · next lexeme after hsplit =>
    cases hsymbol : lexeme.symbol position <;> simp only [hsplit, hsymbol]

/-- The first lexeme of a text is its first token. -/
theorem scan_of_split? {text : String} {c : Char} {inside rest : List Char} {lexeme : Lexeme}
    {symbol : Symbol} (htext : text.toList = c :: inside) (hc : isSeparator c = false)
    (split : Lexeme.split? false (c :: inside) = some (lexeme, rest))
    (reads : lexeme.symbol 0 = .ok symbol) (line : Nat) :
    scan line text =
      (scanFrom (text.length - rest.length) (line + lexeme.lineBreaks) (some ⟨symbol, 0, line⟩)
        rest).push ⟨symbol, 0, line⟩ := by
  rw [scan, ← String.length_toList, htext, scanFrom_cons hc, Option.any_none, split]
  simp only [reads, Nat.zero_add]

theorem scanFrom_lexical (position line : Nat) (previous : Option Token) (text : List Char) :
    ∀ token ∈ (scanFrom position line previous text).tokens, token.symbol.Lexical := by
  fun_induction scanFrom position line previous text with
  | case1 => simp
  | case2 position line previous c rest _ ih => exact ih
  | case3 => simp
  | case4 => simp
  | case5 position line previous c rest _ lexeme after hsplit _ _ symbol hsymbol _ ih =>
    intro token htoken
    rcases List.mem_cons.mp htoken with rfl | htoken
    · rintro text rfl
      rw [Lexeme.symbol_eq_number hsymbol] at hsplit
      exact Lexeme.split?_signed hsplit
    · exact ih token htoken

/-- The first token of a text is a lexeme behind separators. -/
theorem exists_split?_of_head? {position line : Nat} {text : List Char} {token : Token}
    (h : (scanFrom position line none text).tokens.head? = some token) :
    ∃ blanks rest lexeme after, text = blanks ++ rest ∧
      (∀ c ∈ blanks, isSeparator c = true) ∧ token.position = position + blanks.length ∧
        Lexeme.split? false rest = some (lexeme, after) ∧
          lexeme.symbol token.position = .ok token.symbol := by
  induction text generalizing position line with
  | nil =>
    rw [scanFrom] at h
    contradiction
  | cons c rest ih =>
    by_cases hc : isSeparator c = true
    · rw [scanFrom, if_pos hc] at h
      obtain ⟨blanks, rest, lexeme, after, rfl, hblanks, hposition, hsplit⟩ := ih h
      refine ⟨c :: blanks, rest, lexeme, after, rfl, List.forall_mem_cons.mpr ⟨hc, hblanks⟩, ?_,
        hsplit⟩
      rw [hposition, List.length_cons, Nat.add_right_comm, Nat.add_assoc]
    · rw [scanFrom_cons (Bool.eq_false_of_not_eq_true hc)] at h
      split at h
      · contradiction
      · next lexeme after hsplit =>
        split at h
        · contradiction
        · next symbol hsymbol =>
          obtain rfl := Option.some.inj h
          exact ⟨[], c :: rest, lexeme, after, rfl, List.forall_mem_nil _, rfl, hsplit, hsymbol⟩

end Lexer

/-- The check of delimiters keeps only tokens that are there. -/
theorem Nesting.checkFrom_subset (fault : Option ExpressionError) (line : Nat)
    (opened : List Opening) (tokens : List Token) :
    (checkFrom fault line opened tokens).tokens ⊆ tokens := by
  induction tokens generalizing opened with
  | nil => simp [checkFrom]
  | cons token tokens ih =>
    have hkept (opened : List Opening) :
        ((checkFrom fault line opened tokens).push token).tokens ⊆ token :: tokens :=
      List.cons_subset_cons token (ih opened)
    rw [checkFrom.eq_def]
    dsimp only
    split
    · exact hkept _
    · split
      · exact hkept _
      · simp [checkFrom.stray]
    · simp [checkFrom.stray]
    · exact hkept _

/-- The numbers among the tokens of a text are numerals. -/
theorem scanNested_lexical (text : String) :
    ∀ token ∈ (scanNested text).tokens, token.symbol.Lexical := by
  intro token htoken
  exact Lexer.scanFrom_lexical _ _ _ _ token (Nesting.checkFrom_subset _ _ _ _ htoken)

/-! Faults of scanning. -/

/-- The errors that a text can have before its tokens are read. -/
def ExpressionError.IsTextual (error : ExpressionError) : Prop :=
  (∃ e : LexicalError, error = e) ∨ ∃ e : GrammarError, error = e

theorem Lexer.scanFrom_fault (position line : Nat) (previous : Option Token) (text : List Char) :
    ∀ error ∈ (scanFrom position line previous text).fault, ∃ e : LexicalError, error = e := by
  fun_induction scanFrom position line previous text with
  | case1 => simp
  | case2 position line previous c rest _ ih => exact ih
  | case3 => simp
  | case4 => simp
  | case5 position line previous c rest _ lexeme after _ _ _ symbol _ _ ih => exact ih

theorem Nesting.checkFrom_fault {fault : Option ExpressionError}
    (h : ∀ error ∈ fault, error.IsTextual) (line : Nat) (opened : List Opening)
    (tokens : List Token) :
    ∀ error ∈ (checkFrom fault line opened tokens).fault, error.IsTextual := by
  induction tokens generalizing opened with
  | nil =>
    intro error herror
    cases fault with
    | some error' => exact h error herror
    | none =>
      cases opened with
      | nil => contradiction
      | cons innermost outer =>
        obtain rfl := Option.some.inj herror
        exact .inr ⟨_, rfl⟩
  | cons token tokens ih =>
    have hstray (bracket : Bracket) :
        ∀ error ∈ (checkFrom.stray bracket token).fault, error.IsTextual := by
      intro error herror
      obtain rfl := Option.some.inj herror
      exact .inr ⟨_, rfl⟩
    rw [checkFrom.eq_def]
    dsimp only
    split
    · exact ih _
    · split
      · exact ih _
      · exact hstray _
    · exact hstray _
    · exact ih _

theorem scanNested_fault (text : String) :
    ∀ error ∈ (scanNested text).fault, error.IsTextual :=
  Nesting.checkFrom_fault (fun error herror => .inl (Lexer.scanFrom_fault _ _ _ _ error herror))
    _ _ _

end AttributeExpr
