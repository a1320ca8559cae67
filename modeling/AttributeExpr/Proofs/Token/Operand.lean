import AttributeExpr.Path.Parser
import AttributeExpr.Proofs.Token.Spelling
import AttributeExpr.Value.Render
/-!
The spellings of single symbols: quoted literals, numerals, keywords and names. Quoted literals end
with their own quote; numerals and words end where the text behind them cannot continue them.
-/
namespace AttributeExpr.Lexer

open Lexeme (quoted? number? word? mark?)

theorem split?_quoted {operand : Bool} {text rest : List Char} {l : Lexeme}
    (h : quoted? text = some (l, rest)) : Lexeme.split? operand text = some (l, rest) := by
  simp [Lexeme.split?, h]

/-- A string in double quotes. -/
theorem Spells.string {operand : Bool} {body text rest : List Char} {symbols : List Symbol}
    (h : StringBody.Spells body text) (further : Spells true rest symbols) :
    Spells operand ('\x22' :: (body ++ '\x22' :: rest))
      (.string (String.ofList text) :: symbols) := by
  refine .lexeme (split?_quoted (l := .string body) ?_) (fun position => ?_) further
  · simp [quoted?, StringBody.outline?_append h]
  · simp [Lexeme.symbol, StringBody.decode_spells h, Except.map]

theorem Spelling.string {body text : List Char} (h : StringBody.Spells body text) :
    Spelling ('\x22' :: (body ++ ['\x22'])) [.string (String.ofList text)] := by
  intro rest further hf
  simpa using Spells.string h (hf.spells true)

theorem Spelling.stringLiteral (text : String) :
    Spelling (StringBody.literal text).toList [.string text] := by
  simpa [StringBody.literal, StringBody.literalOf] using
    Spelling.string (StringBody.spells_encode text.toList)

/-- A binary as a base64 literal. -/
theorem Spelling.base64Literal (bytes : Bytes) :
    Spelling (Base64Body.literal bytes).toList [.binary bytes] := by
  intro rest further hf
  have htext : (Base64Body.literal bytes).toList ++ rest =
      'b' :: '6' :: '4' :: '\x22' :: (Base64.encode bytes ++ '\x22' :: rest) := by
    simp [Base64Body.literal, Base64.encodeString]
  rw [htext]
  refine .lexeme (split?_quoted (l := .base64 (Base64.encode bytes)) ?_) (fun position => ?_)
    (hf.spells true)
  · simp [quoted?, Base64Body.plainBody?_encode]
  · simp [Lexeme.symbol, Base64Body.decode_encode, Except.map]

/-! Words and numerals are reached only where no quoted literal stands. -/

/-- The characters with which a quoted literal can begin. -/
def opensLiteral (c : Char) : Bool := c = 'b' || c = '\x22' || c = '\x27' || c = '\x60'

theorem quoted?_eq_none {c : Char} (h : opensLiteral c = false) (rest : List Char) :
    quoted? (c :: rest) = none := by
  simp only [opensLiteral, Bool.or_eq_false_iff, decide_eq_false_iff_not] at h
  unfold quoted?
  split <;> simp_all

theorem opensLiteral_of_isDigit {c : Char} (h : Numeral.isDigit c = true) :
    opensLiteral c = false := by
  by_contra hc
  rw [Bool.not_eq_false] at hc
  simp only [opensLiteral, Bool.or_eq_true, decide_eq_true_eq] at hc
  rcases hc with ((rfl | rfl) | rfl) | rfl <;> contradiction

theorem extendsOperand_of_continues {c : Char} (h : Numeral.continues c = true) :
    extendsOperand c = true := by
  simp only [Numeral.continues, Bool.or_eq_true, decide_eq_true_eq] at h
  rcases h with ((h | rfl) | rfl) | rfl
  · simp [extendsOperand, extendsWord, isWordChar, h]
  all_goals decide

theorem head_of_unsigned {text : List Char} (h : Numeral.Unsigned text) :
    ∃ d rest, text = d :: rest ∧ Numeral.isDigit d = true := by
  cases h with
  | @parts whole fraction exponent nonempty digital =>
    cases whole with
    | nil => contradiction
    | cons d whole => exact ⟨d, _, rfl, digital d (by simp)⟩

/-- A numeral without sign is read as it stands, also behind an operand. -/
theorem split?_unsigned {text rest : List Char} (h : Numeral.Unsigned text)
    (hs : Stops Numeral.continues rest) (operand : Bool) :
    Lexeme.split? operand (text ++ rest) = some (.number text, rest) := by
  have hsplit := Numeral.split?_append h hs
  obtain ⟨d, tail, rfl, hd⟩ := head_of_unsigned h
  have hplus : d ≠ '+' := by rintro rfl; contradiction
  have hminus : d ≠ '-' := by rintro rfl; contradiction
  simp only [List.cons_append] at hsplit ⊢
  have hnumber : number? operand (d :: (tail ++ rest)) = some (.number (d :: tail), rest) := by
    unfold number?
    split
    · next heq => exact absurd (List.cons.inj heq).1 hplus
    · next heq => exact absurd (List.cons.inj heq).1 hminus
    · simp [hsplit]
  simp [Lexeme.split?, quoted?_eq_none (opensLiteral_of_isDigit hd), hnumber]

/-- Where no operand ends before it, a minus sign belongs to the numeral. -/
theorem split?_minus {text rest : List Char} (h : Numeral.Unsigned text)
    (hs : Stops Numeral.continues rest) :
    Lexeme.split? false ('-' :: text ++ rest) = some (.number ('-' :: text), rest) := by
  have hquoted := quoted?_eq_none (c := '-') (by decide) (text ++ rest)
  simp [Lexeme.split?, hquoted, number?, Numeral.split?_append h hs]

theorem Spelling.number {text : String} (h : Numeral.Signed text.toList) :
    Spelling text.toList [.number text] := by
  intro rest further hf
  have hs := hf.stops.mono fun _ => extendsOperand_of_continues
  have hreads (position : Nat) :
      (Lexeme.number text.toList).symbol position = .ok (.number text) := by
    simp [Lexeme.symbol]
  generalize text.toList = numeral at h hreads
  cases h with
  | plain h => exact .lexeme (split?_unsigned h hs false) hreads (hf.spells true)
  | minus h => exact .lexeme (split?_minus h hs) hreads (hf.spells true)

/-- A word is a word although it may begin with `b`, unless a quote follows. -/
theorem quoted?_word {word rest : List Char} (h : ∀ c ∈ word, isWordChar c = true)
    (nonempty : word ≠ []) (hs : Stops extendsWord rest) : quoted? (word ++ rest) = none := by
  have hdrop : (word ++ rest).dropWhile isWordChar = rest := by
    have hword : Stops isWordChar rest := by
      apply hs.mono
      intro c hc
      simp [extendsWord, hc]
    exact hword.dropWhile_eq h
  -- Each opening of a literal has a quote behind characters of words, and would be the rest.
  have hquote (text tail : List Char) (q : Char) (hq : extendsWord q = true)
      (ht : text.dropWhile isWordChar = q :: tail) : word ++ rest ≠ text := by
    intro heq
    rw [← heq, hdrop] at ht
    rw [ht, stops_cons, hq] at hs
    contradiction
  have hhead (q : Char) (tail : List Char) (hq : isWordChar q = false) :
      word ++ rest ≠ q :: tail := by
    cases word with
    | nil => exact absurd rfl nonempty
    | cons c word =>
      intro heq
      have := h c (by simp)
      rw [(List.cons.inj heq).1, hq] at this
      contradiction
  unfold quoted?
  split
  · next heq => exact absurd heq (hquote _ _ '\x22' (by decide) rfl)
  · next heq => exact absurd heq (hquote _ _ '\x27' (by decide) rfl)
  · next heq => exact absurd heq (hquote _ _ '\x22' (by decide) rfl)
  · next heq => exact absurd heq (hquote _ _ '\x27' (by decide) rfl)
  · next heq => exact absurd heq (hhead _ _ (by decide))
  · next heq => exact absurd heq (hhead _ _ (by decide))
  · next heq => exact absurd heq (hhead _ _ (by decide))
  · rfl

theorem number?_word {c : Char} (h : isWordStart c = true) (operand : Bool) (rest : List Char) :
    number? operand (c :: rest) = none := by
  have hdigit : Numeral.isDigit c = false := by
    by_contra hd
    rw [Bool.not_eq_false, Numeral.isDigit_iff] at hd
    rw [isWordStart_iff] at h
    omega
  have hsplit : Numeral.split? (c :: rest) = none := by simp [Numeral.split?, hdigit]
  unfold number?
  split
  · next heq => rw [(List.cons.inj heq).1] at h; contradiction
  · next heq => rw [(List.cons.inj heq).1] at h; contradiction
  · simp [hsplit]

theorem split?_word {c : Char} {word rest : List Char} (start : isWordStart c = true)
    (h : ∀ d ∈ c :: word, isWordChar d = true) (hs : Stops extendsWord rest) (operand : Bool) :
    Lexeme.split? operand (c :: word ++ rest) = some (.word (c :: word), rest) := by
  have hq := quoted?_word h (by simp) hs
  have hword : Stops isWordChar rest := hs.mono fun c hc => by simp [extendsWord, hc]
  have hw : word? (c :: word ++ rest) = some (.word (c :: word), rest) := by
    simp only [word?, hword.takeWhile_eq h, hword.dropWhile_eq h]
    simp [start]
  simp only [Lexeme.split?, hq, hw, Option.none_or]
  rw [List.cons_append, number?_word start]
  rfl

theorem split?_identifier {word rest : List Char} (h : Name.isIdentifier word = true)
    (hs : Stops extendsWord rest) (operand : Bool) :
    Lexeme.split? operand (word ++ rest) = some (.word word, rest) := by
  obtain ⟨c, tail, rfl, start, hword⟩ := Name.word_of_isIdentifier h
  exact split?_word start hword hs operand

/-- A word has no blanks in it. -/
theorem word?_sound {text word after : List Char} (h : word? text = some (.word word, after)) :
    text = word ++ after ∧ IsWord word := by
  unfold word? at h
  split_ifs at h with hstart
  obtain ⟨hword, rfl⟩ := Prod.mk.inj (Option.some.inj h)
  obtain rfl := Lexeme.word.inj hword
  refine ⟨List.takeWhile_append_dropWhile.symm, ?_, fun c hc => ?_⟩
  · cases text with
    | nil => contradiction
    | cons c rest =>
      have hc : isWordChar c = true := by simpa [isWordChar] using .inl hstart
      simp [hc]
  · exact isBlank_of_isWordChar (of_mem_takeWhile hc)

/-- The symbol that a word stands for. -/
def wordSymbol (text : List Char) : Symbol :=
  match Keyword.ofWord? (String.ofList (Name.lowerCase text)) with
  | some keyword => .keyword keyword (String.ofList text)
  | none => .name (String.ofList text)

theorem symbol_word {text : List Char} (h : Name.isIdentifier text = true) (position : Nat) :
    (Lexeme.word text).symbol position = .ok (wordSymbol text) := by
  have hnone : Name.invalidOffset? text = none := by simpa [Name.isIdentifier] using h
  simp only [Lexeme.symbol, Lexeme.wordSymbol, hnone]
  rfl

theorem Spells.word {operand : Bool} {word rest : List Char} {symbols : List Symbol}
    (h : Name.isIdentifier word = true) (hs : Stops extendsWord rest)
    (further : Spells (wordSymbol word).endsOperand rest symbols) :
    Spells operand (word ++ rest) (wordSymbol word :: symbols) :=
  .lexeme (split?_identifier h hs operand) (symbol_word h) further

theorem extendsOperand_of_extendsWord {c : Char} (h : extendsWord c = true) :
    extendsOperand c = true := by
  simp [extendsOperand, h]

/-- A word that is an identifier, or a keyword. -/
theorem Spelling.word {word : List Char} (h : Name.isIdentifier word = true) :
    Spelling word [wordSymbol word] := by
  intro rest further hf
  exact .word h (hf.stops.mono fun _ => extendsOperand_of_extendsWord) (hf.spells _)

theorem mem_literalWords {word : String} {keyword : Keyword}
    (h : Keyword.ofWord? word = some keyword)
    (hk : keyword = .true ∨ keyword = .false ∨ keyword = .null) : word ∈ Name.literalWords := by
  unfold Keyword.ofWord? at h
  split at h <;> cases h <;> simp [Name.literalWords] at hk ⊢

/-- The symbol that a name spells as it is written in a path. -/
def nameSymbol (name : String) : Symbol :=
  if Name.standsBare name.toList then wordSymbol name.toList else .name name

theorem nameText?_nameSymbol (name : String) : Path.nameText? (nameSymbol name) = some name := by
  unfold nameSymbol
  split_ifs with hbare
  · obtain ⟨-, hliteral⟩ := Bool.and_eq_true_iff.mp hbare
    -- The three literal words are excluded, and the other keywords stand as names.
    unfold wordSymbol
    split
    · next keyword hk =>
      have hno : ¬ (keyword = .true ∨ keyword = .false ∨ keyword = .null) := by
        intro hword
        have := mem_literalWords hk hword
        simp [this] at hliteral
      cases keyword <;> simp [Path.nameText?] at hno ⊢
    · simp [Path.nameText?]
  · rfl

theorem endsOperand_wordSymbol (name : String) :
    (wordSymbol name.toList).endsOperand = !Name.isBareKeyword name := by
  unfold wordSymbol Name.isBareKeyword
  split
  · next keyword hkeyword =>
    unfold Keyword.ofWord? at hkeyword
    split at hkeyword <;> cases hkeyword <;> simp [*, Symbol.endsOperand, Name.bareKeywords]
  · next hnone =>
    unfold Keyword.ofWord? at hnone
    split at hnone <;> simp_all [Symbol.endsOperand, Name.bareKeywords]

/-- An operand ends with a name unless the name is written as a keyword. -/
theorem endsOperand_nameSymbol (name : String) :
    (nameSymbol name).endsOperand = !Name.isBareKeyword name := by
  unfold nameSymbol
  split_ifs with hbare
  · exact endsOperand_wordSymbol name
  · have hno : Name.isBareKeyword name = false := by
      by_contra h
      exact hbare (Name.standsBare_of_isBareKeyword (Bool.eq_true_of_not_eq_false h))
    rw [hno]
    rfl

/-- A name as it is written in a path spells its symbol before anything that is no part of a
word. -/
theorem Spells.quote {operand : Bool} {name : String} {rest : List Char} {symbols : List Symbol}
    (hs : Stops extendsWord rest) (further : Spells (nameSymbol name).endsOperand rest symbols) :
    Spells operand ((Name.quote name).toList ++ rest) (nameSymbol name :: symbols) := by
  unfold Name.quote nameSymbol at *
  split_ifs at further ⊢ with hbare
  · exact .word (Bool.and_eq_true_iff.mp hbare).1 hs further
  · have hq : rest.head? ≠ some '\x60' := by
      intro hq
      have := hs '\x60' hq
      contradiction
    have htext : (String.ofList ('\x60' :: Name.doubleBackticks name.toList ++ ['\x60'])).toList ++
        rest = '\x60' :: (Name.doubleBackticks name.toList ++ '\x60' :: rest) := by
      simp
    rw [htext]
    refine .lexeme (split?_quoted (l := .quotedName name.toList) ?_) (fun position => ?_) further
    · simp [quoted?, quotedName?_doubleBackticks name.toList hq]
    · simp [Lexeme.symbol]

end AttributeExpr.Lexer
