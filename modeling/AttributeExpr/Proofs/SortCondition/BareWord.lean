import AttributeExpr.Proofs.SortCondition.BareLanguage
import AttributeExpr.Proofs.SortCondition.DoubleSign
import AttributeExpr.Proofs.SortCondition.Policy
import AttributeExpr.Proofs.Token.Scan
/-!
Words without quotes behind `begins_with`. A word is read as a literal only if it is a number, and
as itself otherwise. For a string key both come to the characters of the word, except that a number
has lost a plus sign before its numeral.
-/
namespace AttributeExpr.SortCondition

open Lexer (Spells signChar signMark signedText)
open Numeral (Unsigned)
open Value (IsScalarSymbol)

/-- A word that is written without quotes and has none in it. -/
structure IsPlainWord (word : String) : Prop where
  isWord : IsWord word.toList
  double : '\x22' ∉ word.toList
  single : '\x27' ∉ word.toList

/-- A plus sign before a numeral, alone or behind another sign. -/
def HasPlus (word : String) : Prop :=
  ∃ numeral : String, Unsigned numeral.toList ∧
    (word = "+" ++ numeral ∨ ∃ first, word = (signMark first).text ++ "+" ++ numeral)

/-! Reading the word as a literal. -/

theorem signed_eq_ok {negative : Bool} {position : Nat} {text : String} {value : Value}
    (h : signed negative position text = .ok value) :
    text.toList.head?.any Numeral.isSign = false ∧ value = .number (signedText negative text) := by
  unfold signed at h
  split at h
  · contradiction
  · next hsign => exact ⟨by simpa using hsign, (Except.ok.inj h).symm⟩

/-- The symbols that are read as a scalar. -/
inductive Scalars : List Symbol → Value → Prop where
  | single {symbol : Symbol} {value : Value} (h : IsScalarSymbol symbol value) :
      Scalars [symbol] value
  | signed (negative : Bool) {text : String}
      (h : text.toList.head?.any Numeral.isSign = false) :
      Scalars [.mark (signMark negative), .number text] (.number (signedText negative text))

theorem readScalar_eq_ok {fault : Option ExpressionError} {tokens : List Token} {value : Value}
    (h : readScalar fault tokens = .ok (value, [])) : Scalars (tokens.map (·.symbol)) value := by
  unfold readScalar at h
  split at h
  · obtain ⟨rfl, rfl⟩ := Prod.mk.inj (Except.ok.inj h)
    exact .single (.number _)
  · obtain ⟨rfl, rfl⟩ := Prod.mk.inj (Except.ok.inj h)
    exact .single (.string _)
  · obtain ⟨rfl, rfl⟩ := Prod.mk.inj (Except.ok.inj h)
    exact .single (.binary _)
  · obtain ⟨text, _, _, rfl, hsigned⟩ := readSigned_eq_ok h
    obtain ⟨hsign, rfl⟩ := signed_eq_ok hsigned
    exact .signed true hsign
  · obtain ⟨text, _, _, rfl, hsigned⟩ := readSigned_eq_ok h
    obtain ⟨hsign, rfl⟩ := signed_eq_ok hsigned
    exact .signed false hsign
  · exact absurd h (Reading.fail_ne_ok _ _ _)

/-- A condition of `begins_with` is the keyword and what is read as a scalar behind it. -/
theorem parse_beginsWith_sound {word : String} {condition : SortCondition}
    (h : parse ("begins_with " ++ word) = .ok condition) :
    ∃ symbols start, Spells false word.toList symbols ∧ Scalars symbols start ∧
      condition = beginsWith start := by
  obtain ⟨hfault, hread⟩ := Reading.complete_eq_ok h
  have hspells := Lexer.spells_of_tokenize (tokenize_of_scanNested hfault)
  generalize (scanNested ("begins_with " ++ word)).tokens = tokens at hread hspells
  have htext : ("begins_with " ++ word).toList = "begins_with".toList ++ ' ' :: word.toList := by
    simp
  rw [htext] at hspells
  have hsplit := Lexer.split?_identifier isKeyword_beginsWith.identifier
    (stops_cons.mpr (by decide) : Stops Lexer.extendsWord (' ' :: word.toList)) false
  obtain ⟨symbol, further, htokens, hreads, hrest⟩ := hspells.of_split? hsplit
  obtain rfl : symbol = .keyword .beginsWith "begins_with" := by
    have := hreads 0
    rw [Lexer.symbol_word isKeyword_beginsWith.identifier, isKeyword_beginsWith.symbol] at this
    exact (Except.ok.inj this).symm
  obtain ⟨position, line, behind, rfl, hbehind⟩ := Reading.exists_token htokens
  rw [hfault] at hread
  obtain ⟨⟨start, rest⟩, hscalar, heq⟩ := bind_eq_ok_iff.mp hread
  obtain ⟨rfl, rfl⟩ := Prod.mk.inj (Except.ok.inj heq)
  have hscalars := readScalar_eq_ok hscalar
  rw [hbehind] at hscalars
  exact ⟨further, start, hrest.of_separator (by decide), hscalars, rfl⟩

section

variable {word : List Char} (solid : ∀ c ∈ word, Lexer.isSeparator c = false)

include solid

/-- A word that is a number is a numeral, or a sign and a numeral. -/
theorem number_of_spells {text : String} (h : Spells false word [.number text]) :
    ∃ numeral : String, Unsigned numeral.toList ∧ (word = numeral.toList ∧ text = numeral ∨
      ∃ negative, word = signChar negative :: numeral.toList ∧
        text = signedText negative numeral) := by
  obtain ⟨lexeme, rest, hsplit, hreads, hrest⟩ := h.exists_split? solid
  obtain rfl := Lexeme.symbol_eq_number (hreads 0)
  have hnil (front : List Char) (hword : word = front ++ rest) : rest = [] :=
    hrest.eq_nil fun c hc => solid c (by simp [hword, hc])
  have hcut := Lexeme.cut_of_split? hsplit
  generalize hchars : text.toList = chars at hcut
  cases hcut with
  | number unsigned split =>
    subst hchars
    obtain rfl := hnil text.toList split
    exact ⟨text, unsigned, .inl ⟨by simpa using split, rfl⟩⟩
  | plus unsigned _ split =>
    subst hchars
    obtain rfl := hnil ('+' :: text.toList) split
    exact ⟨text, unsigned, .inr ⟨false, by simpa [signChar] using split, rfl⟩⟩
  | @minus numeral unsigned _ split =>
    obtain rfl := hnil ('-' :: numeral) split
    refine ⟨String.ofList numeral, by simpa using unsigned, .inr ⟨true, ?_, ?_⟩⟩
    · simpa [signChar] using split
    · rw [← String.toList_inj, hchars]
      simp [signedText]

/-- Two symbols for a sign and a number are two signs and a numeral, since a single sign would have
been taken by the numeral. -/
theorem signed_of_spells {negative : Bool} {text : String}
    (h : Spells false word [.mark (signMark negative), .number text]) :
    ∃ numeral : String, Unsigned numeral.toList ∧ ∃ second,
      word = signChar negative :: signChar second :: numeral.toList ∧
        text = signedText second numeral := by
  obtain ⟨lexeme, rest, hsplit, hreads, hrest⟩ := h.exists_split? solid
  obtain rfl := Lexeme.symbol_eq_mark (hreads 0)
  rw [Lexer.endsOperand_signMark] at hrest
  have hword : word = signChar negative :: rest := by
    cases Lexeme.cut_of_split? hsplit with
    | mark split => cases negative <;> exact split
  subst hword
  obtain ⟨numeral, unsigned, ⟨rfl, rfl⟩ | ⟨second, rfl, rfl⟩⟩ :=
    number_of_spells (fun c hc => solid c (by simp [hc])) hrest
  · have hnumeral : Numeral.split? text.toList = some (text.toList, []) := by
      simpa using Numeral.split?_append unsigned (stops_nil _)
    rw [Lexer.split?_sign, hnumeral] at hsplit
    cases hsplit
  · exact ⟨numeral, unsigned, second, rfl, rfl⟩

end

theorem IsPlainWord.solid {word : String} (h : IsPlainWord word) :
    ∀ c ∈ word.toList, Lexer.isSeparator c = false := by
  intro c hc
  by_contra hseparator
  have hblank := Lexer.isBlank_of_isSeparator (Bool.eq_true_of_not_eq_false hseparator)
  rw [h.isWord.solid c hc] at hblank
  contradiction

theorem toList_signText (negative : Bool) (text : String) :
    ((signMark negative).text ++ text).toList = signChar negative :: text.toList := by
  cases negative <;> simp [signMark, signChar, Mark.text]

/-- A string or a binary has its quotes in the text. -/
theorem quote_mem_of_spells {text : List Char} (solid : ∀ c ∈ text, Lexer.isSeparator c = false)
    {symbol : Symbol} (literal : (∃ t, symbol = .string t) ∨ ∃ bytes, symbol = .binary bytes)
    (h : Spells false text [symbol]) : '\x22' ∈ text ∨ '\x27' ∈ text := by
  obtain ⟨lexeme, rest, hsplit, hreads, -⟩ := h.exists_split? solid
  have hsymbol := hreads 0
  cases Lexeme.cut_of_split? hsplit with
  | base64 _ hquote => exact hquote
  | bytes _ _ hquote => exact hquote
  | string _ hquote => exact .inl hquote
  | verbatim _ hquote => exact .inr hquote
  | word =>
    rcases Lexeme.symbol_word_cases hsymbol with rfl | ⟨_, rfl⟩ <;> simp at literal
  | quotedName | number | plus | minus | mark =>
    cases hsymbol
    simp at literal

/-- A word that is read as a literal is a number with its own text, if no plus sign is dropped. -/
theorem start_of_scalars {word : String} (h : IsPlainWord word) (hplus : ¬ HasPlus word)
    {symbols : List Symbol} {start : Value} (spells : Spells false word.toList symbols)
    (scalars : Scalars symbols start) : start = .number word := by
  cases scalars with
  | single symbol =>
    cases symbol with
    | number text =>
      obtain ⟨numeral, unsigned, ⟨hword, rfl⟩ | ⟨negative, hword, rfl⟩⟩ :=
        number_of_spells h.solid spells
      · rw [String.toList_inj.mp hword]
      · rw [← toList_signText, String.toList_inj] at hword
        cases negative with
        | false => exact absurd ⟨numeral, unsigned, .inl hword⟩ hplus
        | true =>
          rw [hword]
          rfl
    | string text =>
      exact ((quote_mem_of_spells h.solid (.inl ⟨_, rfl⟩) spells).elim h.double h.single).elim
    | binary bytes =>
      exact ((quote_mem_of_spells h.solid (.inr ⟨_, rfl⟩) spells).elim h.double h.single).elim
  | @signed negative text hsign =>
    obtain ⟨numeral, unsigned, second, hword, rfl⟩ := signed_of_spells h.solid spells
    rw [← toList_signText second, ← toList_signText, String.toList_inj] at hword
    cases second with
    | false =>
      refine absurd ⟨numeral, unsigned, .inr ⟨negative, ?_⟩⟩ hplus
      rw [hword, String.append_assoc]
      rfl
    | true => simp [signedText, Numeral.isSign] at hsign

/-! Reading the word as itself. -/

theorem parseBare?_beginsWith {word : String} (h : IsWord word.toList) :
    parseBare? ("begins_with " ++ word) = some (beginsWith (.string word)) := by
  have htext : ("begins_with " ++ word).toList = "begins_with".toList ++ ' ' :: word.toList := by
    simp
  have hwords : words ("begins_with ".toList ++ word.toList) =
      ["begins_with".toList, word.toList] := by
    have hblank := @words_append _ (' ' :: word.toList) isWord_beginsWith rfl
    rw [words_blank rfl, words_eq_self h] at hblank
    simpa using hblank
  rw [parseBare?, String.toList_append, hwords]
  simp [comparisonSigns, compareWith?, trimStart, isBlank, ofWords?, isFormOfWord, isFormOf,
    wordValue]

/-! Either way the string is the word. -/

section

variable {key : Key} (hkey : key.type = .string)

include hkey

/-- For a string key, a number is taken as the string of its text, and a string as it is. -/
theorem resolve_beginsWith {start : Value} {text : String}
    (h : start = .number text ∨ start = .string text) :
    (beginsWith start).resolve false key = .ok (beginsWith (.string text)) := by
  have hasks : (beginsWith start).asksNumberStart key = false := by simp [asksNumberStart, hkey]
  have hcoerce : Value.coerce key.type start = .ok (.string text) := by
    rw [hkey]
    rcases h with rfl | rfl <;> rfl
  rw [resolve_false hasks, coerce, mapValues, hcoerce]
  rfl

/-- What `begins_with` makes of a word without a plus sign is the word. -/
theorem parseFor_plain {word : String} (h : IsPlainWord word) (hplus : ¬ HasPlus word) :
    parseFor false key ("begins_with " ++ word) = .ok (beginsWith (.string word)) := by
  cases hparse : parse ("begins_with " ++ word) with
  | ok condition =>
    obtain ⟨symbols, start, spells, scalars, rfl⟩ := parse_beginsWith_sound hparse
    rw [parseFor_of_parse hparse, start_of_scalars h hplus spells scalars,
      resolve_beginsWith hkey (.inl rfl)]
    rfl
  | error failure =>
    obtain ⟨error, rfl, -⟩ := (failsOnly_parse _ failure hparse).isTextual
    rw [parseFor_of_bare hparse hkey (parseBare?_beginsWith h.isWord), if_neg Bool.false_ne_true,
      resolve_beginsWith hkey (.inr rfl)]
    rfl

/-- A single plus sign before a numeral is dropped. -/
theorem parseFor_plus {numeral : String} (unsigned : Unsigned numeral.toList) :
    parseFor false key ("begins_with " ++ ("+" ++ numeral)) =
      .ok (beginsWith (.string numeral)) := by
  have spells : Spells false ("begins_with " ++ ("+" ++ numeral)).toList
      [.keyword .beginsWith "begins_with", .number numeral] := by
    have hstart := @IsKeyword.spells _ _ isKeyword_beginsWith false _ _
      (Lexer.spells_signed unsigned false false)
    simpa [signChar, Lexer.signedSymbols, signedText] using hstart
  have hparse : parse ("begins_with " ++ ("+" ++ numeral)) =
      .ok (beginsWith (.number numeral)) := by
    refine parse_of_spells spells (by simp [Nesting.IsBracket]) fun tokens htokens => ?_
    obtain ⟨_, _, tail, rfl, htail⟩ := Reading.exists_token htokens
    obtain ⟨_, _, tail, rfl, hnil⟩ := Reading.exists_token htail
    obtain rfl := List.map_eq_nil_iff.mp hnil
    rfl
  rw [parseFor_of_parse hparse, resolve_beginsWith hkey (.inl rfl)]
  rfl

end

/-- For a string key, `begins_with` and a word without blanks and quotes ask for the characters of
the word, whichever reader accepts it. Only a plus sign before a numeral is not among them: such a
word is read as a number, and numbers have no plus sign. -/
theorem parseFor_beginsWith {key : Key} (hkey : key.type = .string) {word : String}
    (h : IsPlainWord word) :
    (¬ HasPlus word →
      parseFor false key ("begins_with " ++ word) = .ok (beginsWith (.string word))) ∧
    ∀ numeral, Unsigned numeral.toList → word = "+" ++ numeral →
      parseFor false key ("begins_with " ++ word) = .ok (beginsWith (.string numeral)) := by
  refine ⟨parseFor_plain hkey h, ?_⟩
  rintro numeral unsigned rfl
  exact parseFor_plus hkey unsigned

theorem parseFor_beginsWith_date :
    IsPlainWord "2024-01-31" ∧ ¬ HasPlus "2024-01-31" ∧
      parseFor false ⟨"sk", .string⟩ ("begins_with " ++ "2024-01-31") =
        .ok (beginsWith (.string "2024-01-31")) := by
  have h : IsPlainWord "2024-01-31" :=
    ⟨⟨by simp, by simp [isBlank]⟩, by simp, by simp⟩
  have hplus : ¬ HasPlus "2024-01-31" := by
    rintro ⟨numeral, -, heq | ⟨first, heq⟩⟩
    · simpa using congrArg String.toList heq
    · cases first <;> simpa [signMark, Mark.text] using congrArg String.toList heq
  exact ⟨h, hplus, (parseFor_beginsWith rfl h).1 hplus⟩

/-- The plus sign of a telephone number is lost. -/
theorem not_parseFor_unchanged :
    IsPlainWord "+15551234" ∧
      parseFor false ⟨"sk", .string⟩ ("begins_with " ++ "+15551234") =
        .ok (beginsWith (.string "15551234")) ∧
      ¬ ∀ key word, key.type = AttributeType.string → IsPlainWord word →
        parseFor false key ("begins_with " ++ word) = .ok (beginsWith (.string word)) := by
  have h : IsPlainWord "+15551234" :=
    ⟨⟨by simp, by simp [isBlank]⟩, by simp, by simp⟩
  have hparse : parseFor false ⟨"sk", .string⟩ ("begins_with " ++ "+15551234") =
      .ok (beginsWith (.string "15551234")) :=
    @parseFor_plus ⟨"sk", .string⟩ rfl "15551234" (Numeral.unsigned_of_isUnsigned (by decide))
  refine ⟨h, hparse, fun hall => ?_⟩
  have hword := hall ⟨"sk", .string⟩ "+15551234" rfl h
  rw [hparse] at hword
  simp at hword

end AttributeExpr.SortCondition
