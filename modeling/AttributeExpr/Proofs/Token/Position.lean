import AttributeExpr.Proofs.Literal.Escape
import AttributeExpr.Proofs.Token.Reading
import AttributeExpr.Proofs.Token.Stretch
/-!
The places of lexical errors. What stands in the text at the place of an error is what the error is
about: the character that cannot stand there, the quote or the `b` with which a literal begins, or
the backslash of an escape.
-/
namespace AttributeExpr

/-- The text begins like a binary literal: with `b` or `b64` and a quote. -/
inductive OpensBinary : List Char → Prop where
  | escaped {quote : Char} (h : quote = '\x22' ∨ quote = '\x27') (rest : List Char) :
      OpensBinary ('b' :: quote :: rest)
  | base64 {quote : Char} (h : quote = '\x22' ∨ quote = '\x27') (rest : List Char) :
      OpensBinary ('b' :: '6' :: '4' :: quote :: rest)

theorem OpensBinary.ne_nil {text : List Char} (h : OpensBinary text) : text ≠ [] := by
  rintro rfl
  cases h

namespace LexicalError

/-- The error is about what stands at the beginning of the text. -/
def Fits : LexicalError → List Char → Prop
  | unexpectedChar c _, text => text.head? = some c
  | unterminatedString _, text => text.head? = some '\x22' ∨ text.head? = some '\x27'
  | unterminatedName _, text => text.head? = some '\x60'
  | unterminatedBinary _, text | base64 _ _, text => OpensBinary text
  | escapeAtEnd _, text | unicodeEscape _ _, text | stringEscape _ _, text
  | loneLowSurrogate _, text | brokenSurrogatePair _, text | byteEscape _ _, text
  | byteEscapeDigits _ _, text | byteEscapeRange _ _, text => text.head? = some '\\'

/-- The place of the error lies in the text, which begins at `start`, and the error is about what
stands there. -/
def PointsInto (error : LexicalError) (start : Nat) (text : List Char) : Prop :=
  ∃ offset, error.position = start + offset ∧ offset < text.length ∧ error.Fits (text.drop offset)

variable {error : LexicalError} {text : List Char}

theorem Fits.ne_nil (h : error.Fits text) : text ≠ [] := by
  rintro rfl
  cases error with
  | unterminatedString => rcases h with h | h <;> cases h
  | _ => cases h

theorem fits_escape (escape : error.IsEscape) (h : text.head? = some '\\') : error.Fits text := by
  cases error with
  | unterminatedString | unterminatedName | unterminatedBinary | unexpectedChar | base64 =>
    cases escape
  | _ => exact h

theorem Fits.pointsInto {start offset : Nat} (h : error.Fits (text.drop offset))
    (hposition : error.position = start + offset) : error.PointsInto start text := by
  refine ⟨offset, hposition, ?_, h⟩
  by_contra hle
  exact h.ne_nil (List.drop_eq_nil_of_le (Nat.le_of_not_lt hle))

theorem Fits.pointsInto_zero (h : error.Fits (text.drop error.position)) :
    error.PointsInto 0 text :=
  h.pointsInto (Nat.zero_add _).symm

/-- An error in a later part of a text is one in the text. -/
theorem PointsInto.later {start : Nat} (front : List Char)
    (h : error.PointsInto (start + front.length) text) :
    error.PointsInto start (front ++ text) := by
  obtain ⟨offset, hposition, -, fits⟩ := h
  have hdrop : (front ++ text).drop (front.length + offset) = text.drop offset := by
    rw [List.drop_append, List.drop_eq_nil_of_le (Nat.le_add_right _ _), Nat.add_sub_cancel_left,
      List.nil_append]
  rw [← hdrop] at fits
  exact fits.pointsInto (by rw [hposition, Nat.add_assoc])

end LexicalError

/-- An escape inside a literal is one of the text that the literal is in. -/
theorem BreaksAt.pointsInto {start : Nat} {body : List Char} {error : LexicalError}
    (h : BreaksAt start body error) (after : List Char) :
    error.PointsInto start (body ++ after) := by
  obtain ⟨escape, offset, hposition, hslash⟩ := h
  obtain ⟨hlt, -⟩ := List.getElem?_eq_some_iff.mp hslash
  refine LexicalError.Fits.pointsInto (LexicalError.fits_escape escape ?_) hposition
  rw [List.head?_drop, List.getElem?_append_left hlt, hslash]

/-! Errors inside a lexeme. -/

namespace Lexeme

variable {operand : Bool} {text after : List Char} {lexeme : Lexeme}

/-- What is neither a number nor a word nor a mark begins like a literal or a quoted name. -/
theorem quoted?_of_split? (h : split? operand text = some (lexeme, after))
    (number : ∀ numeral, lexeme ≠ .number numeral) (word : ∀ word, lexeme ≠ .word word)
    (mark : ∀ m, lexeme ≠ .mark m) : quoted? text = some (lexeme, after) := by
  simp only [split?, Option.or_eq_some_iff] at h
  rcases h with hquoted | ⟨-, hnumber | ⟨-, hword | ⟨-, hmark⟩⟩⟩
  · exact hquoted
  · unfold number? at hnumber
    split at hnumber
    all_goals
      obtain ⟨⟨numeral, after'⟩, -, heq⟩ := Option.map_eq_some_iff.mp hnumber
    case h_1 | h_2 =>
      -- Behind an operand a sign is a mark of its own.
      split_ifs at heq
      · exact absurd (Prod.mk.inj heq).1.symm (mark _)
      · exact absurd (Prod.mk.inj heq).1.symm (number _)
    case h_3 => exact absurd (Prod.mk.inj heq).1.symm (number _)
  · unfold word? at hword
    split_ifs at hword
    exact absurd (Prod.mk.inj (Option.some.inj hword)).1.symm (word _)
  · obtain ⟨⟨m, after'⟩, -, heq⟩ := Option.map_eq_some_iff.mp hmark
    exact absurd (Prod.mk.inj heq).1.symm (mark _)

/-- What a literal or a quoted name takes of a text, and what stands behind it. -/
inductive Quoted : List Char → Lexeme → List Char → Prop where
  | base64 {text : List Char} (opens : OpensBinary text) (body after : List Char) :
      Quoted text (.base64 body) after
  | bytes (continuation : Bool) (quote : Char) (body after : List Char) :
      Quoted (['b', quote] ++ (body ++ quote :: after)) (.bytes continuation body) after
  | string (body after : List Char) :
      Quoted (['\x22'] ++ (body ++ '\x22' :: after)) (.string body) after
  | verbatim (body after : List Char) :
      Quoted (['\x27'] ++ (body ++ '\x27' :: after)) (.verbatim body) after
  | quotedName {text name after : List Char} (h : quotedName? text = some (name, after)) :
      Quoted ('\x60' :: text) (.quotedName name) after

theorem quoted_of_quoted? (h : quoted? text = some (lexeme, after)) :
    Quoted text lexeme after := by
  unfold quoted? at h
  split at h
  case h_8 => cases h
  all_goals
    obtain ⟨⟨body, after'⟩, hbody, heq⟩ := Option.map_eq_some_iff.mp h
    obtain ⟨rfl, rfl⟩ := Prod.mk.inj heq
  case h_1 => exact .base64 (.base64 (.inl rfl) _) _ _
  case h_2 => exact .base64 (.base64 (.inr rfl) _) _ _
  case h_3 | h_4 =>
    rw [escapedBody?_sound hbody]
    exact .bytes _ _ _ _
  case h_5 =>
    rw [escapedBody?_sound hbody]
    exact .string _ _
  case h_6 =>
    rw [escapedBody?_sound hbody]
    exact .verbatim _ _
  case h_7 => exact .quotedName hbody

/-- A lexeme that stands for nothing has an error in its own text. -/
theorem symbol_failsOnly (h : split? operand text = some (lexeme, after)) (position : Nat) :
    FailsOnly (LexicalError.PointsInto · position text) (lexeme.symbol position) := by
  cases lexeme with
  | base64 body =>
    cases quoted_of_quoted? (quoted?_of_split? h nofun nofun nofun) with
    | base64 opens =>
      have hdecode : FailsOnly (LexicalError.PointsInto · position text)
          (Base64Body.decode position body) := by
        refine failsOnly_mapError (fun fault => ?_) _
        exact ⟨0, rfl, List.length_pos_of_ne_nil opens.ne_nil, opens⟩
      exact hdecode.map _
  | bytes continuation body =>
    cases quoted_of_quoted? (quoted?_of_split? h nofun nofun nofun) with
    | bytes _ quote =>
      refine FailsOnly.map (FailsOnly.mono (ByteBody.decodeFrom_failsOnly _ _ _ _) ?_) _
      intro error breaks
      exact LexicalError.PointsInto.later ['b', quote] (breaks.pointsInto _)
  | string body =>
    cases quoted_of_quoted? (quoted?_of_split? h nofun nofun nofun) with
    | string =>
      refine FailsOnly.map (FailsOnly.mono (StringBody.decode_failsOnly _ _) ?_) _
      intro error breaks
      exact LexicalError.PointsInto.later ['\x22'] (breaks.pointsInto _)
  | word word =>
    obtain ⟨front, rfl, hfront⟩ := split?_alone h
    obtain ⟨rfl, isWord⟩ := Lexer.word?_sound (split?_eq_word hfront)
    show FailsOnly _ (wordSymbol position word)
    rw [List.append_nil]
    unfold wordSymbol
    split
    · next offset hoffset =>
      have hlt := Name.invalidOffset?_lt isWord.nonempty hoffset
      refine failsOnly_error (LexicalError.Fits.pointsInto ?_ rfl)
      show ((word ++ after).drop offset).head? = some (word.getD offset ' ')
      rw [List.head?_drop, List.getElem?_append_left hlt, List.getElem?_eq_getElem hlt,
        List.getD_eq_getElem _ _ hlt]
    · exact failsOnly_ok _
  | verbatim | quotedName | number | mark => exact failsOnly_ok _

/-- A name that takes up no more characters than it has is a word. -/
theorem eq_of_symbol_name {front : List Char} {name : String} {position : Nat}
    (h : split? false front = some (lexeme, []))
    (hsymbol : lexeme.symbol position = .ok (.name name))
    (hlength : front.length ≤ name.toList.length) :
    front = name.toList ∧ lexeme = .word name.toList := by
  cases lexeme with
  | word word =>
    obtain ⟨rfl, -⟩ := Lexer.word?_sound (split?_eq_word h)
    rcases symbol_word_cases hsymbol with heq | ⟨_, heq⟩ <;> cases heq
    simp
  | quotedName name' =>
    obtain rfl : String.ofList name' = name := Symbol.name.inj (Except.ok.inj hsymbol)
    cases quoted_of_quoted? (quoted?_of_split? h nofun nofun nofun) with
    | quotedName hname =>
      have hlonger := quotedName?_name_length hname
      rw [String.toList_ofList, List.length_cons] at hlength
      omega
  | base64 | bytes | string =>
    obtain ⟨_, -, heq⟩ := map_eq_ok_iff.mp hsymbol
    cases heq
  | verbatim | number | mark => cases hsymbol

end Lexeme

/-! Errors of a scan. -/

namespace Lexer

/-- The token is the last one of the text, and nothing but a gap follows it. -/
def EndsWith (text : List Char) (token : Token) : Prop :=
  ∃ before front gap lexeme, text = before ++ front ++ gap ∧ before.length = token.position ∧
    Lexeme.split? false front = some (lexeme, []) ∧
      lexeme.symbol token.position = .ok token.symbol

/-- The name that is taken for the beginning of a binary literal is `b` or `b64` as it stands in
the text, right in front of the quote. -/
theorem opensBinary_of_introducesBinary {text : List Char} {token : Token} {quote : Char}
    (ends : EndsWith text token) (h : introducesBinary text.length token = true)
    (hquote : quote = '\x22' ∨ quote = '\x27') (rest : List Char) :
    OpensBinary ((text ++ quote :: rest).drop token.position) := by
  obtain ⟨before, front, gap, lexeme, rfl, hbefore, hfront, hsymbol⟩ := ends
  have adjacent {name : String} (hname : token.symbol = .name name)
      (hposition : token.position + name.toList.length = (before ++ front ++ gap).length) :
      front = name.toList ∧ gap = [] := by
    rw [hname] at hsymbol
    rw [List.length_append, List.length_append, hbefore] at hposition
    obtain ⟨rfl, -⟩ := Lexeme.eq_of_symbol_name hfront hsymbol (by omega)
    exact ⟨rfl, List.length_eq_zero_iff.mp (by omega)⟩
  rw [introducesBinary, Bool.or_eq_true] at h
  rcases h with h | h
  · simp only [Bool.and_eq_true, decide_eq_true_eq] at h
    obtain ⟨rfl, rfl⟩ := adjacent h.1 h.2
    simpa [← hbefore] using OpensBinary.escaped hquote rest
  · simp only [Bool.and_eq_true, decide_eq_true_eq] at h
    obtain ⟨rfl, rfl⟩ := adjacent h.1 h.2
    simpa [← hbefore] using OpensBinary.base64 hquote rest

theorem stray_pointsInto {text : List Char} {previous : Option Token}
    (ends : ∀ token ∈ previous, EndsWith text token) (c : Char) (rest : List Char) :
    (stray text.length previous c).PointsInto 0 (text ++ c :: rest) := by
  have here : ((text ++ c :: rest).drop text.length).head? = some c := by simp
  unfold stray
  split_ifs with hquote hbacktick
  · have hquote : c = '\x22' ∨ c = '\x27' := by simpa using hquote
    split
    · next token hfilter =>
      obtain ⟨hprevious, introduces⟩ := Option.filter_eq_some_iff.mp hfilter
      have opens := opensBinary_of_introducesBinary (ends token hprevious) introduces hquote rest
      exact LexicalError.Fits.pointsInto_zero opens
    · have fits : (LexicalError.unterminatedString text.length).Fits
          ((text ++ c :: rest).drop text.length) := by
        rcases hquote with rfl | rfl
        · exact .inl here
        · exact .inr here
      exact fits.pointsInto_zero
  · subst hbacktick
    exact LexicalError.Fits.pointsInto_zero here
  · exact LexicalError.Fits.pointsInto_zero here

/-- The fault of a scan is in the text that was scanned, which may be in front of the place where
the scan began. -/
theorem scanFrom_pointsInto {position line : Nat} {previous : Option Token} {rest : List Char} :
    ∀ text : List Char, text.length = position → (∀ token ∈ previous, EndsWith text token) →
      ∀ error ∈ (scanFrom position line previous rest).fault,
        ∃ e : LexicalError, error = e ∧ e.PointsInto 0 (text ++ rest) := by
  fun_induction scanFrom position line previous rest with
  | case1 => simp
  | case2 position line previous c rest _ ih =>
    rintro text rfl ends
    have further : ∀ token ∈ previous, EndsWith (text ++ [c]) token := by
      intro token htoken
      obtain ⟨before, front, gap, lexeme, rfl, hfront⟩ := ends token htoken
      exact ⟨before, front, gap ++ [c], lexeme, List.append_assoc _ _ _, hfront⟩
    simpa using ih (text ++ [c]) List.length_append further
  | case3 position line previous c rest =>
    rintro text rfl ends error herror
    obtain rfl := Option.some.inj herror
    exact ⟨_, rfl, stray_pointsInto ends c rest⟩
  | case4 position line previous c rest _ lexeme after hsplit _ _ e hsymbol =>
    rintro text rfl ends error herror
    obtain rfl := Option.some.inj herror
    refine ⟨e, rfl, LexicalError.PointsInto.later text ?_⟩
    rw [Nat.zero_add]
    exact Lexeme.symbol_failsOnly hsplit text.length e hsymbol
  | case5 position line previous c rest _ lexeme after hsplit _ _ symbol hsymbol _ ih =>
    rintro text rfl ends
    obtain ⟨front, htext, hfront⟩ := Lexeme.split?_alone hsplit
    have hlength : (c :: rest).length - after.length = front.length := by
      rw [htext, List.length_append, Nat.add_sub_cancel]
    rw [hlength] at ih ⊢
    have last : ∀ token ∈ some (⟨symbol, text.length, line⟩ : Token),
        EndsWith (text ++ front) token := by
      rintro token ⟨⟩
      exact ⟨text, front, [], lexeme, (List.append_nil _).symm, rfl, hfront, hsymbol⟩
    have further := ih (text ++ front) List.length_append last
    rwa [List.append_assoc, ← htext] at further

/-- Tokens begin inside the text. -/
theorem position_lt_of_mem_scanFrom {position line : Nat} {previous : Option Token}
    {text : List Char} : ∀ token ∈ (scanFrom position line previous text).tokens,
      token.position < position + text.length := by
  fun_induction scanFrom position line previous text with
  | case1 => simp
  | case2 position line previous c rest _ ih =>
    intro token htoken
    have hlt := ih token htoken
    rw [List.length_cons]
    omega
  | case3 => simp
  | case4 => simp
  | case5 position line previous c rest _ lexeme after hsplit hlength _ symbol _ _ ih =>
    intro token htoken
    rcases List.mem_cons.mp htoken with rfl | htoken
    · exact Nat.lt_add_of_pos_right (Nat.zero_lt_succ _)
    · have hlt := ih token htoken
      omega

end Lexer

/-- A fault of nesting has the place of a token. -/
theorem Nesting.checkFrom_atToken {fault : Option ExpressionError} {line : Nat}
    {opened : List Opening} {tokens all : List Token} (hsub : tokens ⊆ all)
    (hopened : ∀ opening ∈ opened, ∃ token ∈ all, token.position = opening.position) :
    ∀ error ∈ (checkFrom fault line opened tokens).fault,
      error ∈ fault ∨ ∃ e : GrammarError, error = e ∧ Reading.AtToken all e := by
  induction tokens generalizing opened with
  | nil =>
    intro error herror
    cases fault with
    | some error' => exact .inl herror
    | none =>
      cases opened with
      | nil => contradiction
      | cons innermost outer =>
        obtain rfl := Option.some.inj herror
        obtain ⟨token, htoken, heq⟩ := hopened innermost List.mem_cons_self
        exact .inr ⟨_, rfl, Reading.atToken_of_mem htoken (congrArg some heq.symm)⟩
  | cons token tokens ih =>
    obtain ⟨htoken, htokens⟩ := List.cons_subset.mp hsub
    have hstray (bracket : Bracket) : ∀ error ∈ (checkFrom.stray bracket token).fault,
        error ∈ fault ∨ ∃ e : GrammarError, error = e ∧ Reading.AtToken all e := by
      intro error herror
      obtain rfl := Option.some.inj herror
      exact .inr ⟨_, rfl, Reading.atToken_of_mem htoken rfl⟩
    rw [checkFrom.eq_def]
    dsimp only
    split
    · exact ih htokens (List.forall_mem_cons.mpr ⟨⟨token, htoken, rfl⟩, hopened⟩)
    · split
      · exact ih htokens (List.forall_mem_cons.mp hopened).2
      · exact hstray _
    · exact hstray _
    · exact ih htokens hopened

end AttributeExpr
