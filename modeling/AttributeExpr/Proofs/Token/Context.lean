import AttributeExpr.Proofs.Literal.ByteBody
import AttributeExpr.Proofs.Literal.Context
import AttributeExpr.Proofs.Token.Operand
/-!
The symbols of a text in a longer one. A text that is cut into tokens spells the same symbols
wherever no operand ends before it and a boundary follows it: every lexeme is found again, and
stands for the same symbol at its new position.
-/
namespace AttributeExpr

namespace Mark

theorem split?_less {rest : List Char} (h : ∀ c ∈ rest.head?, c ≠ '<' ∧ c ≠ '=') :
    split? ('<' :: rest) = some (less, rest) := by
  cases rest with
  | nil => rfl
  | cons c rest =>
    obtain ⟨hless, hequal⟩ := h c rfl
    simp [split?, hless, hequal]

theorem split?_greater {rest : List Char} (h : ∀ c ∈ rest.head?, c ≠ '>' ∧ c ≠ '=') :
    split? ('>' :: rest) = some (greater, rest) := by
  cases rest with
  | nil => rfl
  | cons c rest =>
    obtain ⟨hless, hequal⟩ := h c rfl
    simp [split?, hless, hequal]

theorem split?_equal {rest : List Char} (h : ∀ c ∈ rest.head?, c ≠ '=') :
    split? ('=' :: rest) = some (equal, rest) := by
  cases rest with
  | nil => rfl
  | cons c rest => simp [split?, h c rfl]

theorem head?_ne {c : Char} {rest : List Char} (h : ∀ tail, rest = c :: tail → False) :
    ∀ d ∈ rest.head?, d ≠ c := by
  rintro d hd rfl
  obtain ⟨tail, htail⟩ := List.head?_eq_some_iff.mp hd
  exact h tail htail

/-- A mark stays the same in front of anything that does not begin with a comparison sign. -/
theorem split?_extend {text after post : List Char} {mark : Mark}
    (hpost : ∀ c ∈ post.head?, c ≠ '<' ∧ c ≠ '>' ∧ c ≠ '=')
    (h : split? text = some (mark, after)) :
    split? (text ++ post) = some (mark, after ++ post) := by
  have hhead (p : Char → Prop) (hp : ∀ c, c ≠ '<' ∧ c ≠ '>' ∧ c ≠ '=' → p c) (rest : List Char)
      (hrest : ∀ c ∈ rest.head?, p c) : ∀ c ∈ (rest ++ post).head?, p c := by
    cases rest with
    | nil => exact fun c hc => hp c (hpost c hc)
    | cons d rest => exact hrest
  unfold split? at h
  split at h
  case h_15 rest hequal =>
    obtain ⟨rfl, rfl⟩ := Prod.mk.inj (Option.some.inj h)
    exact split?_equal (hhead _ (fun c hc => hc.2.2) rest (head?_ne hequal))
  case h_16 rest hset hequal =>
    obtain ⟨rfl, rfl⟩ := Prod.mk.inj (Option.some.inj h)
    exact split?_less (hhead _ (fun c hc => ⟨hc.1, hc.2.2⟩) rest
      fun c hc => ⟨head?_ne hset c hc, head?_ne hequal c hc⟩)
  case h_17 rest hset hequal =>
    obtain ⟨rfl, rfl⟩ := Prod.mk.inj (Option.some.inj h)
    exact split?_greater (hhead _ (fun c hc => hc.2) rest
      fun c hc => ⟨head?_ne hset c hc, head?_ne hequal c hc⟩)
  case h_22 => cases h
  all_goals
    obtain ⟨rfl, rfl⟩ := Prod.mk.inj (Option.some.inj h)
    rfl

end Mark

namespace Lexeme

/-- A separator, a comma or the closing delimiter of a list or a map: no lexeme goes on with it. -/
def isBoundary (c : Char) : Bool := Lexer.isSeparator c || c = ',' || c = ']' || c = '\x7d'

/-- A text that may stand behind another without a change to the lexemes of that one. -/
def Bounds (post : List Char) : Prop := ∀ c ∈ post.head?, isBoundary c = true

theorem isBoundary_cases {c : Char} (h : isBoundary c = true) :
    c = ' ' ∨ c = '\t' ∨ c = '\r' ∨ c = '\n' ∨ c = ',' ∨ c = ']' ∨ c = '\x7d' := by
  simpa [isBoundary, Lexer.isSeparator, or_assoc] using h

theorem bounds_cons {c : Char} (h : isBoundary c = true) (post : List Char) :
    Bounds (c :: post) := by
  rintro d ⟨⟩
  exact h

theorem Bounds.stops {post : List Char} (h : Bounds post) {p : Char → Bool}
    (hp : ∀ c, isBoundary c = true → p c = false) : Stops p post :=
  fun c hc => hp c (h c hc)

/-! The quotes of a literal or a name. -/

/-- The quotes of literals and names. -/
def isQuote (c : Char) : Bool := c = '\x22' || c = '\x27' || c = '\x60'

theorem isQuote_cases {c : Char} (h : isQuote c = true) :
    c = '\x22' ∨ c = '\x27' ∨ c = '\x60' := by
  simpa [isQuote, or_assoc] using h

/-- A text at whose beginning no quote is left open. -/
def Closed (text : List Char) : Prop :=
  ∀ quote rest, text = quote :: rest → isQuote quote = true → (quoted? text).isSome

/-- Where a quote stands, only a literal or a name can begin. -/
theorem split?_quote {quote : Char} (h : isQuote quote = true) (operand : Bool)
    (rest : List Char) : split? operand (quote :: rest) = quoted? (quote :: rest) := by
  rcases isQuote_cases h with rfl | rfl | rfl <;>
    cases hquoted : quoted? (_ :: rest) <;>
    simp [split?, hquoted, number?, Numeral.split?, Numeral.isDigit, word?, isWordStart, mark?,
      Mark.split?]

/-- The words before a quote that would belong to a literal are words if it is no literal. -/
theorem split?_unquoted {word : List Char} (hword : word = ['b'] ∨ word = ['b', '6', '4'])
    {quote : Char} (h : isQuote quote = true) {rest : List Char}
    (hnone : quoted? (word ++ quote :: rest) = none) (operand : Bool) :
    split? operand (word ++ quote :: rest) = some (.word word, quote :: rest) := by
  rcases hword with rfl | rfl <;> rcases isQuote_cases h with rfl | rfl | rfl <;>
    simp_all [split?, number?, Numeral.split?, Numeral.isDigit, word?, isWordStart, isWordChar]

variable {post : List Char}

/-- A text without the opening of a literal has none in front of a boundary, either. -/
theorem front_of_append_ne {text rest : List Char} {quote : Char} (front : List Char)
    (bounds : Bounds post) (hfront : (front ++ [quote]).any isBoundary = false)
    (hno : ∀ tail, text ≠ front ++ quote :: tail) : text ++ post ≠ front ++ quote :: rest := by
  have hfront (c : Char) (hc : c ∈ front ++ [quote]) : isBoundary c = false :=
    Bool.eq_false_of_not_eq_true (List.any_eq_false.mp hfront c hc)
  have hhead : ∀ more : List Char, ∀ c ∈ (more ++ quote :: rest).head?, c ∈ more ++ [quote] := by
    intro more c hc
    cases more with
    | nil => simpa using hc.symm
    | cons d more => simp_all
  intro heq
  rcases List.append_eq_append_iff.mp heq with ⟨more, rfl, rfl⟩ | ⟨more, rfl, hmore⟩
  · cases hc : (more ++ quote :: rest).head? with
    | none => simp at hc
    | some c =>
      have hc' := hfront c (by simpa using List.mem_append_right text (hhead more c hc))
      rw [bounds c hc] at hc'
      contradiction
  · cases more with
    | nil =>
      rw [List.nil_append] at hmore
      have hquote := hfront quote (by simp)
      rw [bounds quote (by simp [← hmore])] at hquote
      contradiction
    | cons c more =>
      obtain ⟨rfl, -⟩ := List.cons.inj hmore
      exact hno more rfl

/-- A literal or a name that has its end stays the same in front of a boundary. -/
theorem quoted?_extend (bounds : Bounds post) {text after : List Char} {lexeme : Lexeme}
    (h : quoted? text = some (lexeme, after)) (closed : Closed after) :
    quoted? (text ++ post) = some (lexeme, after ++ post) := by
  have hpost : post.head? ≠ some '\x60' := by
    intro hhead
    have := bounds _ hhead
    contradiction
  have escaped {quote : Char} {allowed : Char → Bool} {rest body : List Char}
      (hquote : quote ≠ '\\') (hbody : escapedBody? quote allowed rest = some (body, after)) :
      escapedBody? quote allowed (rest ++ post) = some (body, after ++ post) := by
    have hclosed := isSome_escapedBody? hquote (by rw [hbody]; rfl)
    rw [escapedBody?_extend hquote hclosed, hbody]
    rfl
  unfold quoted? at h
  split at h
  case h_8 => cases h
  all_goals
    obtain ⟨⟨body, after'⟩, hbody, heq⟩ := Option.map_eq_some_iff.mp h
    obtain ⟨rfl, rfl⟩ : _ ∧ after' = after := Prod.mk.inj heq
  case h_1 | h_2 => simp [quoted?, plainBody?_extend hbody]
  case h_4 rest =>
    show (escapedBody? '\x27' (· ≠ '\n') (rest ++ post)).map _ = _
    rw [escaped (by decide) hbody]
    rfl
  case h_3 | h_5 | h_6 => simp [quoted?, escaped (by decide) hbody]
  case h_7 =>
    have hafter : after'.head? ≠ some '\x60' := by
      intro hhead
      obtain ⟨tail, rfl⟩ := List.head?_eq_some_iff.mp hhead
      have hsome := closed '\x60' tail rfl rfl
      simp [quoted?, quotedName?_behind hbody] at hsome
    simp [quoted?, quotedName?_extend hbody hafter hpost]

/-- Where no literal begins in a text, none begins in front of a boundary. A quote behind `b` or
`b64` is closed in the text itself, and does not belong to a literal of bytes there. -/
theorem quoted?_extend_none (bounds : Bounds post) {operand : Bool} {text after : List Char}
    {lexeme : Lexeme} (hnone : quoted? text = none)
    (h : split? operand text = some (lexeme, after)) (closed : Closed after) :
    quoted? (text ++ post) = none := by
  have behind {word : List Char} (hword : word = ['b'] ∨ word = ['b', '6', '4']) {quote : Char}
      (hquote : isQuote quote = true) {rest : List Char} (htext : text = word ++ quote :: rest) :
      (quoted? (quote :: rest)).isSome := by
    subst htext
    rw [split?_unquoted hword hquote hnone] at h
    obtain ⟨-, rfl⟩ := Prod.mk.inj (Option.some.inj h)
    exact closed quote rest rfl hquote
  have first {quote : Char} (hquote : isQuote quote = true) {rest : List Char} :
      text ≠ quote :: rest := by
    rintro rfl
    rw [split?_quote hquote, hnone] at h
    contradiction
  have hopening := hnone
  unfold quoted? at hopening
  split at hopening
  case h_1 rest =>
    have hclosed : (quoted? ('\x22' :: rest)).isSome := behind (.inr rfl) rfl rfl
    simp only [quoted?, Option.isSome_map] at hclosed
    have hbody := isSome_plainBody? (mem_of_escapedBody? hclosed)
    rw [Option.map_eq_none_iff.mp hopening] at hbody
    contradiction
  case h_2 rest =>
    have hclosed : (quoted? ('\x27' :: rest)).isSome := behind (.inr rfl) rfl rfl
    simp only [quoted?, Option.isSome_map] at hclosed
    have hbody := isSome_plainBody? (mem_of_escapedBody? hclosed)
    rw [Option.map_eq_none_iff.mp hopening] at hbody
    contradiction
  case h_3 rest =>
    have hclosed : (quoted? ('\x22' :: rest)).isSome := behind (.inl rfl) rfl rfl
    simp only [quoted?, Option.isSome_map] at hclosed
    rw [Option.map_eq_none_iff.mp hopening] at hclosed
    contradiction
  case h_4 rest =>
    have hclosed : (quoted? ('\x27' :: rest)).isSome := behind (.inl rfl) rfl rfl
    simp only [quoted?, Option.isSome_map] at hclosed
    show (escapedBody? '\x27' (· ≠ '\n') (rest ++ post)).map _ = none
    rw [escapedBody?_extend (by decide) hclosed, Option.map_eq_none_iff.mp hopening]
    rfl
  case h_5 => exact (first rfl rfl).elim
  case h_6 => exact (first rfl rfl).elim
  case h_7 => exact (first rfl rfl).elim
  case h_8 hno₁ hno₂ hno₃ hno₄ hno₅ hno₆ hno₇ =>
    unfold quoted?
    split
    case h_8 => rfl
    case h_1 heq => exact (front_of_append_ne ['b', '6', '4'] bounds (by decide) hno₁ heq).elim
    case h_2 heq => exact (front_of_append_ne ['b', '6', '4'] bounds (by decide) hno₂ heq).elim
    case h_3 heq => exact (front_of_append_ne ['b'] bounds (by decide) hno₃ heq).elim
    case h_4 heq => exact (front_of_append_ne ['b'] bounds (by decide) hno₄ heq).elim
    case h_5 heq => exact (front_of_append_ne [] bounds (by decide) hno₅ heq).elim
    case h_6 heq => exact (front_of_append_ne [] bounds (by decide) hno₆ heq).elim
    case h_7 heq => exact (front_of_append_ne [] bounds (by decide) hno₇ heq).elim

theorem number?_unsigned {c : Char} (hplus : c ≠ '+') (hminus : c ≠ '-') (operand : Bool)
    (rest : List Char) :
    number? operand (c :: rest) = (Numeral.split? (c :: rest)).map (·.map number id) := by
  unfold number?
  split
  · next heq => exact absurd (List.cons.inj heq).1 hplus
  · next heq => exact absurd (List.cons.inj heq).1 hminus
  · rfl

theorem number?_extend (h : Bounds post) (operand : Bool) {text : List Char}
    (nonempty : text ≠ []) :
    number? operand (text ++ post) = (number? operand text).map (Prod.map id (· ++ post)) := by
  have hsign : Stops Numeral.isSign post := by
    apply h.stops
    intro c hc
    rcases isBoundary_cases hc with rfl | rfl | rfl | rfl | rfl | rfl | rfl <;> decide
  have hcontinues : Stops Numeral.continues post := by
    apply h.stops
    intro c hc
    rcases isBoundary_cases hc with rfl | rfl | rfl | rfl | rfl | rfl | rfl <;> decide
  have hsplit := Numeral.split?_extend hcontinues hsign
  cases text with
  | nil => contradiction
  | cons c text =>
    by_cases hplus : c = '+'
    · subst hplus
      show (Numeral.split? (text ++ post)).map _ = Option.map _ ((Numeral.split? text).map _)
      rw [hsplit]
      cases Numeral.split? text <;> cases operand <;> rfl
    by_cases hminus : c = '-'
    · subst hminus
      show (Numeral.split? (text ++ post)).map _ = Option.map _ ((Numeral.split? text).map _)
      rw [hsplit]
      cases Numeral.split? text <;> cases operand <;> rfl
    have hfront := hsplit (c :: text)
    rw [List.cons_append] at hfront ⊢
    rw [number?_unsigned hplus hminus, number?_unsigned hplus hminus, hfront]
    cases Numeral.split? (c :: text) <;> rfl

theorem word?_extend (h : Bounds post) {text : List Char} (nonempty : text ≠ []) :
    word? (text ++ post) = (word? text).map (Prod.map id (· ++ post)) := by
  have hword : Stops isWordChar post := by
    apply h.stops
    intro c hc
    rcases isBoundary_cases hc with rfl | rfl | rfl | rfl | rfl | rfl | rfl <;> decide
  cases text with
  | nil => contradiction
  | cons c text =>
    unfold word?
    rw [hword.takeWhile_extend, hword.dropWhile_extend]
    cases hstart : isWordStart c <;> simp [hstart]

/-- A lexeme stays the same, whatever boundary follows the text in which it is found, if no quote
is left open behind it. -/
theorem split?_extend (bounds : Bounds post) {operand : Bool} {text after : List Char}
    {lexeme : Lexeme} (hsplit : split? operand text = some (lexeme, after))
    (closed : Closed after) :
    split? operand (text ++ post) = some (lexeme, after ++ post) := by
  have nonempty : text ≠ [] := by
    rintro rfl
    cases hsplit
  have hmark : ∀ c ∈ post.head?, c ≠ '<' ∧ c ≠ '>' ∧ c ≠ '=' := by
    intro c hc
    rcases isBoundary_cases (bounds c hc) with rfl | rfl | rfl | rfl | rfl | rfl | rfl <;> decide
  cases hquoted : quoted? text with
  | some found =>
    obtain rfl : found = (lexeme, after) := by simpa [split?, hquoted] using hsplit
    rw [split?, quoted?_extend bounds hquoted closed, Option.some_or]
  | none =>
    have hnone := quoted?_extend_none bounds hquoted hsplit closed
    rw [split?, hquoted, Option.none_or] at hsplit
    rw [split?, hnone, Option.none_or, number?_extend bounds operand nonempty,
      word?_extend bounds nonempty]
    cases hnumber : number? operand text with
    | some found =>
      rw [hnumber] at hsplit
      obtain rfl : found = (lexeme, after) := Option.some.inj hsplit
      rfl
    | none =>
      rw [hnumber, Option.none_or] at hsplit
      rw [Option.map_none, Option.none_or]
      cases hword : word? text with
      | some found =>
        rw [hword] at hsplit
        obtain rfl : found = (lexeme, after) := Option.some.inj hsplit
        rfl
      | none =>
        rw [hword, Option.none_or] at hsplit
        rw [Option.map_none, Option.none_or]
        obtain ⟨⟨m, rest⟩, hm, heq⟩ := Option.map_eq_some_iff.mp hsplit
        obtain ⟨rfl, rfl⟩ := Prod.mk.inj heq
        rw [mark?, Mark.split?_extend hmark hm]
        rfl

/-- What a lexeme stands for does not depend on where it stands. -/
theorem symbol_position {lexeme : Lexeme} {p : Nat} {symbol : Symbol}
    (h : lexeme.symbol p = .ok symbol) (q : Nat) : lexeme.symbol q = .ok symbol := by
  cases lexeme with
  | base64 body =>
    obtain ⟨bytes, hbytes, rfl⟩ := map_eq_ok_iff.mp h
    exact map_eq_ok_iff.mpr ⟨bytes, mapError_eq_ok_iff.mpr (mapError_eq_ok_iff.mp hbytes), rfl⟩
  | bytes continuation body =>
    obtain ⟨bytes, hbytes, rfl⟩ := map_eq_ok_iff.mp h
    exact map_eq_ok_iff.mpr ⟨bytes, ByteBody.decode_position hbytes _, rfl⟩
  | string body =>
    obtain ⟨text, htext, rfl⟩ := map_eq_ok_iff.mp h
    exact map_eq_ok_iff.mpr ⟨text, StringBody.decode_position htext _, rfl⟩
  | word text =>
    have hword : wordSymbol p text = .ok symbol := h
    show wordSymbol q text = .ok symbol
    unfold wordSymbol at hword ⊢
    split at hword
    · cases hword
    · exact hword
  | verbatim | quotedName | number | mark => exact h

end Lexeme

namespace Lexer

/-- A scan without a fault spells the symbols of its tokens. -/
theorem spells_of_scanFrom (position line : Nat) (previous : Option Token) (text : List Char)
    (h : (scanFrom position line previous text).fault = none) :
    Spells (previous.any (·.symbol.endsOperand)) text
      ((scanFrom position line previous text).tokens.map (·.symbol)) := by
  fun_induction scanFrom position line previous text with
  | case1 => exact .nil
  | case2 position line previous c rest hc ih => exact .separator hc (ih h)
  | case3 => cases h
  | case4 => cases h
  | case5 position line previous c rest _ lexeme after hsplit _ _ symbol hsymbol _ ih =>
    exact .lexeme hsplit (Lexeme.symbol_position hsymbol) (ih h)

theorem spells_of_tokenize {text : String} {tokens : List Token}
    (h : tokenize text = .ok tokens) : Spells false text.toList (tokens.map (·.symbol)) := by
  have hscan := spells_of_scanFrom 0 1 none text.toList
  unfold tokenize Scan.result scan at h
  split at h
  · cases h
  · next hfault =>
    obtain rfl := Except.ok.inj h
    exact hscan hfault

/-- In a text that is cut into symbols, no quote is left open. -/
theorem Spells.closed_head {operand : Bool} {text : List Char} {symbols : List Symbol}
    (h : Spells operand text symbols) : Lexeme.Closed text := by
  rintro quote rest rfl hquote
  cases h with
  | separator hc =>
    rcases isSeparator_cases hc with rfl | rfl | rfl | rfl <;> contradiction
  | lexeme split =>
    rw [Lexeme.split?_quote hquote] at split
    rw [split]
    rfl

/-- Behind a text there may be another that spells symbols whether or not an operand ends there. -/
theorem Spells.append {operand : Bool} {text post : List Char} {symbols further : List Symbol}
    (h : Spells operand text symbols) (bounds : Lexeme.Bounds post)
    (hpost : ∀ operand, Spells operand post further) :
    Spells operand (text ++ post) (symbols ++ further) := by
  induction h with
  | nil => exact hpost _
  | separator hc _ ih => exact .separator hc ih
  | lexeme split reads rest ih =>
    exact .lexeme (Lexeme.split?_extend bounds split rest.closed_head) reads ih

end Lexer

end AttributeExpr
