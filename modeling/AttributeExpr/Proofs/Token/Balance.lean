import AttributeExpr.Proofs.Token.Nesting
import AttributeExpr.Proofs.Token.Reading
import AttributeExpr.Proofs.Token.Session
/-!
What the check of delimiters finds. Some tokens pass exactly if their delimiters are a well-nested
word. Otherwise one token is to blame: the first closing delimiter that no further tokens can make
good, or else the last opening one that stays without a partner.
-/
namespace AttributeExpr.Nesting

def isDelimiter : Symbol → Bool
  | .mark (.opening _) | .mark (.closing _) => true
  | _ => false

theorem isDelimiter_iff {symbol : Symbol} : isDelimiter symbol = true ↔ IsBracket symbol := by
  constructor
  · intro h
    unfold isDelimiter at h
    split at h
    · exact ⟨_, .inl rfl⟩
    · exact ⟨_, .inr rfl⟩
    · contradiction
  · rintro ⟨bracket, rfl | rfl⟩ <;> rfl

/-- The delimiters among some tokens, without what stands between them. -/
def delimiters (tokens : List Token) : List Symbol :=
  (tokens.map (·.symbol)).filter isDelimiter

/-- Something can follow the word that makes it well nested. -/
def Extendable (word : List Symbol) : Prop := ∃ further, WellNested (word ++ further)

/-! What is no delimiter does not count. -/

theorem WellNested.filter {word : List Symbol} (h : WellNested word) :
    WellNested (word.filter isDelimiter) := by
  induction h with
  | nil => exact .nil
  | plain h _ ih => rwa [List.filter_cons_of_neg (mt isDelimiter_iff.mp h)]
  | enclosed _ _ ihInner ihRest =>
    rw [List.filter_cons_of_pos rfl, List.filter_append, List.filter_cons_of_pos rfl]
    exact .enclosed ihInner ihRest

theorem WellNested.insert {word : List Symbol} (h : WellNested word) {symbol : Symbol}
    (plain : ¬ IsBracket symbol) {before after : List Symbol} (split : word = before ++ after) :
    WellNested (before ++ symbol :: after) := by
  induction h generalizing before after with
  | nil =>
    obtain ⟨rfl, rfl⟩ := List.append_eq_nil_iff.mp split.symm
    exact .single plain
  | @plain first word hfirst rest ih =>
    cases before with
    | nil =>
      obtain rfl : first :: word = after := split
      exact .plain plain (.plain hfirst rest)
    | cons _ before =>
      obtain ⟨rfl, htail⟩ := List.cons.inj split
      exact .plain hfirst (ih htail)
  | @enclosed bracket inside word inner rest ihInner ihRest =>
    cases before with
    | nil =>
      obtain rfl := split
      exact .plain plain (.enclosed inner rest)
    | cons _ before =>
      obtain ⟨rfl, htail⟩ := List.cons.inj split
      -- The place is inside the delimiters, right before the closing one at the latest, or behind.
      rcases List.append_eq_append_iff.mp htail with ⟨middle, rfl, hafter⟩ | ⟨middle, rfl, rfl⟩
      · cases middle with
        | nil =>
          obtain rfl : _ :: word = after := hafter
          have hend := ihInner (List.append_nil inside).symm
          simpa using WellNested.enclosed hend rest
        | cons _ middle =>
          obtain ⟨rfl, rfl⟩ := List.cons.inj hafter
          simpa using WellNested.enclosed inner (ihRest rfl)
      · simpa using WellNested.enclosed (ihInner rfl) rest

/-- What well-nested delimiters stand among makes no difference. -/
theorem wellNested_of_filter {before word further : List Symbol}
    (h : WellNested (before ++ (word.filter isDelimiter ++ further))) :
    WellNested (before ++ (word ++ further)) := by
  induction word generalizing before with
  | nil => exact h
  | cons symbol word ih =>
    rw [List.cons_append, List.append_cons]
    apply ih
    rw [← List.append_cons]
    by_cases hsymbol : isDelimiter symbol = true
    · rwa [List.filter_cons_of_pos hsymbol] at h
    · rw [List.filter_cons_of_neg hsymbol] at h
      exact h.insert (mt isDelimiter_iff.mpr hsymbol) rfl

theorem wellNested_delimiters_iff {tokens : List Token} :
    WellNested (delimiters tokens) ↔ WellNested (tokens.map (·.symbol)) := by
  constructor
  · intro h
    have hword := @wellNested_of_filter [] (tokens.map (·.symbol)) []
    simpa using hword (by simpa [delimiters] using h)
  · exact WellNested.filter

/-! Which delimiters are open. -/

/-- Behind the tokens the delimiters `opened` wait for their partners, the innermost first. -/
inductive LeavesOpen : List Token → List Opening → Prop where
  | none {tokens : List Token} (h : WellNested (tokens.map (·.symbol))) : LeavesOpen tokens []
  | within {before inside : List Token} {token : Token} {bracket : Bracket}
      {opened : List Opening} (outer : LeavesOpen before opened)
      (opening : token.symbol = .mark (.opening bracket))
      (inner : WellNested (inside.map (·.symbol))) :
      LeavesOpen (before ++ token :: inside) (⟨bracket, token.position⟩ :: opened)

namespace LeavesOpen

variable {tokens : List Token} {opened : List Opening} {token : Token}

theorem append (h : LeavesOpen tokens opened) {further : List Token}
    (nested : WellNested (further.map (·.symbol))) : LeavesOpen (tokens ++ further) opened := by
  cases h with
  | none h => exact .none (by simpa using h.append nested)
  | within outer opening inner =>
    rw [List.append_assoc, List.cons_append]
    exact .within outer opening (by simpa using inner.append nested)

theorem plain (h : LeavesOpen tokens opened) (plain : ¬ IsBracket token.symbol) :
    LeavesOpen (tokens ++ [token]) opened := h.append (.single plain)

theorem closing {innermost : Opening} (h : LeavesOpen tokens (innermost :: opened))
    (closing : token.symbol = .mark (.closing innermost.bracket)) :
    LeavesOpen (tokens ++ [token]) opened := by
  cases h with
  | @within before inside first bracket _ outer opening inner =>
    rw [List.append_assoc]
    apply outer.append
    simpa [opening, closing] using WellNested.enclosed inner .nil

/-- The check has come as far as the tokens say. -/
theorem checkFrom (h : LeavesOpen tokens opened) (fault : Option ExpressionError) (line : Nat)
    (rest : List Token) :
    checkFrom fault line [] (tokens ++ rest) =
      prepend tokens (checkFrom fault line opened rest) := by
  induction h generalizing rest with
  | none h => exact checkFrom_append h fault line rfl [] rest
  | @within before inside first bracket opened _ opening inner ih =>
    rw [List.append_assoc, List.cons_append, ih, checkFrom_opening opening,
      checkFrom_append inner fault line rfl]
    simp [prepend, Scan.push]

/-- Closing what is open makes the tokens well nested. -/
theorem exists_further (h : LeavesOpen tokens opened) :
    ∃ further, WellNested (tokens.map (·.symbol) ++ further) := by
  induction opened generalizing tokens with
  | nil =>
    cases h with
    | none h => exact ⟨[], by simpa using h⟩
  | cons innermost opened ih =>
    have hclosed := @closing _ _ ⟨.mark (.closing innermost.bracket), 0, 0⟩ _ h rfl
    obtain ⟨further, nested⟩ := ih hclosed
    exact ⟨_ :: further, by simpa using nested⟩

theorem extendable (h : LeavesOpen tokens opened) : Extendable (delimiters tokens) := by
  obtain ⟨further, nested⟩ := h.exists_further
  exact ⟨further.filter isDelimiter, by simpa [delimiters] using nested.filter⟩

end LeavesOpen

/-- A closing delimiter that does not fit what is open. -/
structure IsStray (token : Token) (bracket : Bracket) (opened : List Opening) : Prop where
  closing : token.symbol = .mark (.closing bracket)
  differs : ∀ innermost ∈ opened.head?, innermost.bracket ≠ bracket

theorem IsStray.checkFrom {token : Token} {bracket : Bracket} {opened : List Opening}
    (h : IsStray token bracket opened) (fault : Option ExpressionError) (line : Nat)
    (rest : List Token) :
    checkFrom fault line opened (token :: rest) = checkFrom.stray bracket token := by
  rw [checkFrom.eq_def]
  simp only [h.closing]
  cases opened with
  | nil => rfl
  | cons innermost outer => exact if_neg (h.differs innermost rfl)

/-- Nothing behind a stray delimiter makes the tokens well nested. -/
theorem IsStray.not_extendable {tokens : List Token} {token : Token} {bracket : Bracket}
    {opened : List Opening} (h : IsStray token bracket opened) (leaves : LeavesOpen tokens opened) :
    ¬ Extendable (delimiters (tokens ++ [token])) := by
  rintro ⟨further, nested⟩
  obtain ⟨behind, rfl⟩ := Reading.exists_tokens further
  have hall : WellNested ((tokens ++ token :: behind).map (·.symbol)) := by
    have hword := @wellNested_of_filter [] ((tokens ++ [token]).map (·.symbol)) _ nested
    simpa using hword
  have hcheck := checkFrom_append hall none 0 rfl [] []
  rw [List.append_nil, leaves.checkFrom, h.checkFrom] at hcheck
  cases congrArg Scan.fault hcheck

/-- Tokens can be gone through to their end, or to a stray delimiter. -/
theorem leavesOpen_or_stray (tokens : List Token) :
    (∃ opened, LeavesOpen tokens opened) ∨
      ∃ before token after bracket opened, tokens = before ++ token :: after ∧
        LeavesOpen before opened ∧ IsStray token bracket opened := by
  induction tokens using List.reverseRecOn with
  | nil => exact .inl ⟨[], .none .nil⟩
  | append_singleton tokens token ih =>
    rcases ih with ⟨opened, leaves⟩ | ⟨before, stray, after, bracket, opened, rfl, hstray⟩
    · by_cases plain : IsBracket token.symbol
      · obtain ⟨bracket, opening | closing⟩ := plain
        · exact .inl ⟨_, .within leaves opening .nil⟩
        · by_cases hfits : ∀ innermost ∈ opened.head?, innermost.bracket ≠ bracket
          · exact .inr ⟨tokens, token, [], bracket, opened, rfl, leaves, closing, hfits⟩
          · push Not at hfits
            obtain ⟨innermost, hhead, rfl⟩ := hfits
            obtain ⟨outer, rfl⟩ := List.head?_eq_some_iff.mp hhead
            exact .inl ⟨outer, leaves.closing closing⟩
      · exact .inl ⟨opened, leaves.plain plain⟩
    · exact .inr ⟨before, stray, after ++ [token], bracket, opened, by simp, hstray⟩

/-! Opening delimiters and their partners. -/

theorem WellNested.exists_partner {word : List Symbol} (h : WellNested word) {bracket : Bracket}
    {before after : List Symbol} (split : word = before ++ .mark (.opening bracket) :: after) :
    ∃ inside behind, after = inside ++ .mark (.closing bracket) :: behind ∧ WellNested inside := by
  induction h generalizing before after with
  | nil => simp at split
  | plain hfirst _ ih =>
    cases before with
    | nil =>
      obtain ⟨rfl, -⟩ := List.cons.inj split
      exact absurd ⟨bracket, .inl rfl⟩ hfirst
    | cons _ before => exact ih (List.cons.inj split).2
  | @enclosed first inside word inner _ ihInner ihRest =>
    cases before with
    | nil =>
      obtain ⟨hfirst, rfl⟩ := List.cons.inj split
      cases hfirst
      exact ⟨inside, word, rfl, inner⟩
    | cons _ before =>
      -- The delimiter stands inside the first pair or behind it.
      rcases List.append_eq_append_iff.mp (List.cons.inj split).2 with
        ⟨middle, rfl, hmiddle⟩ | ⟨middle, rfl, hmiddle⟩
      · cases middle with
        | nil => cases hmiddle
        | cons _ middle => exact ihRest (List.cons.inj hmiddle).2
      · cases middle with
        | nil => cases hmiddle
        | cons _ middle =>
          obtain ⟨rfl, rfl⟩ := List.cons.inj hmiddle
          obtain ⟨front, behind, rfl, hfront⟩ := ihInner rfl
          exact ⟨front, behind ++ .mark (.closing first) :: word, by simp, hfront⟩

/-- Among the tokens behind an opening delimiter is the closing one that belongs to it. -/
def IsClosedBy (bracket : Bracket) (after : List Token) : Prop :=
  ∃ inside closer behind, after = inside ++ closer :: behind ∧
    closer.symbol = .mark (.closing bracket) ∧ WellNested (delimiters inside)

/-- The opening delimiters among the tokens all have their partners. -/
def AllClosed (tokens : List Token) : Prop :=
  ∀ before token after bracket, tokens = before ++ token :: after →
    token.symbol = .mark (.opening bracket) → IsClosedBy bracket after

theorem allClosed_of_wellNested {tokens : List Token}
    (h : WellNested (tokens.map (·.symbol))) : AllClosed tokens := by
  rintro before token after bracket rfl opening
  have hsplit : (before ++ token :: after).map (·.symbol) =
      before.map (·.symbol) ++ .mark (.opening bracket) :: after.map (·.symbol) := by
    rw [List.map_append, List.map_cons, opening]
  obtain ⟨inside, behind, hafter, nested⟩ := h.exists_partner hsplit
  obtain ⟨front, rest, rfl, rfl, hrest⟩ := List.map_eq_append_iff.mp hafter
  obtain ⟨closer, rest, rfl, closing, -⟩ := List.map_eq_cons_iff.mp hrest
  exact ⟨front, closer, rest, rfl, closing, wellNested_delimiters_iff.mpr nested⟩

/-- No delimiter of a well-nested stretch is the partner of one in front of it. -/
theorem not_isClosedBy_of_wellNested {tokens : List Token}
    (h : WellNested (tokens.map (·.symbol))) (bracket : Bracket) : ¬ IsClosedBy bracket tokens := by
  rintro ⟨inside, closer, behind, rfl, closing, nested⟩
  have hstray : IsStray closer bracket [] := ⟨closing, by simp⟩
  refine hstray.not_extendable (.none (wellNested_delimiters_iff.mp nested))
    ⟨delimiters behind, ?_⟩
  simpa [delimiters, ← List.filter_append] using h.filter

/-! The token to blame. -/

/-- The error that the check has to report for some tokens. -/
inductive Blamed (tokens : List Token) : GrammarError → Prop where
  /-- The first closing delimiter behind which nothing makes the tokens well nested. -/
  | stray {before after : List Token} {token : Token} {bracket : Bracket}
      (split : tokens = before ++ token :: after)
      (closing : token.symbol = .mark (.closing bracket))
      (possible : Extendable (delimiters before))
      (impossible : ¬ Extendable (delimiters (before ++ [token]))) :
      Blamed tokens (.strayDelimiter (Mark.closing bracket).text token.position)
  /-- There is no such delimiter, and the last opening one without a partner. -/
  | unclosed {before after : List Token} {token : Token} {bracket : Bracket}
      (possible : Extendable (delimiters tokens))
      (split : tokens = before ++ token :: after)
      (opening : token.symbol = .mark (.opening bracket))
      (unmatched : ¬ IsClosedBy bracket after) (last : AllClosed after) :
      Blamed tokens (.unclosedDelimiter (Mark.opening bracket).text token.position)

theorem exists_blamed {tokens : List Token} (h : ¬ WellNested (delimiters tokens)) (line : Nat) :
    ∃ error : GrammarError, Blamed tokens error ∧
      (checkFrom none line [] tokens).fault = some (.grammar error) := by
  rcases leavesOpen_or_stray tokens with ⟨opened, leaves⟩ |
    ⟨before, token, after, bracket, opened, rfl, leaves, stray⟩
  · have hcheck := leaves.checkFrom none line []
    have possible := leaves.extendable
    rw [List.append_nil] at hcheck
    cases leaves with
    | none nested => exact absurd (wellNested_delimiters_iff.mpr nested) h
    | @within before inside token bracket opened _ opening inner =>
      refine ⟨_, .unclosed possible rfl opening (not_isClosedBy_of_wellNested inner bracket)
        (allClosed_of_wellNested inner), ?_⟩
      rw [hcheck]
      rfl
  · refine ⟨_, .stray rfl stray.closing leaves.extendable (stray.not_extendable leaves), ?_⟩
    rw [leaves.checkFrom, stray.checkFrom]
    rfl

end AttributeExpr.Nesting

namespace AttributeExpr

open Nesting

theorem exists_check_of_tokenize {text : String} {tokens : List Token}
    (h : tokenize text = .ok tokens) :
    ∃ line, ((Lexer.Session.fresh true).input text).scan = check ⟨tokens, none, line⟩ := by
  obtain ⟨line, hscan⟩ := tokenize_eq_ok_iff.mp h
  refine ⟨line, ?_⟩
  rw [← hscan]
  exact Lexer.Session.scan_input (.fresh true) text

/-- A lexer that checks delimiters makes of a text the same tokens as one that does not, if their
delimiters are a well-nested word. Otherwise it refuses the text, and its error tells the first
closing delimiter that cannot be made good or, if there is none, the last opening one that has no
partner. -/
theorem scan_balanced {text : String} {tokens : List Token} (h : tokenize text = .ok tokens) :
    (WellNested (delimiters tokens) →
      ((Lexer.Session.fresh true).input text).scan.result = .ok tokens) ∧
    (¬ WellNested (delimiters tokens) → ∃ error : GrammarError, Blamed tokens error ∧
      ((Lexer.Session.fresh true).input text).scan.result = .error error) := by
  obtain ⟨line, hcheck⟩ := exists_check_of_tokenize h
  rw [hcheck]
  constructor
  · intro nested
    rw [check_of_wellNested (wellNested_delimiters_iff.mp nested)]
    rfl
  · intro crossed
    obtain ⟨error, blamed, hfault⟩ := exists_blamed crossed line
    refine ⟨error, blamed, ?_⟩
    rw [check, Scan.result, hfault]

/-- The parenthesis is still open at the square bracket that should not stand there. -/
theorem scan_balanced_crossed :
    ∃ tokens, tokenize "[1, (2] >>" = .ok tokens ∧ ¬ WellNested (delimiters tokens) ∧
      ∃ error : GrammarError, Blamed tokens error ∧ error.position? = some 6 ∧
        ((Lexer.Session.fresh true).input "[1, (2] >>").scan.result = .error error := by
  have htokens : tokenize "[1, (2] >>" = .ok [⟨.mark (.opening .square), 0, 1⟩,
      ⟨.number "1", 1, 1⟩, ⟨.mark .comma, 2, 1⟩, ⟨.mark (.opening .paren), 4, 1⟩,
      ⟨.number "2", 5, 1⟩, ⟨.mark (.closing .square), 6, 1⟩, ⟨.mark (.closing .set), 8, 1⟩] := by
    cbv
  have hresult : ((Lexer.Session.fresh true).input "[1, (2] >>").scan.result =
      .error (GrammarError.strayDelimiter "]" 6) := by
    obtain ⟨line, hcheck⟩ := exists_check_of_tokenize htokens
    rw [hcheck]
    rfl
  obtain ⟨passes, blames⟩ := scan_balanced htokens
  have crossed := mt passes (by simp [hresult])
  obtain ⟨error, blamed, herror⟩ := blames crossed
  obtain rfl := ExpressionError.grammar.inj (Except.error.inj (herror.symm.trans hresult))
  exact ⟨_, htokens, crossed, _, blamed, rfl, herror⟩

end AttributeExpr
