import AttributeExpr.Proofs.SortCondition.BareLanguage
import AttributeExpr.Proofs.Token.Operand
import AttributeExpr.Proofs.Token.Scan
import AttributeExpr.SortCondition.Parser
import Mathlib
/-!
The first token of a text and the condition that the words of the text make. Tokens are cut by what
the characters are, and words by blanks, so that a token may be only the beginning of a word. A sign
or a keyword in front decides the form of the condition all the same, except for a keyword that a
longer word begins with.
-/
namespace AttributeExpr.SortCondition

/-- The conditions that a symbol in front of its operands stands for. -/
inductive Denotes : Symbol → SortCondition → Prop where
  | comparison {symbol : Symbol} {comparison : Comparison}
      (h : comparison? symbol = some comparison) (value : Value) :
      Denotes symbol (compare comparison value)
  | between (spelling : String) (low high : Value) :
      Denotes (.keyword .between spelling) (between low high)
  | beginsWith (spelling : String) (start : Value) :
      Denotes (.keyword .beginsWith spelling) (beginsWith start)

/-! The signs of comparisons as marks. -/

/-- Every sign is listed with the comparison for which its mark stands. -/
theorem mem_comparisonSigns {mark : Mark} {comparison : Comparison}
    (h : comparison? (.mark mark) = some comparison) :
    (mark.text, comparison) ∈ comparisonSigns := by
  cases mark <;> cases h <;> decide

/-- A mark is not cut off where a longer sign begins. -/
theorem length_le_of_split? {sign : String × Comparison} (h : sign ∈ comparisonSigns)
    {rest after : List Char} {mark : Mark}
    (hsplit : Mark.split? (sign.1.toList ++ rest) = some (mark, after)) :
    sign.1.length ≤ mark.text.length := by
  have hmark : 1 ≤ mark.text.length := by
    cases mark <;> first | decide | (rename_i bracket; cases bracket <;> decide)
  simp only [comparisonSigns, List.mem_cons, List.not_mem_nil, or_false] at h
  rcases h with rfl | rfl | rfl | rfl | rfl | rfl
  · cases hsplit
    rfl
  · exact hmark
  · cases hsplit
    rfl
  · exact hmark
  · cases hsplit
    rfl
  · exact hmark

/-- A sign that begins a sign of equality is one itself. -/
theorem equal_of_begins : ∀ sign ∈ comparisonSigns, ∀ other ∈ comparisonSigns,
    sign.1.toList <+: other.1.toList → other.2 = .equal → sign.2 = .equal := by
  decide

theorem comparison_unique : ∀ sign ∈ comparisonSigns, ∀ other ∈ comparisonSigns,
    sign.1 = other.1 → sign.2 = other.2 := by
  decide

theorem isWord_sign : ∀ sign ∈ comparisonSigns, IsWord sign.1.toList := by
  have hsigns : ∀ sign ∈ comparisonSigns,
      sign.1.toList ≠ [] ∧ sign.1.toList.any isBlank = false := by
    decide
  intro sign h
  obtain ⟨nonempty, solid⟩ := hsigns sign h
  exact ⟨nonempty, fun c hc => Bool.eq_false_of_not_eq_true (List.any_eq_false.mp solid c hc)⟩

/-- A sign begins with no letter of a keyword. -/
theorem exists_head_sign : ∀ sign ∈ comparisonSigns,
    ∃ c rest, sign.1.toList = c :: rest ∧ isFormOf 'b' c = false := by
  have hsigns : ∀ sign ∈ comparisonSigns, sign.1.toList.head?.any (isFormOf 'b') = false := by
    decide
  intro sign h
  obtain ⟨c, rest, hsign⟩ := List.exists_cons_of_ne_nil (isWord_sign sign h).nonempty
  exact ⟨c, rest, hsign, by simpa [hsign] using hsigns sign h⟩

theorem not_isFormOfWord_sign {sign : String × Comparison} (h : sign ∈ comparisonSigns)
    (letters further : List Char) :
    isFormOfWord ('b' :: letters) (sign.1.toList ++ further) = false := by
  obtain ⟨c, rest, hsign, hc⟩ := exists_head_sign sign h
  rw [hsign, List.cons_append, isFormOfWord, hc, Bool.false_and]

/-! A sign in front of a text. -/

theorem leavesWord_of_trimStart {text rest word : List Char} {sign : String}
    (htext : trimStart text = sign.toList ++ rest) :
    LeavesWord text sign word ↔ words rest = [word] := by
  rw [leavesWord_iff, wordBehind?_eq_some_iff, htext]
  constructor
  · rintro ⟨rest', hrest, hwords⟩
    rwa [List.append_cancel_left hrest]
  · exact fun h => ⟨rest, rfl, h⟩

section

variable {text after : List Char} {mark : Mark} {comparison : Comparison}
  {condition : SortCondition} (hmark : comparison? (.mark mark) = some comparison)
  (hsplit : Mark.split? (trimStart text) = some (mark, after))

include hmark hsplit

/-- A mark and no word behind it. -/
theorem words_mark_alone (h : words after = []) : words text = [mark.text.toList] := by
  obtain ⟨further, rest, hwords, hafter⟩ :=
    words_front (isWord_sign _ (mem_comparisonSigns hmark)) after
  rw [← words_trimStart, Mark.split?_sound hsplit, hwords]
  rw [h] at hafter
  split_ifs at hafter with hfurther
  rw [hfurther, ← hafter, List.append_nil]

/-- The sign that leaves a word is the mark, or it is only the beginning of the mark and the mark is
all of the text. -/
theorem sign_eq_mark {sign : String × Comparison} (hmem : sign ∈ comparisonSigns)
    {word : List Char} (leaves : LeavesWord text sign.1 word)
    (longest : ∀ other ∈ comparisonSigns, ∀ word, LeavesWord text other.1 word →
      other.1.length ≤ sign.1.length) :
    sign.1 = mark.text ∨
      sign.1.toList <+: mark.text.toList ∧ words text = [mark.text.toList] := by
  have hmark' := mem_comparisonSigns hmark
  have htext := Mark.split?_sound hsplit
  obtain ⟨rest, hrest, hwords⟩ := wordBehind?_eq_some_iff.mp (leavesWord_iff.mp leaves)
  have hlength : sign.1.length ≤ mark.text.length := by
    rw [hrest] at hsplit
    exact length_le_of_split? hmem hsplit
  -- What the mark has beyond the sign begins the word that the sign leaves.
  obtain ⟨beyond, hbeyond⟩ : sign.1.toList <+: mark.text.toList :=
    List.prefix_of_prefix_length_le ⟨rest, hrest.symm⟩ ⟨after, htext.symm⟩
      (by rwa [String.length_toList, String.length_toList])
  obtain rfl : rest = beyond ++ after := by
    rwa [htext, ← hbeyond, List.append_assoc, List.append_cancel_left_eq, eq_comm] at hrest
  cases beyond with
  | nil => exact .inl (by simpa [String.toList_inj] using hbeyond)
  | cons c beyond =>
    refine .inr ⟨⟨c :: beyond, hbeyond⟩, words_mark_alone hmark hsplit ?_⟩
    have isWord : IsWord (c :: beyond) := by
      refine ⟨List.cons_ne_nil _ _, fun d hd => (isWord_sign _ hmark').solid d ?_⟩
      rw [← hbeyond]
      exact List.mem_append_right _ hd
    obtain ⟨further, others, hfront, hafter⟩ := words_front isWord after
    rw [hwords] at hfront
    obtain ⟨-, rfl⟩ := List.cons.inj hfront
    split_ifs at hafter with hfurther
    · exact hafter
    · have hle : mark.text.length ≤ sign.1.length :=
        longest _ hmark' further ((leavesWord_of_trimStart htext).mpr hafter)
      have hbeyond := congrArg List.length hbeyond
      simp only [List.length_append, List.length_cons, String.length_toList] at hbeyond
      omega

/-- Behind a mark the words make no condition but the comparison that the mark stands for. -/
theorem denotes_of_mark (reading : BareReading text condition)
    (complete : comparison = .equal ∨ words text ≠ [mark.text.toList]) :
    Denotes (.mark mark) condition ∧ (words text ≠ [mark.text.toList] →
      ∀ value ∈ condition.operands, ∃ word ∈ words after, value = wordValue word) := by
  have hmark' := mem_comparisonSigns hmark
  have htext := Mark.split?_sound hsplit
  obtain ⟨further, others, hfront, hafter⟩ := words_front (isWord_sign _ hmark') after
  rw [← htext, words_trimStart] at hfront
  cases reading with
  | @comparison sign word hmem leaves longest =>
    rcases sign_eq_mark hmark hsplit hmem leaves longest with heq | ⟨hbegins, halone⟩
    · rw [comparison_unique sign hmem _ hmark' heq]
      refine ⟨.comparison hmark _, fun _ value hvalue => ⟨word, ?_, List.mem_singleton.mp hvalue⟩⟩
      rw [heq, leavesWord_of_trimStart htext] at leaves
      exact leaves ▸ List.mem_singleton_self word
    · obtain rfl := complete.resolve_right (not_not.mpr halone)
      rw [equal_of_begins sign hmem _ hmark' hbegins rfl]
      exact ⟨.comparison hmark _, fun hnot => absurd halone hnot⟩
  | @word word signFree h =>
    rw [words_iff.mp h] at hfront complete ⊢
    obtain ⟨rfl, rfl⟩ := List.cons.inj hfront
    split_ifs at hafter with hfurther
    · rw [hfurther, List.append_nil] at complete ⊢
      obtain rfl := complete.resolve_right (not_not.mpr rfl)
      exact ⟨.comparison hmark _, fun hnot => absurd rfl hnot⟩
    · exact absurd ((leavesWord_of_trimStart htext).mpr hafter) (signFree _ hmark' further)
  | between _ h isKeyword | betweenAnd _ h isKeyword | beginsWith _ h isKeyword =>
    rw [words_iff.mp h] at hfront
    obtain ⟨rfl, -⟩ := List.cons.inj hfront
    exact absurd ((not_isFormOfWord_sign hmark' _ further).symm.trans isKeyword) Bool.false_ne_true

end

/-! A keyword in front of a text. -/

/-- What begins with a form of a keyword begins with letters of that keyword. -/
theorem prefix_of_isFormOfWord {letters front further : List Char}
    (h : isFormOfWord letters (front ++ further) = true)
    (ascii : (Name.lowerCase front).all (·.toNat < 128) = true) :
    Name.lowerCase front <+: letters := by
  induction front generalizing letters with
  | nil => exact List.nil_prefix
  | cons c front ih =>
    cases letters with
    | nil => contradiction
    | cons letter letters =>
      obtain ⟨hform, hforms⟩ := Bool.and_eq_true_iff.mp h
      obtain ⟨hc, hfront⟩ := Bool.and_eq_true_iff.mp ascii
      have heq : c.toLower = letter := by
        simp only [isFormOf, Bool.or_eq_true, Bool.and_eq_true, decide_eq_true_eq] at hform
        rcases hform with ((heq | ⟨-, rfl | rfl⟩) | ⟨-, rfl⟩) | ⟨-, rfl⟩
        · exact heq
        all_goals exact absurd hc (by decide)
      rw [Name.lowerCase, List.map_cons, heq]
      exact (List.prefix_cons_inj letter).mpr (ih hforms hfront)

theorem length_of_isFormOfWord {letters word : List Char} (h : isFormOfWord letters word = true) :
    word.length = letters.length := by
  induction letters generalizing word with
  | nil =>
    cases word with
    | nil => rfl
    | cons c word => contradiction
  | cons letter letters ih =>
    cases word with
    | nil => contradiction
    | cons c word =>
      rw [List.length_cons, List.length_cons, ih (Bool.and_eq_true_iff.mp h).2]

/-- The keywords with which a condition begins, with their letters. -/
def openers : List (Keyword × List Char) :=
  [(.between, "between".toList), (.beginsWith, "begins_with".toList)]

theorem ascii_opener : ∀ opener ∈ openers, opener.2.all (·.toNat < 128) = true := by
  decide

theorem head_opener : ∀ opener ∈ openers, opener.2.head? = some 'b' := by
  decide

theorem opener_unique : ∀ opener ∈ openers, ∀ other ∈ openers,
    opener.2 <+: other.2 → opener = other := by
  decide

/-- A word that begins with a keyword is a form of a keyword only if it is that one. -/
theorem keyword_of_isFormOfWord {keyword keyword' : Keyword} {letters front further : List Char}
    (hopener : (keyword, Name.lowerCase front) ∈ openers)
    (hletters : (keyword', letters) ∈ openers)
    (h : isFormOfWord letters (front ++ further) = true) : keyword = keyword' ∧ further = [] := by
  have hbegins := prefix_of_isFormOfWord h (ascii_opener _ hopener)
  obtain ⟨rfl, rfl⟩ := Prod.mk.inj (opener_unique _ hopener _ hletters hbegins)
  have hlength := length_of_isFormOfWord h
  rw [Name.lowerCase, List.length_map, List.length_append] at hlength
  exact ⟨rfl, List.length_eq_zero_iff.mp (by omega)⟩

theorem mem_openers {keyword : Keyword} {spelling : String} {condition : SortCondition}
    (denotes : Denotes (.keyword keyword spelling) condition) {letters : List Char}
    (h : Keyword.ofWord? (String.ofList letters) = some keyword) :
    (keyword, letters) ∈ openers := by
  generalize htext : String.ofList letters = text at h
  obtain rfl : letters = text.toList := by simp [← htext]
  cases denotes with
  | comparison hcomparison => cases hcomparison
  | between | beginsWith =>
    unfold Keyword.ofWord? at h
    split at h <;> first | decide | cases h

section

variable {text front after : List Char} {keyword : Keyword} {condition : SortCondition}
  (htext : trimStart text = front ++ after) (isWord : IsWord front)
  (hopener : (keyword, Name.lowerCase front) ∈ openers)

include htext isWord hopener

/-- No sign stands in front of a keyword. -/
theorem not_leavesWord_keyword {sign : String × Comparison} (hmem : sign ∈ comparisonSigns)
    (word : List Char) : ¬ LeavesWord text sign.1 word := by
  intro leaves
  obtain ⟨rest, hrest, -⟩ := wordBehind?_eq_some_iff.mp (leavesWord_iff.mp leaves)
  obtain ⟨d, tail, hsign, hd⟩ := exists_head_sign sign hmem
  have hhead := head_opener _ hopener
  obtain ⟨c, front', rfl⟩ := List.exists_cons_of_ne_nil isWord.nonempty
  rw [htext, hsign] at hrest
  obtain ⟨rfl, -⟩ := List.cons.inj hrest
  have hc : c.toLower = 'b' := by simpa [Name.lowerCase] using hhead
  simp [isFormOf, hc] at hd

/-- Behind a keyword the words make a condition of its form, unless a longer word begins with the
keyword and is all of the text. -/
theorem denotes_of_keyword (spelling : String) (reading : BareReading text condition)
    (complete : words text ≠ [front]) :
    Denotes (.keyword keyword spelling) condition ∧
        (∀ value ∈ condition.operands, ∃ word ∈ words after, value = wordValue word) ∨
      ∃ further, further ≠ [] ∧ words text = [front ++ further] ∧
        condition = compare .equal (wordValue (front ++ further)) := by
  obtain ⟨further, others, hfront, hafter⟩ := words_front isWord after
  rw [← htext, words_trimStart] at hfront
  cases reading with
  | comparison hmem leaves =>
    exact absurd leaves (not_leavesWord_keyword htext isWord hopener hmem _)
  | word _ h =>
    rw [words_iff.mp h] at hfront complete ⊢
    obtain ⟨rfl, rfl⟩ := List.cons.inj hfront
    refine .inr ⟨further, fun hnil => complete ?_, rfl, rfl⟩
    rw [hnil, List.append_nil]
  | between _ h isKeyword | betweenAnd _ h isKeyword =>
    rw [words_iff.mp h] at hfront
    obtain ⟨rfl, rfl⟩ := List.cons.inj hfront
    have hbetween : (Keyword.between, "between".toList) ∈ openers := by decide
    obtain ⟨rfl, rfl⟩ := keyword_of_isFormOfWord hopener hbetween isKeyword
    refine .inl ⟨.between _ _ _, ?_⟩
    simp [hafter, operands]
  | beginsWith _ h isKeyword =>
    rw [words_iff.mp h] at hfront
    obtain ⟨rfl, rfl⟩ := List.cons.inj hfront
    have hbeginsWith : (Keyword.beginsWith, "begins_with".toList) ∈ openers := by decide
    obtain ⟨rfl, rfl⟩ := keyword_of_isFormOfWord hopener hbeginsWith isKeyword
    refine .inl ⟨.beginsWith _ _, ?_⟩
    simp [hafter, operands]

end

/-! The first token. -/

/-- The first token of a text, before anything in the text is refused. -/
def firstToken? (text : String) : Option Token := (Lexer.scan 1 text).tokens.head?

theorem trimStart_front {blanks front : List Char}
    (hblanks : ∀ c ∈ blanks, Lexer.isSeparator c = true) (isWord : IsWord front)
    (after : List Char) : trimStart (blanks ++ (front ++ after)) = front ++ after := by
  have hstops : Stops isBlank (front ++ after) := by
    obtain ⟨c, rest, rfl⟩ := List.exists_cons_of_ne_nil isWord.nonempty
    exact stops_cons.mpr (isWord.solid c List.mem_cons_self)
  exact hstops.dropWhile_eq fun c hc => Lexer.isBlank_of_isSeparator (hblanks c hc)

/-- A condition begins with a mark or a keyword. -/
theorem Denotes.symbol_cases {symbol : Symbol} {condition : SortCondition}
    (h : Denotes symbol condition) :
    (∃ mark comparison, symbol = .mark mark ∧ comparison? (.mark mark) = some comparison) ∨
      ∃ keyword spelling, symbol = .keyword keyword spelling := by
  cases h with
  | comparison h =>
    cases symbol with
    | mark mark => exact .inl ⟨mark, _, rfl, h⟩
    | name | string | binary | number | keyword => cases h
  | between | beginsWith => exact .inr ⟨_, _, rfl⟩

/-- The text behind a token that is shown as it is spelled. -/
def behind (text : String) (token : Token) : List Char :=
  text.toList.drop (token.position + token.symbol.shown.length)

/-- What the words of a text make has the form of its first token, and its operands are words behind
that token. The text must not stop behind the token; if it does, a sign of equality still decides
the form. A keyword does not count if a longer word begins with it and is all of the text. -/
theorem parseBare?_denotes {text : String} {condition : SortCondition} {token : Token}
    (h : parseBare? text = some condition) (first : firstToken? text = some token)
    (opens : ∃ other, Denotes token.symbol other)
    (complete : comparison? token.symbol = some .equal ∨
      words text.toList ≠ [token.symbol.shown.toList]) :
    Denotes token.symbol condition ∧ (words text.toList ≠ [token.symbol.shown.toList] →
        ∀ value ∈ condition.operands, ∃ word ∈ words (behind text token), value = wordValue word) ∨
      ∃ keyword spelling further, token.symbol = .keyword keyword spelling ∧ further ≠ [] ∧
        words text.toList = [spelling.toList ++ further] ∧
        condition = compare .equal (wordValue (spelling.toList ++ further)) := by
  obtain ⟨symbol, position, line⟩ := token
  obtain ⟨blanks, rest, lexeme, after, htext, hblanks, hposition, hsplit, hsymbol⟩ :=
    Lexer.exists_split?_of_head? first
  obtain ⟨other, denotes⟩ := opens
  have reading := parseBare?_eq_some_iff.mp h
  have hbehind (hrest : rest = symbol.shown.toList ++ after) :
      behind text ⟨symbol, position, line⟩ = after := by
    rw [behind, hposition, htext, hrest, Nat.zero_add, ← String.length_toList,
      ← List.append_assoc, ← List.length_append, List.drop_left]
  rcases denotes.symbol_cases with ⟨mark, comparison, rfl, hcomparison⟩ | ⟨keyword, spelling, rfl⟩
  · obtain rfl := Lexeme.symbol_eq_mark hsymbol
    have hmark := Lexeme.split?_eq_mark hsplit
    have isWord := isWord_sign _ (mem_comparisonSigns hcomparison)
    obtain rfl := Mark.split?_sound hmark
    rw [hbehind rfl]
    rw [← trimStart_front hblanks isWord, ← htext] at hmark
    refine .inl (denotes_of_mark hcomparison hmark reading (complete.imp_left fun hequal => ?_))
    exact Option.some.inj (hcomparison.symm.trans hequal)
  · obtain ⟨rfl, hkeyword⟩ := Lexeme.symbol_eq_keyword hsymbol
    obtain ⟨rfl, isWord⟩ := Lexer.word?_sound (Lexeme.split?_eq_word hsplit)
    rw [hbehind rfl]
    have htrim := trimStart_front hblanks isWord after
    rw [← htext] at htrim
    have hcomplete := complete.resolve_left (by simp [comparison?])
    rcases denotes_of_keyword htrim isWord (mem_openers denotes hkeyword) spelling reading
      hcomplete with ⟨hdenotes, hoperands⟩ | ⟨further, hfurther, hwords, hcondition⟩
    · exact .inl ⟨hdenotes, fun _ => hoperands⟩
    · exact .inr ⟨keyword, spelling, further, rfl, hfurther, hwords, hcondition⟩

set_option maxRecDepth 4000 in
theorem parseBare?_denotes_lessEqual :
    parseBare? "<= abc-1" = some (compare .lessEqual (.string "abc-1")) ∧
      firstToken? "<= abc-1" = some ⟨.mark .lessEqual, 0, 1⟩ ∧
      words "<= abc-1".toList ≠ ["<=".toList] ∧
      Denotes (.mark .lessEqual) (compare .lessEqual (.string "abc-1")) ∧
      ∃ word ∈ words (behind "<= abc-1" ⟨.mark .lessEqual, 0, 1⟩),
        Value.string "abc-1" = wordValue word := by
  have hparse : parseBare? "<= abc-1" = some (compare .lessEqual (.string "abc-1")) := by cbv
  have hfirst : firstToken? "<= abc-1" = some ⟨.mark .lessEqual, 0, 1⟩ := by cbv
  have hwords : words "<= abc-1".toList ≠ ["<=".toList] := by decide
  have hopens : Denotes (.mark .lessEqual) (compare .lessEqual (.string "")) := .comparison rfl _
  refine ⟨hparse, hfirst, hwords, ?_⟩
  rcases parseBare?_denotes hparse hfirst ⟨_, hopens⟩ (.inr hwords) with
    ⟨denotes, hoperands⟩ | ⟨_, _, _, heq, _⟩
  · exact ⟨denotes, hoperands hwords _ (List.mem_singleton_self _)⟩
  · cases heq

set_option maxRecDepth 4000 in
/-- A word may begin with a keyword; and the end of a sign that stands alone is taken for a word. -/
theorem not_parseBare?_denotes :
    parseBare? "between-1" = some (compare .equal (.string "between-1")) ∧
      firstToken? "between-1" = some ⟨.keyword .between "between", 0, 1⟩ ∧
      parseBare? "<=" = some (compare .less (.string "=")) ∧
      firstToken? "<=" = some ⟨.mark .lessEqual, 0, 1⟩ ∧
      ¬ Denotes (.mark .lessEqual) (compare .less (.string "=")) ∧
      ¬ ∀ text condition token, parseBare? text = some condition →
        firstToken? text = some token → (∃ other, Denotes token.symbol other) →
          Denotes token.symbol condition := by
  have hparse : parseBare? "between-1" = some (compare .equal (.string "between-1")) := by cbv
  have hfirst : firstToken? "between-1" = some ⟨.keyword .between "between", 0, 1⟩ := by cbv
  have halone : parseBare? "<=" = some (compare .less (.string "=")) := by cbv
  have hsign : firstToken? "<=" = some ⟨.mark .lessEqual, 0, 1⟩ := by cbv
  refine ⟨hparse, hfirst, halone, hsign, ?_, fun hall => ?_⟩
  · rintro (⟨h⟩ | _)
    cases h
  · cases hall _ _ _ hparse hfirst ⟨_, .between "between" (.string "") (.string "")⟩ with
    | comparison h => cases h

end AttributeExpr.SortCondition
