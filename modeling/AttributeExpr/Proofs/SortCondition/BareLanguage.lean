import AttributeExpr.Proofs.Text.Pattern
import AttributeExpr.SortCondition.BareWord
/-!
Which texts make a condition when their words are taken as strings. The forms of a condition are
patterns, of which the first that matches the whole text decides. Only the words of the text matter
to a pattern, so that the forms come to a case distinction on the words; and the sign of a
comparison is the longest one that leaves a single word.
-/
namespace AttributeExpr.SortCondition

open Pattern (AtWord BehindWord anyOf blanks gap inOrder word)

/-! The forms of a condition as patterns. -/

/-- A form of a condition: its pattern, and what the groups of the pattern make. -/
structure BareForm where
  pattern : Pattern
  condition? : List (List Char) → Option SortCondition

/-- The letters of a keyword, each of them in any case. -/
def letters (keyword : String) : Pattern := inOrder (keyword.toList.map isFormOf)

def lastWord : Pattern := .seq word blanks

def comparisonForm : BareForm where
  pattern :=
    let sign := .group (anyOf (comparisonSigns.map (·.1.toList)))
    .seq blanks (.seq sign (.seq blanks lastWord))
  condition?
    | [sign, word] =>
      (comparisonSigns.lookup (String.ofList sign)).map (compare · (wordValue word))
    | _ => none

def betweenForm : BareForm where
  pattern :=
    let conj := .either (.seq (letters "and") gap) .empty
    .seq blanks (.seq (letters "between") (.seq gap (.seq word (.seq gap (.seq conj lastWord)))))
  condition?
    | [low, high] => some (between (wordValue low) (wordValue high))
    | _ => none

def beginsWithForm : BareForm where
  pattern := .seq blanks (.seq (letters "begins_with") (.seq gap lastWord))
  condition?
    | [start] => some (beginsWith (wordValue start))
    | _ => none

def wordForm : BareForm where
  pattern := .seq blanks lastWord
  condition?
    | [word] => some (compare .equal (wordValue word))
    | _ => none

def bareForms : List BareForm := [comparisonForm, betweenForm, beginsWithForm, wordForm]

/-- The first form whose pattern matches the text decides. -/
def readForms? : List BareForm → List Char → Option SortCondition
  | [], _ => none
  | form :: forms, text =>
    match form.pattern.groups? text with
    | some groups => form.condition? groups
    | none => readForms? forms text

/-! What the patterns make of the words of a text. -/

theorem toLower_blank {c : Char} (hc : isBlank c = true) : c.toLower = c := by
  have hcapital : ¬ (0x41 ≤ c.toNat ∧ c.toNat ≤ 0x5A) := by
    simp only [isBlank, Bool.or_eq_true, Bool.and_eq_true, decide_eq_true_eq, beq_iff_eq] at hc
    omega
  exact dif_neg hcapital

/-- A blank is not a form of a letter. -/
theorem isFormOf_blank {letter c : Char} (hletter : isBlank letter = false)
    (hc : isBlank c = true) : isFormOf letter c = false := by
  by_contra hform
  simp only [isFormOf, toLower_blank hc, Bool.not_eq_false, Bool.or_eq_true, Bool.and_eq_true,
    decide_eq_true_eq] at hform
  rcases hform with ((rfl | ⟨-, rfl | rfl⟩) | ⟨-, rfl⟩) | ⟨-, rfl⟩
  · rw [hc] at hletter
    contradiction
  all_goals revert hc; decide

section

variable {pattern : Pattern} {read : List (List Char) → List (List (List Char))}

/-- What stands behind a keyword begins with a blank, so that the keyword is a whole word. -/
theorem wholes_letters_seq (h : BehindWord pattern read) {letters word rest : List Char}
    (hletters : ∀ letter ∈ letters, isBlank letter = false) (hword : ∀ c ∈ word, isBlank c = false)
    (hrest : rest.head?.all isBlank = true) :
    (Pattern.seq (inOrder (letters.map isFormOf)) pattern).wholes (word ++ rest) =
      if isFormOfWord letters word then read (words rest) else [] := by
  induction letters generalizing word with
  | nil =>
    have hseq : (Pattern.seq (inOrder ([].map isFormOf)) pattern).wholes (word ++ rest) =
        pattern.wholes (word ++ rest) := Pattern.wholes_empty_seq
    rw [hseq, h]
    cases word with
    | nil => simp [hrest, isFormOfWord]
    | cons c word => simp [hword c, isFormOfWord]
  | cons letter letters ih =>
    obtain ⟨hletter, hletters⟩ := List.forall_mem_cons.mp hletters
    have hseq : (Pattern.seq (inOrder ((letter :: letters).map isFormOf)) pattern).wholes
        (word ++ rest) = (Pattern.seq (.one (isFormOf letter))
          (.seq (inOrder (letters.map isFormOf)) pattern)).wholes (word ++ rest) :=
      Pattern.wholes_assoc
    rw [hseq]
    cases word with
    | nil =>
      cases rest with
      | nil => exact Pattern.wholes_one_seq_nil
      | cons c rest =>
        have hc : isFormOf letter c = false := isFormOf_blank hletter (by simpa using hrest)
        simp [Pattern.wholes_one_seq, hc, isFormOfWord]
    | cons c word =>
      rw [List.cons_append, Pattern.wholes_one_seq, ih hletters fun d hd => hword d (by simp [hd])]
      by_cases hc : isFormOf letter c = true <;> simp [hc, isFormOfWord]

/-- A keyword is a word of its own. -/
theorem atWord_letters (h : BehindWord pattern read) {keyword : String}
    (isWord : IsWord keyword.toList) :
    AtWord (.seq (letters keyword) pattern) fun
      | [] => []
      | word :: further => if isFormOfWord keyword.toList word then read further else [] := by
  intro text
  have hempty : isFormOfWord keyword.toList [] = false := by
    cases hletters : keyword.toList with
    | nil => exact absurd hletters isWord.nonempty
    | cons letter letters => rfl
  have hwholes {word rest : List Char} := @wholes_letters_seq _ _ h _ word rest isWord.solid
  cases text with
  | nil =>
    simpa [letters, words, hempty] using @hwholes [] [] (List.forall_mem_nil _) rfl
  | cons c rest =>
    by_cases hc : isBlank c = true
    · simpa [letters, hc, hempty] using
        @hwholes [] (c :: rest) (List.forall_mem_nil _) (by simpa using hc)
    · have hc' : isBlank c = false := Bool.eq_false_of_not_eq_true hc
      have hcut := hwholes (isWord_takeWhile hc' rest).solid (ends_dropWhile rest)
      rw [List.cons_append, List.takeWhile_append_dropWhile] at hcut
      have hhead : ((c :: rest).head?.any isBlank) = false := by simpa using hc
      rw [letters, hcut, hhead, words_solid hc']
      rfl

end

theorem atWord_lastWord : AtWord lastWord fun
    | [word] => [[word]]
    | _ => [] := by
  intro text
  rw [lastWord, Pattern.behindWord_blanks.word]
  rcases words text with _ | ⟨word, _ | ⟨next, further⟩⟩ <;> rfl

theorem isWord_between : IsWord "between".toList := ⟨by simp, by simp [isBlank]⟩

theorem isWord_conj : IsWord "and".toList := ⟨by simp, by simp [isBlank]⟩

theorem isWord_beginsWith : IsWord "begins_with".toList := ⟨by simp, by simp [isBlank]⟩

theorem groups?_word (text : List Char) :
    wordForm.pattern.groups? text = match words text with
      | [word] => some [word]
      | _ => none := by
  rw [Pattern.groups?, wordForm, atWord_lastWord.blanks]
  split <;> rfl

theorem groups?_beginsWith (text : List Char) :
    beginsWithForm.pattern.groups? text = match words text with
      | [keyword, start] =>
        if isFormOfWord "begins_with".toList keyword then some [start] else none
      | _ => none := by
  rw [Pattern.groups?, beginsWithForm,
    (atWord_letters (atWord_lastWord.gap rfl) isWord_beginsWith).blanks]
  rcases words text with _ | ⟨keyword, _ | ⟨start, _ | ⟨next, further⟩⟩⟩ <;> dsimp only
  · rfl
  · split_ifs <;> rfl
  · split_ifs <;> rfl
  · split_ifs <;> rfl

theorem atWord_conj : AtWord (.seq (.either (.seq (letters "and") gap) .empty) lastWord) fun
    | [high] => [[high]]
    | [conj, high] => if isFormOfWord "and".toList conj then [[high]] else []
    | _ => [] := by
  intro text
  rw [Pattern.wholes_either_seq, Pattern.wholes_assoc, Pattern.wholes_empty_seq, atWord_lastWord,
    atWord_letters (atWord_lastWord.gap rfl) isWord_conj]
  rcases words text with _ | ⟨conj, _ | ⟨high, _ | ⟨next, further⟩⟩⟩ <;> dsimp only <;>
    split_ifs <;> rfl

theorem groups?_between (text : List Char) :
    betweenForm.pattern.groups? text = match words text with
      | [keyword, low, high] =>
        if isFormOfWord "between".toList keyword then some [low, high] else none
      | [keyword, low, conj, high] =>
        if isFormOfWord "between".toList keyword && isFormOfWord "and".toList conj then
          some [low, high]
        else none
      | _ => none := by
  have hlow := (atWord_conj.gap rfl).word
  rw [Pattern.groups?, betweenForm, (atWord_letters (hlow.gap rfl) isWord_between).blanks]
  rcases words text with
    _ | ⟨keyword, _ | ⟨low, _ | ⟨conj, _ | ⟨high, _ | ⟨next, further⟩⟩⟩⟩⟩ <;> dsimp only
  · rfl
  · split_ifs <;> rfl
  · split_ifs <;> rfl
  · split_ifs <;> rfl
  · by_cases hkeyword : isFormOfWord "between".toList keyword = true <;>
      by_cases hconj : isFormOfWord "and".toList conj = true <;> simp only [hkeyword, hconj] <;> rfl
  · split_ifs <;> rfl

/-! The sign of a comparison. -/

def onlyWord? : List (List Char) → Option (List Char)
  | [word] => some word
  | _ => none

theorem onlyWord?_eq_some_iff {words : List (List Char)} {word : List Char} :
    onlyWord? words = some word ↔ words = [word] := by
  rcases words with _ | ⟨first, _ | ⟨next, further⟩⟩ <;> simp [onlyWord?]

/-- The only word behind a sign at the beginning of a text. -/
def wordBehind? (text : List Char) (sign : String) : Option (List Char) :=
  if sign.toList.isPrefixOf text then onlyWord? (words (text.drop sign.length)) else none

/-- The first sign that leaves a single word of a text, with the word. -/
def signedWord? (text : List Char) : Option ((String × Comparison) × List Char) :=
  comparisonSigns.findSome? fun sign => (wordBehind? text sign.1).map (sign, ·)

theorem findSome?_compareWith? (text : List Char) :
    comparisonSigns.findSome? (compareWith? · text) =
      (signedWord? text).map fun (sign, word) => compare sign.2 (wordValue word) := by
  rw [signedWord?, List.map_findSome?]
  congr 1
  funext sign
  simp only [compareWith?, wordBehind?, Function.comp_apply, Option.map_map]
  split_ifs
  · rcases words (text.drop sign.1.length) with _ | ⟨word, _ | ⟨next, further⟩⟩ <;> rfl
  · rfl

theorem groups?_comparison (text : List Char) :
    comparisonForm.pattern.groups? text =
      (signedWord? (trimStart text)).map fun (sign, word) => [sign.1.toList, word] := by
  have hsolid : ∀ expected ∈ comparisonSigns.map (·.1.toList),
      expected.head?.any isSolid = true := by decide
  rw [Pattern.groups?, comparisonForm,
    Pattern.wholes_blanks_seq (Pattern.refuses_group_anyOf hsolid _),
    Pattern.wholes_group_anyOf_seq, signedWord?, List.map_findSome?]
  generalize comparisonSigns = signs
  induction signs with
  | nil => rfl
  | cons sign signs ih =>
    rw [List.findSome?_cons, ← ih, List.map_cons, List.filter_cons, Function.comp_apply]
    simp only [wordBehind?]
    split_ifs with hbegins
    · rw [List.flatMap_cons, List.head?_append, atWord_lastWord.blanks, String.length_toList]
      rcases words ((trimStart text).drop sign.1.length) with
        _ | ⟨word, _ | ⟨next, further⟩⟩ <;> rfl
    · rfl

theorem wordBehind?_eq_some_iff {sign : String} {text word : List Char} :
    wordBehind? text sign = some word ↔
      ∃ rest, text = sign.toList ++ rest ∧ words rest = [word] := by
  rw [wordBehind?]
  constructor
  · intro h
    split_ifs at h with hbegins
    obtain ⟨rest, rfl⟩ := List.isPrefixOf_iff_prefix.mp hbegins
    rw [onlyWord?_eq_some_iff, ← String.length_toList, List.drop_left] at h
    exact ⟨rest, rfl, h⟩
  · rintro ⟨rest, rfl, hwords⟩
    rw [if_pos (by simp), ← String.length_toList, List.drop_left, hwords]
    rfl

/-- A sign begins a text without the blanks around it, and leaves a single word of it. -/
def LeavesWord (text : List Char) (sign : String) (word : List Char) : Prop :=
  ∃ rest, trim text = sign.toList ++ rest ∧ Words rest [word]

theorem leavesWord_iff {text : List Char} {sign : String} {word : List Char} :
    LeavesWord text sign word ↔ wordBehind? (trimStart text) sign = some word := by
  obtain ⟨blanks, hblanks, htrim⟩ := trimEnd_append (trimStart text)
  rw [← trim] at htrim
  rw [wordBehind?_eq_some_iff, htrim]
  constructor
  · rintro ⟨rest, hrest, hwords⟩
    refine ⟨rest ++ blanks, by rw [hrest, List.append_assoc], ?_⟩
    exact words_iff.mp (hwords.append_blanks hblanks)
  · rintro ⟨rest, hrest, hwords⟩
    rcases List.append_eq_append_iff.mp hrest with ⟨front, hsign, rfl⟩ | ⟨front, hfront, rfl⟩
    · -- The word would be among the blanks.
      have hnone : words rest = [] :=
        words_iff.mp (.blank fun c hc => hblanks c (List.mem_append_right _ hc))
      rw [hnone] at hwords
      contradiction
    · refine ⟨front, hfront, ?_⟩
      have happend := (words_sound front).append_blanks hblanks
      rw [words_iff, hwords] at happend
      exact words_iff.mpr happend.symm

/-- No sign begins one that comes after it in the list. -/
theorem comparisonSigns_pairwise :
    comparisonSigns.Pairwise fun first second => ¬ first.1.toList <+: second.1.toList := by
  decide

/-- Two signs that begin one text begin with each other. -/
theorem LeavesWord.prefixes {text word other : List Char} {first second : String}
    (hfirst : LeavesWord text first word) (hsecond : LeavesWord text second other)
    (h : ¬ first.toList <+: second.toList) : second.toList <+: first.toList := by
  obtain ⟨rest, hrest, -⟩ := hfirst
  obtain ⟨rest', hrest', -⟩ := hsecond
  have hbegins : first.toList <+: trim text := ⟨rest, hrest.symm⟩
  have hbegins' : second.toList <+: trim text := ⟨rest', hrest'.symm⟩
  exact (List.prefix_or_prefix_of_prefix hbegins hbegins').resolve_left h

/-- The longest sign that leaves a word is taken. -/
theorem signedWord?_eq_some_iff {text : List Char} {sign : String × Comparison}
    {word : List Char} :
    signedWord? (trimStart text) = some (sign, word) ↔
      sign ∈ comparisonSigns ∧ LeavesWord text sign.1 word ∧
        ∀ other ∈ comparisonSigns, ∀ word, LeavesWord text other.1 word →
          other.1.length ≤ sign.1.length := by
  rw [signedWord?, List.findSome?_eq_some_iff]
  constructor
  · rintro ⟨before, sign', behind, hsigns, hfound, hbefore⟩
    obtain ⟨word', hword, heq⟩ := Option.map_eq_some_iff.mp hfound
    obtain ⟨rfl, rfl⟩ := Prod.mk.inj heq
    have leaves := leavesWord_iff.mpr hword
    refine ⟨by simp [hsigns], leaves, fun other hother word leaves' => ?_⟩
    have hpairwise := comparisonSigns_pairwise
    rw [hsigns, List.pairwise_append, List.pairwise_cons] at hpairwise
    rw [hsigns, List.mem_append, List.mem_cons] at hother
    rcases hother with hother | rfl | hother
    · have hnone := hbefore other hother
      rw [leavesWord_iff.mp leaves'] at hnone
      contradiction
    · rfl
    · have hbegins := (leaves.prefixes leaves' (hpairwise.2.1.1 other hother)).length_le
      rwa [String.length_toList, String.length_toList] at hbegins
  · rintro ⟨hmem, leaves, longest⟩
    obtain ⟨before, behind, hsigns⟩ := List.append_of_mem hmem
    refine ⟨before, sign, behind, hsigns, ?_, fun other hother => ?_⟩
    · rw [leavesWord_iff.mp leaves, Option.map_some]
    · -- A sign in front of this one does not begin it, and would be longer.
      by_contra hsome
      obtain ⟨_, hfound⟩ := Option.ne_none_iff_exists'.mp hsome
      obtain ⟨word', hword, -⟩ := Option.map_eq_some_iff.mp hfound
      have leaves' := leavesWord_iff.mpr hword
      have hpairwise := comparisonSigns_pairwise
      rw [hsigns, List.pairwise_append] at hpairwise
      have hnot := hpairwise.2.2 other hother sign List.mem_cons_self
      have hbegins := leaves'.prefixes leaves hnot
      have hlength := longest other (by simp [hsigns, hother]) word' leaves'
      rw [← String.length_toList, ← String.length_toList] at hlength
      exact hnot (hbegins.eq_of_length_le hlength ▸ List.prefix_rfl)

/-! The conditions. -/

/-- No sign of a comparison leaves a single word of the text. -/
def SignFree (text : List Char) : Prop :=
  ∀ sign ∈ comparisonSigns, ∀ word, ¬ LeavesWord text sign.1 word

/-- The condition that a text makes when its words are taken as strings. -/
inductive BareReading (text : List Char) : SortCondition → Prop where
  | comparison {sign : String × Comparison} {word : List Char} (h : sign ∈ comparisonSigns)
      (leaves : LeavesWord text sign.1 word)
      (longest : ∀ other ∈ comparisonSigns, ∀ word, LeavesWord text other.1 word →
        other.1.length ≤ sign.1.length) :
      BareReading text (compare sign.2 (wordValue word))
  | between {keyword low high : List Char} (signFree : SignFree text)
      (h : Words text [keyword, low, high])
      (isKeyword : isFormOfWord "between".toList keyword = true) :
      BareReading text (between (wordValue low) (wordValue high))
  | betweenAnd {keyword low conj high : List Char} (signFree : SignFree text)
      (h : Words text [keyword, low, conj, high])
      (isKeyword : isFormOfWord "between".toList keyword = true)
      (isConj : isFormOfWord "and".toList conj = true) :
      BareReading text (between (wordValue low) (wordValue high))
  | beginsWith {keyword start : List Char} (signFree : SignFree text)
      (h : Words text [keyword, start])
      (isKeyword : isFormOfWord "begins_with".toList keyword = true) :
      BareReading text (beginsWith (wordValue start))
  | word {word : List Char} (signFree : SignFree text) (h : Words text [word]) :
      BareReading text (compare .equal (wordValue word))

theorem signFree_iff {text : List Char} :
    SignFree text ↔ signedWord? (trimStart text) = none := by
  rw [signedWord?, List.findSome?_eq_none_iff]
  refine forall₂_congr fun sign hsign => ?_
  rw [Option.map_eq_none_iff, Option.eq_none_iff_forall_ne_some]
  exact forall_congr' fun word => not_congr leavesWord_iff

theorem parseBare?_eq_match (text : String) :
    parseBare? text = match signedWord? (trimStart text.toList) with
      | some (sign, word) => some (compare sign.2 (wordValue word))
      | none => ofWords? (words text.toList) := by
  rw [parseBare?]
  simp only [findSome?_compareWith?]
  cases signedWord? (trimStart text.toList) <;> rfl

/-- The comparison of a sign can be found by the sign. -/
theorem lookup_comparisonSigns {sign : String × Comparison} (h : sign ∈ comparisonSigns) :
    comparisonSigns.lookup (String.ofList sign.1.toList) = some sign.2 := by
  rw [String.ofList_toList]
  revert sign
  decide

/-- Without a sign, the other three patterns come to a case distinction on the words. -/
theorem readForms?_words (text : List Char) :
    readForms? [betweenForm, beginsWithForm, wordForm] text = ofWords? (words text) := by
  simp only [readForms?, groups?_between, groups?_beginsWith, groups?_word]
  rcases words text with
    _ | ⟨first, _ | ⟨second, _ | ⟨third, _ | ⟨fourth, _ | ⟨next, further⟩⟩⟩⟩⟩
  · rfl
  · rfl
  · simp only [ofWords?]
    split_ifs <;> rfl
  · simp only [ofWords?]
    split_ifs <;> rfl
  · simp only [ofWords?]
    split_ifs <;> rfl
  · rfl

theorem parseBare?_eq_readForms? (text : String) :
    parseBare? text = readForms? bareForms text.toList := by
  rw [parseBare?_eq_match, bareForms, readForms?, groups?_comparison, readForms?_words]
  cases hsigned : signedWord? (trimStart text.toList) with
  | none => rfl
  | some found =>
    have hmem := (signedWord?_eq_some_iff.mp hsigned).1
    simp only [Option.map_some, comparisonForm, lookup_comparisonSigns hmem]

theorem ofWords?_eq_some_iff {text : List Char} {condition : SortCondition}
    (signFree : SignFree text) :
    ofWords? (words text) = some condition ↔ BareReading text condition := by
  constructor
  · intro h
    have hwords := words_sound text
    unfold ofWords? at h
    split at h
    · next word heq =>
      obtain rfl := Option.some.inj h
      exact .word signFree (heq ▸ hwords)
    · next keyword start heq =>
      split_ifs at h with hkeyword
      obtain rfl := Option.some.inj h
      exact .beginsWith signFree (heq ▸ hwords) hkeyword
    · next keyword low high heq =>
      split_ifs at h with hkeyword
      obtain rfl := Option.some.inj h
      exact .between signFree (heq ▸ hwords) hkeyword
    · next keyword low conj high heq =>
      split_ifs at h with hkeywords
      obtain ⟨hkeyword, hconj⟩ := Bool.and_eq_true_iff.mp hkeywords
      obtain rfl := Option.some.inj h
      exact .betweenAnd signFree (heq ▸ hwords) hkeyword hconj
    · contradiction
  · intro h
    cases h with
    | comparison h leaves => exact absurd leaves (signFree _ h _)
    | between _ h isKeyword => simp only [words_iff.mp h, ofWords?, if_pos isKeyword]
    | betweenAnd _ h isKeyword isConj =>
      simp only [words_iff.mp h, ofWords?, isKeyword, isConj]
      rfl
    | beginsWith _ h isKeyword => simp only [words_iff.mp h, ofWords?, if_pos isKeyword]
    | word _ h => simp only [words_iff.mp h, ofWords?]

theorem parseBare?_eq_some_iff {text : String} {condition : SortCondition} :
    parseBare? text = some condition ↔ BareReading text.toList condition := by
  rw [parseBare?_eq_match]
  cases hsigned : signedWord? (trimStart text.toList) with
  | none => exact ofWords?_eq_some_iff (signFree_iff.mpr hsigned)
  | some found =>
    obtain ⟨sign, word⟩ := found
    obtain ⟨hmem, leaves, longest⟩ := signedWord?_eq_some_iff.mp hsigned
    constructor
    · rintro h
      obtain rfl := Option.some.inj h
      exact .comparison hmem leaves longest
    · intro h
      cases h with
      | @comparison sign' word' hmem' leaves' longest' =>
        have heq := signedWord?_eq_some_iff.mpr ⟨hmem', leaves', longest'⟩
        rw [hsigned] at heq
        obtain ⟨rfl, rfl⟩ := Prod.mk.inj (Option.some.inj heq)
        rfl
      | between signFree | betweenAnd signFree | beginsWith signFree | word signFree =>
        exact absurd leaves (signFree sign hmem word)

/-- The conditions whose words have no quotes. -/
theorem parseBare?_language (text : String) :
    parseBare? text = readForms? bareForms text.toList ∧
      ∀ condition, parseBare? text = some condition ↔ BareReading text.toList condition :=
  ⟨parseBare?_eq_readForms? text, fun _ => parseBare?_eq_some_iff⟩

/-- Where the longer sign leaves no word, the shorter one is taken. -/
example : parseBare? "<=" = some (compare .less (wordValue ['='])) := rfl

end AttributeExpr.SortCondition
