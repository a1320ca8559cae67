import AttributeExpr.Literal.Outline
import AttributeExpr.Path.Basic
import AttributeExpr.Proofs.Numeral
import AttributeExpr.Token.Lexeme
import Mathlib.Tactic
/-!
The two ways to write a name. Between backticks any name can be read back, unless another backtick
follows; a bare name consists of characters that make up one word. Three of the words that have a
meaning of their own stand bare, too.
-/
namespace AttributeExpr

theorem quotedName?_plain {c : Char} (h : c ≠ '\x60') (rest : List Char) :
    quotedName? (c :: rest) = (quotedName? rest).map fun (name, after) => (c :: name, after) := by
  rw [quotedName?.eq_def]
  split <;> simp_all

theorem quotedName?_doubled {rest name after : List Char}
    (h : quotedName? rest = some (name, after)) :
    quotedName? ('\x60' :: '\x60' :: rest) = some ('\x60' :: name, after) := by
  simp [quotedName?, h]

theorem quotedName?_end {rest : List Char} (h : rest.head? ≠ some '\x60') :
    quotedName? ('\x60' :: rest) = some ([], rest) := by
  cases rest with
  | nil => rfl
  | cons c rest =>
    have hc : c ≠ '\x60' := by simpa using h
    simp [quotedName?, hc]

theorem quotedName?_doubleBackticks (name : List Char) {rest : List Char}
    (h : rest.head? ≠ some '\x60') :
    quotedName? (Name.doubleBackticks name ++ '\x60' :: rest) = some (name, rest) := by
  induction name with
  | nil => exact quotedName?_end h
  | cons c name ih =>
    by_cases hc : c = '\x60'
    · subst hc
      exact quotedName?_doubled ih
    · have hcons : Name.doubleBackticks (c :: name) = c :: Name.doubleBackticks name := by
        simp [Name.doubleBackticks, hc]
      rw [hcons, List.cons_append, quotedName?_plain hc, ih]
      rfl

/-- Ranges that have no character in common share none of their members. -/
theorem not_inRanges_of_disjoint (ranges : List (Nat × Nat)) {others : List (Nat × Nat)} {c : Char}
    (h : (ranges.all fun r => others.all fun o => r.2 < o.1 || o.2 < r.1) = true)
    (hc : inRanges others c = true) : inRanges ranges c = false := by
  simp only [List.all_eq_true, Bool.or_eq_true, decide_eq_true_eq] at h
  simp only [inRanges, List.any_eq_true, Bool.and_eq_true, decide_eq_true_eq] at hc
  obtain ⟨o, ho, hlow, hhigh⟩ := hc
  simp only [inRanges, List.any_eq_false, Bool.and_eq_true, decide_eq_true_eq, not_and, not_le]
  intro r hr hr'
  have := h r hr o ho
  omega

/-- The white space beyond ASCII. -/
def furtherBlanks : List (Nat × Nat) :=
  [(0x85, 0x85), (0xA0, 0xA0), (0x1680, 0x1680), (0x2000, 0x200A), (0x2028, 0x2029),
    (0x202F, 0x202F), (0x205F, 0x205F), (0x3000, 0x3000)]

/-- The characters with which no word starts. -/
def nonStarts : List (Nat × Nat) :=
  (0x00, 0x40) :: (0x5B, 0x5E) :: (0x60, 0x60) :: (0x7B, 0x7F) :: furtherBlanks

/-- The characters that belong to no word. -/
def nonWords : List (Nat × Nat) :=
  (0x00, 0x2F) :: (0x3A, 0x40) :: (0x5B, 0x5E) :: (0x60, 0x60) :: (0x7B, 0x7F) :: furtherBlanks

theorem isWordStart_iff {c : Char} : isWordStart c = true ↔
    (0x61 ≤ c.toNat ∧ c.toNat ≤ 0x7A) ∨ (0x41 ≤ c.toNat ∧ c.toNat ≤ 0x5A) ∨ c.toNat = 0x5F ∨
      (128 ≤ c.toNat ∧ isBlank c = false) := by
  have heq : c = '_' ↔ c.toNat = 0x5F := by
    rw [← Char.toNat_inj]; rfl
  have hle (a b : Char) : a ≤ b ↔ a.toNat ≤ b.toNat := Iff.rfl
  simp only [isWordStart, Bool.or_eq_true, Bool.and_eq_true, decide_eq_true_eq, hle, heq,
    Bool.not_eq_true', or_assoc]
  rfl

theorem isBlank_of_isWordChar {c : Char} (h : isWordChar c = true) : isBlank c = false := by
  rcases Bool.or_eq_true_iff.mp h with hstart | hdigit
  · rw [isWordStart_iff] at hstart
    simp only [isBlank, Bool.or_eq_false_iff, Bool.and_eq_false_iff, decide_eq_false_iff_not,
      beq_eq_false_iff_ne] at hstart ⊢
    omega
  · rw [Numeral.isDigit_iff] at hdigit
    simp only [isBlank, Bool.or_eq_false_iff, Bool.and_eq_false_iff, decide_eq_false_iff_not,
      beq_eq_false_iff_ne]
    omega

theorem inRanges_nonStarts {c : Char} (h : isWordStart c = false) :
    inRanges nonStarts c = true := by
  have hnot : ¬ isWordStart c = true := by simp [h]
  rw [isWordStart_iff] at hnot
  simp only [isBlank, Bool.or_eq_false_iff, Bool.and_eq_false_iff, decide_eq_false_iff_not,
    beq_eq_false_iff_ne] at hnot
  simp only [inRanges, nonStarts, furtherBlanks, List.any_cons, List.any_nil, Bool.or_eq_true,
    Bool.and_eq_true, decide_eq_true_eq]
  omega

theorem inRanges_nonWords {c : Char} (h : isWordChar c = false) : inRanges nonWords c = true := by
  obtain ⟨hstart, hdigit⟩ := Bool.or_eq_false_iff.mp h
  have hrange := inRanges_nonStarts hstart
  have hnot : ¬ (0x30 ≤ c.toNat ∧ c.toNat ≤ 0x39) := by
    rw [← Numeral.isDigit_iff, hdigit]
    decide
  simp only [inRanges, nonStarts, nonWords, furtherBlanks, List.any_cons, List.any_nil,
    Bool.or_eq_true, Bool.and_eq_true, decide_eq_true_eq, Bool.false_eq_true,
    or_false] at hrange ⊢
  omega

theorem isWordStart_of_isIdentifierStart {c : Char} (h : isIdentifierStart c = true) :
    isWordStart c = true := by
  by_contra hnot
  have := not_inRanges_of_disjoint identifierStartRanges (by decide +kernel)
    (inRanges_nonStarts (Bool.eq_false_of_not_eq_true hnot))
  rw [isIdentifierStart, this] at h
  contradiction

theorem isWordChar_of_isIdentifierContinue {c : Char} (h : isIdentifierContinue c = true) :
    isWordChar c = true := by
  rcases Bool.or_eq_true_iff.mp h with h | h
  · simp [isWordChar, isWordStart_of_isIdentifierStart h]
  · by_contra hnot
    have := not_inRanges_of_disjoint identifierContinueRanges (by decide +kernel)
      (inRanges_nonWords (Bool.eq_false_of_not_eq_true hnot))
    rw [this] at h
    contradiction

/-- In lower case, only capital letters change, and both forms start names. -/
theorem toLower_cases (c : Char) :
    c.toLower = c ∨ (isIdentifierStart c.toLower = true ∧ isIdentifierStart c = true) := by
  by_cases h : 0x41 ≤ c.toNat ∧ c.toNat ≤ 0x5A
  · right
    obtain ⟨hlow, hhigh⟩ := h
    rw [← Char.ofNat_toNat c]
    generalize c.toNat = n at hlow hhigh
    interval_cases n <;> exact ⟨rfl, rfl⟩
  · exact .inl (dif_neg h)

theorem isIdentifierStart_toLower (c : Char) :
    isIdentifierStart c.toLower = isIdentifierStart c := by
  rcases toLower_cases c with heq | ⟨hlower, hc⟩
  · rw [heq]
  · rw [hlower, hc]

theorem isIdentifierContinue_toLower (c : Char) :
    isIdentifierContinue c.toLower = isIdentifierContinue c := by
  rcases toLower_cases c with heq | ⟨hlower, hc⟩
  · rw [heq]
  · simp [isIdentifierContinue, hlower, hc]

namespace Name

/-- An identifier is a single word. -/
theorem word_of_isIdentifier {text : List Char} (h : isIdentifier text = true) :
    ∃ c rest, text = c :: rest ∧ isWordStart c = true ∧ ∀ d ∈ text, isWordChar d = true := by
  cases text with
  | nil => contradiction
  | cons c rest =>
    simp only [isIdentifier, invalidOffset?] at h
    split at h
    · next hstart =>
      have hword := isWordStart_of_isIdentifierStart hstart
      refine ⟨c, rest, rfl, hword, ?_⟩
      intro d hd
      rcases List.mem_cons.mp hd with rfl | hd
      · simp [isWordChar, hword]
      · have hfind : rest.findIdx? (fun d => !isIdentifierContinue d) = none := by simpa using h
        have := List.findIdx?_eq_none_iff.mp hfind d hd
        exact isWordChar_of_isIdentifierContinue (by simpa using this)
    · simp at h

theorem invalidOffset?_lt {text : List Char} {offset : Nat} (nonempty : text ≠ [])
    (h : invalidOffset? text = some offset) : offset < text.length := by
  cases text with
  | nil => contradiction
  | cons c rest =>
    rw [invalidOffset?] at h
    split_ifs at h
    · obtain ⟨index, hindex, rfl⟩ := Option.map_eq_some_iff.mp h
      obtain ⟨hlt, -⟩ := List.findIdx?_eq_some_iff_getElem.mp hindex
      exact Nat.succ_lt_succ hlt
    · obtain rfl := Option.some.inj h
      exact Nat.zero_lt_succ _

/-- Whether a text is an identifier does not depend on its case. -/
theorem isIdentifier_lowerCase (text : List Char) :
    isIdentifier (lowerCase text) = isIdentifier text := by
  cases text with
  | nil => rfl
  | cons c rest =>
    have hfind : (rest.map Char.toLower).findIdx? (fun d => !isIdentifierContinue d) =
        rest.findIdx? (fun d => !isIdentifierContinue d) := by
      simp [List.findIdx?_map, Function.comp_def, isIdentifierContinue_toLower]
    simp [isIdentifier, invalidOffset?, lowerCase, isIdentifierStart_toLower, hfind]

/-- The keywords that stand bare as names. -/
def bareKeywords : List String := ["between", "and", "begins_with"]

/-- Whether a name is written as a keyword. -/
def isBareKeyword (name : String) : Bool :=
  bareKeywords.contains (String.ofList (lowerCase name.toList))

theorem standsBare_of_isBareKeyword {name : String} (h : isBareKeyword name = true) :
    standsBare name.toList = true := by
  have hwords : ∀ word ∈ bareKeywords,
      (isIdentifier word.toList && !literalWords.contains word) = true := by decide +kernel
  have hname := hwords (String.ofList (lowerCase name.toList)) (by simpa [isBareKeyword] using h)
  rwa [String.toList_ofList, isIdentifier_lowerCase] at hname

end Name

end AttributeExpr
