import AttributeExpr.Proofs.Text.Run
import Mathlib.Data.List.TakeWhile
/-!
The words of a text, as what is left of it when it is cut at its blanks. Blanks at the ends of a
text do not matter to its words.
-/
namespace AttributeExpr

/-- The words of a text: runs of characters that are not blank, each of which has blanks or an end
of the text on either side. -/
inductive Words : List Char → List (List Char) → Prop where
  | blank {text : List Char} (h : ∀ c ∈ text, isBlank c = true) : Words text []
  | word {blanks word rest : List Char} {words : List (List Char)}
      (h : ∀ c ∈ blanks, isBlank c = true) (isWord : IsWord word)
      (ends : rest.head?.all isBlank = true) (further : Words rest words) :
      Words (blanks ++ (word ++ rest)) (word :: words)

theorem words_blanks {blanks : List Char} (h : ∀ c ∈ blanks, isBlank c = true)
    (rest : List Char) : words (blanks ++ rest) = words rest := by
  induction blanks with
  | nil => rfl
  | cons c blanks ih =>
    obtain ⟨hc, hblanks⟩ := List.forall_mem_cons.mp h
    rw [List.cons_append, words_blank hc, ih hblanks]

theorem Words.cons_blank {c : Char} (hc : isBlank c = true) {rest : List Char}
    {found : List (List Char)} (h : Words rest found) : Words (c :: rest) found := by
  cases h with
  | blank h => exact .blank (List.forall_mem_cons.mpr ⟨hc, h⟩)
  | @word blanks word rest words h isWord ends further =>
    exact @Words.word (c :: blanks) word rest words (List.forall_mem_cons.mpr ⟨hc, h⟩) isWord ends
      further

theorem words_sound (text : List Char) : Words text (words text) := by
  induction text with
  | nil => exact .blank (List.forall_mem_nil _)
  | cons c rest ih =>
    rw [words]
    split_ifs with hc hends
    · exact ih.cons_blank hc
    · have isWord : IsWord [c] := ⟨List.cons_ne_nil _ _, by simpa using hc⟩
      exact @Words.word [] [c] rest _ (List.forall_mem_nil _) isWord hends ih
    · -- The first word goes on behind the character, and there is no blank before it.
      generalize words rest = found at ih
      cases ih with
      | blank h =>
        cases rest with
        | nil => simp at hends
        | cons d rest => simp [h d] at hends
      | @word blanks word rest words h isWord ends further =>
        cases blanks with
        | cons d blanks => simp [h d] at hends
        | nil =>
          have isWord' : IsWord (c :: word) :=
            ⟨List.cons_ne_nil _ _, List.forall_mem_cons.mpr ⟨by simpa using hc, isWord.solid⟩⟩
          exact @Words.word [] (c :: word) rest _ (List.forall_mem_nil _) isWord' ends further

theorem words_iff {text : List Char} {found : List (List Char)} :
    Words text found ↔ words text = found := by
  constructor
  · intro h
    induction h with
    | @blank text h => simpa [words] using words_blanks h []
    | word h isWord ends _ ih => rw [words_blanks h, words_append isWord ends, ih]
  · rintro rfl
    exact words_sound text

/-! The first word of a text. -/

/-- Whether a character is part of a word. -/
def isSolid (c : Char) : Bool := !isBlank c

theorem ends_dropWhile (text : List Char) :
    (text.dropWhile isSolid).head?.all isBlank = true := by
  have hstops := stops_dropWhile isSolid text
  cases hrest : text.dropWhile isSolid with
  | nil => rfl
  | cons c rest => simpa [hrest, isSolid] using hstops

theorem isWord_takeWhile {c : Char} (hc : isBlank c = false) (rest : List Char) :
    IsWord (c :: rest.takeWhile isSolid) := by
  refine ⟨List.cons_ne_nil _ _, List.forall_mem_cons.mpr ⟨hc, fun d hd => ?_⟩⟩
  simpa [isSolid] using of_mem_takeWhile hd

theorem words_solid {c : Char} (hc : isBlank c = false) (rest : List Char) :
    words (c :: rest) = (c :: rest.takeWhile isSolid) :: words (rest.dropWhile isSolid) := by
  rw [← words_append (isWord_takeWhile hc rest) (ends_dropWhile rest), List.cons_append,
    List.takeWhile_append_dropWhile]

/-- A run of characters begins the first word of its text. What is left of that word are the first
characters behind the run. -/
theorem words_front {front : List Char} (h : IsWord front) (after : List Char) :
    ∃ further rest, words (front ++ after) = (front ++ further) :: rest ∧
      words after = if further = [] then rest else further :: rest := by
  cases after with
  | nil => exact ⟨[], [], by simp [words_eq_self h], rfl⟩
  | cons c after =>
    by_cases hc : isBlank c = true
    · refine ⟨[], words (c :: after), ?_, rfl⟩
      rw [words_append h (by simpa using hc), List.append_nil]
    · have hc' : isBlank c = false := Bool.eq_false_of_not_eq_true hc
      refine ⟨c :: after.takeWhile isSolid, words (after.dropWhile isSolid), ?_,
        words_solid hc' after⟩
      have isWord : IsWord (front ++ c :: after.takeWhile isSolid) :=
        ⟨by simp, List.forall_mem_append.mpr ⟨h.solid, (isWord_takeWhile hc' after).solid⟩⟩
      rw [← words_append isWord (ends_dropWhile after), List.append_assoc, List.cons_append,
        List.takeWhile_append_dropWhile]

/-! Texts without the blanks around them. -/

theorem trimStart_append (text : List Char) :
    ∃ blanks, (∀ c ∈ blanks, isBlank c = true) ∧ text = blanks ++ trimStart text :=
  ⟨text.takeWhile isBlank, fun _ => of_mem_takeWhile, List.takeWhile_append_dropWhile.symm⟩

theorem trimEnd_append (text : List Char) :
    ∃ blanks, (∀ c ∈ blanks, isBlank c = true) ∧ text = trimEnd text ++ blanks := by
  obtain ⟨blanks, hblanks, htext⟩ := trimStart_append text.reverse
  refine ⟨blanks.reverse, by simpa using hblanks, ?_⟩
  rw [trimEnd, ← List.reverse_append, ← trimStart, ← htext, List.reverse_reverse]

theorem exists_trim (text : List Char) :
    ∃ before after, text = before ++ trim text ++ after ∧ (∀ c ∈ before, isBlank c = true) ∧
      ∀ c ∈ after, isBlank c = true := by
  obtain ⟨before, hbefore, hstart⟩ := trimStart_append text
  obtain ⟨after, hafter, hend⟩ := trimEnd_append (trimStart text)
  refine ⟨before, after, ?_, hbefore, hafter⟩
  rw [trim, List.append_assoc, ← hend, ← hstart]

theorem trimEnd_blanks {text after : List Char} (hafter : ∀ c ∈ after, isBlank c = true) :
    trimEnd (text ++ after) = trimEnd text := by
  rw [trimEnd, List.reverse_append, List.dropWhile_append_of_pos (by simpa using hafter)]
  rfl

/-- Blanks around a text do not count. -/
theorem trim_blanks {before text after : List Char} (hbefore : ∀ c ∈ before, isBlank c = true)
    (hafter : ∀ c ∈ after, isBlank c = true) : trim (before ++ text ++ after) = trim text := by
  have hblank : after.dropWhile isBlank = [] := List.dropWhile_eq_nil_iff.mpr hafter
  rw [trim, trimStart, List.append_assoc, List.dropWhile_append_of_pos hbefore,
    List.dropWhile_append]
  split_ifs with hempty
  · rw [hblank, trim, trimStart, List.isEmpty_iff.mp hempty]
  · exact trimEnd_blanks hafter

theorem words_trimStart (text : List Char) : words (trimStart text) = words text := by
  obtain ⟨blanks, hblanks, htext⟩ := trimStart_append text
  conv_rhs => rw [htext, words_blanks hblanks]

theorem stops_trimStart (text : List Char) : Stops isBlank (trimStart text) :=
  stops_dropWhile isBlank text

theorem words_eq_nil_iff {text : List Char} : words text = [] ↔ trimStart text = [] := by
  have hstops := stops_trimStart text
  rw [← words_trimStart]
  cases htext : trimStart text with
  | nil => simp [words]
  | cons c rest =>
    rw [htext, stops_cons] at hstops
    simp [words_solid hstops]

/-- Blanks at the end of a text are not part of its words. -/
theorem Words.append_blanks {text blanks : List Char} {found : List (List Char)}
    (h : Words text found) (hblanks : ∀ c ∈ blanks, isBlank c = true) :
    Words (text ++ blanks) found := by
  induction h with
  | blank h => exact .blank (List.forall_mem_append.mpr ⟨h, hblanks⟩)
  | @word front word rest words h isWord ends _ ih =>
    have ends' : (rest ++ blanks).head?.all isBlank = true := by
      cases rest with
      | nil =>
        cases blanks with
        | nil => rfl
        | cons c blanks => simpa using hblanks c
      | cons c rest => exact ends
    simpa using @Words.word front word (rest ++ blanks) words h isWord ends' ih

end AttributeExpr
