import AttributeExpr.Text.Character
import Mathlib.Tactic
/-!
Runs of characters with a common property. A run is cut off exactly where the text behind it does
not go on with the same property. Words are the runs of characters that are not blank.
-/
namespace AttributeExpr

/-- A text that does not begin with a character of the given kind. -/
def Stops (p : Char → Bool) (rest : List Char) : Prop := ∀ c ∈ rest.head?, p c = false

@[simp] theorem stops_nil (p : Char → Bool) : Stops p [] := by simp [Stops]

@[simp] theorem stops_cons {p : Char → Bool} {c : Char} {rest : List Char} :
    Stops p (c :: rest) ↔ p c = false := by simp [Stops]

theorem Stops.mono {p q : Char → Bool} {rest : List Char} (h : Stops p rest)
    (hpq : ∀ c, q c = true → p c = true) : Stops q rest := by
  intro c hc
  have hp := h c hc
  cases hq : q c with
  | false => rfl
  | true => rw [hpq c hq] at hp; contradiction

theorem Stops.append {p : Char → Bool} {text rest : List Char} (h : Stops p text)
    (hrest : Stops p rest) : Stops p (text ++ rest) := by
  cases text with
  | nil => exact hrest
  | cons c text => exact stops_cons.mpr (stops_cons.mp h)

theorem Stops.takeWhile_eq {p : Char → Bool} {run rest : List Char} (h : Stops p rest)
    (hrun : ∀ c ∈ run, p c = true) : (run ++ rest).takeWhile p = run := by
  rw [List.takeWhile_append_of_pos hrun]
  cases rest with
  | nil => simp
  | cons c rest => simp [stops_cons.mp h]

theorem Stops.dropWhile_eq {p : Char → Bool} {run rest : List Char} (h : Stops p rest)
    (hrun : ∀ c ∈ run, p c = true) : (run ++ rest).dropWhile p = rest := by
  rw [List.dropWhile_append_of_pos hrun]
  cases rest with
  | nil => simp
  | cons c rest => simp [stops_cons.mp h]

/-- Two runs with nothing of the same kind behind them are told apart from what follows. -/
theorem append_inj_of_stops {p : Char → Bool} {run run' rest rest' : List Char}
    (hrun : ∀ c ∈ run, p c = true) (hrun' : ∀ c ∈ run', p c = true) (h : Stops p rest)
    (h' : Stops p rest') (heq : run ++ rest = run' ++ rest') : run = run' ∧ rest = rest' := by
  constructor
  · rw [← h.takeWhile_eq hrun, heq, h'.takeWhile_eq hrun']
  · rw [← h.dropWhile_eq hrun, heq, h'.dropWhile_eq hrun']

theorem Stops.takeWhile_extend {p : Char → Bool} {post : List Char} (h : Stops p post)
    (text : List Char) : (text ++ post).takeWhile p = text.takeWhile p := by
  induction text with
  | nil => exact h.takeWhile_eq (List.forall_mem_nil _)
  | cons c text ih =>
    rw [List.cons_append, List.takeWhile_cons, List.takeWhile_cons, ih]

theorem Stops.dropWhile_extend {p : Char → Bool} {post : List Char} (h : Stops p post)
    (text : List Char) : (text ++ post).dropWhile p = text.dropWhile p ++ post := by
  induction text with
  | nil => exact h.dropWhile_eq (List.forall_mem_nil _)
  | cons c text ih =>
    rw [List.cons_append, List.dropWhile_cons, List.dropWhile_cons, ih]
    split_ifs <;> rfl

theorem stops_dropWhile (p : Char → Bool) (text : List Char) : Stops p (text.dropWhile p) := by
  induction text with
  | nil => exact stops_nil p
  | cons c text ih =>
    rw [List.dropWhile_cons]
    split_ifs with hc
    · exact ih
    · exact stops_cons.mpr (Bool.eq_false_of_not_eq_true hc)

theorem of_mem_takeWhile {p : Char → Bool} {text : List Char} {c : Char}
    (hc : c ∈ text.takeWhile p) : p c = true :=
  List.all_eq_true.mp List.all_takeWhile c hc

/-- A run of characters that are not blank. -/
structure IsWord (word : List Char) : Prop where
  nonempty : word ≠ []
  solid : ∀ c ∈ word, isBlank c = false

theorem words_blank {c : Char} (h : isBlank c = true) (rest : List Char) :
    words (c :: rest) = words rest := by
  rw [words, if_pos h]

/-- A word ends where a blank or the end of the text stands behind it. -/
theorem words_append {word rest : List Char} (h : IsWord word)
    (hrest : rest.head?.all isBlank = true) : words (word ++ rest) = word :: words rest := by
  obtain ⟨nonempty, solid⟩ := h
  induction word with
  | nil => contradiction
  | cons c word ih =>
    obtain ⟨hc, hword⟩ := List.forall_mem_cons.mp solid
    rw [List.cons_append, words, if_neg (by simp [hc])]
    cases word with
    | nil => rw [List.nil_append, if_pos hrest]
    | cons d word =>
      have hd : isBlank d = false := hword d List.mem_cons_self
      rw [ih (List.cons_ne_nil _ _) hword]
      simp [hd]

theorem words_eq_self {word : List Char} (h : IsWord word) : words word = [word] := by
  simpa [words] using @words_append word [] h rfl

end AttributeExpr
