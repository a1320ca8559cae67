import AttributeExpr.Proofs.Text.Words
/-!
Patterns of characters. A pattern may match the beginning of a text in several ways, which are tried
in a fixed order: a repetition takes as much as it can before it takes less, and an alternative is
tried before those behind it. A text is matched in the first way that leaves nothing of it. Where a
run of characters is followed by something that cannot begin with one of them, only the longest run
matters.
-/
namespace AttributeExpr

/-- A pattern of characters. The texts that its groups match are reported. -/
inductive Pattern
  | empty
  | one (p : Char → Bool)
  | many (p : Char → Bool)
  | seq (first second : Pattern)
  | either (first second : Pattern)
  | group (inner : Pattern)

namespace Pattern

/-- What a run of characters may leave of a text, the longest run first. -/
def runs (p : Char → Bool) : List Char → List (List Char)
  | [] => [[]]
  | c :: rest => if p c then runs p rest ++ [c :: rest] else [c :: rest]

/-- The ways to match the beginning of a text, in the order in which they are tried: what the groups
match, and what is left of the text. -/
def ways : Pattern → List Char → List (List (List Char) × List Char)
  | empty, text => [([], text)]
  | one _, [] => []
  | one p, c :: rest => if p c then [([], rest)] else []
  | many p, text => (runs p text).map ([], ·)
  | seq first second, text =>
    (first.ways text).flatMap fun (groups, rest) =>
      (second.ways rest).map fun (further, rest) => (groups ++ further, rest)
  | either first second, text => first.ways text ++ second.ways text
  | group inner, text =>
    (inner.ways text).map fun (groups, rest) =>
      (text.take (text.length - rest.length) :: groups, rest)

/-- What the groups match in the ways that leave nothing of the text. -/
def wholes (pattern : Pattern) (text : List Char) : List (List (List Char)) :=
  ((pattern.ways text).filter (·.2.isEmpty)).map (·.1)

/-- What the groups match in the first way that leaves nothing of the text. -/
def groups? (pattern : Pattern) (text : List Char) : Option (List (List Char)) :=
  (pattern.wholes text).head?

/-- Any number of blanks. -/
def blanks : Pattern := many isBlank

/-- At least one blank. -/
def gap : Pattern := seq (one isBlank) blanks

/-- A word as a group. -/
def word : Pattern := group (seq (one isSolid) (many isSolid))

/-- One character after the other, each of its own kind. -/
def inOrder (kinds : List (Char → Bool)) : Pattern :=
  kinds.foldr (fun kind rest => seq (one kind) rest) empty

/-- One of some texts, which are tried in their order. -/
def anyOf (texts : List (List Char)) : Pattern :=
  texts.foldr (fun text others => either (inOrder (text.map fun c d => c == d)) others)
    (one fun _ => false)

/-- No text that begins with such a character is matched. -/
def Refuses (pattern : Pattern) (p : Char → Bool) : Prop :=
  ∀ c rest, p c = true → pattern.wholes (c :: rest) = []

/-! The ways of a pattern, from those of its parts. -/

section

variable {first second third : Pattern} {p : Char → Bool} {text : List Char}

@[simp] theorem ways_empty : empty.ways text = [([], text)] := rfl

@[simp] theorem ways_one_nil : (one p).ways [] = [] := rfl

@[simp] theorem ways_one_cons (c : Char) (rest : List Char) :
    (one p).ways (c :: rest) = if p c then [([], rest)] else [] := rfl

@[simp] theorem ways_many : (many p).ways text = (runs p text).map ([], ·) := rfl

@[simp] theorem ways_seq : (seq first second).ways text =
    (first.ways text).flatMap fun way =>
      (second.ways way.2).map fun further => (way.1 ++ further.1, further.2) := rfl

@[simp] theorem ways_either :
    (either first second).ways text = first.ways text ++ second.ways text := rfl

@[simp] theorem ways_group : (group first).ways text =
    (first.ways text).map fun way => (text.take (text.length - way.2.length) :: way.1, way.2) := rfl

/-! What matches a text, from what matches its beginning. -/

theorem wholes_seq : (seq first second).wholes text =
    (first.ways text).flatMap fun way => (second.wholes way.2).map (way.1 ++ ·) := by
  simp [wholes, List.filter_flatMap, List.map_flatMap, List.filter_map, Function.comp_def]

theorem wholes_assoc : (seq (seq first second) third).wholes text =
    (seq first (seq second third)).wholes text := by
  simp [wholes_seq, List.flatMap_assoc, List.map_flatMap, List.flatMap_map, Function.comp_def]

theorem wholes_either_seq : (seq (either first second) third).wholes text =
    (seq first third).wholes text ++ (seq second third).wholes text := by
  simp [wholes_seq]

theorem wholes_empty_seq : (seq empty second).wholes text = second.wholes text := by
  simp [wholes_seq]

theorem wholes_one_seq (c : Char) (rest : List Char) :
    (seq (one p) second).wholes (c :: rest) = if p c then second.wholes rest else [] := by
  by_cases hc : p c = true <;> simp [wholes_seq, hc]

theorem wholes_one_seq_nil : (seq (one p) second).wholes [] = [] := by
  simp [wholes_seq]

/-- Where nothing can follow a shorter run, only the longest one is left. -/
theorem flatMap_runs {α : Type} {f : List Char → List α}
    (h : ∀ c rest, p c = true → f (c :: rest) = []) (text : List Char) :
    (runs p text).flatMap f = f (text.dropWhile p) := by
  induction text with
  | nil => simp [runs]
  | cons c rest ih =>
    by_cases hc : p c = true
    · simp [runs, hc, ih, h c rest hc]
    · simp [runs, hc]

theorem wholes_many_seq (h : second.Refuses p) (text : List Char) :
    (seq (many p) second).wholes text = second.wholes (text.dropWhile p) := by
  rw [wholes_seq, ways_many, List.flatMap_map]
  simpa using flatMap_runs h text

theorem wholes_many (p : Char → Bool) (text : List Char) :
    (many p).wholes text = if text.dropWhile p = [] then [[]] else [] := by
  have hseq : (seq (many p) empty).wholes text = (many p).wholes text := by
    simp [wholes, List.filter_map, Function.comp_def]
  have hrefuses : empty.Refuses p := fun c rest _ => rfl
  rw [← hseq, wholes_many_seq hrefuses]
  cases text.dropWhile p <;> rfl

end

/-! One of some texts as a group. -/

theorem take_front (front behind : List Char) :
    (front ++ behind).take ((front ++ behind).length - behind.length) = front := by
  simp

theorem ways_text (expected text : List Char) :
    (inOrder (expected.map fun c d => c == d)).ways text =
      if expected.isPrefixOf text then [([], text.drop expected.length)] else [] := by
  induction expected generalizing text with
  | nil => rfl
  | cons c expected ih =>
    cases text with
    | nil => rfl
    | cons d rest =>
      have hways : (inOrder ((c :: expected).map fun c d => c == d)).ways (d :: rest) =
          if c == d then (inOrder (expected.map fun c d => c == d)).ways rest else [] := by
        by_cases hcd : (c == d) = true <;> simp [inOrder, hcd]
      rw [hways, ih]
      by_cases hcd : (c == d) = true <;> simp [hcd, List.isPrefixOf]

theorem ways_anyOf (texts : List (List Char)) (text : List Char) :
    (anyOf texts).ways text =
      (texts.filter (·.isPrefixOf text)).map fun expected => ([], text.drop expected.length) := by
  induction texts with
  | nil => cases text <;> rfl
  | cons expected texts ih =>
    have hways : (anyOf (expected :: texts)).ways text =
        (inOrder (expected.map fun c d => c == d)).ways text ++ (anyOf texts).ways text := rfl
    rw [hways, ways_text, ih]
    by_cases h : expected.isPrefixOf text = true <;> simp [h]

theorem wholes_group_anyOf_seq (texts : List (List Char)) (second : Pattern) (text : List Char) :
    (seq (group (anyOf texts)) second).wholes text =
      (texts.filter (·.isPrefixOf text)).flatMap fun expected =>
        (second.wholes (text.drop expected.length)).map (expected :: ·) := by
  rw [wholes_seq, ways_group, ways_anyOf, List.map_map, List.flatMap_map]
  refine List.flatMap_congr fun expected hmem => ?_
  obtain ⟨rest, rfl⟩ := List.isPrefixOf_iff_prefix.mp (List.mem_filter.mp hmem).2
  simp

/-- No text begins with a blank. -/
theorem refuses_group_anyOf {texts : List (List Char)}
    (h : ∀ expected ∈ texts, expected.head?.any isSolid = true) (second : Pattern) :
    (seq (group (anyOf texts)) second).Refuses isBlank := by
  intro c rest hc
  rw [wholes_group_anyOf_seq, List.filter_eq_nil_iff.mpr, List.flatMap_nil]
  intro expected hmem hbegins
  have hhead := h expected hmem
  cases expected with
  | nil => contradiction
  | cons d expected =>
    obtain ⟨rfl, -⟩ : d = c ∧ _ := by simpa [List.isPrefixOf] using hbegins
    simp [isSolid, hc] at hhead

/-! What a pattern makes of the words of a text: in front of a word, and behind one. -/

/-- The pattern begins with a word, and what its groups match depends on the words only. -/
def AtWord (pattern : Pattern) (read : List (List Char) → List (List (List Char))) : Prop :=
  ∀ text, pattern.wholes text = if text.head?.any isBlank then [] else read (words text)

/-- The pattern begins with blanks or with the end of the text, and what its groups match depends on
the words only. -/
def BehindWord (pattern : Pattern) (read : List (List Char) → List (List (List Char))) : Prop :=
  ∀ text, pattern.wholes text = if text.head?.all isBlank then read (words text) else []

section

variable {first : Pattern} {read : List (List Char) → List (List (List Char))}

theorem wholes_blanks_seq (h : first.Refuses isBlank) (text : List Char) :
    (seq blanks first).wholes text = first.wholes (trimStart text) :=
  wholes_many_seq h text

/-- Blanks at the beginning of a text do not matter to a pattern that goes on with a word. -/
theorem AtWord.blanks (h : AtWord first read) (text : List Char) :
    (seq Pattern.blanks first).wholes text = read (words text) := by
  have hrefuses : first.Refuses isBlank := fun c rest hc => by simp [h (c :: rest), hc]
  rw [wholes_blanks_seq hrefuses, h, words_trimStart, if_neg]
  have hstops := stops_trimStart text
  cases htext : trimStart text with
  | nil => simp
  | cons c rest => simpa [htext] using hstops

theorem behindWord_blanks : BehindWord blanks fun words => if words = [] then [[]] else [] := by
  intro text
  simp only [blanks, wholes_many, words_eq_nil_iff, trimStart]
  cases text with
  | nil => rfl
  | cons c rest => by_cases hc : isBlank c = true <;> simp [hc]

/-- Blanks in front of a word stand behind the word before it. -/
theorem AtWord.gap (h : AtWord first read) (hnil : read [] = []) :
    BehindWord (seq Pattern.gap first) read := by
  intro text
  rw [Pattern.gap, wholes_assoc]
  cases text with
  | nil => simp [wholes_one_seq_nil, words, hnil]
  | cons c rest =>
    rw [wholes_one_seq, h.blanks]
    by_cases hc : isBlank c = true
    · simp [hc, words_blank hc]
    · simp [hc]

/-- A word is a group, and the rest of the pattern stands behind it. -/
theorem BehindWord.word (h : BehindWord first read) :
    AtWord (seq Pattern.word first) fun
      | [] => []
      | word :: further => (read further).map (word :: ·) := by
  intro text
  rw [wholes_seq]
  cases text with
  | nil => rfl
  | cons c rest =>
    by_cases hc : isBlank c = true
    · simp [Pattern.word, isSolid, hc]
    · have hsolid : isSolid c = true := by simpa [isSolid] using hc
      -- Shorter runs leave a text that begins with a part of the word.
      have hways : Pattern.word.ways (c :: rest) =
          (runs isSolid rest).map fun behind =>
            ([(c :: rest).take ((c :: rest).length - behind.length)], behind) := by
        simp [Pattern.word, hsolid]
      have hempty (d : Char) (behind : List Char) (hd : isSolid d = true) :
          first.wholes (d :: behind) = [] := by
        rw [h, if_neg]
        simpa [isSolid] using hd
      have htake : (c :: rest).take ((c :: rest).length - (rest.dropWhile isSolid).length) =
          c :: rest.takeWhile isSolid := by
        have htake := take_front (c :: rest.takeWhile isSolid) (rest.dropWhile isSolid)
        rwa [List.cons_append, List.takeWhile_append_dropWhile] at htake
      rw [hways, List.flatMap_map, flatMap_runs (fun d behind hd => by simp [hempty d behind hd]),
        htake, h, if_pos (ends_dropWhile rest), words_solid (Bool.eq_false_of_not_eq_true hc)]
      simp [hc]

end

end Pattern

end AttributeExpr
