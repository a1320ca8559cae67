import AttributeExpr.Numeral
import AttributeExpr.Proofs.Text.Run
/-!
The grammar of numerals, and that cutting a numeral off a text follows it: what is cut off is a
numeral, and a numeral is cut off whole wherever the text behind it cannot belong to it.
-/
namespace AttributeExpr.Numeral

/-- A point with any number of digits behind it, or nothing. -/
inductive IsFraction : List Char → Prop where
  | absent : IsFraction []
  | point {digits : List Char} (h : ∀ c ∈ digits, isDigit c = true) : IsFraction ('.' :: digits)

/-- A letter, an optional sign and digits, or nothing. -/
inductive IsExponent : List Char → Prop where
  | absent : IsExponent []
  | power {letter : Char} {sign digits : List Char} (letter_eq : letter = 'e' ∨ letter = 'E')
      (sign_eq : sign = [] ∨ sign = ['+'] ∨ sign = ['-']) (nonempty : digits ≠ [])
      (h : ∀ c ∈ digits, isDigit c = true) : IsExponent (letter :: sign ++ digits)

inductive Unsigned : List Char → Prop where
  | parts {whole fraction exponent : List Char} (nonempty : whole ≠ [])
      (h : ∀ c ∈ whole, isDigit c = true) (fractional : IsFraction fraction)
      (powered : IsExponent exponent) : Unsigned (whole ++ fraction ++ exponent)

/-- A numeral that may have a minus sign. -/
inductive Signed : List Char → Prop where
  | plain {text : List Char} (h : Unsigned text) : Signed text
  | minus {text : List Char} (h : Unsigned text) : Signed ('-' :: text)

/-- The characters that may continue a numeral: digits, the point and the letters of an exponent. -/
def continues (c : Char) : Bool := isDigit c || c = '.' || c = 'e' || c = 'E'

theorem isDigit_iff {c : Char} : isDigit c = true ↔ 0x30 ≤ c.toNat ∧ c.toNat ≤ 0x39 := by
  simp only [isDigit, Bool.and_eq_true, decide_eq_true_eq]
  rfl

theorem isDigit_continues {c : Char} (h : isDigit c = true) : continues c = true := by
  simp [continues, h]

theorem not_isDigit_of_isSign {c : Char} (h : isSign c = true) : isDigit c = false := by
  rcases (by simpa [isSign] using h : c = '+' ∨ c = '-') with rfl | rfl <;> decide

theorem stops_fraction {fraction rest : List Char} (hf : IsFraction fraction)
    (h : Stops isDigit rest) : Stops isDigit (fraction ++ rest) := by
  cases hf with
  | absent => exact h
  | point => exact stops_cons.mpr (by decide)

theorem stops_exponent {exponent rest : List Char} (he : IsExponent exponent)
    (h : Stops isDigit rest) : Stops isDigit (exponent ++ rest) := by
  cases he with
  | absent => exact h
  | power letter_eq =>
    apply stops_cons.mpr
    rcases letter_eq with rfl | rfl <;> decide

theorem exponent_head {exponent rest : List Char} (he : IsExponent exponent)
    (h : Stops continues rest) : ∀ c ∈ (exponent ++ rest).head?, c ≠ '.' := by
  intro c hc
  cases he with
  | absent =>
    rintro rfl
    have := h '.' hc
    contradiction
  | power letter_eq =>
    obtain rfl : _ = c := by simpa using hc
    rcases letter_eq with rfl | rfl <;> decide

theorem splitFraction_append {fraction rest : List Char} (hf : IsFraction fraction)
    (hd : Stops isDigit rest) (hp : ∀ c ∈ rest.head?, c ≠ '.') :
    splitFraction (fraction ++ rest) = (fraction, rest) := by
  cases hf with
  | absent =>
    unfold splitFraction
    split
    · next rest => exact absurd rfl (hp '.' (by simp_all))
    · rfl
  | point h => simp [splitFraction, hd.takeWhile_eq h, hd.dropWhile_eq h]

theorem splitExponent_append {exponent rest : List Char} (he : IsExponent exponent)
    (h : Stops continues rest) : splitExponent (exponent ++ rest) = (exponent, rest) := by
  cases he with
  | absent =>
    cases rest with
    | nil => rfl
    | cons c rest =>
      have hc : (decide (c = 'e') || decide (c = 'E')) = false := by
        have := stops_cons.mp h
        simp only [continues, Bool.or_eq_false_iff] at this ⊢
        exact ⟨this.1.2, this.2⟩
      simp [splitExponent, hc]
  | @power letter sign digits letter_eq sign_eq nonempty digital =>
    have hd := h.mono fun _ => isDigit_continues
    have hletter : (decide (letter = 'e') || decide (letter = 'E')) = true := by
      rcases letter_eq with rfl | rfl <;> rfl
    -- The sign that is read is the one that is there, since digits are no signs.
    have hsign : ((sign ++ (digits ++ rest)).take 1).filter isSign = sign := by
      rcases sign_eq with rfl | rfl | rfl
      · cases digits with
        | nil => contradiction
        | cons d digits =>
          have : isSign d = false := by
            by_contra hs
            have := not_isDigit_of_isSign (Bool.eq_true_of_not_eq_false hs)
            rw [digital d (by simp)] at this
            contradiction
          simp [this]
      · rfl
      · rfl
    simp only [List.cons_append, List.append_assoc, splitExponent, hletter, ↓reduceIte, hsign,
      List.drop_left, hd.takeWhile_eq digital, hd.dropWhile_eq digital]
    simp [nonempty]

/-- A numeral is cut off whole where the text behind it cannot continue it. -/
theorem split?_append {numeral rest : List Char} (hn : Unsigned numeral)
    (h : Stops continues rest) : split? (numeral ++ rest) = some (numeral, rest) := by
  cases hn with
  | @parts whole fraction exponent nonempty digital hf he =>
    have hd := h.mono fun _ => isDigit_continues
    have hde := stops_exponent he hd
    have hdf := stops_fraction hf hde
    simp only [split?, List.append_assoc, hdf.takeWhile_eq digital, hdf.dropWhile_eq digital]
    rw [splitFraction_append hf hde (exponent_head he h)]
    simp [nonempty, splitExponent_append he h]

theorem splitFraction_sound (text : List Char) :
    (splitFraction text).1 ++ (splitFraction text).2 = text ∧
      IsFraction (splitFraction text).1 := by
  unfold splitFraction
  split
  · exact ⟨by simp, .point fun c => of_mem_takeWhile⟩
  · exact ⟨rfl, .absent⟩

theorem sign_cases (text : List Char) :
    (text.take 1).filter isSign = [] ∨ (text.take 1).filter isSign = ['+'] ∨
      (text.take 1).filter isSign = ['-'] := by
  cases text with
  | nil => simp
  | cons c rest =>
    by_cases hp : c = '+'
    · subst hp; exact .inr (.inl rfl)
    by_cases hm : c = '-'
    · subst hm; exact .inr (.inr rfl)
    · simp [isSign, hp, hm]

theorem sign_append (text : List Char) :
    (text.take 1).filter isSign ++ text.drop ((text.take 1).filter isSign).length = text := by
  cases text with
  | nil => rfl
  | cons c rest => by_cases h : isSign c <;> simp [h]

theorem splitExponent_sound (text : List Char) :
    (splitExponent text).1 ++ (splitExponent text).2 = text ∧
      IsExponent (splitExponent text).1 := by
  unfold splitExponent
  split
  · next letter tail =>
    dsimp only
    split_ifs with hletter hempty
    · exact ⟨rfl, .absent⟩
    · refine ⟨?_, .power (by simpa using hletter) (sign_cases tail) (by simpa using hempty)
        fun c => of_mem_takeWhile⟩
      rw [List.append_assoc, List.takeWhile_append_dropWhile, List.cons_append, sign_append]
    · exact ⟨rfl, .absent⟩
  · exact ⟨rfl, .absent⟩

/-- What is cut off a text is a numeral. -/
theorem split?_sound {text numeral rest : List Char} (h : split? text = some (numeral, rest)) :
    text = numeral ++ rest ∧ Unsigned numeral := by
  unfold split? at h
  dsimp only at h
  split_ifs at h with hempty
  obtain ⟨rfl, rfl⟩ := Prod.mk.inj (Option.some.inj h)
  obtain ⟨hf, fractional⟩ := splitFraction_sound (text.dropWhile isDigit)
  obtain ⟨he, powered⟩ := splitExponent_sound (splitFraction (text.dropWhile isDigit)).2
  refine ⟨?_, .parts (by simpa using hempty) (fun c => of_mem_takeWhile) fractional powered⟩
  rw [List.append_assoc, he, List.append_assoc, hf, List.takeWhile_append_dropWhile]

theorem unsigned_of_isUnsigned {text : List Char} (h : isUnsigned text = true) :
    Unsigned text := by
  unfold isUnsigned at h
  split at h
  · next numeral hsplit =>
    obtain ⟨rfl, unsigned⟩ := split?_sound hsplit
    simpa using unsigned
  · contradiction

/-- What is read is a numeral without a plus sign. -/
theorem read?_sound {text numeral : List Char} (h : read? text = some numeral) :
    Signed numeral := by
  unfold read? at h
  split at h
  · split_ifs at h with hunsigned
    obtain rfl := Option.some.inj h
    exact .plain (unsigned_of_isUnsigned hunsigned)
  · split_ifs at h with hunsigned
    obtain rfl := Option.some.inj h
    exact .minus (unsigned_of_isUnsigned hunsigned)
  · split_ifs at h with hunsigned
    obtain rfl := Option.some.inj h
    exact .plain (unsigned_of_isUnsigned hunsigned)

/-! A text that does not continue a numeral changes nothing behind one. -/

theorem splitFraction_extend {post : List Char} (hd : Stops isDigit post)
    (hdot : Stops (· = '.') post) (text : List Char) :
    splitFraction (text ++ post) = (splitFraction text).map id (· ++ post) := by
  cases text with
  | nil =>
    unfold splitFraction
    split
    · next rest heq =>
      have heq : post = '.' :: rest := heq
      rw [heq] at hdot
      simp at hdot
    · rfl
  | cons c text =>
    rw [List.cons_append, splitFraction.eq_def, splitFraction.eq_def]
    split
    · next rest heq =>
      obtain ⟨rfl, rfl⟩ := List.cons.inj heq
      simp [hd.takeWhile_extend, hd.dropWhile_extend]
    · next hno =>
      split
      · next rest heq => exact (hno _ (congrArg (· ++ post) heq)).elim
      · rfl

theorem sign_extend {post : List Char} (hsign : Stops isSign post) (text : List Char) :
    ((text ++ post).take 1).filter isSign = (text.take 1).filter isSign ∧
      (text ++ post).drop ((text.take 1).filter isSign).length =
        text.drop ((text.take 1).filter isSign).length ++ post := by
  cases text with
  | nil =>
    cases post with
    | nil => exact ⟨rfl, rfl⟩
    | cons c post => simp [stops_cons.mp hsign]
  | cons c text => cases h : isSign c <;> simp [h]

theorem splitExponent_extend {post : List Char} (h : Stops continues post)
    (hsign : Stops isSign post) (text : List Char) :
    splitExponent (text ++ post) = (splitExponent text).map id (· ++ post) := by
  have hd := h.mono fun _ => isDigit_continues
  cases text with
  | nil =>
    cases post with
    | nil => rfl
    | cons c post =>
      have hletter : ¬ ((c = 'e' || c = 'E') = true) := by
        have hc := stops_cons.mp h
        rw [Bool.or_eq_true, decide_eq_true_eq, decide_eq_true_eq]
        rintro (rfl | rfl) <;> contradiction
      rw [List.nil_append, splitExponent, if_neg hletter]
      rfl
  | cons letter text =>
    obtain ⟨hsame, hdrop⟩ := sign_extend hsign text
    rw [List.cons_append, splitExponent, splitExponent]
    dsimp only
    rw [hsame, hdrop, hd.takeWhile_extend, hd.dropWhile_extend]
    split_ifs <;> rfl

theorem split?_extend {post : List Char} (h : Stops continues post) (hsign : Stops isSign post)
    (text : List Char) :
    split? (text ++ post) = (split? text).map (Prod.map id (· ++ post)) := by
  have hd := h.mono fun _ => isDigit_continues
  have hdot : Stops (· = '.') post := by
    apply h.mono
    intro c hc
    simp [continues, of_decide_eq_true hc]
  unfold split?
  rw [hd.takeWhile_extend, hd.dropWhile_extend, splitFraction_extend hd hdot]
  dsimp only
  split_ifs
  · rfl
  · rw [Prod.map_snd, splitExponent_extend h hsign]
    rfl

end AttributeExpr.Numeral
