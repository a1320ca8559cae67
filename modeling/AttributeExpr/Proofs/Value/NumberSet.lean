import AttributeExpr.Proofs.Value.Equality
import AttributeExpr.Proofs.Value.Magnitude
/-!
The elements of number sets by value. Finite numbers have the same value as elements just where they
are the same rational number, so what makes texts the elements of one set, and what makes two sets
equal, can be said of the rational numbers that the texts denote.
-/
namespace AttributeExpr

namespace Decimal

theorem toRat?_normalize (d : Decimal) : d.normalize.toRat? = d.toRat? := by
  cases d with
  | infinite | nan => rfl
  | finite negative coefficient exponent =>
    rw [normalize]
    split_ifs with hzero
    · simp [toRat?, hzero]
    · rw [toRat?, toRat?, stripZeros_value]

/-- Integers without a zero at the end are the same if some powers of ten make them so. -/
theorem eq_of_mul_zpow_eq {m m' : Nat} (hm : m % 10 ≠ 0) (hm' : m' % 10 ≠ 0) {k k' : ℤ}
    (h : (m : ℚ) * 10 ^ k = m' * 10 ^ k') : m = m' ∧ k = k' := by
  have hle : m ≤ m' := le_natAbs_of_mul_zpow_eq (c := m') hm (by simpa using h)
  have hge : m' ≤ m := le_natAbs_of_mul_zpow_eq (c := m) hm' (by simpa using h.symm)
  obtain rfl := hle.antisymm hge
  have hpos : (m : ℚ) ≠ 0 := by
    rintro hzero
    simp [Nat.cast_eq_zero.mp hzero] at hm
  exact ⟨rfl, zpow_right_injective₀ (by norm_num) (by norm_num) (mul_left_cancel₀ hpos h)⟩

/-- A finite number has one normal form, whatever way it is written. -/
theorem normalize_eq_of_toRat? {d d' : Decimal} {x : ℚ} (h : d.toRat? = some x)
    (h' : d'.toRat? = some x) : d.normalize = d'.normalize := by
  cases d with
  | infinite | nan => contradiction
  | finite negative coefficient exponent =>
  cases d' with
  | infinite | nan => contradiction
  | finite negative' coefficient' exponent' =>
    obtain rfl := Option.some.inj h
    have hvalue := Option.some.inj h'
    have habs : (coefficient : ℚ) * 10 ^ exponent = coefficient' * 10 ^ exponent' := by
      rw [← abs_value negative, ← hvalue, abs_value]
    have hpower (e : ℤ) : (10 : ℚ) ^ e ≠ 0 := zpow_ne_zero e (by norm_num)
    rcases coefficient.eq_zero_or_pos with rfl | hpos
    · have hzero : coefficient' = 0 := by simpa [hpower] using habs.symm
      simp [normalize, hzero]
    · have hpos' : 0 < coefficient' := by
        rw [Nat.pos_iff_ne_zero]
        rintro rfl
        simp [hpower, hpos.ne'] at habs
      -- The signs can be compared once the magnitudes are cancelled.
      rw [habs] at hvalue
      have hnonzero := mul_ne_zero (Nat.cast_ne_zero.mpr hpos'.ne') (hpower exponent')
      have hsign := mul_right_cancel₀ hnonzero hvalue
      have hnegative : negative = negative' := by
        cases negative <;> cases negative' <;> first | rfl | norm_num at hsign
      rw [← stripZeros_value, ← stripZeros_value coefficient'] at habs
      obtain ⟨hdigits, hexponent⟩ :=
        eq_of_mul_zpow_eq (stripZeros_mod_ne hpos _) (stripZeros_mod_ne hpos' _) habs
      rw [normalize, normalize, if_neg hpos.ne', if_neg hpos'.ne', hnegative, hdigits, hexponent]

/-- Finite numbers are compared as the rational numbers that they are. -/
theorem sameValue_iff {d d' : Decimal} {x x' : ℚ} (h : d.toRat? = some x)
    (h' : d'.toRat? = some x') : d.sameValue d' = true ↔ d.toRat? = d'.toRat? := by
  have hnumber (d : Decimal) {x : ℚ} (h : d.toRat? = some x) : d.isNaN = false := by
    cases d with
    | finite | infinite => rfl
    | nan => contradiction
  simp only [sameValue, hnumber d h, hnumber d' h', Bool.not_false, Bool.true_and,
    decide_eq_true_eq]
  constructor
  · intro heq
    rw [← toRat?_normalize, heq, toRat?_normalize]
  · intro heq
    exact normalize_eq_of_toRat? h (heq ▸ h)

end Decimal

/-- The rational number that a text denotes. -/
def rational? (text : String) : Option ℚ := (Decimal.read? text).bind Decimal.toRat?

/-- All texts denote finite numbers. -/
def FiniteTexts (texts : List String) : Prop := ∀ text ∈ texts, ∃ x, Denotes text x

theorem comparable_of_denotes {text : String} {x : ℚ} (h : Denotes text x) :
    ∃ d, comparable text = .ok d ∧ d.toRat? = some x := by
  obtain ⟨d, hread, hd⟩ := Option.bind_eq_some_iff.mp h
  have hquiet : d.isSignaling = false := by
    cases d with
    | finite | infinite => rfl
    | nan => contradiction
  exact ⟨d, by simp [comparable, hread, hquiet], hd⟩

/-- The texts are compared as these numbers, which are finite. -/
def ComparedAs (texts : List String) (numbers : List Decimal) : Prop :=
  List.Forall₂ (fun text d => comparable text = .ok d ∧ ∃ x, Denotes text x ∧ d.toRat? = some x)
    texts numbers

theorem FiniteTexts.exists_comparedAs {texts : List String} (h : FiniteTexts texts) :
    ∃ numbers, ComparedAs texts numbers := by
  apply exists_forall₂
  intro text htext
  obtain ⟨x, hx⟩ := h text htext
  obtain ⟨d, hd, hvalue⟩ := comparable_of_denotes hx
  exact ⟨d, hd, x, hx, hvalue⟩

namespace ComparedAs

variable {texts texts' : List String} {numbers numbers' : List Decimal}

theorem forall₂_comparable (h : ComparedAs texts numbers) :
    List.Forall₂ (fun text d => comparable text = .ok d) texts numbers :=
  h.imp fun _ _ hd => hd.1

/-- A text is compared as one number only. -/
theorem eq_of_comparable (h : ComparedAs texts numbers)
    (h' : List.Forall₂ (fun text d => comparable text = .ok d) texts numbers') :
    numbers = numbers' := by
  have hnumbers := (mapM_eq_ok_iff _ _ _).mpr h.forall₂_comparable
  exact Except.ok.inj (hnumbers.symm.trans ((mapM_eq_ok_iff _ _ _).mpr h'))

theorem exists_toRat? (h : ComparedAs texts numbers) : ∀ d ∈ numbers, ∃ x, d.toRat? = some x := by
  intro d hd
  obtain ⟨_, -, -, x, -, hvalue⟩ := exists_of_mem_forall₂ h.flip hd
  exact ⟨x, hvalue⟩

theorem map_rational? (h : ComparedAs texts numbers) :
    numbers.map Decimal.toRat? = texts.map rational? := by
  induction h with
  | nil => rfl
  | cons hd _ ih =>
    obtain ⟨-, x, hx, hvalue⟩ := hd
    have hsame : Decimal.toRat? _ = rational? _ := hvalue.trans hx.symm
    rw [List.map_cons, List.map_cons, ih, hsame]

/-- The numbers differ in value just where the texts denote different rational numbers. -/
theorem pairwise_iff (h : ComparedAs texts numbers) :
    numbers.Pairwise (fun a b => Decimal.sameValue a b = false) ↔
      (texts.map rational?).Nodup := by
  rw [← h.map_rational?, List.Nodup, List.pairwise_map]
  apply List.Pairwise.iff_of_mem
  intro a b ha hb
  obtain ⟨x, hx⟩ := h.exists_toRat? a ha
  obtain ⟨y, hy⟩ := h.exists_toRat? b hb
  rw [← Bool.not_eq_true, Decimal.sameValue_iff hx hy]

theorem distinctNumbers_iff (h : ComparedAs texts numbers) :
    DistinctNumbers texts ↔ numbers.Pairwise fun a b => Decimal.sameValue a b = false := by
  constructor
  · rintro ⟨numbers', hnumbers', distinct⟩
    obtain rfl := h.eq_of_comparable hnumbers'
    exact distinct
  · exact fun distinct => ⟨numbers, h.forall₂_comparable, distinct⟩

/-- Some number of the second list has the value of a number if their rational numbers say so. -/
theorem exists_sameValue_iff (h : ComparedAs texts numbers) {d : Decimal} {x : ℚ}
    (hd : d.toRat? = some x) :
    (∃ d' ∈ numbers, d.sameValue d' = true) ↔ d.toRat? ∈ texts.map rational? := by
  rw [← h.map_rational?, List.mem_map]
  apply exists_congr
  intro d'
  apply and_congr_right
  intro hd'
  obtain ⟨y, hy⟩ := h.exists_toRat? d' hd'
  rw [Decimal.sameValue_iff hd hy, eq_comm]

theorem sameMembers_iff (h : ComparedAs texts numbers) (h' : ComparedAs texts' numbers') :
    Value.sameMembers Decimal.sameValue numbers numbers' = true ↔
      ∀ x, x ∈ texts.map rational? ↔ x ∈ texts'.map rational? := by
  have within {texts texts' : List String} {numbers numbers' : List Decimal}
      (h : ComparedAs texts numbers) (h' : ComparedAs texts' numbers') :
      (∀ d ∈ numbers, ∃ d' ∈ numbers', d.sameValue d' = true) ↔
        ∀ x ∈ texts.map rational?, x ∈ texts'.map rational? := by
    rw [← h.map_rational?, List.forall_mem_map]
    apply forall₂_congr
    intro d hd
    obtain ⟨x, hx⟩ := h.exists_toRat? d hd
    exact h'.exists_sameValue_iff hx
  rw [Value.sameMembers_iff, within h h', within h' h]
  constructor
  · exact fun hsame x => ⟨hsame.1 x, hsame.2 x⟩
  · exact fun hsame => ⟨fun x => (hsame x).mp, fun x => (hsame x).mpr⟩

end ComparedAs

theorem distinctNumbers_iff {texts : List String} (h : FiniteTexts texts) :
    DistinctNumbers texts ↔ (texts.map rational?).Nodup := by
  obtain ⟨numbers, hnumbers⟩ := h.exists_comparedAs
  rw [hnumbers.distinctNumbers_iff, hnumbers.pairwise_iff]

theorem Value.sameNumbers_iff {as bs : List String} (ha : FiniteTexts as) (hb : FiniteTexts bs) :
    SameNumbers as bs ↔ ∀ x, x ∈ as.map rational? ↔ x ∈ bs.map rational? := by
  obtain ⟨numbers, hnumbers⟩ := ha.exists_comparedAs
  obtain ⟨numbers', hnumbers'⟩ := hb.exists_comparedAs
  rw [← hnumbers.sameMembers_iff hnumbers']
  constructor
  · rintro ⟨_, _, h, h', same⟩
    obtain rfl := hnumbers.eq_of_comparable h
    obtain rfl := hnumbers'.eq_of_comparable h'
    exact same
  · exact fun same => ⟨numbers, numbers', hnumbers.forall₂_comparable,
      hnumbers'.forall₂_comparable, same⟩

end AttributeExpr
