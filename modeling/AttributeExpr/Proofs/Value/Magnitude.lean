import AttributeExpr.Proofs.Value.Limits
/-!
The limits of numbers, said of the rational numbers that texts denote. What is checked of one
spelling, the place of its leading digit and the length of its coefficient without zeros at the end,
is a condition on the number alone, so texts that denote the same number are accepted or refused
alike.
-/
namespace AttributeExpr

namespace Decimal

/-- The rational number that a finite number is. -/
def toRat? : Decimal → Option ℚ
  | finite negative coefficient exponent =>
    some ((if negative then -1 else 1) * (coefficient * 10 ^ exponent))
  | _ => none

theorem digitCount_le_iff {n k : Nat} (h : 0 < k) : digitCount n ≤ k ↔ n < 10 ^ k :=
  Nat.length_repr_le_iff h

/-- The leading digit stands where the number reaches a power of ten. -/
theorem le_adjusted_iff {coefficient : Nat} (h : 0 < coefficient) (exponent k : ℤ) :
    k ≤ adjusted coefficient exponent ↔ (10 : ℚ) ^ k ≤ coefficient * 10 ^ exponent := by
  have hscale : (10 : ℚ) ^ k ≤ coefficient * 10 ^ exponent ↔
      (10 : ℚ) ^ (k - exponent) ≤ coefficient := by
    rw [zpow_sub₀ (by norm_num), div_le_iff₀ (by positivity)]
  have hcount := digitCount_pos coefficient
  rw [hscale, adjusted]
  rcases lt_or_ge 0 (k - exponent) with hpos | hneg
  · obtain ⟨n, hn⟩ := Int.eq_ofNat_of_zero_le hpos.le
    have hdigits := digitCount_le_iff (n := coefficient) (k := n) (by omega)
    have hpow : (10 : ℚ) ^ (k - exponent) ≤ coefficient ↔ 10 ^ n ≤ coefficient := by
      rw [hn, zpow_natCast]
      exact_mod_cast Iff.rfl
    rw [hpow, ← Nat.not_lt, ← hdigits]
    omega
  · have hone : (10 : ℚ) ^ (k - exponent) ≤ 1 := zpow_le_one_of_nonpos₀ (by norm_num) hneg
    have hcoefficient : (1 : ℚ) ≤ coefficient := by exact_mod_cast h
    refine ⟨fun _ => hone.trans hcoefficient, fun _ => by omega⟩

/-- Zeros are moved into the exponent without a change of value. -/
theorem stripZeros_value (coefficient : Nat) (exponent : ℤ) :
    ((stripZeros coefficient exponent).1 : ℚ) * 10 ^ (stripZeros coefficient exponent).2 =
      coefficient * 10 ^ exponent := by
  induction coefficient, exponent using stripZeros.induct with
  | case1 coefficient exponent hzero ih =>
    have htenth : (coefficient : ℚ) = 10 * (coefficient / 10 : Nat) := by
      exact_mod_cast (by omega : coefficient = 10 * (coefficient / 10))
    rw [stripZeros, dif_pos hzero, ih, zpow_add_one₀ (by norm_num), htenth]
    ring
  | case2 coefficient exponent hzero => rw [stripZeros, dif_neg hzero]

/-- Of all ways to write a number as an integer times a power of ten, the one without a zero at the
end has the least integer. -/
theorem le_natAbs_of_mul_zpow_eq {m : Nat} (hm : m % 10 ≠ 0) {k e c : ℤ}
    (h : (m : ℚ) * 10 ^ k = |(c : ℚ)| * 10 ^ e) : m ≤ c.natAbs := by
  have hscale : (m : ℚ) * 10 ^ (k - e) = c.natAbs := by
    rw [Nat.cast_natAbs, Int.cast_abs, zpow_sub₀ (by norm_num), ← mul_div_assoc, h,
      mul_div_cancel_right₀ _ (by positivity)]
  rcases le_or_gt e k with hle | hlt
  · obtain ⟨n, hn⟩ := Int.eq_ofNat_of_zero_le (sub_nonneg.mpr hle)
    rw [hn, zpow_natCast] at hscale
    have hnat : m * 10 ^ n = c.natAbs := by exact_mod_cast hscale
    rw [← hnat]
    exact Nat.le_mul_of_pos_right m (by positivity)
  -- With a smaller power of ten the integer would be divided by ten, but it has no zero at the end.
  · obtain ⟨n, hn⟩ := Int.eq_ofNat_of_zero_le (by omega : 0 ≤ e - k - 1)
    have hnat : m = c.natAbs * 10 ^ (n + 1) := by
      have hpower : (10 : ℚ) ^ (k - e) = (10 ^ (n + 1))⁻¹ := by
        rw [← zpow_natCast, ← zpow_neg]
        congr 1
        push_cast
        omega
      rw [hpower, mul_inv_eq_iff_eq_mul₀ (by positivity)] at hscale
      exact_mod_cast hscale
    rw [hnat, pow_succ, ← mul_assoc, Nat.mul_mod_left] at hm
    contradiction

end Decimal

/-- The text denotes a decimal number, and this is its value. -/
def Denotes (text : String) (x : ℚ) : Prop := (Decimal.read? text).bind Decimal.toRat? = some x

/-- The number is zero, or its magnitude is in the range of stored numbers and it is an integer of
at most 38 digits times a power of ten. -/
def IsStored (x : ℚ) : Prop :=
  x = 0 ∨ (10 : ℚ) ^ (-130 : ℤ) ≤ |x| ∧ |x| < 10 ^ 126 ∧
    ∃ c e : ℤ, |c| < 10 ^ 38 ∧ x = c * 10 ^ e

namespace Decimal

theorem abs_value (negative : Bool) (coefficient : Nat) (exponent : ℤ) :
    |(if negative then -1 else 1) * ((coefficient : ℚ) * 10 ^ exponent)| =
      coefficient * 10 ^ exponent := by
  have h : (0 : ℚ) ≤ coefficient * 10 ^ exponent := by positivity
  cases negative <;> simp [abs_of_nonneg h]

/-- The digits without zeros at the end are at most 38 if some way to write the number has an
integer of at most 38 digits. -/
theorem precise_iff {coefficient : Nat} (h : 0 < coefficient) (negative : Bool) (exponent : ℤ) :
    digitCount (stripZeros coefficient exponent).1 ≤ maxPrecision ↔
      ∃ c e : ℤ, |c| < 10 ^ 38 ∧
        (if negative then -1 else 1) * ((coefficient : ℚ) * 10 ^ exponent) = c * 10 ^ e := by
  rw [digitCount_le_iff (by decide), ← stripZeros_value]
  have hlast := stripZeros_mod_ne h exponent
  generalize stripZeros coefficient exponent = stripped at hlast ⊢
  obtain ⟨m, k⟩ := stripped
  constructor
  · intro hm
    refine ⟨(if negative then -1 else 1) * m, k, ?_, ?_⟩
    · have : |(if negative then (-1 : ℤ) else 1) * m| = m := by cases negative <;> simp
      rw [this]
      exact_mod_cast hm
    · cases negative <;> simp
  · rintro ⟨c, e, hc, heq⟩
    have habs : (m : ℚ) * 10 ^ k = |(c : ℚ)| * 10 ^ e := by
      rw [← abs_value negative, heq, abs_mul, abs_of_pos (a := (10 : ℚ) ^ e) (by positivity)]
    have hle := le_natAbs_of_mul_zpow_eq hlast habs
    rw [← Int.natCast_natAbs] at hc
    exact hle.trans_lt (by exact_mod_cast hc)

/-- Whether a number can be stored is told by its value. -/
theorem storable_iff {d : Decimal} {x : ℚ} (h : d.toRat? = some x) : d.Storable ↔ IsStored x := by
  cases d with
  | infinite | nan => contradiction
  | finite negative coefficient exponent =>
    obtain rfl := Option.some.inj h
    rcases coefficient.eq_zero_or_pos with rfl | hpos
    · simp [Storable, IsStored]
    have hne : (if negative then -1 else 1) * ((coefficient : ℚ) * 10 ^ exponent) ≠ 0 := by
      rw [← abs_pos, abs_value]
      positivity
    rw [Storable, IsStored, or_iff_right hpos.ne', or_iff_right hne, abs_value,
      precise_iff hpos negative, ← le_adjusted_iff hpos, ← zpow_natCast (n := 126), ← not_le,
      ← le_adjusted_iff hpos, minMagnitude, maxMagnitude]
    constructor
    · rintro ⟨precise, low, high⟩
      exact ⟨low, by omega, precise⟩
    · rintro ⟨low, high, precise⟩
      exact ⟨precise, low, by omega⟩

end Decimal

/-- The errors that report a number. -/
inductive TypingError.ReportsNumber (text : String) : TypingError → Prop
  | notNumber : ReportsNumber text (.notNumber text)
  | tooPrecise : ReportsNumber text (.tooPrecise text)
  | outOfRange : ReportsNumber text (.outOfRange text)

/-- Every text that is refused is reported as the number that it is meant to be. -/
theorem checkNumber_failsOnly (text : String) :
    FailsOnly (TypingError.ReportsNumber text) (checkNumber text) := by
  unfold checkNumber
  dsimp only
  split
  · split_ifs
    · exact failsOnly_ok _
    · exact failsOnly_error .tooPrecise
    · exact failsOnly_error .outOfRange
    · exact failsOnly_ok _
  · exact failsOnly_error .notNumber

theorem Denotes.checkNumber_isOk_iff {text : String} {x : ℚ} (h : Denotes text x) :
    (∃ d, checkNumber text = .ok d) ↔ IsStored x := by
  obtain ⟨d, hread, hd⟩ := Option.bind_eq_some_iff.mp h
  rw [AttributeExpr.checkNumber_isOk_iff, hread]
  simp only [Option.some.injEq, exists_eq_left', Decimal.storable_iff hd]

theorem checkNumber_of_not_denotes {text : String} (h : ∀ x, ¬ Denotes text x) :
    checkNumber text = .error (.notNumber text) := by
  unfold checkNumber
  split
  · next negative coefficient exponent hread =>
    exact absurd (by rw [Denotes, hread]; rfl) (h _)
  · rfl

theorem Denotes.value_of_checkNumber {text : String} {x : ℚ} (h : Denotes text x) {d : Decimal}
    (hd : checkNumber text = .ok d) : d.toRat? = some x := by
  unfold checkNumber at hd
  dsimp only at hd
  split at hd
  · next negative coefficient exponent hread =>
    rw [Denotes, hread] at h
    split_ifs at hd <;> cases hd <;> exact h
  · contradiction

/-- A text that denotes a number is accepted, as this number, if the number is zero, or its
magnitude is from `10 ^ -130` to below `10 ^ 126` and 38 digits are enough for it; so texts of one
number are accepted or refused alike. Any other text is refused as no number. -/
theorem checkNumber_byValue (text : String) :
    (∀ x, Denotes text x →
      ((∃ d, checkNumber text = .ok d) ↔
        x = 0 ∨ (10 : ℚ) ^ (-130 : ℤ) ≤ |x| ∧ |x| < 10 ^ 126 ∧
          ∃ c e : ℤ, |c| < 10 ^ 38 ∧ x = c * 10 ^ e) ∧
      (∀ d, checkNumber text = .ok d → d.toRat? = some x) ∧
      ∀ text', Denotes text' x →
        ((∃ d, checkNumber text = .ok d) ↔ ∃ d, checkNumber text' = .ok d)) ∧
    ((∀ x, ¬ Denotes text x) → checkNumber text = .error (.notNumber text)) ∧
    FailsOnly (TypingError.ReportsNumber text) (checkNumber text) := by
  refine ⟨?_, checkNumber_of_not_denotes, checkNumber_failsOnly text⟩
  intro x h
  refine ⟨h.checkNumber_isOk_iff, fun _ => h.value_of_checkNumber, ?_⟩
  intro text' h'
  rw [h.checkNumber_isOk_iff, h'.checkNumber_isOk_iff]

/-- The greatest magnitude with 38 digits, and two spellings of it: one with zeros on both sides,
one with the point inside. -/
theorem checkNumber_byValue_greatest :
    let padded := "-0099999999999999999999999999999999999999000e85"
    let pointed := "-9.9999999999999999999999999999999999999E+125"
    let x : ℚ := -99999999999999999999999999999999999999 * 10 ^ 88
    Denotes padded x ∧ Denotes pointed x ∧ (∃ d, checkNumber padded = .ok d) ∧
      (∃ d, checkNumber pointed = .ok d) ∧
      checkNumber "snan7" = .error (.notNumber "snan7") := by
  intro padded pointed x
  have hpadded : Denotes padded x := by
    have hread : Decimal.read? padded =
        some (.finite true 99999999999999999999999999999999999999000 85) := by decide
    rw [Denotes, hread]
    norm_num [Decimal.toRat?, x]
  have hpointed : Denotes pointed x := by
    have hread : Decimal.read? pointed =
        some (.finite true 99999999999999999999999999999999999999 88) := by decide
    rw [Denotes, hread]
    norm_num [Decimal.toRat?, x]
  have hnan : ∀ x, ¬ Denotes "snan7" x := by
    intro x h
    have hread : Decimal.read? "snan7" = some (.nan false true) := by decide
    rw [Denotes, hread] at h
    contradiction
  obtain ⟨hstored, -, hsame⟩ := (checkNumber_byValue padded).1 x hpadded
  have hok : ∃ d, checkNumber padded = .ok d := by
    refine hstored.mpr (.inr ⟨?_, ?_, -99999999999999999999999999999999999999, 88, ?_, ?_⟩)
    all_goals norm_num [x]
  exact ⟨hpadded, hpointed, hok, (hsame pointed hpointed).mp hok,
    (checkNumber_byValue "snan7").2.1 hnan⟩

end AttributeExpr
