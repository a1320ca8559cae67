import AttributeExpr.Decimal.Basic
import AttributeExpr.Proofs.Numeral
/-!
Natural numbers as runs of digits. A number is read back from the digits in which it is written.
Integers are written in the same way, the negative ones with a minus in front of the digits.
-/
namespace AttributeExpr.Decimal

theorem toList_toString (n : Nat) : (toString n).toList = Nat.toDigits 10 n := by
  simp [toString, Nat.repr]

theorem ofDigits_toString (n : Nat) : ofDigits (toString n).toList = n := by
  rw [toList_toString]
  exact Nat.ofDigitChars_toDigits (by decide) (by decide)

theorem toString_injective : Function.Injective (toString : Nat → String) := by
  intro m n h
  rw [← ofDigits_toString m, h, ofDigits_toString]

theorem isDigit_toString (n : Nat) : ∀ c ∈ (toString n).toList, Numeral.isDigit c = true := by
  intro c hc
  rw [toList_toString] at hc
  have h := Nat.isDigit_of_mem_toDigits (by decide) (by decide) hc
  rw [Char.isDigit, Bool.and_eq_true, decide_eq_true_eq, decide_eq_true_eq] at h
  exact Numeral.isDigit_iff.mpr h

theorem toString_ne_nil (n : Nat) : (toString n).toList ≠ [] := by
  rw [toList_toString]
  exact Nat.toDigits_ne_nil

theorem ofDigits_lt {digits : List Char} (h : ∀ c ∈ digits, Numeral.isDigit c = true) :
    ofDigits digits < 10 ^ digits.length := by
  induction digits using List.reverseRecOn with
  | nil => simp [ofDigits]
  | append_singleton digits c ih =>
    have hlt := ih fun d hd => h d (by simp [hd])
    have hc := Numeral.isDigit_iff.mp (h c (by simp))
    have hstep : ofDigits (digits ++ [c]) = 10 * ofDigits digits + (c.toNat - '0'.toNat) := by
      simp [ofDigits]
    have hzero : '0'.toNat = 48 := rfl
    rw [hstep, List.length_append, List.length_singleton, pow_succ]
    omega

/-- A run of digits becomes no longer when the number that it stands for is written again. -/
theorem length_toString_ofDigits_le {digits : List Char} (nonempty : digits ≠ [])
    (h : ∀ c ∈ digits, Numeral.isDigit c = true) :
    (toString (ofDigits digits)).toList.length ≤ digits.length := by
  rw [toList_toString]
  exact (Nat.length_toDigits_le_iff (by decide) (List.length_pos_of_ne_nil nonempty)).mpr
    (ofDigits_lt h)

/-- A number is written as a numeral without sign. -/
theorem unsigned_toString (n : Nat) : Numeral.Unsigned (toString n).toList := by
  simpa using Numeral.Unsigned.parts (toString_ne_nil n) (isDigit_toString n) .absent .absent

theorem toString_negSucc (n : Nat) : toString (Int.negSucc n) = "-" ++ toString (n + 1) := rfl

theorem mem_toString_int {number : Int} {c : Char} (h : c ∈ (toString number).toList) :
    Numeral.isDigit c = true ∨ c = '-' := by
  cases number with
  | ofNat n => exact .inl (isDigit_toString n c h)
  | negSucc n =>
    rw [toString_negSucc, String.toList_append, List.mem_append] at h
    rcases h with h | h
    · exact .inr (by simpa using h)
    · exact .inl (isDigit_toString (n + 1) c h)

theorem toString_int_injective : Function.Injective (toString : Int → String) := by
  -- A minus is no digit, so that it tells the negative numbers from the others.
  have hsign (m n : Nat) : toString (Int.ofNat m) ≠ toString (Int.negSucc n) := by
    intro h
    have hmem : '-' ∈ (toString m).toList := by
      have hlist := congrArg String.toList h
      rw [toString_negSucc] at hlist
      rw [show toString m = toString (Int.ofNat m) from rfl, hlist]
      simp
    exact absurd (isDigit_toString m '-' hmem) (by decide)
  intro i j h
  cases i with
  | ofNat m =>
    cases j with
    | ofNat n => exact congrArg Int.ofNat (toString_injective h)
    | negSucc n => exact absurd h (hsign m n)
  | negSucc m =>
    cases j with
    | ofNat n => exact absurd h.symm (hsign n m)
    | negSucc n =>
      rw [toString_negSucc, toString_negSucc, String.append_right_inj] at h
      rw [Nat.succ_injective (toString_injective h)]

end AttributeExpr.Decimal
