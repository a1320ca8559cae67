import AttributeExpr.Text.Character
import Mathlib.Tactic
/-!
Hexadecimal digits spell the number they were made from.
-/
namespace AttributeExpr

theorem hexValue?_hexDigit (n : Nat) : hexValue? (hexDigit n) = some (n % 16) := by
  have h : ∀ k < 16, hexValue? (Nat.digitChar k) = some k := by decide
  exact h (n % 16) (Nat.mod_lt n (by decide))

theorem hexNumber?_append_singleton (digits : List Char) (c : Char) :
    hexNumber? (digits ++ [c]) =
      (hexNumber? digits).bind fun n => (hexValue? c).map (16 * n + ·) := by
  simp [hexNumber?, List.foldlM_append]

theorem hexNumber?_hexDigits (width n : Nat) :
    hexNumber? (hexDigits width n) = some (n % 16 ^ width) := by
  induction width generalizing n with
  | zero => simp [hexDigits, hexNumber?, Nat.mod_one]
  | succ width ih =>
    rw [hexDigits, hexNumber?_append_singleton, ih, hexValue?_hexDigit]
    simp only [Option.bind_some, Option.map_some]
    rw [Nat.pow_succ, Nat.mul_comm (16 ^ width) 16, Nat.mod_mul, Nat.add_comm]

@[simp] theorem length_hexDigits (width n : Nat) : (hexDigits width n).length = width := by
  induction width generalizing n with
  | zero => rfl
  | succ width ih => simp [hexDigits, ih]

theorem isHexDigit_of_hexNumber? {digits : List Char} {n : Nat} (h : hexNumber? digits = some n) :
    ∀ c ∈ digits, isHexDigit c = true := by
  induction digits using List.reverseRecOn generalizing n with
  | nil => simp
  | append_singleton digits d ih =>
    rw [hexNumber?_append_singleton] at h
    obtain ⟨k, hk, hd⟩ := Option.bind_eq_some_iff.mp h
    obtain ⟨v, hv, -⟩ := Option.map_eq_some_iff.mp hd
    intro c hc
    rcases List.mem_append.mp hc with hc | hc
    · exact ih hk c hc
    · obtain rfl := List.mem_singleton.mp hc
      simp [isHexDigit, hv]

theorem hexValue?_lt {c : Char} {n : Nat} (h : hexValue? c = some n) : n < 16 := by
  unfold hexValue? at h
  split_ifs at h with hdigit hlower hupper
  · obtain rfl := Option.some.inj h
    have hle : c.toNat ≤ 57 := of_decide_eq_true (Bool.and_eq_true_iff.mp hdigit).2
    have hzero : '0'.toNat = 48 := rfl
    omega
  · obtain rfl := Option.some.inj h
    have hle : c.toNat ≤ 102 := of_decide_eq_true (Bool.and_eq_true_iff.mp hlower).2
    have ha : 'a'.toNat = 97 := rfl
    omega
  · obtain rfl := Option.some.inj h
    have hle : c.toNat ≤ 70 := of_decide_eq_true (Bool.and_eq_true_iff.mp hupper).2
    have ha : 'A'.toNat = 65 := rfl
    omega

theorem hexNumber?_lt {digits : List Char} {n : Nat} (h : hexNumber? digits = some n) :
    n < 16 ^ digits.length := by
  induction digits using List.reverseRecOn generalizing n with
  | nil =>
    obtain rfl : 0 = n := Option.some.inj h
    simp
  | append_singleton digits d ih =>
    rw [hexNumber?_append_singleton] at h
    obtain ⟨k, hk, hd⟩ := Option.bind_eq_some_iff.mp h
    obtain ⟨v, hv, rfl⟩ := Option.map_eq_some_iff.mp hd
    have hlast := hexValue?_lt hv
    have hfront := ih hk
    rw [List.length_append, List.length_singleton, Nat.pow_succ]
    omega

end AttributeExpr
