import AttributeExpr.Decimal.Basic
import AttributeExpr.Proofs.Numeral
import Mathlib.Tactic
/-!
The numbers that numerals denote. The characters of a numeral spell no word, so that it denotes a
finite number or, beyond the limits of decimal numbers, none.
-/
namespace AttributeExpr

namespace Numeral

/-- The characters of numerals with a sign. -/
def belongs (c : Char) : Bool := continues c || isSign c

theorem belongs_of_isDigit {c : Char} (h : isDigit c = true) : belongs c = true := by
  simp [belongs, continues, h]

theorem Unsigned.belongs {text : List Char} (h : Unsigned text) : ∀ c ∈ text, belongs c = true := by
  cases h with
  | parts _ hwhole fractional powered =>
    simp only [List.forall_mem_append]
    refine ⟨⟨fun c hc => belongs_of_isDigit (hwhole c hc), ?_⟩, ?_⟩
    · cases fractional with
      | absent => simp
      | point h =>
        exact List.forall_mem_cons.mpr ⟨by decide, fun c hc => belongs_of_isDigit (h c hc)⟩
    · cases powered with
      | absent => simp
      | power letter_eq sign_eq _ h =>
        simp only [List.cons_append, List.forall_mem_cons, List.forall_mem_append]
        refine ⟨?_, ?_, fun c hc => belongs_of_isDigit (h c hc)⟩
        · rcases letter_eq with rfl | rfl <;> decide
        · rcases sign_eq with rfl | rfl | rfl
          · simp
          · exact List.forall_mem_singleton.mpr (by decide)
          · exact List.forall_mem_singleton.mpr (by decide)

theorem Signed.belongs {text : List Char} (h : Signed text) :
    ∀ c ∈ text, Numeral.belongs c = true := by
  cases h with
  | plain h => exact h.belongs
  | minus h => exact List.forall_mem_cons.mpr ⟨by decide, h.belongs⟩

theorem belongs_cases {c : Char} (h : belongs c = true) :
    (0x30 ≤ c.toNat ∧ c.toNat ≤ 0x39) ∨ c = '.' ∨ c = 'e' ∨ c = 'E' ∨ c = '+' ∨ c = '-' := by
  simpa [belongs, continues, isSign, isDigit_iff, or_assoc] using h

theorem toNat_lt_of_belongs {c : Char} (h : belongs c = true) : c.toNat < 128 := by
  rcases belongs_cases h with ⟨-, hc⟩ | rfl | rfl | rfl | rfl | rfl
  · omega
  all_goals decide

/-- No letter of a numeral stands for the start of `snan`. -/
theorem toLower_ne_of_belongs {c : Char} (h : belongs c = true) : c.toLower ≠ 's' := by
  rcases belongs_cases h with ⟨hlow, hhigh⟩ | rfl | rfl | rfl | rfl | rfl
  · have hc : c = Char.ofNat c.toNat := (Char.ofNat_toNat c).symm
    rw [hc]
    generalize c.toNat = n at hlow hhigh
    interval_cases n <;> decide
  all_goals decide

end Numeral

namespace Decimal

theorem readFinite?_finite {negative : Bool} {text : List Char} {number : Decimal}
    (h : readFinite? negative text = some number) :
    ∃ coefficient exponent, number = .finite negative coefficient exponent := by
  unfold readFinite? at h
  dsimp only at h
  repeat' split at h
  all_goals cases h <;> exact ⟨_, _, rfl⟩

theorem isSignaling_readUnsigned? {negative : Bool} {text : List Char} {number : Decimal}
    (htext : ∀ c ∈ text, Numeral.belongs c = true)
    (h : readUnsigned? negative text = some number) : number.isSignaling = false := by
  unfold readUnsigned? at h
  dsimp only at h
  split at h
  · obtain rfl := Option.some.inj h
    rfl
  split at h
  · obtain rfl := Option.some.inj h
    rfl
  split at h
  · next hsnan =>
    have htake := of_decide_eq_true (Bool.and_eq_true_iff.mp hsnan).1
    have hmem : 's' ∈ (text.map Char.toLower).take 4 := by
      rw [htake]
      decide
    obtain ⟨c, hc, heq⟩ := List.mem_map.mp (List.mem_of_mem_take hmem)
    exact absurd heq (Numeral.toLower_ne_of_belongs (htext c hc))
  · obtain ⟨coefficient, exponent, rfl⟩ := readFinite?_finite h
    rfl

theorem trim_subset (text : List Char) : trim text ⊆ text := by
  intro c hc
  have hend := (List.dropWhile_sublist isBlank).subset (List.mem_reverse.mp hc)
  exact (List.dropWhile_sublist isBlank).subset (List.mem_reverse.mp hend)

theorem asciiDigits?_ascii {text : List Char} (h : ∀ c ∈ text, c.toNat < 128) :
    asciiDigits? text = some text := by
  unfold asciiDigits?
  induction text with
  | nil => rfl
  | cons c text ih =>
    obtain ⟨hc, htext⟩ := List.forall_mem_cons.mp h
    rw [List.mapM_cons, ih htext, if_pos hc]
    rfl

/-- A numeral denotes a number that can be compared, if it denotes any. -/
theorem isSignaling_of_signed {text : String} (h : Numeral.Signed text.toList) {number : Decimal}
    (hread : read? text = some number) : number.isSignaling = false := by
  have hchars : ∀ c ∈ (trim text.toList).filter (· ≠ '_'), Numeral.belongs c = true :=
    fun c hc => h.belongs c (trim_subset _ (List.mem_of_mem_filter hc))
  have hascii := asciiDigits?_ascii fun c hc => Numeral.toNat_lt_of_belongs (hchars c hc)
  unfold read? at hread
  rw [hascii] at hread
  dsimp only [bind, Option.bind] at hread
  split at hread
  · next rest hsplit =>
    rw [hsplit] at hchars
    exact isSignaling_readUnsigned? (List.forall_mem_cons.mp hchars).2 hread
  · next rest hsplit =>
    rw [hsplit] at hchars
    exact isSignaling_readUnsigned? (List.forall_mem_cons.mp hchars).2 hread
  · exact isSignaling_readUnsigned? hchars hread

end Decimal

end AttributeExpr
