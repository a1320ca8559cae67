import AttributeExpr.Proofs.Value.Wire
/-!
The limits of numbers. Whether a number can be stored depends on its value and not on how it is
written, so of two equal values both can be encoded or none. A value can be encoded if the numbers
in it can be stored, and is refused for the first of them that cannot.
-/
namespace AttributeExpr

namespace Decimal

theorem digitCount_pos (n : Nat) : 0 < digitCount n := by
  rw [digitCount, Nat.repr_eq_ofList_toDigits, String.length_ofList]
  exact Nat.length_toDigits_pos

theorem digitCount_ten_mul {n : Nat} (h : 0 < n) : digitCount (10 * n) = digitCount n + 1 := by
  have happend := Nat.toDigits_append_toDigits (b := 10) (by decide) h (d := 0) (by decide)
  rw [Nat.add_zero] at happend
  rw [digitCount, digitCount, Nat.repr_eq_ofList_toDigits, Nat.repr_eq_ofList_toDigits, ← happend]
  simp [Nat.toDigits_of_lt_base]

theorem stripZeros_mod_ne {coefficient : Nat} (h : 0 < coefficient) (exponent : Int) :
    (stripZeros coefficient exponent).1 % 10 ≠ 0 := by
  induction coefficient, exponent using stripZeros.induct with
  | case1 coefficient exponent hzero ih =>
    rw [stripZeros, dif_pos hzero]
    exact ih (by omega)
  | case2 coefficient exponent hzero =>
    rw [stripZeros, dif_neg hzero]
    omega

theorem stripZeros_pos {coefficient : Nat} (h : 0 < coefficient) (exponent : Int) :
    0 < (stripZeros coefficient exponent).1 := by
  have hlast := stripZeros_mod_ne h exponent
  omega

/-- Taking zeros into the exponent leaves the leading digit where it is. -/
theorem adjusted_stripZeros {coefficient : Nat} (h : 0 < coefficient) (exponent : Int) :
    adjusted (stripZeros coefficient exponent).1 (stripZeros coefficient exponent).2 =
      adjusted coefficient exponent := by
  induction coefficient, exponent using stripZeros.induct with
  | case1 coefficient exponent hzero ih =>
    have htenth : coefficient = 10 * (coefficient / 10) := by omega
    have hpos : 0 < coefficient / 10 := by omega
    have hdigits := digitCount_ten_mul hpos
    have hcount := digitCount_pos (coefficient / 10)
    rw [stripZeros, dif_pos hzero, ih hpos, adjusted, adjusted]
    rw [← htenth] at hdigits
    omega
  | case2 coefficient exponent hzero => rw [stripZeros, dif_neg hzero]

/-- The number is zero, or its digits are few enough and its magnitude is within the limits. -/
def Storable : Decimal → Prop
  | finite _ coefficient exponent =>
    coefficient = 0 ∨
      digitCount (stripZeros coefficient exponent).1 ≤ maxPrecision ∧
        minMagnitude ≤ adjusted coefficient exponent ∧
        adjusted coefficient exponent ≤ maxMagnitude
  | _ => False

/-- Numbers of one value can be stored or not alike. -/
theorem Storable.of_sameValue {a b : Decimal} (h : a.Storable) (same : a.sameValue b = true) :
    b.Storable := by
  rw [sameValue, Bool.and_eq_true, decide_eq_true_eq] at same
  have heq := same.2
  cases a with
  | infinite | nan => exact h.elim
  | finite negative coefficient exponent =>
    cases b with
    | infinite | nan =>
      rw [normalize] at heq
      split_ifs at heq <;> cases heq
    | finite negative' coefficient' exponent' =>
      rcases coefficient'.eq_zero_or_pos with hzero' | hpos'
      · exact .inl hzero'
      rw [normalize, normalize, if_neg hpos'.ne'] at heq
      rcases coefficient.eq_zero_or_pos with hzero | hpos
      · rw [if_pos hzero, finite.injEq] at heq
        exact absurd heq.2.1.symm (stripZeros_pos hpos' exponent').ne'
      · rw [if_neg hpos.ne', finite.injEq] at heq
        obtain ⟨-, hdigits, hexponent⟩ := heq
        obtain ⟨hprecise, hlow, hhigh⟩ := h.resolve_left hpos.ne'
        rw [← adjusted_stripZeros hpos, hdigits, hexponent, adjusted_stripZeros hpos'] at hlow hhigh
        exact .inr ⟨hdigits ▸ hprecise, hlow, hhigh⟩

end Decimal

/-- A text is accepted exactly if it denotes a number that can be stored. -/
theorem checkNumber_isOk_iff {text : String} :
    (∃ d, checkNumber text = .ok d) ↔ ∃ d, Decimal.read? text = some d ∧ d.Storable := by
  unfold checkNumber
  split
  · next negative coefficient exponent hread =>
    rw [hread]
    simp only [Option.some.injEq, exists_eq_left', Decimal.Storable]
    split_ifs with hzero hprecise hrange
    · simp [hzero]
    · simp [hzero, hprecise]
    · simp only [Bool.or_eq_true, decide_eq_true_eq] at hrange
      simp only [exists_false, hzero, false_or, false_iff]
      omega
    · simp only [Bool.or_eq_true, decide_eq_true_eq, not_or, not_lt] at hrange
      simpa [hzero] using ⟨not_lt.mp hprecise, hrange⟩
  · next hfinite =>
    simp only [reduceCtorEq, exists_false, false_iff]
    rintro ⟨d, hread, hstorable⟩
    cases d with
    | finite negative coefficient exponent => exact hfinite _ _ _ hread
    | infinite | nan => exact hstorable

namespace Value

mutual

/-- The numbers in a value, at any depth and in sets too, in the order of its encoding. -/
def numbers : Value → List String
  | number text => [text]
  | list items => numbersOfItems items
  | map entries => numbersOfEntries entries
  | numberSet elements => elements
  | _ => []

def numbersOfItems : List Value → List String
  | [] => []
  | item :: rest => numbers item ++ numbersOfItems rest

def numbersOfEntries : List (String × Value) → List String
  | [] => []
  | (_, value) :: rest => numbers value ++ numbersOfEntries rest

end

theorem numbersOfItems_eq (items : List Value) : numbersOfItems items = items.flatMap numbers := by
  induction items with
  | nil => rfl
  | cons item items ih => rw [numbersOfItems, ih, List.flatMap_cons]

theorem numbersOfEntries_eq (entries : List (String × Value)) :
    numbersOfEntries entries = entries.flatMap fun entry => entry.2.numbers := by
  induction entries with
  | nil => rfl
  | cons entry entries ih => rw [numbersOfEntries, ih, List.flatMap_cons]

theorem checkNumbers_append (texts texts' : List String) :
    checkNumbers (texts ++ texts') = checkNumbers texts >>= fun _ => checkNumbers texts' := by
  simp only [checkNumbers_eq_forM, forM_append]

theorem map_map_unit {ε α β : Type} (outcome : Except ε α) (f : α → β) :
    (outcome.map f).map (fun _ => ()) = outcome.map fun _ => () := by
  cases outcome <;> rfl

mutual

/-- Encoding a value is nothing but checking its numbers. -/
theorem map_toWire : ∀ value : Value, (toWire value).map (fun _ => ()) = checkNumbers value.numbers
  | number text => by
    rw [toWire, map_map_unit, numbers, checkNumbers]
    cases checkNumber text <;> rfl
  | list items => by rw [toWire, map_map_unit, numbers, map_itemsToWire]
  | map entries => by rw [toWire, map_map_unit, numbers, map_entriesToWire]
  | numberSet elements => by
    rw [toWire, map_map_unit, numbers]
    cases checkNumbers elements <;> rfl
  | null | bool _ | string _ | binary _ | stringSet _ | binarySet _ => rfl

theorem map_itemsToWire : ∀ items : List Value,
    (itemsToWire items).map (fun _ => ()) = checkNumbers (numbersOfItems items)
  | [] => rfl
  | item :: rest => by
    rw [itemsToWire, numbersOfItems, checkNumbers_append, ← map_toWire item, ← map_itemsToWire rest]
    cases toWire item with
    | error error => rfl
    | ok document => exact map_map_unit _ _

theorem map_entriesToWire : ∀ entries : List (String × Value),
    (entriesToWire entries).map (fun _ => ()) = checkNumbers (numbersOfEntries entries)
  | [] => rfl
  | (key, value) :: rest => by
    rw [entriesToWire, numbersOfEntries, checkNumbers_append, ← map_toWire value,
      ← map_entriesToWire rest]
    cases toWire value with
    | error error => rfl
    | ok document => exact map_map_unit _ _

end

/-- All numbers in the value can be stored. -/
def Encodable (value : Value) : Prop := ∀ text ∈ value.numbers, ∃ d, checkNumber text = .ok d

theorem exists_toWire_iff {value : Value} :
    (∃ document, toWire value = .ok document) ↔ value.Encodable := by
  rw [Encodable, ← checkNumbers_eq_ok_iff_forall, ← map_toWire, map_eq_ok_iff]
  simp

variable {numeral : String → Prop} {a b : Value}

theorem read?_of_comparable {text : String} {d : Decimal} (h : comparable text = .ok d) :
    Decimal.read? text = some d := by
  unfold comparable at h
  split at h
  · contradiction
  · next d' hread =>
    split_ifs at h
    obtain rfl := Except.ok.inj h
    exact hread

/-- Each number of one set has the value of a number of the other. -/
theorem SameNumbers.storable {as bs : List String} (h : SameNumbers as bs)
    (storable : ∀ text ∈ as, ∃ d, checkNumber text = .ok d) :
    ∀ text ∈ bs, ∃ d, checkNumber text = .ok d := by
  obtain ⟨numbers, numbers', hnumbers, hnumbers', hsame⟩ := h.symm
  intro text htext
  obtain ⟨d, hd, hcomparable⟩ := exists_of_mem_forall₂ hnumbers htext
  obtain ⟨d', hd', hsame⟩ := (sameMembers_iff.mp hsame).1 d hd
  obtain ⟨text', htext', hcomparable'⟩ := exists_of_mem_forall₂ hnumbers'.flip hd'
  obtain ⟨d'', hread', hstorable⟩ := checkNumber_isOk_iff.mp (storable text' htext')
  obtain rfl := Option.some.inj ((read?_of_comparable hcomparable').symm.trans hread')
  rw [Decimal.sameValue_comm] at hsame
  exact checkNumber_isOk_iff.mpr ⟨d, read?_of_comparable hcomparable, hstorable.of_sameValue hsame⟩

/-- Of two equal values, both can be encoded or none. -/
theorem Equals.encodable (h : Equals a b) (ha : a.WellFormed numeral) (hb : b.WellFormed numeral)
    (encodable : a.Encodable) : b.Encodable := by
  induction ha generalizing b with
  | list _ ih =>
    cases h.parts with
    | list hparts =>
      cases hb with
      | list hb =>
        simp only [Encodable, numbers, numbersOfItems_eq, List.mem_flatMap] at encodable ⊢
        rintro text ⟨item, hitem, htext⟩
        obtain ⟨other, hother, hequals⟩ := exists_of_mem_forall₂ hparts.flip hitem
        exact ih other hother hequals (hb item hitem)
          (fun text htext => encodable text ⟨other, hother, htext⟩) text htext
  | @map as distinct formed ih =>
    have hsymm := h.symm (.map distinct formed) hb
    cases h.parts with
    | map _ bs =>
      cases hb with
      | map distinct' hb =>
        obtain ⟨-, hentries⟩ := (equals_map_iff distinct' distinct).mp hsymm
        simp only [Encodable, numbers, numbersOfEntries_eq, List.mem_flatMap] at encodable ⊢
        rintro text ⟨entry, hentry, htext⟩
        obtain ⟨other, hother, hequals⟩ := hentries entry hentry
        have hvalue := hequals.symm (hb entry hentry) (formed _ hother)
        exact ih _ hother hvalue (hb entry hentry)
          (fun text htext => encodable text ⟨_, hother, htext⟩) text htext
  | numberSet nonempty _ distinct =>
    cases h.parts with
    | numberSet hparts => exact hparts.storable encodable
  | stringSet nonempty distinct =>
    cases h.parts with
    | stringSet => exact List.forall_mem_nil _
  | binarySet nonempty distinct =>
    cases h.parts with
    | binarySet => exact List.forall_mem_nil _
  | _ => cases h.parts; exact encodable

end Value

end AttributeExpr
