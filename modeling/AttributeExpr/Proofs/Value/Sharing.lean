import AttributeExpr.Proofs.Value.Equality
/-!
Sharing of placeholders. Two values of which no map has a key twice share a placeholder exactly if
they are equal: what is equal is then also spelled alike.
-/
namespace AttributeExpr.Value

variable {numeral : String → Prop} {a b : Value}

theorem isEqual_iff : isEqual a b = true ↔ Equals a b := by
  unfold isEqual Equals
  split
  · next h => simp [h]
  · next h => simp [h]

theorem countDistinct_eq_length {entries seen : List (String × Value)}
    (h : (entries.map (·.1)).Nodup) (hseen : ∀ entry ∈ entries, entry.1 ∉ seen.map (·.1)) :
    countDistinct seen entries = entries.length := by
  induction entries generalizing seen with
  | nil => rfl
  | cons entry entries ih =>
    obtain ⟨key, value⟩ := entry
    obtain ⟨hkey, hkeys⟩ := List.nodup_cons.mp h
    have hseen' : ∀ entry ∈ entries, entry.1 ∉ ((key, value) :: seen).map (·.1) := by
      intro entry hentry
      simp only [List.map_cons, List.mem_cons, not_or]
      refine ⟨?_, hseen entry (by simp [hentry])⟩
      rintro rfl
      exact hkey (List.mem_map.mpr ⟨entry, hentry, rfl⟩)
    rw [countDistinct, if_neg, ih hkeys hseen', List.length_cons]
    rw [Bool.not_eq_true, List.any_eq_false]
    rintro ⟨k, v⟩ hmem
    have hne : k ≠ key := by
      rintro rfl
      exact hseen (k, value) (by simp) (List.mem_map.mpr ⟨_, hmem, rfl⟩)
    simp [hne]

theorem entriesWithin_iff {as bs : List (String × Value)} :
    entriesWithin as bs = true ↔
      ∀ entry ∈ as, ∃ other, (entry.1, other) ∈ bs ∧ sameSpelling entry.2 other = true := by
  induction as with
  | nil => simp [entriesWithin]
  | cons entry as ih =>
    rw [entriesWithin, Bool.and_eq_true, ih, List.forall_mem_cons]
    simp

theorem hasEntry_iff {as : List (String × Value)} {key : String} {value : Value} :
    hasEntry as key value = true ↔
      ∃ other, (key, other) ∈ as ∧ sameSpelling other value = true := by
  induction as with
  | nil => simp [hasEntry]
  | cons entry as ih =>
    obtain ⟨k, v⟩ := entry
    simp only [hasEntry, Bool.or_eq_true, Bool.and_eq_true, decide_eq_true_eq, ih,
      List.mem_cons, Prod.mk.injEq]
    constructor
    · rintro (⟨rfl, h⟩ | ⟨other, hmem, h⟩)
      · exact ⟨v, .inl ⟨rfl, rfl⟩, h⟩
      · exact ⟨other, .inr hmem, h⟩
    · rintro ⟨other, ⟨rfl, rfl⟩ | hmem, h⟩
      · exact .inl ⟨rfl, h⟩
      · exact .inr ⟨other, hmem, h⟩

theorem sameSpellingOfItems_iff {as bs : List Value} :
    sameSpellingOfItems as bs = true ↔
      List.Forall₂ (fun a b => sameSpelling a b = true) as bs := by
  induction as generalizing bs with
  | nil => cases bs <;> simp [sameSpellingOfItems]
  | cons a as ih => cases bs <;> simp [sameSpellingOfItems, ih]

/-- Equal values are spelled alike. -/
theorem Equals.sameSpelling (ha : a.WellFormed numeral) (hb : b.WellFormed numeral)
    (h : Equals a b) : sameSpelling a b = true := by
  induction ha generalizing b with
  | null => cases h.parts; rw [Value.sameSpelling]
  | bool value => cases h.parts; cases value <;> simp [Value.sameSpelling, spelling?]
  | number | string | binary => cases h.parts; simp [Value.sameSpelling, spelling?]
  | list _ ih =>
    cases h.parts with
    | list hparts =>
      cases hb with
      | list hb =>
      rw [Value.sameSpelling, sameSpellingOfItems_iff]
      apply forall₂_imp_of_mem hparts
      intro a ha b hb'
      exact ih a ha (hb b hb')
  | @map as distinct _ ih =>
    cases h.parts with
    | map _ bs =>
      cases hb with
      | map distinct' hb =>
      obtain ⟨length, hentries⟩ := (equals_map_iff distinct distinct').mp h
      have hcount : countDistinct [] as = countDistinct [] bs := by
        rw [countDistinct_eq_length distinct (by simp),
          countDistinct_eq_length distinct' (by simp), length]
      have hwithin : entriesWithin as bs = true := by
        apply entriesWithin_iff.mpr
        intro entry hentry
        obtain ⟨other, hother, hequals⟩ := hentries entry hentry
        exact ⟨other, hother, ih entry hentry (hb _ hother) hequals⟩
      have hback : (bs.all fun entry => hasEntry as entry.1 entry.2) = true := by
        apply List.all_eq_true.mpr
        intro entry hentry
        apply hasEntry_iff.mpr
        have hkeys := keys_subset distinct length
          fun entry hentry => (hentries entry hentry).imp fun _ h => h.1
        obtain ⟨other, hother⟩ := hkeys entry hentry
        obtain ⟨value, hvalue, hequals⟩ := hentries _ hother
        obtain rfl := Dictionary.eq_of_mem distinct' hvalue hentry
        exact ⟨other, hother, ih _ hother (hb entry hentry) hequals⟩
      simp [Value.sameSpelling, hcount, hwithin, hback]
  | numberSet | stringSet | binarySet =>
    cases h.parts
    rw [Value.sameSpelling]
    exact isEqual_iff.mpr h

theorem shares_iff (ha : a.WellFormed numeral) (hb : b.WellFormed numeral) :
    shares a b = true ↔ Equals a b := by
  rw [shares, Bool.and_eq_true, isEqual_iff]
  exact ⟨fun h => h.1, fun h => ⟨h, h.sameSpelling ha hb⟩⟩

theorem checkComparableItems_eq_ok {items : List Value}
    (h : ∀ item ∈ items, checkComparable item = .ok ()) : checkComparableItems items = .ok () := by
  induction items with
  | nil => rfl
  | cons item items ih =>
    obtain ⟨hitem, hitems⟩ := List.forall_mem_cons.mp h
    rw [checkComparableItems, hitem]
    exact ih hitems

theorem checkComparableEntries_eq_ok {entries : List (String × Value)}
    (h : ∀ entry ∈ entries, checkComparable entry.2 = .ok ()) :
    checkComparableEntries entries = .ok () := by
  induction entries with
  | nil => rfl
  | cons entry entries ih =>
    obtain ⟨hentry, hentries⟩ := List.forall_mem_cons.mp h
    rw [checkComparableEntries, hentry]
    exact ih hentries

/-- The numbers of well-formed sets can be compared. -/
theorem WellFormed.checkComparable {value : Value} (h : value.WellFormed numeral) :
    checkComparable value = .ok () := by
  induction h with
  | list _ ih =>
    rw [Value.checkComparable]
    exact checkComparableItems_eq_ok ih
  | map _ _ ih =>
    rw [Value.checkComparable]
    exact checkComparableEntries_eq_ok ih
  | numberSet _ _ distinct =>
    obtain ⟨numbers, hnumbers, -⟩ := distinct
    rw [Value.checkComparable, (mapM_eq_ok_iff _ _ _).mpr hnumbers]
    rfl
  | _ => rfl

end AttributeExpr.Value
