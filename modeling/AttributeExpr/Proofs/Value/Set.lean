import AttributeExpr.Proofs.Outcome
import AttributeExpr.Value.Set
/-!
What makes a set: elements of one scalar kind, at least one of them, and no two of them equal.
Numbers have to be decimal numbers of pairwise different values.
-/
namespace AttributeExpr

theorem firstRepeat?_eq_none_iff {α : Type} [DecidableEq α] (seen as : List α) :
    firstRepeat? seen as = none ↔ as.Nodup ∧ ∀ a ∈ as, a ∉ seen := by
  induction as generalizing seen with
  | nil => simp [firstRepeat?]
  | cons a as ih =>
    rw [firstRepeat?]
    split_ifs with h
    · simp [h]
    · rw [ih]
      constructor
      · rintro ⟨hnodup, hseen⟩
        refine ⟨List.nodup_cons.mpr ⟨fun ha => hseen a ha (by simp), hnodup⟩, ?_⟩
        intro b hb
        rcases List.mem_cons.mp hb with rfl | hb
        · exact h
        · exact fun hbs => hseen b hb (by simp [hbs])
      · rintro ⟨hnodup, hseen⟩
        obtain ⟨ha, hnodup⟩ := List.nodup_cons.mp hnodup
        refine ⟨hnodup, ?_⟩
        intro b hb hbs
        rcases List.mem_cons.mp hbs with rfl | hbs
        · exact ha hb
        · exact hseen b (by simp [hb]) hbs

theorem Decimal.sameValue_comm (a b : Decimal) : a.sameValue b = b.sameValue a := by
  simp only [sameValue, Bool.and_comm (!a.isNaN), eq_comm]

/-- Texts of decimal numbers with pairwise different values. -/
def DistinctNumbers (texts : List String) : Prop :=
  ∃ numbers, List.Forall₂ (fun text number => comparable text = .ok number) texts numbers ∧
    numbers.Pairwise fun a b => Decimal.sameValue a b = false

theorem checkNumbers_eq_ok_iff {seen : List Decimal} {texts : List String} :
    checkNumbers seen texts = .ok () ↔
      ∃ numbers, List.Forall₂ (fun text number => comparable text = .ok number) texts numbers ∧
        numbers.Pairwise (fun a b => Decimal.sameValue a b = false) ∧
        ∀ a ∈ numbers, ∀ b ∈ seen, Decimal.sameValue a b = false := by
  induction texts generalizing seen with
  | nil => simp [checkNumbers]
  | cons text texts ih =>
    rw [checkNumbers]
    cases hc : comparable text with
    | error e => simp [List.forall₂_cons_left_iff, hc]
    | ok d =>
      dsimp only
      split_ifs with hs
      · obtain ⟨b, hb, hdb⟩ := List.any_eq_true.mp hs
        simp only [refuse, reduceCtorEq, List.forall₂_cons_left_iff, hc, false_iff]
        rintro ⟨-, ⟨a, numbers, ha, -, rfl⟩, -, hseen⟩
        obtain rfl := Except.ok.inj ha
        rw [hseen d (by simp) b hb] at hdb
        contradiction
      · rw [ih]
        constructor
        · rintro ⟨numbers, hall, hpair, hseen⟩
          refine ⟨d :: numbers, .cons hc hall, List.pairwise_cons.mpr ⟨?_, hpair⟩, ?_⟩
          · intro a ha
            rw [Decimal.sameValue_comm]
            exact hseen a ha d (by simp)
          · intro a ha b hb
            rcases List.mem_cons.mp ha with rfl | ha
            · simpa using List.any_eq_false.mp (Bool.eq_false_of_not_eq_true hs) b hb
            · exact hseen a ha b (by simp [hb])
        · rintro ⟨numbers, hall, hpair, hseen⟩
          obtain ⟨a, tail, ha, htail, rfl⟩ := List.forall₂_cons_left_iff.mp hall
          obtain rfl := Except.ok.inj (hc.symm.trans ha)
          obtain ⟨hd, hpair⟩ := List.pairwise_cons.mp hpair
          refine ⟨tail, htail, hpair, ?_⟩
          intro c hmem b hb
          rcases List.mem_cons.mp hb with rfl | hb
          · rw [Decimal.sameValue_comm]
            exact hd c hmem
          · exact hseen c (by simp [hmem]) b hb

theorem checkNumbers_nil_iff {texts : List String} :
    checkNumbers [] texts = .ok () ↔ DistinctNumbers texts := by
  simp [checkNumbers_eq_ok_iff, DistinctNumbers]

namespace Value

/-- The set that some elements form, in their order. -/
inductive IsSetOf : List Value → Value → Prop where
  | numbers {elements : List String} (nonempty : elements ≠ [])
      (distinct : DistinctNumbers elements) : IsSetOf (elements.map number) (numberSet elements)
  | strings {elements : List String} (nonempty : elements ≠ []) (distinct : elements.Nodup) :
      IsSetOf (elements.map string) (stringSet elements)
  | binaries {elements : List Bytes} (nonempty : elements ≠ []) (distinct : elements.Nodup) :
      IsSetOf (elements.map binary) (binarySet elements)

theorem IsSetOf.ne_nil {items : List Value} {value : Value} (h : IsSetOf items value) :
    items ≠ [] := by
  cases h with
  | numbers nonempty | strings nonempty | binaries nonempty => simpa using nonempty

theorem ofNumbers_eq_ok_iff {elements : List String} {value : Value} :
    ofNumbers elements = .ok value ↔ DistinctNumbers elements ∧ numberSet elements = value := by
  rw [ofNumbers, map_eq_ok_iff, ← checkNumbers_nil_iff]
  constructor
  · rintro ⟨⟨⟩, h, rfl⟩
    exact ⟨h, rfl⟩
  · rintro ⟨h, rfl⟩
    exact ⟨(), h, rfl⟩

theorem ofStrings_eq_ok_iff {elements : List String} {value : Value} :
    ofStrings elements = .ok value ↔ elements.Nodup ∧ stringSet elements = value := by
  have h := firstRepeat?_eq_none_iff [] elements
  rw [ofStrings]
  split
  · next hsome => rw [hsome] at h; simp_all [refuse]
  · next hnone => rw [hnone] at h; simp_all

theorem ofBinaries_eq_ok_iff {elements : List Bytes} {value : Value} :
    ofBinaries elements = .ok value ↔ elements.Nodup ∧ binarySet elements = value := by
  have h := firstRepeat?_eq_none_iff [] elements
  rw [ofBinaries]
  split
  · next hsome => rw [hsome] at h; simp_all [refuse]
  · next hnone => rw [hnone] at h; simp_all

/-- What one constructor makes is of one type, and has the parts from which it is made. -/
theorem find?_filterMap_map {α : Type} (make : α → Value) (part? : Value → Option α)
    {type : AttributeType} (htype : ∀ a, (make a).type = type)
    (hpart : ∀ a, part? (make a) = some a) (a : α) (elements : List α) :
    (make a :: elements.map make).find? (fun v => v.type ≠ (make a).type) = none ∧
      (make a :: elements.map make).filterMap part? = a :: elements := by
  rw [← List.map_cons]
  constructor
  · rw [List.find?_eq_none]
    intro v hv
    obtain ⟨b, -, rfl⟩ := List.mem_map.mp hv
    simp [htype]
  · rw [List.filterMap_map]
    have hsome : part? ∘ make = some := funext hpart
    rw [hsome, List.filterMap_some]

theorem setOf_eq_ok_of_isSetOf {items : List Value} {value : Value} (h : IsSetOf items value) :
    setOf items = .ok value := by
  cases h with
  | @numbers elements nonempty distinct =>
    cases elements with
    | nil => contradiction
    | cons a elements =>
      obtain ⟨huniform, hparts⟩ :=
        find?_filterMap_map number numberText? (fun _ => rfl) (fun _ => rfl) a elements
      simp only [List.map_cons, setOf, huniform, hparts]
      exact ofNumbers_eq_ok_iff.mpr ⟨distinct, rfl⟩
  | @strings elements nonempty distinct =>
    cases elements with
    | nil => contradiction
    | cons a elements =>
      obtain ⟨huniform, hparts⟩ :=
        find?_filterMap_map string stringText? (fun _ => rfl) (fun _ => rfl) a elements
      simp only [List.map_cons, setOf, huniform, hparts]
      exact ofStrings_eq_ok_iff.mpr ⟨distinct, rfl⟩
  | @binaries elements nonempty distinct =>
    cases elements with
    | nil => contradiction
    | cons a elements =>
      obtain ⟨huniform, hparts⟩ :=
        find?_filterMap_map binary binaryBytes? (fun _ => rfl) (fun _ => rfl) a elements
      simp only [List.map_cons, setOf, huniform, hparts]
      exact ofBinaries_eq_ok_iff.mpr ⟨distinct, rfl⟩

/-- Values of one scalar type are what their parts make. -/
theorem eq_map_of_type {α : Type} (make : α → Value) (part? : Value → Option α)
    (type : AttributeType) (h : ∀ v : Value, v.type = type → ∃ a, v = make a ∧ part? v = some a)
    {items : List Value} (ht : ∀ v ∈ items, v.type = type) :
    items = (items.filterMap part?).map make := by
  induction items with
  | nil => rfl
  | cons v items ih =>
    obtain ⟨a, rfl, ha⟩ := h v (ht v (by simp))
    rw [List.filterMap_cons_some ha, List.map_cons, ← ih fun w hw => ht w (by simp [hw])]

theorem isSetOf_of_setOf {items : List Value} {value : Value} (h : setOf items = .ok value) :
    IsSetOf items value := by
  unfold setOf at h
  split at h
  · simp [refuse] at h
  next first rest =>
  split at h
  · simp [refuse] at h
  next hscalar =>
  split at h
  · simp [refuse] at h
  next hnone =>
  have htype : ∀ v ∈ first :: rest, v.type = first.type := by
    intro v hv
    simpa using List.find?_eq_none.mp hnone v hv
  cases first with
  | number text =>
    obtain ⟨distinct, rfl⟩ := ofNumbers_eq_ok_iff.mp h
    have hitems := eq_map_of_type number numberText? .number
      (by intro v hv; cases v <;> cases hv; exact ⟨_, rfl, rfl⟩) htype
    have key := IsSetOf.numbers (by simp [numberText?]) distinct
    rwa [← hitems] at key
  | string text =>
    obtain ⟨distinct, rfl⟩ := ofStrings_eq_ok_iff.mp h
    have hitems := eq_map_of_type string stringText? .string
      (by intro v hv; cases v <;> cases hv; exact ⟨_, rfl, rfl⟩) htype
    have key := IsSetOf.strings (by simp [stringText?]) distinct
    rwa [← hitems] at key
  | binary bytes =>
    obtain ⟨distinct, rfl⟩ := ofBinaries_eq_ok_iff.mp h
    have hitems := eq_map_of_type binary binaryBytes? .binary
      (by intro v hv; cases v <;> cases hv; exact ⟨_, rfl, rfl⟩) htype
    have key := IsSetOf.binaries (by simp [binaryBytes?]) distinct
    rwa [← hitems] at key
  | _ => simp [type, AttributeType.isScalar] at hscalar

theorem setOf_eq_ok_iff {items : List Value} {value : Value} :
    setOf items = .ok value ↔ IsSetOf items value :=
  ⟨isSetOf_of_setOf, setOf_eq_ok_of_isSetOf⟩

end Value

end AttributeExpr
