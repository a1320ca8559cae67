import AttributeExpr.Placeholder
import AttributeExpr.Proofs.Text.Digits
import AttributeExpr.Proofs.Value.Wire
/-!
The table of placeholders. A table grows by one name or one value at a time, each of them new to it.
Whatever is allocated this way is numbered without gaps, nothing in the table is changed, and no two
of its names or values are equal.
-/
namespace AttributeExpr

namespace PlaceholderTable

/-- One more name or value, which the table does not hold yet. -/
inductive Step (numeral : String → Prop) : PlaceholderTable → PlaceholderTable → Prop where
  | name {table : PlaceholderTable} {name : String} (fresh : table.nameRef? name = none) :
      Step numeral table (table.addName name).2
  | value {table : PlaceholderTable} {value : Value} {wire : Json}
      (sound : value.WellFormed numeral) (fresh : table.valueRef? value = none)
      (encodes : value.encode = .ok wire) : Step numeral table (table.addValue value wire).2

/-- Any number of further names and values. -/
abbrev Grows (numeral : String → Prop) : PlaceholderTable → PlaceholderTable → Prop :=
  Relation.ReflTransGen (Step numeral)

/-- References count the names and the values, which are pairwise different. -/
structure Coherent (numeral : String → Prop) (table : PlaceholderTable) : Prop where
  name_refs : table.names.map (·.1) = (List.range table.names.length).map nameRef
  distinct : (table.names.map (·.2)).Nodup
  value_refs : table.values.map (·.ref) = (List.range table.values.length).map valueRef
  sound : ∀ entry ∈ table.values, entry.value.WellFormed numeral
  encodes : ∀ entry ∈ table.values, entry.value.encode = .ok entry.wire
  apart : table.values.Pairwise fun a b => ¬ Value.Equals a.value b.value

theorem coherent_empty (numeral : String → Prop) : Coherent numeral empty where
  name_refs := rfl
  distinct := by simp [empty]
  value_refs := rfl
  sound := by simp [empty]
  encodes := by simp [empty]
  apart := by simp [empty]

theorem nameRef_injective : Function.Injective nameRef := by
  intro m n h
  have hrepr : toString m = toString n := by simpa [nameRef] using h
  exact Decimal.toString_injective hrepr

theorem valueRef_injective : Function.Injective valueRef := by
  intro m n h
  have hrepr : toString m = toString n := by simpa [valueRef] using h
  exact Decimal.toString_injective hrepr

variable {numeral : String → Prop} {table table' : PlaceholderTable}

theorem nameRef?_eq_none {name : String} (h : table.nameRef? name = none) :
    name ∉ table.names.map (·.2) := by
  simp only [nameRef?, Option.map_eq_none_iff, List.find?_eq_none, beq_iff_eq] at h
  intro hmem
  obtain ⟨entry, hentry, rfl⟩ := List.mem_map.mp hmem
  exact h entry hentry rfl

/-- The references count the names, which differ. -/
structure Numbered (table : PlaceholderTable) : Prop where
  refs : table.names.map (·.1) = (List.range table.names.length).map nameRef
  distinct : (table.names.map (·.2)).Nodup

theorem Coherent.numbered (h : Coherent numeral table) : table.Numbered := ⟨h.name_refs, h.distinct⟩

theorem Numbered.nodup_refs (h : table.Numbered) : (table.names.map (·.1)).Nodup := by
  rw [h.refs]
  exact List.nodup_range.map nameRef_injective

theorem Numbered.addName (h : table.Numbered) {name : String} (fresh : table.nameRef? name = none) :
    (table.addName name).2.Numbered := by
  constructor
  · simp [PlaceholderTable.addName, h.refs, List.range_succ]
  · have hnew := nameRef?_eq_none fresh
    rw [PlaceholderTable.addName, List.map_append, List.nodup_append]
    refine ⟨h.distinct, by simp, ?_⟩
    rintro raw hraw _ hname rfl
    obtain rfl : raw = name := by simpa using hname
    exact hnew hraw

theorem valueRef?_eq_none (h : Coherent numeral table) {value : Value}
    (sound : value.WellFormed numeral) (hnone : table.valueRef? value = none) :
    ∀ entry ∈ table.values, ¬ Value.Equals entry.value value := by
  simp only [valueRef?, Option.map_eq_none_iff, List.find?_eq_none] at hnone
  intro entry hentry hequals
  exact hnone entry hentry ((Value.shares_iff (h.sound entry hentry) sound).mpr hequals)

/-- Each step keeps the table coherent. -/
theorem Step.coherent (h : Coherent numeral table) (step : Step numeral table table') :
    Coherent numeral table' := by
  cases step with
  | @name name fresh =>
    have hnumbered := h.numbered.addName fresh
    exact ⟨hnumbered.refs, hnumbered.distinct, h.value_refs, h.sound, h.encodes, h.apart⟩
  | @value value wire sound fresh encodes =>
    have hnew := valueRef?_eq_none h sound fresh
    refine ⟨h.name_refs, h.distinct, ?_, ?_, ?_, ?_⟩
    · simp [addValue, h.value_refs, List.range_succ]
    · simp only [addValue, List.forall_mem_append, List.forall_mem_singleton]
      exact ⟨h.sound, sound⟩
    · simp only [addValue, List.forall_mem_append, List.forall_mem_singleton]
      exact ⟨h.encodes, encodes⟩
    · simp only [addValue, List.pairwise_append, List.forall_mem_singleton]
      exact ⟨h.apart, by simp, hnew⟩

theorem Grows.coherent (h : Coherent numeral table) (grows : Grows numeral table table') :
    Coherent numeral table' := by
  induction grows with
  | refl => exact h
  | tail _ step ih => exact step.coherent ih

/-- Nothing in the table is changed or removed. -/
theorem Grows.kept (grows : Grows numeral table table') :
    table.names <+: table'.names ∧ table.values <+: table'.values := by
  induction grows with
  | refl => exact ⟨List.prefix_rfl, List.prefix_rfl⟩
  | tail _ step ih =>
    cases step with
    | name => exact ⟨ih.1.trans (List.prefix_append _ _), ih.2⟩
    | value => exact ⟨ih.1, ih.2.trans (List.prefix_append _ _)⟩

end PlaceholderTable

end AttributeExpr
