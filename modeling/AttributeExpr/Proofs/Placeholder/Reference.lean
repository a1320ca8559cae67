import AttributeExpr.Proofs.Placeholder.Compiling
import AttributeExpr.Proofs.Value.WireRoundTrip
/-!
References. On a coherent table a name or a value has the reference of the only entry for it, in
this table and in every table that it grows into.
-/
namespace AttributeExpr.PlaceholderTable

variable {numeral : String → Prop} {table table' : PlaceholderTable} {ref ref' name : String}
  {value value' : Value}

theorem Coherent.nodup_names (h : Coherent numeral table) : (table.names.map (·.1)).Nodup :=
  h.numbered.nodup_refs

theorem Coherent.nodup_values (h : Coherent numeral table) : (table.values.map (·.ref)).Nodup := by
  rw [h.value_refs]
  exact List.nodup_range.map valueRef_injective

/-- The name that a reference stands for. -/
def nameAt? (table : PlaceholderTable) (ref : String) : Option String :=
  Dictionary.get? table.names ref

/-- The encoded value that a reference stands for. -/
def wireAt? (table : PlaceholderTable) (ref : String) : Option Json :=
  Dictionary.get? (table.values.map fun entry => (entry.ref, entry.wire)) ref

theorem Coherent.nameAt?_iff (h : Coherent numeral table) :
    table.nameAt? ref = some name ↔ (ref, name) ∈ table.names :=
  Dictionary.get?_eq_some_iff h.nodup_names

theorem Coherent.wireAt?_of_mem (h : Coherent numeral table) {entry : ValueEntry}
    (hentry : entry ∈ table.values) : table.wireAt? entry.ref = some entry.wire := by
  have hkeys : ((table.values.map fun entry => (entry.ref, entry.wire)).map (·.1)).Nodup := by
    simpa [Function.comp_def] using h.nodup_values
  exact (Dictionary.get?_eq_some_iff hkeys).mpr (List.mem_map_of_mem hentry)

theorem Coherent.eq_of_ref (h : Coherent numeral table) {entry entry' : ValueEntry}
    (hentry : entry ∈ table.values) (hentry' : entry' ∈ table.values)
    (href : entry.ref = entry'.ref) : entry = entry' :=
  List.inj_on_of_nodup_map h.nodup_values hentry hentry' href

/-- Different entries hold different values. -/
theorem Coherent.eq_of_equals (h : Coherent numeral table) {entry entry' : ValueEntry}
    (hentry : entry ∈ table.values) (hentry' : entry' ∈ table.values)
    (hequals : Value.Equals entry.value entry'.value) : entry = entry' := by
  have hsymm := hequals.symm (h.sound entry hentry) (h.sound entry' hentry')
  obtain ⟨i, hi, rfl⟩ := List.getElem_of_mem hentry
  obtain ⟨j, hj, rfl⟩ := List.getElem_of_mem hentry'
  have hapart := List.pairwise_iff_getElem.mp h.apart
  rcases lt_trichotomy i j with hij | rfl | hji
  · exact absurd hequals (hapart i j hi hj hij)
  · rfl
  · exact absurd hsymm (hapart j i hj hi hji)

/-- The table refers to the name by the reference. -/
def HoldsName (table : PlaceholderTable) (name ref : String) : Prop := (ref, name) ∈ table.names

/-- The table refers by the reference to a value that equals the given one. -/
def HoldsValue (table : PlaceholderTable) (value : Value) (ref : String) : Prop :=
  ∃ entry ∈ table.values, entry.ref = ref ∧ Value.Equals entry.value value

theorem HoldsName.grows (held : table.HoldsName name ref) (grows : Grows numeral table table') :
    table'.HoldsName name ref :=
  grows.kept.1.subset held

theorem HoldsValue.grows (held : table.HoldsValue value ref) (grows : Grows numeral table table') :
    table'.HoldsValue value ref := by
  obtain ⟨entry, hentry, h⟩ := held
  exact ⟨entry, grows.kept.2.subset hentry, h⟩

theorem HoldsName.nameRef? (h : Coherent numeral table) (held : table.HoldsName name ref) :
    table.nameRef? name = some ref := by
  have hsome : (table.names.find? (·.2 == name)).isSome = true :=
    List.find?_isSome.mpr ⟨_, held, by simp⟩
  obtain ⟨entry, hentry⟩ := Option.isSome_iff_exists.mp hsome
  have hname : entry.2 = name := by simpa using List.find?_some hentry
  have heq : entry = (ref, name) :=
    List.inj_on_of_nodup_map h.distinct (List.mem_of_find?_eq_some hentry) held hname
  simp [PlaceholderTable.nameRef?, hentry, heq]

theorem holdsName_of_nameRef? (h : table.nameRef? name = some ref) : table.HoldsName name ref := by
  obtain ⟨entry, hentry, rfl⟩ := Option.map_eq_some_iff.mp h
  have hname : entry.2 = name := by simpa using List.find?_some hentry
  rw [← hname]
  exact List.mem_of_find?_eq_some hentry

theorem holdsValue_of_valueRef? (h : Coherent numeral table) (sound : value.WellFormed numeral)
    (hsome : table.valueRef? value = some ref) : table.HoldsValue value ref := by
  obtain ⟨entry, hentry, rfl⟩ := Option.map_eq_some_iff.mp hsome
  have hmem := List.mem_of_find?_eq_some hentry
  have hshares := List.find?_some hentry
  exact ⟨entry, hmem, rfl, (Value.shares_iff (h.sound entry hmem) sound).mp hshares⟩

/-- The encoded value is decoded as a value that equals the one referred to. -/
theorem HoldsValue.decodes (h : Coherent numeral table) (held : table.HoldsValue value ref) :
    ∃ wire decoded, table.wireAt? ref = some wire ∧ Value.ofWire wire = .ok decoded ∧
      decoded.WellFormed numeral ∧ Value.Equals decoded value := by
  obtain ⟨entry, hentry, rfl, hequals⟩ := held
  have hwire := Value.encode_eq_ok_iff.mp (h.encodes entry hentry)
  have hdecodes := (h.sound entry hentry).decodesTo hwire
  exact ⟨entry.wire, entry.value, h.wireAt?_of_mem hentry, hdecodes.ofWire, h.sound entry hentry,
    hequals⟩

/-- Two values have the same reference exactly if they are equal. -/
theorem HoldsValue.ref_eq_iff (h : Coherent numeral table) (sound : value.WellFormed numeral)
    (sound' : value'.WellFormed numeral) (held : table.HoldsValue value ref)
    (held' : table.HoldsValue value' ref') : ref = ref' ↔ Value.Equals value value' := by
  obtain ⟨entry, hentry, rfl, hequals⟩ := held
  obtain ⟨entry', hentry', rfl, hequals'⟩ := held'
  have hs := h.sound entry hentry
  have hs' := h.sound entry' hentry'
  constructor
  · intro href
    obtain rfl := h.eq_of_ref hentry hentry' href
    exact (hequals.symm hs sound).trans sound hs sound' hequals'
  · intro heq
    have hvalue := hequals.trans hs sound sound' heq
    have hentries := hvalue.trans hs sound' hs' (hequals'.symm hs' sound')
    rw [h.eq_of_equals hentry hentry' hentries]

end AttributeExpr.PlaceholderTable

namespace AttributeExpr.Compiling

open PlaceholderTable

variable {numeral : String → Prop} {table table' : PlaceholderTable} {ref name : String}
  {value : Value}

/-- A name always gets a reference. -/
theorem nameRef_holds (name : String) (table : PlaceholderTable) :
    ∃ ref table', (nameRef name).run table = (.ok ref, table') ∧ table'.HoldsName name ref := by
  rw [run_nameRef]
  split
  · next ref hsome => exact ⟨ref, table, rfl, holdsName_of_nameRef? hsome⟩
  · exact ⟨_, _, rfl, by simp [HoldsName, addName]⟩

/-- A name that has a reference keeps it, and the table is not touched. -/
theorem nameRef_of_holds (h : Coherent numeral table) (held : table.HoldsName name ref) :
    (nameRef name).run table = (.ok ref, table) := by
  rw [run_nameRef, held.nameRef? h]

theorem valueRef_holds (h : Coherent numeral table) (sound : value.WellFormed numeral)
    (hrun : (valueRef value).run table = (.ok ref, table')) : table'.HoldsValue value ref := by
  rw [run_valueRef] at hrun
  split at hrun
  · cases hrun
  split at hrun
  · next hsome =>
    cases hrun
    exact holdsValue_of_valueRef? h sound hsome
  · split at hrun
    · cases hrun
    · next wire hwire =>
      cases hrun
      have hself := sound.equals_self (Value.encode_eq_ok_iff.mp hwire)
      exact ⟨⟨_, value, wire⟩, by simp [addValue], rfl, hself⟩

end AttributeExpr.Compiling
