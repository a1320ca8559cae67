import AttributeExpr.Proofs.Placeholder.Operation
/-!
What a table can be relied on for. After any operations, and behind all later ones, references count
the names and values without gaps, every reference stands for what it was given out for, and equal
values, but no others, have a reference in common.
-/
namespace AttributeExpr.TableOperation

open PlaceholderTable

/-- What holds of a table now and behind any later operations. -/
structure Reliable (table : PlaceholderTable) : Prop where
  /-- The names are numbered in their order, and they differ. -/
  name_refs : table.names.map (·.1) = (List.range table.names.length).map nameRef
  names_distinct : (table.names.map (·.2)).Nodup
  /-- The values are numbered in their order. -/
  value_refs : table.values.map (·.ref) = (List.range table.values.length).map valueRef
  /-- No operation changes or removes an entry, whether it succeeds or fails. -/
  entries_kept : ∀ operation : TableOperation, operation.Sound →
    table.names <+: (operation.after table).names ∧ table.values <+: (operation.after table).values
  /-- A name gets a reference, which stands for it and is its only one ever after. -/
  name_kept : ∀ name, ∃ ref table', (Compiling.nameRef name).run table = (.ok ref, table') ∧
    ∀ later : List TableOperation, (∀ operation ∈ later, operation.Sound) →
      (run table' later).nameAt? ref = some name ∧
        (Compiling.nameRef name).run (run table' later) = (.ok ref, run table' later)
  /-- The reference to a value stands ever after for a value that equals it, and another value has
  the same reference exactly if it is equal to it. -/
  value_kept : ∀ value ref table', value.Sound →
    (Compiling.valueRef value).run table = (.ok ref, table') →
    ∀ later : List TableOperation, (∀ operation ∈ later, operation.Sound) →
      (∃ wire decoded, (run table' later).wireAt? ref = some wire ∧
        Value.ofWire wire = .ok decoded ∧ Value.Equals decoded value) ∧
      ∀ value' ref' table'', value'.Sound →
        (Compiling.valueRef value').run (run table' later) = (.ok ref', table'') →
          (ref = ref' ↔ Value.Equals value value')
  /-- A value that cannot be referred to leaves no trace. -/
  failure_traceless : ∀ value failure table',
    (Compiling.valueRef value).run table = (.error failure, table') → table' = table

theorem run_coherent {table : PlaceholderTable} (h : table.Coherent fun _ => True)
    {operations : List TableOperation} (sound : ∀ operation ∈ operations, operation.Sound) :
    (run table operations).Coherent fun _ => True :=
  (run_grows table sound).coherent h

theorem name_kept_of_coherent {table : PlaceholderTable} (h : table.Coherent fun _ => True)
    (raw : String) :
    ∃ ref table', (Compiling.nameRef raw).run table = (.ok ref, table') ∧
      ∀ later : List TableOperation, (∀ operation ∈ later, operation.Sound) →
        (run table' later).nameAt? ref = some raw ∧
          (Compiling.nameRef raw).run (run table' later) = (.ok ref, run table' later) := by
  obtain ⟨ref, table', hrun, held⟩ := Compiling.nameRef_holds raw table
  refine ⟨ref, table', hrun, ?_⟩
  intro later sound
  have hcoherent := (Compiling.allocates_nameRef raw table).coherent h
  rw [hrun] at hcoherent
  have hlater := run_coherent hcoherent sound
  have held' := held.grows (run_grows table' sound)
  exact ⟨hlater.nameAt?_iff.mpr held', Compiling.nameRef_of_holds hlater held'⟩

theorem value_kept_of_coherent {table table' : PlaceholderTable} (h : table.Coherent fun _ => True)
    {literal : Value} {ref : String} (sound : literal.Sound)
    (hrun : (Compiling.valueRef literal).run table = (.ok ref, table'))
    {later : List TableOperation} (hlater : ∀ operation ∈ later, operation.Sound) :
    (∃ wire decoded, (run table' later).wireAt? ref = some wire ∧
      Value.ofWire wire = .ok decoded ∧ Value.Equals decoded literal) ∧
    ∀ literal' ref' table'', literal'.Sound →
      (Compiling.valueRef literal').run (run table' later) = (.ok ref', table'') →
        (ref = ref' ↔ Value.Equals literal literal') := by
  have hgrows := Compiling.allocates_valueRef sound table
  rw [hrun] at hgrows
  have hcoherent := run_coherent (hgrows.coherent h) hlater
  have held := (Compiling.valueRef_holds h sound hrun).grows (run_grows table' hlater)
  obtain ⟨wire, decoded, hwire, hdecoded, -, hequals⟩ := held.decodes hcoherent
  refine ⟨⟨wire, decoded, hwire, hdecoded, hequals⟩, ?_⟩
  intro literal' ref' table'' sound' hrun'
  have hgrows' := Compiling.allocates_valueRef sound' (run table' later)
  rw [hrun'] at hgrows'
  have held' := Compiling.valueRef_holds hcoherent sound' hrun'
  exact (held.grows hgrows').ref_eq_iff (hgrows'.coherent hcoherent) sound sound' held'

/-- After any operations on an empty table, some of which may have failed, the table can be relied
on. -/
theorem run_reliable {operations : List TableOperation}
    (sound : ∀ operation ∈ operations, operation.Sound) :
    Reliable (run PlaceholderTable.empty operations) := by
  have h := run_coherent (coherent_empty _) sound
  refine ⟨h.name_refs, h.distinct, h.value_refs, ?_, ?_, ?_, ?_⟩
  · exact fun operation hoperation => (after_grows _ hoperation).kept
  · exact fun name => name_kept_of_coherent h name
  · exact fun value ref table' hvalue hrun later hlater =>
      value_kept_of_coherent h hvalue hrun hlater
  · exact fun value failure table' hrun => Compiling.valueRef_error hrun

/-- One of the operations fails, since its number is out of range. -/
theorem run_reliable_failing :
    Reliable (run PlaceholderTable.empty
      [.name "b", .value (.number "1e999"), .formula (.literal (.stringSet ["b"]))]) := by
  refine run_reliable ?_
  simp [Sound, values, Formula.literals, Value.WellFormed.number, Value.WellFormed.stringSet]

end AttributeExpr.TableOperation
