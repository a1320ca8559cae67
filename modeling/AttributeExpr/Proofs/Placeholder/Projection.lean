import AttributeExpr.Proofs.Placeholder.Operation
import AttributeExpr.Proofs.Placeholder.ReadingOrder
import Mathlib
/-!
What a projection names. The references of a table stand for different names, whatever has been done
with the table before. So the references that a projection keeps are those of the names that it is
asked for, each at its first place.
-/
namespace AttributeExpr

section

variable {α β : Type} [DecidableEq α] [DecidableEq β]

theorem dropRepeats_eq_eraseDups (seen as : List α) :
    dropRepeats seen as = (as.filter (· ∉ seen)).eraseDups := by
  induction as generalizing seen with
  | nil => rfl
  | cons a as ih =>
    rw [dropRepeats]
    split_ifs with ha
    · rw [ih, List.filter_cons_of_neg (by simpa using ha)]
    · have hfilter : as.filter (· ∉ a :: seen) = (as.filter (· ∉ seen)).filter (!· == a) := by
        rw [List.filter_filter]
        apply List.filter_congr
        intro b _
        rw [Bool.eq_iff_iff]
        simp [not_or]
      rw [ih, hfilter, List.filter_cons_of_pos (by simpa using ha), List.eraseDups_cons]

theorem nodup_dropRepeats (seen as : List α) : (dropRepeats seen as).Nodup := by
  induction as generalizing seen with
  | nil => exact List.nodup_nil
  | cons a as ih =>
    rw [dropRepeats]
    split_ifs
    · exact ih seen
    · refine List.nodup_cons.mpr ⟨fun hmem => ?_, ih _⟩
      exact (mem_dropRepeats.mp hmem).2 List.mem_cons_self

/-- Where each member has one counterpart only, the counterparts are repeated where the members
are. -/
theorem forall₂_dropRepeats {R : α → β → Prop} (unique : Relator.BiUnique R) {as seen : List α}
    {bs seen' : List β} (h : List.Forall₂ R as bs) (hseen : List.Forall₂ R seen seen') :
    List.Forall₂ R (dropRepeats seen as) (dropRepeats seen' bs) := by
  induction h generalizing seen seen' with
  | nil => exact .nil
  | @cons a b as bs hab _ ih =>
    have hmem : a ∈ seen ↔ b ∈ seen' := List.rel_mem unique hab hseen
    rw [dropRepeats, dropRepeats]
    by_cases ha : a ∈ seen
    · rw [if_pos ha, if_pos (hmem.mp ha)]
      exact ih hseen
    · rw [if_neg ha, if_neg (hmem.not.mp ha)]
      exact .cons hab (ih (.cons hab hseen))

end

namespace PlaceholderTable

variable {table : PlaceholderTable} {name ref : String}

theorem numbered_empty : empty.Numbered := (coherent_empty fun _ => True).numbered

theorem Numbered.biUnique (h : table.Numbered) : Relator.BiUnique table.HoldsName := by
  constructor
  · exact fun _ _ _ held held' => Dictionary.eq_of_mem h.nodup_refs held held'
  · intro _ _ _ held held'
    exact (Prod.mk.inj (List.inj_on_of_nodup_map h.distinct held held' rfl)).1

/-- A name is held under one of the references that are counted. -/
theorem HoldsName.eq_nameRef (h : table.Numbered) (held : table.HoldsName name ref) :
    ∃ n, ref = nameRef n := by
  have hmem : ref ∈ table.names.map (·.1) := List.mem_map.mpr ⟨_, held, rfl⟩
  rw [h.refs] at hmem
  obtain ⟨n, -, hn⟩ := List.mem_map.mp hmem
  exact ⟨n, hn.symm⟩

theorem HoldsName.nameAt? (h : table.Numbered) (held : table.HoldsName name ref) :
    table.nameAt? ref = some name :=
  (Dictionary.get?_eq_some_iff h.nodup_refs).mpr held

end PlaceholderTable

namespace Compiling

open PlaceholderTable

variable {α : Type} {suits : Value → Prop} {p : Failure → Prop} {steps : Compiling α}

/-- Steps of any kind leave the names numbered, whatever the values are. -/
theorem Composed.numbered (h : Composed suits p steps) {table : PlaceholderTable}
    (numbered : table.Numbered) : (steps.run table).2.Numbered := by
  induction h generalizing table with
  | done | fail | compiled => exact numbered
  | name name =>
    rw [run_nameRef]
    split
    · exact numbered
    · next fresh => exact numbered.addName fresh
  | value =>
    rw [run_valueRef]
    split
    · exact numbered
    split
    · exact numbered
    split
    · exact numbered
    · exact ⟨numbered.refs, numbered.distinct⟩
  | @outcome _ _ outcome _ _ _ ih =>
    rw [run_bind, run_ofExcept]
    cases houtcome : outcome with
    | error failure => exact numbered
    | ok a => exact ih a houtcome numbered
  | @bind _ _ steps _ _ _ ih ih' =>
    have hsteps := ih numbered
    rw [run_bind]
    split
    · next a between hrun =>
      rw [hrun] at hsteps
      exact ih' a hsteps
    · next failure between hrun =>
      rw [hrun] at hsteps
      exact hsteps

theorem allocates_mapM_nameRef (names : List String) :
    Allocates (fun _ => True) (names.mapM nameRef) :=
  (@composed_mapM _ _ (·.Sound) (fun _ => True) names nameRef fun name _ => .name name).allocates

/-- The references to several names. -/
theorem mapM_nameRef_holds (names : List String) (table : PlaceholderTable) :
    ∃ refs table', (names.mapM nameRef).run table = (.ok refs, table') ∧
      List.Forall₂ table'.HoldsName names refs := by
  induction names generalizing table with
  | nil => exact ⟨[], table, rfl, .nil⟩
  | cons name names ih =>
    obtain ⟨ref, between, hname, held⟩ := nameRef_holds name table
    obtain ⟨refs, table', hnames, hrefs⟩ := ih between
    have hgrows := allocates_mapM_nameRef names between
    rw [hnames] at hgrows
    refine ⟨ref :: refs, table', ?_, .cons (held.grows hgrows) hrefs⟩
    rw [List.mapM_cons, run_bind_of_ok hname, run_bind_of_ok hnames]
    rfl

end Compiling

namespace TableOperation

open Compiling

theorem after_numbered {table : PlaceholderTable} (h : table.Numbered)
    (operation : TableOperation) : (operation.after table).Numbered := by
  -- No value is excluded, and no failure.
  have any {α : Type} {steps : Compiling α}
      (composed : Composed (fun _ => True) (fun _ => True) steps) :
      (steps.run table).2.Numbered := composed.numbered h
  cases operation with
  | name raw => exact any (.name raw)
  | value literal => exact any (.value trivial)
  | path operand => exact any (composed_path (fun _ => trivial) operand)
  | formula operand => exact any (composed_formula (fun _ => trivial) fun _ _ => trivial)
  | update clause keys actions =>
    exact any (composed_update (fun _ => trivial) clause keys fun _ _ _ _ => trivial)
  | sortCondition key condition => exact any (composed_sortCondition key fun _ _ => trivial)
  | keyCondition strict schema partition sort =>
    have hcomposed := @composed_keyCondition (fun _ => True) (fun _ => trivial) strict schema
      partition sort (fun _ _ => trivial) fun _ _ _ _ => trivial
    exact hcomposed.numbered h
  | projection keysOnly schema attributes =>
    exact any (composed_projection keysOnly schema attributes)

/-- After any operations, some of which may have failed, the names are numbered. -/
theorem run_numbered {table : PlaceholderTable} (h : table.Numbered)
    (operations : List TableOperation) : (run table operations).Numbered :=
  List.foldlRecOn (motive := PlaceholderTable.Numbered) operations _ h
    fun _ htable operation _ => after_numbered htable operation

end TableOperation

/-- The names that a projection returns: those of the key, and then those asked for beside it. -/
def requestedNames (keysOnly : Bool) (schema : KeySchema) (attributes : Option (List String)) :
    List String :=
  (schema.attributes ++
    if keysOnly then [] else ((attributes.getD []).map trimString).filter (· ≠ "")).eraseDups

/-- The names of the key need not be left out beforehand. -/
theorem eraseDups_projectedNames (schema : KeySchema) (attributes : List String) :
    (schema.attributes ++ projectedNames schema attributes).eraseDups =
      (schema.attributes ++ (attributes.map trimString).filter (· ≠ "")).eraseDups := by
  have hfilter : (projectedNames schema attributes).removeAll schema.attributes =
      ((attributes.map trimString).filter (· ≠ "")).removeAll schema.attributes := by
    unfold projectedNames List.removeAll
    rw [List.filter_filter, List.filter_filter]
    apply List.filter_congr
    intro name _
    rw [Bool.eq_iff_iff]
    simp
    tauto
  rw [List.eraseDups_append, List.eraseDups_append, hfilter]

theorem dropRepeats_names (keysOnly : Bool) (schema : KeySchema)
    (attributes : Option (List String)) :
    dropRepeats [] (schema.attributes ++
      if keysOnly then [] else projectedNames schema (attributes.getD [])) =
        requestedNames keysOnly schema attributes := by
  rw [dropRepeats_eq_eraseDups, requestedNames]
  cases keysOnly with
  | true => simp
  | false => simpa using eraseDups_projectedNames schema (attributes.getD [])

theorem run_compileProjection {keysOnly : Bool} {schema : KeySchema}
    {attributes : Option (List String)} (h : ¬ (keysOnly = false ∧ attributes = none))
    (table : PlaceholderTable) :
    ∃ refs table', (compileProjection keysOnly schema attributes).run table =
        (.ok (some (table'.compiled (", ".intercalate (dropRepeats [] refs)))), table') ∧
      List.Forall₂ table'.HoldsName (schema.attributes ++
        if keysOnly then [] else projectedNames schema (attributes.getD [])) refs := by
  obtain ⟨refs, table', hrun, hrefs⟩ := Compiling.mapM_nameRef_holds (schema.attributes ++
    if keysOnly then [] else projectedNames schema (attributes.getD [])) table
  refine ⟨refs, table', ?_, hrefs⟩
  have hasked : ¬ (!keysOnly && attributes.isNone) = true := by simpa using h
  rw [compileProjection, if_neg hasked]
  dsimp only
  rw [Compiling.run_bind_of_ok hrun]
  rfl

/-- On whatever table it is compiled, a projection refers to the names asked for, each of them once
and where it stands first. -/
theorem compileProjection_names (operations : List TableOperation) (keysOnly : Bool)
    (schema : KeySchema) (attributes : Option (List String)) :
    ∃ projection table,
      (compileProjection keysOnly schema attributes).run
        (TableOperation.run PlaceholderTable.empty operations) = (.ok projection, table) ∧
      (projection = none ↔ keysOnly = false ∧ attributes = none) ∧
      ∀ compiled ∈ projection, ∃ refs,
        compiled.expression = ", ".intercalate refs ∧
        (∀ ref ∈ refs, ∃ n, ref = PlaceholderTable.nameRef n) ∧
        refs.map (Dictionary.get? compiled.names) =
          (requestedNames keysOnly schema attributes).map some ∧
        (requestedNames keysOnly schema attributes).Nodup ∧
        schema.attributes ⊆ requestedNames keysOnly schema attributes := by
  by_cases hasked : keysOnly = false ∧ attributes = none
  · obtain ⟨rfl, rfl⟩ := hasked
    exact ⟨none, _, rfl, by simp, by simp⟩
  obtain ⟨refs, table, hrun, hrefs⟩ := run_compileProjection hasked
    (TableOperation.run PlaceholderTable.empty operations)
  have hnumbered : table.Numbered := by
    have hafter := TableOperation.after_numbered
      (TableOperation.run_numbered PlaceholderTable.numbered_empty operations)
      (.projection keysOnly schema attributes)
    rwa [TableOperation.after, hrun] at hafter
  refine ⟨_, table, hrun, by simp [hasked], ?_⟩
  rintro compiled ⟨⟩
  have hnames := dropRepeats_names keysOnly schema attributes
  have hkept := forall₂_dropRepeats hnumbered.biUnique hrefs .nil
  rw [hnames] at hkept
  refine ⟨dropRepeats [] refs, rfl, ?_, ?_, ?_, ?_⟩
  · intro ref href
    obtain ⟨name, -, held⟩ := exists_of_mem_forall₂ hkept.flip href
    exact PlaceholderTable.HoldsName.eq_nameRef hnumbered held
  · rw [← List.forall₂_eq_eq_eq, List.forall₂_map_left_iff, List.forall₂_map_right_iff]
    exact hkept.flip.imp fun _ _ held => PlaceholderTable.HoldsName.nameAt? hnumbered held
  · rw [← hnames]
    exact nodup_dropRepeats [] _
  · intro name hname
    exact List.mem_eraseDups.mpr (List.mem_append_left _ hname)

/-- The table holds one of the names already. Of the attributes, one has blanks, one is empty, one
is repeated and one belongs to the key. -/
theorem compileProjection_names_filled :
    let schema : KeySchema := ⟨⟨"pk", .string⟩, some ⟨"sk", .number⟩⟩
    let attributes := some [" b ", "sk", "", "a", "b"]
    let compiled : CompiledExpression :=
      ⟨"#p1, #p2, #p0, #p3", [("#p0", "b"), ("#p1", "pk"), ("#p2", "sk"), ("#p3", "a")], []⟩
    ∃ table, (compileProjection false schema attributes).run
        (TableOperation.run PlaceholderTable.empty [.name "b"]) = (.ok (some compiled), table) ∧
      requestedNames false schema attributes = ["pk", "sk", "b", "a"] ∧
      ∃ refs, compiled.expression = ", ".intercalate refs ∧
        refs.map (Dictionary.get? compiled.names) =
          (requestedNames false schema attributes).map some := by
  intro schema attributes compiled
  obtain ⟨projection, table, hrun, -, hnames⟩ :=
    compileProjection_names [.name "b"] false schema attributes
  have hcompiled : (compileProjection false schema attributes).run
      (TableOperation.run PlaceholderTable.empty [.name "b"]) =
        (.ok (some compiled), ⟨compiled.names, []⟩) := by cbv
  obtain ⟨hsome, rfl⟩ := Prod.mk.inj (hrun.symm.trans hcompiled)
  obtain ⟨refs, hexpression, -, hrefs, -, -⟩ := hnames compiled (Except.ok.inj hsome ▸ rfl)
  exact ⟨_, hcompiled, rfl, refs, hexpression, hrefs⟩

end AttributeExpr
