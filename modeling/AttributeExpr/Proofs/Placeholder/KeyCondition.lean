import AttributeExpr.Proofs.Placeholder.Expansion
import AttributeExpr.Proofs.Placeholder.Shape
import AttributeExpr.Proofs.Update.Written
import Mathlib
/-!
Compiling key conditions loses nothing. A compiled request is a list of words between single spaces,
and no two forms of a condition have as many words. Once the words are told apart, every reference
among them is looked up in the table that travels along, and stands for one name or one value.
-/
namespace AttributeExpr

/-- Equality does not identify different scalars. -/
theorem Value.Equals.eq_of_isScalar {value value' : Value} (h : Equals value value')
    (scalar : value'.IsScalar) : value = value' := by
  cases value' with
  | number | string | binary =>
    cases h.parts
    rfl
  | _ => contradiction

namespace PlaceholderTable

variable {numeral : String → Prop} {table table' : PlaceholderTable} {ref name name' : String}
  {value value' : Value}

/-- Tables that look a reference up as the same name refer to that name only by it. -/
theorem HoldsName.unique (h : Coherent numeral table) (h' : Coherent numeral table')
    (same : table.nameAt? ref = table'.nameAt? ref) (held : table.HoldsName name ref)
    (held' : table'.HoldsName name' ref) : name = name' := by
  rw [h.nameAt?_iff.mpr held, h'.nameAt?_iff.mpr held'] at same
  exact Option.some.inj same

/-- Tables that look a reference up as the same encoded value refer to one scalar only by it. -/
theorem HoldsValue.unique (h : Coherent numeral table) (h' : Coherent numeral table')
    (same : table.wireAt? ref = table'.wireAt? ref) (scalar : value.IsScalar)
    (scalar' : value'.IsScalar) (held : table.HoldsValue value ref)
    (held' : table'.HoldsValue value' ref) : value = value' := by
  obtain ⟨wire, decoded, hwire, hdecoded, -, hequals⟩ := held.decodes h
  obtain ⟨wire', decoded', hwire', hdecoded', -, hequals'⟩ := held'.decodes h'
  obtain rfl := Option.some.inj (hwire.symm.trans (same.trans hwire'))
  obtain rfl := Except.ok.inj (hdecoded.symm.trans hdecoded')
  exact (hequals.eq_of_isScalar scalar).symm.trans (hequals'.eq_of_isScalar scalar')

/-- Both tables look every reference up as the same name and as the same encoded value. -/
structure SameLookup (table table' : PlaceholderTable) : Prop where
  names : ∀ ref, table.nameAt? ref = table'.nameAt? ref
  values : ∀ ref, table.wireAt? ref = table'.wireAt? ref

end PlaceholderTable

open PlaceholderTable (Coherent SameLookup)

/-! The words of a compiled request. -/

/-- How a condition on a sort key is written with references into a table, word by word. -/
inductive SortCondition.Written (table : PlaceholderTable) (key : String) :
    SortCondition → List String → Prop where
  | compare {comparison : Comparison} {value : Value} {name ref : String}
      (named : table.HoldsName key name) (held : table.HoldsValue value ref) :
      Written table key (.compare comparison value) [name, comparison.text, ref]
  | between {low high : Value} {name ref ref' : String} (named : table.HoldsName key name)
      (held : table.HoldsValue low ref) (held' : table.HoldsValue high ref') :
      Written table key (.between low high) [name, "BETWEEN", ref, "AND", ref']
  | beginsWith {start : Value} {name ref : String} (named : table.HoldsName key name)
      (held : table.HoldsValue start ref) :
      Written table key (.beginsWith start) ["begins_with(" ++ name ++ ",", ref ++ ")"]

/-- How a request is written, of which the names, the values and the condition are given. -/
inductive WrittenRequest (table : PlaceholderTable) :
    List String → List Value → Option SortCondition → List String → Prop where
  | partition {key name ref : String} {value : Value} (named : table.HoldsName key name)
      (held : table.HoldsValue value ref) : WrittenRequest table [key] [value] none [name, "=", ref]
  | sort {key key' name ref : String} {value : Value} {condition : SortCondition}
      {words : List String} (named : table.HoldsName key name) (held : table.HoldsValue value ref)
      (written : condition.Written table key' words) :
      WrittenRequest table [key, key'] (value :: condition.operands) (some condition)
        (name :: "=" :: ref :: "AND" :: words)

theorem Comparison.text_injective {comparison comparison' : Comparison}
    (h : comparison.text = comparison'.text) : comparison = comparison' := by
  cases comparison <;> cases comparison' <;> first | rfl | (simp [Comparison.text] at h)

section

variable {numeral : String → Prop} {table table' : PlaceholderTable} {words words' : List String}

/-- The words determine the condition. Each form has a number of words of its own. -/
theorem SortCondition.Written.unique {key key' : String} {condition condition' : SortCondition}
    (h : Coherent numeral table) (h' : Coherent numeral table') (same : SameLookup table table')
    (scalar : condition.Scalar) (scalar' : condition'.Scalar)
    (written : condition.Written table key words)
    (written' : condition'.Written table' key' words') (hwords : words = words') :
    key = key' ∧ condition = condition' := by
  cases written with
  | compare named held =>
    cases written' with
    | compare named' held' =>
      obtain ⟨rfl, htext, rfl⟩ : _ ∧ _ ∧ _ := by simpa using hwords
      obtain rfl := Comparison.text_injective htext
      obtain rfl := held.unique h h' (same.values _) (forall_operands_compare.mp scalar)
        (forall_operands_compare.mp scalar') held'
      exact ⟨named.unique h h' (same.names _) named', rfl⟩
    | between => simp at hwords
    | beginsWith => simp at hwords
  | between named low high =>
    cases written' with
    | between named' low' high' =>
      obtain ⟨hlow, hhigh⟩ := forall_operands_between.mp scalar
      obtain ⟨hlow', hhigh'⟩ := forall_operands_between.mp scalar'
      obtain ⟨rfl, rfl, rfl⟩ : _ ∧ _ ∧ _ := by simpa using hwords
      obtain rfl := low.unique h h' (same.values _) hlow hlow' low'
      obtain rfl := high.unique h h' (same.values _) hhigh hhigh' high'
      exact ⟨named.unique h h' (same.names _) named', rfl⟩
    | compare => simp at hwords
    | beginsWith => simp at hwords
  | beginsWith named held =>
    cases written' with
    | beginsWith named' held' =>
      obtain ⟨rfl, rfl⟩ : _ ∧ _ := by simpa using hwords
      obtain rfl := held.unique h h' (same.values _) (forall_operands_beginsWith.mp scalar)
        (forall_operands_beginsWith.mp scalar') held'
      exact ⟨named.unique h h' (same.names _) named', rfl⟩
    | compare => simp at hwords
    | between => simp at hwords

/-- The words determine the request. With a condition there are more of them than without. -/
theorem WrittenRequest.unique {names names' : List String} {values values' : List Value}
    {condition condition' : Option SortCondition} (h : Coherent numeral table)
    (h' : Coherent numeral table') (same : SameLookup table table')
    (scalar : ∀ value ∈ values, value.IsScalar) (scalar' : ∀ value ∈ values', value.IsScalar)
    (written : WrittenRequest table names values condition words)
    (written' : WrittenRequest table' names' values' condition' words') (hwords : words = words') :
    names = names' ∧ values = values' ∧ condition = condition' := by
  cases written with
  | partition named held =>
    cases written' with
    | partition named' held' =>
      obtain ⟨rfl, rfl⟩ : _ ∧ _ := by simpa using hwords
      obtain rfl := named.unique h h' (same.names _) named'
      obtain rfl := held.unique h h' (same.values _) (scalar _ List.mem_cons_self)
        (scalar' _ List.mem_cons_self) held'
      exact ⟨rfl, rfl, rfl⟩
    | sort => simp at hwords
  | sort named held written =>
    cases written' with
    | sort named' held' written' =>
      obtain ⟨rfl, rfl, hbehind⟩ : _ ∧ _ ∧ _ := by simpa using hwords
      obtain ⟨hvalue, hcondition⟩ := List.forall_mem_cons.mp scalar
      obtain ⟨hvalue', hcondition'⟩ := List.forall_mem_cons.mp scalar'
      obtain rfl := named.unique h h' (same.names _) named'
      obtain rfl := held.unique h h' (same.values _) hvalue hvalue' held'
      obtain ⟨rfl, rfl⟩ := written.unique h h' same hcondition hcondition' written' hbehind
      exact ⟨rfl, rfl, rfl⟩
    | partition => simp at hwords

/-! Words between spaces are told apart, as no word has a space in it. -/

def Spaceless (word : String) : Prop := ' ' ∉ word.toList

theorem spaceless_append {a b : String} (ha : Spaceless a) (hb : Spaceless b) :
    Spaceless (a ++ b) := by
  simp only [Spaceless, String.toList_append, List.mem_append, not_or]
  exact ⟨ha, hb⟩

theorem spaceless_toString (n : Nat) : Spaceless (toString n) :=
  fun h => absurd (Decimal.isDigit_toString n ' ' h) (by decide)

theorem PlaceholderTable.HoldsName.spaceless {name ref : String} (h : Coherent numeral table)
    (held : table.HoldsName name ref) : Spaceless ref := by
  obtain ⟨n, rfl⟩ := h.eq_nameRef held
  exact spaceless_append (by simp [Spaceless]) (spaceless_toString n)

theorem PlaceholderTable.HoldsValue.spaceless {value : Value} {ref : String}
    (h : Coherent numeral table) (held : table.HoldsValue value ref) : Spaceless ref := by
  obtain ⟨n, rfl⟩ := h.eq_valueRef held
  exact spaceless_append (by simp [Spaceless]) (spaceless_toString n)

theorem Comparison.spaceless_text (comparison : Comparison) : Spaceless comparison.text := by
  cases comparison <;> simp [Comparison.text, Spaceless]

theorem SortCondition.Written.spaceless {key : String} {condition : SortCondition}
    (h : Coherent numeral table) (written : condition.Written table key words) :
    ∀ word ∈ words, Spaceless word := by
  cases written with
  | @compare comparison _ _ _ named held =>
    simp only [List.forall_mem_cons]
    exact ⟨named.spaceless h, comparison.spaceless_text, held.spaceless h, by simp⟩
  | between named low high =>
    simp only [List.forall_mem_cons]
    exact ⟨named.spaceless h, by simp [Spaceless], low.spaceless h, by simp [Spaceless],
      high.spaceless h, by simp⟩
  | beginsWith named held =>
    simp only [List.forall_mem_cons]
    have hcall := spaceless_append (a := "begins_with(") (by simp [Spaceless]) (named.spaceless h)
    exact ⟨spaceless_append hcall (by simp [Spaceless]),
      spaceless_append (held.spaceless h) (by simp [Spaceless]), by simp⟩

theorem WrittenRequest.spaceless {names : List String} {values : List Value}
    {condition : Option SortCondition} (h : Coherent numeral table)
    (written : WrittenRequest table names values condition words) :
    ∀ word ∈ words, Spaceless word := by
  cases written with
  | partition named held =>
    simp only [List.forall_mem_cons]
    exact ⟨named.spaceless h, by simp [Spaceless], held.spaceless h, by simp⟩
  | sort named held written =>
    simp only [List.forall_mem_cons]
    exact ⟨named.spaceless h, by simp [Spaceless], held.spaceless h, by simp [Spaceless],
      written.spaceless h⟩

theorem splitOn_intercalate (nonempty : words ≠ []) (h : ∀ word ∈ words, Spaceless word) :
    (" ".intercalate words).toList.splitOn ' ' = words.map (·.toList) := by
  rw [String.toList_intercalate]
  exact List.splitOn_intercalate ' ' (List.forall_mem_map.mpr h) (by simpa using nonempty)

theorem words_eq_of_intercalate (nonempty : words ≠ []) (nonempty' : words' ≠ [])
    (h : ∀ word ∈ words, Spaceless word) (h' : ∀ word ∈ words', Spaceless word)
    (heq : " ".intercalate words = " ".intercalate words') : words = words' := by
  have hchars : words.map (·.toList) = words'.map (·.toList) := by
    rw [← splitOn_intercalate nonempty h, heq, splitOn_intercalate nonempty' h']
  exact List.map_injective_iff.mpr (fun _ _ => String.toList_inj.mp) hchars

end

/-! Whatever is compiled is written this way. -/

namespace Compiling

variable {table table' : PlaceholderTable}

theorem written_sortCondition {key : Key} {condition : SortCondition} {text : String}
    (h : Coherent (fun _ => True) table) (scalar : condition.Scalar)
    (hrun : (condition.compile key).run table = (.ok text, table')) :
    ∃ words, condition.Written table' key.name words ∧ text = " ".intercalate words := by
  obtain ⟨name, between, hname, hrun⟩ := run_bind_eq_ok hrun
  have hbetween := ((allocates_nameRef key.name).grows hname).coherent h
  have named := holdsName_of_nameRef hname
  cases condition with
  | compare comparison value =>
    have sound := (SortCondition.forall_operands_compare.mp scalar).sound
    obtain ⟨ref, after, hvalue, hrun⟩ := run_bind_eq_ok hrun
    cases hrun
    have hgrows := (allocates_valueRef sound).grows hvalue
    exact ⟨_, .compare (named.grows hgrows) (valueRef_holds hbetween sound hvalue), rfl⟩
  | between low high =>
    obtain ⟨hlow, hhigh⟩ := SortCondition.forall_operands_between.mp scalar
    obtain ⟨ref, between', hrunLow, hrun⟩ := run_bind_eq_ok hrun
    obtain ⟨ref', after, hrunHigh, hrun⟩ := run_bind_eq_ok hrun
    cases hrun
    have hgrows := (allocates_valueRef hlow.sound).grows hrunLow
    have hgrows' := (allocates_valueRef hhigh.sound).grows hrunHigh
    have held := (valueRef_holds hbetween hlow.sound hrunLow).grows hgrows'
    have held' := valueRef_holds (hgrows.coherent hbetween) hhigh.sound hrunHigh
    refine ⟨_, .between ((named.grows hgrows).grows hgrows') held held', ?_⟩
    rw [← String.toList_inj]
    simp
  | beginsWith start =>
    have sound := (SortCondition.forall_operands_beginsWith.mp scalar).sound
    obtain ⟨ref, after, hvalue, hrun⟩ := run_bind_eq_ok hrun
    cases hrun
    have hgrows := (allocates_valueRef sound).grows hvalue
    refine ⟨_, .beginsWith (named.grows hgrows) (valueRef_holds hbetween sound hvalue), ?_⟩
    rw [← String.toList_inj]
    simp

end Compiling

theorem SortCondition.Written.nonempty {table : PlaceholderTable} {key : String}
    {condition : SortCondition} {words : List String}
    (written : condition.Written table key words) : words ≠ [] := by
  cases written <;> simp

theorem WrittenRequest.nonempty {table : PlaceholderTable} {names : List String}
    {values : List Value} {condition : Option SortCondition} {words : List String}
    (written : WrittenRequest table names values condition words) : words ≠ [] := by
  cases written <;> simp

theorem intercalate_partition (name ref : String) :
    " ".intercalate [name, "=", ref] = name ++ " = " ++ ref := by
  rw [← String.toList_inj]
  simp

theorem intercalate_condition {words : List String} (nonempty : words ≠ []) (name ref : String) :
    " ".intercalate (name :: "=" :: ref :: "AND" :: words) =
      name ++ " = " ++ ref ++ " AND " ++ " ".intercalate words := by
  obtain ⟨word, words, rfl⟩ := List.exists_cons_of_ne_nil nonempty
  rw [← String.toList_inj]
  simp

/-- A request that is compiled has been read, and is written with the references of the table that
travels with it. -/
theorem written_of_compileKeyCondition {strict : Bool} {schema : KeySchema} {partitionText : String}
    {sortText : Option String} {compiled : CompiledExpression}
    (h : (compileKeyCondition strict schema partitionText sortText).onEmptyTable = .ok compiled) :
    ∃ table names values condition words, Coherent (fun _ => True) table ∧
      ReadsRequest strict schema partitionText sortText names values condition ∧
      WrittenRequest table names values condition words ∧
      compiled = table.compiled (" ".intercalate words) := by
  have hempty := PlaceholderTable.coherent_empty fun _ => True
  obtain ⟨table, hrun⟩ := Compiling.run_of_onEmptyTable h
  have hgrows := (Compiling.allocates_keyCondition strict schema partitionText sortText).grows hrun
  obtain ⟨value, _, hread, hrun⟩ := Compiling.run_bind_eq_ok hrun
  rw [Compiling.run_ofExcept] at hread
  obtain ⟨hvalue, rfl⟩ := Prod.mk.inj hread
  have sound := Compiling.valueOf_sound hvalue
  obtain ⟨name, named, hname, hrun⟩ := Compiling.run_bind_eq_ok hrun
  have hnamed := ((Compiling.allocates_nameRef _).grows hname).coherent hempty
  obtain ⟨ref, referred, href, hrun⟩ := Compiling.run_bind_eq_ok hrun
  have hrefers := (Compiling.allocates_valueRef sound).grows href
  have heldName := (Compiling.holdsName_of_nameRef hname).grows hrefers
  have heldValue := Compiling.valueRef_holds hnamed sound href
  cases sortText with
  | none =>
    cases hrun
    refine ⟨table, _, _, _, _, hgrows.coherent hempty, .partition hvalue,
      .partition heldName heldValue, ?_⟩
    rw [intercalate_partition]
  | some text =>
    cases hkey : schema.sort with
    | none =>
      rw [hkey] at hrun
      cases hrun
    | some key =>
      rw [hkey] at hrun
      obtain ⟨condition, _, hfitted, hrun⟩ := Compiling.run_bind_eq_ok hrun
      rw [Compiling.run_ofExcept] at hfitted
      obtain ⟨hcondition, rfl⟩ := Prod.mk.inj hfitted
      obtain ⟨sort, after, hsort, hrun⟩ := Compiling.run_bind_eq_ok hrun
      cases hrun
      have scalar := SortCondition.parseFor_scalar hcondition
      obtain ⟨words, written, rfl⟩ :=
        Compiling.written_sortCondition (hrefers.coherent hnamed) scalar hsort
      have hsorted := (Compiling.allocates_sortCondition key fun value hv =>
        (scalar value hv).sound).grows hsort
      refine ⟨table, _, _, _, _, hgrows.coherent hempty, .sort hvalue hkey hcondition,
        .sort (heldName.grows hsorted) (heldValue.grows hsorted) written, ?_⟩
      rw [intercalate_condition written.nonempty]

theorem ReadsRequest.scalar {strict : Bool} {schema : KeySchema} {partitionText : String}
    {sortText : Option String} {names : List String} {values : List Value}
    {condition : Option SortCondition}
    (h : ReadsRequest strict schema partitionText sortText names values condition) :
    ∀ value ∈ values, value.IsScalar := by
  cases h with
  | partition hvalue => simpa using (Key.isOperand_of_valueOf hvalue).isScalar
  | sort hvalue _ hcondition =>
    exact List.forall_mem_cons.mpr
      ⟨(Key.isOperand_of_valueOf hvalue).isScalar, SortCondition.parseFor_scalar hcondition⟩

/-- What has been compiled to the same expression, with the same names and values beside it, is the
same request: it has the same names of keys, the same partition value, and the same condition on
the sort key, or none either time. -/
theorem readsRequest_of_compiled_eq {strict strict' : Bool} {schema schema' : KeySchema}
    {partitionText partitionText' : String} {sortText sortText' : Option String}
    {compiled compiled' : CompiledExpression}
    (h : (compileKeyCondition strict schema partitionText sortText).onEmptyTable = .ok compiled)
    (h' : (compileKeyCondition strict' schema' partitionText' sortText').onEmptyTable =
      .ok compiled')
    (expression : compiled.expression = compiled'.expression)
    (names : ∀ ref, Dictionary.get? compiled.names ref = Dictionary.get? compiled'.names ref)
    (values : ∀ ref, Dictionary.get? compiled.values ref = Dictionary.get? compiled'.values ref) :
    ∃ names values condition,
      ReadsRequest strict schema partitionText sortText names values condition ∧
        ReadsRequest strict' schema' partitionText' sortText' names values condition := by
  obtain ⟨table, keys, operands, condition, words, coherent, hreads, written, rfl⟩ :=
    written_of_compileKeyCondition h
  obtain ⟨table', keys', operands', condition', words', coherent', hreads', written', rfl⟩ :=
    written_of_compileKeyCondition h'
  have hwords : words = words' := words_eq_of_intercalate written.nonempty written'.nonempty
    (written.spaceless coherent) (written'.spaceless coherent') expression
  obtain ⟨rfl, rfl, rfl⟩ := written.unique coherent coherent' ⟨names, values⟩ hreads.scalar
    hreads'.scalar written' hwords
  exact ⟨keys, operands, condition, hreads, hreads'⟩

set_option maxRecDepth 4000 in
/-- The two keys have one name, and all values are equal. The words of the second text are no
literals. -/
theorem readsRequest_of_compiled_eq_shared :
    let schema : KeySchema := ⟨⟨"id", .string⟩, some ⟨"id", .string⟩⟩
    let compiled : CompiledExpression := ⟨"#p0 = :v0 AND #p0 BETWEEN :v0 AND :v0", [("#p0", "id")],
      [(":v0", .object [("S", .string "x")])]⟩
    let text := "between 'x' and \"x\""
    let text' := "between x and x"
    (compileKeyCondition true schema "x" (some text)).onEmptyTable = .ok compiled ∧
      (compileKeyCondition false schema "x" (some text')).onEmptyTable = .ok compiled ∧
      ∃ names values condition, ReadsRequest true schema "x" (some text) names values condition ∧
        ReadsRequest false schema "x" (some text') names values condition := by
  intro schema compiled text text'
  have h : (compileKeyCondition true schema "x" (some text)).onEmptyTable = .ok compiled := by cbv
  have h' : (compileKeyCondition false schema "x" (some text')).onEmptyTable = .ok compiled := by
    cbv
  exact ⟨h, h', readsRequest_of_compiled_eq h h' rfl (fun _ => rfl) fun _ => rfl⟩

end AttributeExpr
