import AttributeExpr.Proofs.Placeholder.Mention
import AttributeExpr.Proofs.Placeholder.ReadingOrder
import AttributeExpr.SortCondition.Compile
import AttributeExpr.Update.Compile
/-!
What compiled expressions use. While an expression is compiled, the table grows exactly by the
references that a reader of the expression meets for the first time. So behind a whole compilation
every placeholder of the expression is defined, every one that is defined is used, and both kinds
count up from zero as the expression is read.
-/
namespace AttributeExpr

namespace Compiling

open CompiledExpression (Mentions IsPlain)

/-- Where the steps succeed, their result mentions references in a way that fulfils the
postcondition, and the table holds what was read before them and those references. -/
def Reads {α : Type} (read : List String) (steps : Compiling α) (post : α → List String → Prop) :
    Prop :=
  ∀ ⦃table table' : PlaceholderTable⦄ ⦃a : α⦄, table.ReadAs read →
    steps.run table = (.ok a, table') → ∃ refs, post a refs ∧ table'.ReadAs (read ++ refs)

variable {α β : Type} {read : List String}

theorem reads_pure {a : α} {post : α → List String → Prop} (h : post a []) :
    Reads read (pure a) post := by
  intro table table' a' hread hrun
  cases hrun
  exact ⟨[], h, by simpa using hread⟩

theorem reads_throw (failure : Failure) (post : α → List String → Prop) :
    Reads read (throw failure) post := by
  intro table table' a _ hrun
  cases hrun

theorem Reads.bind {steps : Compiling α} {next : α → Compiling β} {post : α → List String → Prop}
    {post' : β → List String → Prop} (h : Reads read steps post)
    (hnext : ∀ a refs, post a refs →
      Reads (read ++ refs) (next a) fun b further => post' b (refs ++ further)) :
    Reads read (steps >>= next) post' := by
  intro table table' b hread hrun
  obtain ⟨a, between, ha, hb⟩ := run_bind_eq_ok hrun
  obtain ⟨refs, hpost, hbetween⟩ := h hread ha
  obtain ⟨further, hpost', hread'⟩ := hnext a refs hpost hbetween hb
  exact ⟨refs ++ further, hpost', by rwa [← List.append_assoc]⟩

/-- An empty table holds what has been read before anything was compiled. -/
theorem Reads.onEmptyTable {steps : Compiling α} {post : α → List String → Prop} {a : α}
    (h : Reads [] steps post) (hrun : steps.onEmptyTable = .ok a) : ∃ refs, post a refs := by
  have hempty : PlaceholderTable.empty.ReadAs [] := .nil
  obtain ⟨table, hrun⟩ := run_of_onEmptyTable hrun
  obtain ⟨refs, hpost, -⟩ := h hempty hrun
  exact ⟨refs, hpost⟩

theorem Reads.imp {steps : Compiling α} {post post' : α → List String → Prop}
    (h : Reads read steps post) (himp : ∀ a refs, post a refs → post' a refs) :
    Reads read steps post' := by
  intro table table' a hread hrun
  obtain ⟨refs, hpost, hread'⟩ := h hread hrun
  exact ⟨refs, himp a refs hpost, hread'⟩

/-- Computing a result reads nothing. -/
theorem reads_ofExcept_bind {outcome : Except Failure α} {next : α → Compiling β}
    {post : β → List String → Prop} (h : ∀ a, Reads read (next a) post) :
    Reads read (ofExcept outcome >>= next) post := by
  intro table table' b hread hrun
  obtain ⟨a, between, ha, hb⟩ := run_bind_eq_ok hrun
  rw [run_ofExcept] at ha
  obtain ⟨-, rfl⟩ := Prod.mk.inj ha
  exact h a hread hb

theorem reads_unless {c : Prop} [Decidable c] {failure : Failure} {next : β → Compiling α}
    {steps : Compiling α} {post : α → List String → Prop} (h : Reads read steps post) :
    Reads read (if c then throw failure >>= next else steps) post := by
  intro table table' a hread hrun
  obtain ⟨-, hrun⟩ := run_unless_eq_ok hrun
  exact h hread hrun

/-- A name is read as its reference, whether that is a new one or not. -/
theorem reads_nameRef (name : String) :
    Reads read (nameRef name) fun ref refs =>
      refs = [ref] ∧ ∃ n, ref = PlaceholderTable.nameRef n := by
  intro table table' ref hread hrun
  rw [run_nameRef] at hrun
  split at hrun
  · next held hsome =>
    cases hrun
    obtain ⟨entry, hentry, rfl⟩ := Option.map_eq_some_iff.mp hsome
    have hmem : entry.1 ∈ table.names.map (·.1) :=
      List.mem_map_of_mem (List.mem_of_find?_eq_some hentry)
    have hknown := (hread.used_iff_defined _).mpr (.inl hmem)
    refine ⟨_, ⟨rfl, ?_⟩, hread.read_again hknown⟩
    rw [hread.names.numbered] at hmem
    obtain ⟨n, -, hn⟩ := List.mem_map.mp hmem
    exact ⟨n, hn.symm⟩
  · cases hrun
    refine ⟨_, ⟨rfl, _, rfl⟩, ?_⟩
    have hnext := hread.read_name
    simpa [PlaceholderTable.ReadAs, PlaceholderTable.addName] using hnext

theorem reads_valueRef (value : Value) :
    Reads read (valueRef value) fun ref refs =>
      refs = [ref] ∧ ∃ n, ref = PlaceholderTable.valueRef n := by
  intro table table' ref hread hrun
  rw [run_valueRef] at hrun
  split at hrun
  · cases hrun
  split at hrun
  · next held hsome =>
    cases hrun
    obtain ⟨entry, hentry, rfl⟩ := Option.map_eq_some_iff.mp hsome
    have hmem : entry.ref ∈ table.values.map (·.ref) :=
      List.mem_map_of_mem (List.mem_of_find?_eq_some hentry)
    have hknown := (hread.used_iff_defined _).mpr (.inr hmem)
    refine ⟨_, ⟨rfl, ?_⟩, hread.read_again hknown⟩
    rw [hread.values.numbered] at hmem
    obtain ⟨n, -, hn⟩ := List.mem_map.mp hmem
    exact ⟨n, hn.symm⟩
  · split at hrun
    · cases hrun
    · cases hrun
      refine ⟨_, ⟨rfl, _, rfl⟩, ?_⟩
      have hnext := hread.read_value
      simpa [PlaceholderTable.ReadAs, PlaceholderTable.addValue] using hnext

/-- What holds of no results, and of one more result before others, holds of all of them. -/
theorem Reads.mapM {as : List α} {f : α → Compiling β} {post : β → List String → Prop}
    {whole : List β → List String → Prop} (nil : whole [] [])
    (cons : ∀ b refs bs further, post b refs → whole bs further →
      whole (b :: bs) (refs ++ further))
    (h : ∀ a ∈ as, ∀ read, Reads read (f a) post) : Reads read (as.mapM f) whole := by
  induction as generalizing read with
  | nil => exact reads_pure nil
  | cons a as ih =>
    obtain ⟨ha, has⟩ := List.forall_mem_cons.mp h
    rw [List.mapM_cons]
    apply (ha read).bind
    intro b refs hb
    apply (ih has).bind
    intro bs further hbs
    apply reads_pure
    simpa using cons b refs bs further hb hbs

/-- It does not matter whether a reference is read once more. -/
theorem Reads.dropRepeats {steps : Compiling α} {post : α → List String → Prop}
    (h : Reads read steps post) :
    Reads read steps fun a refs => ∃ all, refs = AttributeExpr.dropRepeats [] all ∧ post a all := by
  intro table table' a hread hrun
  obtain ⟨all, hpost, hall⟩ := h hread hrun
  refine ⟨_, ⟨all, rfl, hpost⟩, hall.congr ?_⟩
  rw [dropRepeats_append, dropRepeats_append, dropRepeats_dropRepeats (List.nil_subset _)]

/-! Paths, formulas and actions. -/

theorem reads_segments (path : Path) (first : Bool) (rest : List Segment) :
    Reads read (segments path first rest) fun texts refs =>
      Mentions (String.join texts).toList refs := by
  induction rest generalizing first read with
  | nil => exact reads_pure .nil
  | cons segment rest ih =>
    rw [segments.eq_def]
    cases segment with
    | index index =>
      apply reads_unless
      apply (ih false).bind
      intro texts refs hrest
      apply reads_pure
      simpa using (Mentions.index index).append hrest
    | name name =>
      apply reads_unless
      apply (reads_nameRef name).bind
      rintro ref _ ⟨rfl, n, rfl⟩
      apply (ih false).bind
      intro texts refs hrest
      apply reads_pure
      have hdot : Mentions ['.'] [] := .plain (by simp [Numeral.isDigit]) (by simp [IsPlain])
      cases first with
      | true => simpa using (Mentions.nameRef n).append hrest
      | false => simpa using hdot.append ((Mentions.nameRef n).append hrest)

theorem reads_path (operand : Path) :
    Reads read (path operand) fun text refs => Mentions text.toList refs := by
  rw [path]
  apply reads_unless
  apply (reads_segments operand true operand).bind
  intro texts refs htexts
  apply reads_pure
  simpa using htexts

theorem mentions_operator (op : ArithmeticOp) : Mentions (" " ++ op.text ++ " ").toList [] := by
  apply Mentions.plain
  · simp [Numeral.isDigit]
  · cases op <;> simp [ArithmeticOp.text, IsPlain]

theorem reads_formula (operand : Formula) :
    Reads read (formula operand) fun text refs => Mentions text.toList refs := by
  induction operand generalizing read with
  | literal value =>
    intro table table' text hread hrun
    obtain ⟨_, ⟨rfl, n, rfl⟩, hread'⟩ := reads_valueRef value hread hrun
    exact ⟨_, Mentions.valueRef n, hread'⟩
  | path operand => exact reads_path operand
  | arithmetic op left right ih ih' =>
    apply ih.bind
    intro first refs hfirst
    apply ih'.bind
    intro second refs' hsecond
    apply reads_pure
    simpa [String.append_assoc] using Mentions.joined (mentions_operator op) hfirst hsecond
  | listAppend left right ih ih' =>
    apply ih.bind
    intro first refs hfirst
    apply ih'.bind
    intro second refs' hsecond
    apply reads_pure
    have hopening : Mentions "list_append(".toList [] :=
      .plain (by simp [Numeral.isDigit]) (by simp [IsPlain])
    simpa using hopening.call hfirst hsecond
  | ifNotExists operand otherwise ih =>
    apply (reads_path operand).bind
    intro first refs hfirst
    apply ih.bind
    intro second refs' hsecond
    apply reads_pure
    have hopening : Mentions "if_not_exists(".toList [] :=
      .plain (by simp [Numeral.isDigit]) (by simp [IsPlain])
    simpa using hopening.call hfirst hsecond

theorem reads_action (step : Action) :
    Reads read (action step) fun text refs => Mentions text.toList refs := by
  cases step with
  | set target computed =>
    apply (reads_path target).bind
    intro first refs hfirst
    apply (reads_formula computed).bind
    intro second refs' hsecond
    apply reads_pure
    have hequal : Mentions " = ".toList [] := .plain (by simp [Numeral.isDigit]) (by simp [IsPlain])
    simpa using hequal.joined hfirst hsecond
  | remove target => exact reads_path target

/-! Whole expressions. -/

/-- The expression mentions the references, and the table beside it holds those that have been read
before and these. -/
def Presents (read : List String) (compiled : CompiledExpression) (refs : List String) : Prop :=
  Mentions compiled.expression.toList refs ∧ compiled.ReadAs (read ++ refs)

theorem Presents.readAs {compiled : CompiledExpression} {refs : List String}
    (h : Presents [] compiled refs) :
    compiled.ReadAs (CompiledExpression.placeholders compiled.expression.toList) := by
  rw [h.1.eq_placeholders]
  exact h.2

theorem reads_compiled {expression : String} {refs : List String}
    (h : Mentions expression.toList refs) :
    Reads (read ++ refs) (compiled expression) fun compiled further =>
      further = [] ∧ Presents read compiled refs := by
  intro table table' result hread hrun
  cases hrun
  refine ⟨[], ⟨rfl, h, ?_⟩, by simpa using hread⟩
  simpa [PlaceholderTable.ReadAs, CompiledExpression.ReadAs, PlaceholderTable.compiled,
    Function.comp_def] using hread

theorem reads_update (clause : Clause) (keys : List String) (actions : List Action) :
    Reads read (Update.compile clause keys actions) (Presents read) := by
  have hactions : Reads read (actions.mapM action) fun texts refs =>
      ∃ mentioned, List.Forall₂ (fun text refs => Mentions text.toList refs) texts mentioned ∧
        refs = mentioned.flatten := by
    apply Reads.mapM
    · exact ⟨[], .nil, rfl⟩
    · rintro text refs texts _ htext ⟨mentioned, htexts, rfl⟩
      exact ⟨refs :: mentioned, .cons htext htexts, rfl⟩
    · exact fun step _ read => reads_action step
  apply reads_ofExcept_bind
  intro _
  apply hactions.bind
  rintro texts _ ⟨mentioned, htexts, rfl⟩
  have hkeyword : Mentions (clause.keyword ++ " ").toList [] := by
    apply Mentions.plain
    · cases clause <;> simp [Clause.keyword, Numeral.isDigit]
    · cases clause <;> simp [Clause.keyword, IsPlain]
  have hmentions : Mentions (clause.keyword ++ " " ++ ", ".intercalate texts).toList
      mentioned.flatten := by
    simpa using hkeyword.append (Mentions.intercalate htexts)
  apply (reads_compiled hmentions).imp
  rintro compiled _ ⟨rfl, h⟩
  simpa using h

theorem mentions_comparison (comparison : Comparison) :
    Mentions (" " ++ comparison.text ++ " ").toList [] := by
  apply Mentions.plain
  · simp [Numeral.isDigit]
  · cases comparison <;> simp [Comparison.text, IsPlain]

theorem reads_sortCondition (key : Key) (condition : SortCondition) :
    Reads read (condition.compile key) fun text refs => Mentions text.toList refs := by
  apply (reads_nameRef key.name).bind
  rintro _ _ ⟨rfl, n, rfl⟩
  cases condition with
  | compare comparison value =>
    apply (reads_valueRef value).bind
    rintro _ _ ⟨rfl, m, rfl⟩
    apply reads_pure
    have h := (mentions_comparison comparison).joined (.nameRef n) (.valueRef m)
    simpa [String.append_assoc] using h
  | between low high =>
    apply (reads_valueRef low).bind
    rintro _ _ ⟨rfl, m, rfl⟩
    apply (reads_valueRef high).bind
    rintro _ _ ⟨rfl, k, rfl⟩
    apply reads_pure
    have hbetween : Mentions " BETWEEN ".toList [] :=
      .plain (by simp [Numeral.isDigit]) (by simp [IsPlain])
    have hand : Mentions " AND ".toList [] :=
      .plain (by simp [Numeral.isDigit]) (by simp [IsPlain])
    have h := hand.joined (hbetween.joined (.nameRef n) (.valueRef m)) (.valueRef k)
    simpa using h
  | beginsWith start =>
    apply (reads_valueRef start).bind
    rintro _ _ ⟨rfl, m, rfl⟩
    apply reads_pure
    have hopening : Mentions "begins_with(".toList [] :=
      .plain (by simp [Numeral.isDigit]) (by simp [IsPlain])
    simpa using hopening.call (.nameRef n) (.valueRef m)

/-- A key condition begins with the partition key and its value. -/
theorem reads_keyCondition (strict : Bool) (schema : KeySchema) (partitionText : String)
    (sortText : Option String) :
    Reads read (compileKeyCondition strict schema partitionText sortText) fun compiled refs =>
      Presents read compiled refs ∧
        ∃ n m, PlaceholderTable.nameRef n ∈ refs ∧ PlaceholderTable.valueRef m ∈ refs := by
  apply reads_ofExcept_bind
  intro value
  apply (reads_nameRef schema.partition.name).bind
  rintro _ _ ⟨rfl, n, rfl⟩
  apply (reads_valueRef value).bind
  rintro _ _ ⟨rfl, m, rfl⟩
  rw [List.append_assoc]
  have hequal : Mentions " = ".toList [] := .plain (by simp [Numeral.isDigit]) (by simp [IsPlain])
  have hand : Mentions " AND ".toList [] := .plain (by simp [Numeral.isDigit]) (by simp [IsPlain])
  have hpartition := hequal.joined (.nameRef n) (.valueRef m)
  split
  · apply (reads_compiled hpartition).imp
    rintro compiled _ ⟨rfl, h⟩
    exact ⟨by simpa using h, n, m, by simp, by simp⟩
  · exact reads_throw _ _
  · apply reads_ofExcept_bind
    intro condition
    apply (reads_sortCondition _ condition).bind
    intro text refs htext
    rw [List.append_assoc]
    apply (reads_compiled (hand.joined hpartition htext)).imp
    rintro compiled _ ⟨rfl, h⟩
    exact ⟨by simpa using h, n, m, by simp, by simp⟩

/-- A projection mentions names only. -/
theorem reads_projection (keysOnly : Bool) (schema : KeySchema)
    (attributes : Option (List String)) :
    Reads read (compileProjection keysOnly schema attributes) fun projection refs =>
      (∀ ref ∈ refs, ∃ n, ref = PlaceholderTable.nameRef n) ∧
        match projection with
        | none => refs = []
        | some compiled => Presents read compiled refs := by
  rw [compileProjection]
  split
  · apply reads_pure
    exact ⟨by simp, rfl⟩
  · have hnames : ∀ names : List String, Reads read (names.mapM nameRef) fun refs all =>
        all = refs ∧ ∀ ref ∈ refs, ∃ n, ref = PlaceholderTable.nameRef n := by
      intro names
      refine Reads.mapM ⟨rfl, by simp⟩ ?_ fun name _ read => reads_nameRef name
      rintro ref _ refs _ ⟨rfl, hn⟩ ⟨rfl, hrefs⟩
      exact ⟨rfl, List.forall_mem_cons.mpr ⟨hn, hrefs⟩⟩
    apply (hnames _).dropRepeats.bind
    rintro _ _ ⟨refs, rfl, rfl, hrefs⟩
    have hkept : ∀ ref ∈ AttributeExpr.dropRepeats [] refs,
        ∃ n, ref = PlaceholderTable.nameRef n := by
      intro ref href
      exact hrefs ref (mem_dropRepeats.mp href).1
    have hsingle : List.Forall₂ (fun text refs => Mentions text.toList refs)
        (AttributeExpr.dropRepeats [] refs)
        ((AttributeExpr.dropRepeats [] refs).map fun ref => [ref]) := by
      rw [List.forall₂_map_right_iff, List.forall₂_same]
      intro ref href
      obtain ⟨n, rfl⟩ := hkept ref href
      exact .nameRef n
    have hmentions := Mentions.intercalate hsingle
    rw [← List.flatMap_def, List.flatMap_singleton'] at hmentions
    apply (reads_compiled hmentions).bind
    rintro compiled _ ⟨rfl, h⟩
    apply reads_pure
    simp only [List.append_nil]
    exact ⟨hkept, h⟩

end Compiling

end AttributeExpr
