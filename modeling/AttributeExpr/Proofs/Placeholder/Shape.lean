import AttributeExpr.Proofs.Placeholder.Mirror
import AttributeExpr.Proofs.Placeholder.Operation
import Mathlib
/-!
What a compiled expression depends on. Two inputs of the same shape, whose names and values are
equal in the same places, are compiled to the same expression: nothing else about a name or a value
shows in it.
-/
namespace AttributeExpr

/-! The names and the shape of what is compiled. -/

def Segment.names : Segment → List String
  | .name text => [text]
  | .index _ => []

/-- The names in a path, from the left. -/
def Path.names (path : Path) : List String := path.flatMap Segment.names

/-- The names in a formula, in the order in which they are written. -/
def Formula.names : Formula → List String
  | literal _ => []
  | path operand => operand.names
  | arithmetic _ left right | listAppend left right => left.names ++ right.names
  | ifNotExists operand otherwise => operand.names ++ otherwise.names

def Action.names : Action → List String
  | set target formula => target.names ++ formula.names
  | remove target => target.names

/-- Two names, or the same index twice. -/
inductive Segment.SameShape : Segment → Segment → Prop
  | name (name name' : String) : SameShape (.name name) (.name name')
  | index (index : Int) : SameShape (.index index) (.index index)

/-- The paths have names and the same indexes in the same places. -/
def Path.SameShape : Path → Path → Prop := List.Forall₂ Segment.SameShape

/-- The formulas differ in nothing but names and values. -/
inductive Formula.SameShape : Formula → Formula → Prop
  | literal (value value' : Value) : SameShape (.literal value) (.literal value')
  | path {path path' : Path} (h : path.SameShape path') : SameShape (.path path) (.path path')
  | arithmetic (op : ArithmeticOp) {left left' right right' : Formula}
      (hleft : SameShape left left') (hright : SameShape right right') :
      SameShape (.arithmetic op left right) (.arithmetic op left' right')
  | listAppend {left left' right right' : Formula} (hleft : SameShape left left')
      (hright : SameShape right right') :
      SameShape (.listAppend left right) (.listAppend left' right')
  | ifNotExists {path path' : Path} {otherwise otherwise' : Formula} (hpath : path.SameShape path')
      (hotherwise : SameShape otherwise otherwise') :
      SameShape (.ifNotExists path otherwise) (.ifNotExists path' otherwise')

inductive Action.SameShape : Action → Action → Prop
  | set {target target' : Path} {formula formula' : Formula} (htarget : target.SameShape target')
      (hformula : formula.SameShape formula') :
      SameShape (.set target formula) (.set target' formula')
  | remove {target target' : Path} (htarget : target.SameShape target') :
      SameShape (.remove target) (.remove target')

/-- The conditions differ in nothing but their values. -/
inductive SortCondition.SameShape : SortCondition → SortCondition → Prop
  | compare (comparison : Comparison) (value value' : Value) :
      SameShape (.compare comparison value) (.compare comparison value')
  | between (low low' high high' : Value) : SameShape (.between low high) (.between low' high')
  | beginsWith (start start' : Value) : SameShape (.beginsWith start) (.beginsWith start')

/-- The members of one list are the same in two places exactly if those of the other are. -/
def SamePattern {α : Type} (same : α → α → Prop) (as bs : List α) : Prop :=
  Preserves same same fun a b => (a, b) ∈ as.zip bs

theorem samePattern_iff {α : Type} {same : α → α → Prop} {as bs : List α} :
    SamePattern same as bs ↔
      ∀ p ∈ as.zip bs, ∀ q ∈ as.zip bs, same p.1 q.1 ↔ same p.2 q.2 := by
  constructor
  · exact fun h p hp q hq => h hp hq
  · exact fun h a a' b b' hp hq => h (a, b) hp (a', b') hq

/-! In the same shape there are as many names and values. -/

theorem Segment.SameShape.length_names {segment segment' : Segment}
    (h : segment.SameShape segment') : segment.names.length = segment'.names.length := by
  cases h <;> rfl

theorem Path.SameShape.length_names {path path' : Path} (h : path.SameShape path') :
    path.names.length = path'.names.length := by
  induction h with
  | nil => rfl
  | cons hsegment _ ih =>
    unfold Path.names at ih ⊢
    rw [List.flatMap_cons, List.flatMap_cons, List.length_append, List.length_append, ih,
      hsegment.length_names]

theorem Formula.SameShape.length_names {formula formula' : Formula}
    (h : formula.SameShape formula') : formula.names.length = formula'.names.length := by
  induction h with
  | literal => rfl
  | path h => exact h.length_names
  | arithmetic _ _ _ ih ih' | listAppend _ _ ih ih' => simp [Formula.names, ih, ih']
  | ifNotExists hpath _ ih => simp [Formula.names, hpath.length_names, ih]

theorem Formula.SameShape.length_literals {formula formula' : Formula}
    (h : formula.SameShape formula') : formula.literals.length = formula'.literals.length := by
  induction h with
  | literal => rfl
  | path => rfl
  | arithmetic _ _ _ ih ih' | listAppend _ _ ih ih' => simp [Formula.literals, ih, ih']
  | ifNotExists _ _ ih => exact ih

theorem Action.SameShape.length_names {action action' : Action} (h : action.SameShape action') :
    action.names.length = action'.names.length := by
  cases h with
  | set htarget hformula => simp [Action.names, htarget.length_names, hformula.length_names]
  | remove htarget => exact htarget.length_names

theorem Action.SameShape.length_literals {action action' : Action} (h : action.SameShape action') :
    action.literals.length = action'.literals.length := by
  cases h with
  | set _ hformula => exact hformula.length_literals
  | remove => rfl

namespace Compiling

variable {N : String → String → Prop} {V : Value → Value → Prop}

/-! What corresponds is compiled to the same text. -/

theorem inStep_segments (faithful : Faithful N V) {path path' : Path} (first : Bool)
    {rest rest' : Path} (h : rest.SameShape rest')
    (names : List.Forall₂ N rest.names rest'.names) :
    InStep N V Eq (segments path first rest) (segments path' first rest') := by
  induction h generalizing first with
  | nil => exact inStep_pure rfl
  | @cons segment segment' rest rest' hsegment hrest ih =>
    rw [Path.names, Path.names, List.flatMap_cons, List.flatMap_cons,
      forall₂_append_iff hsegment.length_names] at names
    obtain ⟨hname, hnames⟩ := names
    cases hsegment with
    | index index =>
      rw [segments, segments]
      apply InStep.unless
      apply (ih false hnames).bind
      rintro texts _ rfl
      exact inStep_pure rfl
    | name name name' =>
      have hsame : N name name' := by simpa [Segment.names] using hname
      rw [segments, segments]
      apply InStep.unless
      apply (inStep_nameRef faithful hsame).bind
      rintro ref _ rfl
      apply (ih false hnames).bind
      rintro texts _ rfl
      exact inStep_pure rfl

theorem inStep_path (faithful : Faithful N V) {operand operand' : Path}
    (h : operand.SameShape operand') (names : List.Forall₂ N operand.names operand'.names) :
    InStep N V Eq (path operand) (path operand') := by
  rw [path, path]
  apply InStep.unless
  apply (inStep_segments faithful true h names).bind
  rintro texts _ rfl
  exact inStep_pure rfl

theorem inStep_formula (faithful : Faithful N V) {operand operand' : Formula}
    (h : operand.SameShape operand') (names : List.Forall₂ N operand.names operand'.names)
    (values : List.Forall₂ V operand.literals operand'.literals) :
    InStep N V Eq (formula operand) (formula operand') := by
  induction h with
  | literal value value' =>
    have hvalue : V value value' := by simpa [Formula.literals] using values
    exact inStep_valueRef faithful hvalue
  | path h => exact inStep_path faithful h names
  | arithmetic op hleft _ ih ih' | listAppend hleft _ ih ih' =>
    rw [Formula.names, Formula.names, forall₂_append_iff hleft.length_names] at names
    rw [Formula.literals, Formula.literals, forall₂_append_iff hleft.length_literals] at values
    apply (ih names.1 values.1).bind
    rintro first _ rfl
    apply (ih' names.2 values.2).bind
    rintro second _ rfl
    exact inStep_pure rfl
  | ifNotExists hpath _ ih =>
    rw [Formula.names, Formula.names, forall₂_append_iff hpath.length_names] at names
    apply (inStep_path faithful hpath names.1).bind
    rintro first _ rfl
    apply (ih names.2 values).bind
    rintro second _ rfl
    exact inStep_pure rfl

theorem inStep_action (faithful : Faithful N V) {step step' : Action} (h : step.SameShape step')
    (names : List.Forall₂ N step.names step'.names)
    (values : List.Forall₂ V step.literals step'.literals) :
    InStep N V Eq (action step) (action step') := by
  cases h with
  | set htarget hformula =>
    rw [Action.names, Action.names, forall₂_append_iff htarget.length_names] at names
    apply (inStep_path faithful htarget names.1).bind
    rintro first _ rfl
    apply (inStep_formula faithful hformula names.2 values).bind
    rintro second _ rfl
    exact inStep_pure rfl
  | remove htarget => exact inStep_path faithful htarget names

theorem inStep_actions (faithful : Faithful N V) {actions actions' : List Action}
    (h : List.Forall₂ Action.SameShape actions actions')
    (names : List.Forall₂ N (actions.flatMap Action.names) (actions'.flatMap Action.names))
    (values : List.Forall₂ V (actions.flatMap Action.literals)
      (actions'.flatMap Action.literals)) :
    InStep N V (List.Forall₂ Eq) (actions.mapM action) (actions'.mapM action) := by
  apply inStep_mapM
  induction h with
  | nil => exact .nil
  | cons hstep _ ih =>
    rw [List.flatMap_cons, List.flatMap_cons, forall₂_append_iff hstep.length_names] at names
    rw [List.flatMap_cons, List.flatMap_cons, forall₂_append_iff hstep.length_literals] at values
    exact .cons (inStep_action faithful hstep names.1 values.1) (ih names.2 values.2)

/-- The expression is the same, and whatever stands in the tables. -/
theorem inStep_compiled (expression : String) :
    InStep N V (fun result result' => result.expression = result'.expression)
      (compiled expression) (compiled expression) := by
  intro table table' after after' result result' mirrors hrun hrun'
  cases hrun
  cases hrun'
  exact ⟨rfl, mirrors⟩

theorem inStep_update (faithful : Faithful N V) (clause : Clause) (keys keys' : List String)
    {actions actions' : List Action} (h : List.Forall₂ Action.SameShape actions actions')
    (names : List.Forall₂ N (actions.flatMap Action.names) (actions'.flatMap Action.names))
    (values : List.Forall₂ V (actions.flatMap Action.literals)
      (actions'.flatMap Action.literals)) :
    InStep N V (fun result result' => result.expression = result'.expression)
      (Update.compile clause keys actions) (Update.compile clause keys' actions') := by
  apply (inStep_ofExcept (R := fun _ _ => True) fun _ _ _ _ => trivial).bind
  rintro _ _ -
  apply (inStep_actions faithful h names values).bind
  intro texts texts' htexts
  rw [List.forall₂_eq_eq_eq] at htexts
  subst htexts
  exact inStep_compiled _

theorem inStep_sortCondition (faithful : Faithful N V) {key key' : Key}
    (hname : N key.name key'.name) {condition condition' : SortCondition}
    (h : condition.SameShape condition')
    (values : List.Forall₂ V condition.operands condition'.operands) :
    InStep N V Eq (condition.compile key) (condition'.compile key') := by
  apply (inStep_nameRef faithful hname).bind
  rintro name _ rfl
  cases h with
  | compare comparison value value' | beginsWith value value' =>
    have hvalue : V value value' := by simpa [SortCondition.operands] using values
    apply (inStep_valueRef faithful hvalue).bind
    rintro ref _ rfl
    exact inStep_pure rfl
  | between low low' high high' =>
    obtain ⟨hlow, hhigh⟩ : V low low' ∧ V high high' := by
      simpa [SortCondition.operands] using values
    apply (inStep_valueRef faithful hlow).bind
    rintro first _ rfl
    apply (inStep_valueRef faithful hhigh).bind
    rintro second _ rfl
    exact inStep_pure rfl

end Compiling

/-- What a request for a key condition is read as: the names of its keys, its values in the order in
which they are compiled, and its condition on the sort key, if it has one. -/
inductive ReadsRequest (strict : Bool) (schema : KeySchema) (partitionText : String) :
    Option String → List String → List Value → Option SortCondition → Prop
  | partition {value : Value}
      (hvalue : Key.valueOf schema.partition.type partitionText = .ok value) :
      ReadsRequest strict schema partitionText none [schema.partition.name] [value] none
  | sort {text : String} {value : Value} {key : Key} {condition : SortCondition}
      (hvalue : Key.valueOf schema.partition.type partitionText = .ok value)
      (hkey : schema.sort = some key)
      (hcondition : SortCondition.parseFor strict key text = .ok condition) :
      ReadsRequest strict schema partitionText (some text) [schema.partition.name, key.name]
        (value :: condition.operands) (some condition)

theorem ReadsRequest.sound {strict : Bool} {schema : KeySchema} {partitionText : String}
    {sortText : Option String} {names : List String} {values : List Value}
    {condition : Option SortCondition}
    (h : ReadsRequest strict schema partitionText sortText names values condition) :
    ∀ value ∈ values, value.Sound := by
  cases h with
  | partition hvalue => simpa using Compiling.valueOf_sound hvalue
  | sort hvalue _ hcondition =>
    refine List.forall_mem_cons.mpr ⟨Compiling.valueOf_sound hvalue, ?_⟩
    intro value hoperand
    exact (SortCondition.parseFor_scalar hcondition value hoperand).sound

theorem SortCondition.SameShape.length_operands {condition condition' : SortCondition}
    (h : condition.SameShape condition') :
    condition.operands.length = condition'.operands.length := by
  cases h <;> rfl

/-- Requests with conditions of the same shape name as many keys and values. -/
theorem ReadsRequest.same_length {strict strict' : Bool} {schema schema' : KeySchema}
    {partitionText partitionText' : String} {sortText sortText' : Option String}
    {names names' : List String} {values values' : List Value}
    {condition condition' : Option SortCondition}
    (hreads : ReadsRequest strict schema partitionText sortText names values condition)
    (hreads' : ReadsRequest strict' schema' partitionText' sortText' names' values' condition')
    (h : Option.Rel SortCondition.SameShape condition condition') :
    names.length = names'.length ∧ values.length = values'.length := by
  cases h with
  | none =>
    cases hreads
    cases hreads'
    exact ⟨rfl, rfl⟩
  | some hshape =>
    cases hreads
    cases hreads'
    exact ⟨rfl, congrArg (· + 1) hshape.length_operands⟩

namespace Compiling

variable {N : String → String → Prop} {V : Value → Value → Prop}

theorem inStep_keyCondition (faithful : Faithful N V) {strict strict' : Bool}
    {schema schema' : KeySchema} {partitionText partitionText' : String}
    {sortText sortText' : Option String} {names names' : List String} {values values' : List Value}
    {condition condition' : Option SortCondition}
    (hreads : ReadsRequest strict schema partitionText sortText names values condition)
    (hreads' : ReadsRequest strict' schema' partitionText' sortText' names' values' condition')
    (h : Option.Rel SortCondition.SameShape condition condition')
    (hnames : List.Forall₂ N names names') (hvalues : List.Forall₂ V values values') :
    InStep N V (fun result result' => result.expression = result'.expression)
      (compileKeyCondition strict schema partitionText sortText)
      (compileKeyCondition strict' schema' partitionText' sortText') := by
  obtain ⟨value, value', hvalue, hvalue', hname, hsame⟩ :
      ∃ value value', Key.valueOf schema.partition.type partitionText = .ok value ∧
        Key.valueOf schema'.partition.type partitionText' = .ok value' ∧
        N schema.partition.name schema'.partition.name ∧ V value value' := by
    cases hreads with
    | partition hvalue | sort hvalue =>
      cases hreads' with
      | partition hvalue' | sort hvalue' =>
        rw [List.forall₂_cons] at hnames hvalues
        exact ⟨_, _, hvalue, hvalue', hnames.1, hvalues.1⟩
  unfold compileKeyCondition
  rw [hvalue, hvalue']
  apply (inStep_ofExcept (R := V) ?_).bind
  · rintro value value' hsame
    apply (inStep_nameRef faithful hname).bind
    rintro name _ rfl
    apply (inStep_valueRef faithful hsame).bind
    rintro ref _ rfl
    cases h with
    | none =>
      cases hreads
      cases hreads'
      exact inStep_compiled _
    | some hshape =>
      cases hreads with
      | sort _ hkey hcondition =>
      cases hreads' with
      | sort _ hkey' hcondition' =>
      rw [List.forall₂_cons, List.forall₂_cons] at hnames
      rw [List.forall₂_cons] at hvalues
      rw [hkey, hkey']
      dsimp only
      rw [hcondition, hcondition']
      apply (inStep_ofExcept (R := fun condition condition' => condition.SameShape condition' ∧
        List.Forall₂ V condition.operands condition'.operands) ?_).bind
      · rintro condition condition' ⟨hshape, hoperands⟩
        apply (inStep_sortCondition faithful hnames.2.1 hshape hoperands).bind
        rintro text _ rfl
        exact inStep_compiled _
      · rintro _ _ ⟨⟩ ⟨⟩
        exact ⟨hshape, hvalues.2⟩
  · rintro _ _ ⟨⟩ ⟨⟩
    exact hsame

/-- On empty tables nothing is mirrored yet. -/
theorem InStep.onEmptyTable {α α' : Type} {R : α → α' → Prop} {steps : Compiling α}
    {steps' : Compiling α'} {a : α} {a' : α'} (h : InStep N V R steps steps')
    (hrun : steps.onEmptyTable = .ok a) (hrun' : steps'.onEmptyTable = .ok a') : R a a' := by
  obtain ⟨table, hrun⟩ := run_of_onEmptyTable hrun
  obtain ⟨table', hrun'⟩ := run_of_onEmptyTable hrun'
  exact (h PlaceholderTable.mirrors_empty hrun hrun').1

end Compiling

/-- Names and values in the same places correspond. -/
theorem faithful_of_pattern {names names' : List String} {values values' : List Value}
    (hnames : SamePattern Eq names names') (hvalues : SamePattern Value.Equals values values')
    (sound : ∀ value ∈ values, value.Sound) (sound' : ∀ value ∈ values', value.Sound) :
    Faithful (fun name name' => (name, name') ∈ names.zip names')
      (fun value value' => (value, value') ∈ values.zip values') where
  names := hnames
  values := hvalues
  sound := by
    intro value value' h
    obtain ⟨hmem, hmem'⟩ := List.of_mem_zip h
    exact ⟨sound value hmem, sound' value' hmem'⟩

theorem forall₂_mem_zip {α β : Type} {as : List α} {bs : List β} (h : as.length = bs.length) :
    List.Forall₂ (fun a b => (a, b) ∈ as.zip bs) as bs :=
  List.forall₂_iff_zip.mpr ⟨h, fun hmem => hmem⟩

theorem length_flatMap_of_forall₂ {α β : Type} {R : α → α → Prop} {f : α → List β} {as bs : List α}
    (h : List.Forall₂ R as bs) (hf : ∀ a b, R a b → (f a).length = (f b).length) :
    (as.flatMap f).length = (bs.flatMap f).length := by
  induction h with
  | nil => rfl
  | cons hab _ ih =>
    rw [List.flatMap_cons, List.flatMap_cons, List.length_append, List.length_append, hf _ _ hab,
      ih]

/-- Only the shape of what is compiled and which names and values are equal show in the expression,
for updates and for key conditions. -/
theorem expression_eq_of_samePattern :
    (∀ clause keys keys' actions actions' compiled compiled',
      List.Forall₂ Action.SameShape actions actions' →
      SamePattern Eq (actions.flatMap Action.names) (actions'.flatMap Action.names) →
      SamePattern Value.Equals (actions.flatMap Action.literals)
        (actions'.flatMap Action.literals) →
      (∀ value ∈ actions.flatMap Action.literals, value.Sound) →
      (∀ value ∈ actions'.flatMap Action.literals, value.Sound) →
      (Update.compile clause keys actions).onEmptyTable = .ok compiled →
      (Update.compile clause keys' actions').onEmptyTable = .ok compiled' →
        compiled.expression = compiled'.expression) ∧
    ∀ strict strict' schema schema' partitionText partitionText' sortText sortText' names names'
      values values' condition condition' compiled compiled',
      ReadsRequest strict schema partitionText sortText names values condition →
      ReadsRequest strict' schema' partitionText' sortText' names' values' condition' →
      Option.Rel SortCondition.SameShape condition condition' →
      SamePattern Eq names names' → SamePattern Value.Equals values values' →
      (compileKeyCondition strict schema partitionText sortText).onEmptyTable = .ok compiled →
      (compileKeyCondition strict' schema' partitionText' sortText').onEmptyTable =
        .ok compiled' →
        compiled.expression = compiled'.expression := by
  constructor
  · intro clause keys keys' actions actions' compiled compiled' hshape hnames hvalues sound sound'
      hcompile hcompile'
    have faithful := faithful_of_pattern hnames hvalues sound sound'
    have names := forall₂_mem_zip (length_flatMap_of_forall₂ hshape fun _ _ h => h.length_names)
    have values := forall₂_mem_zip
      (length_flatMap_of_forall₂ hshape fun _ _ h => h.length_literals)
    have hsteps := Compiling.inStep_update faithful clause keys keys' hshape names values
    exact hsteps.onEmptyTable hcompile hcompile'
  · intro strict strict' schema schema' partitionText partitionText' sortText sortText' names names'
      values values' condition condition' compiled compiled' hreads hreads' hshape hnames hvalues
      hcompile hcompile'
    have faithful := faithful_of_pattern hnames hvalues hreads.sound hreads'.sound
    obtain ⟨hlength, hlength'⟩ := hreads.same_length hreads' hshape
    have hsteps := Compiling.inStep_keyCondition faithful hreads hreads' hshape
      (forall₂_mem_zip hlength) (forall₂_mem_zip hlength')
    exact hsteps.onEmptyTable hcompile hcompile'

/-- A name and a value that stand in two places do so in both inputs of either pair. -/
theorem expression_eq_of_samePattern_shared :
    let formula := fun (name : String) (value : Value) =>
      Formula.ifNotExists [.name name, .index 2] (.literal value)
    let actions := [Action.set [.name "a"] (formula "b" (.string "x")),
      .set [.name "b"] (.literal (.string "x"))]
    let actions' := [Action.set [.name "c"] (formula "a" (.bool true)),
      .set [.name "a"] (.literal (.bool true))]
    let schema : KeySchema := ⟨⟨"id", .string⟩, some ⟨"at", .string⟩⟩
    let schema' : KeySchema := ⟨⟨"at", .string⟩, some ⟨"of", .binary⟩⟩
    (∃ compiled compiled', (Update.compile .set ["id"] actions).onEmptyTable = .ok compiled ∧
      (Update.compile .set [] actions').onEmptyTable = .ok compiled' ∧
      compiled.expression = compiled'.expression) ∧
    ∃ compiled compiled', (compileKeyCondition false schema "x" (some "> 'y'")).onEmptyTable =
        .ok compiled ∧
      (compileKeyCondition true schema' "y" (some "> b'y'")).onEmptyTable = .ok compiled' ∧
      compiled.expression = compiled'.expression := by
  intro formula actions actions' schema schema'
  obtain ⟨onUpdate, onKeyCondition⟩ := expression_eq_of_samePattern
  constructor
  · have hcompile : (Update.compile .set ["id"] actions).onEmptyTable =
        .ok ⟨"SET #p0 = if_not_exists(#p1[2], :v0), #p1 = :v0", [("#p0", "a"), ("#p1", "b")],
          [(":v0", .object [("S", .string "x")])]⟩ := by cbv
    have hcompile' : (Update.compile .set [] actions').onEmptyTable =
        .ok ⟨"SET #p0 = if_not_exists(#p1[2], :v0), #p1 = :v0", [("#p0", "c"), ("#p1", "a")],
          [(":v0", .object [("BOOL", .bool true)])]⟩ := by cbv
    refine ⟨_, _, hcompile, hcompile', onUpdate .set ["id"] [] actions actions' _ _ ?_ ?_ ?_ ?_ ?_
      hcompile hcompile'⟩
    · exact .cons (.set (.cons (.name _ _) .nil) (.ifNotExists
        (.cons (.name _ _) (.cons (.index 2) .nil)) (.literal _ _)))
        (.cons (.set (.cons (.name _ _) .nil) (.literal _ _)) .nil)
    · rw [samePattern_iff]
      decide
    · rw [samePattern_iff]
      simp [actions, actions', formula, Action.literals, Formula.literals, Value.Equals,
        Value.equal]
    · simpa [actions, formula, Action.literals, Formula.literals] using Value.WellFormed.string "x"
    · simpa [actions', formula, Action.literals, Formula.literals] using Value.WellFormed.bool true
  · have hcompile : (compileKeyCondition false schema "x" (some "> 'y'")).onEmptyTable =
        .ok ⟨"#p0 = :v0 AND #p1 > :v1", [("#p0", "id"), ("#p1", "at")],
          [(":v0", .object [("S", .string "x")]), (":v1", .object [("S", .string "y")])]⟩ := by cbv
    have hcompile' : (compileKeyCondition true schema' "y" (some "> b'y'")).onEmptyTable =
        .ok ⟨"#p0 = :v0 AND #p1 > :v1", [("#p0", "at"), ("#p1", "of")],
          [(":v0", .object [("S", .string "y")]), (":v1", .object [("B", .string "eQ==")])]⟩ := by
      cbv
    have hvalue : Key.valueOf schema.partition.type "x" = .ok (.string "x") := rfl
    have hvalue' : Key.valueOf schema'.partition.type "y" = .ok (.string "y") := rfl
    have hcondition : SortCondition.parseFor false ⟨"at", .string⟩ "> 'y'" =
        .ok (.compare .greater (.string "y")) := by cbv
    have hcondition' : SortCondition.parseFor true ⟨"of", .binary⟩ "> b'y'" =
        .ok (.compare .greater (.binary [121])) := by cbv
    refine ⟨_, _, hcompile, hcompile', onKeyCondition false true schema schema' _ _ _ _ _ _ _ _ _ _
      _ _ (.sort hvalue rfl hcondition) (.sort hvalue' rfl hcondition') (.some (.compare _ _ _))
      ?_ ?_ hcompile hcompile'⟩
    · rw [samePattern_iff]
      decide
    · rw [samePattern_iff]
      simp [SortCondition.operands, Value.Equals, Value.equal]

end AttributeExpr
