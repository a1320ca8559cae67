import AttributeExpr.Request
import AttributeExpr.Proofs.Placeholder.Reference
import AttributeExpr.Proofs.SortCondition
import AttributeExpr.SortCondition.Compile
import AttributeExpr.Update.Compile
/-!
Operations on one table, one after another. Whatever the operations are and whether they succeed,
the table stays coherent, and what has been allocated once is never given up.
-/
namespace AttributeExpr

/-- The values that stand in a formula. -/
def Formula.literals : Formula → List Value
  | literal value => [value]
  | path _ => []
  | arithmetic _ left right | listAppend left right => left.literals ++ right.literals
  | ifNotExists _ otherwise => otherwise.literals

def Action.literals : Action → List Value
  | set _ formula => formula.literals
  | remove _ => []

namespace Compiling

theorem valueOf_sound {type : AttributeType} {text : String} {value : Value}
    (h : Key.valueOf type text = .ok value) : value.Sound :=
  (Key.isOperand_of_valueOf h).isScalar.sound

variable {numeral : String → Prop} {suits : Value → Prop}

section

variable {p : Failure → Prop} (refused : ∀ error : ExpressionError, p (.refused error))

include refused

theorem composed_segments (path : Path) (first : Bool) (rest : List Segment) :
    Composed suits p (segments path first rest) := by
  induction rest generalizing first with
  | nil => exact .done []
  | cons segment rest ih =>
    cases segment with
    | index index =>
      have hrest := (ih false).bind fun texts => .done (("[" ++ toString index ++ "]") :: texts)
      rw [segments]
      split
      · exact (Composed.fail (refused _)).bind fun _ => hrest
      · exact hrest
    | name name =>
      have hrest := (Composed.name name).bind fun ref => (ih false).bind fun texts =>
        .done ((if first then ref else "." ++ ref) :: texts)
      rw [segments]
      split
      · exact (Composed.fail (refused _)).bind fun _ => hrest
      · exact hrest

theorem composed_path (operand : Path) : Composed suits p (path operand) := by
  have hsegments : Composed suits p
      (segments operand true operand >>= fun texts => pure (String.join texts)) :=
    (composed_segments refused operand true operand).bind fun texts => .done _
  rw [path]
  split
  · exact (Composed.fail (refused _)).bind fun _ => hsegments
  · exact hsegments

theorem composed_formula {operand : Formula}
    (sound : ∀ value ∈ operand.literals, suits value) :
    Composed suits p (formula operand) := by
  induction operand with
  | literal value => exact .value (sound value (by simp [Formula.literals]))
  | path operand => exact composed_path refused operand
  | arithmetic op left right ihLeft ihRight | listAppend left right ihLeft ihRight =>
    rw [Formula.literals, List.forall_mem_append] at sound
    exact (ihLeft sound.1).bind fun _ => (ihRight sound.2).bind fun _ => .done _
  | ifNotExists operand otherwise ih =>
    exact (composed_path refused operand).bind fun _ => (ih sound).bind fun _ => .done _

theorem composed_action {step : Action}
    (sound : ∀ value ∈ step.literals, suits value) :
    Composed suits p (action step) := by
  cases step with
  | set target computed =>
    exact (composed_path refused target).bind fun _ =>
      (composed_formula refused sound).bind fun _ => .done _
  | remove target => exact composed_path refused target

theorem composed_actions {actions : List Action}
    (sound : ∀ action ∈ actions, ∀ value ∈ action.literals, suits value) :
    Composed suits p (actions.mapM action) :=
  composed_mapM fun action haction => composed_action refused (sound action haction)

theorem composed_update (clause : Clause) (keys : List String) {actions : List Action}
    (sound : ∀ action ∈ actions, ∀ value ∈ action.literals, suits value) :
    Composed suits p (Update.compile clause keys actions) := by
  have hchecks : FailsOnly p ((Update.checkActions clause keys actions).mapError
      fun error => Failure.refused (.semantic error)) :=
    failsOnly_mapError (fun error => refused _) _
  apply Composed.outcome hchecks
  intro _ _
  exact (composed_actions refused sound).bind fun _ => .compiled _

omit refused in
theorem composed_sortCondition (key : Key) {condition : SortCondition}
    (sound : ∀ value ∈ condition.operands, suits value) :
    Composed suits p (condition.compile key) := by
  have hvalue (value : Value) (h : value ∈ condition.operands) :
      Composed suits p (valueRef value) := .value (sound value h)
  cases condition with
  | compare comparison value =>
    have href := hvalue value (by simp [SortCondition.operands])
    exact (Composed.name _).bind fun _ => href.bind fun _ => .done _
  | between low high =>
    have hlow := hvalue low (by simp [SortCondition.operands])
    have hhigh := hvalue high (by simp [SortCondition.operands])
    exact (Composed.name _).bind fun _ => hlow.bind fun _ => hhigh.bind fun _ => .done _
  | beginsWith start =>
    have hstart := hvalue start (by simp [SortCondition.operands])
    exact (Composed.name _).bind fun _ => hstart.bind fun _ => .done _

/-- Beside refusals, only the value of the partition key and the reading of the condition can
fail. -/
theorem composed_keyCondition {strict : Bool} {schema : KeySchema} {partitionText : String}
    {sortText : Option String}
    (partition : FailsOnly p (Key.valueOf schema.partition.type partitionText))
    (sort : ∀ key text, FailsOnly p (SortCondition.parseFor strict key text)) :
    Composed Value.Sound p (compileKeyCondition strict schema partitionText sortText) := by
  apply Composed.outcome partition
  intro value hvalue
  apply (Composed.name _).bind
  intro name
  apply (Composed.value (valueOf_sound hvalue)).bind
  intro ref
  split
  · exact .compiled _
  · exact .fail (refused _)
  next text key _ =>
  apply Composed.outcome (sort key text)
  intro condition hcondition
  have hscalar := SortCondition.parseFor_scalar hcondition
  have sound : ∀ value ∈ condition.operands, value.Sound := fun value hv => (hscalar value hv).sound
  exact (composed_sortCondition _ sound).bind fun _ => .compiled _

omit refused in
theorem composed_projection (keysOnly : Bool) (schema : KeySchema)
    (attributes : Option (List String)) :
    Composed suits p (compileProjection keysOnly schema attributes) := by
  rw [compileProjection]
  split
  · exact .done none
  · apply (composed_mapM fun name _ => .name name).bind
    intro refs
    exact (Composed.compiled _).bind fun _ => .done _

end

/-! Whatever the failures are, what is composed only adds to a table. -/

theorem allocates_segments (path : Path) (first : Bool) (rest : List Segment) :
    Allocates numeral (segments path first rest) :=
  (@composed_segments (·.WellFormed numeral) (fun _ => True) (fun _ => trivial) path first
    rest).allocates

theorem allocates_path (operand : Path) : Allocates numeral (path operand) :=
  (@composed_path (·.WellFormed numeral) (fun _ => True) (fun _ => trivial) operand).allocates

theorem allocates_formula {operand : Formula}
    (sound : ∀ value ∈ operand.literals, value.WellFormed numeral) :
    Allocates numeral (formula operand) :=
  (@composed_formula (·.WellFormed numeral) (fun _ => True) (fun _ => trivial) _ sound).allocates

theorem allocates_action {step : Action}
    (sound : ∀ value ∈ step.literals, value.WellFormed numeral) :
    Allocates numeral (action step) :=
  (@composed_action (·.WellFormed numeral) (fun _ => True) (fun _ => trivial) _ sound).allocates

theorem allocates_actions {actions : List Action}
    (sound : ∀ action ∈ actions, ∀ value ∈ action.literals, value.WellFormed numeral) :
    Allocates numeral (actions.mapM action) :=
  (@composed_actions (·.WellFormed numeral) (fun _ => True) (fun _ => trivial) _ sound).allocates

theorem allocates_update (clause : Clause) (keys : List String) {actions : List Action}
    (sound : ∀ action ∈ actions, ∀ value ∈ action.literals, value.WellFormed numeral) :
    Allocates numeral (Update.compile clause keys actions) :=
  (@composed_update (·.WellFormed numeral) (fun _ => True) (fun _ => trivial) clause keys _
    sound).allocates

theorem allocates_sortCondition (key : Key) {condition : SortCondition}
    (sound : ∀ value ∈ condition.operands, value.WellFormed numeral) :
    Allocates numeral (condition.compile key) :=
  (@composed_sortCondition (·.WellFormed numeral) (fun _ => True) key _ sound).allocates

theorem allocates_keyCondition (strict : Bool) (schema : KeySchema) (partitionText : String)
    (sortText : Option String) :
    Allocates (fun _ => True) (compileKeyCondition strict schema partitionText sortText) :=
  (@composed_keyCondition (fun _ => True) (fun _ => trivial) _ _ _ _ (fun _ _ => trivial)
    (fun _ _ _ _ => trivial)).allocates

theorem allocates_projection (keysOnly : Bool) (schema : KeySchema)
    (attributes : Option (List String)) :
    Allocates numeral (compileProjection keysOnly schema attributes) :=
  (@composed_projection (·.WellFormed numeral) (fun _ => True) keysOnly schema attributes).allocates

end Compiling

/-- What can be done with a table. -/
inductive TableOperation where
  | name (name : String)
  | value (value : Value)
  | path (path : Path)
  | formula (formula : Formula)
  | update (clause : Clause) (keys : List String) (actions : List Action)
  | sortCondition (key : Key) (condition : SortCondition)
  | keyCondition (strict : Bool) (schema : KeySchema) (partition : String) (sort : Option String)
  | projection (keysOnly : Bool) (schema : KeySchema) (attributes : Option (List String))

namespace TableOperation

/-- The table behind an operation, which may have failed. -/
def after (table : PlaceholderTable) : TableOperation → PlaceholderTable
  | name raw => ((Compiling.nameRef raw).run table).2
  | value literal => ((Compiling.valueRef literal).run table).2
  | path operand => ((Compiling.path operand).run table).2
  | formula operand => ((Compiling.formula operand).run table).2
  | update clause keys actions => ((Update.compile clause keys actions).run table).2
  | sortCondition key condition => ((condition.compile key).run table).2
  | keyCondition strict schema partition sort =>
    ((compileKeyCondition strict schema partition sort).run table).2
  | projection keysOnly schema attributes =>
    ((compileProjection keysOnly schema attributes).run table).2

/-- The table behind several operations, one after another. -/
def run (table : PlaceholderTable) (operations : List TableOperation) : PlaceholderTable :=
  operations.foldl after table

/-- The values that an operation is given. -/
def values : TableOperation → List Value
  | value literal => [literal]
  | formula operand => operand.literals
  | update _ _ actions => actions.flatMap Action.literals
  | sortCondition _ condition => condition.operands
  | name _ | path _ | keyCondition .. | projection .. => []

/-- In the given values, the keys of maps differ and sets are sets. -/
def Sound (operation : TableOperation) : Prop := ∀ value ∈ operation.values, value.Sound

theorem after_grows (table : PlaceholderTable) {operation : TableOperation}
    (sound : operation.Sound) :
    PlaceholderTable.Grows (fun _ => True) table (operation.after table) := by
  cases operation with
  | name raw => exact Compiling.allocates_nameRef raw table
  | value literal => exact Compiling.allocates_valueRef (sound literal (by simp [values])) table
  | path operand => exact Compiling.allocates_path operand table
  | formula operand => exact Compiling.allocates_formula sound table
  | update clause keys actions =>
    apply Compiling.allocates_update clause keys
    intro action haction value hvalue
    exact sound value (List.mem_flatMap.mpr ⟨action, haction, hvalue⟩)
  | sortCondition key condition => exact Compiling.allocates_sortCondition key sound table
  | keyCondition strict schema partition sort =>
    exact Compiling.allocates_keyCondition strict schema partition sort table
  | projection keysOnly schema attributes =>
    exact Compiling.allocates_projection keysOnly schema attributes table

theorem run_grows (table : PlaceholderTable) {operations : List TableOperation}
    (sound : ∀ operation ∈ operations, operation.Sound) :
    PlaceholderTable.Grows (fun _ => True) table (run table operations) := by
  induction operations generalizing table with
  | nil => exact .refl
  | cons operation operations ih =>
    obtain ⟨hoperation, hoperations⟩ := List.forall_mem_cons.mp sound
    exact (after_grows table hoperation).trans (ih (operation.after table) hoperations)

end TableOperation

end AttributeExpr
