import AttributeExpr.CommandLine.Run
import AttributeExpr.Proofs.Dictionary
import AttributeExpr.Proofs.Outcome
import AttributeExpr.Proofs.Placeholder.Usage
import Mathlib
/-!
The parameters of a query. The projection is compiled on the table of the key condition, so the two
expressions are read as one text, the key condition first, and the names and values of the request
are those of both.
-/
namespace AttributeExpr

open CompiledExpression (placeholders)

namespace CommandLine

/-- In the parameters of a query, names and values are defined for what the key condition and the
projection use, and are numbered as these are read one after the other. -/
def QueryReadInOrder (parameters : Dictionary Json) : Prop :=
  ∃ condition names values,
    Dictionary.get? parameters "KeyConditionExpression" = some (.string condition) ∧
    Dictionary.get? parameters "ExpressionAttributeNames" = some (.object names) ∧
    Dictionary.get? parameters "ExpressionAttributeValues" = some (.object values) ∧
    match Dictionary.get? parameters "ProjectionExpression" with
    | none => ReadInOrder (placeholders condition.toList) (names.map (·.1)) (values.map (·.1))
    | some (.string projection) =>
      ReadInOrder (placeholders condition.toList ++ placeholders projection.toList)
        (names.map (·.1)) (values.map (·.1))
    | some _ => False

open Compiling (Reads Presents)

/-- The two expressions of a query on one table. -/
theorem reads_query (strict : Bool) (schema : KeySchema) (partitionText : String)
    (condition : Option String) (attributes : Option (List String)) (keysOnly : Bool) :
    Reads []
      (do
        let compiled ← compileKeyCondition strict schema partitionText condition
        let projection ← compileProjection keysOnly schema attributes
        return (compiled, projection))
      fun result _ => ∃ refs further, Presents [] result.1 refs ∧
        (∃ n m, PlaceholderTable.nameRef n ∈ refs ∧ PlaceholderTable.valueRef m ∈ refs) ∧
        (∀ ref ∈ further, ∃ n, ref = PlaceholderTable.nameRef n) ∧
        ∀ projection ∈ result.2, Presents refs projection further := by
  apply (Compiling.reads_keyCondition strict schema partitionText condition).bind
  intro compiled refs hcondition
  apply (Compiling.reads_projection keysOnly schema attributes).bind
  intro projection further hprojection
  apply Compiling.reads_pure
  refine ⟨refs, further, hcondition.1, hcondition.2, hprojection.1, ?_⟩
  rintro projection rfl
  simpa using hprojection.2

/-- A request with names and values. -/
theorem parameters_of_nonempty {compiled : CompiledExpression} (names : compiled.names ≠ [])
    (values : compiled.values ≠ []) (key : String) :
    compiled.parameters key = Dictionary.ofEntries [(key, .string compiled.expression),
      ("ExpressionAttributeNames", .object (compiled.names.map fun (ref, name) =>
        (ref, Json.string name))), ("ExpressionAttributeValues", .object compiled.values)] := by
  unfold CompiledExpression.parameters
  simp [names, values]

theorem queryParameters_readInOrder {strict : Bool} {target : Target}
    {condition attributes : Option String} {keysOnly : Bool} {parameters : Dictionary Json}
    (h : queryParameters strict target condition attributes keysOnly = .ok parameters) :
    QueryReadInOrder parameters := by
  obtain ⟨⟨compiled, projection⟩, hrun, h⟩ := bind_eq_ok_iff.mp h
  obtain ⟨_, refs, further, ⟨hmentions, hread⟩, ⟨n, m, hn, hm⟩, hnames, hprojection⟩ :=
    (reads_query strict _ _ _ _ _).onEmptyTable hrun
  rw [List.nil_append] at hread
  have hname := hread.names.mem_iff.mpr ⟨hn, isMarked_nameRef n⟩
  have hvalue := hread.values.mem_iff.mpr ⟨hm, isMarked_valueRef m⟩
  have names : compiled.names ≠ [] := by
    intro hnil
    simp [hnil] at hname
  have values : compiled.values ≠ [] := by
    intro hnil
    simp [hnil] at hvalue
  have hparameters := parameters_of_nonempty names values "KeyConditionExpression"
  have hcondition := hmentions.eq_placeholders
  cases projection with
  | none =>
    cases h
    rw [hparameters]
    refine ⟨compiled.expression, _, compiled.values, rfl, rfl, rfl, ?_⟩
    show ReadInOrder (placeholders compiled.expression.toList) _ _
    rw [hcondition]
    simpa [CompiledExpression.ReadAs, Function.comp_def] using hread
  | some projection =>
    cases h
    obtain ⟨hfurther, hboth⟩ := hprojection projection rfl
    -- The projection adds no values, so those of the key condition are those of both.
    have hvalues : projection.values.map (·.1) = compiled.values.map (·.1) := by
      apply hread.values.read_others hboth.values
      intro ref href
      obtain ⟨k, rfl⟩ := hnames ref href
      simp [isMarked, PlaceholderTable.nameRef]
    rw [hparameters]
    refine ⟨compiled.expression, projection.names.map fun (ref, name) => (ref, Json.string name),
      compiled.values, rfl, rfl, rfl, ?_⟩
    show ReadInOrder (placeholders compiled.expression.toList ++
      placeholders projection.expression.toList) _ _
    rw [hcondition, hfurther.eq_placeholders, ← hvalues]
    simpa [CompiledExpression.ReadAs, Function.comp_def] using hboth

/-- A query that ends well has printed such parameters. -/
theorem run_query_readInOrder {config : ConfigFile} {target : Target}
    {condition attributes : Option String} {strict lenient keysOnly : Bool} {outcome : Outcome}
    (hrun : (Command.query target condition strict lenient attributes keysOnly).run config =
      .ok outcome) (hstatus : outcome.status = 0) :
    ∃ parameters, outcome.output = (Json.object parameters).print ++ "\n" ∧
      QueryReadInOrder parameters := by
  unfold Command.run at hrun
  split at hrun
  · next parameters hparameters =>
    cases hrun
    obtain ⟨settings, -, hparameters⟩ := bind_eq_ok_iff.mp hparameters
    obtain ⟨policy, -, hparameters⟩ := bind_eq_ok_iff.mp hparameters
    exact ⟨parameters, rfl, queryParameters_readInOrder hparameters⟩
  · cases hrun
    contradiction
  · cases hrun
    contradiction
  · cases hrun

end CommandLine

open CommandLine

/-- Whatever is compiled on an empty table defines the placeholders that its expression uses and no
others, and numbers them as they are read. The two expressions that a query prints are read one
after the other. -/
theorem placeholders_readInOrder :
    (∀ clause keys actions compiled,
      (Update.compile clause keys actions).onEmptyTable = .ok compiled →
        compiled.ReadAs (placeholders compiled.expression.toList)) ∧
    (∀ strict schema partitionText sortText compiled,
      (compileKeyCondition strict schema partitionText sortText).onEmptyTable = .ok compiled →
        compiled.ReadAs (placeholders compiled.expression.toList)) ∧
    (∀ keysOnly schema attributes compiled,
      (compileProjection keysOnly schema attributes).onEmptyTable = .ok (some compiled) →
        compiled.ReadAs (placeholders compiled.expression.toList)) ∧
    ∀ config target condition strict lenient attributes keysOnly outcome,
      (Command.query target condition strict lenient attributes keysOnly).run config =
          .ok outcome → outcome.status = 0 →
        ∃ parameters, outcome.output = (Json.object parameters).print ++ "\n" ∧
          QueryReadInOrder parameters := by
  refine ⟨?_, ?_, ?_, fun _ _ _ _ _ _ _ _ hrun hstatus => run_query_readInOrder hrun hstatus⟩
  · intro clause keys actions compiled hcompile
    obtain ⟨refs, hpresents⟩ := (Compiling.reads_update clause keys actions).onEmptyTable hcompile
    exact hpresents.readAs
  · intro strict schema partitionText sortText compiled hcompile
    obtain ⟨refs, hpresents, -⟩ :=
      (Compiling.reads_keyCondition strict schema partitionText sortText).onEmptyTable hcompile
    exact hpresents.readAs
  · intro keysOnly schema attributes compiled hcompile
    obtain ⟨refs, -, hpresents⟩ :=
      (Compiling.reads_projection keysOnly schema attributes).onEmptyTable hcompile
    exact hpresents.readAs

set_option maxRecDepth 4000 in
/-- A name and a value are used twice, and the projection of the query uses names of the key
condition again. -/
theorem placeholders_readInOrder_shared :
    let schema : KeySchema := ⟨⟨"id", .string⟩, some ⟨"at", .string⟩⟩
    let actions := [Action.set [.name "a", .index 1] (.arithmetic .plus
      (.path [.name "b", .name "a"]) (.literal (.string "x"))),
      .set [.name "c"] (.literal (.string "x"))]
    let value : Json := .object [("S", .string "x")]
    let update : CompiledExpression := ⟨"SET #p0[1] = #p1.#p0 + :v0, #p2 = :v0",
      [("#p0", "a"), ("#p1", "b"), ("#p2", "c")], [(":v0", value)]⟩
    let condition : CompiledExpression := ⟨"#p0 = :v0", [("#p0", "id")], [(":v0", value)]⟩
    let projection : CompiledExpression := ⟨"#p0, #p1, #p2",
      [("#p0", "id"), ("#p1", "at"), ("#p2", "b")], []⟩
    let query := Command.query ⟨schema, "x", none⟩ (some "> 'x'") false false (some "b,at") false
    let parameters := [("KeyConditionExpression", Json.string "#p0 = :v0 AND #p1 > :v0"),
      ("ExpressionAttributeNames", .object
        [("#p0", .string "id"), ("#p1", .string "at"), ("#p2", .string "b")]),
      ("ExpressionAttributeValues", .object [(":v0", value)]),
      ("ProjectionExpression", .string "#p0, #p1, #p2")]
    let outcome : Outcome := ⟨0, (Json.object parameters).print ++ "\n", ""⟩
    (Update.compile .set ["id"] actions).onEmptyTable = .ok update ∧
      update.ReadAs (placeholders update.expression.toList) ∧
    (compileKeyCondition false schema "x" none).onEmptyTable = .ok condition ∧
      condition.ReadAs (placeholders condition.expression.toList) ∧
    (compileProjection false schema (some ["b", "id"])).onEmptyTable = .ok (some projection) ∧
      projection.ReadAs (placeholders projection.expression.toList) ∧
    query.run ⟨"", .missing⟩ = .ok outcome ∧ outcome.status = 0 ∧
      ∃ parameters, outcome.output = (Json.object parameters).print ++ "\n" ∧
        QueryReadInOrder parameters := by
  intro schema actions value update condition projection query parameters outcome
  have hupdate : (Update.compile .set ["id"] actions).onEmptyTable = .ok update := by cbv
  have hcondition : (compileKeyCondition false schema "x" none).onEmptyTable = .ok condition := by
    cbv
  have hprojection : (compileProjection false schema (some ["b", "id"])).onEmptyTable =
      .ok (some projection) := by cbv
  have hparameters : query.parameters ⟨"", .missing⟩ = .ok parameters := by cbv
  have hrun : query.run ⟨"", .missing⟩ = .ok outcome := by
    rw [Command.run, hparameters]
  obtain ⟨onUpdate, onCondition, onProjection, onQuery⟩ := placeholders_readInOrder
  exact ⟨hupdate, onUpdate _ _ _ _ hupdate, hcondition, onCondition _ _ _ _ _ hcondition,
    hprojection, onProjection _ _ _ _ hprojection, hrun, rfl,
    onQuery _ _ _ _ _ _ _ _ hrun rfl⟩

end AttributeExpr
