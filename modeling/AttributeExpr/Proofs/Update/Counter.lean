import AttributeExpr.Proofs.Context
import AttributeExpr.Proofs.Placeholder.Reference
import AttributeExpr.Proofs.Update.Restoring
import AttributeExpr.Proofs.Update.Target
import AttributeExpr.Update.Compile
import Mathlib
/-!
The assignment that counts. Whatever the name of the attribute is, it is quoted so that the text
spells one assignment, which adds one to the attribute and assigns the sum to it.
-/
namespace AttributeExpr

theorem Lexer.Spelling.quote (name : String) :
    Spelling (Name.quote name).toList [nameSymbol name] :=
  fun _ _ hf => .quote (hf.stops.mono fun _ => extendsOperand_of_extendsWord) (hf.spells _)

namespace Update

theorem toList_atomicCounter (name : String) :
    (atomicCounter name).toList = spacedText .equal (Name.quote name).toList
      (spacedText .plus (Name.quote name).toList ['1']) := by
  simp [atomicCounter, spacedText, Mark.text]

/-- The assignment of an attribute that adds one to it. -/
def increment (name : String) : Action :=
  .set [.name name] (.arithmetic .plus (.path [.name name]) (.literal (.number "1")))

theorem parseSet_counter (name : String) :
    parseSet (atomicCounter name) = .ok [.set [.name name]
      (.arithmetic .plus (.path [.name name]) (.literal (.number "1")))] := by
  have spelling := Lexer.Spelling.quote name
  have hpath : Path.Derives [Lexer.nameSymbol name] [.name name] :=
    .path (Lexer.nameText?_nameSymbol name) .nil
  have hone : Lexer.Spelling ['1'] [.number "1"] :=
    @Lexer.Spelling.number "1" (.plain (Numeral.unsigned_of_isUnsigned (by decide)))
  have hsum : Lexer.Spelling _ _ := .spaced (.inr (.inl rfl)) spelling hone
  have hassigned : Lexer.Spelling _ _ := .spaced (.inl rfl) spelling hsum
  have hformula : Derives false ([Lexer.nameSymbol name] ++ .mark (opMark .plus) :: [.number "1"])
      (.arithmetic .plus (.path [.name name]) (.literal (.number "1"))) :=
    .arithmetic (.path hpath) (.literal (.scalar rfl)) (isAddend_path _) (isAddend_number "1")
  apply @parse_single _ _ .set _ (.set hpath hformula)
  rw [toList_atomicCounter]
  exact hassigned.spells

end Update

namespace Compiling

/-- A path of one name is compiled to the reference to it. -/
theorem run_path_name {name ref : String} {table table' : PlaceholderTable} (nonempty : name ≠ "")
    (h : (nameRef name).run table = (.ok ref, table')) :
    (path [.name name]).run table = (.ok ref, table') := by
  rw [path, if_neg (by simp), segments, if_neg nonempty, bind_assoc, run_bind_of_ok h]
  show (Except.ok (String.join [ref]), table') = (.ok ref, table')
  rw [String.join, List.foldl_cons, List.foldl_nil, String.empty_append]

theorem encode_one : (Value.number "1").encode = .ok (Value.envelope .number (.string "1")) := by
  have within : Value.checkNumbers ["1"] = .ok () := by decide +kernel
  obtain ⟨d, hd⟩ := Value.checkNumbers_eq_ok_iff_forall.mp within "1" (List.mem_singleton_self _)
  exact Value.encode_eq_ok_iff.mpr (map_eq_ok_iff.mpr ⟨d, hd, rfl⟩)

/-- The name is referred to once, although it is there twice. -/
theorem run_increment {name : String} (nonempty : name ≠ "") :
    (action (Update.increment name)).run .empty =
        (.ok "#p0 = #p0 + :v0", ⟨[("#p0", name)],
          [⟨":v0", .number "1", Value.envelope .number (.string "1")⟩]⟩) := by
  let named : PlaceholderTable := ⟨[("#p0", name)], []⟩
  let valued : PlaceholderTable :=
    ⟨[("#p0", name)], [⟨":v0", .number "1", Value.envelope .number (.string "1")⟩]⟩
  have htarget : (path [.name name]).run .empty = (.ok "#p0", named) :=
    run_path_name nonempty rfl
  have hoperand : (path [.name name]).run named = (.ok "#p0", named) := by
    apply run_path_name nonempty
    rw [run_nameRef]
    simp [named, PlaceholderTable.nameRef?]
  have hone : (valueRef (.number "1")).run named = (.ok ":v0", valued) := by
    have sound : (Value.number "1").Sound := .number trivial
    rw [run_valueRef, sound.checkComparable, encode_one]
    have href : PlaceholderTable.valueRef 0 = ":v0" := by decide
    show (Except.ok (PlaceholderTable.valueRef 0),
      (⟨_, [⟨PlaceholderTable.valueRef 0, _, _⟩]⟩ : PlaceholderTable)) = _
    rw [href]
  have hsum : (formula (.arithmetic .plus (.path [.name name]) (.literal (.number "1")))).run
      named = (.ok "#p0 + :v0", valued) := by
    rw [formula, formula, formula, run_bind_of_ok hoperand, run_bind_of_ok hone]
    rfl
  rw [Update.increment, action, run_bind_of_ok htarget, run_bind_of_ok hsum]
  rfl

end Compiling

namespace Update

theorem compile_increment {name : String} {keys : List String} (nonempty : name ≠ "")
    (free : name ∉ keys) :
    (compile .set keys [increment name]).onEmptyTable = .ok ⟨"SET #p0 = #p0 + :v0",
      [("#p0", name)], [(":v0", Value.envelope .number (.string "1"))]⟩ := by
  have belongs : Belongs .set (increment name) :=
    ⟨rfl, by simp [increment, Action.paths, Formula.paths, Path.IsRooted]⟩
  have hchecks : checkActions .set keys [increment name] = .ok () := by
    rw [checkActions_eq_ok_iff (List.cons_ne_nil _ _) (List.forall_mem_singleton.mpr belongs)]
    simpa [increment, topName?, Action.target] using free
  rw [Compiling.onEmptyTable, run_compile_of_checked hchecks, List.mapM_cons, bind_assoc,
    Compiling.run_bind_of_ok (Compiling.run_increment nonempty)]
  rfl

/-- Whatever the name is, the text of a counter is one assignment, which adds one to the attribute
of exactly this name. Unless the name is empty or is one of the keys, the request has a reference to
the name and a reference to the number. -/
theorem parameters_counter (name : String) :
    parseSet (atomicCounter name) = .ok [.set [.name name]
        (.arithmetic .plus (.path [.name name]) (.literal (.number "1")))] ∧
      ∀ keys : List String, name ≠ "" → name ∉ keys →
        parameters keys (some (atomicCounter name)) none = .ok
          [("UpdateExpression", .string "SET #p0 = #p0 + :v0"),
            ("ExpressionAttributeNames", .object [("#p0", .string name)]),
            ("ExpressionAttributeValues",
              .object [(":v0", Value.envelope .number (.string "1"))])] := by
  refine ⟨parseSet_counter name, ?_⟩
  intro keys nonempty free
  rw [parameters, parseSet_counter]
  show ((compile .set keys [increment name]).onEmptyTable >>= fun compiled =>
    Except.ok (compiled.parameters "UpdateExpression")) = _
  rw [compile_increment nonempty free]
  rfl

/-- The name has marks, blanks and a quote of its own. -/
theorem parameters_counter_quoted : "a`, b = 1" ≠ "" ∧ "a`, b = 1" ∉ ["a"] ∧
    parameters ["a"] (some (atomicCounter "a`, b = 1")) none = .ok
      [("UpdateExpression", .string "SET #p0 = #p0 + :v0"),
        ("ExpressionAttributeNames", .object [("#p0", .string "a`, b = 1")]),
        ("ExpressionAttributeValues",
          .object [(":v0", Value.envelope .number (.string "1"))])] :=
  ⟨by decide, by decide, (parameters_counter _).2 ["a"] (by decide) (by decide)⟩

end Update

end AttributeExpr
