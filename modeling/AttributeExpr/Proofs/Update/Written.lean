import AttributeExpr.Proofs.Placeholder.Operation
import AttributeExpr.Proofs.Placeholder.Reference
/-!
Compiled texts. A relation says how paths, formulas and actions are written with references into a
table, and whatever is compiled is written this way with the references of the table behind it. As
tables only grow, a part stays written as it is while the other parts are compiled.
-/
namespace AttributeExpr.Update

open PlaceholderTable (Coherent Grows)

/-- The segments behind the first. -/
inductive WrittenSegments (table : PlaceholderTable) : List Segment → String → Prop where
  | nil : WrittenSegments table [] ""
  | name {name ref text : String} {segments : List Segment} (held : table.HoldsName name ref)
      (rest : WrittenSegments table segments text) :
      WrittenSegments table (.name name :: segments) ("." ++ ref ++ text)
  | index {text : String} {segments : List Segment} (index : Int)
      (rest : WrittenSegments table segments text) :
      WrittenSegments table (.index index :: segments) ("[" ++ toString index ++ "]" ++ text)

inductive WrittenPath (table : PlaceholderTable) : Path → String → Prop where
  | path {name ref text : String} {segments : List Segment} (held : table.HoldsName name ref)
      (rest : WrittenSegments table segments text) :
      WrittenPath table (.name name :: segments) (ref ++ text)

inductive WrittenFormula (table : PlaceholderTable) : Formula → String → Prop where
  | literal {value : Value} {ref : String} (held : table.HoldsValue value ref) :
      WrittenFormula table (.literal value) ref
  | path {path : Path} {text : String} (written : WrittenPath table path text) :
      WrittenFormula table (.path path) text
  | arithmetic {op : ArithmeticOp} {left right : Formula} {text text' : String}
      (written : WrittenFormula table left text) (written' : WrittenFormula table right text') :
      WrittenFormula table (.arithmetic op left right) (text ++ " " ++ op.text ++ " " ++ text')
  | listAppend {left right : Formula} {text text' : String}
      (written : WrittenFormula table left text) (written' : WrittenFormula table right text') :
      WrittenFormula table (.listAppend left right)
        ("list_append(" ++ text ++ ", " ++ text' ++ ")")
  | ifNotExists {path : Path} {otherwise : Formula} {text text' : String}
      (written : WrittenPath table path text) (written' : WrittenFormula table otherwise text') :
      WrittenFormula table (.ifNotExists path otherwise)
        ("if_not_exists(" ++ text ++ ", " ++ text' ++ ")")

inductive WrittenAction (table : PlaceholderTable) : Action → String → Prop where
  | set {target : Path} {computed : Formula} {text text' : String}
      (written : WrittenPath table target text) (written' : WrittenFormula table computed text') :
      WrittenAction table (.set target computed) (text ++ " = " ++ text')
  | remove {target : Path} {text : String} (written : WrittenPath table target text) :
      WrittenAction table (.remove target) text

/-! What is written stays written while the table grows. -/

section

variable {numeral : String → Prop} {table table' : PlaceholderTable} {text : String}

theorem WrittenSegments.grows {segments : List Segment} (h : WrittenSegments table segments text)
    (grows : Grows numeral table table') : WrittenSegments table' segments text := by
  induction h with
  | nil => exact .nil
  | name held _ ih => exact .name (held.grows grows) ih
  | index index _ ih => exact .index index ih

theorem WrittenPath.grows {path : Path} (h : WrittenPath table path text)
    (grows : Grows numeral table table') : WrittenPath table' path text := by
  cases h with
  | path held rest => exact .path (held.grows grows) (rest.grows grows)

theorem WrittenFormula.grows {formula : Formula} (h : WrittenFormula table formula text)
    (grows : Grows numeral table table') : WrittenFormula table' formula text := by
  induction h with
  | literal held => exact .literal (held.grows grows)
  | path written => exact .path (written.grows grows)
  | arithmetic _ _ ih ih' => exact .arithmetic ih ih'
  | listAppend _ _ ih ih' => exact .listAppend ih ih'
  | ifNotExists written _ ih => exact .ifNotExists (written.grows grows) ih

theorem WrittenAction.grows {action : Action} (h : WrittenAction table action text)
    (grows : Grows numeral table table') : WrittenAction table' action text := by
  cases h with
  | set written written' => exact .set (written.grows grows) (written'.grows grows)
  | remove written => exact .remove (written.grows grows)

end

end AttributeExpr.Update

namespace AttributeExpr.Compiling

open PlaceholderTable (Coherent Grows)
open Update

variable {numeral : String → Prop} {table table' : PlaceholderTable}

theorem Allocates.grows {α : Type} {steps : Compiling α} {a : α} (h : Allocates numeral steps)
    (hrun : steps.run table = (.ok a, table')) : Grows numeral table table' := by
  have hgrows := h table
  rwa [hrun] at hgrows

theorem holdsName_of_nameRef {name ref : String}
    (hrun : (nameRef name).run table = (.ok ref, table')) : table'.HoldsName name ref := by
  obtain ⟨ref', between, hrun', held⟩ := nameRef_holds name table
  obtain ⟨href, rfl⟩ := Prod.mk.inj (hrun'.symm.trans hrun)
  obtain rfl := Except.ok.inj href
  exact held

theorem written_segments {operand : Path} {rest : List Segment} {texts : List String}
    (hrun : (segments operand false rest).run table = (.ok texts, table')) :
    WrittenSegments table' rest (String.join texts) := by
  induction rest generalizing table texts with
  | nil =>
    cases hrun
    exact .nil
  | cons segment rest ih =>
    cases segment with
    | index index =>
      rw [segments] at hrun
      obtain ⟨-, hrun⟩ := run_unless_eq_ok hrun
      obtain ⟨further, between, hrest, hrun⟩ := run_bind_eq_ok hrun
      cases hrun
      simpa [String.append_assoc] using WrittenSegments.index index (ih hrest)
    | name name =>
      rw [segments] at hrun
      obtain ⟨-, hrun⟩ := run_unless_eq_ok hrun
      obtain ⟨ref, between, hname, hrun⟩ := run_bind_eq_ok hrun
      obtain ⟨further, between', hrest, hrun⟩ := run_bind_eq_ok hrun
      cases hrun
      have hgrows := (@allocates_segments (fun _ => True) operand false rest).grows hrest
      have held := (holdsName_of_nameRef hname).grows hgrows
      simpa [String.append_assoc] using WrittenSegments.name held (ih hrest)

theorem written_path {operand : Path} {text : String}
    (hrun : (path operand).run table = (.ok text, table')) : WrittenPath table' operand text := by
  rw [path] at hrun
  obtain ⟨nonempty, hrun⟩ := run_unless_eq_ok hrun
  obtain ⟨texts, between, htexts, hrun⟩ := run_bind_eq_ok hrun
  cases hrun
  cases operand with
  | nil => exact absurd rfl nonempty
  | cons first rest =>
    rw [segments.eq_def] at htexts
    cases first with
    | index index =>
      obtain ⟨hfirst, -⟩ := run_unless_eq_ok htexts
      exact absurd rfl hfirst
    | name name =>
      obtain ⟨-, htexts⟩ := run_unless_eq_ok htexts
      obtain ⟨ref, between', hname, htexts⟩ := run_bind_eq_ok htexts
      obtain ⟨further, between'', hrest, htexts⟩ := run_bind_eq_ok htexts
      cases htexts
      have hgrows := (@allocates_segments (fun _ => True) _ false rest).grows hrest
      have held := (holdsName_of_nameRef hname).grows hgrows
      simpa using WrittenPath.path held (written_segments hrest)

/-- A formula is written behind its compilation, which has allocated what it refers to. -/
theorem written_formula {operand : Formula} {text : String} (h : Coherent numeral table)
    (sound : ∀ value ∈ operand.literals, value.WellFormed numeral)
    (hrun : (formula operand).run table = (.ok text, table')) :
    WrittenFormula table' operand text := by
  induction operand generalizing table table' text with
  | literal value =>
    exact .literal (valueRef_holds h (sound value (by simp [Formula.literals])) hrun)
  | path operand => exact .path (written_path hrun)
  | arithmetic op left right ih ih' | listAppend left right ih ih' =>
    rw [Formula.literals, List.forall_mem_append] at sound
    obtain ⟨first, between, hleft, hrun⟩ := run_bind_eq_ok hrun
    obtain ⟨second, between', hright, hrun⟩ := run_bind_eq_ok hrun
    cases hrun
    have hbetween := ((allocates_formula sound.1).grows hleft).coherent h
    have hgrows := (allocates_formula sound.2).grows hright
    constructor
    · exact (ih h sound.1 hleft).grows hgrows
    · exact ih' hbetween sound.2 hright
  | ifNotExists operand otherwise ih =>
    rw [Formula.literals] at sound
    obtain ⟨first, between, hpath, hrun⟩ := run_bind_eq_ok hrun
    obtain ⟨second, between', hotherwise, hrun⟩ := run_bind_eq_ok hrun
    cases hrun
    have hbetween := ((allocates_path operand).grows hpath).coherent h
    have hgrows := (allocates_formula sound).grows hotherwise
    exact .ifNotExists ((written_path hpath).grows hgrows) (ih hbetween sound hotherwise)

theorem written_action {step : Action} {text : String} (h : Coherent numeral table)
    (sound : ∀ value ∈ step.literals, value.WellFormed numeral)
    (hrun : (action step).run table = (.ok text, table')) : WrittenAction table' step text := by
  cases step with
  | set target computed =>
    obtain ⟨first, between, hpath, hrun⟩ := run_bind_eq_ok hrun
    obtain ⟨second, between', hformula, hrun⟩ := run_bind_eq_ok hrun
    cases hrun
    have hbetween := ((allocates_path target).grows hpath).coherent h
    have hgrows := (allocates_formula sound).grows hformula
    exact .set ((written_path hpath).grows hgrows) (written_formula hbetween sound hformula)
  | remove target => exact .remove (written_path hrun)

theorem written_actions {actions : List Action} {texts : List String} (h : Coherent numeral table)
    (sound : ∀ action ∈ actions, ∀ value ∈ action.literals, value.WellFormed numeral)
    (hrun : (actions.mapM action).run table = (.ok texts, table')) :
    List.Forall₂ (WrittenAction table') actions texts := by
  induction actions generalizing table texts with
  | nil =>
    cases hrun
    exact .nil
  | cons step actions ih =>
    obtain ⟨hstep, hactions⟩ := List.forall_mem_cons.mp sound
    rw [List.mapM_cons] at hrun
    obtain ⟨text, between, htext, hrun⟩ := run_bind_eq_ok hrun
    obtain ⟨further, between', hfurther, hrun⟩ := run_bind_eq_ok hrun
    cases hrun
    have hbetween := ((allocates_action hstep).grows htext).coherent h
    have hgrows := (allocates_actions hactions).grows hfurther
    exact .cons ((written_action h hstep htext).grows hgrows) (ih hbetween hactions hfurther)

end AttributeExpr.Compiling

namespace AttributeExpr.Update

open PlaceholderTable (Coherent)

/-- A compiled clause is its keyword and its actions, written with references of the table that
travels with it. -/
theorem written_of_compile {numeral : String → Prop} {clause : Clause} {keys : List String}
    {actions : List Action} {compiled : CompiledExpression}
    (sound : ∀ action ∈ actions, ∀ value ∈ action.literals, value.WellFormed numeral)
    (hcompile : (compile clause keys actions).onEmptyTable = .ok compiled) :
    ∃ (table : PlaceholderTable) (texts : List String), Coherent numeral table ∧
      List.Forall₂ (WrittenAction table) actions texts ∧
      compiled = table.compiled (clause.keyword ++ " " ++ ", ".intercalate texts) := by
  have hempty := PlaceholderTable.coherent_empty numeral
  obtain ⟨table, hrun⟩ := Compiling.run_of_onEmptyTable hcompile
  have hgrows := (Compiling.allocates_update clause keys sound).grows hrun
  obtain ⟨_, between, hchecked, hrun⟩ := Compiling.run_bind_eq_ok hrun
  rw [Compiling.run_ofExcept] at hchecked
  obtain ⟨-, rfl⟩ := Prod.mk.inj hchecked
  obtain ⟨texts, between', htexts, hrun⟩ := Compiling.run_bind_eq_ok hrun
  cases hrun
  exact ⟨table, texts, hgrows.coherent hempty, Compiling.written_actions hempty sound htexts, rfl⟩

end AttributeExpr.Update
