import AttributeExpr.Proofs.Path.Grammar
import AttributeExpr.Proofs.Value.Grammar
import AttributeExpr.Update.Basic
/-!
The grammar of updates, as relations between symbols and actions. A formula is an operand or
combines two of them, and an operand that is a call holds formulas again. Whatever the grammar
derives has matching delimiters, and its commas stand between them.
-/
namespace AttributeExpr.Update

/-- The sign of an operation. -/
def opMark : ArithmeticOp → Mark
  | .plus => .plus
  | .minus => .minus

/-- A literal that is added or subtracted is a number. -/
def IsAddend (formula : Formula) : Prop := ∀ value, formula = .literal value → value.type = .number

/-- A call of a function with two arguments. -/
def callSymbols (name : String) (first second : List Symbol) : List Symbol :=
  .name name :: .mark (.opening .paren) ::
    (first ++ .mark .comma :: (second ++ [.mark (.closing .paren)]))

/-- The symbols are a formula, which may have to be an operand. -/
inductive Derives : (operand : Bool) → List Symbol → Formula → Prop where
  | literal {symbols : List Symbol} {value : Value} (h : Value.Derives symbols value) :
      Derives true symbols (.literal value)
  | path {symbols : List Symbol} {path : Path} (h : Path.Derives symbols path) :
      Derives true symbols (.path path)
  | listAppend {first second : List Symbol} {left right : Formula}
      (hleft : Derives false first left) (hright : Derives false second right) :
      Derives true (callSymbols "list_append" first second) (.listAppend left right)
  | ifNotExists {first second : List Symbol} {path : Path} {otherwise : Formula}
      (hpath : Path.Derives first path) (hotherwise : Derives false second otherwise) :
      Derives true (callSymbols "if_not_exists" first second) (.ifNotExists path otherwise)
  | operand {symbols : List Symbol} {formula : Formula} (h : Derives true symbols formula) :
      Derives false symbols formula
  | arithmetic {op : ArithmeticOp} {first second : List Symbol} {left right : Formula}
      (hleft : Derives true first left) (hright : Derives true second right)
      (addend : IsAddend left) (addend' : IsAddend right) :
      Derives false (first ++ .mark (opMark op) :: second) (.arithmetic op left right)

inductive DerivesAssignment : List Symbol → Action → Prop where
  | set {first second : List Symbol} {target : Path} {formula : Formula}
      (htarget : Path.Derives first target) (hformula : Derives false second formula) :
      DerivesAssignment (first ++ .mark .equal :: second) (.set target formula)

inductive DerivesRemoval : List Symbol → Action → Prop where
  | remove {symbols : List Symbol} {target : Path} (htarget : Path.Derives symbols target) :
      DerivesRemoval symbols (.remove target)

theorem isAddend_number (text : String) : IsAddend (.literal (.number text)) := by
  rintro value ⟨⟩
  rfl

theorem isAddend_path (path : Path) : IsAddend (.path path) := by
  rintro value ⟨⟩

/-! Delimiters match, and commas stand between them. -/

theorem commasInside_mark {mark : Mark} {symbols : List Symbol}
    (h : ∀ bracket, mark ≠ .opening bracket) (h' : ∀ bracket, mark ≠ .closing bracket)
    (hcomma : mark ≠ .comma) (rest : Nesting.CommasInside symbols) :
    Nesting.CommasInside (.mark mark :: symbols) := by
  refine .plain ?_ (fun heq => hcomma (Symbol.mark.inj heq)) rest
  rintro ⟨bracket, heq | heq⟩
  · exact h bracket (Symbol.mark.inj heq)
  · exact h' bracket (Symbol.mark.inj heq)

theorem commasInside_name {symbol : Symbol} {name : String} (h : Path.nameText? symbol = some name)
    {symbols : List Symbol} (rest : Nesting.CommasInside symbols) :
    Nesting.CommasInside (symbol :: symbols) := by
  refine .plain ?_ ?_ rest
  · rintro ⟨bracket, rfl | rfl⟩ <;> contradiction
  · rintro rfl
    contradiction

theorem commasInside_segments {symbols : List Symbol} {segments : List Segment}
    (h : Path.DerivesSegments symbols segments) : Nesting.CommasInside symbols := by
  induction h with
  | nil => exact .nil
  | name hname _ ih =>
    exact commasInside_mark (by simp) (by simp) (by simp) (commasInside_name hname ih)
  | @index text _ _ _ _ ih =>
    have hnumber : ¬ Nesting.IsBracket (.number text) := by
      rintro ⟨bracket, h | h⟩ <;> cases h
    exact .enclosed (.single hnumber) ih

theorem commasInside_path {symbols : List Symbol} {path : Path} (h : Path.Derives symbols path) :
    Nesting.CommasInside symbols := by
  cases h with
  | path hname further => exact commasInside_name hname (commasInside_segments further)

theorem commasInside_call (name : String) {first second : List Symbol}
    (h : Nesting.WellNested first) (h' : Nesting.WellNested second) :
    Nesting.CommasInside (callSymbols name first second) := by
  have hinside := h.append (.plain Value.not_isBracket_comma h')
  have hname : Path.nameText? (.name name) = some name := rfl
  simpa [callSymbols] using commasInside_name hname (.enclose .paren hinside)

theorem Derives.commasInside {operand : Bool} {symbols : List Symbol} {formula : Formula}
    (h : Derives operand symbols formula) : Nesting.CommasInside symbols := by
  induction h with
  | literal h => exact h.commasInside
  | path h => exact commasInside_path h
  | listAppend _ _ ihLeft ihRight =>
    exact commasInside_call _ ihLeft.wellNested ihRight.wellNested
  | ifNotExists hpath _ ih =>
    exact commasInside_call _ (commasInside_path hpath).wellNested ih.wellNested
  | operand _ ih => exact ih
  | @arithmetic op _ _ _ _ _ _ _ _ ihLeft ihRight =>
    refine ihLeft.append (commasInside_mark ?_ ?_ ?_ ihRight) <;> cases op <;> simp [opMark]

theorem DerivesAssignment.commasInside {symbols : List Symbol} {action : Action}
    (h : DerivesAssignment symbols action) : Nesting.CommasInside symbols := by
  cases h with
  | set htarget hformula =>
    exact (commasInside_path htarget).append
      (commasInside_mark (by simp) (by simp) (by simp) hformula.commasInside)

theorem DerivesRemoval.commasInside {symbols : List Symbol} {action : Action}
    (h : DerivesRemoval symbols action) : Nesting.CommasInside symbols := by
  cases h with
  | remove htarget => exact commasInside_path htarget

end AttributeExpr.Update
