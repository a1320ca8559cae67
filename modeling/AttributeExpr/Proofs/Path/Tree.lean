import AttributeExpr.Proofs.Path.Grammar
/-!
Derivation trees of paths. As the rule for paths only ever extends a path at its end, a tree is a
first name and the steps behind it. Where neither a point nor an opening bracket follows, there is
only one tree for the symbols of a path.
-/
namespace AttributeExpr.Path

/-- A use of the rule for members or of the rule for positions. -/
inductive Step
  | member (name : Symbol)
  | index (text : String)

namespace Step

def symbols : Step → List Symbol
  | member name => [.mark .dot, name]
  | index text => [.mark (.opening .square), .number text, .mark (.closing .square)]

inductive Denotes : Step → Segment → Prop where
  | member {symbol : Symbol} {name : String} (h : nameText? symbol = some name) :
      Denotes (.member symbol) (.name name)
  | index {text : String} (h : IsIndex text) :
      Denotes (.index text) (.index (Decimal.ofDigits text.toList))

end Step

structure Tree where
  first : Symbol
  steps : List Step

namespace Tree

/-- The leaves of a tree. -/
def symbols (tree : Tree) : List Symbol := tree.first :: tree.steps.flatMap Step.symbols

inductive Denotes : Tree → Path → Prop where
  | path {first : Symbol} {name : String} {steps : List Step} {segments : List Segment}
      (hfirst : nameText? first = some name)
      (hsteps : List.Forall₂ Step.Denotes steps segments) :
      Denotes ⟨first, steps⟩ (.name name :: segments)

end Tree

/-! Derivations as trees. -/

theorem derivesSegments_of_steps {steps : List Step} {segments : List Segment}
    (h : List.Forall₂ Step.Denotes steps segments) :
    DerivesSegments (steps.flatMap Step.symbols) segments := by
  induction h with
  | nil => exact .nil
  | cons hstep _ ih =>
    cases hstep with
    | member hname => exact .name hname ih
    | index hindex => exact .index hindex ih

theorem Tree.Denotes.derives {tree : Tree} {path : Path} (h : tree.Denotes path) :
    Derives tree.symbols path := by
  cases h with
  | path hfirst hsteps => exact .path hfirst (derivesSegments_of_steps hsteps)

/-- A path begins with a name. -/
theorem Tree.Denotes.first_name {tree : Tree} {path : Path} (h : tree.Denotes path) :
    ∃ name, nameText? tree.first = some name := by
  cases h with
  | path hfirst => exact ⟨_, hfirst⟩

theorem DerivesSegments.exists_steps {symbols : List Symbol} {segments : List Segment}
    (h : DerivesSegments symbols segments) :
    ∃ steps : List Step, steps.flatMap Step.symbols = symbols ∧
      List.Forall₂ Step.Denotes steps segments := by
  induction h with
  | nil => exact ⟨[], rfl, .nil⟩
  | @name symbol _ _ _ hname _ ih =>
    obtain ⟨steps, rfl, hsteps⟩ := ih
    exact ⟨.member symbol :: steps, rfl, .cons (.member hname) hsteps⟩
  | @index text _ _ hindex _ ih =>
    obtain ⟨steps, rfl, hsteps⟩ := ih
    exact ⟨.index text :: steps, rfl, .cons (.index hindex) hsteps⟩

theorem Derives.exists_tree {symbols : List Symbol} {path : Path} (h : Derives symbols path) :
    ∃ tree : Tree, tree.symbols = symbols ∧ tree.Denotes path := by
  cases h with
  | @path symbol _ _ _ hname further =>
    obtain ⟨steps, rfl, hsteps⟩ := further.exists_steps
    exact ⟨⟨symbol, steps⟩, rfl, .path hname hsteps⟩

/-! At most one tree. -/

/-- The symbols do not begin with a step. -/
def NoStep (symbols : List Symbol) : Prop :=
  symbols.head? ≠ some (.mark .dot) ∧ symbols.head? ≠ some (.mark (.opening .square))

theorem steps_append_inj {steps steps' : List Step} {r r' : List Symbol} (hr : NoStep r)
    (hr' : NoStep r')
    (heq : steps.flatMap Step.symbols ++ r = steps'.flatMap Step.symbols ++ r') :
    steps = steps' ∧ r = r' := by
  have hstep (step : Step) (more : List Symbol) : ¬ NoStep (step.symbols ++ more) := by
    cases step <;> simp [NoStep, Step.symbols]
  induction steps generalizing steps' with
  | nil =>
    cases steps' with
    | nil => exact ⟨rfl, heq⟩
    | cons step' steps' =>
      obtain rfl := heq
      rw [List.flatMap_cons, List.append_assoc] at hr
      exact absurd hr (hstep _ _)
  | cons step steps ih =>
    cases steps' with
    | nil =>
      obtain rfl := heq
      rw [List.flatMap_cons, List.append_assoc] at hr'
      exact absurd hr' (hstep _ _)
    | cons step' steps' =>
      rw [List.flatMap_cons, List.flatMap_cons, List.append_assoc, List.append_assoc] at heq
      cases step <;> cases step' <;>
        simp only [Step.symbols, List.cons_append, List.nil_append, List.cons.injEq, true_and,
          Symbol.mark.injEq, Symbol.number.injEq, reduceCtorEq, false_and] at heq
      · obtain ⟨rfl, hrest⟩ := heq
        obtain ⟨rfl, rfl⟩ := ih hrest
        exact ⟨rfl, rfl⟩
      · obtain ⟨rfl, hrest⟩ := heq
        obtain ⟨rfl, rfl⟩ := ih hrest
        exact ⟨rfl, rfl⟩

/-- A path can be told from symbols that begin with its own, where no step follows. -/
theorem Tree.symbols_append_inj {tree tree' : Tree} {r r' : List Symbol} (hr : NoStep r)
    (hr' : NoStep r') (heq : tree.symbols ++ r = tree'.symbols ++ r') : tree = tree' ∧ r = r' := by
  obtain ⟨hfirst, hrest⟩ := List.cons.inj heq
  obtain ⟨hsteps, rfl⟩ := steps_append_inj hr hr' hrest
  cases tree
  cases tree'
  cases hfirst
  cases hsteps
  exact ⟨rfl, rfl⟩

end AttributeExpr.Path
