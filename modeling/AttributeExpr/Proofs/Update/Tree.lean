import AttributeExpr.Proofs.Path.Tree
import AttributeExpr.Proofs.Update.Clause
import AttributeExpr.Proofs.Value.Tree
/-!
Derivation trees of updates. An operand ends where neither a step of a path nor an opening
parenthesis follows, and a formula ends where no sign follows either. There the tree can be told
from its symbols: a literal never begins with a name, and a name before a parenthesis is a call.
-/
namespace AttributeExpr.Update

/-- A derivation of a formula. -/
inductive Tree
  | literal (tree : Value.Tree)
  | path (tree : Path.Tree)
  | call (name : String) (first second : Tree)
  | arithmetic (op : ArithmeticOp) (left right : Tree)

/-- The leaves of a tree. -/
def Tree.symbols : Tree → List Symbol
  | literal tree => tree.symbols
  | path tree => tree.symbols
  | call name first second => callSymbols name first.symbols second.symbols
  | arithmetic op left right => left.symbols ++ .mark (opMark op) :: right.symbols

/-- The rules of the grammar hold at all nodes of the tree, and together they make the formula. -/
inductive Tree.Denotes : (operand : Bool) → Tree → Formula → Prop where
  | literal {tree : Value.Tree} {value : Value} (h : tree.Denotes value) :
      Denotes true (.literal tree) (.literal value)
  | path {tree : Path.Tree} {path : Path} (h : tree.Denotes path) :
      Denotes true (.path tree) (.path path)
  | listAppend {first second : Tree} {left right : Formula} (hleft : Denotes false first left)
      (hright : Denotes false second right) :
      Denotes true (.call "list_append" first second) (.listAppend left right)
  | ifNotExists {first second : Tree} {path : Path} {otherwise : Formula}
      (hpath : Denotes false first (.path path)) (hotherwise : Denotes false second otherwise) :
      Denotes true (.call "if_not_exists" first second) (.ifNotExists path otherwise)
  | operand {tree : Tree} {formula : Formula} (h : Denotes true tree formula) :
      Denotes false tree formula
  | arithmetic {op : ArithmeticOp} {first second : Tree} {left right : Formula}
      (hleft : Denotes true first left) (hright : Denotes true second right)
      (addend : IsAddend left) (addend' : IsAddend right) :
      Denotes false (.arithmetic op first second) (.arithmetic op left right)

/-- A derivation of an action. -/
inductive ActionTree
  | set (target : Path.Tree) (formula : Tree)
  | remove (target : Path.Tree)

def ActionTree.symbols : ActionTree → List Symbol
  | set target formula => target.symbols ++ .mark .equal :: formula.symbols
  | remove target => target.symbols

inductive ActionTree.Denotes : Clause → ActionTree → Action → Prop where
  | set {tree : Path.Tree} {target : Path} {formulaTree : Tree} {formula : Formula}
      (htarget : tree.Denotes target) (hformula : formulaTree.Denotes false formula) :
      Denotes .set (.set tree formulaTree) (.set target formula)
  | remove {tree : Path.Tree} {target : Path} (htarget : tree.Denotes target) :
      Denotes .remove (.remove tree) (.remove target)

/-! Derivations as trees. -/

section

variable {operand : Bool} {tree : Tree} {formula : Formula} {symbols : List Symbol}

theorem Tree.Denotes.derives (h : tree.Denotes operand formula) :
    Derives operand tree.symbols formula := by
  induction h with
  | literal h => exact .literal h.derives
  | path h => exact .path h.derives
  | listAppend _ _ ihLeft ihRight => exact .listAppend ihLeft ihRight
  | ifNotExists _ _ ihPath ih => exact .ifNotExists ihPath.path_inv ih
  | operand _ ih => exact .operand ih
  | arithmetic _ _ addend addend' ihLeft ihRight =>
    exact .arithmetic ihLeft ihRight addend addend'

theorem Derives.exists_tree (h : Derives operand symbols formula) :
    ∃ tree : Tree, tree.symbols = symbols ∧ tree.Denotes operand formula := by
  induction h with
  | literal h =>
    obtain ⟨tree, rfl, htree⟩ := h.exists_tree
    exact ⟨.literal tree, rfl, .literal htree⟩
  | path h =>
    obtain ⟨tree, rfl, htree⟩ := h.exists_tree
    exact ⟨.path tree, rfl, .path htree⟩
  | listAppend _ _ ihLeft ihRight =>
    obtain ⟨first, rfl, hfirst⟩ := ihLeft
    obtain ⟨second, rfl, hsecond⟩ := ihRight
    exact ⟨.call "list_append" first second, rfl, .listAppend hfirst hsecond⟩
  | ifNotExists hpath _ ih =>
    obtain ⟨first, rfl, hfirst⟩ := hpath.exists_tree
    obtain ⟨second, rfl, hsecond⟩ := ih
    exact ⟨.call "if_not_exists" (.path first) second, rfl,
      .ifNotExists (.operand (.path hfirst)) hsecond⟩
  | operand _ ih =>
    obtain ⟨tree, rfl, htree⟩ := ih
    exact ⟨tree, rfl, .operand htree⟩
  | @arithmetic op _ _ _ _ _ _ addend addend' ihLeft ihRight =>
    obtain ⟨first, rfl, hfirst⟩ := ihLeft
    obtain ⟨second, rfl, hsecond⟩ := ihRight
    exact ⟨.arithmetic op first second, rfl, .arithmetic hfirst hsecond addend addend'⟩

end

section

variable {clause : Clause} {action : Action}

theorem ActionTree.Denotes.derives {tree : ActionTree} (h : tree.Denotes clause action) :
    DerivesAction clause tree.symbols action := by
  cases h with
  | set htarget hformula => exact DerivesAssignment.set htarget.derives hformula.derives
  | remove htarget => exact DerivesRemoval.remove htarget.derives

theorem DerivesAction.exists_tree {symbols : List Symbol}
    (h : DerivesAction clause symbols action) :
    ∃ tree : ActionTree, tree.symbols = symbols ∧ tree.Denotes clause action := by
  cases clause with
  | set =>
    cases h with
    | set htarget hformula =>
      obtain ⟨target, rfl, htree⟩ := htarget.exists_tree
      obtain ⟨formula, rfl, htree'⟩ := hformula.exists_tree
      exact ⟨.set target formula, rfl, .set htree htree'⟩
  | remove =>
    cases h with
    | remove htarget =>
      obtain ⟨target, rfl, htree⟩ := htarget.exists_tree
      exact ⟨.remove target, rfl, .remove htree⟩

end

/-! At most one tree. -/

/-- The symbols of which one may stand behind an operand or a formula. -/
def mayFollow (operand : Bool) : Symbol → Bool :=
  if operand then mayFollowCall else mayFollowFormula

/-- An operand or a formula may end before these symbols. -/
def Ends (operand : Bool) (symbols : List Symbol) : Prop :=
  ∀ symbol ∈ symbols.head?, mayFollow operand symbol = true

section

variable {r r' : List Symbol}

theorem ends_cons {operand : Bool} {symbol : Symbol} (h : mayFollow operand symbol = true)
    (symbols : List Symbol) : Ends operand (symbol :: symbols) := by
  intro first hfirst
  obtain rfl : symbol = first := by simpa using hfirst
  exact h

theorem Ends.operand (h : Ends false r) : Ends true r :=
  fun symbol hsymbol => mayFollowCall_of_formula (h symbol hsymbol)

theorem Ends.cases {symbol : Symbol} (h : Ends true (symbol :: r)) :
    symbol = .mark .plus ∨ symbol = .mark .minus ∨ symbol = .mark .comma ∨
      symbol = .mark (.closing .paren) :=
  mayFollowCall_cases (h symbol rfl)

theorem Ends.noStep (h : Ends true r) : Path.NoStep r := by
  cases r with
  | nil => simp [Path.NoStep]
  | cons symbol r => rcases h.cases with rfl | rfl | rfl | rfl <;> simp [Path.NoStep]

theorem not_ends_opening (r : List Symbol) : ¬ Ends true (.mark (.opening .paren) :: r) := by
  intro h
  simpa using h.cases

theorem not_ends_sign (op : ArithmeticOp) (r : List Symbol) :
    ¬ Ends false (.mark (opMark op) :: r) := by
  intro h
  have hsign := h _ rfl
  cases op <;> contradiction

theorem ends_sign (op : ArithmeticOp) (r : List Symbol) : Ends true (.mark (opMark op) :: r) :=
  ends_cons (by cases op <;> rfl) r

theorem nameText?_name (name : String) : Path.nameText? (.name name) = some name := rfl

/-- No literal begins with a name. -/
theorem literal_append_ne {tree : Value.Tree} {value : Value} (h : tree.Denotes value)
    {symbol : Symbol} {name : String} (hname : Path.nameText? symbol = some name) :
    tree.symbols ++ r ≠ symbol :: r' := by
  obtain ⟨first, rest, hfirst, hnone⟩ := nameText?_of_value h.derives
  rw [hfirst]
  rintro ⟨⟩
  rw [hname] at hnone
  contradiction

/-- No path ends before a parenthesis. -/
theorem path_append_ne {tree : Path.Tree} (hr : Ends true r) (name : String)
    (first second : Tree) : tree.symbols ++ r ≠ (Tree.call name first second).symbols ++ r' := by
  obtain ⟨symbol, steps⟩ := tree
  intro heq
  cases steps with
  | nil =>
    obtain rfl := (List.cons.inj heq).2
    exact not_ends_opening _ hr
  | cons step steps => cases step <;> cases (List.cons.inj heq).2

end

/-- An operand is a literal, a path or a call. -/
theorem Tree.Denotes.operand_cases {tree : Tree} {formula : Formula}
    (h : tree.Denotes true formula) :
    (∃ literal value, tree = .literal literal ∧ literal.Denotes value) ∨
      (∃ path target, tree = .path path ∧ path.Denotes target) ∨
      ∃ name first second left right, tree = .call name first second ∧
        first.Denotes false left ∧ second.Denotes false right := by
  cases h with
  | literal h => exact .inl ⟨_, _, rfl, h⟩
  | path h => exact .inr (.inl ⟨_, _, rfl, h⟩)
  | listAppend hleft hright => exact .inr (.inr ⟨_, _, _, _, _, rfl, hleft, hright⟩)
  | ifNotExists hpath hotherwise => exact .inr (.inr ⟨_, _, _, _, _, rfl, hpath, hotherwise⟩)

/-- The tree can be told from symbols that begin with its own, where it may end. -/
def Readable (operand : Bool) (tree : Tree) : Prop :=
  ∀ ⦃tree' : Tree⦄ ⦃formula' : Formula⦄, tree'.Denotes operand formula' →
    ∀ ⦃r r' : List Symbol⦄, Ends operand r → Ends operand r' →
      tree.symbols ++ r = tree'.symbols ++ r' → tree = tree' ∧ r = r'

theorem readable_call {name : String} {first second : Tree} (hfirst : Readable false first)
    (hsecond : Readable false second) : Readable true (.call name first second) := by
  intro tree' formula' h' r r' _ hr' heq
  rcases h'.operand_cases with ⟨literal, value, rfl, hliteral⟩ | ⟨path, target, rfl, -⟩ |
    ⟨name', first', second', left', right', rfl, hleft', hright'⟩
  · exact absurd heq.symm (literal_append_ne hliteral (nameText?_name name))
  · exact absurd heq.symm (path_append_ne hr' name first second)
  · simp only [Tree.symbols, callSymbols, List.cons_append, List.append_assoc, List.nil_append,
      List.cons.injEq, Symbol.name.injEq, true_and] at heq
    obtain ⟨rfl, heq⟩ := heq
    obtain ⟨rfl, hcomma⟩ := hfirst hleft' (ends_cons rfl _) (ends_cons rfl _) heq
    obtain ⟨rfl, hclose⟩ :=
      hsecond hright' (ends_cons rfl _) (ends_cons rfl _) (List.cons.inj hcomma).2
    exact ⟨rfl, (List.cons.inj hclose).2⟩

theorem Tree.Denotes.readable {operand : Bool} {tree : Tree} {formula : Formula}
    (h : tree.Denotes operand formula) : Readable operand tree := by
  induction h with
  | literal h =>
    intro tree' formula' h' r r' _ _ heq
    rcases h'.operand_cases with ⟨literal, value, rfl, hliteral⟩ | ⟨path, target, rfl, hpath⟩ |
      ⟨name, first, second, left, right, rfl, -, -⟩
    · obtain ⟨rfl, rfl⟩ := h.symbols_append_inj hliteral heq
      exact ⟨rfl, rfl⟩
    · obtain ⟨name, hname⟩ := hpath.first_name
      exact absurd heq (literal_append_ne h hname)
    · exact absurd heq (literal_append_ne h (nameText?_name name))
  | path h =>
    intro tree' formula' h' r r' hr hr' heq
    rcases h'.operand_cases with ⟨literal, value, rfl, hliteral⟩ | ⟨path, target, rfl, -⟩ |
      ⟨name, first, second, left, right, rfl, -, -⟩
    · obtain ⟨name, hname⟩ := h.first_name
      exact absurd heq.symm (literal_append_ne hliteral hname)
    · obtain ⟨rfl, rfl⟩ := Path.Tree.symbols_append_inj hr.noStep hr'.noStep heq
      exact ⟨rfl, rfl⟩
    · exact absurd heq (path_append_ne hr name first second)
  | listAppend _ _ ihLeft ihRight => exact readable_call ihLeft ihRight
  | ifNotExists _ _ ihPath ih => exact readable_call ihPath ih
  | operand _ ih =>
    intro tree' formula' h' r r' hr hr' heq
    cases h' with
    | operand h' => exact ih h' hr.operand hr'.operand heq
    | @arithmetic op _ _ _ _ hleft' =>
      simp only [Tree.symbols, List.append_assoc, List.cons_append] at heq
      obtain ⟨-, rfl⟩ := ih hleft' hr.operand (ends_sign op _) heq
      exact absurd hr (not_ends_sign op _)
  | @arithmetic op _ _ _ _ _ _ _ _ ihLeft ihRight =>
    intro tree' formula' h' r r' hr hr' heq
    simp only [Tree.symbols, List.append_assoc, List.cons_append] at heq
    cases h' with
    | operand h' =>
      obtain ⟨-, rfl⟩ := ihLeft h' (ends_sign op _) hr'.operand heq
      exact absurd hr' (not_ends_sign op _)
    | @arithmetic op' _ _ _ _ hleft' hright' =>
      simp only [Tree.symbols, List.append_assoc, List.cons_append] at heq
      obtain ⟨rfl, hsign⟩ := ihLeft hleft' (ends_sign op _) (ends_sign op' _) heq
      obtain ⟨hop, hright⟩ := List.cons.inj hsign
      obtain rfl : op = op' := by cases op <;> cases op' <;> first | rfl | contradiction
      obtain ⟨rfl, rfl⟩ := ihRight hright' hr.operand hr'.operand hright
      exact ⟨rfl, rfl⟩

/-- The symbols behind an action begin with a comma, if there are any. -/
def EndsAction (symbols : List Symbol) : Prop := ∀ symbol ∈ symbols.head?, symbol = .mark .comma

theorem EndsAction.ends {symbols : List Symbol} (h : EndsAction symbols) : Ends false symbols := by
  intro symbol hsymbol
  rw [h symbol hsymbol]
  rfl

/-- An action can be told from symbols that begin with its own, where it may end. -/
theorem ActionTree.Denotes.symbols_append_inj {clause : Clause} {tree tree' : ActionTree}
    {action action' : Action} (h : tree.Denotes clause action) (h' : tree'.Denotes clause action')
    {r r' : List Symbol} (hr : EndsAction r) (hr' : EndsAction r')
    (heq : tree.symbols ++ r = tree'.symbols ++ r') : tree = tree' ∧ r = r' := by
  cases h with
  | set htarget hformula =>
    cases h' with
    | set htarget' hformula' =>
      simp only [ActionTree.symbols, List.append_assoc, List.cons_append] at heq
      have hequal (symbols : List Symbol) : Path.NoStep (.mark .equal :: symbols) := by
        simp [Path.NoStep]
      obtain ⟨rfl, hrest⟩ := Path.Tree.symbols_append_inj (hequal _) (hequal _) heq
      obtain ⟨rfl, rfl⟩ := hformula.readable hformula' hr.ends hr'.ends (List.cons.inj hrest).2
      exact ⟨rfl, rfl⟩
  | remove htarget =>
    cases h' with
    | remove htarget' =>
      obtain ⟨rfl, rfl⟩ :=
        Path.Tree.symbols_append_inj hr.ends.operand.noStep hr'.ends.operand.noStep heq
      exact ⟨rfl, rfl⟩

end AttributeExpr.Update
