import AttributeExpr.Proofs.Update.Grammar
import AttributeExpr.Proofs.Value.Soundness
import AttributeExpr.Update.Parser
/-!
What the readers of updates accept is derived by the grammar. As operands hold formulas and formulas
operands, the two are inverted apart and put together in one induction on the fuel.
-/
namespace AttributeExpr.Update

variable {s : Surroundings} {fuel : Nat} {tokens rest : List Token}

/-- The tokens in front of `rest` are a formula. -/
def Reached (operand : Bool) (tokens rest : List Token) (formula : Formula) : Prop :=
  ∃ front, tokens = front ++ rest ∧ Derives operand (front.map (·.symbol)) formula

/-- A path as a formula is a path. -/
theorem Derives.path_inv {operand : Bool} {symbols : List Symbol} {path : Path}
    (h : Derives operand symbols (.path path)) : Path.Derives symbols path := by
  generalize hf : Formula.path path = formula at h
  induction h with
  | path h => cases hf; exact h
  | operand _ ih => exact ih hf
  | _ => cases hf

theorem isAddend_of_checkOperand {op : ArithmeticOp} {formula : Formula}
    (h : checkOperand op formula = .ok ()) : IsAddend formula := by
  rintro value rfl
  rw [checkOperand] at h
  split_ifs at h with htype
  · exact htype
  · contradiction

theorem arithmeticOf_eq_ok {op : ArithmeticOp} {left right formula : Formula}
    (h : arithmeticOf op left right = .ok formula) :
    IsAddend left ∧ IsAddend right ∧ formula = .arithmetic op left right := by
  obtain ⟨⟨⟩, hleft, h⟩ := bind_eq_ok_iff.mp h
  obtain ⟨⟨⟩, hright, h⟩ := bind_eq_ok_iff.mp h
  obtain rfl := Except.ok.inj h
  exact ⟨isAddend_of_checkOperand hleft, isAddend_of_checkOperand hright, rfl⟩

/-- The call of one of the two functions on what is reached as its arguments. -/
theorem derives_of_callOf {name : String} {position : Nat} {first second : List Symbol}
    {left right formula : Formula} (hleft : Derives false first left)
    (hright : Derives false second right) (h : callOf name position left right = .ok formula) :
    Derives true (callSymbols name first second) formula := by
  unfold callOf at h
  split_ifs at h with hname hname'
  · obtain rfl := Except.ok.inj h
    subst hname
    exact .listAppend hleft hright
  · subst hname'
    split at h
    · obtain rfl := Except.ok.inj h
      exact .ifNotExists hleft.path_inv hright
    · contradiction
  · contradiction

/-- An operand is a call, or else a path or a literal. -/
theorem readOperand_eq_ok {formula : Formula}
    (h : readOperand s fuel tokens = .ok (formula, rest)) :
    (∃ less name paren comma close function after behind left right,
      fuel = less + 1 ∧ tokens = name :: paren :: after ∧ name.symbol = .name function ∧
      paren.symbol = .mark (.opening .paren) ∧
      readFormula s less after = .ok (left, comma :: behind) ∧ comma.symbol = .mark .comma ∧
      readFormula s less behind = .ok (right, close :: rest) ∧
      close.symbol = .mark (.closing .paren) ∧
      callOf function name.position left right = .ok formula) ∨
    (∃ path, Path.read s tokens = .ok (path, rest) ∧ formula = .path path) ∨
    ∃ value, Value.read s tokens = .ok (value, rest) ∧ formula = .literal value := by
  rw [readOperand.eq_def] at h
  split at h
  · next less function position line position' line' after =>
    obtain ⟨⟨left, tail⟩, hleft, h⟩ := bind_eq_ok_iff.mp h
    obtain ⟨behind, hcomma, h⟩ := bind_eq_ok_iff.mp h
    obtain ⟨⟨right, tail'⟩, hright, h⟩ := bind_eq_ok_iff.mp h
    obtain ⟨rest', hclose, h⟩ := bind_eq_ok_iff.mp h
    obtain ⟨_, _, h⟩ := bind_eq_ok_iff.mp h
    obtain ⟨formula', hcall, h⟩ := bind_eq_ok_iff.mp h
    obtain ⟨rfl, rfl⟩ := Prod.mk.inj (Except.ok.inj h)
    obtain ⟨comma, rfl, hcommaSymbol⟩ := Reading.expect_eq_ok hcomma
    obtain ⟨close, rfl, hcloseSymbol⟩ := Reading.expect_eq_ok hclose
    exact .inl ⟨less, _, _, comma, close, function, after, behind, left, right, rfl, rfl, rfl, rfl,
      hleft, hcommaSymbol, hright, hcloseSymbol, hcall⟩
  · split at h
    · obtain ⟨⟨path, rest'⟩, hpath, heq⟩ := map_eq_ok_iff.mp h
      obtain ⟨rfl, rfl⟩ := Prod.mk.inj heq
      exact .inr (.inl ⟨path, hpath, rfl⟩)
    · obtain ⟨⟨value, rest'⟩, hvalue, heq⟩ := map_eq_ok_iff.mp h
      obtain ⟨rfl, rfl⟩ := Prod.mk.inj heq
      exact .inr (.inr ⟨value, hvalue, rfl⟩)
  · exact absurd h (Reading.fail_ne_ok _ _ _)

theorem arithmeticOp?_eq_some {symbol : Symbol} {op : ArithmeticOp}
    (h : arithmeticOp? symbol = some op) : symbol = .mark (opMark op) := by
  unfold arithmeticOp? at h
  split at h <;> cases h <;> rfl

/-- A formula is one operand, or two with a sign between them. -/
theorem readFormula_eq_ok {formula : Formula}
    (h : readFormula s (fuel + 1) tokens = .ok (formula, rest)) :
    readOperand s fuel tokens = .ok (formula, rest) ∨
      ∃ op sign behind left right, readOperand s fuel tokens = .ok (left, sign :: behind) ∧
        sign.symbol = .mark (opMark op) ∧ readOperand s fuel behind = .ok (right, rest) ∧
        IsAddend left ∧ IsAddend right ∧ formula = .arithmetic op left right := by
  rw [readFormula] at h
  split at h
  · contradiction
  · next left hleft =>
    obtain ⟨rfl, rfl⟩ := Prod.mk.inj (Except.ok.inj h)
    exact .inl hleft
  · next left token behind hleft =>
    split at h
    · obtain ⟨rfl, rfl⟩ := Prod.mk.inj (Except.ok.inj h)
      exact .inl hleft
    · next op hop =>
      obtain ⟨⟨right, rest'⟩, hright, h⟩ := bind_eq_ok_iff.mp h
      obtain ⟨_, _, h⟩ := bind_eq_ok_iff.mp h
      obtain ⟨formula', hformula, h⟩ := bind_eq_ok_iff.mp h
      obtain ⟨rfl, rfl⟩ := Prod.mk.inj (Except.ok.inj h)
      obtain ⟨addend, addend', rfl⟩ := arithmeticOf_eq_ok hformula
      exact .inr ⟨op, token, behind, left, right, hleft, arithmeticOp?_eq_some hop, hright, addend,
        addend', rfl⟩

theorem readers_sound (s : Surroundings) (fuel : Nat) :
    (∀ tokens formula rest, readOperand s fuel tokens = .ok (formula, rest) →
        Reached true tokens rest formula) ∧
      ∀ tokens formula rest, readFormula s fuel tokens = .ok (formula, rest) →
        Reached false tokens rest formula := by
  induction fuel using Nat.strong_induction_on with
  | _ fuel ih =>
    constructor
    · intro tokens formula rest h
      rcases readOperand_eq_ok h with ⟨less, name, paren, comma, close, function, after, behind,
        left, right, rfl, rfl, hname, hparen, hleft, hcomma, hright, hclose, hcall⟩ |
        ⟨path, hpath, rfl⟩ | ⟨value, hvalue, rfl⟩
      · obtain ⟨first, rfl, hfirst⟩ := (ih less (by omega)).2 _ _ _ hleft
        obtain ⟨second, rfl, hsecond⟩ := (ih less (by omega)).2 _ _ _ hright
        refine ⟨name :: paren :: (first ++ comma :: (second ++ [close])), by simp, ?_⟩
        have hderives := derives_of_callOf hfirst hsecond hcall
        simpa [callSymbols, hname, hparen, hcomma, hclose] using hderives
      · obtain ⟨front, rfl, hfront⟩ := Path.read_sound hpath
        exact ⟨front, rfl, .path hfront⟩
      · obtain ⟨front, rfl, hfront⟩ := Value.read_sound hvalue
        exact ⟨front, rfl, .literal hfront⟩
    · intro tokens formula rest h
      cases fuel with
      | zero => exact absurd h (Reading.fail_ne_ok _ _ _)
      | succ fuel =>
        rcases readFormula_eq_ok h with hoperand | ⟨op, sign, behind, left, right, hleft, hsign,
          hright, addend, addend', rfl⟩
        · obtain ⟨front, rfl, hfront⟩ := (ih fuel (by omega)).1 _ _ _ hoperand
          exact ⟨front, rfl, .operand hfront⟩
        · obtain ⟨first, rfl, hfirst⟩ := (ih fuel (by omega)).1 _ _ _ hleft
          obtain ⟨second, rfl, hsecond⟩ := (ih fuel (by omega)).1 _ _ _ hright
          refine ⟨first ++ sign :: second, by simp, ?_⟩
          simpa [hsign] using Derives.arithmetic hfirst hsecond addend addend'

theorem readAssignment_sound {action : Action}
    (h : readAssignment s tokens = .ok (action, rest)) :
    ∃ front, tokens = front ++ rest ∧ DerivesAssignment (front.map (·.symbol)) action := by
  obtain ⟨⟨target, tail⟩, htarget, h⟩ := bind_eq_ok_iff.mp h
  obtain ⟨behind, hequal, h⟩ := bind_eq_ok_iff.mp h
  obtain ⟨⟨formula, rest'⟩, hformula, h⟩ := bind_eq_ok_iff.mp h
  obtain ⟨rfl, rfl⟩ := Prod.mk.inj (Except.ok.inj h)
  obtain ⟨equal, rfl, hsymbol⟩ := Reading.expect_eq_ok hequal
  obtain ⟨first, rfl, hfirst⟩ := Path.read_sound htarget
  obtain ⟨second, rfl, hsecond⟩ := (readers_sound s _).2 _ _ _ hformula
  refine ⟨first ++ equal :: second, by simp, ?_⟩
  simpa [hsymbol] using DerivesAssignment.set hfirst hsecond

theorem readRemoval_sound {action : Action} (h : readRemoval s tokens = .ok (action, rest)) :
    ∃ front, tokens = front ++ rest ∧ DerivesRemoval (front.map (·.symbol)) action := by
  obtain ⟨⟨target, rest'⟩, htarget, heq⟩ := map_eq_ok_iff.mp h
  obtain ⟨rfl, rfl⟩ := Prod.mk.inj heq
  obtain ⟨front, rfl, hfront⟩ := Path.read_sound htarget
  exact ⟨front, rfl, .remove hfront⟩

/-- The actions that are read are what the reader of single actions reaches, between commas. -/
theorem readActions_sound {read : List Token → Reading Action} {P : List Symbol → Action → Prop}
    (hread : ∀ tokens action rest, read tokens = .ok (action, rest) →
      ∃ front, tokens = front ++ rest ∧ P (front.map (·.symbol)) action) {actions : List Action}
    (h : readActions s read fuel tokens = .ok (actions, rest)) :
    ∃ front, ∃ parts : List (List Symbol × Action), tokens = front ++ rest ∧ parts ≠ [] ∧
      front.map (·.symbol) = Value.separated (parts.map (·.1)) ∧
      (∀ part ∈ parts, P part.1 part.2) ∧ actions = parts.map (·.2) := by
  induction fuel generalizing tokens actions with
  | zero => exact absurd h (Reading.fail_ne_ok _ _ _)
  | succ fuel ih =>
    rw [readActions] at h
    split at h
    · contradiction
    · next action position line behind haction =>
      obtain ⟨⟨more, rest'⟩, hmore, heq⟩ := map_eq_ok_iff.mp h
      obtain ⟨rfl, rfl⟩ := Prod.mk.inj heq
      obtain ⟨first, rfl, hfirst⟩ := hread _ _ _ haction
      obtain ⟨front, parts, rfl, nonempty, hfront, hparts, rfl⟩ := ih hmore
      refine ⟨first ++ ⟨.mark .comma, position, line⟩ :: front,
        (first.map (·.symbol), action) :: parts, by simp, by simp, ?_,
        List.forall_mem_cons.mpr ⟨hfirst, hparts⟩, rfl⟩
      simp only [List.map_cons]
      rw [Value.separated_cons _ (by simpa using nonempty)]
      simp [hfront]
    · next action behind _ haction =>
      obtain ⟨rfl, rfl⟩ := Prod.mk.inj (Except.ok.inj h)
      obtain ⟨front, rfl, hfront⟩ := hread _ _ _ haction
      exact ⟨front, [(front.map (·.symbol), action)], rfl, by simp, by simp [Value.separated],
        by simpa using hfront, rfl⟩

/-- The symbols of the tokens of a text. -/
def symbolsOf (text : String) : List Symbol := (scanNested text).tokens.map (·.symbol)

/-- Assignments that are parsed are derived from the symbols of the text. -/
theorem parseSet_sound {text : String} {actions : List Action}
    (h : parseSet text = .ok actions) :
    ∃ parts : List (List Symbol × Action), parts ≠ [] ∧
      symbolsOf text = Value.separated (parts.map (·.1)) ∧
      (∀ part ∈ parts, DerivesAssignment part.1 part.2) ∧ actions = parts.map (·.2) := by
  obtain ⟨-, hread⟩ := Reading.complete_eq_ok h
  obtain ⟨front, parts, htokens, nonempty, hfront, hparts, rfl⟩ :=
    readActions_sound (fun _ _ _ => readAssignment_sound) hread
  rw [List.append_nil] at htokens
  exact ⟨parts, nonempty, by rw [symbolsOf, htokens, hfront], hparts, rfl⟩

/-- Removals that are parsed are derived from the symbols of the text. -/
theorem parseRemove_sound {text : String} {actions : List Action}
    (h : parseRemove text = .ok actions) :
    ∃ parts : List (List Symbol × Action), parts ≠ [] ∧
      symbolsOf text = Value.separated (parts.map (·.1)) ∧
      (∀ part ∈ parts, DerivesRemoval part.1 part.2) ∧ actions = parts.map (·.2) := by
  obtain ⟨-, hread⟩ := Reading.complete_eq_ok h
  obtain ⟨front, parts, htokens, nonempty, hfront, hparts, rfl⟩ :=
    readActions_sound (fun _ _ _ => readRemoval_sound) hread
  rw [List.append_nil] at htokens
  exact ⟨parts, nonempty, by rw [symbolsOf, htokens, hfront], hparts, rfl⟩

end AttributeExpr.Update
