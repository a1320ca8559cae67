import AttributeExpr.Proofs.Update.Soundness
import AttributeExpr.Proofs.Value.Failure
/-!
What may keep a path or an update from being read. Paths fail otherwise than with an error of
grammar only at numbers that are no positions, and removals as their paths; assignments fail as
their paths and as their literals.
-/
namespace AttributeExpr

variable {p : Failure → Prop} {fault : Option ExpressionError} {s : Surroundings}
  {tokens rest : List Token}

namespace Path

/-- The numbers among the tokens become positions, unless with a failure that has the property. -/
def Indexes (p : Failure → Prop) (tokens : List Token) : Prop :=
  ∀ token ∈ tokens, ∀ text, token.symbol = .number text →
    FailsOnly p (indexOf token.position text)

theorem Indexes.of_numbers
    (h : Numbers (fun text => ∀ position, FailsOnly p (indexOf position text)) tokens) :
    Indexes p tokens :=
  fun token htoken text htext => h token htoken text htext token.position

/-- What a property has to allow so that the reader of paths fails with it only. -/
structure Permits (p : Failure → Prop) (fault : Option ExpressionError) (tokens : List Token) :
    Prop extends Reading.Allows p fault tokens where
  indexes : Indexes p tokens

theorem Permits.subset {tokens' : List Token} (h : Permits p fault tokens)
    (hsub : tokens' ⊆ tokens) : Permits p fault tokens' where
  toAllows := h.toAllows.subset hsub
  indexes token htoken := h.indexes token (hsub htoken)

theorem Permits.of_refused (refused : ∀ error : ExpressionError, p (.refused error))
    (indexes : Numbers (fun text => ∀ position, FailsOnly p (indexOf position text)) tokens) :
    Permits p fault tokens where
  grammar error _ := refused error
  atEnd error _ := refused error
  indexes := .of_numbers indexes

theorem failsOnly_readSegments (permits : Permits p s.fault tokens) :
    FailsOnly p (readSegments s tokens) := by
  fun_induction readSegments s tokens with
  | case1 => exact Reading.failsOnly_fail (permits.subset (List.nil_subset _)).toAllows
  | case2 position line token behind name hname ih =>
    exact (ih (permits.subset (by simp))).map _
  | case3 => exact Reading.failsOnly_fail (permits.subset (List.subset_cons_self _ _)).toAllows
  | case4 _ _ _ _ _ _ _ behind failure hfailure =>
    have hbehind := permits.subset (List.subset_append_right [_, _, _] behind)
    have hlook := Reading.failsOnly_lookAhead hbehind.toAllows s.afterIndex
    exact failsOnly_error (hlook failure hfailure)
  | case5 position line text position' line' position'' line'' behind _ failure hfailure =>
    have hindex := permits.indexes ⟨.number text, position', line'⟩ (by simp) text rfl
    exact failsOnly_error (hindex failure hfailure)
  | case6 position line text position' line' position'' line'' behind _ segment _ ih =>
    exact (ih (permits.subset (List.subset_append_right [_, _, _] behind))).map _
  | case7 _ _ _ _ _ behind =>
    have hbehind := permits.subset (List.subset_append_right [_, _] behind)
    exact Reading.failsOnly_fail hbehind.toAllows
  | case8 _ _ behind =>
    exact Reading.failsOnly_fail (permits.subset (List.subset_cons_self _ behind)).toAllows
  | case9 => exact failsOnly_ok _

theorem failsOnly_read (permits : Permits p s.fault tokens) : FailsOnly p (read s tokens) := by
  unfold read
  split
  · exact Reading.failsOnly_fail permits.toAllows
  · split
    · exact (failsOnly_readSegments (permits.subset (List.subset_cons_self _ _))).map _
    · exact Reading.failsOnly_fail permits.toAllows

theorem subset_of_read {path : Path} (h : read s tokens = .ok (path, rest)) : rest ⊆ tokens := by
  obtain ⟨front, rfl, -⟩ := read_sound h
  exact List.subset_append_right front rest

theorem Permits.failsOnly_parse {text : String}
    (permits : Permits p (scanNested text).fault (scanNested text).tokens) :
    FailsOnly p (parse text) :=
  Reading.failsOnly_complete permits.toAllows (failsOnly_read permits) fun _ _ => subset_of_read

theorem failsOnly_parse (refused : ∀ error : ExpressionError, p (.refused error)) {text : String}
    (indexes : Numbers (fun text => ∀ position, FailsOnly p (indexOf position text))
      (scanNested text).tokens) : FailsOnly p (parse text) :=
  (Permits.of_refused refused indexes).failsOnly_parse

end Path

namespace Update

/-- What a property has to allow so that the readers of assignments fail with it only: what the
readers of literals and those of paths need. -/
structure Permits (p : Failure → Prop) (fault : Option ExpressionError) (tokens : List Token) :
    Prop extends literals : Value.Permits p fault tokens, paths : Path.Permits p fault tokens

theorem Permits.subset {tokens' : List Token} (h : Permits p fault tokens)
    (hsub : tokens' ⊆ tokens) : Permits p fault tokens' :=
  ⟨h.literals.subset hsub, (h.paths.subset hsub).indexes⟩

theorem Reached.subset {operand : Bool} {formula : Formula}
    (h : Reached operand tokens rest formula) : rest ⊆ tokens := by
  obtain ⟨front, rfl, -⟩ := h
  exact List.subset_append_right front rest

theorem subset_of_expect {mark : Mark} (h : Reading.expect fault mark tokens = .ok rest) :
    rest ⊆ tokens := by
  obtain ⟨token, rfl, -⟩ := Reading.expect_eq_ok h
  exact List.subset_cons_self token rest

theorem failsOnly_callOf {token : Token} (allows : Reading.Allows p fault tokens)
    (h : token ∈ tokens) (name : String) (first second : Formula) :
    FailsOnly p (callOf name token.position first second) := by
  unfold callOf
  split
  · exact failsOnly_ok _
  split
  · split
    · exact failsOnly_ok _
    · exact failsOnly_error (allows.grammar _ (Reading.atToken_of_mem h rfl))
  · exact failsOnly_error (allows.grammar _ (Reading.atToken_of_mem h rfl))

theorem failsOnly_arithmeticOf (typing : ∀ error : TypingError, p (.refused (.typing error)))
    (op : ArithmeticOp) (left right : Formula) : FailsOnly p (arithmeticOf op left right) := by
  have hcheck (formula : Formula) : FailsOnly p (checkOperand op formula) := by
    unfold checkOperand
    split
    · split
      · exact failsOnly_ok ()
      · exact failsOnly_error (typing _)
    · exact failsOnly_ok ()
  exact (hcheck left).bind fun _ _ => (hcheck right).bind fun _ _ => failsOnly_ok _

/-- With this fuel, operands and formulas fail only with what the property allows of their
tokens. -/
structure ReadersFailOnly (p : Failure → Prop) (s : Surroundings) (fuel : Nat) : Prop where
  operand : ∀ tokens, Permits p s.fault tokens → FailsOnly p (readOperand s fuel tokens)
  formula : ∀ tokens, Permits p s.fault tokens → FailsOnly p (readFormula s fuel tokens)

variable {fuel : Nat}

theorem failsOnly_readOperand (h : ReadersFailOnly p s fuel) (permits : Permits p s.fault tokens) :
    FailsOnly p (readOperand s (fuel + 1) tokens) := by
  rw [readOperand.eq_def]
  split
  · next less name position line position' line' rest hfuel =>
    obtain rfl := Nat.succ.inj hfuel
    have hrest := permits.subset (show rest ⊆ _ by simp)
    apply (h.formula _ hrest).bind
    rintro ⟨first, after⟩ hfirst
    have hafter := hrest.subset ((readers_sound s _).2 _ _ _ hfirst).subset
    apply (Reading.failsOnly_expect hafter.toAllows _).bind
    intro behind hbehind
    have hsecond := hafter.subset (subset_of_expect hbehind)
    apply (h.formula _ hsecond).bind
    rintro ⟨second, close⟩ hread
    have hclose := hsecond.subset ((readers_sound s _).2 _ _ _ hread).subset
    apply (Reading.failsOnly_expect hclose.toAllows _).bind
    intro last hlast
    have hlook := (hclose.subset (subset_of_expect hlast)).toAllows
    apply (Reading.failsOnly_lookAhead hlook _).bind
    intro _ _
    have hcall := failsOnly_callOf permits.toAllows List.mem_cons_self name first second
    exact hcall.bind fun _ _ => failsOnly_ok _
  · split
    · exact (Path.failsOnly_read permits.paths).map _
    · exact (Value.failsOnly_read permits.literals).map _
  · exact Reading.failsOnly_fail permits.toAllows

theorem failsOnly_readFormula (h : ReadersFailOnly p s fuel) (permits : Permits p s.fault tokens) :
    FailsOnly p (readFormula s (fuel + 1) tokens) := by
  rw [readFormula.eq_def]
  dsimp only
  split
  · next failure hfailure => exact failsOnly_error (h.operand _ permits failure hfailure)
  · exact failsOnly_ok _
  next left token behind hleft =>
  split
  · exact failsOnly_ok _
  next op _ =>
  have hbehind := permits.subset ((readers_sound s _).1 _ _ _ hleft).subset
  have hright := hbehind.subset (List.subset_cons_self token behind)
  apply (h.operand _ hright).bind
  rintro ⟨right, after⟩ hread
  have hafter := hright.subset ((readers_sound s _).1 _ _ _ hread).subset
  apply (Reading.failsOnly_lookAhead hafter.toAllows _).bind
  intro _ _
  exact (failsOnly_arithmeticOf permits.typing op left right).bind fun _ _ => failsOnly_ok _

theorem readersFailOnly (p : Failure → Prop) (s : Surroundings) (fuel : Nat) :
    ReadersFailOnly p s fuel := by
  induction fuel with
  | zero =>
    refine ⟨?_, fun tokens permits => Reading.failsOnly_fail permits.toAllows⟩
    -- A path or a literal needs no fuel here.
    intro tokens permits
    cases tokens with
    | nil => exact Reading.failsOnly_fail permits.toAllows
    | cons token rest =>
      rw [readOperand.eq_def]
      dsimp only
      split
      · exact (Path.failsOnly_read permits.paths).map _
      · exact (Value.failsOnly_read permits.literals).map _
  | succ fuel ih =>
    exact ⟨fun _ => failsOnly_readOperand ih, fun _ => failsOnly_readFormula ih⟩

theorem failsOnly_readAssignment (permits : Permits p s.fault tokens) :
    FailsOnly p (readAssignment s tokens) := by
  apply (Path.failsOnly_read permits.paths).bind
  rintro ⟨target, after⟩ htarget
  have hafter := permits.subset (Path.subset_of_read htarget)
  apply (Reading.failsOnly_expect hafter.toAllows _).bind
  intro behind hbehind
  have hformula := hafter.subset (subset_of_expect hbehind)
  exact ((readersFailOnly p s _).formula _ hformula).bind fun _ _ => failsOnly_ok _

section Actions

variable {readAction : List Token → Reading Action}
  (hsound : ∀ tokens action rest, readAction tokens = .ok (action, rest) → rest ⊆ tokens)

include hsound

theorem subset_of_readActions {actions : List Action}
    (h : readActions s readAction fuel tokens = .ok (actions, rest)) : rest ⊆ tokens := by
  induction fuel generalizing tokens actions with
  | zero => exact absurd h (Reading.fail_ne_ok _ _ _)
  | succ fuel ih =>
    rw [readActions.eq_def] at h
    dsimp only at h
    split at h
    · contradiction
    · next action position line behind haction =>
      obtain ⟨⟨actions', rest'⟩, hmore, heq⟩ := map_eq_ok_iff.mp h
      obtain ⟨-, rfl⟩ := Prod.mk.inj heq
      have hbehind := List.Subset.trans (List.subset_cons_self _ behind) (hsound _ _ _ haction)
      exact List.Subset.trans (ih hmore) hbehind
    · next action behind _ haction =>
      obtain ⟨-, rfl⟩ := Prod.mk.inj (Except.ok.inj h)
      exact hsound _ _ _ haction

/-- Actions fail as the single ones do. -/
theorem failsOnly_readActions (allows : Reading.Allows p s.fault tokens)
    (hread : ∀ tokens', tokens' ⊆ tokens → FailsOnly p (readAction tokens')) (fuel : Nat) :
    FailsOnly p (readActions s readAction fuel tokens) := by
  induction fuel generalizing tokens with
  | zero => exact Reading.failsOnly_fail allows
  | succ fuel ih =>
    rw [readActions.eq_def]
    dsimp only
    split
    · next failure hfailure =>
      exact failsOnly_error (hread tokens (List.Subset.refl _) failure hfailure)
    · next action position line behind haction =>
      have hbehind := List.Subset.trans (List.subset_cons_self _ behind) (hsound _ _ _ haction)
      refine (ih (allows.subset hbehind) fun tokens' htokens => ?_).map _
      exact hread tokens' (List.Subset.trans htokens hbehind)
    · exact failsOnly_ok _

end Actions

variable {text : String}

theorem subset_of_readAssignment {action : Action}
    (h : readAssignment s tokens = .ok (action, rest)) : rest ⊆ tokens := by
  obtain ⟨front, rfl, -⟩ := readAssignment_sound h
  exact List.subset_append_right front rest

theorem subset_of_readRemoval {action : Action} (h : readRemoval s tokens = .ok (action, rest)) :
    rest ⊆ tokens := by
  obtain ⟨front, rfl, -⟩ := readRemoval_sound h
  exact List.subset_append_right front rest

theorem Permits.failsOnly_parseSet
    (permits : Permits p (scanNested text).fault (scanNested text).tokens) :
    FailsOnly p (parseSet text) := by
  apply Reading.failsOnly_complete permits.toAllows
  · refine failsOnly_readActions (fun _ _ _ => subset_of_readAssignment) permits.toAllows ?_ _
    exact fun _ htokens => failsOnly_readAssignment (permits.subset htokens)
  · exact fun _ _ => subset_of_readActions fun _ _ _ => subset_of_readAssignment

theorem failsOnly_parseRemove_of_permits
    (permits : Path.Permits p (scanNested text).fault (scanNested text).tokens) :
    FailsOnly p (parseRemove text) := by
  apply Reading.failsOnly_complete permits.toAllows
  · refine failsOnly_readActions (fun _ _ _ => subset_of_readRemoval) permits.toAllows ?_ _
    exact fun _ htokens => (Path.failsOnly_read (permits.subset htokens)).map _
  · exact fun _ _ => subset_of_readActions fun _ _ _ => subset_of_readRemoval

/-- The numbers among the tokens keep neither a set nor a path from being built, unless with a
failure that has the property. -/
structure NumbersFailOnly (p : Failure → Prop) (tokens : List Token) : Prop where
  elements : Numbers (fun text => FailsOnly p (comparable text)) tokens
  indexes : Numbers (fun text => ∀ position, FailsOnly p (Path.indexOf position text)) tokens

theorem failsOnly_parseSet (refused : ∀ error : ExpressionError, p (.refused error))
    (numbers : NumbersFailOnly p (scanNested text).tokens) : FailsOnly p (parseSet text) :=
  Permits.failsOnly_parseSet
    ⟨.of_refused refused numbers.elements, .of_numbers numbers.indexes⟩

theorem failsOnly_parseRemove (refused : ∀ error : ExpressionError, p (.refused error))
    (indexes : Numbers (fun text => ∀ position, FailsOnly p (Path.indexOf position text))
      (scanNested text).tokens) : FailsOnly p (parseRemove text) :=
  failsOnly_parseRemove_of_permits (.of_refused refused indexes)

end Update

end AttributeExpr
