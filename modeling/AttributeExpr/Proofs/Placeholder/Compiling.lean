import AttributeExpr.Proofs.Placeholder.Table
/-!
Steps of compilation. A step either leaves the table or adds to it what it does not hold yet, and
steps that are made of such steps do the same, whether they succeed or fail half-way.
-/
namespace AttributeExpr.Compiling

variable {α β : Type} {table table' : PlaceholderTable}

theorem run_ofExcept (outcome : Except Failure α) (table : PlaceholderTable) :
    (ofExcept outcome).run table = (outcome, table) := rfl

theorem run_bind (steps : Compiling α) (next : α → Compiling β) (table : PlaceholderTable) :
    (steps >>= next).run table =
      match steps.run table with
      | (.ok a, table) => (next a).run table
      | (.error failure, table) => (.error failure, table) := by
  rw [ExceptT.run_bind]
  change StateT.bind steps.run _ table = _
  unfold StateT.bind
  cases steps.run table with
  | mk outcome after => cases outcome <;> rfl

theorem run_bind_of_ok {steps : Compiling α} {next : α → Compiling β} {a : α}
    (h : steps.run table = (.ok a, table')) :
    (steps >>= next).run table = (next a).run table' := by
  rw [run_bind, h]

/-- The steps before succeed with a result from which the further steps succeed. -/
theorem run_bind_eq_ok {steps : Compiling α} {next : α → Compiling β} {b : β}
    (h : (steps >>= next).run table = (.ok b, table')) :
    ∃ a between, steps.run table = (.ok a, between) ∧ (next a).run between = (.ok b, table') := by
  rw [run_bind] at h
  split at h
  · next a between ha => exact ⟨a, between, ha, h⟩
  · cases h

theorem run_of_onEmptyTable {steps : Compiling α} {a : α} (h : steps.onEmptyTable = .ok a) :
    ∃ table, steps.run PlaceholderTable.empty = (.ok a, table) :=
  ⟨_, Prod.ext h rfl⟩

/-- A check that has not thrown has not changed anything either. -/
theorem run_unless_eq_ok {c : Prop} [Decidable c] {failure : Failure}
    {next : β → Compiling α} {steps : Compiling α} {a : α}
    (hrun : (if c then throw failure >>= next else steps).run table = (.ok a, table')) :
    ¬ c ∧ steps.run table = (.ok a, table') := by
  split_ifs at hrun with hc
  · obtain ⟨_, _, hthrow, -⟩ := run_bind_eq_ok hrun
    cases hthrow
  · exact ⟨hc, hrun⟩

theorem run_nameRef (name : String) (table : PlaceholderTable) :
    (nameRef name).run table =
      match table.nameRef? name with
      | some ref => (.ok ref, table)
      | none => (.ok (table.addName name).1, (table.addName name).2) := by
  show (match table.nameRef? name with | some ref => _ | none => _ : Compiling String).run table = _
  cases table.nameRef? name <;> rfl

theorem run_valueRef (value : Value) (table : PlaceholderTable) :
    (valueRef value).run table =
      match value.checkComparable with
      | .error failure => (.error failure, table)
      | .ok () =>
        match table.valueRef? value with
        | some ref => (.ok ref, table)
        | none =>
          match value.encode with
          | .error failure => (.error failure, table)
          | .ok wire => (.ok (table.addValue value wire).1, (table.addValue value wire).2) := by
  rw [valueRef, run_bind, run_ofExcept]
  cases value.checkComparable with
  | error failure => rfl
  | ok _ =>
    show (match table.valueRef? value with | some ref => _ | none => _ : Compiling String).run
      table = _
    cases table.valueRef? value with
    | some ref => rfl
    | none =>
      show (ofExcept value.encode >>= _ : Compiling String).run table = _
      rw [run_bind, run_ofExcept]
      cases value.encode <;> rfl

/-- The steps only add new names and values to a table. -/
def Allocates (numeral : String → Prop) (steps : Compiling α) : Prop :=
  ∀ table : PlaceholderTable, PlaceholderTable.Grows numeral table (steps.run table).2

variable {numeral : String → Prop}

theorem allocates_pure (a : α) : Allocates numeral (pure a) := fun _ => .refl

theorem allocates_throw (failure : Failure) : Allocates numeral (throw failure : Compiling α) :=
  fun _ => .refl

theorem allocates_compiled (expression : String) : Allocates numeral (compiled expression) :=
  fun _ => .refl

theorem Allocates.bind {steps : Compiling α} {next : α → Compiling β} (h : Allocates numeral steps)
    (hnext : ∀ a, Allocates numeral (next a)) : Allocates numeral (steps >>= next) := by
  intro table
  have hsteps := h table
  rw [run_bind]
  split
  · next a between ha =>
    rw [ha] at hsteps
    exact hsteps.trans (hnext a between)
  · next failure between ha =>
    rw [ha] at hsteps
    exact hsteps

/-- Only a result that is there matters for what follows. -/
theorem allocates_ofExcept_bind {outcome : Except Failure α} {next : α → Compiling β}
    (h : ∀ a, outcome = .ok a → Allocates numeral (next a)) :
    Allocates numeral (ofExcept outcome >>= next) := by
  intro table
  rw [run_bind, run_ofExcept]
  cases houtcome : outcome with
  | error failure => exact .refl
  | ok a => exact h a houtcome table

theorem allocates_nameRef (name : String) : Allocates numeral (nameRef name) := by
  intro table
  rw [run_nameRef]
  split
  · exact .refl
  · next fresh => exact .single (.name fresh)

theorem allocates_valueRef {value : Value} (sound : value.WellFormed numeral) :
    Allocates numeral (valueRef value) := by
  intro table
  rw [run_valueRef]
  split
  · exact .refl
  split
  · exact .refl
  next fresh =>
  split
  · exact .refl
  · next wire encodes => exact .single (.value sound fresh encodes)

/-- Steps that are put together from references to names and to suitable values, from outcomes that
fail only with the property, and from looks at the table. -/
inductive Composed (suits : Value → Prop) (p : Failure → Prop) :
    {α : Type} → Compiling α → Prop where
  | done {α : Type} (a : α) : Composed suits p (pure a)
  | fail {α : Type} {failure : Failure} (h : p failure) :
      Composed suits p (throw failure : Compiling α)
  | name (name : String) : Composed suits p (nameRef name)
  | value {value : Value} (h : suits value) : Composed suits p (valueRef value)
  | compiled (expression : String) : Composed suits p (compiled expression)
  | outcome {α β : Type} {outcome : Except Failure α} {next : α → Compiling β}
      (h : FailsOnly p outcome) (further : ∀ a, outcome = .ok a → Composed suits p (next a)) :
      Composed suits p (ofExcept outcome >>= next)
  | bind {α β : Type} {steps : Compiling α} {next : α → Compiling β}
      (first : Composed suits p steps) (further : ∀ a, Composed suits p (next a)) :
      Composed suits p (steps >>= next)

variable {suits : Value → Prop} {p : Failure → Prop} {steps : Compiling α}

theorem Composed.allocates (h : Composed (·.WellFormed numeral) p steps) :
    Allocates numeral steps := by
  induction h with
  | done a => exact allocates_pure a
  | fail => exact allocates_throw _
  | name name => exact allocates_nameRef name
  | value sound => exact allocates_valueRef sound
  | compiled expression => exact allocates_compiled expression
  | outcome _ _ ih => exact allocates_ofExcept_bind ih
  | bind _ _ ih ih' => exact ih.bind ih'

/-- Composed steps fail only with the property, if a value that cannot be encoded does. -/
theorem Composed.failsOnly (h : Composed (·.WellFormed numeral) p steps)
    (refused : ∀ error : ExpressionError, p (.refused error)) (table : PlaceholderTable) :
    FailsOnly p (steps.run table).1 := by
  induction h generalizing table with
  | done a => exact failsOnly_ok a
  | fail h => exact failsOnly_error h
  | name name =>
    rw [run_nameRef]
    split <;> exact failsOnly_ok _
  | @value value sound =>
    rw [run_valueRef, sound.checkComparable]
    dsimp only
    split
    · exact failsOnly_ok _
    · have hencode := Value.failsOnly_encode refused value
      cases hwire : value.encode with
      | error failure => exact failsOnly_error (hencode failure hwire)
      | ok wire => exact failsOnly_ok _
  | compiled expression => exact failsOnly_ok _
  | @outcome _ _ outcome next h _ ih =>
    rw [run_bind, run_ofExcept]
    cases houtcome : outcome with
    | error failure => exact failsOnly_error (h failure houtcome)
    | ok a => exact ih a houtcome table
  | @bind _ _ steps next _ _ ih ih' =>
    have hsteps := ih table
    rw [run_bind]
    split
    · next a between _ => exact ih' a between
    · next failure between hrun =>
      rw [hrun] at hsteps
      exact failsOnly_error (hsteps failure rfl)

theorem Composed.onEmptyTable (h : Composed (·.WellFormed numeral) p steps)
    (refused : ∀ error : ExpressionError, p (.refused error)) : FailsOnly p steps.onEmptyTable :=
  h.failsOnly refused PlaceholderTable.empty

theorem composed_mapM {as : List α} {f : α → Compiling β}
    (h : ∀ a ∈ as, Composed suits p (f a)) : Composed suits p (as.mapM f) := by
  induction as with
  | nil => exact .done []
  | cons a as ih =>
    obtain ⟨ha, has⟩ := List.forall_mem_cons.mp h
    rw [List.mapM_cons]
    exact ha.bind fun b => (ih has).bind fun bs => .done _

/-- A step that fails to refer to a value leaves the table as it was. -/
theorem valueRef_error {value : Value} {failure : Failure}
    (h : (valueRef value).run table = (.error failure, table')) : table' = table := by
  rw [run_valueRef] at h
  split at h
  · exact (Prod.mk.inj h).2.symm
  split at h
  · cases h
  split at h
  · exact (Prod.mk.inj h).2.symm
  · cases h

end AttributeExpr.Compiling
