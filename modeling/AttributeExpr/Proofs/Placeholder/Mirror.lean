import AttributeExpr.Proofs.Placeholder.Compiling
import AttributeExpr.Proofs.Value.Sharing
/-!
Two compilations side by side. If the names and the values of the one correspond to those of the
other, and are equal in the one exactly where they are equal in the other, then the two tables grow
in step and the references are the same ones.
-/
namespace AttributeExpr

/-- What corresponds is equal on one side exactly if it is equal on the other. -/
def Preserves {α β : Type} (same : α → α → Prop) (same' : β → β → Prop) (R : α → β → Prop) : Prop :=
  ∀ ⦃a a' : α⦄ ⦃b b' : β⦄, R a b → R a' b' → (same a a' ↔ same' b b')

/-- A correspondence of names and one of values that a table cannot tell apart from equality. -/
structure Faithful (N : String → String → Prop) (V : Value → Value → Prop) : Prop where
  names : Preserves Eq Eq N
  values : Preserves Value.Equals Value.Equals V
  sound : ∀ ⦃value value' : Value⦄, V value value' → value.Sound ∧ value'.Sound

namespace PlaceholderTable

variable {N : String → String → Prop} {V : Value → Value → Prop} {table table' : PlaceholderTable}

/-- The tables have the same references, for names and values that correspond. -/
structure Mirrors (N : String → String → Prop) (V : Value → Value → Prop)
    (table table' : PlaceholderTable) : Prop where
  names : List.Forall₂ (fun entry entry' => entry.1 = entry'.1 ∧ N entry.2 entry'.2)
    table.names table'.names
  values : List.Forall₂ (fun entry entry' => entry.ref = entry'.ref ∧ V entry.value entry'.value)
    table.values table'.values

theorem mirrors_empty : Mirrors N V empty empty := ⟨.nil, .nil⟩

theorem Mirrors.nameRef? (h : Mirrors N V table table') (faithful : Faithful N V)
    {name name' : String} (hname : N name name') : table.nameRef? name = table'.nameRef? name' := by
  apply map_find?_eq_of_forall₂ h.names
  · rintro entry entry' ⟨-, hentry⟩
    rw [Bool.eq_iff_iff, beq_iff_eq, beq_iff_eq]
    exact faithful.names hentry hname
  · exact fun entry entry' hentry => hentry.1

theorem Mirrors.valueRef? (h : Mirrors N V table table') (faithful : Faithful N V)
    {value value' : Value} (hvalue : V value value') :
    table.valueRef? value = table'.valueRef? value' := by
  apply map_find?_eq_of_forall₂ h.values
  · rintro entry entry' ⟨-, hentry⟩
    obtain ⟨sound, sound'⟩ := faithful.sound hvalue
    obtain ⟨hsound, hsound'⟩ := faithful.sound hentry
    rw [Bool.eq_iff_iff, Value.shares_iff hsound sound, Value.shares_iff hsound' sound']
    exact faithful.values hentry hvalue
  · exact fun entry entry' hentry => hentry.1

theorem Mirrors.addName (h : Mirrors N V table table') {name name' : String}
    (hname : N name name') : (table.addName name).1 = (table'.addName name').1 ∧
      Mirrors N V (table.addName name).2 (table'.addName name').2 := by
  have href : PlaceholderTable.nameRef table.names.length =
      PlaceholderTable.nameRef table'.names.length := by rw [h.names.length_eq]
  refine ⟨href, ?_, h.values⟩
  exact List.rel_append h.names (.cons ⟨href, hname⟩ .nil)

theorem Mirrors.addValue (h : Mirrors N V table table') {value value' : Value} {wire wire' : Json}
    (hvalue : V value value') : (table.addValue value wire).1 = (table'.addValue value' wire').1 ∧
      Mirrors N V (table.addValue value wire).2 (table'.addValue value' wire').2 := by
  have href : PlaceholderTable.valueRef table.values.length =
      PlaceholderTable.valueRef table'.values.length := by rw [h.values.length_eq]
  refine ⟨href, h.names, ?_⟩
  exact List.rel_append h.values (.cons ⟨href, hvalue⟩ .nil)

end PlaceholderTable

namespace Compiling

open PlaceholderTable (Mirrors)

variable {N : String → String → Prop} {V : Value → Value → Prop} {α α' β β' : Type}
  {R : α → α' → Prop} {S : β → β' → Prop}

/-- From tables that mirror each other, the steps lead to results that are related and to tables
that mirror each other again, if both succeed. -/
def InStep (N : String → String → Prop) (V : Value → Value → Prop) (R : α → α' → Prop)
    (steps : Compiling α) (steps' : Compiling α') : Prop :=
  ∀ ⦃table table' after after' : PlaceholderTable⦄ ⦃a : α⦄ ⦃a' : α'⦄, Mirrors N V table table' →
    steps.run table = (.ok a, after) → steps'.run table' = (.ok a', after') →
      R a a' ∧ Mirrors N V after after'

theorem inStep_pure {a : α} {a' : α'} (h : R a a') : InStep N V R (pure a) (pure a') := by
  intro table table' after after' b b' mirrors hrun hrun'
  cases hrun
  cases hrun'
  exact ⟨h, mirrors⟩

theorem InStep.bind {steps : Compiling α} {steps' : Compiling α'} {next : α → Compiling β}
    {next' : α' → Compiling β'} (h : InStep N V R steps steps')
    (hnext : ∀ a a', R a a' → InStep N V S (next a) (next' a')) :
    InStep N V S (steps >>= next) (steps' >>= next') := by
  intro table table' after after' b b' mirrors hrun hrun'
  obtain ⟨a, between, ha, hrun⟩ := run_bind_eq_ok hrun
  obtain ⟨a', between', ha', hrun'⟩ := run_bind_eq_ok hrun'
  obtain ⟨hR, hbetween⟩ := h mirrors ha ha'
  exact hnext a a' hR hbetween hrun hrun'

/-- Results that are computed apart from the tables have to be related where they are there. -/
theorem inStep_ofExcept {outcome : Except Failure α} {outcome' : Except Failure α'}
    (h : ∀ a a', outcome = .ok a → outcome' = .ok a' → R a a') :
    InStep N V R (ofExcept outcome) (ofExcept outcome') := by
  intro table table' after after' a a' mirrors hrun hrun'
  obtain ⟨rfl, rfl⟩ := Prod.mk.inj hrun
  obtain ⟨rfl, rfl⟩ := Prod.mk.inj hrun'
  exact ⟨h a a' rfl rfl, mirrors⟩

/-- Steps that are taken unless a check throws. -/
theorem InStep.unless {c c' : Prop} [Decidable c] [Decidable c'] {failure failure' : Failure}
    {next : β → Compiling α} {next' : β' → Compiling α'} {steps : Compiling α}
    {steps' : Compiling α'} (h : InStep N V R steps steps') :
    InStep N V R (if c then throw failure >>= next else steps)
      (if c' then throw failure' >>= next' else steps') := by
  intro table table' after after' a a' mirrors hrun hrun'
  obtain ⟨-, hrun⟩ := run_unless_eq_ok hrun
  obtain ⟨-, hrun'⟩ := run_unless_eq_ok hrun'
  exact h mirrors hrun hrun'

theorem inStep_mapM {as : List α} {as' : List α'} {f : α → Compiling β} {f' : α' → Compiling β'}
    (h : List.Forall₂ (fun a a' => InStep N V S (f a) (f' a')) as as') :
    InStep N V (List.Forall₂ S) (as.mapM f) (as'.mapM f') := by
  induction h with
  | nil => exact inStep_pure .nil
  | cons hf _ ih =>
    rw [List.mapM_cons, List.mapM_cons]
    apply hf.bind
    intro b b' hb
    apply ih.bind
    intro bs bs' hbs
    exact inStep_pure (.cons hb hbs)

/-- Names that correspond get the same reference. -/
theorem inStep_nameRef (faithful : Faithful N V) {name name' : String} (h : N name name') :
    InStep N V Eq (nameRef name) (nameRef name') := by
  intro table table' after after' ref ref' mirrors hrun hrun'
  have hsame := mirrors.nameRef? faithful h
  rw [run_nameRef] at hrun hrun'
  rw [← hsame] at hrun'
  cases hfound : table.nameRef? name with
  | some found =>
    rw [hfound] at hrun hrun'
    cases hrun
    cases hrun'
    exact ⟨rfl, mirrors⟩
  | none =>
    rw [hfound] at hrun hrun'
    cases hrun
    cases hrun'
    exact mirrors.addName h

/-- Values that correspond get the same reference, unless one of them cannot be encoded. -/
theorem inStep_valueRef (faithful : Faithful N V) {value value' : Value} (h : V value value') :
    InStep N V Eq (valueRef value) (valueRef value') := by
  intro table table' after after' ref ref' mirrors hrun hrun'
  have hsame := mirrors.valueRef? faithful h
  rw [run_valueRef] at hrun hrun'
  rw [← hsame] at hrun'
  split at hrun
  · cases hrun
  split at hrun'
  · cases hrun'
  cases hfound : table.valueRef? value with
  | some found =>
    rw [hfound] at hrun hrun'
    cases hrun
    cases hrun'
    exact ⟨rfl, mirrors⟩
  | none =>
    rw [hfound] at hrun hrun'
    dsimp only at hrun hrun'
    split at hrun
    · cases hrun
    split at hrun'
    · cases hrun'
    cases hrun
    cases hrun'
    exact mirrors.addValue h

end Compiling

end AttributeExpr
