import Mathlib.Tactic
/-!
Steps that succeed. A step made of others succeeds exactly if these do, one after another. What the
steps of a list come to is told part by part.
-/
namespace AttributeExpr

theorem map_eq_ok_iff {ε α β : Type} {f : α → β} {outcome : Except ε α} {b : β} :
    outcome.map f = .ok b ↔ ∃ a, outcome = .ok a ∧ f a = b := by
  cases outcome <;> simp [Except.map]

theorem map_eq_error_iff {ε α β : Type} {f : α → β} {outcome : Except ε α} {e : ε} :
    outcome.map f = .error e ↔ outcome = .error e := by
  cases outcome <;> simp [Except.map]

theorem mapM_eq_ok_iff {ε α β : Type} (f : α → Except ε β) (as : List α) (bs : List β) :
    as.mapM f = .ok bs ↔ List.Forall₂ (fun a b => f a = .ok b) as bs := by
  induction as generalizing bs with
  | nil => cases bs <;> simp [pure, Except.pure]
  | cons a as ih =>
    rw [List.mapM_cons]
    cases hf : f a with
    | error e => cases bs <;> simp [bind, Except.bind, hf]
    | ok b =>
      cases hm : as.mapM f with
      | error e => cases bs <;> simp [bind, Except.bind, ← ih, hm]
      | ok bs' => cases bs <;> simp [bind, Except.bind, pure, Except.pure, ← ih, hm, hf]

theorem bind_eq_ok_iff {ε α β : Type} {outcome : Except ε α} {f : α → Except ε β} {b : β} :
    (outcome >>= f) = .ok b ↔ ∃ a, outcome = .ok a ∧ f a = .ok b := by
  cases outcome <;> simp [bind, Except.bind]

theorem mapError_eq_ok_iff {ε ε' α : Type} {f : ε → ε'} {outcome : Except ε α} {a : α} :
    outcome.mapError f = .ok a ↔ outcome = .ok a := by
  cases outcome <;> simp [Except.mapError]

/-! Checks that are made one after another. -/

/-- A list is cut at its first member or further on. -/
theorem exists_split_cons_iff {α : Type} {q : List α → α → Prop} {first : α} {as : List α} :
    (∃ before a after, first :: as = before ++ a :: after ∧ q before a) ↔
      q [] first ∨ ∃ before a after, as = before ++ a :: after ∧ q (first :: before) a := by
  constructor
  · rintro ⟨_ | ⟨b, before⟩, a, after, heq, h⟩
    · obtain ⟨rfl, rfl⟩ := List.cons.inj heq
      exact .inl h
    · obtain ⟨rfl, rfl⟩ := List.cons.inj heq
      exact .inr ⟨before, a, after, rfl, h⟩
  · rintro (h | ⟨before, a, after, rfl, h⟩)
    · exact ⟨[], first, as, rfl, h⟩
    · exact ⟨first :: before, a, after, rfl, h⟩

section

variable {ε α : Type} {check : α → Except ε Unit} {as : List α}

theorem forM_append (as as' : List α) :
    (as ++ as').forM check = (as.forM check >>= fun _ => as'.forM check) := by
  induction as with
  | nil => rfl
  | cons a as ih =>
    show (check a >>= fun _ => (as ++ as').forM check) = _
    rw [ih]
    exact (bind_assoc (check a) _ _).symm

theorem forM_eq_ok_iff : as.forM check = .ok () ↔ ∀ a ∈ as, check a = .ok () := by
  induction as with
  | nil => simp [List.forM, pure, Except.pure]
  | cons a as ih =>
    show (check a >>= fun _ => as.forM check) = _ ↔ _
    rw [List.forall_mem_cons, ← ih]
    cases check a <;> simp [bind, Except.bind]

/-- The first check that fails tells the outcome. -/
theorem forM_eq_error_iff {e : ε} :
    as.forM check = .error e ↔ ∃ before a after, as = before ++ a :: after ∧
      (∀ b ∈ before, check b = .ok ()) ∧ check a = .error e := by
  induction as with
  | nil => simp [List.forM, pure, Except.pure]
  | cons first as ih =>
    show (check first >>= fun _ => as.forM check) = _ ↔ _
    rw [exists_split_cons_iff]
    simp only [List.forall_mem_cons, List.not_mem_nil, false_implies, implies_true, true_and]
    cases hfirst : check first with
    | error e' => simp [bind, Except.bind]
    | ok _ => simpa [bind, Except.bind] using ih

end

/-! What may keep a step from a result. -/

/-- Whatever keeps the step from a result has the property. -/
def FailsOnly {ε α : Type} (p : ε → Prop) (outcome : Except ε α) : Prop :=
  ∀ failure, outcome = .error failure → p failure

section

variable {ε α β : Type} {p : ε → Prop} {outcome : Except ε α}

theorem failsOnly_ok (a : α) : FailsOnly p (.ok a) := by
  rintro failure ⟨⟩

theorem failsOnly_error {failure : ε} (h : p failure) :
    FailsOnly p (.error failure : Except ε α) := by
  rintro failure' ⟨⟩
  exact h

theorem FailsOnly.map (h : FailsOnly p outcome) (f : α → β) : FailsOnly p (outcome.map f) := by
  cases outcome with
  | error failure => exact failsOnly_error (h failure rfl)
  | ok a => exact failsOnly_ok _

theorem FailsOnly.bind {f : α → Except ε β} (h : FailsOnly p outcome)
    (hf : ∀ a, outcome = .ok a → FailsOnly p (f a)) : FailsOnly p (outcome >>= f) := by
  cases outcome with
  | error failure => exact failsOnly_error (h failure rfl)
  | ok a => exact hf a rfl

theorem FailsOnly.mono {q : ε → Prop} (h : FailsOnly p outcome)
    (hpq : ∀ failure, p failure → q failure) : FailsOnly q outcome :=
  fun failure hfailure => hpq failure (h failure hfailure)

theorem failsOnly_mapError {ε' : Type} {f : ε' → ε} (h : ∀ failure, p (f failure))
    (outcome : Except ε' α) : FailsOnly p (outcome.mapError f) := by
  cases outcome with
  | error failure => exact failsOnly_error (h failure)
  | ok a => exact failsOnly_ok a

theorem failsOnly_mapM {f : α → Except ε β} {as : List α} (h : ∀ a ∈ as, FailsOnly p (f a)) :
    FailsOnly p (as.mapM f) := by
  induction as with
  | nil => exact failsOnly_ok _
  | cons a as ih =>
    obtain ⟨ha, has⟩ := List.forall_mem_cons.mp h
    rw [List.mapM_cons]
    exact ha.bind fun b _ => (ih has).bind fun bs _ => failsOnly_ok _

end

/-! Lists whose parts correspond. -/

theorem forall₂_imp_of_mem {α β : Type} {R S : α → β → Prop} {as : List α} {bs : List β}
    (h : List.Forall₂ R as bs) (himp : ∀ a ∈ as, ∀ b ∈ bs, R a b → S a b) :
    List.Forall₂ S as bs := by
  induction h with
  | nil => exact .nil
  | cons hab _ ih =>
    refine .cons (himp _ (by simp) _ (by simp) hab) ?_
    apply ih
    intro a ha b hb
    exact himp a (by simp [ha]) b (by simp [hb])

theorem exists_of_mem_forall₂ {α β : Type} {R : α → β → Prop} {as : List α} {bs : List β}
    (h : List.Forall₂ R as bs) {a : α} (ha : a ∈ as) : ∃ b ∈ bs, R a b := by
  induction h with
  | nil => contradiction
  | cons hab _ ih =>
    rcases List.mem_cons.mp ha with rfl | ha
    · exact ⟨_, by simp, hab⟩
    · obtain ⟨b, hb, h⟩ := ih ha
      exact ⟨b, by simp [hb], h⟩

theorem exists_forall₂ {α β : Type} {R : α → β → Prop} {as : List α} (h : ∀ a ∈ as, ∃ b, R a b) :
    ∃ bs, List.Forall₂ R as bs := by
  induction as with
  | nil => exact ⟨[], .nil⟩
  | cons a as ih =>
    obtain ⟨⟨b, hb⟩, has⟩ := List.forall_mem_cons.mp h
    obtain ⟨bs, hbs⟩ := ih has
    exact ⟨b :: bs, .cons hb hbs⟩

/-- Related lists are the two sides of related pairs. -/
theorem exists_parts_of_forall₂ {α β : Type} {R : α → β → Prop} {as : List α} {bs : List β}
    (h : List.Forall₂ R as bs) :
    ∃ parts : List (α × β), parts.map (·.1) = as ∧ parts.map (·.2) = bs ∧
      ∀ part ∈ parts, R part.1 part.2 := by
  obtain ⟨hlength, hzip⟩ := List.forall₂_iff_zip.mp h
  exact ⟨as.zip bs, List.map_fst_zip hlength.le, List.map_snd_zip hlength.ge, fun _ => hzip⟩

theorem forall₂_append_iff {α β : Type} {R : α → β → Prop} {as as' : List α} {bs bs' : List β}
    (h : as.length = bs.length) :
    List.Forall₂ R (as ++ as') (bs ++ bs') ↔ List.Forall₂ R as bs ∧ List.Forall₂ R as' bs' := by
  induction as generalizing bs with
  | nil =>
    obtain rfl := List.length_eq_zero_iff.mp h.symm
    simp
  | cons a as ih =>
    obtain ⟨b, bs, rfl⟩ := List.exists_cons_of_length_eq_add_one h.symm
    rw [List.cons_append, List.cons_append, List.forall₂_cons, List.forall₂_cons,
      ih (by simpa using h), and_assoc]

/-- A search that goes the same way in both lists finds what is the same about their members. -/
theorem map_find?_eq_of_forall₂ {α β γ : Type} {R : α → β → Prop} {p : α → Bool} {q : β → Bool}
    {f : α → γ} {g : β → γ} {as : List α} {bs : List β} (h : List.Forall₂ R as bs)
    (hpq : ∀ a b, R a b → p a = q b) (hfg : ∀ a b, R a b → f a = g b) :
    (as.find? p).map f = (bs.find? q).map g := by
  induction h with
  | nil => rfl
  | @cons a b _ _ hab _ ih =>
    rw [List.find?_cons, List.find?_cons, ← hpq a b hab]
    cases p a with
    | true => exact congrArg some (hfg a b hab)
    | false => exact ih

theorem forall₂_trans_of_mem {α β γ : Type} {R : α → β → Prop} {S : β → γ → Prop}
    {T : α → γ → Prop} {as : List α} {bs : List β} {cs : List γ} (h : List.Forall₂ R as bs)
    (h' : List.Forall₂ S bs cs)
    (trans : ∀ a ∈ as, ∀ b ∈ bs, ∀ c ∈ cs, R a b → S b c → T a c) : List.Forall₂ T as cs := by
  induction h generalizing cs with
  | nil =>
    obtain rfl := List.forall₂_nil_left_iff.mp h'
    exact .nil
  | cons hab _ ih =>
    obtain ⟨c, cs, hbc, htail, rfl⟩ := List.forall₂_cons_left_iff.mp h'
    refine .cons (trans _ (by simp) _ (by simp) c (by simp) hab hbc) (ih htail ?_)
    exact fun a ha b hb c hc => trans a (by simp [ha]) b (by simp [hb]) c (by simp [hc])

end AttributeExpr
