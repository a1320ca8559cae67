import AttributeExpr.Proofs.Update.Solid
import AttributeExpr.Proofs.Value.MemberOrder
import Mathlib
/-!
What a compiled formula tells of the formula. Sums and differences are written without parentheses,
so how they are grouped does not show, and compiling them in one grouping or another makes no
difference. All else shows: the arguments of a call stand between marks of their own, and a
reference ends with the last of its digits.
-/
namespace AttributeExpr

open PlaceholderTable (Coherent)

namespace Formula

/-- The formula is no sum or difference. -/
def IsTerm : Formula → Prop
  | arithmetic .. => False
  | _ => True

/-- The sum or difference of two formulas. The terms of the second, which are grouped from the left,
go to the first one by one. -/
def attach (op : ArithmeticOp) (left : Formula) : Formula → Formula
  | arithmetic op' first second => arithmetic op' (attach op left first) second
  | term => arithmetic op left term

/-- The formula with its sums and differences grouped from the left, at every depth. -/
def groupLeft : Formula → Formula
  | literal value => literal value
  | path operand => path operand
  | arithmetic op left right => attach op left.groupLeft right.groupLeft
  | listAppend left right => listAppend left.groupLeft right.groupLeft
  | ifNotExists operand otherwise => ifNotExists operand otherwise.groupLeft

/-- What is added or subtracted, at any depth, is no sum or difference. -/
inductive IsGroupedLeft : Formula → Prop where
  | literal (value : Value) : IsGroupedLeft (.literal value)
  | path (operand : Path) : IsGroupedLeft (.path operand)
  | arithmetic (op : ArithmeticOp) {left right : Formula} (hleft : IsGroupedLeft left)
      (hright : IsGroupedLeft right) (term : right.IsTerm) :
      IsGroupedLeft (.arithmetic op left right)
  | listAppend {left right : Formula} (hleft : IsGroupedLeft left) (hright : IsGroupedLeft right) :
      IsGroupedLeft (.listAppend left right)
  | ifNotExists (operand : Path) {otherwise : Formula} (h : IsGroupedLeft otherwise) :
      IsGroupedLeft (.ifNotExists operand otherwise)

theorem isTerm_or_arithmetic (formula : Formula) :
    formula.IsTerm ∨ ∃ op left right, formula = arithmetic op left right := by
  cases formula with
  | arithmetic op left right => exact .inr ⟨op, left, right, rfl⟩
  | _ => exact .inl trivial

theorem attach_term {formula : Formula} (h : formula.IsTerm) (op : ArithmeticOp) (left : Formula) :
    attach op left formula = arithmetic op left formula := by
  cases formula with
  | arithmetic => contradiction
  | _ => rfl

theorem IsGroupedLeft.attach {left right : Formula} (op : ArithmeticOp) (hleft : left.IsGroupedLeft)
    (hright : right.IsGroupedLeft) : (attach op left right).IsGroupedLeft := by
  induction hright generalizing op with
  | arithmetic op' _ hright term ih _ => exact .arithmetic op' (ih op) hright term
  | literal value => exact .arithmetic op hleft (.literal value) trivial
  | path operand => exact .arithmetic op hleft (.path operand) trivial
  | listAppend h h' => exact .arithmetic op hleft (.listAppend h h') trivial
  | ifNotExists operand h => exact .arithmetic op hleft (.ifNotExists operand h) trivial

theorem isGroupedLeft_groupLeft (formula : Formula) : formula.groupLeft.IsGroupedLeft := by
  induction formula with
  | literal value => exact .literal value
  | path operand => exact .path operand
  | arithmetic op _ _ ih ih' => exact ih.attach op ih'
  | listAppend _ _ ih ih' => exact .listAppend ih ih'
  | ifNotExists operand _ ih => exact .ifNotExists operand ih

theorem IsGroupedLeft.groupLeft_eq {formula : Formula} (h : formula.IsGroupedLeft) :
    formula.groupLeft = formula := by
  induction h with
  | literal | path => rfl
  | arithmetic op _ _ term ih ih' => rw [groupLeft, ih, ih', attach_term term]
  | listAppend _ _ ih ih' => rw [groupLeft, ih, ih']
  | ifNotExists operand _ ih => rw [groupLeft, ih]

theorem literals_attach (op : ArithmeticOp) (left right : Formula) :
    (attach op left right).literals = left.literals ++ right.literals := by
  induction right with
  | arithmetic op' first second ih _ => simp [attach, literals, ih]
  | _ => rfl

theorem literals_groupLeft (formula : Formula) : formula.groupLeft.literals = formula.literals := by
  induction formula with
  | literal | path => rfl
  | arithmetic op left right ih ih' => rw [groupLeft, literals_attach, ih, ih']; rfl
  | listAppend left right ih ih' => rw [groupLeft, literals, ih, ih']; rfl
  | ifNotExists operand otherwise ih => exact ih

example : groupLeft (.arithmetic .minus (.path []) (.arithmetic .plus (.path []) (.path []))) =
    .arithmetic .plus (.arithmetic .minus (.path []) (.path [])) (.path []) := rfl

end Formula

namespace Compiling

/-! The grouping does not show. -/

/-- The sum or difference is compiled in the same way, whichever terms are taken together. -/
theorem formula_attach (op : ArithmeticOp) (left right : Formula) :
    formula (.attach op left right) = formula (.arithmetic op left right) := by
  induction right with
  | arithmetic op' first second ih _ =>
    rw [Formula.attach, formula, ih]
    simp only [formula, bind_assoc, pure_bind, String.append_assoc]
  | _ => rfl

theorem formula_groupLeft (operand : Formula) : formula operand.groupLeft = formula operand := by
  induction operand with
  | literal | path => rfl
  | arithmetic op left right ih ih' => rw [Formula.groupLeft, formula_attach, formula, ih, ih']; rfl
  | listAppend left right ih ih' => rw [Formula.groupLeft, formula, ih, ih']; rfl
  | ifNotExists operand otherwise ih => rw [Formula.groupLeft, formula, ih]; rfl

end Compiling

namespace Update

/-! The rest shows. Formulas are read from the right, where the last term of a sum stands. -/

/-- The formula is written as the text. Its literals are sound, and its sums and differences are
grouped from the left. -/
structure Presented (numeral : String → Prop) (table : PlaceholderTable) (formula : Formula)
    (text : String) : Prop where
  sound : ∀ value ∈ formula.literals, value.WellFormed numeral
  grouped : formula.IsGroupedLeft
  written : WrittenFormula table formula text

/-- The formula is a call with these arguments, and its text begins like this. -/
inductive IsCall : Formula → String → Formula → Formula → Prop where
  | listAppend (left right : Formula) :
      IsCall (.listAppend left right) "list_append(" left right
  | ifNotExists (path : Path) (otherwise : Formula) :
      IsCall (.ifNotExists path otherwise) "if_not_exists(" (.path path) otherwise

/-- A term may begin behind the text. -/
def Opens (pre : List Char) : Prop := Stops isSolid pre.reverse

/-- The text ends in a sign between the terms of a sum or difference. -/
def EndsInSign (pre : List Char) : Prop :=
  ∃ (front : List Char) (op : ArithmeticOp), pre = front ++ (" " ++ op.text ++ " ").toList

variable {numeral : String → Prop} {table table' : PlaceholderTable} {formula formula' : Formula}
  {opening opening' text text' : String}

theorem Presented.arithmetic {op : ArithmeticOp} {left right : Formula}
    (h : Presented numeral table (.arithmetic op left right) text) :
    ∃ first second, text = first ++ (" " ++ op.text ++ " ") ++ second ∧ right.IsTerm ∧
      Presented numeral table left first ∧ Presented numeral table right second := by
  obtain ⟨sound, grouped, written⟩ := h
  obtain ⟨hleft, hright⟩ := List.forall_mem_append.mp sound
  cases grouped with
  | arithmetic _ grouped grouped' term =>
    cases written with
    | @arithmetic _ _ _ first second written written' =>
      refine ⟨first, second, ?_, term, ⟨hleft, grouped, written⟩, ⟨hright, grouped', written'⟩⟩
      simp only [String.append_assoc]

theorem IsCall.presented {first second : Formula} (call : IsCall formula opening first second)
    (h : Presented numeral table formula text) :
    ∃ text₁ text₂, text = opening ++ text₁ ++ ", " ++ text₂ ++ ")" ∧
      Presented numeral table first text₁ ∧ Presented numeral table second text₂ := by
  obtain ⟨sound, grouped, written⟩ := h
  cases call with
  | listAppend =>
    obtain ⟨hfirst, hsecond⟩ := List.forall_mem_append.mp sound
    cases grouped with
    | listAppend grouped grouped' =>
      cases written with
      | listAppend written written' =>
        exact ⟨_, _, rfl, ⟨hfirst, grouped, written⟩, ⟨hsecond, grouped', written'⟩⟩
  | ifNotExists =>
    cases grouped with
    | ifNotExists _ grouped =>
      cases written with
      | ifNotExists written written' =>
        exact ⟨_, _, rfl, ⟨List.forall_mem_nil _, .path _, .path written⟩,
          ⟨sound, grouped, written'⟩⟩

/-- Calls begin differently if their functions differ. -/
theorem IsCall.same {first second first' second' : Formula} {pre pre' : List Char}
    (call : IsCall formula opening first second) (call' : IsCall formula' opening' first' second')
    (hfirst : first.Same first') (hsecond : second.Same second')
    (heq : pre ++ opening.toList = pre' ++ opening'.toList) :
    formula.Same formula' ∧ pre = pre' := by
  have hlast := congrArg (fun text => text.reverse.take 2) heq
  cases call with
  | listAppend =>
    cases call' with
    | listAppend => exact ⟨.listAppend hfirst hsecond, List.append_cancel_right heq⟩
    | ifNotExists => simp at hlast
  | ifNotExists =>
    cases call' with
    | listAppend => simp at hlast
    | ifNotExists =>
      cases hfirst with
      | path => exact ⟨.ifNotExists _ hsecond, List.append_cancel_right heq⟩

/-! Where the beginnings of the texts before may be different, both texts are cut at one place. -/

/-- The term is told by its text, and apart from what is in front of it. -/
def TermDetermined (numeral : String → Prop) (table table' : PlaceholderTable)
    (formula : Formula) : Prop :=
  ∀ ⦃formula' : Formula⦄ ⦃text text' : String⦄ ⦃pre pre' : List Char⦄, formula'.IsTerm →
    Presented numeral table formula text → Presented numeral table' formula' text' →
    Opens pre → Opens pre' → pre ++ text.toList = pre' ++ text'.toList →
    formula.Same formula' ∧ pre = pre'

/-- The formula is told by its text, unless what is in front of it is part of a longer formula. -/
def Determined (numeral : String → Prop) (table table' : PlaceholderTable)
    (formula : Formula) : Prop :=
  ∀ ⦃formula' : Formula⦄ ⦃text text' : String⦄ ⦃pre pre' : List Char⦄,
    Presented numeral table formula text → Presented numeral table' formula' text' →
    Opens pre → Opens pre' → ¬ EndsInSign pre → ¬ EndsInSign pre' →
    pre ++ text.toList = pre' ++ text'.toList → formula.Same formula' ∧ pre = pre'

theorem opens_of_ends {front : List Char} {text : String} {c : Char} {rest : List Char}
    (h : text.toList.reverse = c :: rest) (hc : isSolid c = false) :
    Opens (front ++ text.toList) := by
  rw [Opens, List.reverse_append, h]
  exact stops_cons.mpr hc

theorem not_endsInSign_of_ends {front : List Char} {text : String} {c d : Char} {rest : List Char}
    (h : text.toList.reverse = c :: d :: rest) (hd : d ≠ '+' ∧ d ≠ '-') :
    ¬ EndsInSign (front ++ text.toList) := by
  rintro ⟨front', op, heq⟩
  have hlast := congrArg List.reverse heq
  rw [List.reverse_append, h] at hlast
  cases op <;> simp_all [ArithmeticOp.text]

theorem opens_sign (front : List Char) (op : ArithmeticOp) :
    Opens (front ++ (" " ++ op.text ++ " ").toList) := by
  cases op
  · exact opens_of_ends (c := ' ') rfl rfl
  · exact opens_of_ends (c := ' ') rfl rfl

theorem IsCall.opens {first second : Formula} (call : IsCall formula opening first second)
    {front : List Char} :
    Opens (front ++ opening.toList) ∧ ¬ EndsInSign (front ++ opening.toList) := by
  cases call with
  | listAppend => exact ⟨opens_of_ends rfl rfl, not_endsInSign_of_ends rfl (by decide)⟩
  | ifNotExists => exact ⟨opens_of_ends rfl rfl, not_endsInSign_of_ends rfl (by decide)⟩

/-- A sign is told apart from what is in front of it. -/
theorem sign_inj {front front' : List Char} {op op' : ArithmeticOp}
    (heq : front ++ (" " ++ op.text ++ " ").toList = front' ++ (" " ++ op'.text ++ " ").toList) :
    op = op' ∧ front = front' := by
  have hlength :
      (" " ++ op.text ++ " ").toList.length = (" " ++ op'.text ++ " ").toList.length := by
    cases op <;> cases op' <;> rfl
  obtain ⟨hfront, hsign⟩ := List.append_inj' heq hlength
  refine ⟨?_, hfront⟩
  cases op <;> cases op' <;> first | rfl | contradiction

section

variable (h : Coherent numeral table) (h' : Coherent numeral table')
  (names : ∀ ref, table.nameAt? ref = table'.nameAt? ref)
  (values : ∀ ref, Option.Rel Json.Alike (table.wireAt? ref) (table'.wireAt? ref))

include h h' values in
/-- Well-formed values of one reference are equal, if it is looked up alike. -/
theorem equals_of_holdsValue {value value' : Value} {ref : String}
    (sound : value.WellFormed numeral) (sound' : value'.WellFormed numeral)
    (held : table.HoldsValue value ref) (held' : table'.HoldsValue value' ref) :
    Value.Equals value value' := by
  obtain ⟨entry, hentry, rfl, hequals⟩ := held
  obtain ⟨entry', hentry', href, hequals'⟩ := held'
  have hwire := values entry.ref
  rw [h.wireAt?_of_mem hentry, ← href, h'.wireAt?_of_mem hentry', Option.rel_some_some] at hwire
  have hs := h.sound entry hentry
  have hs' := h'.sound entry' hentry'
  have hentries := hs.equals_of_alike hs' (Value.encode_eq_ok_iff.mp (h.encodes entry hentry))
    (Value.encode_eq_ok_iff.mp (h'.encodes entry' hentry')) hwire
  exact (hequals.symm hs sound).trans sound hs sound' (hentries.trans hs hs' sound' hequals')

/-! Terms without arguments. -/

/-- The formula is a literal or a path. -/
def IsLeaf : Formula → Prop
  | .literal _ | .path _ => True
  | _ => False

include h in
theorem Presented.solid (presented : Presented numeral table formula text) (leaf : IsLeaf formula) :
    Solid text := by
  cases presented.written with
  | literal held => exact solid_of_holdsValue h held
  | path written => exact written.solid h
  | _ => contradiction

include h in
theorem Presented.nonempty (presented : Presented numeral table formula text)
    (leaf : IsLeaf formula) : text.toList ≠ [] := by
  cases presented.written with
  | literal held =>
    obtain ⟨n, rfl⟩ := h.eq_valueRef held
    simp [PlaceholderTable.valueRef]
  | path written =>
    cases written with
    | path held =>
      obtain ⟨n, rfl⟩ := h.eq_nameRef held
      simp [PlaceholderTable.nameRef]
  | _ => contradiction

include h in
/-- A path begins like no reference to a value. -/
theorem writtenPath_ne_valueRef {path : Path} {n : Nat}
    (written : WrittenPath table path text) : text ≠ PlaceholderTable.valueRef n := by
  cases written with
  | path held =>
    obtain ⟨m, rfl⟩ := h.eq_nameRef held
    simp [PlaceholderTable.nameRef, PlaceholderTable.valueRef, ← String.toList_inj]

include h h' names values in
theorem same_of_leaf (leaf : IsLeaf formula) (leaf' : IsLeaf formula')
    (presented : Presented numeral table formula text)
    (presented' : Presented numeral table' formula' text') (heq : text = text') :
    formula.Same formula' := by
  obtain ⟨sound, -, written⟩ := presented
  obtain ⟨sound', -, written'⟩ := presented'
  cases written with
  | literal held =>
    cases written' with
    | literal held' =>
      subst heq
      rw [Formula.literals, List.forall_mem_singleton] at sound sound'
      exact .literal (equals_of_holdsValue h h' values sound sound' held held')
    | path written' =>
      obtain ⟨n, rfl⟩ := h.eq_valueRef held
      exact absurd heq.symm (writtenPath_ne_valueRef h' written')
    | _ => contradiction
  | path written =>
    cases written' with
    | literal held' =>
      obtain ⟨n, rfl⟩ := h'.eq_valueRef held'
      exact absurd heq (writtenPath_ne_valueRef h written)
    | path written' =>
      rw [written.unique h h' names written' heq]
      exact .path _
    | _ => contradiction
  | _ => contradiction

/-- No call ends with a solid character. -/
theorem solid_append_ne (solid : Solid text) (nonempty : text.toList ≠ []) (pre pre' : List Char)
    (call : String) : pre ++ text.toList ≠ pre' ++ (call ++ ")").toList := by
  intro heq
  obtain ⟨run, c, hrun⟩ := (List.eq_nil_or_concat text.toList).resolve_left nonempty
  have hsolid : isSolid c = true := solid c (by simp [hrun])
  have hlast := congrArg List.getLast? heq
  rw [hrun] at hlast
  obtain rfl : c = ')' := by simpa using hlast
  contradiction

theorem isTerm_cases {formula : Formula} (term : formula.IsTerm) :
    IsLeaf formula ∨ ∃ opening first second, IsCall formula opening first second := by
  cases formula with
  | literal | path => exact .inl trivial
  | arithmetic => contradiction
  | listAppend left right => exact .inr ⟨_, _, _, .listAppend left right⟩
  | ifNotExists path otherwise => exact .inr ⟨_, _, _, .ifNotExists path otherwise⟩

include h h' names values in
theorem termDetermined_leaf (leaf : IsLeaf formula) :
    TermDetermined numeral table table' formula := by
  intro formula' text text' pre pre' term' presented presented' opens opens' heq
  have solid := presented.solid h leaf
  rcases isTerm_cases term' with leaf' | ⟨_, _, _, call'⟩
  · have hreverse := congrArg List.reverse heq
    rw [List.reverse_append, List.reverse_append] at hreverse
    obtain ⟨htext, hpre⟩ := append_inj_of_stops (fun c hc => solid c (List.mem_reverse.mp hc))
      (fun c hc => presented'.solid h' leaf' c (List.mem_reverse.mp hc)) opens opens' hreverse
    have htext := String.toList_inj.mp (List.reverse_injective htext)
    exact ⟨same_of_leaf h h' names values leaf leaf' presented presented' htext,
      List.reverse_injective hpre⟩
  · obtain ⟨text₁, text₂, rfl, -, -⟩ := call'.presented presented'
    exact absurd heq (solid_append_ne solid (presented.nonempty h leaf) _ _ _)

include h' in
theorem termDetermined_call {opening : String} {first second : Formula}
    (call : IsCall formula opening first second) (hfirst : Determined numeral table table' first)
    (hsecond : Determined numeral table table' second) :
    TermDetermined numeral table table' formula := by
  intro formula' text text' pre pre' term' presented presented' opens opens' heq
  obtain ⟨text₁, text₂, rfl, presented₁, presented₂⟩ := call.presented presented
  rcases isTerm_cases term' with leaf' | ⟨opening', first', second', call'⟩
  · exact absurd heq.symm
      (solid_append_ne (presented'.solid h' leaf') (presented'.nonempty h' leaf') _ _ _)
  · obtain ⟨text₁', text₂', rfl, presented₁', presented₂'⟩ := call'.presented presented'
    have hclosed : (pre ++ opening.toList ++ text₁.toList ++ ", ".toList ++ text₂.toList) ++ [')'] =
        (pre' ++ opening'.toList ++ text₁'.toList ++ ", ".toList ++ text₂'.toList) ++ [')'] := by
      simpa using heq
    obtain ⟨hsame₂, hcomma⟩ := hsecond presented₂ presented₂' (opens_of_ends rfl rfl)
      (opens_of_ends rfl rfl) (not_endsInSign_of_ends rfl (by decide))
      (not_endsInSign_of_ends rfl (by decide)) (List.append_cancel_right hclosed)
    obtain ⟨hsame₁, hopening⟩ := hfirst presented₁ presented₁' call.opens.1 call'.opens.1
      call.opens.2 call'.opens.2 (List.append_cancel_right hcomma)
    exact call.same call' hsame₁ hsame₂ hopening

theorem TermDetermined.determined (h : TermDetermined numeral table table' formula) :
    Determined numeral table table' formula := by
  intro formula' text text' pre pre' presented presented' opens opens' starts starts' heq
  rcases formula'.isTerm_or_arithmetic with term' | ⟨op, left, right, rfl⟩
  · exact h term' presented presented' opens opens' heq
  · obtain ⟨first, second, rfl, term', -, presented'⟩ := presented'.arithmetic
    -- The last term of the sum would be all of the formula, with the sign in front of it.
    have hsign : pre ++ text.toList =
        (pre' ++ first.toList ++ (" " ++ op.text ++ " ").toList) ++ second.toList := by
      simpa using heq
    obtain ⟨-, rfl⟩ := h term' presented presented' opens (opens_sign _ op) hsign
    exact absurd ⟨_, op, rfl⟩ starts

theorem determined_arithmetic {op : ArithmeticOp} {left right : Formula}
    (hleft : Determined numeral table table' left)
    (hright : right.IsTerm → TermDetermined numeral table table' right) :
    Determined numeral table table' (.arithmetic op left right) := by
  intro formula' text text' pre pre' presented presented' opens opens' starts starts' heq
  obtain ⟨first, second, rfl, term, presented₁, presented₂⟩ := presented.arithmetic
  have hsign : (pre ++ first.toList ++ (" " ++ op.text ++ " ").toList) ++ second.toList =
      pre' ++ text'.toList := by simpa using heq
  rcases formula'.isTerm_or_arithmetic with term' | ⟨op', left', right', rfl⟩
  · obtain ⟨-, rfl⟩ := hright term term' presented₂ presented' (opens_sign _ op) opens' hsign
    exact absurd ⟨_, op, rfl⟩ starts'
  · obtain ⟨first', second', rfl, term', presented₁', presented₂'⟩ := presented'.arithmetic
    have hsign' : (pre ++ first.toList ++ (" " ++ op.text ++ " ").toList) ++ second.toList =
        (pre' ++ first'.toList ++ (" " ++ op'.text ++ " ").toList) ++ second'.toList := by
      simpa using heq
    obtain ⟨hsame, hfront⟩ := hright term term' presented₂ presented₂' (opens_sign _ op)
      (opens_sign _ op') hsign'
    obtain ⟨rfl, hfirst⟩ := sign_inj hfront
    obtain ⟨hsame', rfl⟩ := hleft presented₁ presented₁' opens opens' starts starts' hfirst
    exact ⟨.arithmetic op hsame' hsame, rfl⟩

include h h' names values in
/-- Formulas that are grouped from the left are told by their texts. -/
theorem determined (formula : Formula) : Determined numeral table table' formula ∧
    (formula.IsTerm → TermDetermined numeral table table' formula) := by
  have hleaf {formula : Formula} (leaf : IsLeaf formula) :=
    @termDetermined_leaf numeral table table' formula h h' names values leaf
  induction formula with
  | literal value =>
    have hterm := @hleaf (.literal value) trivial
    exact ⟨hterm.determined, fun _ => hterm⟩
  | path operand =>
    have hterm := @hleaf (.path operand) trivial
    exact ⟨hterm.determined, fun _ => hterm⟩
  | arithmetic op left right ih ih' =>
    exact ⟨determined_arithmetic ih.1 ih'.2, fun term => absurd term id⟩
  | listAppend left right ih ih' =>
    have hterm := termDetermined_call h' (.listAppend left right) ih.1 ih'.1
    exact ⟨hterm.determined, fun _ => hterm⟩
  | ifNotExists operand otherwise ih =>
    have hpath := (@hleaf (.path operand) trivial).determined
    have hterm := termDetermined_call h' (.ifNotExists operand otherwise) hpath ih.1
    exact ⟨hterm.determined, fun _ => hterm⟩

end

/-- Formulas that are compiled to one text, with the same names and with values that are encoded
alike, differ at most in equal literals and in how their sums and differences are grouped. As
grouping them from the left changes nothing for the compiler, no more can be told. -/
theorem same_groupLeft_of_compiled {formula formula' : Formula} {text : String}
    {table table' : PlaceholderTable}
    (sound : ∀ value ∈ formula.literals, value.Sound)
    (sound' : ∀ value ∈ formula'.literals, value.Sound)
    (hrun : (Compiling.formula formula).run .empty = (.ok text, table))
    (hrun' : (Compiling.formula formula').run .empty = (.ok text, table'))
    (names : ∀ ref, table.nameAt? ref = table'.nameAt? ref)
    (values : ∀ ref, Option.Rel Json.Alike (table.wireAt? ref) (table'.wireAt? ref)) :
    formula.groupLeft.Same formula'.groupLeft ∧
      (formula.IsGroupedLeft → formula'.IsGroupedLeft → formula.Same formula') ∧
      (Compiling.formula formula.groupLeft).run .empty = (.ok text, table) := by
  have coherent := ((Compiling.allocates_formula sound).grows hrun).coherent
    (PlaceholderTable.coherent_empty _)
  have coherent' := ((Compiling.allocates_formula sound').grows hrun').coherent
    (PlaceholderTable.coherent_empty _)
  rw [← Compiling.formula_groupLeft] at hrun hrun'
  rw [← Formula.literals_groupLeft] at sound sound'
  have presented : Presented _ table formula.groupLeft text :=
    ⟨sound, formula.isGroupedLeft_groupLeft,
      Compiling.written_formula (PlaceholderTable.coherent_empty _) sound hrun⟩
  have presented' : Presented _ table' formula'.groupLeft text :=
    ⟨sound', formula'.isGroupedLeft_groupLeft,
      Compiling.written_formula (PlaceholderTable.coherent_empty _) sound' hrun'⟩
  have opens : Opens [] := stops_nil _
  have starts : ¬ EndsInSign [] := by simp [EndsInSign]
  have hdetermined := (determined coherent coherent' names values formula.groupLeft).1
  have hsame := (hdetermined presented presented' opens opens starts starts rfl).1
  refine ⟨hsame, ?_, hrun⟩
  intro grouped grouped'
  rwa [grouped.groupLeft_eq, grouped'.groupLeft_eq] at hsame

/-- The maps have their entries in different orders, and the differences are grouped in different
ways. -/
theorem same_groupLeft_of_compiled_regrouped :
    let path (name : String) : Formula := .path [.name name]
    let x := ("x", Value.envelope .null (.bool true))
    let y := ("y", Value.envelope .bool (.bool true))
    let value : Value := .map [("x", .null), ("y", .bool true)]
    let value' : Value := .map [("y", .bool true), ("x", .null)]
    let formula : Formula :=
      .arithmetic .minus (path "a") (.arithmetic .plus (path "b") (.literal value))
    let formula' : Formula :=
      .arithmetic .plus (.arithmetic .minus (path "a") (path "b")) (.literal value')
    let table : PlaceholderTable := ⟨[("#p0", "a"), ("#p1", "b")],
      [⟨":v0", value, Value.envelope .map (.object [x, y])⟩]⟩
    let table' : PlaceholderTable := ⟨[("#p0", "a"), ("#p1", "b")],
      [⟨":v0", value', Value.envelope .map (.object [y, x])⟩]⟩
    (Compiling.formula formula).run .empty = (.ok "#p0 - #p1 + :v0", table) ∧
      (Compiling.formula formula').run .empty = (.ok "#p0 - #p1 + :v0", table') ∧
      formula.groupLeft.Same formula' := by
  intro path x y value value' formula formula' table table'
  have hrun : (Compiling.formula formula).run .empty = (.ok "#p0 - #p1 + :v0", table) := by cbv
  have hrun' : (Compiling.formula formula').run .empty = (.ok "#p0 - #p1 + :v0", table') := by cbv
  have sound : ∀ value ∈ formula.literals, value.Sound := by
    refine List.forall_mem_singleton.mpr (.map (by decide) ?_)
    simp [Value.WellFormed.null, Value.WellFormed.bool]
  have sound' : ∀ value ∈ formula'.literals, value.Sound := by
    refine List.forall_mem_singleton.mpr (.map (by decide) ?_)
    simp [Value.WellFormed.null, Value.WellFormed.bool]
  have values : ∀ ref, Option.Rel Json.Alike (table.wireAt? ref) (table'.wireAt? ref) := by
    intro ref
    show Option.Rel Json.Alike (Dictionary.get? [(":v0", _)] ref) (Dictionary.get? [(":v0", _)] ref)
    by_cases href : ref = ":v0"
    · subst href
      exact .some (by simp [Json.Alike, Json.AlikeMembers, Value.envelope, x, y])
    · have hlookup : (ref == ":v0") = false := by simpa using href
      simp only [Dictionary.get?, List.lookup_cons, hlookup, List.lookup_nil]
      exact .none
  exact ⟨hrun, hrun', (same_groupLeft_of_compiled sound sound' hrun hrun' (fun _ => rfl) values).1⟩

/-- Subtracting a difference is compiled like subtracting twice. -/
theorem not_same_of_compiled :
    let path (name : String) : Formula := .path [.name name]
    let formula : Formula :=
      .arithmetic .minus (path "a") (.arithmetic .minus (path "b") (path "c"))
    let formula' : Formula :=
      .arithmetic .minus (.arithmetic .minus (path "a") (path "b")) (path "c")
    let table : PlaceholderTable := ⟨[("#p0", "a"), ("#p1", "b"), ("#p2", "c")], []⟩
    (Compiling.formula formula).run .empty = (.ok "#p0 - #p1 - #p2", table) ∧
      (Compiling.formula formula').run .empty = (.ok "#p0 - #p1 - #p2", table) ∧
      ¬ formula.Same formula' := by
  intro path formula formula' table
  refine ⟨by cbv, by cbv, ?_⟩
  dsimp only [formula, formula', path]
  intro h
  cases h with
  | arithmetic _ hleft => cases hleft

end Update

end AttributeExpr
