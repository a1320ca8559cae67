import AttributeExpr.Proofs.Token.Reading
import AttributeExpr.Proofs.Token.Scan
import AttributeExpr.Proofs.Value.WellFormed
import AttributeExpr.SortCondition.Resolution
/-!
The values of conditions on a sort key. Whichever way a condition is read and fitted to a key, it
compares with strings, binaries and numbers only, and the numbers are numerals.
-/
namespace AttributeExpr

/-- A value that a condition can have: a string, a binary, or a number that is a numeral. -/
inductive Value.IsOperand : Value → Prop where
  | number {text : String} (h : Numeral.Signed text.toList) : IsOperand (.number text)
  | string (text : String) : IsOperand (.string text)
  | binary (bytes : Bytes) : IsOperand (.binary bytes)

theorem Value.IsOperand.isScalar {value : Value} (h : value.IsOperand) : value.IsScalar := by
  cases h <;> rfl

/-- A key has such a value too. -/
theorem Key.isOperand_of_valueOf {type : AttributeType} {text : String} {value : Value}
    (h : valueOf type text = .ok value) : value.IsOperand := by
  unfold valueOf at h
  split at h
  · obtain rfl := Except.ok.inj h
    exact .string text
  · split at h
    · next numeral hread =>
      obtain rfl := Except.ok.inj h
      exact .number (by simpa using Numeral.read?_sound hread)
    · contradiction
  · split at h
    · next bytes _ =>
      obtain rfl := Except.ok.inj h
      exact .binary bytes
    · contradiction
    · contradiction
  · contradiction

namespace SortCondition

/-- All values of the condition are scalars. -/
def Scalar (condition : SortCondition) : Prop := ∀ value ∈ condition.operands, value.IsScalar

/-- All values of the condition can be values of conditions. -/
def WellFormed (condition : SortCondition) : Prop :=
  ∀ value ∈ condition.operands, value.IsOperand

theorem WellFormed.scalar {condition : SortCondition} (h : condition.WellFormed) :
    condition.Scalar :=
  fun value hvalue => (h value hvalue).isScalar

theorem forall_operands_compare {p : Value → Prop} {comparison : Comparison} {value : Value} :
    (∀ v ∈ (compare comparison value).operands, p v) ↔ p value := by
  simp [operands]

theorem forall_operands_between {p : Value → Prop} {low high : Value} :
    (∀ v ∈ (between low high).operands, p v) ↔ p low ∧ p high := by
  simp [operands]

theorem forall_operands_beginsWith {p : Value → Prop} {start : Value} :
    (∀ v ∈ (beginsWith start).operands, p v) ↔ p start := by
  simp [operands]

/-! Conditions of literals. -/

section

variable {fault : Option ExpressionError} {tokens rest : List Token} {value : Value}

/-- The numbers among the tokens are numerals. -/
def Lexical (tokens : List Token) : Prop := ∀ token ∈ tokens, token.symbol.Lexical

theorem Lexical.subset (h : Lexical tokens) (hsub : rest ⊆ tokens) : Lexical rest :=
  fun token htoken => h token (hsub htoken)

theorem signed_operand {negative : Bool} {position : Nat} {text : String}
    (lexical : Numeral.Signed text.toList) (h : signed negative position text = .ok value) :
    value.IsOperand := by
  unfold signed at h
  split_ifs at h with hsign hnegative
  · contradiction
  · obtain rfl := Except.ok.inj h
    refine .number ?_
    rw [String.toList_append]
    generalize text.toList = numeral at lexical hsign ⊢
    cases lexical with
    | plain unsigned => exact .minus unsigned
    | minus => simp [Numeral.isSign] at hsign
  · obtain rfl := Except.ok.inj h
    exact .number lexical

theorem readSigned_eq_ok {negative : Bool}
    (h : readSigned fault negative tokens = .ok (value, rest)) :
    ∃ text position line, tokens = ⟨.number text, position, line⟩ :: rest ∧
      signed negative position text = .ok value := by
  unfold readSigned at h
  split at h
  · next text position line behind =>
    split at h
    · contradiction
    · obtain ⟨v, hsigned, heq⟩ := map_eq_ok_iff.mp h
      obtain ⟨rfl, rfl⟩ := Prod.mk.inj heq
      exact ⟨text, position, line, rfl, hsigned⟩
  · exact absurd h (Reading.fail_ne_ok _ _ _)

theorem readSigned_subset {negative : Bool}
    (h : readSigned fault negative tokens = .ok (value, rest)) : rest ⊆ tokens := by
  obtain ⟨text, position, line, rfl, -⟩ := readSigned_eq_ok h
  exact List.subset_cons_self _ rest

theorem readScalar_subset (h : readScalar fault tokens = .ok (value, rest)) : rest ⊆ tokens := by
  unfold readScalar at h
  split at h
  · obtain ⟨-, rfl⟩ := Prod.mk.inj (Except.ok.inj h)
    exact List.subset_cons_self _ _
  · obtain ⟨-, rfl⟩ := Prod.mk.inj (Except.ok.inj h)
    exact List.subset_cons_self _ _
  · obtain ⟨-, rfl⟩ := Prod.mk.inj (Except.ok.inj h)
    exact List.subset_cons_self _ _
  · exact List.subset_cons_of_subset _ (readSigned_subset h)
  · exact List.subset_cons_of_subset _ (readSigned_subset h)
  · exact absurd h (Reading.fail_ne_ok _ _ _)

theorem readSigned_operand {negative : Bool} (lexical : Lexical tokens)
    (h : readSigned fault negative tokens = .ok (value, rest)) : value.IsOperand := by
  obtain ⟨text, position, line, rfl, hsigned⟩ := readSigned_eq_ok h
  exact signed_operand (lexical _ List.mem_cons_self text rfl) hsigned

theorem readScalar_operand (lexical : Lexical tokens)
    (h : readScalar fault tokens = .ok (value, rest)) : value.IsOperand := by
  unfold readScalar at h
  split at h
  · obtain ⟨rfl, rfl⟩ := Prod.mk.inj (Except.ok.inj h)
    exact .number (lexical _ List.mem_cons_self _ rfl)
  · obtain ⟨rfl, rfl⟩ := Prod.mk.inj (Except.ok.inj h)
    exact .string _
  · obtain ⟨rfl, rfl⟩ := Prod.mk.inj (Except.ok.inj h)
    exact .binary _
  · exact readSigned_operand (lexical.subset (List.subset_cons_self _ _)) h
  · exact readSigned_operand (lexical.subset (List.subset_cons_self _ _)) h
  · exact absurd h (Reading.fail_ne_ok _ _ _)

theorem skipConj_subset (tokens : List Token) : skipConj tokens ⊆ tokens := by
  unfold skipConj
  split <;> simp

theorem read_subset {condition : SortCondition} (h : read fault tokens = .ok (condition, rest)) :
    rest ⊆ tokens := by
  unfold read at h
  split at h
  · exact absurd h (Reading.fail_ne_ok _ _ _)
  next token behind =>
  split at h
  · obtain ⟨⟨value, _⟩, hvalue, h⟩ := bind_eq_ok_iff.mp h
    obtain ⟨-, rfl⟩ := Prod.mk.inj (Except.ok.inj h)
    exact List.subset_cons_of_subset _ (readScalar_subset hvalue)
  · obtain ⟨⟨low, between⟩, hlow, h⟩ := bind_eq_ok_iff.mp h
    obtain ⟨⟨high, _⟩, hhigh, h⟩ := bind_eq_ok_iff.mp h
    obtain ⟨-, rfl⟩ := Prod.mk.inj (Except.ok.inj h)
    have hskip := List.Subset.trans (skipConj_subset between) (readScalar_subset hlow)
    exact List.subset_cons_of_subset _ (List.Subset.trans (readScalar_subset hhigh) hskip)
  · obtain ⟨⟨start, _⟩, hstart, h⟩ := bind_eq_ok_iff.mp h
    obtain ⟨-, rfl⟩ := Prod.mk.inj (Except.ok.inj h)
    exact List.subset_cons_of_subset _ (readScalar_subset hstart)
  · obtain ⟨⟨value, _⟩, hvalue, h⟩ := bind_eq_ok_iff.mp h
    obtain ⟨-, rfl⟩ := Prod.mk.inj (Except.ok.inj h)
    exact readScalar_subset hvalue

theorem read_wellFormed {condition : SortCondition} (lexical : Lexical tokens)
    (h : read fault tokens = .ok (condition, rest)) : condition.WellFormed := by
  unfold read at h
  split at h
  · exact absurd h (Reading.fail_ne_ok _ _ _)
  next token behind =>
  have hbehind : Lexical behind := lexical.subset (by simp)
  split at h
  · obtain ⟨⟨value, _⟩, hvalue, h⟩ := bind_eq_ok_iff.mp h
    obtain ⟨rfl, rfl⟩ := Prod.mk.inj (Except.ok.inj h)
    exact forall_operands_compare.mpr (readScalar_operand hbehind hvalue)
  · obtain ⟨⟨low, between⟩, hlow, h⟩ := bind_eq_ok_iff.mp h
    obtain ⟨⟨high, _⟩, hhigh, h⟩ := bind_eq_ok_iff.mp h
    obtain ⟨rfl, rfl⟩ := Prod.mk.inj (Except.ok.inj h)
    have hskip := (hbehind.subset (readScalar_subset hlow)).subset (skipConj_subset between)
    exact forall_operands_between.mpr
      ⟨readScalar_operand hbehind hlow, readScalar_operand hskip hhigh⟩
  · obtain ⟨⟨start, _⟩, hstart, h⟩ := bind_eq_ok_iff.mp h
    obtain ⟨rfl, rfl⟩ := Prod.mk.inj (Except.ok.inj h)
    exact forall_operands_beginsWith.mpr (readScalar_operand hbehind hstart)
  · obtain ⟨⟨value, _⟩, hvalue, h⟩ := bind_eq_ok_iff.mp h
    obtain ⟨rfl, rfl⟩ := Prod.mk.inj (Except.ok.inj h)
    exact forall_operands_compare.mpr (readScalar_operand lexical hvalue)

end

theorem parse_wellFormed {text : String} {condition : SortCondition}
    (h : parse text = .ok condition) : condition.WellFormed :=
  read_wellFormed (scanNested_lexical text) (Reading.complete_eq_ok h).2

/-! Conditions of words. -/

theorem ofWords?_strings {words : List (List Char)} {condition : SortCondition}
    (h : ofWords? words = some condition) :
    ∀ value ∈ condition.operands, ∃ text, value = .string text := by
  unfold ofWords? at h
  split at h
  · obtain rfl := Option.some.inj h
    exact forall_operands_compare.mpr ⟨_, rfl⟩
  · split_ifs at h
    obtain rfl := Option.some.inj h
    exact forall_operands_beginsWith.mpr ⟨_, rfl⟩
  · split_ifs at h
    obtain rfl := Option.some.inj h
    exact forall_operands_between.mpr ⟨⟨_, rfl⟩, _, rfl⟩
  · split_ifs at h
    obtain rfl := Option.some.inj h
    exact forall_operands_between.mpr ⟨⟨_, rfl⟩, _, rfl⟩
  · contradiction

theorem parseBare?_strings {text : String} {condition : SortCondition}
    (h : parseBare? text = some condition) :
    ∀ value ∈ condition.operands, ∃ text, value = .string text := by
  unfold parseBare? at h
  dsimp only at h
  split at h
  · next found hfound =>
    obtain rfl := Option.some.inj h
    obtain ⟨sign, -, hsign⟩ := List.exists_of_findSome?_eq_some hfound
    unfold compareWith? at hsign
    split_ifs at hsign
    split at hsign
    · obtain rfl := Option.some.inj hsign
      exact forall_operands_compare.mpr ⟨_, rfl⟩
    · contradiction
  · exact ofWords?_strings h

theorem parseBare?_wellFormed {text : String} {condition : SortCondition}
    (h : parseBare? text = some condition) : condition.WellFormed := by
  intro value hvalue
  obtain ⟨text, rfl⟩ := parseBare?_strings h value hvalue
  exact .string text

/-! Fitting a condition to a type. -/

theorem coerce_self {type : AttributeType} {value : Value} (h : value.type = type) :
    Value.coerce type value = .ok value := by
  rw [Value.coerce, if_pos h]

/-- A value that is read as one of a type has that type. -/
theorem coerce_type {type : AttributeType} {value value' : Value}
    (h : Value.coerce type value = .ok value') : value'.type = type := by
  unfold Value.coerce at h
  split_ifs at h with htype
  · obtain rfl := Except.ok.inj h
    exact htype
  dsimp only at h
  split at h
  · obtain rfl := Except.ok.inj h
    rfl
  · split at h
    · obtain rfl := Except.ok.inj h
      rfl
    · contradiction
  · split at h
    · obtain rfl := Except.ok.inj h
      rfl
    · contradiction
  · contradiction

theorem coerce_operand {type : AttributeType} {value value' : Value} (hv : value.IsOperand)
    (h : Value.coerce type value = .ok value') : value'.IsOperand := by
  unfold Value.coerce at h
  split_ifs at h with htype
  · obtain rfl := Except.ok.inj h
    exact hv
  dsimp only at h
  split at h
  · obtain rfl := Except.ok.inj h
    exact .string _
  · split at h
    · next hread =>
      obtain rfl := Except.ok.inj h
      exact .number (by simpa using Numeral.read?_sound hread)
    · contradiction
  · split at h
    · obtain rfl := Except.ok.inj h
      exact .binary _
    · contradiction
  · contradiction

/-- The values of the new condition are those of the old one, changed one by one. -/
theorem mapValues_operands {f : Value → Except TypingError Value}
    {condition condition' : SortCondition} (h : condition.mapValues f = .ok condition') :
    ∀ value' ∈ condition'.operands, ∃ value ∈ condition.operands, f value = .ok value' := by
  cases condition with
  | compare comparison value =>
    obtain ⟨value', hvalue, h⟩ := bind_eq_ok_iff.mp h
    obtain rfl := Except.ok.inj h
    exact forall_operands_compare.mpr ⟨value, by simp [operands], hvalue⟩
  | between low high =>
    obtain ⟨low', hlow, h⟩ := bind_eq_ok_iff.mp h
    obtain ⟨high', hhigh, h⟩ := bind_eq_ok_iff.mp h
    obtain rfl := Except.ok.inj h
    exact forall_operands_between.mpr
      ⟨⟨low, by simp [operands], hlow⟩, high, by simp [operands], hhigh⟩
  | beginsWith start =>
    obtain ⟨start', hstart, h⟩ := bind_eq_ok_iff.mp h
    obtain rfl := Except.ok.inj h
    exact forall_operands_beginsWith.mpr ⟨start, by simp [operands], hstart⟩

theorem mapValues_self {f : Value → Except TypingError Value} {condition : SortCondition}
    (h : ∀ value ∈ condition.operands, f value = .ok value) :
    condition.mapValues f = .ok condition := by
  cases condition with
  | compare => simp [mapValues, forall_operands_compare.mp h, bind, Except.bind, pure, Except.pure]
  | between =>
    obtain ⟨hlow, hhigh⟩ := forall_operands_between.mp h
    simp [mapValues, hlow, hhigh, bind, Except.bind, pure, Except.pure]
  | beginsWith =>
    simp [mapValues, forall_operands_beginsWith.mp h, bind, Except.bind, pure, Except.pure]

section

variable {strict : Bool} {key : Key} {condition condition' : SortCondition}

theorem coerce_of_typed (h : ∀ value ∈ condition.operands, value.type = key.type) :
    condition.coerce key = .ok condition :=
  mapValues_self fun value hvalue => coerce_self (h value hvalue)

theorem coerce_typed (h : condition.coerce key = .ok condition') :
    ∀ value ∈ condition'.operands, value.type = key.type := by
  intro value' hvalue'
  obtain ⟨value, -, hvalue⟩ := mapValues_operands h value' hvalue'
  exact coerce_type hvalue

theorem coerce_wellFormed (hw : condition.WellFormed) (h : condition.coerce key = .ok condition') :
    condition'.WellFormed := by
  intro value' hvalue'
  obtain ⟨value, hmem, hvalue⟩ := mapValues_operands h value' hvalue'
  exact coerce_operand (hw value hmem) hvalue

/-- Under either policy, what a condition is fitted to is its values read as ones of the type. -/
theorem resolve_eq_ok (h : condition.resolve strict key = .ok condition') :
    condition.asksNumberStart key = false ∧ condition.coerce key = .ok condition' := by
  unfold resolve at h
  split_ifs at h with hstart hstrict
  · split at h
    · contradiction
    · next hnone =>
      obtain rfl := Except.ok.inj h
      exact ⟨by simpa using hstart, coerce_of_typed (by simpa using hnone)⟩
  · exact ⟨by simpa using hstart, mapError_eq_ok_iff.mp h⟩

end

theorem parseFor_wellFormed {strict : Bool} {key : Key} {text : String}
    {condition : SortCondition} (h : parseFor strict key text = .ok condition) :
    condition.WellFormed := by
  unfold parseFor at h
  split at h
  · next parsed hparsed =>
    exact coerce_wellFormed (parse_wellFormed hparsed) (resolve_eq_ok (mapError_eq_ok_iff.mp h)).2
  · have hbare : ∀ bare, (if key.type = .string then parseBare? text else none) = some bare →
        bare.WellFormed := by
      intro bare h
      split_ifs at h
      exact parseBare?_wellFormed h
    generalize (if key.type = .string then parseBare? text else none) = reading at h hbare
    split at h
    · contradiction
    split at h
    · split at h
      · contradiction
      · exact coerce_wellFormed (hbare _ rfl) (resolve_eq_ok (mapError_eq_ok_iff.mp h)).2
    · contradiction

/-- A condition that is read for a key has scalars as its values. -/
theorem parseFor_scalar {strict : Bool} {key : Key} {text : String} {condition : SortCondition}
    (h : parseFor strict key text = .ok condition) : condition.Scalar :=
  (parseFor_wellFormed h).scalar

end SortCondition

end AttributeExpr
