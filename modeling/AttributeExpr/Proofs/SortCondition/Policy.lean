import AttributeExpr.Proofs.SortCondition.Spelling
import Mathlib
/-!
The strict and the lenient policy. Both come to the same condition wherever the strict one comes to
any, and where it refuses a text but offers another reading, that reading is what the lenient policy
takes the text for. The reading offered is a text of its own, which the strict policy accepts.
-/
namespace AttributeExpr

/-- The other reading that an error offers. -/
def ExpressionError.suggestion? : ExpressionError → Option String
  | typing (.sortKeyMismatch _ _ suggestion) => suggestion
  | offering _ reading => some reading
  | _ => none

def Failure.suggestion? : Failure → Option String
  | refused error => error.suggestion?
  | _ => none

theorem ExpressionError.IsTextual.suggestion? {error : ExpressionError} (h : error.IsTextual) :
    error.suggestion? = none := by
  rcases h with ⟨e, rfl⟩ | ⟨e, rfl⟩ <;> rfl

namespace SortCondition

/-! A text that is no condition has an error of its characters or of its grammar. -/

/-- The failures of texts that may have another reading. -/
def IsOpen (failure : Failure) : Prop := allowsOtherReading failure = true

theorem isOpen_grammar (error : GrammarError) : IsOpen (.refused (.grammar error)) := rfl

theorem IsOpen.isTextual {failure : Failure} (h : IsOpen failure) :
    ∃ error : ExpressionError, failure = .refused error ∧ error.IsTextual := by
  unfold IsOpen allowsOtherReading at h
  split at h
  · exact ⟨_, rfl, .inl ⟨_, rfl⟩⟩
  · exact ⟨_, rfl, .inr ⟨_, rfl⟩⟩
  · contradiction

section

variable {p : Failure → Prop} {fault : Option ExpressionError} {tokens : List Token}
  (allows : Reading.Allows p fault tokens)

include allows

theorem failsOnly_readSigned (negative : Bool) :
    FailsOnly p (readSigned fault negative tokens) := by
  unfold readSigned
  split
  · next text position line rest =>
    have hrest := allows.subset (List.subset_cons_self _ rest)
    have hlook := Reading.failsOnly_lookAhead hrest mayFollowScalar
    split
    · next failure hfailure => exact failsOnly_error (hlook failure hfailure)
    · refine FailsOnly.map ?_ _
      unfold signed
      split
      · exact failsOnly_error
          (allows.grammar _ (Reading.atToken_of_mem List.mem_cons_self rfl))
      · exact failsOnly_ok _
  · exact Reading.failsOnly_fail allows

theorem failsOnly_readScalar : FailsOnly p (readScalar fault tokens) := by
  unfold readScalar
  split
  · exact failsOnly_ok _
  · exact failsOnly_ok _
  · exact failsOnly_ok _
  · exact failsOnly_readSigned (allows.subset (List.subset_cons_self _ _)) true
  · exact failsOnly_readSigned (allows.subset (List.subset_cons_self _ _)) false
  · exact Reading.failsOnly_fail allows

theorem failsOnly_read : FailsOnly p (read fault tokens) := by
  unfold read
  split
  · exact Reading.failsOnly_fail allows
  · next token rest =>
    have hrest := allows.subset (List.subset_cons_self token rest)
    split
    · exact (failsOnly_readScalar hrest).bind fun _ _ => failsOnly_ok _
    · apply (failsOnly_readScalar hrest).bind
      rintro ⟨low, between⟩ hlow
      have hskip := List.Subset.trans (skipConj_subset between) (readScalar_subset hlow)
      exact (failsOnly_readScalar (hrest.subset hskip)).bind fun _ _ => failsOnly_ok _
    · exact (failsOnly_readScalar hrest).bind fun _ _ => failsOnly_ok _
    · exact (failsOnly_readScalar allows).bind fun _ _ => failsOnly_ok _

end

theorem failsOnly_parse_of_allows {p : Failure → Prop} {text : String}
    (allows : Reading.Allows p (scanNested text).fault (scanNested text).tokens) :
    FailsOnly p (parse text) :=
  Reading.failsOnly_complete allows (failsOnly_read allows) fun _ _ => read_subset

theorem failsOnly_parse (text : String) : FailsOnly IsOpen (parse text) := by
  have hfault : ∀ error ∈ (scanNested text).fault, IsOpen (.refused error) := by
    intro error herror
    rcases scanNested_fault text error herror with ⟨e, rfl⟩ | ⟨e, rfl⟩ <;> rfl
  exact failsOnly_parse_of_allows ⟨fun error _ => isOpen_grammar error, hfault⟩

/-! What the policies make of a condition. -/

section

variable {key : Key} {condition condition' : SortCondition}

theorem coerce_asksNumberStart (h : condition.coerce key = .ok condition') :
    condition'.asksNumberStart key = condition.asksNumberStart key := by
  cases condition with
  | compare =>
    obtain ⟨value', -, h⟩ := bind_eq_ok_iff.mp h
    obtain rfl := Except.ok.inj h
    rfl
  | between =>
    obtain ⟨low', -, h⟩ := bind_eq_ok_iff.mp h
    obtain ⟨high', -, h⟩ := bind_eq_ok_iff.mp h
    obtain rfl := Except.ok.inj h
    rfl
  | beginsWith =>
    obtain ⟨start', -, h⟩ := bind_eq_ok_iff.mp h
    obtain rfl := Except.ok.inj h
    rfl

/-- Neither policy changes a condition whose values have the type of the key. -/
theorem resolve_of_typed (h : ∀ value ∈ condition.operands, value.type = key.type)
    (hstart : condition.asksNumberStart key = false) (strict : Bool) :
    condition.resolve strict key = .ok condition := by
  have hfind : condition.operands.find? (·.type ≠ key.type) = none := by
    simpa using h
  cases strict with
  | true => rw [resolve, if_neg (by simp [hstart]), if_pos rfl, hfind]
  | false => simp [resolve, hstart, coerce_of_typed h, Except.mapError]

theorem resolve_false (hstart : condition.asksNumberStart key = false) :
    condition.resolve false key = (condition.coerce key).mapError .typing := by
  simp [resolve, hstart]

/-- What a condition is fitted to has values of the key's type only, and is fitted to itself. -/
theorem resolve_fixed {strict : Bool} (h : condition.resolve strict key = .ok condition') :
    (∀ value ∈ condition'.operands, value.type = key.type) ∧
      ∀ strict', condition'.resolve strict' key = .ok condition' := by
  obtain ⟨hstart, hcoerce⟩ := resolve_eq_ok h
  have htyped := coerce_typed hcoerce
  exact ⟨htyped, resolve_of_typed htyped (by rw [coerce_asksNumberStart hcoerce, hstart])⟩

/-- What the strict policy accepts, the lenient one accepts as it is. -/
theorem resolve_lenient (h : condition.resolve true key = .ok condition') :
    condition.resolve false key = .ok condition' := by
  obtain ⟨hstart, hcoerce⟩ := resolve_eq_ok h
  rw [resolve_false hstart, hcoerce]
  rfl

/-- A refusal of the strict policy offers what the lenient policy accepts, if there is anything. -/
theorem resolve_suggestion {error : ExpressionError}
    (h : condition.resolve true key = .error error) :
    (∃ coerced, error.suggestion? = some coerced.render ∧ condition.coerce key = .ok coerced ∧
      condition.resolve false key = .ok coerced) ∨
    error.suggestion? = none ∧ ∃ error', condition.resolve false key = .error error' := by
  cases hstart : condition.asksNumberStart key with
  | true =>
    simp only [resolve, hstart, ↓reduceIte] at h
    obtain rfl := Except.error.inj h
    exact .inr ⟨rfl, _, by rw [resolve, if_pos hstart]⟩
  | false =>
    simp only [resolve, hstart, Bool.false_eq_true, ↓reduceIte] at h
    split at h
    · obtain rfl := Except.error.inj h
      cases hcoerce : condition.coerce key with
      | ok coerced =>
        refine .inl ⟨coerced, ?_, rfl, by rw [resolve_false hstart, hcoerce]; rfl⟩
        simp [ExpressionError.suggestion?, SortCondition.suggestion?, hcoerce]
      | error e =>
        refine .inr ⟨?_, .typing e, by rw [resolve_false hstart, hcoerce]; rfl⟩
        simp [ExpressionError.suggestion?, SortCondition.suggestion?, hcoerce]
    · contradiction

end

/-! What they make of a text. -/

section

variable {key : Key} {text : String}

theorem parseFor_of_parse {condition : SortCondition} (h : parse text = .ok condition)
    (strict : Bool) (key : Key) :
    parseFor strict key text = liftRefusal (condition.resolve strict key) := by
  rw [parseFor, h]

theorem parseFor_of_bare {error : ExpressionError} {condition : SortCondition}
    (h : parse text = .error (.refused error)) (htype : key.type = .string)
    (hbare : parseBare? text = some condition) (strict : Bool) :
    parseFor strict key text =
      if strict then refuse (.offering error condition.render)
      else liftRefusal (condition.resolve strict key) := by
  have hopen := failsOnly_parse text _ h
  have hallows : ¬ (!allowsOtherReading (.refused error)) = true := by simpa [IsOpen] using hopen
  rw [parseFor, h]
  dsimp only
  rw [if_neg hallows, if_pos htype, hbare]

/-- A text is a condition of literals, or else a condition of words for a string key, or neither. -/
theorem parseFor_cases (key : Key) (text : String) :
    (∃ condition, parse text = .ok condition ∧
      ∀ strict, parseFor strict key text = liftRefusal (condition.resolve strict key)) ∨
    (∃ error condition, key.type = .string ∧ parseBare? text = some condition ∧
      parseFor true key text = refuse (.offering error condition.render) ∧
      parseFor false key text = liftRefusal (condition.resolve false key)) ∨
    ∃ error : ExpressionError, error.IsTextual ∧
      ∀ strict, parseFor strict key text = refuse error := by
  cases hparse : parse text with
  | ok condition => exact .inl ⟨condition, rfl, fun strict => parseFor_of_parse hparse strict key⟩
  | error failure =>
    have hopen := failsOnly_parse text failure hparse
    obtain ⟨error, rfl, htextual⟩ := hopen.isTextual
    have hallows : ¬ (!allowsOtherReading (.refused error)) = true := by
      simpa [IsOpen] using hopen
    cases hbare : (if key.type = .string then parseBare? text else none) with
    | none =>
      refine .inr (.inr ⟨error, htextual, fun strict => ?_⟩)
      rw [parseFor, hparse]
      dsimp only
      rw [if_neg hallows, hbare]
      rfl
    | some condition =>
      split_ifs at hbare with htype
      have hreading := parseFor_of_bare hparse htype hbare
      exact .inr (.inl ⟨error, condition, htype, hbare, hreading true, hreading false⟩)

theorem liftRefusal_eq_error {α : Type} {outcome : Except ExpressionError α} {failure : Failure}
    (h : liftRefusal outcome = .error failure) :
    ∃ error, outcome = .error error ∧ failure = .refused error := by
  cases outcome with
  | ok a => contradiction
  | error error => exact ⟨error, rfl, (Except.error.inj h).symm⟩

theorem parseFor_fixed {strict : Bool} {condition : SortCondition}
    (h : parseFor strict key text = .ok condition) :
    (∀ value ∈ condition.operands, value.type = key.type) ∧
      ∀ strict', condition.resolve strict' key = .ok condition := by
  rcases parseFor_cases key text with ⟨parsed, -, hboth⟩ | ⟨error, bare, -, -, htrue, hfalse⟩ |
    ⟨error, -, hboth⟩
  · rw [hboth] at h
    exact resolve_fixed (mapError_eq_ok_iff.mp h)
  · cases strict with
    | true => rw [htrue] at h; contradiction
    | false =>
      rw [hfalse] at h
      exact resolve_fixed (mapError_eq_ok_iff.mp h)
  · rw [hboth] at h
    contradiction

theorem parseFor_lenient {condition : SortCondition} (h : parseFor true key text = .ok condition) :
    parseFor false key text = .ok condition := by
  rcases parseFor_cases key text with ⟨parsed, -, hboth⟩ | ⟨error, bare, -, -, htrue, -⟩ |
    ⟨error, -, hboth⟩
  · rw [hboth] at h ⊢
    rw [resolve_lenient (mapError_eq_ok_iff.mp h)]
    rfl
  · rw [htrue] at h
    contradiction
  · rw [hboth] at h
    contradiction

/-- The text of a condition that fits the key is accepted under both policies. -/
theorem parseFor_render {condition : SortCondition} (hw : condition.WellFormed)
    (h : ∀ strict, condition.resolve strict key = .ok condition) (strict : Bool) :
    parseFor strict key condition.render = .ok condition := by
  rw [parseFor_of_parse hw.parse, h strict]
  rfl

/-- What a strict refusal offers is what the lenient policy takes the text for. -/
theorem parseFor_suggested {failure : Failure} {reading : String}
    (h : parseFor true key text = .error failure) (hs : failure.suggestion? = some reading) :
    ∃ condition, parseFor true key reading = .ok condition ∧
      parseFor false key text = .ok condition := by
  rcases parseFor_cases key text with ⟨parsed, hparsed, hboth⟩ |
    ⟨error, bare, htype, hbare, htrue, hfalse⟩ | ⟨error, htextual, hboth⟩
  · rw [hboth] at h
    obtain ⟨error, herror, rfl⟩ := liftRefusal_eq_error h
    rcases resolve_suggestion herror with ⟨coerced, hoffer, hcoerce, hlenient⟩ | ⟨hnone, -⟩
    · obtain rfl := Option.some.inj (hs.symm.trans hoffer)
      have hw := coerce_wellFormed (parse_wellFormed hparsed) hcoerce
      refine ⟨coerced, parseFor_render hw (resolve_fixed hlenient).2 true, ?_⟩
      rw [hboth, hlenient]
      rfl
    · rw [Failure.suggestion?, hnone] at hs
      contradiction
  · rw [htrue] at h
    obtain rfl := Except.error.inj h
    obtain rfl := Option.some.inj hs
    have htyped : ∀ value ∈ bare.operands, value.type = key.type := by
      intro value hvalue
      obtain ⟨text, rfl⟩ := parseBare?_strings hbare value hvalue
      exact htype.symm
    have hstart : bare.asksNumberStart key = false := by
      cases bare <;> simp [asksNumberStart, htype]
    have hresolve := resolve_of_typed htyped hstart
    refine ⟨bare, parseFor_render (parseBare?_wellFormed hbare) hresolve true, ?_⟩
    rw [hfalse, hresolve]
    rfl
  · rw [hboth] at h
    obtain rfl := Except.error.inj h
    rw [Failure.suggestion?, htextual.suggestion?] at hs
    contradiction

/-- Where a strict refusal offers nothing, the lenient policy refuses too. -/
theorem parseFor_refused {failure : Failure} (h : parseFor true key text = .error failure)
    (hs : failure.suggestion? = none) : ∃ failure', parseFor false key text = .error failure' := by
  rcases parseFor_cases key text with ⟨parsed, -, hboth⟩ | ⟨error, bare, -, -, htrue, -⟩ |
    ⟨error, -, hboth⟩
  · rw [hboth] at h
    obtain ⟨error, herror, rfl⟩ := liftRefusal_eq_error h
    rcases resolve_suggestion herror with ⟨coerced, hoffer, -, -⟩ | ⟨-, error', hlenient⟩
    · rw [Failure.suggestion?, hoffer] at hs
      contradiction
    · exact ⟨.refused error', by rw [hboth, hlenient]; rfl⟩
  · rw [htrue] at h
    obtain rfl := Except.error.inj h
    contradiction
  · exact ⟨_, hboth false⟩

/-- The policies agree wherever the strict one accepts a text. Where it refuses one with a
suggestion, it accepts the suggestion, as what the lenient policy takes the text for; and where it
has none, the lenient policy refuses the text too. What either comes to has values of the key's type
only, and stays as it is when it is fitted to the key again. -/
theorem parseFor_policies (key : Key) (text : String) :
    (∀ condition, parseFor true key text = .ok condition →
      parseFor false key text = .ok condition) ∧
    (∀ failure reading, parseFor true key text = .error failure →
      failure.suggestion? = some reading →
      ∃ condition, parseFor true key reading = .ok condition ∧
        parseFor false key text = .ok condition) ∧
    (∀ failure, parseFor true key text = .error failure → failure.suggestion? = none →
      ∃ failure', parseFor false key text = .error failure') ∧
    ∀ strict condition, parseFor strict key text = .ok condition →
      (∀ value ∈ condition.operands, value.type = key.type) ∧
        ∀ strict', condition.resolve strict' key = .ok condition := by
  exact ⟨fun condition => parseFor_lenient, fun failure reading => parseFor_suggested,
    fun failure => parseFor_refused, fun strict condition => parseFor_fixed⟩

set_option maxRecDepth 4000 in
/-- One bound of a range has the type of the key, and the other is read as if it had. -/
theorem parseFor_policies_between :
    let key : Key := ⟨"k", .string⟩
    let failure : Failure := .refused (.typing
      (.sortKeyMismatch .string .number (some "between \"x\" and \"7\"")))
    parseFor true key "between \"x\" 7" = .error failure ∧
      ∃ condition, parseFor true key "between \"x\" and \"7\"" = .ok condition ∧
        parseFor false key "between \"x\" 7" = .ok condition ∧
        (∀ value ∈ condition.operands, value.type = .string) ∧
        ∀ strict, condition.resolve strict key = .ok condition := by
  intro key failure
  have hstrict : parseFor true key "between \"x\" 7" = .error failure := by cbv
  obtain ⟨-, suggested, -, fixed⟩ := parseFor_policies key "between \"x\" 7"
  obtain ⟨condition, hoffered, hlenient⟩ := suggested failure _ hstrict rfl
  exact ⟨hstrict, condition, hoffered, hlenient, fixed false condition hlenient⟩

/-- The condition that is offered for a bare surrogate is refused: the escape in its literal is not
decoded. -/
theorem parseFor_surrogate :
    parseFor true ⟨"k", .string⟩ ("= " ++ StringBody.literalOf [0xDCFF]) =
      .error (.refused (.offering (.lexical (.loneLowSurrogate 3)) "= \"\\\"\\\\udcff\\\"\"")) := by
  cbv

end

end SortCondition

end AttributeExpr
