import AttributeExpr.Proofs.Literal.Base64
import AttributeExpr.Proofs.Value.Failure
import AttributeExpr.Value.Wire
/-!
Steps that break off, that is, that end neither with a result nor with a refusal. A list of steps
breaks off with the first that does. Of the parts of encoded values, payloads without bytes, texts
that are no comparable numbers and elements of string sets that cannot be told apart do so.
-/
namespace AttributeExpr

/-- The step ends with a failure that is no refusal. -/
def Breaks {α : Type} (outcome : Except Failure α) (failure : Failure) : Prop :=
  outcome = .error failure ∧ ∀ error, failure ≠ .refused error

section

variable {α β : Type} {failure : Failure}

theorem not_breaks_ok (a : α) : ¬ Breaks (.ok a) failure := nofun

theorem not_breaks_refuse (error : ExpressionError) :
    ¬ Breaks (refuse error : Except Failure α) failure := by
  rintro ⟨h, hfailure⟩
  exact hfailure error (Except.error.inj h).symm

theorem refuse_ne_ok (error : ExpressionError) (a : α) :
    (refuse error : Except Failure α) ≠ .ok a := nofun

theorem breaks_error_iff {cause : Failure} (h : ∀ error, cause ≠ .refused error) :
    Breaks (.error cause : Except Failure α) failure ↔ failure = cause := by
  constructor
  · rintro ⟨heq, -⟩
    exact (Except.error.inj heq).symm
  · rintro rfl
    exact ⟨rfl, h⟩

theorem not_breaks_of_failsOnly {outcome : Except Failure α}
    (h : FailsOnly (fun failure => ∃ error, failure = .refused error) outcome) :
    ¬ Breaks outcome failure := by
  rintro ⟨houtcome, hfailure⟩
  obtain ⟨error, herror⟩ := h failure houtcome
  exact hfailure error herror

theorem breaks_map_iff {outcome : Except Failure α} {f : α → β} :
    Breaks (outcome.map f) failure ↔ Breaks outcome failure := by
  rw [Breaks, Breaks, map_eq_error_iff]

theorem breaks_bind_iff {outcome : Except Failure α} {f : α → Except Failure β} :
    Breaks (outcome >>= f) failure ↔
      Breaks outcome failure ∨ ∃ a, outcome = .ok a ∧ Breaks (f a) failure := by
  cases outcome <;> simp [Breaks, bind, Except.bind]

/-- The first member of a list that cannot be taken is the one that breaks. -/
theorem breaks_mapM_iff {f : α → Except Failure β} {as : List α} :
    Breaks (as.mapM f) failure ↔ ∃ before a after, as = before ++ a :: after ∧
      (∀ other ∈ before, ∃ b, f other = .ok b) ∧ Breaks (f a) failure := by
  induction as with
  | nil => simp [Breaks, pure, Except.pure]
  | cons first as ih =>
    rw [List.mapM_cons, breaks_bind_iff, exists_split_cons_iff]
    simp only [breaks_bind_iff, ih, pure, Except.pure, not_breaks_ok, List.forall_mem_cons]
    cases hfirst : f first with
    | error e => simp [Breaks]
    | ok b => simp [not_breaks_ok]

end

/-! Texts of numbers and payloads of binaries. -/

/-- The text is no number that can be compared with others. -/
inductive NotComparable (text : String) : Failure → Prop
  | noDecimal (h : Decimal.read? text = none) : NotComparable text .noDecimal
  | signalingNaN {d : Decimal} (h : Decimal.read? text = some d)
      (signaling : d.isSignaling = true) : NotComparable text .signalingNaN

theorem comparable_eq_error_iff {text : String} {failure : Failure} :
    comparable text = .error failure ↔ NotComparable text failure := by
  unfold comparable
  constructor
  · intro h
    split at h
    · next hread =>
      obtain rfl := Except.error.inj h
      exact .noDecimal hread
    · next d hread =>
      split_ifs at h with hsignaling
      obtain rfl := Except.error.inj h
      exact .signalingNaN hread hsignaling
  · rintro (hread | ⟨hread, hsignaling⟩)
    · rw [hread]
    · rw [hread]
      exact if_pos hsignaling

theorem NotComparable.ne_refused {text : String} {failure : Failure}
    (h : NotComparable text failure) (error : ExpressionError) : failure ≠ .refused error := by
  cases h <;> nofun

theorem breaks_comparable_iff {text : String} {failure : Failure} :
    Breaks (comparable text) failure ↔ NotComparable text failure := by
  rw [Breaks, comparable_eq_error_iff]
  exact and_iff_left_of_imp NotComparable.ne_refused

/-- Elements that are all distinct so far are checked, and the next one is not comparable. -/
theorem breaks_checkNumbers_iff {seen : List Decimal} {texts : List String} {failure : Failure} :
    Breaks (checkNumbers seen texts) failure ↔ ∃ before text after,
      texts = before ++ text :: after ∧ checkNumbers seen before = .ok () ∧
        NotComparable text failure := by
  induction texts generalizing seen with
  | nil => simp [checkNumbers, not_breaks_ok]
  | cons first texts ih =>
    simp only [exists_split_cons_iff, checkNumbers, ← breaks_comparable_iff, true_and]
    cases comparable first with
    | error e => simp [Breaks]
    | ok d =>
      dsimp only
      split_ifs
      · simp [not_breaks_refuse, refuse_ne_ok, not_breaks_ok, breaks_comparable_iff]
      · simp [ih, not_breaks_ok, breaks_comparable_iff]

theorem breaks_setOf_numbers_iff {texts : List String} {failure : Failure} :
    Breaks (Value.setOf (texts.map Value.number)) failure ↔ ∃ before text after,
      texts = before ++ text :: after ∧ DistinctNumbers before ∧ NotComparable text failure := by
  simp only [← checkNumbers_nil_iff, ← breaks_checkNumbers_iff]
  cases texts with
  | nil => simp [Value.setOf, checkNumbers, not_breaks_refuse, not_breaks_ok]
  | cons text texts =>
    obtain ⟨huniform, hparts⟩ := Value.find?_filterMap_map Value.number Value.numberText?
      (fun _ => rfl) (fun _ => rfl) text texts
    simp only [List.map_cons, Value.setOf, huniform, hparts]
    exact breaks_map_iff

/-- Only numbers can break off the making of a set. -/
theorem not_breaks_setOf {items : List Value} {failure : Failure}
    (h : ∀ text, Value.number text ∉ items) : ¬ Breaks (Value.setOf items) failure := by
  apply not_breaks_of_failsOnly
  exact Value.failsOnly_setOf (p := fun failure => ∃ error, failure = .refused error)
    (fun error => ⟨.typing error, rfl⟩) fun text hmem => absurd hmem (h text)

namespace Value

/-- There are no bytes in a payload that is no text, nor in one with a character outside ASCII. -/
inductive LacksBytes : Json → Failure → Prop
  | nonAscii {text : String} (h : ∃ c ∈ text.toList, 128 ≤ c.toNat) :
      LacksBytes (.string text) .nonAsciiBase64
  | notText {payload : Json} (h : isText payload = false) : LacksBytes payload .payloadNotText

theorem breaks_payloadBytes_iff {payload : Json} {failure : Failure} :
    Breaks (payloadBytes payload) failure ↔ LacksBytes payload failure := by
  constructor
  · rintro ⟨h, hfailure⟩
    unfold payloadBytes at h
    split at h
    · split at h
      · contradiction
      · next hdecode =>
        obtain rfl := Except.error.inj h
        exact .nonAscii (Base64.decode_eq_nonAscii_iff.mp hdecode)
      · exact absurd (Except.error.inj h).symm (hfailure _)
    · next hno =>
      obtain rfl := Except.error.inj h
      refine .notText ?_
      cases payload <;> first | rfl | exact absurd rfl (hno _)
  · rintro (h | h)
    · refine ⟨?_, nofun⟩
      rw [payloadBytes, Base64.decode_eq_nonAscii_iff.mpr h]
    · refine ⟨?_, nofun⟩
      cases payload <;> first | rfl | contradiction

/-! Elements of string sets that need not be texts. -/

/-- Elements that can all be told apart: no collections, and no two of them the same. -/
def DistinctElements (elements : List Json) : Prop :=
  (∀ element ∈ elements, element.isCollection = false) ∧
    elements.Pairwise fun earlier element => element.sameScalar earlier = false

theorem checkElements_eq_ok_iff {seen elements : List Json} :
    checkElements seen elements = .ok () ↔ DistinctElements elements ∧
      ∀ element ∈ elements, ∀ earlier ∈ seen, element.sameScalar earlier = false := by
  induction elements generalizing seen with
  | nil => simp [checkElements, DistinctElements]
  | cons element elements ih =>
    rw [checkElements]
    simp only [DistinctElements, List.forall_mem_cons, List.pairwise_cons] at ih ⊢
    split_ifs with hcollection hseen
    · simp [hcollection]
    · obtain ⟨earlier, hearlier, hsame⟩ := List.any_eq_true.mp hseen
      simp only [false_iff]
      rintro ⟨-, hdistinct, -⟩
      rw [hdistinct earlier hearlier] at hsame
      contradiction
    · rw [ih]
      simp only [List.any_eq_true, not_exists, not_and, Bool.not_eq_true] at hcollection hseen
      grind

theorem breaks_repetition_iff {element : Json} {failure : Failure} :
    Breaks (.error (repetition element) : Except Failure Unit) failure ↔
      failure = .payloadNotText ∧ isText element = false := by
  constructor
  · rintro ⟨h, hfailure⟩
    obtain rfl := Except.error.inj h
    cases element <;> first | exact ⟨rfl, rfl⟩ | exact absurd rfl (hfailure _)
  · rintro ⟨rfl, htext⟩
    refine ⟨?_, nofun⟩
    cases element <;> first | rfl | contradiction

/-- The element is a collection, or it is no text and the same as one of the others. -/
def Undistinguished (others : List Json) (element : Json) : Prop :=
  element.isCollection = true ∨
    isText element = false ∧ ∃ other ∈ others, element.sameScalar other = true

theorem breaks_checkElements_iff {seen elements : List Json} {failure : Failure} :
    Breaks (checkElements seen elements) failure ↔ failure = .payloadNotText ∧
      ∃ before element after, elements = before ++ element :: after ∧
        checkElements seen before = .ok () ∧ Undistinguished (before ++ seen) element := by
  induction elements generalizing seen with
  | nil => simp [checkElements, not_breaks_ok]
  | cons element elements ih =>
    rw [exists_split_cons_iff]
    simp only [checkElements]
    split_ifs with hcollection hseen
    · simp [breaks_error_iff, Undistinguished, hcollection]
    · have hrepeated : ∃ other ∈ seen, element.sameScalar other = true := List.any_eq_true.mp hseen
      simp [breaks_repetition_iff, Undistinguished, hcollection, hrepeated]
    · have hfirst : ¬ Undistinguished ([] ++ seen) element := by
        rintro (h | ⟨-, h⟩)
        · exact hcollection h
        · exact hseen (List.any_eq_true.mpr h)
      have hlater (before : List Json) (other : Json) :
          Undistinguished (before ++ element :: seen) other ↔
            Undistinguished (element :: before ++ seen) other := by
        simp [Undistinguished, or_left_comm]
      simp only [ih, hlater, hfirst, and_false, false_or]

end Value

end AttributeExpr
