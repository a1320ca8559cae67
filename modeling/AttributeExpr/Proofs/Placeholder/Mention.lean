import AttributeExpr.Proofs.Placeholder.Expansion
import Mathlib
/-!
The placeholders of a text, in the order in which they are read. A text that is put together from
references, from other such texts and from characters that begin no placeholder mentions what its
parts mention, one part after another.
-/
namespace AttributeExpr

namespace CompiledExpression

/-- The placeholders in a text, from the left, each as often as it is there. -/
def placeholders : List Char → List String
  | [] => []
  | c :: rest =>
    match _ : placeholder? (c :: rest) with
    | none => placeholders rest
    | some (ref, after) => ref :: placeholders after
termination_by text => text.length
decreasing_by
  · simp
  · exact length_of_placeholder? ‹_›

theorem placeholders_of_placeholder? {ref : String} {text after : List Char}
    (h : placeholder? text = some (ref, after)) :
    placeholders text = ref :: placeholders after := by
  cases text with
  | nil => contradiction
  | cons c rest =>
    rw [placeholders]
    split
    · next hnone => rw [hnone] at h; contradiction
    · next ref' after' hsome =>
      rw [hsome] at h
      obtain ⟨rfl, rfl⟩ := Prod.mk.inj (Option.some.inj h)
      rfl

theorem placeholders_plain {c : Char} (h : IsPlain c) (rest : List Char) :
    placeholders (c :: rest) = placeholders rest := by
  have hnone := placeholder?_plain h rest
  rw [placeholders]
  split
  · rfl
  · next hsome => rw [hnone] at hsome; contradiction

/-- In front of anything but a further digit, the text mentions the placeholders in this order. It
does not begin with a digit, so it can stand behind a placeholder itself. -/
structure Mentions (text : List Char) (refs : List String) : Prop where
  stops : Stops Numeral.isDigit text
  reads : ∀ ⦃rest : List Char⦄, Stops Numeral.isDigit rest →
    placeholders (text ++ rest) = refs ++ placeholders rest

namespace Mentions

variable {a b : List Char} {refs further : List String}

theorem append (ha : Mentions a refs) (hb : Mentions b further) :
    Mentions (a ++ b) (refs ++ further) := by
  refine ⟨ha.stops.append hb.stops, ?_⟩
  intro rest hrest
  rw [List.append_assoc, ha.reads (hb.stops.append hrest), hb.reads hrest, List.append_assoc]

theorem plain (stops : Stops Numeral.isDigit a) (h : ∀ c ∈ a, IsPlain c) : Mentions a [] := by
  refine ⟨stops, ?_⟩
  intro rest hrest
  clear stops
  induction a with
  | nil => simp
  | cons c a ih =>
    obtain ⟨hc, ha⟩ := List.forall_mem_cons.mp h
    rw [List.cons_append, placeholders_plain hc, ih ha]

theorem nil : Mentions [] [] := plain (stops_nil _) (by simp)

/-- A reference mentions itself, with all of its digits. -/
theorem numbered {kind : String} (stops : ∀ text, Stops Numeral.isDigit (kind.toList ++ text))
    (hkind : ∀ text, placeholder? (kind.toList ++ text) = numbered? kind text) (n : Nat) :
    Mentions (kind ++ toString n).toList [kind ++ toString n] := by
  constructor
  · rw [String.toList_append]
    exact stops _
  · intro rest hrest
    exact placeholders_of_placeholder? (placeholder?_numbered hkind n hrest)

theorem nameRef (n : Nat) : Mentions (PlaceholderTable.nameRef n).toList
    [PlaceholderTable.nameRef n] :=
  numbered (fun _ => stops_cons.mpr rfl) (fun _ => rfl) n

theorem valueRef (n : Nat) : Mentions (PlaceholderTable.valueRef n).toList
    [PlaceholderTable.valueRef n] :=
  numbered (fun _ => stops_cons.mpr rfl) (fun _ => rfl) n

/-- An index between brackets, which may be a negative one. -/
theorem index (index : Int) : Mentions ("[" ++ toString index ++ "]").toList [] := by
  have hindex : ∀ c ∈ (toString index).toList, IsPlain c := by
    intro c hc
    rcases Decimal.mem_toString_int hc with hdigit | rfl
    · exact isPlain_of_isDigit hdigit
    · simp [IsPlain]
  apply plain
  · simp [Numeral.isDigit]
  · rw [String.toList_append, String.toList_append, List.forall_mem_append, List.forall_mem_append]
    exact ⟨⟨by simp [IsPlain], hindex⟩, by simp [IsPlain]⟩

/-- Two texts with a separator between them that mentions nothing. -/
theorem joined {first second between : String} (hbetween : Mentions between.toList [])
    (hfirst : Mentions first.toList refs) (hsecond : Mentions second.toList further) :
    Mentions (first ++ between ++ second).toList (refs ++ further) := by
  have h := hfirst.append (hbetween.append hsecond)
  simpa using h

/-- A call of a function, whose name stands in what opens it. -/
theorem call {opening first second : String} (hopening : Mentions opening.toList [])
    (hfirst : Mentions first.toList refs) (hsecond : Mentions second.toList further) :
    Mentions (opening ++ first ++ ", " ++ second ++ ")").toList (refs ++ further) := by
  have hcomma : Mentions ", ".toList [] := plain (by simp [Numeral.isDigit]) (by simp [IsPlain])
  have hclosing : Mentions ")".toList [] := plain (by simp [Numeral.isDigit]) (by simp [IsPlain])
  have h := (hopening.append (joined hcomma hfirst hsecond)).append hclosing
  simpa using h

/-- Texts between commas mention what each of them mentions. -/
theorem intercalate {texts : List String} {mentioned : List (List String)}
    (h : List.Forall₂ (fun text refs => Mentions text.toList refs) texts mentioned) :
    Mentions (", ".intercalate texts).toList mentioned.flatten := by
  have hcomma : Mentions [',', ' '] [] := plain (by simp [Numeral.isDigit]) (by simp [IsPlain])
  rw [String.toList_intercalate]
  induction h with
  | nil => exact nil
  | cons hfirst hrest ih =>
    cases hrest with
    | nil => simpa using hfirst
    | cons => simpa using hfirst.append (hcomma.append ih)

theorem eq_placeholders {text : List Char} (h : Mentions text refs) : placeholders text = refs := by
  have hreads := h.reads (stops_nil _)
  rw [List.append_nil, placeholders, List.append_nil] at hreads
  exact hreads

end Mentions

example : placeholders "SET #p0[1].#p10 = :v0 + #p0".toList = ["#p0", "#p10", ":v0", "#p0"] := by
  cbv

end CompiledExpression

end AttributeExpr
