import AttributeExpr.Proofs.Value.Soundness
import Mathlib
/-!
The parser of literals accepts exactly the grammar of literals. The check of delimiters that runs
while a text is cut into tokens does not change which texts are accepted, since the delimiters of a
literal match, and a reading that succeeds has seen no fault.
-/
namespace AttributeExpr.Value

variable {text : String} {tokens : List Token} {symbols : List Symbol} {value value' : Value}

/-- What is parsed is derived from the tokens that the text is cut into without the check. -/
theorem parse_sound (h : parse text = .ok value) :
    ∃ tokens, tokenize text = .ok tokens ∧ Derives (tokens.map (·.symbol)) value := by
  obtain ⟨hfault, hread⟩ := Reading.complete_eq_ok h
  obtain ⟨front, htokens, hfront⟩ := read_sound hread
  rw [List.append_nil] at htokens
  exact ⟨_, tokenize_of_scanNested hfault, by rwa [htokens]⟩

theorem parse_of_tokenize (htokens : tokenize text = .ok tokens)
    (h : Derives (tokens.map (·.symbol)) value) : parse text = .ok value := by
  obtain ⟨line, hscan⟩ := scanNested_of_tokenize htokens h.wellNested
  exact parse_of_scan hscan h

/-- A literal has one value, as the reader finds the value of any derivation. -/
theorem Derives.unique (h : Derives symbols value) (h' : Derives symbols value') :
    value = value' := by
  obtain ⟨tokens, htokens⟩ := Reading.exists_tokens symbols
  let s : Surroundings := ⟨none, mayFollowLiteral, fun _ => false⟩
  have hnests : Nests s := fun _ hm => hm
  have hend : Admits s [] := rfl
  have hread := h.read hnests htokens hend
  rw [h'.read hnests htokens hend] at hread
  exact (Prod.mk.inj (Except.ok.inj hread)).1.symm

/-- A text is parsed as a value exactly if its tokens are a literal for the value. There is only one
such value, and no text whose tokens are a literal has a fault of nesting. -/
theorem parse_eq_ok_iff_derives (text : String) :
    (∀ value, parse text = .ok value ↔
      ∃ tokens, tokenize text = .ok tokens ∧ Derives (tokens.map (·.symbol)) value) ∧
    (∀ symbols value value', Derives symbols value → Derives symbols value' → value = value') ∧
    ∀ tokens value, tokenize text = .ok tokens → Derives (tokens.map (·.symbol)) value →
      (scanNested text).result = .ok tokens := by
  refine ⟨fun value => ⟨parse_sound, ?_⟩, fun _ _ _ => Derives.unique, ?_⟩
  · rintro ⟨tokens, htokens, hderives⟩
    exact parse_of_tokenize htokens hderives
  · intro tokens value htokens hderives
    obtain ⟨line, hscan⟩ := scanNested_of_tokenize htokens hderives.wellNested
    rw [hscan]
    rfl

set_option maxRecDepth 4000 in
/-- Keywords are keys of a map, and a set stands in a list. -/
theorem parse_eq_ok_iff_derives_keywords :
    let text := "\x7bAnd: [<<\"x\", 'y'>>, NULL]\x7d"
    let value := map [("And", list [stringSet ["x", "y"], null])]
    ∃ tokens, tokenize text = .ok tokens ∧ Derives (tokens.map (·.symbol)) value ∧
      (scanNested text).result = .ok tokens ∧
      ∀ value', Derives (tokens.map (·.symbol)) value' → value' = value := by
  intro text value
  have hparse : parse text = .ok value := by cbv
  obtain ⟨exact, unique, accepted⟩ := parse_eq_ok_iff_derives text
  obtain ⟨tokens, htokens, hderives⟩ := (exact value).mp hparse
  exact ⟨tokens, htokens, hderives, accepted tokens value htokens hderives,
    fun value' h => unique _ value' value h hderives⟩

end AttributeExpr.Value
