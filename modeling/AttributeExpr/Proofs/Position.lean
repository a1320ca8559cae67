import AttributeExpr.Proofs.SortCondition.Policy
import AttributeExpr.Proofs.Token.Position
import AttributeExpr.Proofs.Update.Failure
/-!
The places of errors. Every error that names a place names one inside the text. A lexical error
stands at the character that it is about, and every other error at a token; only the end of the
text is found missing nowhere.
-/
namespace AttributeExpr

/-- The error has no place, or one in the text: a lexical error that of what it is about, and any
other error that of a token. -/
def ExpressionError.PlacedIn (text : String) : ExpressionError → Prop
  | lexical e => e.position < text.length ∧ e.Fits (text.toList.drop e.position)
  | error => ∀ position ∈ error.position?, position < text.length ∧
      ∃ token ∈ (Lexer.scan 1 text).tokens, token.position = position

/-- A refusal of the text is placed in the text. -/
def Failure.PlacedIn (text : String) (failure : Failure) : Prop :=
  ∀ error, failure = .refused error → error.PlacedIn text

section

variable {text : String}

theorem placedIn_refused {error : ExpressionError} (h : error.PlacedIn text) :
    (Failure.refused error).PlacedIn text := by
  rintro _ ⟨⟩
  exact h

theorem placedIn_lexical {error : LexicalError} (h : error.PointsInto 0 text.toList) :
    (ExpressionError.lexical error).PlacedIn text := by
  obtain ⟨offset, hposition, inside, fits⟩ := h
  rw [Nat.zero_add] at hposition
  subst hposition
  exact ⟨by rwa [← String.length_toList], fits⟩

/-- The tokens of a text begin in it. -/
theorem inside_of_atToken {error : ExpressionError}
    (h : Reading.AtToken (Lexer.scan 1 text).tokens error) :
    ∀ position ∈ error.position?, position < text.length ∧
      ∃ token ∈ (Lexer.scan 1 text).tokens, token.position = position := by
  intro position hposition
  obtain ⟨token, htoken, rfl⟩ := h position hposition
  have hlt := Lexer.position_lt_of_mem_scanFrom token htoken
  rw [Nat.zero_add, String.length_toList] at hlt
  exact ⟨hlt, token, htoken, rfl⟩

theorem scan_fault_placedIn : ∀ error ∈ (Lexer.scan 1 text).fault, error.PlacedIn text := by
  intro error herror
  obtain ⟨e, rfl, points⟩ := Lexer.scanFrom_pointsInto [] rfl (by simp) error herror
  exact placedIn_lexical points

theorem scanNested_fault_placedIn : ∀ error ∈ (scanNested text).fault, error.PlacedIn text := by
  intro error herror
  have hcheck :=
    Nesting.checkFrom_atToken (List.Subset.refl _) (List.forall_mem_nil _) error herror
  rcases hcheck with hfault | ⟨e, rfl, atToken⟩
  · exact scan_fault_placedIn error hfault
  · exact inside_of_atToken atToken

theorem failsOnly_comparable_placedIn (number : String) :
    FailsOnly (Failure.PlacedIn text) (comparable number) := by
  unfold comparable
  split
  · exact failsOnly_error nofun
  · split
    · exact failsOnly_error nofun
    · exact failsOnly_ok _

/-- Whatever a reader refuses at one of its tokens is placed in the text. -/
theorem permits_placedIn :
    Update.Permits (Failure.PlacedIn text) (scanNested text).fault (scanNested text).tokens := by
  have hscan : (scanNested text).tokens ⊆ (Lexer.scan 1 text).tokens :=
    Nesting.checkFrom_subset _ _ _ _
  have grammar (error : GrammarError) (h : Reading.AtToken (scanNested text).tokens error) :
      (Failure.refused (.grammar error)).PlacedIn text :=
    placedIn_refused (inside_of_atToken (h.subset hscan))
  refine ⟨⟨⟨grammar, fun error herror => placedIn_refused (scanNested_fault_placedIn error herror)⟩,
    fun error => placedIn_refused nofun, ?_, ?_⟩, ?_⟩
  · intro error h
    exact placedIn_refused (inside_of_atToken (h.subset hscan))
  · exact fun _ _ number _ => failsOnly_comparable_placedIn number
  · intro token htoken number _
    unfold Path.indexOf
    dsimp only
    split_ifs
    · exact failsOnly_error (grammar _ (Reading.atToken_of_mem htoken rfl))
    · exact failsOnly_error nofun
    · exact failsOnly_ok _

end

theorem GrammarError.position?_eq_none_iff (error : GrammarError) :
    error.position? = none ↔ error.message = "Unexpected end of input" := by
  cases error with
  | unexpectedEnd => exact ⟨fun _ => rfl, fun _ => rfl⟩
  | _ =>
    refine ⟨nofun, fun h => ?_⟩
    unfold message at h
    have hchars := congrArg String.toList h
    simp [quoted] at hchars

/-- An error is at a place of the text. A lexical error is at the character, the beginning of the
literal or the backslash that it is about, any other error at a token, and an error of grammar has
no place only if it is about the end of the text. -/
theorem errors_placedIn (text : String) :
    (∀ error, tokenize text = .error error → error.PlacedIn text) ∧
    (∀ inferring, FailsOnly (Failure.PlacedIn text) (Value.parseWith inferring text)) ∧
    FailsOnly (Failure.PlacedIn text) (Path.parse text) ∧
    FailsOnly (Failure.PlacedIn text) (Update.parseSet text) ∧
    FailsOnly (Failure.PlacedIn text) (Update.parseRemove text) ∧
    FailsOnly (Failure.PlacedIn text) (SortCondition.parse text) ∧
    ∀ error : GrammarError,
      error.position? = none ↔ error.message = "Unexpected end of input" := by
  have permits := @permits_placedIn text
  refine ⟨?_, permits.literals.failsOnly_parseWith, permits.paths.failsOnly_parse,
    permits.failsOnly_parseSet, Update.failsOnly_parseRemove_of_permits permits.paths,
    SortCondition.failsOnly_parse_of_allows permits.toAllows, GrammarError.position?_eq_none_iff⟩
  intro error h
  unfold tokenize Scan.result at h
  split at h
  · next fault hfault =>
    obtain rfl := Except.error.inj h
    exact scan_fault_placedIn fault hfault
  · contradiction

/-- The second half of a surrogate pair has too few digits, and its backslash is the place of the
error; and the same key stands twice in a map, whose brace is the place. -/
theorem errors_placedIn_pair :
    (tokenize "\"\\ud83d\\u00\"" = .error (LexicalError.unicodeEscape "00" 7) ∧
      (ExpressionError.lexical (.unicodeEscape "00" 7)).PlacedIn "\"\\ud83d\\u00\"") ∧
    Value.parseWith false "[\x7b'a': 1, 'a': 2\x7d]" =
        .error (.refused (SemanticError.duplicateKey "a" 1)) ∧
      (ExpressionError.semantic (.duplicateKey "a" 1)).PlacedIn "[\x7b'a': 1, 'a': 2\x7d]" := by
  have htokenize : tokenize "\"\\ud83d\\u00\"" = .error (LexicalError.unicodeEscape "00" 7) := by
    cbv
  have hparse : Value.parseWith false "[\x7b'a': 1, 'a': 2\x7d]" =
      .error (.refused (SemanticError.duplicateKey "a" 1)) := by cbv
  obtain ⟨lexical, -⟩ := errors_placedIn "\"\\ud83d\\u00\""
  obtain ⟨-, value, -⟩ := errors_placedIn "[\x7b'a': 1, 'a': 2\x7d]"
  exact ⟨⟨htokenize, lexical _ htokenize⟩, hparse, value false _ hparse _ rfl⟩

end AttributeExpr
