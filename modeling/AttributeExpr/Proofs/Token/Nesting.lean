import AttributeExpr.Proofs.Token.Spelling
import AttributeExpr.Token.Nesting
/-!
Well-nested sequences of symbols. The check of delimiters lets a well-nested stretch of tokens pass
as it is, with the same delimiters open behind it as before it.
-/
namespace AttributeExpr.Nesting

def IsBracket (symbol : Symbol) : Prop :=
  ∃ bracket, symbol = .mark (.opening bracket) ∨ symbol = .mark (.closing bracket)

inductive WellNested : List Symbol → Prop where
  | nil : WellNested []
  | plain {symbol : Symbol} {symbols : List Symbol} (h : ¬ IsBracket symbol)
      (rest : WellNested symbols) : WellNested (symbol :: symbols)
  | enclosed {bracket : Bracket} {inside symbols : List Symbol} (inner : WellNested inside)
      (rest : WellNested symbols) :
      WellNested (.mark (.opening bracket) :: (inside ++ .mark (.closing bracket) :: symbols))

theorem WellNested.append {first second : List Symbol} (h : WellNested first)
    (h' : WellNested second) : WellNested (first ++ second) := by
  induction h with
  | nil => exact h'
  | plain h _ ih => exact .plain h ih
  | enclosed inner _ _ ih =>
    simp only [List.cons_append, List.append_assoc]
    exact .enclosed inner ih

theorem WellNested.single {symbol : Symbol} (h : ¬ IsBracket symbol) : WellNested [symbol] :=
  .plain h .nil

/-- Symbols that are no delimiters are well nested. -/
theorem wellNested_plain {symbols : List Symbol} (h : ∀ symbol ∈ symbols, ¬ IsBracket symbol) :
    WellNested symbols := by
  induction symbols with
  | nil => exact .nil
  | cons symbol symbols ih =>
    obtain ⟨hsymbol, hsymbols⟩ := List.forall_mem_cons.mp h
    exact .plain hsymbol (ih hsymbols)

theorem WellNested.intercalate {separator : Symbol} {parts : List (List Symbol)}
    (hs : ¬ IsBracket separator) (h : ∀ part ∈ parts, WellNested part) :
    WellNested ([separator].intercalate parts) := by
  induction parts with
  | nil => exact .nil
  | cons part parts ih =>
    obtain ⟨hpart, hparts⟩ := List.forall_mem_cons.mp h
    cases parts with
    | nil => simpa using hpart
    | cons next parts =>
      rw [List.intercalate_cons_cons, List.append_assoc]
      exact hpart.append (.plain hs (ih hparts))

/-- Well-nested symbols, each comma of which stands between delimiters. -/
inductive CommasInside : List Symbol → Prop where
  | nil : CommasInside []
  | plain {symbol : Symbol} {symbols : List Symbol} (h : ¬ IsBracket symbol)
      (comma : symbol ≠ .mark .comma) (rest : CommasInside symbols) :
      CommasInside (symbol :: symbols)
  | enclosed {bracket : Bracket} {inside symbols : List Symbol} (inner : WellNested inside)
      (rest : CommasInside symbols) :
      CommasInside (.mark (.opening bracket) :: (inside ++ .mark (.closing bracket) :: symbols))

theorem CommasInside.append {first second : List Symbol} (h : CommasInside first)
    (h' : CommasInside second) : CommasInside (first ++ second) := by
  induction h with
  | nil => exact h'
  | plain h comma _ ih => exact .plain h comma ih
  | enclosed inner _ ih =>
    simp only [List.cons_append, List.append_assoc]
    exact .enclosed inner ih

theorem CommasInside.wellNested {symbols : List Symbol} (h : CommasInside symbols) :
    WellNested symbols := by
  induction h with
  | nil => exact .nil
  | plain h _ _ ih => exact .plain h ih
  | enclosed inner _ ih => exact .enclosed inner ih

theorem CommasInside.enclose {symbols : List Symbol} (bracket : Bracket) (h : WellNested symbols) :
    CommasInside (.mark (.opening bracket) :: (symbols ++ [.mark (.closing bracket)])) :=
  .enclosed h .nil

/-- The scan with several tokens in front. -/
def prepend (tokens : List Token) (scan : Scan) : Scan :=
  { scan with tokens := tokens ++ scan.tokens }

theorem checkFrom_plain {token : Token} (h : ¬ IsBracket token.symbol)
    (fault : Option ExpressionError) (line : Nat) (opened : List Opening) (rest : List Token) :
    checkFrom fault line opened (token :: rest) =
      (checkFrom fault line opened rest).push token := by
  rw [checkFrom.eq_def]
  dsimp only
  split
  · next hb => exact absurd ⟨_, .inl hb⟩ h
  · next hb => exact absurd ⟨_, .inr hb⟩ h
  · next hb => exact absurd ⟨_, .inr hb⟩ h
  · rfl

theorem checkFrom_opening {token : Token} {bracket : Bracket}
    (h : token.symbol = .mark (.opening bracket)) (fault : Option ExpressionError) (line : Nat)
    (opened : List Opening) (rest : List Token) :
    checkFrom fault line opened (token :: rest) =
      (checkFrom fault line (⟨bracket, token.position⟩ :: opened) rest).push token := by
  rw [checkFrom.eq_def]
  simp only [h]

theorem checkFrom_closing {token : Token} {bracket : Bracket}
    (h : token.symbol = .mark (.closing bracket)) (fault : Option ExpressionError) (line : Nat)
    {innermost : Opening} (hi : innermost.bracket = bracket) (outer : List Opening)
    (rest : List Token) :
    checkFrom fault line (innermost :: outer) (token :: rest) =
      (checkFrom fault line outer rest).push token := by
  rw [checkFrom.eq_def]
  simp only [h, hi, ↓reduceIte]

/-- A well-nested stretch passes the check, and leaves the open delimiters as they were. -/
theorem checkFrom_append {symbols : List Symbol} (h : WellNested symbols)
    (fault : Option ExpressionError) (line : Nat) {tokens : List Token}
    (ht : tokens.map (·.symbol) = symbols) (opened : List Opening) (rest : List Token) :
    checkFrom fault line opened (tokens ++ rest) =
      prepend tokens (checkFrom fault line opened rest) := by
  induction h generalizing tokens opened rest with
  | nil =>
    obtain rfl := List.map_eq_nil_iff.mp ht
    rfl
  | plain h _ ih =>
    obtain ⟨token, tail, rfl, rfl, htail⟩ := List.map_eq_cons_iff.mp ht
    rw [List.cons_append, checkFrom_plain h, ih htail]
    rfl
  | enclosed _ _ ihInner ihRest =>
    obtain ⟨token, tail, rfl, hopen, htail⟩ := List.map_eq_cons_iff.mp ht
    obtain ⟨inner, outer, rfl, hinner, houter⟩ := List.map_eq_append_iff.mp htail
    obtain ⟨last, behind, rfl, hclose, hbehind⟩ := List.map_eq_cons_iff.mp houter
    rw [List.cons_append, checkFrom_opening hopen, List.append_assoc, ihInner hinner,
      List.cons_append, checkFrom_closing hclose fault line rfl, ihRest hbehind]
    simp [prepend, Scan.push]

theorem check_of_wellNested {scan : Scan} (h : WellNested (scan.tokens.map (·.symbol))) :
    check scan = scan := by
  have hc := checkFrom_append h scan.fault scan.line rfl [] []
  rw [List.append_nil] at hc
  rw [check, hc]
  cases hf : scan.fault <;> simp [prepend, checkFrom, atEnd, ← hf]

/-- A check that finds no fault has changed nothing. -/
theorem checkFrom_eq_of_fault {fault : Option ExpressionError} {line : Nat} {opened : List Opening}
    {tokens : List Token} (h : (checkFrom fault line opened tokens).fault = none) :
    checkFrom fault line opened tokens = ⟨tokens, none, line⟩ ∧ fault = none := by
  induction tokens generalizing opened with
  | nil =>
    rw [checkFrom] at h ⊢
    cases fault with
    | none =>
      have hend : atEnd none opened = none := h
      exact ⟨by rw [hend], rfl⟩
    | some error => simp [atEnd] at h
  | cons token tokens ih =>
    have hpushed {opened : List Opening}
        (h : ((checkFrom fault line opened tokens).push token).fault = none) :
        (checkFrom fault line opened tokens).push token = ⟨token :: tokens, none, line⟩ ∧
          fault = none := by
      obtain ⟨hscan, hfault⟩ := ih h
      exact ⟨by rw [hscan]; rfl, hfault⟩
    rw [checkFrom.eq_def] at h ⊢
    dsimp only at h ⊢
    split at h
    · exact hpushed h
    · split_ifs at h ⊢
      · exact hpushed h
      · simp [checkFrom.stray] at h
    · simp [checkFrom.stray] at h
    · exact hpushed h

theorem check_eq_of_fault {scan : Scan} (h : (check scan).fault = none) : check scan = scan := by
  obtain ⟨hscan, hfault⟩ := checkFrom_eq_of_fault h
  rw [check, hscan, ← hfault]

end AttributeExpr.Nesting

namespace AttributeExpr

theorem tokenize_eq_ok_iff {text : String} {tokens : List Token} :
    tokenize text = .ok tokens ↔ ∃ line, Lexer.scan 1 text = ⟨tokens, none, line⟩ := by
  unfold tokenize Scan.result
  cases Lexer.scan 1 text with
  | mk scanned fault line => cases fault <;> simp

/-- A text whose delimiters are accepted is cut into the same tokens without the check. -/
theorem tokenize_of_scanNested {text : String} (h : (scanNested text).fault = none) :
    tokenize text = .ok (scanNested text).tokens := by
  rw [tokenize_eq_ok_iff]
  have hscan : scanNested text = Lexer.scan 1 text := Nesting.check_eq_of_fault h
  exact ⟨(scanNested text).line, by rw [← h, ← hscan]⟩

/-- Well-nested tokens pass the check. -/
theorem scanNested_of_tokenize {text : String} {tokens : List Token}
    (h : tokenize text = .ok tokens) (nested : Nesting.WellNested (tokens.map (·.symbol))) :
    ∃ line, scanNested text = ⟨tokens, none, line⟩ := by
  obtain ⟨line, hscan⟩ := tokenize_eq_ok_iff.mp h
  refine ⟨line, ?_⟩
  rw [scanNested, hscan]
  exact Nesting.check_of_wellNested nested

/-- The checked scan of a text that spells well-nested symbols. -/
theorem scanNested_of_spells {text : String} {symbols : List Symbol}
    (h : Lexer.Spells false text.toList symbols) (nested : Nesting.WellNested symbols) :
    ∃ tokens line, scanNested text = ⟨tokens, none, line⟩ ∧ tokens.map (·.symbol) = symbols := by
  obtain ⟨tokens, line, hscan, hsymbols⟩ := Lexer.scanFrom_of_spells h 0 1 none rfl
  refine ⟨tokens, line, ?_, hsymbols⟩
  rw [scanNested, Lexer.scan, hscan]
  exact Nesting.check_of_wellNested (by rwa [hsymbols])

end AttributeExpr
