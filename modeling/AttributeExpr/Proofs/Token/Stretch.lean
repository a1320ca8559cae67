import AttributeExpr.Proofs.Token.Context
import AttributeExpr.Proofs.Token.Scan
import AttributeExpr.Proofs.Token.Sign
import Mathlib
/-!
The stretches of a text that its tokens take up. They follow one another, nothing but separators
lies outside them, and each is cut into the same token where it stands alone.
-/
namespace AttributeExpr

namespace Lexeme

theorem quoted?_alone {text after : List Char} {lexeme : Lexeme}
    (h : quoted? text = some (lexeme, after)) :
    ∃ front, text = front ++ after ∧ quoted? front = some (lexeme, []) := by
  unfold quoted? at h
  split at h
  case h_8 => cases h
  all_goals
    obtain ⟨⟨body, after'⟩, hbody, heq⟩ := Option.map_eq_some_iff.mp h
    obtain ⟨rfl, rfl⟩ : _ ∧ after' = after := Prod.mk.inj heq
  case h_1 | h_2 =>
    obtain ⟨front, rfl, hfront⟩ := plainBody?_alone hbody
    exact ⟨'b' :: '6' :: '4' :: _ :: front, rfl, by simp [quoted?, hfront]⟩
  case h_3 =>
    obtain ⟨front, rfl, hfront⟩ := escapedBody?_alone (by decide) hbody
    exact ⟨'b' :: '\x22' :: front, rfl, by simp [quoted?, hfront]⟩
  case h_4 =>
    obtain ⟨front, rfl, hfront⟩ := escapedBody?_alone (by decide) hbody
    refine ⟨'b' :: '\x27' :: front, rfl, ?_⟩
    show (escapedBody? '\x27' (· ≠ '\n') front).map _ = _
    rw [hfront]
    rfl
  case h_5 | h_6 =>
    obtain ⟨front, rfl, hfront⟩ := escapedBody?_alone (by decide) hbody
    exact ⟨_ :: front, rfl, by simp [quoted?, hfront]⟩
  case h_7 =>
    obtain ⟨front, rfl, hfront⟩ := quotedName?_alone hbody
    exact ⟨'\x60' :: front, rfl, by simp [quoted?, hfront]⟩

/-- A sign behind an operand is a mark, and is one where it stands alone. -/
theorem number?_alone {operand : Bool} {text after : List Char} {lexeme : Lexeme}
    (h : number? operand text = some (lexeme, after)) :
    ∃ front, text = front ++ after ∧ split? false front = some (lexeme, []) := by
  have whole {numeral : List Char} (unsigned : Numeral.Unsigned numeral) :
      Numeral.split? numeral = some (numeral, []) := by
    simpa using Numeral.split?_append unsigned (stops_nil _)
  unfold number? at h
  split at h
  · obtain ⟨⟨numeral, after'⟩, hsplit, heq⟩ := Option.map_eq_some_iff.mp h
    obtain ⟨rfl, unsigned⟩ := Numeral.split?_sound hsplit
    cases operand with
    | true =>
      obtain ⟨rfl, rfl⟩ := Prod.mk.inj heq
      exact ⟨['+'], rfl, rfl⟩
    | false =>
      obtain ⟨rfl, rfl⟩ := Prod.mk.inj heq
      refine ⟨'+' :: numeral, rfl, ?_⟩
      have hsign := Lexer.split?_sign false false numeral
      rwa [whole unsigned] at hsign
  · obtain ⟨⟨numeral, after'⟩, hsplit, heq⟩ := Option.map_eq_some_iff.mp h
    obtain ⟨rfl, unsigned⟩ := Numeral.split?_sound hsplit
    cases operand with
    | true =>
      obtain ⟨rfl, rfl⟩ := Prod.mk.inj heq
      exact ⟨['-'], rfl, rfl⟩
    | false =>
      obtain ⟨rfl, rfl⟩ := Prod.mk.inj heq
      refine ⟨'-' :: numeral, rfl, ?_⟩
      have hsign := Lexer.split?_sign false true numeral
      rwa [whole unsigned] at hsign
  · obtain ⟨⟨numeral, after'⟩, hsplit, heq⟩ := Option.map_eq_some_iff.mp h
    obtain ⟨rfl, unsigned⟩ := Numeral.split?_sound hsplit
    obtain ⟨rfl, rfl⟩ := Prod.mk.inj heq
    refine ⟨numeral, rfl, ?_⟩
    simpa using Lexer.split?_unsigned unsigned (stops_nil _) false

theorem word?_alone {text after : List Char} {lexeme : Lexeme}
    (h : word? text = some (lexeme, after)) :
    ∃ front, text = front ++ after ∧ split? false front = some (lexeme, []) := by
  unfold word? at h
  split_ifs at h with hstart
  obtain ⟨rfl, rfl⟩ := Prod.mk.inj (Option.some.inj h)
  refine ⟨text.takeWhile isWordChar, List.takeWhile_append_dropWhile.symm, ?_⟩
  cases text with
  | nil => contradiction
  | cons c rest =>
    have hc : isWordChar c = true := by simpa [isWordChar] using .inl hstart
    have hword : ∀ d ∈ (c :: rest).takeWhile isWordChar, isWordChar d = true :=
      fun d => of_mem_takeWhile
    rw [List.takeWhile_cons, if_pos hc] at hword ⊢
    simpa using Lexer.split?_word hstart hword (stops_nil _) false

theorem mark?_alone {text after : List Char} {lexeme : Lexeme}
    (h : mark? text = some (lexeme, after)) :
    ∃ front, text = front ++ after ∧ split? false front = some (lexeme, []) := by
  obtain ⟨⟨mark, after'⟩, hmark, heq⟩ := Option.map_eq_some_iff.mp h
  obtain ⟨rfl, rfl⟩ := Prod.mk.inj heq
  refine ⟨mark.text.toList, Mark.split?_sound hmark, ?_⟩
  rcases mark with (bracket | bracket | _ | _ | _ | _ | _ | _ | _ | _ | _ | _ | _ | _ | _)
  case opening => cases bracket <;> rfl
  case closing => cases bracket <;> rfl
  all_goals rfl

/-- What a lexeme takes of a text is that lexeme, too, where nothing stands around it. -/
theorem split?_alone {operand : Bool} {text after : List Char} {lexeme : Lexeme}
    (h : split? operand text = some (lexeme, after)) :
    ∃ front, text = front ++ after ∧ split? false front = some (lexeme, []) := by
  simp only [split?, Option.or_eq_some_iff] at h
  rcases h with hquoted | ⟨-, hnumber | ⟨-, hword | ⟨-, hmark⟩⟩⟩
  · obtain ⟨front, heq, hfront⟩ := quoted?_alone hquoted
    exact ⟨front, heq, Lexer.split?_quoted hfront⟩
  · exact number?_alone hnumber
  · exact word?_alone hword
  · exact mark?_alone hmark

end Lexeme

/-- A token and the offset behind its last character. -/
structure Stretch where
  token : Token
  stop : Nat

namespace Stretch

/-- The characters of a text that belong to the token. -/
def slice (text : List Char) (stretch : Stretch) : String :=
  String.ofList (text.extract stretch.token.position stretch.stop)

def Contains (stretch : Stretch) (offset : Nat) : Prop :=
  stretch.token.position ≤ offset ∧ offset < stretch.stop

end Stretch

/-- From the offset `start` on, a text is divided into the stretches of tokens and separators. -/
structure Divided (text : List Char) (start : Nat) (stretches : List Stretch) : Prop where
  begins : ∀ stretch ∈ stretches, start ≤ stretch.token.position
  nonempty : ∀ stretch ∈ stretches, stretch.token.position < stretch.stop
  ordered : stretches.Pairwise fun first next => first.stop ≤ next.token.position
  inside : ∀ stretch ∈ stretches, stretch.stop ≤ text.length
  separated : ∀ offset c, text[offset]? = some c → start ≤ offset →
    (∀ stretch ∈ stretches, ¬ stretch.Contains offset) → Lexer.isSeparator c = true
  alone : ∀ stretch ∈ stretches,
    tokenize (stretch.slice text) = .ok [⟨stretch.token.symbol, 0, 1⟩]

namespace Divided

theorem nil (text : List Char) : Divided text text.length [] where
  begins := List.forall_mem_nil _
  nonempty := List.forall_mem_nil _
  ordered := .nil
  inside := List.forall_mem_nil _
  separated offset c hc hstart _ := by
    obtain ⟨hlt, -⟩ := List.getElem?_eq_some_iff.mp hc
    omega
  alone := List.forall_mem_nil _

theorem separator {text : List Char} {start : Nat} {stretches : List Stretch} {c : Char}
    (hat : text[start]? = some c) (hc : Lexer.isSeparator c = true)
    (further : Divided text (start + 1) stretches) : Divided text start stretches where
  begins stretch h := Nat.le_of_succ_le (further.begins stretch h)
  nonempty := further.nonempty
  ordered := further.ordered
  inside := further.inside
  separated offset d hd hstart hout := by
    rcases Nat.eq_or_lt_of_le hstart with rfl | hlt
    · obtain rfl := Option.some.inj (hat.symm.trans hd)
      exact hc
    · exact further.separated offset d hd hlt hout
  alone := further.alone

theorem token {text : List Char} {stretch : Stretch} {stretches : List Stretch}
    (nonempty : stretch.token.position < stretch.stop) (inside : stretch.stop ≤ text.length)
    (alone : tokenize (stretch.slice text) = .ok [⟨stretch.token.symbol, 0, 1⟩])
    (further : Divided text stretch.stop stretches) :
    Divided text stretch.token.position (stretch :: stretches) where
  begins := by
    refine List.forall_mem_cons.mpr ⟨le_rfl, fun next h => ?_⟩
    exact nonempty.le.trans (further.begins next h)
  nonempty := List.forall_mem_cons.mpr ⟨nonempty, further.nonempty⟩
  ordered := .cons further.begins further.ordered
  inside := List.forall_mem_cons.mpr ⟨inside, further.inside⟩
  separated offset c hc hstart hout := by
    obtain ⟨hfirst, hrest⟩ := List.forall_mem_cons.mp hout
    have hstop : stretch.stop ≤ offset := by
      by_contra hlt
      exact hfirst ⟨hstart, Nat.lt_of_not_le hlt⟩
    exact further.separated offset c hc hstop hrest
  alone := List.forall_mem_cons.mpr ⟨alone, further.alone⟩

end Divided

namespace Lexer

/-- A text that is one lexeme is one token. -/
theorem tokenize_of_split? {text : List Char} {lexeme : Lexeme} {symbol : Symbol}
    (h : Lexeme.split? false text = some (lexeme, [])) (hsymbol : lexeme.symbol 0 = .ok symbol) :
    tokenize (String.ofList text) = .ok [⟨symbol, 0, 1⟩] := by
  cases text with
  | nil => cases h
  | cons c rest =>
    have hc : isSeparator c = false := by
      by_contra hc
      rw [split?_separator (Bool.eq_true_of_not_eq_false hc)] at h
      contradiction
    have hnone : (none : Option Token).any (·.symbol.endsOperand) = false := rfl
    rw [tokenize, scan, String.toList_ofList, scanFrom_cons hc, hnone, h]
    dsimp only
    rw [hsymbol]
    dsimp only
    rw [scanFrom]
    rfl

/-- A scan that finds no fault divides the text from the place where it begins. -/
theorem exists_divided_of_scanFrom {position line : Nat} {previous : Option Token}
    {rest : List Char} (h : (scanFrom position line previous rest).fault = none) :
    ∀ before : List Char, before.length = position →
      ∃ stretches : List Stretch,
        stretches.map Stretch.token = (scanFrom position line previous rest).tokens ∧
          Divided (before ++ rest) position stretches := by
  fun_induction scanFrom position line previous rest with
  | case1 =>
    rintro before rfl
    exact ⟨[], rfl, by simpa using Divided.nil before⟩
  | case2 position line previous c rest hc ih =>
    rintro before rfl
    obtain ⟨stretches, htokens, divided⟩ := ih h (before ++ [c]) (by simp)
    rw [List.append_assoc] at divided
    exact ⟨stretches, htokens, .separator (by simp) hc divided⟩
  | case3 => cases h
  | case4 => cases h
  | case5 position line previous c rest _ lexeme after hsplit _ _ symbol hsymbol _ ih =>
    rintro before rfl
    obtain ⟨front, htext, hfront⟩ := Lexeme.split?_alone hsplit
    have hlength : (c :: rest).length - after.length = front.length := by
      rw [htext, List.length_append, Nat.add_sub_cancel]
    have hpositive : 0 < front.length := by
      have := Lexeme.split?_length hsplit
      omega
    rw [hlength] at h ih ⊢
    obtain ⟨stretches, htokens, divided⟩ := ih h (before ++ front) List.length_append
    let stretch : Stretch := ⟨⟨symbol, before.length, line⟩, before.length + front.length⟩
    have hslice : stretch.slice (before ++ c :: rest) = String.ofList front := by
      simp [Stretch.slice, stretch, htext]
    refine ⟨stretch :: stretches, congrArg (_ :: ·) htokens, ?_⟩
    show Divided (before ++ c :: rest) stretch.token.position (stretch :: stretches)
    apply Divided.token
    · exact Nat.lt_add_of_pos_right hpositive
    · simp [stretch, htext]
    · rw [hslice]
      exact tokenize_of_split? hfront (Lexeme.symbol_position hsymbol 0)
    · rwa [htext, ← List.append_assoc]

/-! Signs of numbers. -/

@[simp] theorem endsOperand_concat (operand : Bool) (symbols : List Symbol) (symbol : Symbol) :
    endsOperand operand (symbols ++ [symbol]) = symbol.endsOperand := by
  simp [endsOperand]

/-- What the first character of a number says about the place in front of it. -/
def SignFits (operand : Bool) (numeral : String) : Prop :=
  numeral.toList.head? ≠ some '+' ∧ (numeral.toList.head? = some '-' → operand = false)

theorem signFits_of_split? {operand : Bool} {text after : List Char} {numeral : String}
    (h : Lexeme.split? operand text = some (.number numeral.toList, after)) :
    SignFits operand numeral := by
  have unsigned {digits : List Char} (h : Numeral.Unsigned digits) (c : Char)
      (hc : Numeral.isDigit c = false) : digits.head? ≠ some c := by
    obtain ⟨d, rest, rfl, hd⟩ := head_of_unsigned h
    rintro ⟨⟩
    rw [hd] at hc
    contradiction
  have hcut := Lexeme.cut_of_split? h
  unfold SignFits
  generalize numeral.toList = digits at hcut
  cases hcut with
  | number hdigits =>
    exact ⟨unsigned hdigits '+' rfl, fun hminus => absurd hminus (unsigned hdigits '-' rfl)⟩
  | plus hdigits free => exact ⟨unsigned hdigits '+' rfl, fun _ => free⟩
  | minus _ free => exact ⟨by simp, fun _ => free⟩

theorem Spells.signFits {operand : Bool} {text : List Char} {symbols : List Symbol}
    (h : Spells operand text symbols) {before after : List Symbol} {numeral : String}
    (heq : symbols = before ++ .number numeral :: after) :
    SignFits (endsOperand operand before) numeral := by
  induction h generalizing before with
  | nil => simp at heq
  | separator _ _ ih => exact ih heq
  | @lexeme operand text rest lexeme symbol symbols split reads _ ih =>
    cases before with
    | nil =>
      obtain ⟨rfl, -⟩ := List.cons.inj heq
      rw [Lexeme.symbol_eq_number (reads 0)] at split
      exact signFits_of_split? split
    | cons first before =>
      obtain ⟨rfl, htail⟩ := List.cons.inj heq
      exact ih htail

end Lexer

/-- The tokens of a text divide it without gap or overlap, and a number has no plus sign, and a
minus sign only where no operand ends before it. -/
theorem divided_of_tokenize {text : String} {tokens : List Token}
    (h : tokenize text = .ok tokens) :
    (∃ stretches : List Stretch, stretches.map Stretch.token = tokens ∧
      Divided text.toList 0 stretches) ∧
    ∀ before token after numeral, tokens = before ++ token :: after →
      token.symbol = .number numeral →
      numeral.toList.head? ≠ some '+' ∧
        (numeral.toList.head? = some '-' →
          ∀ previous ∈ before.getLast?, previous.symbol.endsOperand = false) := by
  constructor
  · have hdivided := @Lexer.exists_divided_of_scanFrom 0 1 none text.toList
    unfold tokenize Scan.result Lexer.scan at h
    split at h
    · cases h
    · next hfault =>
      obtain rfl := Except.ok.inj h
      exact hdivided hfault [] rfl
  · rintro before token after numeral rfl hnumber
    have hspells := Lexer.spells_of_tokenize h
    rw [List.map_append, List.map_cons, hnumber] at hspells
    obtain ⟨hplus, hminus⟩ := hspells.signFits rfl
    refine ⟨hplus, fun hhead previous hprevious => ?_⟩
    obtain ⟨front, rfl⟩ := List.getLast?_eq_some_iff.mp hprevious
    simpa using hminus hhead

set_option maxRecDepth 4000 in
/-- A sign behind an operand, two signed numbers elsewhere, and a literal without a blank in front
of it. -/
theorem divided_of_tokenize_signs :
    ∃ tokens, tokenize "a -1, +2.,-3b\"x\"" = .ok tokens ∧
      tokens.map (·.symbol) = [.name "a", .mark .minus, .number "1", .mark .comma, .number "2.",
        .mark .comma, .number "-3", .binary [120]] ∧
      ∃ stretches : List Stretch, stretches.map Stretch.token = tokens ∧
        Divided "a -1, +2.,-3b\"x\"".toList 0 stretches := by
  have htokens : tokenize "a -1, +2.,-3b\"x\"" = .ok [⟨.name "a", 0, 1⟩, ⟨.mark .minus, 2, 1⟩,
      ⟨.number "1", 3, 1⟩, ⟨.mark .comma, 4, 1⟩, ⟨.number "2.", 6, 1⟩, ⟨.mark .comma, 9, 1⟩,
      ⟨.number "-3", 10, 1⟩, ⟨.binary [120], 12, 1⟩] := by cbv
  exact ⟨_, htokens, rfl, (divided_of_tokenize htokens).1⟩

end AttributeExpr
