import AttributeExpr.Proofs.Update.Grammar
import AttributeExpr.Update.Parser
/-!
Reading updates. The readers accept whatever the grammar derives, wherever the next token is one
that does not continue it: what may stand behind an operand or a formula never does.
-/
namespace AttributeExpr.Update

/-- The surroundings of formulas in a text without fault. -/
def surroundings : Surroundings := ⟨none, mayFollowLiteral, mayFollowIndex⟩

/-- The next token, if there is one, is of a certain kind. -/
def Before (p : Symbol → Bool) (rest : List Token) : Prop :=
  ∀ token ∈ rest.head?, p token.symbol = true

theorem Before.mono {p q : Symbol → Bool} {rest : List Token} (h : Before p rest)
    (hpq : ∀ symbol, p symbol = true → q symbol = true) : Before q rest :=
  fun token ht => hpq _ (h token ht)

theorem Before.lookAhead {p : Symbol → Bool} {rest : List Token} (h : Before p rest) :
    Reading.lookAhead none p rest = .ok () := by
  cases rest with
  | nil => rfl
  | cons token rest => simp [Reading.lookAhead, h token rfl]

theorem before_cons {p : Symbol → Bool} {token : Token} (h : p token.symbol = true)
    (rest : List Token) : Before p (token :: rest) := by
  intro first hfirst
  obtain rfl : token = first := by simpa using hfirst
  exact h

theorem mayFollowCall_cases {symbol : Symbol} (h : mayFollowCall symbol = true) :
    symbol = .mark .plus ∨ symbol = .mark .minus ∨ symbol = .mark .comma ∨
      symbol = .mark (.closing .paren) := by
  unfold mayFollowCall at h
  split at h
  · simp
  · simp
  · unfold mayFollowFormula at h
    split at h <;> simp at h ⊢

variable {rest : List Token}

theorem admits_of_before (h : Before mayFollowCall rest) : Value.Admits surroundings rest := by
  have hliteral : Before mayFollowLiteral rest := by
    apply h.mono
    intro symbol hs
    rcases mayFollowCall_cases hs with rfl | rfl | rfl | rfl <;> rfl
  exact hliteral.lookAhead

theorem ends_of_before (h : Before mayFollowCall rest) : Path.Ends surroundings rest := by
  have hindex : Before mayFollowIndex rest := by
    apply h.mono
    intro symbol hs
    rcases mayFollowCall_cases hs with rfl | rfl | rfl | rfl <;> rfl
  refine ⟨hindex.lookAhead, ?_⟩
  intro token ht
  rcases mayFollowCall_cases (h token ht) with heq | heq | heq | heq <;> simp [heq]

theorem nests : Value.Nests surroundings := by
  intro symbol h
  unfold Value.mayFollowLiteral at h
  split at h <;> simp [surroundings, mayFollowLiteral, Value.mayFollowLiteral] at h ⊢

theorem continues : Path.Continues surroundings := by
  intro symbol h
  unfold Path.mayFollowIndex at h
  split at h <;> simp [surroundings, mayFollowIndex, Path.mayFollowIndex] at h ⊢

theorem mayFollowCall_of_formula {symbol : Symbol} (h : mayFollowFormula symbol = true) :
    mayFollowCall symbol = true := by
  unfold mayFollowFormula at h
  split at h <;> simp [mayFollowCall, mayFollowFormula] at h ⊢

/-- No literal begins with a name. -/
theorem nameText?_of_value {symbols : List Symbol} {value : Value}
    (h : Value.Derives symbols value) :
    ∃ first rest, symbols = first :: rest ∧ Path.nameText? first = none := by
  cases h with
  | @scalar symbol _ h =>
    refine ⟨symbol, [], rfl, ?_⟩
    unfold Value.ofSymbol? at h
    split at h <;> simp [Path.nameText?] at h ⊢
  | list => exact ⟨_, _, rfl, rfl⟩
  | map => exact ⟨_, _, rfl, rfl⟩
  | set => exact ⟨_, _, rfl, rfl⟩

section

variable {tokens : List Token} {fuel : Nat}

theorem readOperand_literal {s : Surroundings} {value : Value}
    (hn : ∃ first behind, tokens = first :: behind ∧ Path.nameText? first.symbol = none)
    (h : Value.read s tokens = .ok (value, rest)) :
    readOperand s fuel tokens = .ok (.literal value, rest) := by
  obtain ⟨first, behind, rfl, hnone⟩ := hn
  rw [readOperand.eq_def]
  split
  · next heq =>
    obtain ⟨rfl, -⟩ := List.cons.inj heq
    contradiction
  · next token tail _ heq =>
    obtain ⟨rfl, rfl⟩ := List.cons.inj heq
    rw [hnone, h]
    rfl
  · next heq => contradiction

theorem readOperand_path {s : Surroundings} {first : Token} {behind : List Token} {path : Path}
    {name : String} (hname : Path.nameText? first.symbol = some name)
    (hparen : ∀ token ∈ behind.head?, token.symbol ≠ .mark (.opening .paren))
    (h : Path.read s (first :: behind) = .ok (path, rest)) :
    readOperand s fuel (first :: behind) = .ok (.path path, rest) := by
  rw [readOperand.eq_def]
  split
  · next heq =>
    obtain ⟨rfl, rfl⟩ := List.cons.inj heq
    exact absurd rfl (hparen _ rfl)
  · next token tail _ heq =>
    obtain ⟨rfl, rfl⟩ := List.cons.inj heq
    rw [hname, h]
    rfl
  · next heq => contradiction

/-- A call is read if its arguments are, and may stand before what follows it. -/
theorem readOperand_call {s : Surroundings} {name paren comma close : Token} {function : String}
    {first second : List Token} {left right formula : Formula}
    (hname : name.symbol = .name function) (hparen : paren.symbol = .mark (.opening .paren))
    (hleft : readFormula s fuel (first ++ comma :: (second ++ close :: rest)) =
      .ok (left, comma :: (second ++ close :: rest)))
    (hcomma : comma.symbol = .mark .comma)
    (hright : readFormula s fuel (second ++ close :: rest) = .ok (right, close :: rest))
    (hclose : close.symbol = .mark (.closing .paren))
    (hrest : Reading.lookAhead s.fault mayFollowCall rest = .ok ())
    (hcall : callOf function name.position left right = .ok formula) :
    readOperand s (fuel + 1) (name :: paren :: (first ++ comma :: (second ++ close :: rest))) =
      .ok (formula, rest) := by
  obtain ⟨symbol, position, line⟩ := name
  obtain ⟨symbol', position', line'⟩ := paren
  cases hname
  cases hparen
  simp [readOperand, hleft, hright, hcall, hrest, hcomma, hclose, Reading.expect, bind,
    Except.bind, pure, Except.pure]

theorem readFormula_operand {s : Surroundings} {formula : Formula}
    (hrest : Before mayFollowFormula rest)
    (h : readOperand s fuel tokens = .ok (formula, rest)) :
    readFormula s (fuel + 1) tokens = .ok (formula, rest) := by
  rw [readFormula, h]
  cases rest with
  | nil => rfl
  | cons token rest =>
    have hno : arithmeticOp? token.symbol = none := by
      have hsymbol := hrest token rfl
      unfold mayFollowFormula at hsymbol
      split at hsymbol
      · next heq => simp [heq, arithmeticOp?]
      · next heq => simp [heq, arithmeticOp?]
      · contradiction
    simp [hno]

theorem readFormula_arithmetic {s : Surroundings} {op : ArithmeticOp} {sign : Token}
    {behind : List Token} {left right : Formula} (hsign : sign.symbol = .mark (opMark op))
    (hleft : readOperand s fuel tokens = .ok (left, sign :: behind))
    (hright : readOperand s fuel behind = .ok (right, rest))
    (hrest : Reading.lookAhead s.fault mayFollowFormula rest = .ok ()) (addend : IsAddend left)
    (addend' : IsAddend right) :
    readFormula s (fuel + 1) tokens = .ok (.arithmetic op left right, rest) := by
  have hop : arithmeticOp? sign.symbol = some op := by rw [hsign]; cases op <;> rfl
  have hcheck (formula : Formula) (h : IsAddend formula) : checkOperand op formula = .ok () := by
    cases formula with
    | literal value => simp [checkOperand, h value rfl]
    | _ => rfl
  simp [readFormula, hleft, hop, hright, hrest, arithmeticOf, hcheck left addend,
    hcheck right addend', bind, Except.bind, pure, Except.pure]

/-- The tokens of a call. -/
theorem tokens_call {name : String} {first second : List Symbol}
    (h : tokens.map (·.symbol) = callSymbols name first second) :
    ∃ function paren left comma right close,
      tokens = function :: paren :: (left ++ comma :: (right ++ [close])) ∧
      function.symbol = .name name ∧ paren.symbol = .mark (.opening .paren) ∧
      left.map (·.symbol) = first ∧ comma.symbol = .mark .comma ∧
      right.map (·.symbol) = second ∧ close.symbol = .mark (.closing .paren) := by
  obtain ⟨function, tail, rfl, hfunction, htail⟩ := List.map_eq_cons_iff.mp h
  obtain ⟨paren, tail, rfl, hparen, htail⟩ := List.map_eq_cons_iff.mp htail
  obtain ⟨left, tail, rfl, hleft, htail⟩ := List.map_eq_append_iff.mp htail
  obtain ⟨comma, tail, rfl, hcomma, htail⟩ := List.map_eq_cons_iff.mp htail
  obtain ⟨right, tail, rfl, hright, htail⟩ := List.map_eq_append_iff.mp htail
  obtain ⟨close, tail, rfl, hclose, htail⟩ := List.map_eq_cons_iff.mp htail
  obtain rfl := List.map_eq_nil_iff.mp htail
  exact ⟨function, paren, left, comma, right, close, rfl, hfunction, hparen, hleft, hcomma, hright,
    hclose⟩

end

/-- What a path, a literal or a call is followed by where it is all there is of an operand. -/
theorem paren_of_path {symbols : List Symbol} {path : Path} (h : Path.Derives symbols path)
    {tokens : List Token} (ht : tokens.map (·.symbol) = symbols)
    (hrest : Before mayFollowCall rest) :
    ∃ first behind name, tokens ++ rest = first :: behind ∧
      Path.nameText? first.symbol = some name ∧
      ∀ token ∈ behind.head?, token.symbol ≠ .mark (.opening .paren) := by
  cases h with
  | @path symbol name _ _ hname further =>
    obtain ⟨first, tail, rfl, hfirst, htail⟩ := List.map_eq_cons_iff.mp ht
    refine ⟨first, tail ++ rest, name, rfl, by rwa [hfirst], ?_⟩
    intro token htoken
    cases further with
    | nil =>
      obtain rfl := List.map_eq_nil_iff.mp htail
      rcases mayFollowCall_cases (hrest token htoken) with heq | heq | heq | heq <;> simp [heq]
    | name | index =>
      obtain ⟨second, _, rfl, hsecond, -⟩ := List.map_eq_cons_iff.mp htail
      obtain rfl : second = token := by simpa using htoken
      simp [hsecond]

theorem before_closing {close : Token} (h : close.symbol = .mark (.closing .paren))
    (rest : List Token) : Before mayFollowFormula (close :: rest) :=
  before_cons (by rw [h]; rfl) rest

theorem before_comma {comma : Token} (h : comma.symbol = .mark .comma) (rest : List Token) :
    Before mayFollowFormula (comma :: rest) :=
  before_cons (by rw [h]; rfl) rest

/-- What reading an operand or a formula comes to, with fuel for all of its tokens. -/
def Reads (operand : Bool) (symbols : List Symbol) (formula : Formula) : Prop :=
  ∀ ⦃tokens rest : List Token⦄ ⦃fuel : Nat⦄, tokens.map (·.symbol) = symbols →
    match operand with
    | true => Before mayFollowCall rest → 2 * tokens.length ≤ fuel →
        readOperand surroundings fuel (tokens ++ rest) = .ok (formula, rest)
    | false => Before mayFollowFormula rest → 2 * tokens.length + 1 ≤ fuel →
        readFormula surroundings fuel (tokens ++ rest) = .ok (formula, rest)

theorem Path.Derives.readsOperand {symbols : List Symbol} {path : Path}
    (h : Path.Derives symbols path) : Reads true symbols (.path path) := by
  intro tokens rest fuel ht hrest _
  have hread := h.read continues (ends_of_before hrest) ht
  obtain ⟨first, behind, name, heq, hname, hparen⟩ := paren_of_path h ht hrest
  rw [heq] at hread ⊢
  exact readOperand_path hname hparen hread

theorem reads_call {function : String} {first second : List Symbol} {left right formula : Formula}
    (hleft : Reads false first left) (hright : Reads false second right)
    (hcall : ∀ position, callOf function position left right = .ok formula) :
    Reads true (callSymbols function first second) formula := by
  intro tokens rest fuel ht hrest hf
  obtain ⟨name, paren, left', comma, right', close, rfl, hname, hparen, hfirst, hcomma, hsecond,
    hclose⟩ := tokens_call ht
  simp only [List.length_cons, List.length_append, List.length_nil] at hf
  obtain ⟨fuel, rfl⟩ : ∃ k, fuel = k + 1 := ⟨fuel - 1, by omega⟩
  have hfuel : 2 * left'.length + 1 ≤ fuel := by omega
  have hfuel' : 2 * right'.length + 1 ≤ fuel := by omega
  have hl := hleft hfirst (before_comma hcomma (right' ++ close :: rest)) hfuel
  have hr := hright hsecond (before_closing hclose rest) hfuel'
  simpa using readOperand_call hname hparen hl hcomma hr hclose hrest.lookAhead (hcall _)

/-- The readers read what the grammar derives. -/
theorem Derives.reads {operand : Bool} {symbols : List Symbol} {formula : Formula}
    (h : Derives operand symbols formula) : Reads operand symbols formula := by
  induction h with
  | literal h =>
    intro tokens rest fuel ht hrest _
    have hread := h.read nests ht (admits_of_before hrest)
    obtain ⟨symbol, behind, rfl, hnone⟩ := nameText?_of_value h
    obtain ⟨first, tail, rfl, hfirst, -⟩ := List.map_eq_cons_iff.mp ht
    exact readOperand_literal ⟨first, tail ++ rest, rfl, by rwa [hfirst]⟩ hread
  | path h => exact Path.Derives.readsOperand h
  | listAppend _ _ ihLeft ihRight => exact reads_call ihLeft ihRight fun _ => rfl
  | @ifNotExists first second path otherwise hpath _ ih =>
    have hfirst : Reads false first (.path path) := by
      intro tokens rest fuel ht hrest hf
      obtain ⟨fuel, rfl⟩ : ∃ k, fuel = k + 1 := ⟨fuel - 1, by omega⟩
      exact readFormula_operand hrest (Path.Derives.readsOperand hpath ht
        (hrest.mono fun _ => mayFollowCall_of_formula) (by omega))
    exact reads_call hfirst ih fun _ => rfl
  | operand _ ih =>
    intro tokens rest fuel ht hrest hf
    obtain ⟨fuel, rfl⟩ : ∃ k, fuel = k + 1 := ⟨fuel - 1, by omega⟩
    exact readFormula_operand hrest
      (ih ht (hrest.mono fun _ => mayFollowCall_of_formula) (by omega))
  | @arithmetic op first second left right _ _ addend addend' ihLeft ihRight =>
    intro tokens rest fuel ht hrest hf
    obtain ⟨left', tail, rfl, hleft, htail⟩ := List.map_eq_append_iff.mp ht
    obtain ⟨sign, right', rfl, hsign, hright⟩ := List.map_eq_cons_iff.mp htail
    simp only [List.length_append, List.length_cons] at hf
    obtain ⟨fuel, rfl⟩ : ∃ k, fuel = k + 1 := ⟨fuel - 1, by omega⟩
    have hbefore : Before mayFollowCall (sign :: (right' ++ rest)) :=
      before_cons (by rw [hsign]; cases op <;> rfl) _
    have hfuel : 2 * left'.length ≤ fuel := by omega
    have hfuel' : 2 * right'.length ≤ fuel := by omega
    have hl := ihLeft hleft hbefore hfuel
    have hr := ihRight hright (hrest.mono fun _ => mayFollowCall_of_formula) hfuel'
    simpa using readFormula_arithmetic hsign hl hr hrest.lookAhead addend addend'

/-- An assignment is read where a comma or nothing follows. -/
theorem DerivesAssignment.read {symbols : List Symbol} {action : Action}
    (h : DerivesAssignment symbols action) {tokens rest : List Token}
    (ht : tokens.map (·.symbol) = symbols) (hrest : Before (· = .mark .comma) rest) :
    readAssignment surroundings (tokens ++ rest) = .ok (action, rest) := by
  cases h with
  | @set first second target formula htarget hformula =>
    have hrest' : Before mayFollowFormula rest :=
      hrest.mono fun symbol hs => by rw [of_decide_eq_true hs]; rfl
    obtain ⟨left, tail, rfl, hleft, htail⟩ := List.map_eq_append_iff.mp ht
    obtain ⟨equal, right, rfl, hequal, hright⟩ := List.map_eq_cons_iff.mp htail
    have hends : Path.Ends surroundings (equal :: (right ++ rest)) := by
      refine ⟨by rw [Reading.lookAhead, hequal]; rfl, ?_⟩
      rintro token htoken
      obtain rfl : equal = token := by simpa using htoken
      simp [hequal]
    have hpath := htarget.read continues hends hleft
    have hfuel : 2 * right.length + 1 ≤ Value.fuelFor (right ++ rest) := by
      simp [Value.fuelFor]
    have hread := hformula.reads hright hrest' hfuel
    simp [readAssignment, hpath, hequal, hread, Reading.expect, bind, Except.bind, pure,
      Except.pure]

/-- The surroundings of paths to be removed in a text without fault. -/
def removalSurroundings : Surroundings := ⟨none, fun _ => false, mayFollowRemovedIndex⟩

theorem continues_removal : Path.Continues removalSurroundings := by
  intro symbol h
  unfold Path.mayFollowIndex at h
  split at h <;> simp [removalSurroundings, mayFollowRemovedIndex, Path.mayFollowIndex] at h ⊢

/-- A removal is read where a comma or nothing follows. -/
theorem DerivesRemoval.read {symbols : List Symbol} {action : Action}
    (h : DerivesRemoval symbols action) {tokens rest : List Token}
    (ht : tokens.map (·.symbol) = symbols) (hrest : Before (· = .mark .comma) rest) :
    readRemoval removalSurroundings (tokens ++ rest) = .ok (action, rest) := by
  cases h with
  | remove htarget =>
    have hends : Path.Ends removalSurroundings rest := by
      have hindex : Before mayFollowRemovedIndex rest := by
        apply hrest.mono
        intro symbol hs
        rw [of_decide_eq_true hs]
        rfl
      refine ⟨hindex.lookAhead, ?_⟩
      intro token htoken
      simp [of_decide_eq_true (hrest token htoken)]
    rw [readRemoval, htarget.read continues_removal hends ht]
    rfl

/-- Actions between commas are read one after another. -/
theorem readActions_separated {s : Surroundings} {read : List Token → Reading Action}
    {parts : List (List Symbol × Action)} (nonempty : parts ≠ [])
    (h : ∀ part ∈ parts, ∀ tokens rest, tokens.map (·.symbol) = part.1 →
      Before (· = .mark .comma) rest → read (tokens ++ rest) = .ok (part.2, rest))
    {tokens : List Token} {fuel : Nat}
    (ht : tokens.map (·.symbol) = Value.separated (parts.map (·.1)))
    (hf : tokens.length + 1 ≤ fuel) :
    readActions s read fuel tokens = .ok (parts.map (·.2), []) := by
  induction parts generalizing tokens fuel with
  | nil => contradiction
  | cons part parts ih =>
    obtain ⟨hpart, hparts⟩ := List.forall_mem_cons.mp h
    obtain ⟨fuel, rfl⟩ : ∃ k, fuel = k + 1 := ⟨fuel - 1, by omega⟩
    cases parts with
    | nil =>
      have ht' : tokens.map (·.symbol) = part.1 := by simpa [Value.separated] using ht
      have hread := hpart tokens [] ht' (by simp [Before])
      rw [List.append_nil] at hread
      rw [readActions, hread]
      rfl
    | cons next parts =>
      rw [List.map_cons, Value.separated_cons _ (by simp)] at ht
      obtain ⟨first, tail, rfl, hfirst, htail⟩ := List.map_eq_append_iff.mp ht
      obtain ⟨comma, behind, rfl, hcomma, hbehind⟩ := List.map_eq_cons_iff.mp htail
      simp only [List.length_append, List.length_cons] at hf
      have hread := hpart first (comma :: behind) hfirst (before_cons (by simp [hcomma]) behind)
      obtain ⟨symbol, position, line⟩ := comma
      cases hcomma
      have hmore : readActions s read fuel behind = .ok ((next :: parts).map (·.2), []) :=
        ih (by simp) hparts hbehind (by omega)
      simp [readActions, hread, hmore, Except.map]

/-- The delimiters of actions between commas match, if those of the actions do. -/
theorem wellNested_actions {parts : List (List Symbol × Action)}
    (h : ∀ part ∈ parts, Nesting.WellNested part.1) :
    Nesting.WellNested (Value.separated (parts.map (·.1))) :=
  Nesting.WellNested.intercalate Value.not_isBracket_comma (List.forall_mem_map.mpr h)

section

variable {tokens : List Token} {parts : List (List Symbol × Action)}

theorem assignmentsOf_separated (nonempty : parts ≠ [])
    (h : ∀ part ∈ parts, DerivesAssignment part.1 part.2)
    (htokens : tokens.map (·.symbol) = Value.separated (parts.map (·.1))) (line : Nat) :
    assignmentsOf ⟨tokens, none, line⟩ = .ok (parts.map (·.2)) := by
  have hread := readActions_separated (s := surroundings) nonempty
    (fun part hpart tokens rest ht hrest => (h part hpart).read ht hrest) htokens le_rfl
  rw [assignmentsOf]
  dsimp only
  rw [show (⟨none, mayFollowLiteral, mayFollowIndex⟩ : Surroundings) = surroundings from rfl,
    Reading.complete, hread]
  rfl

theorem removalsOf_separated (nonempty : parts ≠ [])
    (h : ∀ part ∈ parts, DerivesRemoval part.1 part.2)
    (htokens : tokens.map (·.symbol) = Value.separated (parts.map (·.1))) (line : Nat) :
    removalsOf ⟨tokens, none, line⟩ = .ok (parts.map (·.2)) := by
  have hread := readActions_separated (s := removalSurroundings) nonempty
    (fun part hpart tokens rest ht hrest => (h part hpart).read ht hrest) htokens le_rfl
  rw [removalsOf]
  dsimp only
  rw [show (⟨none, fun _ => false, mayFollowRemovedIndex⟩ : Surroundings) = removalSurroundings
    from rfl, Reading.complete, hread]
  rfl

end

end AttributeExpr.Update
