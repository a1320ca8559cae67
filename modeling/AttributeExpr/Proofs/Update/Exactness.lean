import AttributeExpr.Proofs.Update.Tree
import Mathlib
/-!
The parsers of updates accept exactly the grammar of updates, and a text has one derivation. In it
the commas of literals and calls do not separate actions, and each name before a parenthesis is the
function of a call.
-/
namespace AttributeExpr.Update

/-- The actions are derived from the symbols by the trees, between commas. -/
structure Derivation (clause : Clause) (symbols : List Symbol) (trees : List ActionTree)
    (actions : List Action) : Prop where
  nonempty : trees ≠ []
  leaves : Value.separated (trees.map (·.symbols)) = symbols
  denotes : List.Forall₂ (ActionTree.Denotes clause) trees actions

section

variable {clause : Clause} {symbols : List Symbol} {trees trees' : List ActionTree}
  {actions actions' : List Action}

theorem exists_derivation {parts : List (List Symbol × Action)} (nonempty : parts ≠ [])
    (h : ∀ part ∈ parts, DerivesAction clause part.1 part.2) :
    ∃ trees, Derivation clause (Value.separated (parts.map (·.1))) trees (parts.map (·.2)) := by
  have : Nonempty ActionTree := ⟨.remove ⟨.mark .comma, []⟩⟩
  have htrees : ∀ part ∈ parts, ∃ tree : ActionTree,
      tree.symbols = part.1 ∧ tree.Denotes clause part.2 :=
    fun part hpart => (h part hpart).exists_tree
  choose! tree htree hdenotes using htrees
  refine ⟨parts.map tree, by simpa using nonempty, ?_, ?_⟩
  · rw [List.map_map]
    exact congrArg _ (List.map_congr_left htree)
  · rw [List.forall₂_map_left_iff, List.forall₂_map_right_iff, List.forall₂_same]
    exact hdenotes

/-- The trees of a derivation with their actions. -/
theorem Derivation.parts (h : Derivation clause symbols trees actions) :
    ∃ parts : List (List Symbol × Action), parts ≠ [] ∧
      symbols = Value.separated (parts.map (·.1)) ∧
      (∀ part ∈ parts, DerivesAction clause part.1 part.2) ∧ actions = parts.map (·.2) := by
  obtain ⟨nonempty, rfl, denotes⟩ := h
  obtain ⟨parts, rfl, rfl, hparts⟩ := exists_parts_of_forall₂ denotes
  refine ⟨parts.map fun part => (part.1.symbols, part.2), by simpa using nonempty, ?_,
    List.forall_mem_map.mpr fun part hpart => (hparts part hpart).derives, ?_⟩
  · simp [Function.comp_def]
  · simp [Function.comp_def]

/-- The symbols of a clause have one derivation. -/
theorem Derivation.unique_trees (h : Derivation clause symbols trees actions)
    (h' : Derivation clause symbols trees' actions') : trees = trees' := by
  have heq : Value.separated (trees.map (·.symbols)) ++ [] =
      Value.separated (trees'.map (·.symbols)) ++ [] := by
    rw [h.leaves, h'.leaves]
  refine (Value.separated_append_inj EndsAction ?_ ?_ ?_ ?_ ?_ ?_ h.nonempty h'.nonempty heq).1
  · intro tree htree tree' htree' r r' hr hr' heq
    obtain ⟨action, -, haction⟩ := exists_of_mem_forall₂ h.denotes htree
    obtain ⟨action', -, haction'⟩ := exists_of_mem_forall₂ h'.denotes htree'
    exact haction.symbols_append_inj haction' hr hr' heq
  all_goals simp [EndsAction]

/-- The symbols of a clause derive one list of actions, which is the one that is read. -/
theorem Derivation.unique_actions (h : Derivation clause symbols trees actions)
    (h' : Derivation clause symbols trees' actions') : actions = actions' := by
  obtain ⟨tokens, htokens⟩ := Reading.exists_tokens symbols
  obtain ⟨parts, nonempty, rfl, hparts, rfl⟩ := h.parts
  obtain ⟨parts', nonempty', hsymbols, hparts', rfl⟩ := h'.parts
  have hread := ofScan_separated nonempty hparts htokens 1
  rw [ofScan_separated nonempty' hparts' (htokens.trans hsymbols)] at hread
  exact (Except.ok.inj hread).symm

theorem parse_derivation {text : String} (h : parse clause text = .ok actions) :
    ∃ tokens trees, tokenize text = .ok tokens ∧
      Derivation clause (tokens.map (·.symbol)) trees actions := by
  obtain ⟨parts, nonempty, hsymbols, hparts, rfl⟩ := parse_sound h
  obtain ⟨trees, htrees⟩ := exists_derivation nonempty hparts
  rw [← hsymbols] at htrees
  exact ⟨_, trees, tokenize_of_scanNested (fault_of_parse h), htrees⟩

theorem Derivation.parse {text : String} {tokens : List Token}
    (htokens : tokenize text = .ok tokens)
    (h : Derivation clause (tokens.map (·.symbol)) trees actions) :
    parse clause text = .ok actions := by
  obtain ⟨parts, nonempty, hsymbols, hparts, rfl⟩ := h.parts
  have hnested : Nesting.WellNested (tokens.map (·.symbol)) := by
    rw [hsymbols]
    exact wellNested_actions fun part hpart => (hparts part hpart).commasInside.wellNested
  obtain ⟨line, hscan⟩ := scanNested_of_tokenize htokens hnested
  rw [parse_eq_ofScan, hscan, ofScan_separated nonempty hparts hsymbols]

end

/-! A name before a parenthesis is the function of a call. -/

/-- The calls in a formula. -/
def Tree.calls : Tree → List Tree
  | literal _ | path _ => []
  | call name first second => call name first second :: (first.calls ++ second.calls)
  | arithmetic _ left right => left.calls ++ right.calls

def ActionTree.calls : ActionTree → List Tree
  | set _ formula => formula.calls
  | remove _ => []

/-- Wherever a parenthesis is opened, the name in front of it begins one of the calls. -/
def OpensCalls (symbols : List Symbol) (calls : List Tree) : Prop :=
  ∀ front behind, symbols = front ++ .mark (.opening .paren) :: behind →
    ∃ before name first second after, Tree.call name first second ∈ calls ∧
      front = before ++ [.name name] ∧
      symbols = before ++ ((Tree.call name first second).symbols ++ after)

section

variable {symbols symbols' : List Symbol} {calls calls' : List Tree}

theorem opensCalls_of_notMem (h : .mark (.opening .paren) ∉ symbols) (calls : List Tree) :
    OpensCalls symbols calls := by
  rintro front behind rfl
  simp at h

theorem OpensCalls.mono (h : OpensCalls symbols calls) (hsub : calls ⊆ calls') :
    OpensCalls symbols calls' := by
  intro front behind heq
  obtain ⟨before, name, first, second, after, hcall, hrest⟩ := h front behind heq
  exact ⟨before, name, first, second, after, hsub hcall, hrest⟩

theorem OpensCalls.append (h : OpensCalls symbols calls) (h' : OpensCalls symbols' calls) :
    OpensCalls (symbols ++ symbols') calls := by
  intro front behind heq
  rcases List.append_eq_append_iff.mp heq with ⟨more, rfl, rfl⟩ | ⟨more, rfl, hmore⟩
  · obtain ⟨before, name, first, second, after, hcall, rfl, hsymbols⟩ := h' more behind rfl
    exact ⟨symbols ++ before, name, first, second, after, hcall, by simp, by simp [hsymbols]⟩
  · cases more with
    | nil =>
      obtain ⟨before, name, first, second, after, -, hfront, -⟩ := h' [] behind hmore.symm
      simp at hfront
    | cons symbol more =>
      obtain ⟨rfl, rfl⟩ := List.cons.inj hmore
      obtain ⟨before, name, first, second, after, hcall, rfl, hsymbols⟩ := h front more rfl
      exact ⟨before, name, first, second, after ++ symbols', hcall, rfl, by simp [hsymbols]⟩

theorem OpensCalls.cons (h : OpensCalls symbols calls) {symbol : Symbol}
    (hne : symbol ≠ .mark (.opening .paren)) : OpensCalls (symbol :: symbols) calls := by
  have hnone : .mark (.opening .paren) ∉ [symbol] := by simpa using hne.symm
  exact OpensCalls.append (opensCalls_of_notMem hnone calls) h

/-- The parenthesis of a call is its own, and those in its arguments are of calls there. -/
theorem opensCalls_call {name : String} {first second : Tree}
    (hfirst : OpensCalls first.symbols first.calls)
    (hsecond : OpensCalls second.symbols second.calls) :
    OpensCalls (Tree.call name first second).symbols (Tree.call name first second).calls := by
  have harguments : OpensCalls
      (first.symbols ++ .mark .comma :: (second.symbols ++ [.mark (.closing .paren)]))
      (Tree.call name first second).calls := by
    refine (hfirst.mono ?_).append (((hsecond.mono ?_).append ?_).cons (by simp))
    · simp [Tree.calls]
    · simp [Tree.calls]
    · exact opensCalls_of_notMem (by simp) _
  intro front behind heq
  cases front with
  | nil => cases heq
  | cons symbol front =>
    obtain ⟨rfl, htail⟩ := List.cons.inj heq
    cases front with
    | nil => exact ⟨[], name, first, second, [], by simp [Tree.calls], rfl, by simp⟩
    | cons symbol front =>
      obtain ⟨rfl, hinside⟩ := List.cons.inj htail
      obtain ⟨before, name', first', second', after, hcall, rfl, hsymbols⟩ :=
        harguments front behind hinside
      exact ⟨.name name :: .mark (.opening .paren) :: before, name', first', second', after,
        hcall, rfl, by simp [Tree.symbols, callSymbols, hsymbols]⟩

end

theorem Tree.Denotes.opensCalls {operand : Bool} {tree : Tree} {formula : Formula}
    (h : tree.Denotes operand formula) : OpensCalls tree.symbols tree.calls := by
  induction h with
  | literal h => exact opensCalls_of_notMem h.derives.paren_notMem _
  | path h => exact opensCalls_of_notMem h.derives.paren_notMem _
  | listAppend _ _ ihLeft ihRight => exact opensCalls_call ihLeft ihRight
  | ifNotExists _ _ ihPath ih => exact opensCalls_call ihPath ih
  | operand _ ih => exact ih
  | @arithmetic op _ _ _ _ _ _ _ _ ihLeft ihRight =>
    refine (ihLeft.mono ?_).append ((ihRight.mono ?_).cons ?_)
    · simp [Tree.calls]
    · simp [Tree.calls]
    · cases op <;> simp [opMark]

theorem ActionTree.Denotes.opensCalls {clause : Clause} {tree : ActionTree} {action : Action}
    (h : tree.Denotes clause action) : OpensCalls tree.symbols tree.calls := by
  cases h with
  | set htarget hformula =>
    exact (opensCalls_of_notMem htarget.derives.paren_notMem _).append
      (hformula.opensCalls.cons (by simp))
  | remove htarget => exact opensCalls_of_notMem htarget.derives.paren_notMem _

/-- A text is parsed as actions exactly if its tokens derive them. The derivation is the only one
of its symbols. The commas between its actions are those outside of all delimiters, and a name
before a parenthesis is always the function of a call. -/
theorem parse_eq_ok_iff_derivation (clause : Clause) (text : String) :
    (∀ actions, parse clause text = .ok actions ↔ ∃ tokens trees, tokenize text = .ok tokens ∧
      Derivation clause (tokens.map (·.symbol)) trees actions) ∧
    ∀ symbols trees actions, Derivation clause symbols trees actions →
      (∀ trees' actions', Derivation clause symbols trees' actions' →
        trees = trees' ∧ actions = actions') ∧
      ∀ tree ∈ trees, Nesting.CommasInside tree.symbols ∧ OpensCalls tree.symbols tree.calls := by
  refine ⟨fun actions => ⟨parse_derivation, ?_⟩, fun symbols trees actions h => ⟨?_, ?_⟩⟩
  · rintro ⟨tokens, trees, htokens, h⟩
    exact h.parse htokens
  · intro trees' actions' h'
    exact ⟨h.unique_trees h', h.unique_actions h'⟩
  · intro tree htree
    obtain ⟨action, -, haction⟩ := exists_of_mem_forall₂ h.denotes htree
    exact ⟨haction.derives.commasInside, haction.opensCalls⟩

set_option maxRecDepth 4000 in
/-- Commas separate actions, arguments and items. -/
theorem parse_eq_ok_iff_derivation_commas :
    let actions := [Action.set [.name "a"]
      (.listAppend (.path [.name "b"]) (.literal (.list [.number "1", .number "2"]))),
      .set [.name "c"] (.path [.name "d"])]
    ∃ tokens trees, tokenize "a = list_append(b, [1, 2]), c = d" = .ok tokens ∧
      Derivation .set (tokens.map (·.symbol)) trees actions ∧
      (∀ trees' actions', Derivation .set (tokens.map (·.symbol)) trees' actions' →
        trees = trees' ∧ actions = actions') ∧
      ∀ tree ∈ trees, Nesting.CommasInside tree.symbols ∧ OpensCalls tree.symbols tree.calls := by
  intro actions
  have hparse : parse .set "a = list_append(b, [1, 2]), c = d" = .ok actions := by cbv
  obtain ⟨exact, derivation⟩ := parse_eq_ok_iff_derivation .set "a = list_append(b, [1, 2]), c = d"
  obtain ⟨tokens, trees, htokens, h⟩ := (exact actions).mp hparse
  obtain ⟨unique, hactions⟩ := derivation _ trees actions h
  exact ⟨tokens, trees, htokens, h, unique, hactions⟩

end AttributeExpr.Update
