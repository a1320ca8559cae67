import AttributeExpr.Proofs.Value.Grammar
/-!
Derivation trees of literals. A tree has a node for each use of a rule, and its leaves are the
symbols that it derives. The symbols of one literal never begin those of another, so that there is
only one tree for the symbols of a literal.
-/
namespace AttributeExpr.Value

inductive Tree
  | scalar (symbol : Symbol)
  | list (items : List Tree)
  | map (entries : List (Symbol × Tree))
  | set (items : List Tree)
deriving Inhabited

namespace Tree

mutual

/-- The leaves of a tree. -/
def symbols : Tree → List Symbol
  | scalar symbol => [symbol]
  | list items => enclosed .square (itemSymbols items)
  | map entries => enclosed .brace (entrySymbols entries)
  | set items => enclosed .set (itemSymbols items)

def itemSymbols : List Tree → List (List Symbol)
  | [] => []
  | item :: rest => symbols item :: itemSymbols rest

def entrySymbols : List (Symbol × Tree) → List (List Symbol)
  | [] => []
  | (key, item) :: rest => (key :: .mark .colon :: symbols item) :: entrySymbols rest

end

/-- The symbols of a key and the value behind it. -/
def spelledEntry (entry : Symbol × Tree) : List Symbol := entry.1 :: .mark .colon :: entry.2.symbols

theorem itemSymbols_eq_map (items : List Tree) : itemSymbols items = items.map symbols := by
  induction items with
  | nil => rfl
  | cons item rest ih => rw [itemSymbols, ih, List.map_cons]

theorem entrySymbols_eq_map (entries : List (Symbol × Tree)) :
    entrySymbols entries = entries.map spelledEntry := by
  induction entries with
  | nil => rfl
  | cons entry rest ih => rw [entrySymbols, ih, List.map_cons, spelledEntry]

@[simp] theorem symbols_scalar (symbol : Symbol) : (scalar symbol).symbols = [symbol] := rfl

@[simp] theorem symbols_list (items : List Tree) :
    (list items).symbols = enclosed .square (items.map symbols) := by
  rw [symbols, itemSymbols_eq_map]

@[simp] theorem symbols_map (entries : List (Symbol × Tree)) :
    (map entries).symbols = enclosed .brace (entries.map spelledEntry) := by
  rw [symbols, entrySymbols_eq_map]

@[simp] theorem symbols_set (items : List Tree) :
    (set items).symbols = enclosed .set (items.map symbols) := by
  rw [symbols, itemSymbols_eq_map]

end Tree

/-- The rules of the grammar hold at all nodes of the tree, and together they make the value. -/
inductive Tree.Denotes : Tree → Value → Prop where
  | scalar {symbol : Symbol} {value : Value} (h : ofSymbol? symbol = some value) :
      Denotes (.scalar symbol) value
  | list (parts : List (Tree × Value)) (h : ∀ part ∈ parts, Denotes part.1 part.2) :
      Denotes (.list (parts.map (·.1))) (.list (parts.map (·.2)))
  | map (parts : List ((Symbol × Tree) × String × Value))
      (keys : ∀ part ∈ parts, keyText? part.1.1 = some part.2.1)
      (h : ∀ part ∈ parts, Denotes part.1.2 part.2.2) (distinct : (parts.map (·.2.1)).Nodup) :
      Denotes (.map (parts.map (·.1))) (.map (parts.map (·.2)))
  | set (parts : List (Tree × Value)) {value : Value} (h : ∀ part ∈ parts, Denotes part.1 part.2)
      (forms : IsSetOf (parts.map (·.2)) value) : Denotes (.set (parts.map (·.1))) value

/-! Derivations as trees. -/

theorem Tree.Denotes.derives {tree : Tree} {value : Value} (h : tree.Denotes value) :
    Derives tree.symbols value := by
  induction h with
  | scalar h => exact .scalar h
  | list parts _ ih =>
    have hlist := Derives.list (parts.map fun part => (part.1.symbols, part.2))
      (List.forall_mem_map.mpr ih)
    simpa [Function.comp_def] using hlist
  | map parts keys _ distinct ih =>
    have hmap := Derives.map
      (parts.map fun part => ⟨part.1.1, part.2.1, part.1.2.symbols, part.2.2⟩)
      (List.forall_mem_map.mpr keys) (List.forall_mem_map.mpr ih)
      (by simpa [Function.comp_def] using distinct)
    simpa [EntryPart.spelled, EntryPart.entry, spelledEntry, Function.comp_def] using hmap
  | set parts _ forms ih =>
    have hset := Derives.set (parts.map fun part => (part.1.symbols, part.2))
      (List.forall_mem_map.mpr ih) (by simpa [Function.comp_def] using forms)
    simpa [Function.comp_def] using hset

theorem Derives.exists_tree {symbols : List Symbol} {value : Value} (h : Derives symbols value) :
    ∃ tree : Tree, tree.symbols = symbols ∧ tree.Denotes value := by
  induction h with
  | @scalar symbol _ h => exact ⟨.scalar symbol, rfl, .scalar h⟩
  | list parts _ ih =>
    choose! tree htree hdenotes using ih
    have hlist := Tree.Denotes.list (parts.map fun part => (tree part, part.2))
      (List.forall_mem_map.mpr hdenotes)
    refine ⟨.list (parts.map tree), ?_, by simpa [Function.comp_def] using hlist⟩
    rw [Tree.symbols_list, List.map_map]
    exact congrArg _ (List.map_congr_left htree)
  | map parts keys _ distinct ih =>
    choose! tree htree hdenotes using ih
    have hmap := Tree.Denotes.map
      (parts.map fun part => ((part.key, tree part), part.name, part.value))
      (List.forall_mem_map.mpr keys) (List.forall_mem_map.mpr hdenotes)
      (by simpa [Function.comp_def] using distinct)
    have hspelled : ∀ part ∈ parts, Tree.spelledEntry (part.key, tree part) = part.spelled := by
      intro part hpart
      simp [Tree.spelledEntry, EntryPart.spelled, htree part hpart]
    refine ⟨.map (parts.map fun part => (part.key, tree part)), ?_,
      by simpa [EntryPart.entry, Function.comp_def] using hmap⟩
    rw [Tree.symbols_map, List.map_map]
    exact congrArg _ (List.map_congr_left hspelled)
  | set parts _ forms ih =>
    choose! tree htree hdenotes using ih
    have hset := Tree.Denotes.set (parts.map fun part => (tree part, part.2))
      (List.forall_mem_map.mpr hdenotes) (by simpa [Function.comp_def] using forms)
    refine ⟨.set (parts.map tree), ?_, by simpa [Function.comp_def] using hset⟩
    rw [Tree.symbols_set, List.map_map]
    exact congrArg _ (List.map_congr_left htree)

/-- What the grammar derives are the symbols of trees. -/
theorem derives_iff_tree {symbols : List Symbol} {value : Value} :
    Derives symbols value ↔ ∃ tree : Tree, tree.symbols = symbols ∧ tree.Denotes value := by
  refine ⟨Derives.exists_tree, ?_⟩
  rintro ⟨tree, rfl, h⟩
  exact h.derives

/-! At most one tree. -/

theorem comma_separated {parts : List (List Symbol)} (nonempty : parts ≠ []) :
    .mark .comma :: separated parts = parts.flatMap (.mark .comma :: ·) := by
  induction parts with
  | nil => contradiction
  | cons part parts ih =>
    rcases eq_or_ne parts [] with rfl | hparts
    · simp [separated]
    · rw [separated_cons _ hparts, ih hparts, List.flatMap_cons, List.cons_append]

section

variable {α : Type} {spelled : α → List Symbol} {as bs : List α} {r r' : List Symbol}

/-- Parts behind commas can be told from their symbols, if each of them can be told from symbols
that begin with its own, wherever `Ends` holds of those behind it. -/
theorem flatMap_comma_append_inj (Ends : List Symbol → Prop)
    (h : ∀ a ∈ as, ∀ b ∈ bs, ∀ r r', Ends r → Ends r' → spelled a ++ r = spelled b ++ r' →
      a = b ∧ r = r')
    (comma : ∀ r, Ends (.mark .comma :: r)) (hr : Ends r) (hr' : Ends r')
    (stop : r.head? ≠ some (.mark .comma)) (stop' : r'.head? ≠ some (.mark .comma))
    (heq : as.flatMap (.mark .comma :: spelled ·) ++ r =
      bs.flatMap (.mark .comma :: spelled ·) ++ r') :
    as = bs ∧ r = r' := by
  have hends {r : List Symbol} (hr : Ends r) (cs : List α) :
      Ends (cs.flatMap (.mark .comma :: spelled ·) ++ r) := by
    cases cs with
    | nil => exact hr
    | cons c cs => exact comma _
  induction as generalizing bs with
  | nil =>
    cases bs with
    | nil => exact ⟨rfl, heq⟩
    | cons b bs =>
      obtain rfl := heq
      exact absurd rfl stop
  | cons a as ih =>
    cases bs with
    | nil =>
      obtain rfl := heq
      exact absurd rfl stop'
    | cons b bs =>
      simp only [List.flatMap_cons, List.cons_append, List.append_assoc, List.cons.injEq,
        true_and] at heq
      obtain ⟨rfl, hrest⟩ := h a (by simp) b (by simp) _ _ (hends hr as) (hends hr' bs) heq
      obtain ⟨rfl, rfl⟩ := ih (fun a ha b hb => h a (by simp [ha]) b (by simp [hb])) hrest
      exact ⟨rfl, rfl⟩

theorem separated_append_inj (Ends : List Symbol → Prop)
    (h : ∀ a ∈ as, ∀ b ∈ bs, ∀ r r', Ends r → Ends r' → spelled a ++ r = spelled b ++ r' →
      a = b ∧ r = r')
    (comma : ∀ r, Ends (.mark .comma :: r)) (hr : Ends r) (hr' : Ends r')
    (stop : r.head? ≠ some (.mark .comma)) (stop' : r'.head? ≠ some (.mark .comma))
    (nonempty : as ≠ []) (nonempty' : bs ≠ [])
    (heq : separated (as.map spelled) ++ r = separated (bs.map spelled) ++ r') :
    as = bs ∧ r = r' := by
  apply flatMap_comma_append_inj Ends h comma hr hr' stop stop'
  have hcomma := congrArg (Symbol.mark .comma :: ·) heq
  simpa only [← List.cons_append, comma_separated (mt List.map_eq_nil_iff.mp nonempty),
    comma_separated (mt List.map_eq_nil_iff.mp nonempty'), List.flatMap_map] using hcomma

/-- Parts between delimiters, none of which begins with a closing delimiter. -/
theorem enclosed_append_inj {bracket bracket' : Bracket}
    (h : ∀ a ∈ as, ∀ b ∈ bs, ∀ r r', spelled a ++ r = spelled b ++ r' → a = b ∧ r = r')
    (head : ∀ a ∈ as ++ bs, ∃ first rest, spelled a = first :: rest ∧
      ∀ bracket, first ≠ .mark (.closing bracket))
    (heq : enclosed bracket (as.map spelled) ++ r = enclosed bracket' (bs.map spelled) ++ r') :
    bracket = bracket' ∧ as = bs ∧ r = r' := by
  have hfirst {c : α} (hc : c ∈ as ++ bs) (cs : List α) (tail tail' : List Symbol) :
      .mark (.closing bracket) :: tail ≠ separated ((c :: cs).map spelled) ++ tail' := by
    obtain ⟨first, rest, hspelled, hclosing⟩ := head c hc
    obtain ⟨behind, hbehind⟩ := separated_head (cs.map spelled) hspelled
    rw [List.map_cons, hbehind]
    rintro ⟨⟩
    exact hclosing bracket rfl
  simp only [enclosed, List.cons_append, List.append_assoc, List.nil_append, List.cons.injEq,
    Symbol.mark.injEq, Mark.opening.injEq] at heq
  obtain ⟨rfl, heq⟩ := heq
  refine ⟨rfl, ?_⟩
  cases as with
  | nil =>
    cases bs with
    | nil => exact ⟨rfl, (List.cons.inj heq).2⟩
    | cons b bs => exact absurd heq (hfirst (by simp) bs r _)
  | cons a as =>
    cases bs with
    | nil => exact absurd heq.symm (hfirst (by simp) as r' _)
    | cons b bs =>
      obtain ⟨hparts, hrest⟩ := separated_append_inj (fun _ => True)
        (fun a ha b hb r r' _ _ => h a ha b hb r r') (fun _ => trivial) trivial trivial
        (by simp) (by simp) (by simp) (by simp) heq
      exact ⟨hparts, (List.cons.inj hrest).2⟩

end

theorem Tree.Denotes.head {tree : Tree} {value : Value} (h : tree.Denotes value) :
    ∃ first rest, tree.symbols = first :: rest ∧ ∀ bracket, first ≠ .mark (.closing bracket) :=
  h.derives.head

theorem Tree.spelledEntry_head {entry : Symbol × Tree} {name : String}
    (h : keyText? entry.1 = some name) :
    ∃ first rest, Tree.spelledEntry entry = first :: rest ∧
      ∀ bracket, first ≠ .mark (.closing bracket) :=
  ⟨_, _, rfl, fun bracket hb => not_isBracket_of_keyText? h ⟨bracket, .inr hb⟩⟩

/-- No scalar begins with a delimiter. -/
theorem scalar_ne_enclosed {symbol : Symbol} {value : Value} (h : ofSymbol? symbol = some value)
    {bracket : Bracket} {parts : List (List Symbol)} {r r' : List Symbol} :
    [symbol] ++ r ≠ enclosed bracket parts ++ r' := by
  rintro heq
  exact not_isBracket_of_ofSymbol? h ⟨bracket, .inl (List.cons.inj heq).1⟩

/-- Lists and sets of trees between delimiters. -/
theorem enclosed_trees_append_inj {parts parts' : List (Tree × Value)}
    (ih : ∀ part ∈ parts, ∀ {tree' : Tree} {value' : Value}, tree'.Denotes value' →
      ∀ {r r' : List Symbol}, part.1.symbols ++ r = tree'.symbols ++ r' → part.1 = tree' ∧ r = r')
    (h : ∀ part ∈ parts, part.1.Denotes part.2) (h' : ∀ part ∈ parts', part.1.Denotes part.2)
    {bracket bracket' : Bracket} {r r' : List Symbol}
    (heq : enclosed bracket ((parts.map (·.1)).map Tree.symbols) ++ r =
      enclosed bracket' ((parts'.map (·.1)).map Tree.symbols) ++ r') :
    bracket = bracket' ∧ parts.map (·.1) = parts'.map (·.1) ∧ r = r' := by
  refine enclosed_append_inj ?_ ?_ heq
  · intro tree htree tree' htree' r r' heq
    obtain ⟨part, hpart, rfl⟩ := List.mem_map.mp htree
    obtain ⟨part', hpart', rfl⟩ := List.mem_map.mp htree'
    exact ih part hpart (h' part' hpart') heq
  · rw [← List.map_append, List.forall_mem_map, List.forall_mem_append]
    exact ⟨fun part hpart => (h part hpart).head, fun part hpart => (h' part hpart).head⟩

/-- The symbols of a literal do not begin those of another. -/
theorem Tree.Denotes.symbols_append_inj {tree tree' : Tree} {value value' : Value}
    (h : tree.Denotes value) (h' : tree'.Denotes value') {r r' : List Symbol}
    (heq : tree.symbols ++ r = tree'.symbols ++ r') : tree = tree' ∧ r = r' := by
  induction h generalizing tree' value' r r' with
  | scalar h =>
    cases h' with
    | scalar h' => simpa using heq
    | list | map | set =>
      simp only [Tree.symbols_scalar, Tree.symbols_list, Tree.symbols_map, Tree.symbols_set] at heq
      exact absurd heq (scalar_ne_enclosed h)
  | list parts h ih =>
    cases h' with
    | scalar h' => exact absurd (by simpa using heq.symm) (scalar_ne_enclosed h')
    | list parts' h' =>
      rw [Tree.symbols_list, Tree.symbols_list] at heq
      obtain ⟨-, htrees, hr⟩ := enclosed_trees_append_inj ih h h' heq
      exact ⟨congrArg _ htrees, hr⟩
    | map | set => simp [enclosed] at heq
  | map parts keys h distinct ih =>
    cases h' with
    | scalar h' => exact absurd (by simpa using heq.symm) (scalar_ne_enclosed h')
    | map parts' keys' h' =>
      rw [Tree.symbols_map, Tree.symbols_map] at heq
      have hentries : Bracket.brace = .brace ∧ parts.map (·.1) = parts'.map (·.1) ∧ r = r' := by
        refine enclosed_append_inj ?_ ?_ heq
        · intro entry hentry entry' hentry' r r' heq
          obtain ⟨part, hpart, rfl⟩ := List.mem_map.mp hentry
          obtain ⟨part', hpart', rfl⟩ := List.mem_map.mp hentry'
          simp only [Tree.spelledEntry, List.cons_append, List.cons.injEq, true_and] at heq
          obtain ⟨hkey, heq⟩ := heq
          obtain ⟨htree, hr⟩ := ih part hpart (h' part' hpart') heq
          exact ⟨Prod.ext hkey htree, hr⟩
        · rw [← List.map_append, List.forall_mem_map, List.forall_mem_append]
          exact ⟨fun part hpart => Tree.spelledEntry_head (keys part hpart),
            fun part hpart => Tree.spelledEntry_head (keys' part hpart)⟩
      exact ⟨congrArg _ hentries.2.1, hentries.2.2⟩
    | list | set => simp [enclosed] at heq
  | set parts h forms ih =>
    cases h' with
    | scalar h' => exact absurd (by simpa using heq.symm) (scalar_ne_enclosed h')
    | set parts' h' =>
      rw [Tree.symbols_set, Tree.symbols_set] at heq
      obtain ⟨-, htrees, hr⟩ := enclosed_trees_append_inj ih h h' heq
      exact ⟨congrArg _ htrees, hr⟩
    | list | map => simp [enclosed] at heq

/-- A literal has one derivation. -/
theorem Tree.Denotes.unique {tree tree' : Tree} {value value' : Value} (h : tree.Denotes value)
    (h' : tree'.Denotes value') (heq : tree.symbols = tree'.symbols) : tree = tree' :=
  (h.symbols_append_inj h' (congrArg (· ++ []) heq)).1

end AttributeExpr.Value
