import AttributeExpr.Proofs.Token.Nesting
import AttributeExpr.Proofs.Value.Set
import AttributeExpr.Value.Parser
/-!
The grammar of literals, as a relation between symbols and values, and the reader of literals beside
it. Whatever the reader accepts is derived by the grammar, and it accepts what the grammar derives
wherever the next token is one that may stand behind a literal.
-/
namespace AttributeExpr.Value

/-- A key and a literal behind it, with the name and the value that they stand for. -/
structure EntryPart where
  key : Symbol
  name : String
  symbols : List Symbol
  value : Value

namespace EntryPart

def spelled (part : EntryPart) : List Symbol := part.key :: .mark .colon :: part.symbols

def entry (part : EntryPart) : String × Value := (part.name, part.value)

end EntryPart

/-- Parts between commas. -/
def separated (parts : List (List Symbol)) : List Symbol := [.mark .comma].intercalate parts

/-- Parts between commas and delimiters. -/
def enclosed (bracket : Bracket) (parts : List (List Symbol)) : List Symbol :=
  .mark (.opening bracket) :: (separated parts ++ [.mark (.closing bracket)])

/-- The symbols are a literal for the value. -/
inductive Derives : List Symbol → Value → Prop where
  | scalar {symbol : Symbol} {value : Value} (h : ofSymbol? symbol = some value) :
      Derives [symbol] value
  | list (parts : List (List Symbol × Value)) (h : ∀ part ∈ parts, Derives part.1 part.2) :
      Derives (enclosed .square (parts.map (·.1))) (list (parts.map (·.2)))
  | map (parts : List EntryPart) (keys : ∀ part ∈ parts, keyText? part.key = some part.name)
      (h : ∀ part ∈ parts, Derives part.symbols part.value)
      (distinct : (parts.map (·.name)).Nodup) :
      Derives (enclosed .brace (parts.map (·.spelled))) (map (parts.map (·.entry)))
  | set (parts : List (List Symbol × Value)) {value : Value}
      (h : ∀ part ∈ parts, Derives part.1 part.2) (forms : IsSetOf (parts.map (·.2)) value) :
      Derives (enclosed .set (parts.map (·.1))) value

theorem not_isBracket_of_ofSymbol? {symbol : Symbol} {value : Value}
    (h : ofSymbol? symbol = some value) : ¬ Nesting.IsBracket symbol := by
  rintro ⟨bracket, rfl | rfl⟩ <;> contradiction

theorem not_isBracket_of_keyText? {symbol : Symbol} {key : String}
    (h : keyText? symbol = some key) : ¬ Nesting.IsBracket symbol := by
  rintro ⟨bracket, rfl | rfl⟩ <;> contradiction

theorem not_isBracket_comma : ¬ Nesting.IsBracket (.mark .comma) := by
  rintro ⟨bracket, h | h⟩ <;> cases h

theorem not_isBracket_colon : ¬ Nesting.IsBracket (.mark .colon) := by
  rintro ⟨bracket, h | h⟩ <;> cases h

theorem commasInside_enclosed (bracket : Bracket) {parts : List (List Symbol)}
    (h : ∀ part ∈ parts, Nesting.WellNested part) :
    Nesting.CommasInside (enclosed bracket parts) :=
  .enclose bracket (.intercalate not_isBracket_comma h)

/-- The delimiters of a literal match, and its commas stand between them. -/
theorem Derives.commasInside {symbols : List Symbol} {value : Value} (h : Derives symbols value) :
    Nesting.CommasInside symbols := by
  induction h with
  | scalar h =>
    refine .plain (not_isBracket_of_ofSymbol? h) ?_ .nil
    rintro rfl
    contradiction
  | list _ _ ih =>
    exact commasInside_enclosed _
      (List.forall_mem_map.mpr fun part hpart => (ih part hpart).wellNested)
  | map _ keys _ _ ih =>
    apply commasInside_enclosed
    rw [List.forall_mem_map]
    intro part hpart
    exact .plain (not_isBracket_of_keyText? (keys part hpart))
      (.plain not_isBracket_colon (ih part hpart).wellNested)
  | set _ _ _ ih =>
    exact commasInside_enclosed _
      (List.forall_mem_map.mpr fun part hpart => (ih part hpart).wellNested)

theorem Derives.wellNested {symbols : List Symbol} {value : Value} (h : Derives symbols value) :
    Nesting.WellNested symbols :=
  h.commasInside.wellNested

/-- No literal begins with a closing delimiter. -/
theorem Derives.head {symbols : List Symbol} {value : Value} (h : Derives symbols value) :
    ∃ first rest, symbols = first :: rest ∧ ∀ bracket, first ≠ .mark (.closing bracket) := by
  cases h with
  | @scalar symbol _ h =>
    exact ⟨symbol, [], rfl, fun b hb => not_isBracket_of_ofSymbol? h ⟨b, .inr hb⟩⟩
  | list => exact ⟨_, _, rfl, by simp⟩
  | map => exact ⟨_, _, rfl, by simp⟩
  | set => exact ⟨_, _, rfl, by simp⟩

theorem separated_cons (part : List Symbol) {parts : List (List Symbol)} (h : parts ≠ []) :
    separated (part :: parts) = part ++ .mark .comma :: separated parts := by
  rw [separated, List.intercalate_cons_of_ne_nil h]
  simp [separated]

theorem separated_head (parts : List (List Symbol)) {part : List Symbol} {first : Symbol}
    {rest : List Symbol} (h : part = first :: rest) :
    ∃ rest, separated (part :: parts) = first :: rest := by
  subst h
  cases parts with
  | nil => exact ⟨rest, by simp [separated]⟩
  | cons next parts =>
    rw [separated_cons _ (by simp)]
    exact ⟨_, rfl⟩

theorem mem_separated {parts : List (List Symbol)} {symbol : Symbol}
    (h : symbol ∈ separated parts) : symbol = .mark .comma ∨ ∃ part ∈ parts, symbol ∈ part := by
  induction parts with
  | nil => contradiction
  | cons part parts ih =>
    rcases eq_or_ne parts [] with rfl | hparts
    · exact .inr ⟨part, by simp, by simpa [separated] using h⟩
    rw [separated_cons _ hparts] at h
    rcases List.mem_append.mp h with hmem | hmem
    · exact .inr ⟨part, by simp, hmem⟩
    rcases List.mem_cons.mp hmem with rfl | hmem
    · exact .inl rfl
    · exact (ih hmem).imp_right fun ⟨next, hnext, hmem⟩ => ⟨next, by simp [hnext], hmem⟩

/-- No parenthesis stands in a literal. -/
theorem Derives.paren_notMem {symbols : List Symbol} {value : Value} (h : Derives symbols value) :
    .mark (.opening .paren) ∉ symbols := by
  have henclosed {bracket : Bracket} (hb : bracket ≠ .paren) {parts : List (List Symbol)}
      (h : ∀ part ∈ parts, Symbol.mark (.opening .paren) ∉ part) :
      .mark (.opening .paren) ∉ enclosed bracket parts := by
    intro hmem
    simp only [enclosed, List.mem_cons, List.mem_append, Symbol.mark.injEq, Mark.opening.injEq,
      reduceCtorEq, List.not_mem_nil, or_false] at hmem
    rcases hmem with heq | hmem
    · exact hb heq.symm
    · rcases mem_separated hmem with heq | ⟨part, hpart, hmem⟩
      · contradiction
      · exact h part hpart hmem
  induction h with
  | scalar h =>
    intro hmem
    obtain rfl := List.mem_singleton.mp hmem
    contradiction
  | list _ _ ih => exact henclosed (by simp) (List.forall_mem_map.mpr ih)
  | map _ keys _ _ ih =>
    refine henclosed (by simp) (List.forall_mem_map.mpr ?_)
    intro part hpart hmem
    simp only [EntryPart.spelled, List.mem_cons, Symbol.mark.injEq, reduceCtorEq, false_or] at hmem
    rcases hmem with heq | hmem
    · exact not_isBracket_of_keyText? (keys part hpart) ⟨.paren, .inl heq.symm⟩
    · exact ih part hpart hmem
  | set _ _ _ ih => exact henclosed (by simp) (List.forall_mem_map.mpr ih)

/-! Reading what the grammar derives. -/

section Completeness

variable {s : Surroundings}

/-- The tokens behind a literal do not keep it from being built. -/
def Admits (s : Surroundings) (rest : List Token) : Prop :=
  Reading.lookAhead s.fault s.afterLiteral rest = .ok ()

/-- Literals may stand inside literals. -/
def Nests (s : Surroundings) : Prop :=
  ∀ symbol, mayFollowLiteral symbol = true → s.afterLiteral symbol = true

theorem Nests.admits (hs : Nests s) {token : Token} (h : mayFollowLiteral token.symbol = true)
    (rest : List Token) : Admits s (token :: rest) := by
  simp [Admits, Reading.lookAhead, hs _ h]

theorem build_eq {rest : List Token} {outcome : Except Failure Value} {value : Value}
    (h : Admits s rest) (hv : outcome = .ok value) : build s outcome rest = .ok (value, rest) := by
  unfold Admits at h
  simp [build, h, hv, Except.map]

theorem readLiteral_scalar {token : Token} {value : Value}
    (h : ofSymbol? token.symbol = some value) (fuel : Nat) (rest : List Token) :
    readLiteral s (fuel + 1) (token :: rest) = .ok (value, rest) := by
  have hb := not_isBracket_of_ofSymbol? h
  rw [readLiteral.eq_def]
  dsimp only
  split
  · next hm => exact absurd ⟨_, .inl hm⟩ hb
  · next hm => exact absurd ⟨_, .inl hm⟩ hb
  · next hm => exact absurd ⟨_, .inl hm⟩ hb
  · simp [h]

/-- The item before the closing delimiter. -/
theorem readItems_last {bracket : Bracket} {fuel : Nat} {tokens rest : List Token} {close : Token}
    {item : Value} (hc : close.symbol = .mark (.closing bracket))
    (h : readLiteral s fuel tokens = .ok (item, close :: rest)) :
    readItems s bracket (fuel + 1) tokens = .ok ([item], rest) := by
  obtain ⟨symbol, position, line⟩ := close
  cases hc
  simp [readItems, h, Reading.expect, Except.map]

/-- An item before a comma. -/
theorem readItems_more {bracket : Bracket} {fuel : Nat} {tokens rest after : List Token}
    {comma : Token} {item : Value} {items : List Value} (hc : comma.symbol = .mark .comma)
    (h : readLiteral s fuel tokens = .ok (item, comma :: rest))
    (hrest : readItems s bracket fuel rest = .ok (items, after)) :
    readItems s bracket (fuel + 1) tokens = .ok (item :: items, after) := by
  obtain ⟨symbol, position, line⟩ := comma
  cases hc
  simp [readItems, h, hrest, Except.map]

theorem readEntries_last {fuel : Nat} {key colon close : Token} {tokens rest : List Token}
    {name : String} {value : Value} (hk : keyText? key.symbol = some name)
    (hcolon : colon.symbol = .mark .colon) (hc : close.symbol = .mark (.closing .brace))
    (h : readLiteral s fuel tokens = .ok (value, close :: rest)) :
    readEntries s (fuel + 1) (key :: colon :: tokens) = .ok ([(name, value)], rest) := by
  obtain ⟨symbol, position, line⟩ := close
  cases hc
  simp [readEntries, hk, hcolon, h, Reading.expect, Except.map]

theorem readEntries_more {fuel : Nat} {key colon comma : Token} {tokens rest after : List Token}
    {name : String} {value : Value} {entries : List (String × Value)}
    (hk : keyText? key.symbol = some name) (hcolon : colon.symbol = .mark .colon)
    (hc : comma.symbol = .mark .comma)
    (h : readLiteral s fuel tokens = .ok (value, comma :: rest))
    (hrest : readEntries s fuel rest = .ok (entries, after)) :
    readEntries s (fuel + 1) (key :: colon :: tokens) = .ok ((name, value) :: entries, after) := by
  obtain ⟨symbol, position, line⟩ := comma
  cases hc
  simp [readEntries, hk, hcolon, h, hrest, Reading.expect, Except.map]

/-- A part is read wherever a literal may end behind it. -/
def Reads (s : Surroundings) (symbols : List Symbol) (value : Value) : Prop :=
  ∀ ⦃tokens rest : List Token⦄ ⦃fuel : Nat⦄, tokens.map (·.symbol) = symbols → Admits s rest →
    2 * tokens.length ≤ fuel → readLiteral s fuel (tokens ++ rest) = .ok (value, rest)

theorem readItems_separated (hs : Nests s) {bracket : Bracket} (hb : bracket ≠ .paren)
    {parts : List (List Symbol × Value)} (nonempty : parts ≠ [])
    (h : ∀ part ∈ parts, Reads s part.1 part.2) {tokens : List Token} {close : Token}
    {fuel : Nat} (ht : tokens.map (·.symbol) = separated (parts.map (·.1)))
    (hc : close.symbol = .mark (.closing bracket)) (hf : 2 * tokens.length + 1 ≤ fuel)
    (rest : List Token) :
    readItems s bracket fuel (tokens ++ close :: rest) = .ok (parts.map (·.2), rest) := by
  induction parts generalizing tokens fuel with
  | nil => contradiction
  | cons part parts ih =>
    obtain ⟨hpart, hparts⟩ := List.forall_mem_cons.mp h
    obtain ⟨fuel, rfl⟩ : ∃ k, fuel = k + 1 := ⟨fuel - 1, by omega⟩
    cases parts with
    | nil =>
      have hclose : mayFollowLiteral close.symbol = true := by
        rw [hc]
        cases bracket <;> first | contradiction | rfl
      have ht' : tokens.map (·.symbol) = part.1 := by simpa [separated] using ht
      exact readItems_last hc (hpart ht' (hs.admits hclose rest) (by omega))
    | cons next parts =>
      rw [List.map_cons, separated_cons _ (by simp)] at ht
      obtain ⟨first, tail, rfl, hfirst, htail⟩ := List.map_eq_append_iff.mp ht
      obtain ⟨comma, behind, rfl, hcomma, hbehind⟩ := List.map_eq_cons_iff.mp htail
      simp only [List.length_append, List.length_cons] at hf
      rw [List.append_assoc, List.cons_append]
      refine readItems_more hcomma (hpart hfirst (hs.admits ?_ _) (by omega)) ?_
      · rw [hcomma]; rfl
      · exact ih (by simp) hparts hbehind (by omega)

theorem readEntries_separated (hs : Nests s) {parts : List EntryPart} (nonempty : parts ≠ [])
    (keys : ∀ part ∈ parts, keyText? part.key = some part.name)
    (h : ∀ part ∈ parts, Reads s part.symbols part.value) {tokens : List Token}
    {close : Token} {fuel : Nat}
    (ht : tokens.map (·.symbol) = separated (parts.map (·.spelled)))
    (hc : close.symbol = .mark (.closing .brace)) (hf : 2 * tokens.length + 1 ≤ fuel)
    (rest : List Token) :
    readEntries s fuel (tokens ++ close :: rest) = .ok (parts.map (·.entry), rest) := by
  induction parts generalizing tokens fuel with
  | nil => contradiction
  | cons part parts ih =>
    obtain ⟨hkey, hkeys⟩ := List.forall_mem_cons.mp keys
    obtain ⟨hpart, hparts⟩ := List.forall_mem_cons.mp h
    obtain ⟨fuel, rfl⟩ : ∃ k, fuel = k + 1 := ⟨fuel - 1, by omega⟩
    cases parts with
    | nil =>
      have ht' : tokens.map (·.symbol) = part.spelled := by simpa [separated] using ht
      obtain ⟨key, tail, rfl, hk, htail⟩ := List.map_eq_cons_iff.mp ht'
      obtain ⟨colon, value, rfl, hcolon, hvalue⟩ := List.map_eq_cons_iff.mp htail
      simp only [List.length_cons] at hf
      have hclose : mayFollowLiteral close.symbol = true := by rw [hc]; rfl
      exact readEntries_last (by rw [hk, hkey]) hcolon hc
        (hpart hvalue (hs.admits hclose rest) (by omega))
    | cons next parts =>
      rw [List.map_cons, separated_cons _ (by simp)] at ht
      obtain ⟨first, tail, rfl, hfirst, htail⟩ := List.map_eq_append_iff.mp ht
      obtain ⟨comma, behind, rfl, hcomma, hbehind⟩ := List.map_eq_cons_iff.mp htail
      obtain ⟨key, tail, rfl, hk, htail⟩ := List.map_eq_cons_iff.mp hfirst
      obtain ⟨colon, value, rfl, hcolon, hvalue⟩ := List.map_eq_cons_iff.mp htail
      simp only [List.length_append, List.length_cons] at hf
      rw [List.append_assoc, List.cons_append, List.cons_append, List.cons_append]
      refine readEntries_more (by rw [hk, hkey]) hcolon hcomma
        (hpart hvalue (hs.admits ?_ _) (by omega)) ?_
      · rw [hcomma]; rfl
      · exact ih (by simp) hkeys hparts hbehind (by omega)

theorem readLiteral_list {fuel : Nat} {first second : Token} {tokens rest : List Token}
    {items : List Value} (hopen : first.symbol = .mark (.opening .square))
    (hsecond : second.symbol ≠ .mark (.closing .square))
    (h : readItems s .square fuel (second :: tokens) = .ok (items, rest)) :
    readLiteral s (fuel + 1) (first :: second :: tokens) = .ok (list items, rest) := by
  obtain ⟨symbol, position, line⟩ := second
  rw [readLiteral.eq_def]
  simp only [hopen]
  split
  · next heq => simp_all
  · simp [h, Except.map]

theorem readLiteral_map {fuel : Nat} {first second : Token} {tokens rest : List Token}
    {entries : List (String × Value)} (hopen : first.symbol = .mark (.opening .brace))
    (hsecond : second.symbol ≠ .mark (.closing .brace)) (hrest : Admits s rest)
    (distinct : (entries.map (·.1)).Nodup)
    (h : readEntries s fuel (second :: tokens) = .ok (entries, rest)) :
    readLiteral s (fuel + 1) (first :: second :: tokens) = .ok (map entries, rest) := by
  have hmap : mapOf first.position entries = .ok (map entries) := by
    rw [mapOf, (firstRepeat?_eq_none_iff _ _).mpr ⟨distinct, by simp⟩]
  obtain ⟨symbol, position, line⟩ := second
  rw [readLiteral.eq_def]
  simp only [hopen]
  split
  · next heq => simp_all
  · rw [h]
    exact build_eq hrest hmap

theorem readLiteral_set {fuel : Nat} {first second : Token} {tokens rest : List Token}
    {items : List Value} {value : Value} (hopen : first.symbol = .mark (.opening .set))
    (hsecond : second.symbol ≠ .mark (.closing .set)) (hrest : Admits s rest)
    (forms : IsSetOf items value)
    (h : readItems s .set fuel (second :: tokens) = .ok (items, rest)) :
    readLiteral s (fuel + 1) (first :: second :: tokens) = .ok (value, rest) := by
  obtain ⟨symbol, position, line⟩ := second
  rw [readLiteral.eq_def]
  simp only [hopen]
  split
  · next heq => simp_all
  · rw [h]
    exact build_eq hrest (setOf_eq_ok_iff.mpr forms)

theorem readLiteral_emptyList {fuel : Nat} {first last : Token} {rest : List Token}
    (hopen : first.symbol = .mark (.opening .square))
    (hclose : last.symbol = .mark (.closing .square)) :
    readLiteral s (fuel + 1) (first :: last :: rest) = .ok (list [], rest) := by
  obtain ⟨symbol, position, line⟩ := last
  cases hclose
  rw [readLiteral.eq_def]
  simp only [hopen]

theorem readLiteral_emptyMap {fuel : Nat} {first last : Token} {rest : List Token}
    (hopen : first.symbol = .mark (.opening .brace))
    (hclose : last.symbol = .mark (.closing .brace)) :
    readLiteral s (fuel + 1) (first :: last :: rest) = .ok (map [], rest) := by
  obtain ⟨symbol, position, line⟩ := last
  cases hclose
  rw [readLiteral.eq_def]
  simp only [hopen]

/-- Tokens between delimiters. Fuel for all of them leaves enough for those inside. -/
theorem tokens_enclosed {bracket : Bracket} {tokens : List Token} {parts : List (List Symbol)}
    {fuel : Nat} (h : tokens.map (·.symbol) = enclosed bracket parts)
    (hf : 2 * tokens.length ≤ fuel) :
    ∃ first inside last less, tokens = first :: (inside ++ [last]) ∧
      first.symbol = .mark (.opening bracket) ∧ inside.map (·.symbol) = separated parts ∧
      last.symbol = .mark (.closing bracket) ∧ fuel = less + 1 ∧ 2 * inside.length + 1 ≤ less := by
  obtain ⟨first, tail, rfl, hopen, htail⟩ := List.map_eq_cons_iff.mp h
  obtain ⟨inside, last, rfl, hinside, hlast⟩ := List.map_eq_append_iff.mp htail
  obtain ⟨last, rest, rfl, hclose, hrest⟩ := List.map_eq_cons_iff.mp hlast
  obtain rfl := List.map_eq_nil_iff.mp hrest
  simp only [List.length_cons, List.length_append, List.length_nil] at hf
  exact ⟨first, inside, last, fuel - 1, rfl, hopen, hinside, hclose, by omega, by omega⟩

/-- The first token between delimiters does not close them, if the first part does not begin with a
closing delimiter. -/
theorem tokens_separated {tokens : List Token} {part : List Symbol} {parts : List (List Symbol)}
    (hpart : ∃ first rest, part = first :: rest ∧ ∀ bracket, first ≠ .mark (.closing bracket))
    (h : tokens.map (·.symbol) = separated (part :: parts)) :
    ∃ first rest, tokens = first :: rest ∧ ∀ bracket, first.symbol ≠ .mark (.closing bracket) := by
  obtain ⟨symbol, rest, hcons, hsymbol⟩ := hpart
  obtain ⟨behind, hbehind⟩ := separated_head parts hcons
  obtain ⟨first, tail, rfl, hfirst, -⟩ := List.map_eq_cons_iff.mp (h.trans hbehind)
  exact ⟨first, tail, rfl, hfirst ▸ hsymbol⟩

theorem key_head {part : EntryPart} (h : keyText? part.key = some part.name) :
    ∃ first rest, part.spelled = first :: rest ∧ ∀ bracket, first ≠ .mark (.closing bracket) :=
  ⟨_, _, rfl, fun b hb => not_isBracket_of_keyText? h ⟨b, .inr hb⟩⟩

/-- The reader reads what the grammar derives. -/
theorem Derives.reads (hs : Nests s) {symbols : List Symbol} {value : Value}
    (h : Derives symbols value) : Reads s symbols value := by
  induction h with
  | scalar h =>
    intro tokens rest fuel ht _ hf
    obtain ⟨token, tail, rfl, hsymbol, htail⟩ := List.map_eq_cons_iff.mp ht
    obtain rfl := List.map_eq_nil_iff.mp htail
    obtain ⟨fuel, rfl⟩ : ∃ k, fuel = k + 1 := ⟨fuel - 1, by simp at hf; omega⟩
    exact readLiteral_scalar (by rwa [hsymbol]) fuel rest
  | list parts h ih =>
    intro tokens rest fuel ht _ hf
    obtain ⟨first, inside, last, less, rfl, hopen, hinside, hclose, rfl, hless⟩ :=
      tokens_enclosed ht hf
    cases parts with
    | nil =>
      obtain rfl : inside = [] := by simpa [separated] using hinside
      exact readLiteral_emptyList hopen hclose
    | cons part parts =>
      have hread := readItems_separated hs (by simp) (by simp) ih hinside hclose hless rest
      obtain ⟨second, behind, rfl, hsecond⟩ := tokens_separated (h part (by simp)).head hinside
      simpa using readLiteral_list hopen (hsecond .square) hread
  | map parts keys h distinct ih =>
    intro tokens rest fuel ht hrest hf
    obtain ⟨first, inside, last, less, rfl, hopen, hinside, hclose, rfl, hless⟩ :=
      tokens_enclosed ht hf
    cases parts with
    | nil =>
      obtain rfl : inside = [] := by simpa [separated] using hinside
      exact readLiteral_emptyMap hopen hclose
    | cons part parts =>
      have hread := readEntries_separated hs (by simp) keys ih hinside hclose hless rest
      obtain ⟨second, behind, rfl, hsecond⟩ :=
        tokens_separated (key_head (keys part (by simp))) hinside
      have hkeys : (((part :: parts).map (·.entry)).map (·.1)).Nodup := by
        simpa [EntryPart.entry, Function.comp_def] using distinct
      simpa using readLiteral_map hopen (hsecond .brace) hrest hkeys hread
  | @set parts value h forms ih =>
    intro tokens rest fuel ht hrest hf
    obtain ⟨first, inside, last, less, rfl, hopen, hinside, hclose, rfl, hless⟩ :=
      tokens_enclosed ht hf
    cases parts with
    | nil => exact absurd rfl forms.ne_nil
    | cons part parts =>
      have hread := readItems_separated hs (by simp) (by simp) ih hinside hclose hless rest
      obtain ⟨second, behind, rfl, hsecond⟩ := tokens_separated (h part (by simp)).head hinside
      simpa using readLiteral_set hopen (hsecond .set) hrest forms hread

theorem Derives.read (hs : Nests s) {symbols : List Symbol} {value : Value}
    (h : Derives symbols value) {tokens rest : List Token} (ht : tokens.map (·.symbol) = symbols)
    (hrest : Admits s rest) : read s (tokens ++ rest) = .ok (value, rest) :=
  h.reads hs ht hrest (by simp [fuelFor]; omega)

end Completeness

/-- Tokens that are a literal are parsed as its value. -/
theorem parse_of_scan {text : String} {tokens : List Token} {line : Nat} {value : Value}
    (scan : scanNested text = ⟨tokens, none, line⟩) (h : Derives (tokens.map (·.symbol)) value) :
    parse text = .ok value := by
  have hread : read ⟨none, mayFollowLiteral, fun _ => false⟩ (tokens ++ []) = .ok (value, []) :=
    h.read (fun _ hm => hm) rfl rfl
  rw [List.append_nil] at hread
  rw [parse, scan, ofScan, Reading.complete, hread]
  rfl

/-- A text that spells a literal is parsed as its value. -/
theorem parse_of_spells {text : String} {symbols : List Symbol} {value : Value}
    (spells : Lexer.Spells false text.toList symbols) (h : Derives symbols value) :
    parse text = .ok value := by
  obtain ⟨tokens, line, hscan, rfl⟩ := scanNested_of_spells spells h.wellNested
  exact parse_of_scan hscan h

end AttributeExpr.Value
