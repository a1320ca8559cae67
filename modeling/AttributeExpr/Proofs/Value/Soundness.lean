import AttributeExpr.Proofs.Token.Reading
import AttributeExpr.Proofs.Value.Grammar
import AttributeExpr.Proofs.Value.WellFormed
/-!
What the reader of literals accepts is derived by the grammar. Each reader is inverted once, into
what its success says about the tokens in front and the readers it calls, and the derivation is
built from that by induction on the fuel.
-/
namespace AttributeExpr.Value

variable {s : Surroundings} {fuel : Nat} {tokens rest : List Token}

theorem build_eq_ok {outcome : Except Failure Value} {value : Value}
    (h : build s outcome tokens = .ok (value, rest)) : outcome = .ok value ∧ tokens = rest := by
  unfold build at h
  split at h
  · contradiction
  · obtain ⟨v, hv, heq⟩ := map_eq_ok_iff.mp h
    obtain ⟨rfl, rfl⟩ := Prod.mk.inj heq
    exact ⟨hv, rfl⟩

theorem mapOf_eq_ok {position : Nat} {entries : List (String × Value)} {value : Value}
    (h : mapOf position entries = .ok value) :
    (entries.map (·.1)).Nodup ∧ map entries = value := by
  unfold mapOf at h
  split at h
  · contradiction
  · next hnone => exact ⟨((firstRepeat?_eq_none_iff _ _).mp hnone).1, Except.ok.inj h⟩

/-- An item stands before a comma and more items, or before the closing delimiter. -/
theorem readItems_eq_ok {bracket : Bracket} {items : List Value}
    (h : readItems s bracket (fuel + 1) tokens = .ok (items, rest)) :
    ∃ item next behind, readLiteral s fuel tokens = .ok (item, next :: behind) ∧
      ((next.symbol = .mark .comma ∧ ∃ more,
          readItems s bracket fuel behind = .ok (more, rest) ∧ items = item :: more) ∨
        (next.symbol = .mark (.closing bracket) ∧ behind = rest ∧ items = [item])) := by
  rw [readItems] at h
  split at h
  · contradiction
  · next item position line behind hread =>
    obtain ⟨⟨more, rest'⟩, hmore, heq⟩ := map_eq_ok_iff.mp h
    obtain ⟨rfl, rfl⟩ := Prod.mk.inj heq
    exact ⟨item, _, behind, hread, .inl ⟨rfl, more, hmore, rfl⟩⟩
  · next item behind _ hread =>
    obtain ⟨rest', hclose, heq⟩ := map_eq_ok_iff.mp h
    obtain ⟨rfl, rfl⟩ := Prod.mk.inj heq
    obtain ⟨close, rfl, hsymbol⟩ := Reading.expect_eq_ok hclose
    exact ⟨item, close, rest', hread, .inr ⟨hsymbol, rfl, rfl⟩⟩

/-- A key, a colon and a value stand before a comma and more entries, or before the closing
brace. -/
theorem readEntries_eq_ok {entries : List (String × Value)}
    (h : readEntries s (fuel + 1) tokens = .ok (entries, rest)) :
    ∃ key name colon after value next behind, tokens = key :: colon :: after ∧
      keyText? key.symbol = some name ∧ colon.symbol = .mark .colon ∧
      readLiteral s fuel after = .ok (value, next :: behind) ∧
      ((next.symbol = .mark .comma ∧ ∃ more,
          readEntries s fuel behind = .ok (more, rest) ∧ entries = (name, value) :: more) ∨
        (next.symbol = .mark (.closing .brace) ∧ behind = rest ∧ entries = [(name, value)])) := by
  rw [readEntries.eq_def] at h
  split at h
  · simp at h
  · simp at h
  next key after heq =>
  obtain rfl := Nat.succ.inj heq
  split at h
  · simp at h
  next name hname =>
  split at h
  · contradiction
  next after' hcolon =>
  obtain ⟨colon, rfl, hsymbol⟩ := Reading.expect_eq_ok hcolon
  split at h
  · contradiction
  · next value position line behind hread =>
    obtain ⟨⟨more, rest'⟩, hmore, heq⟩ := map_eq_ok_iff.mp h
    obtain ⟨rfl, rfl⟩ := Prod.mk.inj heq
    exact ⟨key, name, colon, after', value, _, behind, rfl, hname, hsymbol, hread,
      .inl ⟨rfl, more, hmore, rfl⟩⟩
  · next value behind _ hread =>
    obtain ⟨rest', hclose, heq⟩ := map_eq_ok_iff.mp h
    obtain ⟨rfl, rfl⟩ := Prod.mk.inj heq
    obtain ⟨close, rfl, hclosing⟩ := Reading.expect_eq_ok hclose
    exact ⟨key, name, colon, after', value, close, rest', rfl, hname, hsymbol, hread,
      .inr ⟨hclosing, rfl, rfl⟩⟩

/-- What the symbol at the front says about a literal. -/
theorem readLiteral_eq_ok {value : Value}
    (h : readLiteral s (fuel + 1) tokens = .ok (value, rest)) :
    ∃ first after, tokens = first :: after ∧
      ((ofSymbol? first.symbol = some value ∧ after = rest) ∨
        (first.symbol = .mark (.opening .square) ∧
          ((∃ close, after = close :: rest ∧ close.symbol = .mark (.closing .square) ∧
              value = list []) ∨
            ∃ items, readItems s .square fuel after = .ok (items, rest) ∧ value = list items)) ∨
        (first.symbol = .mark (.opening .brace) ∧
          ((∃ close, after = close :: rest ∧ close.symbol = .mark (.closing .brace) ∧
              value = map []) ∨
            ∃ entries, readEntries s fuel after = .ok (entries, rest) ∧
              (entries.map (·.1)).Nodup ∧ value = map entries)) ∨
        (first.symbol = .mark (.opening .set) ∧
          ∃ items, readItems s .set fuel after = .ok (items, rest) ∧ IsSetOf items value)) := by
  rw [readLiteral.eq_def] at h
  split at h
  · simp at h
  · simp at h
  next first after heq =>
  obtain rfl := Nat.succ.inj heq
  refine ⟨first, after, rfl, ?_⟩
  split at h
  · next hsymbol =>
    refine .inr (.inl ⟨hsymbol, ?_⟩)
    split at h
    · obtain ⟨rfl, rfl⟩ := Prod.mk.inj (Except.ok.inj h)
      exact .inl ⟨_, rfl, rfl, rfl⟩
    · obtain ⟨⟨items, rest'⟩, hitems, heq⟩ := map_eq_ok_iff.mp h
      obtain ⟨rfl, rfl⟩ := Prod.mk.inj heq
      exact .inr ⟨items, hitems, rfl⟩
  · next hsymbol =>
    refine .inr (.inr (.inl ⟨hsymbol, ?_⟩))
    split at h
    · obtain ⟨rfl, rfl⟩ := Prod.mk.inj (Except.ok.inj h)
      exact .inl ⟨_, rfl, rfl, rfl⟩
    · split at h
      · contradiction
      next entries behind hentries =>
      obtain ⟨hmap, rfl⟩ := build_eq_ok h
      obtain ⟨distinct, rfl⟩ := mapOf_eq_ok hmap
      exact .inr ⟨entries, hentries, distinct, rfl⟩
  · next hsymbol =>
    refine .inr (.inr (.inr ⟨hsymbol, ?_⟩))
    split at h
    · have hempty := setOf_eq_ok_iff.mp (build_eq_ok h).1
      exact absurd rfl hempty.ne_nil
    · split at h
      · contradiction
      next items behind hitems =>
      obtain ⟨hset, rfl⟩ := build_eq_ok h
      exact ⟨items, hitems, setOf_eq_ok_iff.mp hset⟩
  · split at h
    · next v hv =>
      obtain ⟨rfl, rfl⟩ := Prod.mk.inj (Except.ok.inj h)
      exact .inl ⟨hv, rfl⟩
    · simp at h

/-- The tokens in front of `rest` are a literal for the value. -/
def Reached (tokens rest : List Token) (value : Value) : Prop :=
  ∃ front, tokens = front ++ rest ∧ Derives (front.map (·.symbol)) value

/-- The tokens in front of `rest` are items and the closing delimiter. -/
def ItemsReached (bracket : Bracket) (tokens rest : List Token) (items : List Value) : Prop :=
  ∃ front close, ∃ parts : List (List Symbol × Value), tokens = front ++ close :: rest ∧
    close.symbol = .mark (.closing bracket) ∧ parts ≠ [] ∧
    front.map (·.symbol) = separated (parts.map (·.1)) ∧
    (∀ part ∈ parts, Derives part.1 part.2) ∧ items = parts.map (·.2)

/-- The tokens in front of `rest` are the entries of a map and the closing brace. -/
def EntriesReached (tokens rest : List Token) (entries : List (String × Value)) : Prop :=
  ∃ front close, ∃ parts : List EntryPart, tokens = front ++ close :: rest ∧
    close.symbol = .mark (.closing .brace) ∧ parts ≠ [] ∧
    front.map (·.symbol) = separated (parts.map (·.spelled)) ∧
    (∀ part ∈ parts, keyText? part.key = some part.name) ∧
    (∀ part ∈ parts, Derives part.symbols part.value) ∧ entries = parts.map (·.entry)

theorem ItemsReached.single {bracket : Bracket} {item : Value} {close : Token}
    (h : Reached tokens (close :: rest) item) (hc : close.symbol = .mark (.closing bracket)) :
    ItemsReached bracket tokens rest [item] := by
  obtain ⟨front, rfl, hfront⟩ := h
  exact ⟨front, close, [(front.map (·.symbol), item)], rfl, hc, by simp, by simp [separated],
    by simpa using hfront, rfl⟩

theorem ItemsReached.cons {bracket : Bracket} {item : Value} {items : List Value} {comma : Token}
    {behind : List Token} (h : Reached tokens (comma :: behind) item)
    (hc : comma.symbol = .mark .comma) (hmore : ItemsReached bracket behind rest items) :
    ItemsReached bracket tokens rest (item :: items) := by
  obtain ⟨front, rfl, hfront⟩ := h
  obtain ⟨more, close, parts, rfl, hclose, nonempty, hmore, hparts, rfl⟩ := hmore
  refine ⟨front ++ comma :: more, close, (front.map (·.symbol), item) :: parts, by simp, hclose,
    by simp, ?_, List.forall_mem_cons.mpr ⟨hfront, hparts⟩, rfl⟩
  rw [List.map_cons, separated_cons _ (by simpa using nonempty)]
  simp [hc, hmore]

theorem EntriesReached.single {name : String} {value : Value} {key colon close : Token}
    (hk : keyText? key.symbol = some name) (hcolon : colon.symbol = .mark .colon)
    (h : Reached tokens (close :: rest) value) (hc : close.symbol = .mark (.closing .brace)) :
    EntriesReached (key :: colon :: tokens) rest [(name, value)] := by
  obtain ⟨front, rfl, hfront⟩ := h
  exact ⟨key :: colon :: front, close, [⟨key.symbol, name, front.map (·.symbol), value⟩], rfl, hc,
    by simp, by simp [separated, EntryPart.spelled, hcolon], by simpa using hk,
    by simpa using hfront, rfl⟩

theorem EntriesReached.cons {name : String} {value : Value} {entries : List (String × Value)}
    {key colon comma : Token} {behind : List Token} (hk : keyText? key.symbol = some name)
    (hcolon : colon.symbol = .mark .colon) (h : Reached tokens (comma :: behind) value)
    (hc : comma.symbol = .mark .comma) (hmore : EntriesReached behind rest entries) :
    EntriesReached (key :: colon :: tokens) rest ((name, value) :: entries) := by
  obtain ⟨front, rfl, hfront⟩ := h
  obtain ⟨more, close, parts, rfl, hclose, nonempty, hmore, hkeys, hparts, rfl⟩ := hmore
  refine ⟨key :: colon :: (front ++ comma :: more), close,
    ⟨key.symbol, name, front.map (·.symbol), value⟩ :: parts, by simp, hclose, by simp, ?_,
    List.forall_mem_cons.mpr ⟨hk, hkeys⟩, List.forall_mem_cons.mpr ⟨hfront, hparts⟩, rfl⟩
  simp only [List.map_cons]
  rw [separated_cons _ (by simpa using nonempty)]
  simp [EntryPart.spelled, hcolon, hc, hmore]

theorem reached_single {token : Token} {value : Value} (h : ofSymbol? token.symbol = some value)
    (rest : List Token) : Reached (token :: rest) rest value :=
  ⟨[token], rfl, .scalar h⟩

theorem reached_list {first : Token} {items : List Value}
    (hopen : first.symbol = .mark (.opening .square))
    (h : ItemsReached .square tokens rest items) : Reached (first :: tokens) rest (list items) := by
  obtain ⟨front, close, parts, rfl, hclose, -, hfront, hparts, rfl⟩ := h
  refine ⟨first :: (front ++ [close]), by simp, ?_⟩
  simpa [enclosed, hopen, hclose, hfront] using Derives.list _ hparts

theorem reached_map {first : Token} {entries : List (String × Value)}
    (hopen : first.symbol = .mark (.opening .brace)) (distinct : (entries.map (·.1)).Nodup)
    (h : EntriesReached tokens rest entries) : Reached (first :: tokens) rest (map entries) := by
  obtain ⟨front, close, parts, rfl, hclose, -, hfront, hkeys, hparts, rfl⟩ := h
  refine ⟨first :: (front ++ [close]), by simp, ?_⟩
  have hnames : (parts.map (·.name)).Nodup := by
    simpa [EntryPart.entry, Function.comp_def] using distinct
  simpa [enclosed, hopen, hclose, hfront] using Derives.map _ hkeys hparts hnames

theorem reached_set {first : Token} {items : List Value} {value : Value}
    (hopen : first.symbol = .mark (.opening .set)) (forms : IsSetOf items value)
    (h : ItemsReached .set tokens rest items) : Reached (first :: tokens) rest value := by
  obtain ⟨front, close, parts, rfl, hclose, -, hfront, hparts, rfl⟩ := h
  refine ⟨first :: (front ++ [close]), by simp, ?_⟩
  simpa [enclosed, hopen, hclose, hfront] using Derives.set _ hparts forms

/-- The three readers call each other with less fuel, so their soundness is one induction. -/
theorem readers_sound (s : Surroundings) (fuel : Nat) :
    (∀ tokens value rest, readLiteral s fuel tokens = .ok (value, rest) →
        Reached tokens rest value) ∧
      (∀ bracket tokens items rest, readItems s bracket fuel tokens = .ok (items, rest) →
        ItemsReached bracket tokens rest items) ∧
      ∀ tokens entries rest, readEntries s fuel tokens = .ok (entries, rest) →
        EntriesReached tokens rest entries := by
  induction fuel with
  | zero =>
    refine ⟨?_, ?_, ?_⟩
    · intro tokens value rest h
      simp [readLiteral] at h
    · intro bracket tokens items rest h
      simp [readItems] at h
    · intro tokens entries rest h
      simp [readEntries] at h
  | succ fuel ih =>
    obtain ⟨ihLiteral, ihItems, ihEntries⟩ := ih
    refine ⟨?_, ?_, ?_⟩
    · intro tokens value rest h
      obtain ⟨first, after, rfl, hcases⟩ := readLiteral_eq_ok h
      rcases hcases with ⟨hv, rfl⟩ | ⟨hopen, hlist⟩ | ⟨hopen, hmap⟩ | ⟨hopen, items, hset, forms⟩
      · exact reached_single hv after
      · rcases hlist with ⟨close, rfl, hclose, rfl⟩ | ⟨items, hitems, rfl⟩
        · have hderives := Derives.list [] (by simp)
          exact ⟨[first, close], rfl, by simpa [enclosed, separated, hopen, hclose] using hderives⟩
        · exact reached_list hopen (ihItems _ _ _ _ hitems)
      · rcases hmap with ⟨close, rfl, hclose, rfl⟩ | ⟨entries, hentries, distinct, rfl⟩
        · have hderives := Derives.map [] (by simp) (by simp) (by simp)
          exact ⟨[first, close], rfl, by simpa [enclosed, separated, hopen, hclose] using hderives⟩
        · exact reached_map hopen distinct (ihEntries _ _ _ hentries)
      · exact reached_set hopen forms (ihItems _ _ _ _ hset)
    · intro bracket tokens items rest h
      obtain ⟨item, next, behind, hitem, hnext⟩ := readItems_eq_ok h
      have hreached := ihLiteral _ _ _ hitem
      rcases hnext with ⟨hcomma, more, hmore, rfl⟩ | ⟨hclose, rfl, rfl⟩
      · exact .cons hreached hcomma (ihItems _ _ _ _ hmore)
      · exact .single hreached hclose
    · intro tokens entries rest h
      obtain ⟨key, name, colon, after, value, next, behind, rfl, hname, hcolon, hvalue, hnext⟩ :=
        readEntries_eq_ok h
      have hreached := ihLiteral _ _ _ hvalue
      rcases hnext with ⟨hcomma, more, hmore, rfl⟩ | ⟨hclose, rfl, rfl⟩
      · exact .cons hname hcolon hreached hcomma (ihEntries _ _ _ hmore)
      · exact .single hname hcolon hreached hclose

/-- What is read as a literal is one. -/
theorem read_sound {value : Value} (h : read s tokens = .ok (value, rest)) :
    Reached tokens rest value :=
  (readers_sound s _).1 _ _ _ h

theorem subset_separated {parts : List (List Symbol)} {part : List Symbol} (h : part ∈ parts) :
    part ⊆ separated parts := by
  induction parts with
  | nil => contradiction
  | cons first parts ih =>
    by_cases hempty : parts = []
    · subst hempty
      obtain rfl := List.mem_singleton.mp h
      simp [separated]
    · rw [separated_cons _ hempty]
      rcases List.mem_cons.mp h with rfl | h
      · exact List.subset_append_left _ _
      · exact List.subset_append_of_subset_right _ (List.subset_cons_of_subset _ (ih h))

theorem subset_enclosed (bracket : Bracket) {parts : List (List Symbol)} {part : List Symbol}
    (h : part ∈ parts) : part ⊆ enclosed bracket parts :=
  List.subset_cons_of_subset _ (List.subset_append_of_subset_left _ (subset_separated h))

theorem IsSetOf.wellFormed {numeral : String → Prop} {items : List Value} {value : Value}
    (h : IsSetOf items value) (hitems : ∀ item ∈ items, item.WellFormed numeral) :
    value.WellFormed numeral := by
  cases h with
  | numbers nonempty distinct =>
    refine .numberSet nonempty ?_ distinct
    intro text htext
    cases hitems (number text) (List.mem_map_of_mem htext) with
    | number h => exact h
  | strings nonempty distinct => exact .stringSet nonempty distinct
  | binaries nonempty distinct => exact .binarySet nonempty distinct

/-- A literal is well-formed if the numbers among its symbols are. -/
theorem Derives.wellFormed {numeral : String → Prop} {symbols : List Symbol} {value : Value}
    (h : Derives symbols value)
    (numbers : ∀ symbol ∈ symbols, ∀ text, symbol = .number text → numeral text) :
    value.WellFormed numeral := by
  induction h with
  | @scalar symbol value h =>
    unfold ofSymbol? at h
    split at h
    · obtain rfl := Option.some.inj h; exact .null
    · obtain rfl := Option.some.inj h; exact .bool true
    · obtain rfl := Option.some.inj h; exact .bool false
    · obtain rfl := Option.some.inj h; exact .number (numbers _ (by simp) _ rfl)
    · obtain rfl := Option.some.inj h; exact .string _
    · obtain rfl := Option.some.inj h; exact .binary _
    · contradiction
  | list parts h ih =>
    refine .list (List.forall_mem_map.mpr fun part hpart => ih part hpart ?_)
    have hsub : part.1 ⊆ enclosed .square (parts.map (·.1)) :=
      subset_enclosed _ (List.mem_map_of_mem hpart)
    exact fun symbol hsymbol => numbers symbol (hsub hsymbol)
  | map parts keys h distinct ih =>
    have hkeys : ((parts.map (·.entry)).map (·.1)).Nodup := by
      simpa [EntryPart.entry, Function.comp_def] using distinct
    refine .map hkeys (List.forall_mem_map.mpr fun part hpart => ih part hpart ?_)
    have hsub : part.spelled ⊆ enclosed .brace (parts.map (·.spelled)) :=
      subset_enclosed _ (List.mem_map_of_mem hpart)
    intro symbol hsymbol
    exact numbers symbol (hsub (by simp [EntryPart.spelled, hsymbol]))
  | set parts h forms ih =>
    refine forms.wellFormed (List.forall_mem_map.mpr fun part hpart => ih part hpart ?_)
    have hsub : part.1 ⊆ enclosed .set (parts.map (·.1)) :=
      subset_enclosed _ (List.mem_map_of_mem hpart)
    exact fun symbol hsymbol => numbers symbol (hsub hsymbol)

end AttributeExpr.Value
