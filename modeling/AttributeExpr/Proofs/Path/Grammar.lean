import AttributeExpr.Path.Parser
import AttributeExpr.Proofs.Token.Reading
/-!
The grammar of paths, and the reader of paths beside it. A path ends where neither a point nor an
opening bracket follows, and there the reader accepts exactly what the grammar derives.
-/
namespace AttributeExpr.Path

/-- A run of digits that is short enough to be a position. -/
structure IsIndex (text : String) : Prop where
  nonempty : text.toList ≠ []
  digits : ∀ c ∈ text.toList, Numeral.isDigit c = true
  short : text.toList.length ≤ Numeral.maxDigits

/-- The symbols are the segments behind the first. -/
inductive DerivesSegments : List Symbol → List Segment → Prop where
  | nil : DerivesSegments [] []
  | name {symbol : Symbol} {name : String} {symbols : List Symbol} {segments : List Segment}
      (h : nameText? symbol = some name) (rest : DerivesSegments symbols segments) :
      DerivesSegments (.mark .dot :: symbol :: symbols) (.name name :: segments)
  | index {text : String} {symbols : List Symbol} {segments : List Segment} (h : IsIndex text)
      (rest : DerivesSegments symbols segments) :
      DerivesSegments
        (.mark (.opening .square) :: .number text :: .mark (.closing .square) :: symbols)
        (.index (Decimal.ofDigits text.toList) :: segments)

inductive Derives : List Symbol → Path → Prop where
  | path {symbol : Symbol} {name : String} {symbols : List Symbol} {segments : List Segment}
      (h : nameText? symbol = some name) (rest : DerivesSegments symbols segments) :
      Derives (symbol :: symbols) (.name name :: segments)

theorem mark_mem_segments {symbols : List Symbol} {segments : List Segment}
    (h : DerivesSegments symbols segments) {mark : Mark} (hmark : .mark mark ∈ symbols) :
    mark = .dot ∨ mark = .opening .square ∨ mark = .closing .square := by
  induction h with
  | nil => contradiction
  | name hname _ ih =>
    rcases List.mem_cons.mp hmark with heq | hmem
    · exact .inl (Symbol.mark.inj heq)
    rcases List.mem_cons.mp hmem with rfl | hmem
    · contradiction
    · exact ih hmem
  | index _ _ ih =>
    simp only [List.mem_cons, Symbol.mark.injEq, reduceCtorEq, false_or] at hmark
    rcases hmark with heq | heq | hmem
    · exact .inr (.inl heq)
    · exact .inr (.inr heq)
    · exact ih hmem

/-- The only marks in a path are points and square brackets. -/
theorem Derives.mark_mem {symbols : List Symbol} {path : Path} (h : Derives symbols path)
    {mark : Mark} (hmark : .mark mark ∈ symbols) :
    mark = .dot ∨ mark = .opening .square ∨ mark = .closing .square := by
  cases h with
  | path hname further =>
    rcases List.mem_cons.mp hmark with rfl | hmem
    · contradiction
    · exact mark_mem_segments further hmem

theorem Derives.paren_notMem {symbols : List Symbol} {path : Path} (h : Derives symbols path) :
    .mark (.opening .paren) ∉ symbols :=
  fun hmem => by simpa using h.mark_mem hmem

variable {s : Surroundings} {tokens rest : List Token}

theorem indexOf_eq_ok_iff {text : String} (position : Nat) {segment : Segment} :
    indexOf position text = .ok segment ↔
      IsIndex text ∧ .index (Decimal.ofDigits text.toList) = segment := by
  unfold indexOf
  dsimp only
  split_ifs with hdigits hlong
  · simp only [refuse, reduceCtorEq, false_iff, not_and]
    rintro ⟨nonempty, digits, -⟩
    rw [Bool.or_eq_true, List.isEmpty_iff, Bool.not_eq_true', ← Bool.not_eq_true,
      List.all_eq_true] at hdigits
    exact (hdigits.elim nonempty fun hno => hno digits).elim
  · simp only [false_iff, not_and]
    rintro ⟨-, -, short⟩
    omega
  · simp only [Except.ok.injEq]
    refine ⟨fun h => ⟨⟨?_, ?_, by omega⟩, h⟩, fun h => h.2⟩ <;> simp_all

/-! What is read as a path is one. -/

theorem readSegments_sound {segments : List Segment}
    (h : readSegments s tokens = .ok (segments, rest)) :
    ∃ front, tokens = front ++ rest ∧ DerivesSegments (front.map (·.symbol)) segments := by
  fun_induction readSegments s tokens generalizing segments with
  | case1 => exact absurd h (Reading.fail_ne_ok _ _ _)
  | case2 position line token behind name hname ih =>
    obtain ⟨⟨more, rest'⟩, hmore, heq⟩ := map_eq_ok_iff.mp h
    obtain ⟨rfl, rfl⟩ := Prod.mk.inj heq
    obtain ⟨front, rfl, hfront⟩ := ih hmore
    exact ⟨⟨.mark .dot, position, line⟩ :: token :: front, rfl, .name hname hfront⟩
  | case3 => exact absurd h (Reading.fail_ne_ok _ _ _)
  | case4 => contradiction
  | case5 => contradiction
  | case6 position line text position' line' position'' line'' behind _ segment hsegment ih =>
    obtain ⟨⟨more, rest'⟩, hmore, heq⟩ := map_eq_ok_iff.mp h
    obtain ⟨rfl, rfl⟩ := Prod.mk.inj heq
    obtain ⟨hindex, rfl⟩ := (indexOf_eq_ok_iff position').mp hsegment
    obtain ⟨front, rfl, hfront⟩ := ih hmore
    exact ⟨⟨.mark (.opening .square), position, line⟩ :: ⟨.number text, position', line'⟩ ::
      ⟨.mark (.closing .square), position'', line''⟩ :: front, rfl, .index hindex hfront⟩
  | case7 => exact absurd h (Reading.fail_ne_ok _ _ _)
  | case8 => exact absurd h (Reading.fail_ne_ok _ _ _)
  | case9 =>
    obtain ⟨rfl, rfl⟩ := Prod.mk.inj (Except.ok.inj h)
    exact ⟨[], rfl, .nil⟩

theorem read_sound {path : Path} (h : read s tokens = .ok (path, rest)) :
    ∃ front, tokens = front ++ rest ∧ Derives (front.map (·.symbol)) path := by
  unfold read at h
  split at h
  · exact absurd h (Reading.fail_ne_ok _ _ _)
  next token behind =>
  split at h
  · next name hname =>
    obtain ⟨⟨segments, rest'⟩, hsegments, heq⟩ := map_eq_ok_iff.mp h
    obtain ⟨rfl, rfl⟩ := Prod.mk.inj heq
    obtain ⟨front, rfl, hfront⟩ := readSegments_sound hsegments
    exact ⟨token :: front, rfl, .path hname hfront⟩
  · exact absurd h (Reading.fail_ne_ok _ _ _)

/-! What is a path is read as one. -/

/-- No segment follows, and what follows may stand behind a position. -/
structure Ends (s : Surroundings) (rest : List Token) : Prop where
  admitted : Reading.lookAhead s.fault s.afterIndex rest = .ok ()
  stops : ∀ token ∈ rest.head?,
    token.symbol ≠ .mark .dot ∧ token.symbol ≠ .mark (.opening .square)

/-- Segments may stand behind positions. -/
def Continues (s : Surroundings) : Prop :=
  ∀ symbol, mayFollowIndex symbol = true → s.afterIndex symbol = true

theorem readSegments_of_ends (h : Ends s rest) : readSegments s rest = .ok ([], rest) := by
  rw [readSegments.eq_def]
  split
  · exact absurd rfl (h.stops _ rfl).1
  · exact absurd rfl (h.stops _ rfl).1
  · exact absurd rfl (h.stops _ rfl).2
  · exact absurd rfl (h.stops _ rfl).2
  · exact absurd rfl (h.stops _ rfl).2
  · rfl

/-- A position may stand before the further segments, or before what ends the path. -/
theorem admits_segments (hs : Continues s) (h : Ends s rest) {symbols : List Symbol}
    {segments : List Segment} (derives : DerivesSegments symbols segments) {tokens : List Token}
    (ht : tokens.map (·.symbol) = symbols) :
    Reading.lookAhead s.fault s.afterIndex (tokens ++ rest) = .ok () := by
  cases derives with
  | nil =>
    obtain rfl := List.map_eq_nil_iff.mp ht
    exact h.admitted
  | name =>
    obtain ⟨token, tail, rfl, hdot, -⟩ := List.map_eq_cons_iff.mp ht
    simp [Reading.lookAhead, hdot, hs (.mark .dot) rfl]
  | index =>
    obtain ⟨token, tail, rfl, hopen, -⟩ := List.map_eq_cons_iff.mp ht
    simp [Reading.lookAhead, hopen, hs (.mark (.opening .square)) rfl]

theorem readSegments_append (hs : Continues s) (h : Ends s rest) {symbols : List Symbol}
    {segments : List Segment} (derives : DerivesSegments symbols segments) {tokens : List Token}
    (ht : tokens.map (·.symbol) = symbols) :
    readSegments s (tokens ++ rest) = .ok (segments, rest) := by
  induction derives generalizing tokens with
  | nil =>
    obtain rfl := List.map_eq_nil_iff.mp ht
    exact readSegments_of_ends h
  | name hname _ ih =>
    obtain ⟨dot, tail, rfl, hdot, htail⟩ := List.map_eq_cons_iff.mp ht
    obtain ⟨token, behind, rfl, htoken, hbehind⟩ := List.map_eq_cons_iff.mp htail
    obtain ⟨symbol, position, line⟩ := dot
    cases hdot
    subst htoken
    simp [readSegments, hname, ih hbehind, Except.map]
  | index hindex further ih =>
    obtain ⟨_, _, number, rfl, hnumber⟩ := Reading.exists_token ht
    obtain ⟨position', _, close, rfl, hclose⟩ := Reading.exists_token hnumber
    obtain ⟨_, _, behind, rfl, hbehind⟩ := Reading.exists_token hclose
    have hindexOf := (indexOf_eq_ok_iff position').mpr ⟨hindex, rfl⟩
    simp [readSegments, admits_segments hs h further hbehind, hindexOf, ih hbehind, Except.map]

theorem Derives.read (hs : Continues s) (h : Ends s rest) {symbols : List Symbol} {path : Path}
    (derives : Derives symbols path) {tokens : List Token} (ht : tokens.map (·.symbol) = symbols) :
    read s (tokens ++ rest) = .ok (path, rest) := by
  cases derives with
  | path hname further =>
    obtain ⟨token, tail, rfl, htoken, htail⟩ := List.map_eq_cons_iff.mp ht
    subst htoken
    simp [Path.read, hname, readSegments_append hs h further htail, Except.map]

end AttributeExpr.Path
