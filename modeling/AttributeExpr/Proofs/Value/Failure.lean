import AttributeExpr.Proofs.Value.Soundness
/-!
What may keep a literal from being read. A reader of literals refuses what is no literal, and fails
otherwise only where a number cannot be compared with the other elements of a set. The same numbers
are all that keeps the lists of a value from being turned into sets.
-/
namespace AttributeExpr

/-- The numbers among the tokens have the property. -/
def Numbers (q : String → Prop) (tokens : List Token) : Prop :=
  ∀ token ∈ tokens, ∀ text, token.symbol = .number text → q text

theorem Numbers.subset {q : String → Prop} {tokens tokens' : List Token} (h : Numbers q tokens)
    (hsub : tokens' ⊆ tokens) : Numbers q tokens' :=
  fun token htoken => h token (hsub htoken)

section

variable {p : Failure → Prop}

theorem failsOnly_checkNumbers (typing : ∀ error : TypingError, p (.refused (.typing error)))
    (seen : List Decimal) {texts : List String}
    (h : ∀ text ∈ texts, FailsOnly p (comparable text)) :
    FailsOnly p (checkNumbers seen texts) := by
  induction texts generalizing seen with
  | nil => exact failsOnly_ok ()
  | cons text texts ih =>
    obtain ⟨htext, htexts⟩ := List.forall_mem_cons.mp h
    rw [checkNumbers]
    cases hnumber : comparable text with
    | error failure => exact failsOnly_error (htext failure hnumber)
    | ok number =>
      dsimp only
      split
      · exact failsOnly_error (typing _)
      · exact ih _ htexts

end

namespace Value

section

variable {p : Failure → Prop}

theorem mem_of_mem_numberTexts {items : List Value} {text : String}
    (h : text ∈ items.filterMap numberText?) : number text ∈ items := by
  obtain ⟨item, hitem, htext⟩ := List.mem_filterMap.mp h
  cases item <;> cases htext
  exact hitem

/-- A comparison that looks at all numbers first fails as the single ones do. -/
theorem failsOnly_distinctNumbers {texts : List String}
    (h : ∀ text ∈ texts, FailsOnly p (comparable text)) : FailsOnly p (distinctNumbers texts) := by
  unfold distinctNumbers
  apply FailsOnly.bind
  · apply failsOnly_mapM
    intro text htext
    have hp := h text htext
    cases hread : Decimal.read? text with
    | none => exact failsOnly_error (hp _ (by rw [comparable, hread]))
    | some number => exact failsOnly_ok number
  · intro numbers hnumbers
    have hread := (mapM_eq_ok_iff _ _ _).mp hnumbers
    split
    · next hsignaling =>
      obtain ⟨number, hmem, hnumber⟩ := List.any_eq_true.mp hsignaling
      obtain ⟨text, htext, heq⟩ := exists_of_mem_forall₂ hread.flip hmem
      have hcomparable : comparable text = .error .signalingNaN := by
        unfold comparable
        split at heq
        · next hsome =>
          obtain rfl := Except.ok.inj heq
          rw [hsome]
          exact if_pos hnumber
        · contradiction
      exact failsOnly_error (h text htext _ hcomparable)
    · exact failsOnly_ok _

variable (typing : ∀ error : TypingError, p (.refused (.typing error)))

include typing

/-- Elements form a set unless they are refused, or a number among them is not comparable. -/
theorem failsOnly_setOf {items : List Value}
    (h : ∀ text, number text ∈ items → FailsOnly p (comparable text)) :
    FailsOnly p (setOf items) := by
  unfold setOf
  split
  · exact failsOnly_error (typing _)
  next first rest =>
  split
  · exact failsOnly_error (typing _)
  split
  · exact failsOnly_error (typing _)
  split
  · apply FailsOnly.map
    apply failsOnly_checkNumbers typing
    exact fun text htext => h text (mem_of_mem_numberTexts htext)
  · unfold ofStrings
    split
    · exact failsOnly_error (typing _)
    · exact failsOnly_ok _
  · unfold ofBinaries
    split
    · exact failsOnly_error (typing _)
    · exact failsOnly_ok _

omit typing in
theorem failsOnly_isSetLike {items : List Value}
    (h : ∀ text, number text ∈ items → FailsOnly p (comparable text)) :
    FailsOnly p (isSetLike items) := by
  unfold isSetLike
  split
  · exact failsOnly_ok _
  split
  · exact failsOnly_ok _
  split
  · apply failsOnly_distinctNumbers
    exact fun text htext => h text (mem_of_mem_numberTexts htext)
  · exact failsOnly_ok _
  · exact failsOnly_ok _

omit typing in
theorem failsOnly_inferSetsInItems {items : List Value}
    (h : ∀ item ∈ items, FailsOnly p (inferSets item)) : FailsOnly p (inferSetsInItems items) := by
  induction items with
  | nil => exact failsOnly_ok []
  | cons item items ih =>
    obtain ⟨hitem, hitems⟩ := List.forall_mem_cons.mp h
    rw [inferSetsInItems]
    split
    · next failure hfailure => exact failsOnly_error (hitem failure hfailure)
    · exact (ih hitems).map _

omit typing in
theorem failsOnly_inferSetsInEntries {entries : List (String × Value)}
    (h : ∀ entry ∈ entries, FailsOnly p (inferSets entry.2)) :
    FailsOnly p (inferSetsInEntries entries) := by
  induction entries with
  | nil => exact failsOnly_ok []
  | cons entry entries ih =>
    obtain ⟨hentry, hentries⟩ := List.forall_mem_cons.mp h
    rw [inferSetsInEntries]
    split
    · next failure hfailure => exact failsOnly_error (hentry failure hfailure)
    · exact (ih hentries).map _

/-- The lists of a value become sets unless some set is refused or has a number that is not
comparable. -/
theorem failsOnly_inferSets {value : Value}
    (h : value.WellFormed fun text => FailsOnly p (comparable text)) :
    FailsOnly p (inferSets value) := by
  induction h with
  | @list items hitems ih =>
    have hnumbers : ∀ text, number text ∈ items → FailsOnly p (comparable text) := by
      intro text htext
      cases hitems _ htext with
      | number h => exact h
    rw [inferSets]
    split
    · next failure hfailure => exact failsOnly_error (failsOnly_isSetLike hnumbers failure hfailure)
    · exact failsOnly_setOf typing hnumbers
    · exact (failsOnly_inferSetsInItems ih).map _
  | map distinct h ih =>
    rw [inferSets]
    exact (failsOnly_inferSetsInEntries ih).map _
  | _ => exact failsOnly_ok _

end

/-! The readers of literals. -/

section

variable {q : String → Prop} {tokens rest : List Token}

theorem Reached.subset {value : Value} (h : Reached tokens rest value) : rest ⊆ tokens := by
  obtain ⟨front, rfl, -⟩ := h
  exact List.subset_append_right front rest

theorem ItemsReached.wellFormed {bracket : Bracket} {items : List Value}
    (h : ItemsReached bracket tokens rest items) (numbers : Numbers q tokens) :
    ∀ item ∈ items, item.WellFormed q := by
  obtain ⟨front, close, parts, rfl, -, -, hfront, hparts, rfl⟩ := h
  rw [List.forall_mem_map]
  intro part hpart
  apply (hparts part hpart).wellFormed
  intro symbol hsymbol text htext
  have hsub : part.1 ⊆ front.map (·.symbol) := by
    rw [hfront]
    exact subset_separated (List.mem_map_of_mem hpart)
  obtain ⟨token, htoken, rfl⟩ := List.mem_map.mp (hsub hsymbol)
  exact numbers token (List.mem_append_left _ htoken) text htext

theorem ItemsReached.subset {bracket : Bracket} {items : List Value}
    (h : ItemsReached bracket tokens rest items) : rest ⊆ tokens := by
  obtain ⟨front, close, parts, rfl, -⟩ := h
  exact List.subset_append_of_subset_right front (List.subset_cons_self close rest)

theorem EntriesReached.subset {entries : List (String × Value)}
    (h : EntriesReached tokens rest entries) : rest ⊆ tokens := by
  obtain ⟨front, close, parts, rfl, -⟩ := h
  exact List.subset_append_of_subset_right front (List.subset_cons_self close rest)

/-- What a property has to allow so that the readers of literals fail with it only: errors at the
tokens, the fault behind them, and what keeps their numbers from being compared. -/
structure Permits (p : Failure → Prop) (fault : Option ExpressionError) (tokens : List Token) :
    Prop extends Reading.Allows p fault tokens where
  typing : ∀ error : TypingError, p (.refused (.typing error))
  semantic : ∀ error : SemanticError, Reading.AtToken tokens error → p (.refused (.semantic error))
  elements : Numbers (fun text => FailsOnly p (comparable text)) tokens

variable {p : Failure → Prop} {fault : Option ExpressionError}

theorem Permits.subset {tokens' : List Token} (h : Permits p fault tokens)
    (hsub : tokens' ⊆ tokens) : Permits p fault tokens' where
  toAllows := h.toAllows.subset hsub
  typing := h.typing
  semantic error herror := h.semantic error (herror.subset hsub)
  elements := h.elements.subset hsub

theorem Permits.of_refused (refused : ∀ error : ExpressionError, p (.refused error))
    (numbers : Numbers (fun text => FailsOnly p (comparable text)) tokens) :
    Permits p fault tokens where
  grammar error _ := refused error
  atEnd error _ := refused error
  typing error := refused error
  semantic error _ := refused error
  elements := numbers

theorem failsOnly_mapOf {token : Token} (permits : Permits p fault tokens) (h : token ∈ tokens)
    (entries : List (String × Value)) : FailsOnly p (mapOf token.position entries) := by
  unfold mapOf
  split
  · exact failsOnly_error (permits.semantic _ (Reading.atToken_of_mem h rfl))
  · exact failsOnly_ok _

theorem failsOnly_build {s : Surroundings} {outcome : Except Failure Value}
    (allows : Reading.Allows p s.fault rest) (h : FailsOnly p outcome) :
    FailsOnly p (build s outcome rest) := by
  have hlook := Reading.failsOnly_lookAhead allows s.afterLiteral
  unfold build
  split
  · next failure hfailure => exact failsOnly_error (hlook failure hfailure)
  · exact h.map _

/-- With this fuel, the readers fail only with what the property allows of their tokens. -/
structure ReadersFailOnly (p : Failure → Prop) (s : Surroundings) (fuel : Nat) : Prop where
  literal : ∀ tokens, Permits p s.fault tokens → FailsOnly p (readLiteral s fuel tokens)
  items : ∀ bracket tokens, Permits p s.fault tokens →
    FailsOnly p (readItems s bracket fuel tokens)
  entries : ∀ tokens, Permits p s.fault tokens → FailsOnly p (readEntries s fuel tokens)

variable {s : Surroundings} {fuel : Nat}

theorem failsOnly_readLiteral (h : ReadersFailOnly p s fuel) (permits : Permits p s.fault tokens) :
    FailsOnly p (readLiteral s (fuel + 1) tokens) := by
  cases tokens with
  | nil => exact Reading.failsOnly_fail permits.toAllows
  | cons token rest =>
    have hrest := permits.subset (List.subset_cons_self token rest)
    rw [readLiteral.eq_def]
    dsimp only
    split
    · split
      · exact failsOnly_ok _
      · exact (h.items _ _ hrest).map _
    · split
      · exact failsOnly_ok _
      · split
        · next failure hfailure => exact failsOnly_error (h.entries _ hrest failure hfailure)
        · next entries after hentries =>
          have hafter := hrest.subset ((readers_sound s _).2.2 _ _ _ hentries).subset
          exact failsOnly_build hafter.toAllows
            (failsOnly_mapOf permits List.mem_cons_self entries)
    · split
      · next after =>
        have hafter := hrest.subset (List.subset_cons_self _ after)
        exact failsOnly_build hafter.toAllows (failsOnly_setOf permits.typing (by simp))
      · split
        · next failure hfailure => exact failsOnly_error (h.items _ _ hrest failure hfailure)
        · next items after hitems =>
          have hreached := (readers_sound s _).2.1 _ _ _ _ hitems
          have hwell := hreached.wellFormed hrest.elements
          have hafter := hrest.subset hreached.subset
          refine failsOnly_build hafter.toAllows (failsOnly_setOf permits.typing ?_)
          intro text htext
          cases hwell _ htext with
          | number hnumber => exact hnumber
    · split
      · exact failsOnly_ok _
      · exact Reading.failsOnly_fail permits.toAllows

theorem failsOnly_readItems (h : ReadersFailOnly p s fuel) (bracket : Bracket)
    (permits : Permits p s.fault tokens) :
    FailsOnly p (readItems s bracket (fuel + 1) tokens) := by
  rw [readItems.eq_def]
  dsimp only
  split
  · next failure hfailure => exact failsOnly_error (h.literal _ permits failure hfailure)
  · next item position line behind hitem =>
    have hafter := permits.subset ((readers_sound s _).1 _ _ _ hitem).subset
    exact (h.items _ _ (hafter.subset (List.subset_cons_self _ behind))).map _
  · next item behind _ hitem =>
    have hafter := permits.subset ((readers_sound s _).1 _ _ _ hitem).subset
    exact (Reading.failsOnly_expect hafter.toAllows _).map _

theorem failsOnly_readEntries (h : ReadersFailOnly p s fuel) (permits : Permits p s.fault tokens) :
    FailsOnly p (readEntries s (fuel + 1) tokens) := by
  cases tokens with
  | nil => exact Reading.failsOnly_fail permits.toAllows
  | cons token rest =>
    have hrest := permits.subset (List.subset_cons_self token rest)
    rw [readEntries.eq_def]
    dsimp only
    split
    · exact Reading.failsOnly_fail permits.toAllows
    split
    · next failure hfailure =>
      exact failsOnly_error (Reading.failsOnly_expect hrest.toAllows _ failure hfailure)
    next name hname after hafter =>
    obtain ⟨colon, rfl, -⟩ := Reading.expect_eq_ok hafter
    have hvalue := hrest.subset (List.subset_cons_self colon after)
    split
    · next failure hfailure => exact failsOnly_error (h.literal _ hvalue failure hfailure)
    · next value position line behind hread =>
      have hbehind := hvalue.subset ((readers_sound s _).1 _ _ _ hread).subset
      exact (h.entries _ (hbehind.subset (List.subset_cons_self _ behind))).map _
    · next value behind _ hread =>
      have hbehind := hvalue.subset ((readers_sound s _).1 _ _ _ hread).subset
      exact (Reading.failsOnly_expect hbehind.toAllows _).map _

theorem readersFailOnly (p : Failure → Prop) (s : Surroundings) (fuel : Nat) :
    ReadersFailOnly p s fuel := by
  induction fuel with
  | zero =>
    refine ⟨?_, fun bracket tokens permits => Reading.failsOnly_fail permits.toAllows, ?_⟩
    · intro tokens permits
      rw [readLiteral]
      exact Reading.failsOnly_fail permits.toAllows
    · intro tokens permits
      rw [readEntries]
      exact Reading.failsOnly_fail permits.toAllows
  | succ fuel ih =>
    exact ⟨fun _ => failsOnly_readLiteral ih, fun bracket _ => failsOnly_readItems ih bracket,
      fun _ => failsOnly_readEntries ih⟩

/-- One literal is read, or the reader fails with what the property allows. -/
theorem failsOnly_read (permits : Permits p s.fault tokens) : FailsOnly p (read s tokens) :=
  (readersFailOnly p s _).literal _ permits

namespace Permits

variable {text : String} (permits : Permits p (scanNested text).fault (scanNested text).tokens)

include permits

theorem failsOnly_parse : FailsOnly p (parse text) :=
  Reading.failsOnly_complete permits.toAllows (failsOnly_read permits)
    fun _ _ h => (read_sound h).subset

theorem failsOnly_parseWith (inferring : Bool) : FailsOnly p (parseWith inferring text) := by
  apply permits.failsOnly_parse.bind
  intro value hvalue
  split
  · apply failsOnly_inferSets permits.typing
    obtain ⟨hfault, hread⟩ := Reading.complete_eq_ok hvalue
    obtain ⟨front, htokens, hfront⟩ := read_sound hread
    apply hfront.wellFormed
    intro symbol hsymbol number hnumber
    obtain ⟨token, htoken, rfl⟩ := List.mem_map.mp hsymbol
    rw [List.append_nil] at htokens
    exact permits.elements token (by rwa [htokens]) number hnumber
  · exact failsOnly_ok value

end Permits

section

variable (refused : ∀ error : ExpressionError, p (.refused error)) {text : String}
  (numbers : Numbers (fun text => FailsOnly p (comparable text)) (scanNested text).tokens)

include refused numbers

theorem failsOnly_parseWith (inferring : Bool) : FailsOnly p (parseWith inferring text) :=
  (Permits.of_refused refused numbers).failsOnly_parseWith inferring

theorem failsOnly_parseItem (inferring : Bool) : FailsOnly p (parseItem inferring text) := by
  apply (failsOnly_parseWith refused numbers inferring).bind
  intro value _
  split
  · exact failsOnly_ok _
  · exact failsOnly_error (refused _)

end

end

end Value

end AttributeExpr
