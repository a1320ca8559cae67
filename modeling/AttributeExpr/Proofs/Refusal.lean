import AttributeExpr.Proofs.Context
import AttributeExpr.Proofs.Decimal
import AttributeExpr.Proofs.SortCondition.Policy
import AttributeExpr.Proofs.Token.Scan
import AttributeExpr.Proofs.Update.Failure
/-!
When parsing fails otherwise than with a refusal. A numeral that denotes no decimal number has no
result as an element of a set, nor in a list that could become a set, and a run of digits that is
too long has none as a position. Nothing else keeps a text from being either parsed or refused.
-/
namespace AttributeExpr

/-- A number of the text denotes no decimal number. -/
def HasUnreadableNumber (text : String) : Prop :=
  ∃ number, (∃ token ∈ (scanNested text).tokens, token.symbol = .number number) ∧
    Decimal.read? number = none

/-- A number of the text consists of more digits than a position may have. -/
def HasOverlongNumber (text : String) : Prop :=
  ∃ number, (∃ token ∈ (scanNested text).tokens, token.symbol = .number number) ∧
    (∀ c ∈ number.toList, Numeral.isDigit c = true) ∧ Numeral.maxDigits < number.toList.length

/-- The failures of parsing: refusals, and those that need a number of a certain kind. -/
inductive IsParsingFailure (unreadable overlong : Prop) : Failure → Prop
  | refused (error : ExpressionError) : IsParsingFailure unreadable overlong (.refused error)
  | noDecimal (h : unreadable) : IsParsingFailure unreadable overlong .noDecimal
  | longIndex (h : overlong) : IsParsingFailure unreadable overlong .longIndex

theorem failsOnly_comparable {number : String} (h : Numeral.Signed number.toList)
    (overlong : Prop) :
    FailsOnly (IsParsingFailure (Decimal.read? number = none) overlong) (comparable number) := by
  unfold comparable
  split
  · next hread => exact failsOnly_error (.noDecimal hread)
  · next value hread =>
    rw [Decimal.isSignaling_of_signed h hread]
    exact failsOnly_ok value

theorem failsOnly_indexOf (unreadable : Prop) (position : Nat) (number : String) :
    FailsOnly (IsParsingFailure unreadable ((∀ c ∈ number.toList, Numeral.isDigit c = true) ∧
      Numeral.maxDigits < number.toList.length)) (Path.indexOf position number) := by
  unfold Path.indexOf
  dsimp only
  split_ifs with hdigits hlong
  · exact failsOnly_error (.refused _)
  · simp only [Bool.or_eq_true, Bool.not_eq_true', not_or, Bool.not_eq_false, List.all_eq_true]
      at hdigits
    exact failsOnly_error (.longIndex ⟨hdigits.2, hlong⟩)
  · exact failsOnly_ok _

theorem numbers_comparable (text : String) (overlong : Prop) :
    Numbers (fun number => FailsOnly (IsParsingFailure (HasUnreadableNumber text) overlong)
      (comparable number)) (scanNested text).tokens := by
  intro token htoken number hnumber
  have signed := scanNested_lexical text token htoken number hnumber
  refine FailsOnly.mono (failsOnly_comparable signed overlong) ?_
  rintro failure (error | hread | hlong)
  · exact .refused error
  · exact .noDecimal ⟨number, ⟨token, htoken, hnumber⟩, hread⟩
  · exact .longIndex hlong

theorem numbers_indexes (text : String) (unreadable : Prop) :
    Numbers (fun number => ∀ position, FailsOnly (IsParsingFailure unreadable
      (HasOverlongNumber text)) (Path.indexOf position number)) (scanNested text).tokens := by
  intro token htoken number hnumber position
  refine FailsOnly.mono (failsOnly_indexOf unreadable position number) ?_
  rintro failure (error | hread | hlong)
  · exact .refused error
  · exact .noDecimal hread
  · exact .longIndex ⟨number, ⟨token, htoken, hnumber⟩, hlong⟩

/-! Texts on which the readers have no result. -/

open Lexer (Spells)

/-- A number between delimiters. -/
abbrev delimited (bracket : Bracket) (number : String) : List Symbol :=
  [.mark (.opening bracket), .number number, .mark (.closing bracket)]

theorem wellNested_delimited (bracket : Bracket) (number : String) :
    Nesting.WellNested (delimited bracket number) := by
  have hnumber : ¬ Nesting.IsBracket (.number number) := by
    rintro ⟨bracket, h | h⟩ <;> cases h
  exact .enclosed (.single hnumber) .nil

theorem not_isBracket_name (name : String) : ¬ Nesting.IsBracket (.name name) := by
  rintro ⟨bracket, h | h⟩ <;> cases h

theorem not_isBracket_equal : ¬ Nesting.IsBracket (.mark .equal) := by
  rintro ⟨bracket, h | h⟩ <;> cases h

section Sets

variable {number : String} (h : Decimal.read? number = none)

include h

theorem Value.setOf_unreadable : setOf [Value.number number] = .error .noDecimal := by
  have hnumber : comparable number = .error .noDecimal := by rw [comparable, h]
  show (checkNumbers [] [number]).map _ = _
  rw [checkNumbers, hnumber]
  rfl

theorem Value.isSetLike_unreadable : isSetLike [Value.number number] = .error .noDecimal := by
  show distinctNumbers [number] = .error .noDecimal
  simp [distinctNumbers, h, bind, Except.bind]

/-- A set has no result if a number in it denotes none. -/
theorem Value.read_unreadable {s : Surroundings} (hfault : s.fault = none) {tokens : List Token}
    (ht : tokens.map (·.symbol) = delimited .set number) : read s tokens = .error .noDecimal := by
  obtain ⟨_, _, items, rfl, hitems⟩ := Reading.exists_token ht
  obtain ⟨_, _, behind, rfl, hbehind⟩ := Reading.exists_token hitems
  obtain ⟨_, _, last, rfl, hlast⟩ := Reading.exists_token hbehind
  obtain rfl := List.map_eq_nil_iff.mp hlast
  show build s (setOf [Value.number number]) [] = .error .noDecimal
  rw [setOf_unreadable h, build, hfault]
  rfl

variable (signed : Numeral.Signed number.toList)

include signed

omit h in
theorem spells_set : Spells false ("<<" ++ number ++ ">>").toList (delimited .set number) := by
  simpa [Mark.text] using (Lexer.Spelling.enclose .set (.number signed)).spells

theorem Value.parse_unreadable : parse ("<<" ++ number ++ ">>") = .error .noDecimal := by
  obtain ⟨tokens, line, hscan, htokens⟩ :=
    scanNested_of_spells (spells_set signed) (wellNested_delimited .set number)
  rw [parse, hscan, ofScan, Reading.complete, read_unreadable h rfl htokens]
  rfl

theorem Value.parseWith_unreadable :
    parseWith true ("[" ++ number ++ "]") = .error .noDecimal := by
  have hderives : Derives [.number number] (.number number) := .scalar rfl
  have hitem : Spells false _ _ := (Lexer.Spelling.number signed).spells.singleItem
  have hlist : parse ("[" ++ number ++ "]") = .ok (.list [.number number]) := by
    apply parse_of_spells _ (derives_singleList hderives)
    simpa using hitem
  rw [parseWith, hlist]
  show inferSets (.list [.number number]) = .error .noDecimal
  rw [inferSets, isSetLike_unreadable h]

theorem Update.parseSet_unreadable :
    parseSet ("x = <<" ++ number ++ ">>") = .error .noDecimal := by
  have spells : Spells false ("x = <<" ++ number ++ ">>").toList
      (.name "x" :: .mark .equal :: delimited .set number) := by
    simpa using (spells_set signed).assigned
  have nested : Nesting.WellNested (.name "x" :: .mark .equal :: delimited .set number) :=
    .plain (not_isBracket_name "x") (.plain not_isBracket_equal (wellNested_delimited .set number))
  obtain ⟨tokens, line, hscan, htokens⟩ := scanNested_of_spells spells nested
  obtain ⟨_, _, assigned, rfl, hassigned⟩ := Reading.exists_token htokens
  obtain ⟨_, _, value, rfl, hvalue⟩ := Reading.exists_token hassigned
  have hread := @Value.read_unreadable _ h ⟨none, mayFollowLiteral, mayFollowIndex⟩ rfl _ hvalue
  obtain ⟨_, _, items, rfl, -⟩ := Reading.exists_token hvalue
  rw [parseSet, hscan]
  simp [assignmentsOf, readActions, readAssignment, Path.read, Path.nameText?, Path.readSegments,
    Reading.expect, readFormula, readOperand, Value.fuelFor, hread, Reading.complete, Except.map,
    bind, Except.bind]

end Sets

section Positions

variable {number : String} (digits : ∀ c ∈ number.toList, Numeral.isDigit c = true)
  (long : Numeral.maxDigits < number.toList.length)

include digits long

/-- A path has no result if a position in it is too long and may stand before what follows. -/
theorem Path.read_overlong {s : Surroundings} {tokens : List Token}
    (ht : tokens.map (·.symbol) = .name "x" :: delimited .square number) {rest : List Token}
    (hrest : Reading.lookAhead s.fault s.afterIndex rest = .ok ()) :
    read s (tokens ++ rest) = .error .longIndex := by
  obtain ⟨_, _, segment, rfl, hsegment⟩ := Reading.exists_token ht
  obtain ⟨_, _, index, rfl, hindex⟩ := Reading.exists_token hsegment
  obtain ⟨position, _, behind, rfl, hbehind⟩ := Reading.exists_token hindex
  obtain ⟨_, _, last, rfl, hlast⟩ := Reading.exists_token hbehind
  obtain rfl := List.map_eq_nil_iff.mp hlast
  have nonempty : number.toList ≠ [] := List.ne_nil_of_length_pos (by omega)
  have hall : number.toList.all Numeral.isDigit = true := List.all_eq_true.mpr digits
  have hnone : indexOf position number = .error .longIndex := by
    simp [indexOf, nonempty, hall, long]
  simp [read, nameText?, readSegments, hrest, hnone, Except.map]

theorem spells_position :
    Spells false ("x[" ++ number ++ "]").toList (.name "x" :: delimited .square number) := by
  have nonempty : number.toList ≠ [] := List.ne_nil_of_length_pos (by omega)
  have unsigned : Numeral.Unsigned number.toList := by
    simpa using Numeral.Unsigned.parts nonempty digits .absent .absent
  have hname : Name.isIdentifier ['x'] = true := by decide
  have hnumber := (Lexer.Spelling.number (.plain unsigned)).spells
  have hword : Spells false ('x' :: '[' :: (number.toList ++ [']']))
      (.name "x" :: delimited .square number) :=
    @Spells.word false ['x'] _ _ hname (stops_cons.mpr (by decide)) hnumber.singleItem
  simpa using hword

omit digits long in
theorem wellNested_position (number : String) :
    Nesting.WellNested (.name "x" :: delimited .square number) :=
  .plain (not_isBracket_name "x") (wellNested_delimited .square number)

theorem Path.parse_overlong : parse ("x[" ++ number ++ "]") = .error .longIndex := by
  obtain ⟨tokens, line, hscan, htokens⟩ :=
    scanNested_of_spells (spells_position digits long) (wellNested_position number)
  have hread := @read_overlong _ digits long ⟨none, fun _ => false, mayFollowIndex⟩ _ htokens [] rfl
  rw [List.append_nil] at hread
  rw [parse, hscan, ofScan, Reading.complete, hread]
  rfl

theorem Update.parseRemove_overlong :
    parseRemove ("x[" ++ number ++ "]") = .error .longIndex := by
  obtain ⟨tokens, line, hscan, htokens⟩ :=
    scanNested_of_spells (spells_position digits long) (wellNested_position number)
  have hread := @Path.read_overlong _ digits long ⟨none, fun _ => false, mayFollowRemovedIndex⟩ _
    htokens [] rfl
  rw [List.append_nil] at hread
  rw [parseRemove, hscan]
  simp [removalsOf, readActions, readRemoval, hread, Reading.complete, Except.map, bind,
    Except.bind]

theorem Update.parseSet_overlong :
    parseSet ("x[" ++ number ++ "] = 1") = .error .longIndex := by
  have spells : Spells false ("x[" ++ number ++ "] = 1").toList
      ((.name "x" :: delimited .square number) ++ [.mark .equal, .number "1"]) := by
    simpa using (spells_position digits long).target
  have hassigned : Nesting.WellNested [.mark .equal, .number "1"] := by
    refine .plain not_isBracket_equal (.single ?_)
    rintro ⟨bracket, h | h⟩ <;> cases h
  obtain ⟨tokens, line, hscan, htokens⟩ :=
    scanNested_of_spells spells ((wellNested_position number).append hassigned)
  obtain ⟨front, rest, rfl, hfront, hrest⟩ := List.map_eq_append_iff.mp htokens
  obtain ⟨position, line', behind, rfl, -⟩ := Reading.exists_token hrest
  have hread := @Path.read_overlong _ digits long ⟨none, mayFollowLiteral, mayFollowIndex⟩ _ hfront
    (⟨.mark .equal, position, line'⟩ :: behind) rfl
  rw [parseSet, hscan]
  simp [assignmentsOf, readActions, readAssignment, hread, Reading.complete, bind, Except.bind]

end Positions

/-- A text is parsed or refused with a message, unless it has a number that denotes no decimal
number or, where paths are read, one with too many digits for a position. -/
theorem parse_failsOnly (text : String) (inferring : Bool) :
    FailsOnly (IsParsingFailure (HasUnreadableNumber text) False)
        (Value.parseWith inferring text) ∧
      FailsOnly (IsParsingFailure (HasUnreadableNumber text) False)
        (Value.parseItem inferring text) ∧
      FailsOnly (IsParsingFailure False (HasOverlongNumber text)) (Path.parse text) ∧
      FailsOnly (IsParsingFailure (HasUnreadableNumber text) (HasOverlongNumber text))
        (Update.parseSet text) ∧
      FailsOnly (IsParsingFailure False (HasOverlongNumber text)) (Update.parseRemove text) ∧
      FailsOnly (IsParsingFailure False False) (SortCondition.parse text) := by
  have numbers := numbers_comparable text False
  have indexes := numbers_indexes text False
  refine ⟨?_, ?_, ?_, ?_, ?_, ?_⟩
  · exact Value.failsOnly_parseWith .refused numbers inferring
  · exact Value.failsOnly_parseItem .refused numbers inferring
  · exact Path.failsOnly_parse .refused indexes
  · exact Update.failsOnly_parseSet .refused
      ⟨numbers_comparable text _, numbers_indexes text _⟩
  · exact Update.failsOnly_parseRemove .refused indexes
  · refine FailsOnly.mono (SortCondition.failsOnly_parse text) ?_
    intro failure h
    obtain ⟨error, rfl, -⟩ := h.isTextual
    exact .refused error

/-- Every numeral that denotes no decimal number keeps a set and, where lists are turned into sets,
a list from a result. -/
theorem parse_unreadable {number : String} (signed : Numeral.Signed number.toList)
    (h : Decimal.read? number = none) :
    Value.parse ("<<" ++ number ++ ">>") = .error .noDecimal ∧
      Value.parseWith true ("[" ++ number ++ "]") = .error .noDecimal ∧
      Update.parseSet ("x = <<" ++ number ++ ">>") = .error .noDecimal :=
  ⟨Value.parse_unreadable h signed, Value.parseWith_unreadable h signed,
    Update.parseSet_unreadable h signed⟩

/-- Every run of digits that is too long for a position keeps a path from a result. -/
theorem parse_overlong {number : String} (digits : ∀ c ∈ number.toList, Numeral.isDigit c = true)
    (long : Numeral.maxDigits < number.toList.length) :
    Path.parse ("x[" ++ number ++ "]") = .error .longIndex ∧
      Update.parseRemove ("x[" ++ number ++ "]") = .error .longIndex ∧
      Update.parseSet ("x[" ++ number ++ "] = 1") = .error .longIndex :=
  ⟨Path.parse_overlong digits long, Update.parseRemove_overlong digits long,
    Update.parseSet_overlong digits long⟩

/-- The exponent of the numeral is just beyond the limits. -/
theorem signed_beyondLimits : Numeral.Signed "1e1000000000000000000".toList ∧
    Decimal.read? "1e1000000000000000000" = none :=
  ⟨.plain (Numeral.unsigned_of_isUnsigned (by decide)), by decide⟩

/-- The run is one digit too long for a position. -/
theorem digits_overlong :
    let digits := String.ofList (List.replicate 4301 '7')
    (∀ c ∈ digits.toList, Numeral.isDigit c = true) ∧
      Numeral.maxDigits < digits.toList.length := by
  intro digits
  constructor
  · intro c hc
    rw [String.toList_ofList] at hc
    obtain rfl := List.eq_of_mem_replicate hc
    rfl
  · rw [String.toList_ofList, List.length_replicate]
    decide

/-- Some texts are neither parsed nor refused: a set with a single number, and a path. -/
theorem not_failsOnly_refused :
    (¬ ∀ text, FailsOnly (fun failure => ∃ error, failure = .refused error) (Value.parse text)) ∧
      ¬ ∀ text, FailsOnly (fun failure => ∃ error, failure = .refused error)
        (Path.parse text) := by
  obtain ⟨hset, -, -⟩ := parse_unreadable signed_beyondLimits.1 signed_beyondLimits.2
  obtain ⟨hpath, -, -⟩ := parse_overlong digits_overlong.1 digits_overlong.2
  constructor
  · intro h
    obtain ⟨error, herror⟩ := h _ _ hset
    contradiction
  · intro h
    obtain ⟨error, herror⟩ := h _ _ hpath
    contradiction

end AttributeExpr
