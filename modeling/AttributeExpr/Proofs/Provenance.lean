import AttributeExpr.Proofs.Literal.Surrogate
import AttributeExpr.Proofs.Token.Position
import AttributeExpr.Proofs.Update.RoundTrip
import AttributeExpr.Proofs.Value.Exactness
import Mathlib
/-!
Values that come from a text. Whichever reader makes a value of a text, its numbers are numerals
without a plus sign, the keys of its maps differ, and its sets are sets. Turning lists into sets and
fitting a value to the type of a key keep this. The strings are made of whole characters: they are
cut out of the text, or decoded from a literal, and decoding makes no surrogate.
-/
namespace AttributeExpr

namespace Value

/-! Turning lists into sets. -/

theorem inferSetsInItems_eq_ok {items items' : List Value}
    (h : inferSetsInItems items = .ok items') :
    List.Forall₂ (fun item item' => inferSets item = .ok item') items items' := by
  induction items generalizing items' with
  | nil =>
    obtain rfl := Except.ok.inj h
    exact .nil
  | cons item items ih =>
    rw [inferSetsInItems] at h
    split at h
    · contradiction
    · next value hvalue =>
      obtain ⟨values, hvalues, rfl⟩ := map_eq_ok_iff.mp h
      exact .cons hvalue (ih hvalues)

theorem inferSetsInEntries_eq_ok {entries entries' : List (String × Value)}
    (h : inferSetsInEntries entries = .ok entries') :
    List.Forall₂ (fun entry entry' => entry.1 = entry'.1 ∧ inferSets entry.2 = .ok entry'.2)
      entries entries' := by
  induction entries generalizing entries' with
  | nil =>
    obtain rfl := Except.ok.inj h
    exact .nil
  | cons entry entries ih =>
    rw [inferSetsInEntries] at h
    split at h
    · contradiction
    · next value hvalue =>
      obtain ⟨values, hvalues, rfl⟩ := map_eq_ok_iff.mp h
      exact .cons ⟨rfl, hvalue⟩ (ih hvalues)

theorem WellFormed.inferSets {numeral : String → Prop} {value value' : Value}
    (h : value.WellFormed numeral) (hinfer : inferSets value = .ok value') :
    value'.WellFormed numeral := by
  induction h generalizing value' with
  | @list items hitems ih =>
    rw [Value.inferSets] at hinfer
    split at hinfer
    · contradiction
    · exact (isSetOf_of_setOf hinfer).wellFormed hitems
    · obtain ⟨items', hitems', rfl⟩ := map_eq_ok_iff.mp hinfer
      refine .list fun item' hitem' => ?_
      obtain ⟨item, hitem, hvalue⟩ :=
        exists_of_mem_forall₂ (inferSetsInItems_eq_ok hitems').flip hitem'
      exact ih item hitem hvalue
  | @map entries distinct hentries ih =>
    rw [Value.inferSets] at hinfer
    obtain ⟨entries', hentries', rfl⟩ := map_eq_ok_iff.mp hinfer
    have hparts := inferSetsInEntries_eq_ok hentries'
    have hkeys : entries.map (·.1) = entries'.map (·.1) :=
      List.forall₂_eq_eq_eq ▸ List.forall₂_map_left_iff.mpr
        (List.forall₂_map_right_iff.mpr (hparts.imp fun _ _ h => h.1))
    refine .map (hkeys ▸ distinct) fun entry' hentry' => ?_
    obtain ⟨entry, hentry, -, hvalue⟩ := exists_of_mem_forall₂ hparts.flip hentry'
    exact ih entry hentry hvalue
  | null =>
    obtain rfl := Except.ok.inj hinfer
    exact .null
  | bool b =>
    obtain rfl := Except.ok.inj hinfer
    exact .bool b
  | number h =>
    obtain rfl := Except.ok.inj hinfer
    exact .number h
  | string text =>
    obtain rfl := Except.ok.inj hinfer
    exact .string text
  | binary bytes =>
    obtain rfl := Except.ok.inj hinfer
    exact .binary bytes
  | numberSet nonempty h distinct =>
    obtain rfl := Except.ok.inj hinfer
    exact .numberSet nonempty h distinct
  | stringSet nonempty distinct =>
    obtain rfl := Except.ok.inj hinfer
    exact .stringSet nonempty distinct
  | binarySet nonempty distinct =>
    obtain rfl := Except.ok.inj hinfer
    exact .binarySet nonempty distinct

/-! What every value has that comes from a text. -/

/-- Well-formed at every depth, with numerals as numbers. -/
def Proper (value : Value) : Prop := value.WellFormed fun text => Numeral.Signed text.toList

variable {value value' : Value}

theorem IsOperand.proper (h : value.IsOperand) : value.Proper := by
  cases h with
  | number signed => exact .number signed
  | string text => exact .string text
  | binary bytes => exact .binary bytes

theorem proper_of_parse {text : String} (h : parse text = .ok value) : value.Proper := by
  obtain ⟨front, htokens, hfront⟩ := read_sound (Reading.complete_eq_ok h).2
  apply hfront.wellFormed
  intro symbol hsymbol number hnumber
  obtain ⟨token, htoken, rfl⟩ := List.mem_map.mp hsymbol
  rw [List.append_nil] at htokens
  exact scanNested_lexical text token (by rwa [htokens]) number hnumber

theorem proper_of_parseWith {inferring : Bool} {text : String}
    (h : parseWith inferring text = .ok value) : value.Proper := by
  obtain ⟨parsed, hparsed, h⟩ := bind_eq_ok_iff.mp h
  have hproper := proper_of_parse hparsed
  split at h
  · exact WellFormed.inferSets hproper h
  · obtain rfl := Except.ok.inj h
    exact hproper

theorem proper_of_parseItem {inferring : Bool} {text : String} {entries : List (String × Value)}
    (h : parseItem inferring text = .ok entries) : (map entries).Proper := by
  obtain ⟨parsed, hparsed, h⟩ := bind_eq_ok_iff.mp h
  split at h
  · obtain rfl := Except.ok.inj h
    exact proper_of_parseWith hparsed
  · contradiction

end Value

theorem Update.proper_of_parseSet {text : String} {actions : List Action}
    (h : parseSet text = .ok actions) : ∀ action ∈ actions, ∀ value ∈ action.literals,
      value.Proper := by
  intro action haction value hvalue
  exact @literals_of_parse .set _ _ h action haction value hvalue

/-! Where the strings of a text come from. -/

/-- A string whose text is a stretch of a text, or is decoded from one. -/
inductive CutFrom (text : List Char) : String → Prop where
  | verbatim {body : List Char} (stretch : body <:+: text) : CutFrom text (String.ofList body)
  | decoded {position : Nat} {body decoded : List Char} (stretch : body <:+: text)
      (h : StringBody.decode position body = .ok decoded) : CutFrom text (String.ofList decoded)

theorem CutFrom.mono {text text' : List Char} {content : String} (h : CutFrom text content)
    (stretch : text <:+: text') : CutFrom text' content := by
  cases h with
  | verbatim inner => exact .verbatim (inner.trans stretch)
  | decoded inner h => exact .decoded (inner.trans stretch) h

theorem Lexeme.cutFrom {operand : Bool} {text after : List Char} {lexeme : Lexeme}
    (h : split? operand text = some (lexeme, after)) {position : Nat} {content : String}
    (hsymbol : lexeme.symbol position = .ok (.string content)) : CutFrom text content := by
  cases lexeme with
  | string body =>
    obtain ⟨decoded, hdecode, heq⟩ := map_eq_ok_iff.mp hsymbol
    obtain rfl := Symbol.string.inj heq
    cases quoted_of_quoted? (quoted?_of_split? h nofun nofun nofun) with
    | string => exact .decoded ⟨['\x22'], '\x22' :: after, by simp⟩ hdecode
  | verbatim body =>
    obtain rfl := Symbol.string.inj (Except.ok.inj hsymbol)
    cases quoted_of_quoted? (quoted?_of_split? h nofun nofun nofun) with
    | verbatim => exact .verbatim ⟨['\x27'], '\x27' :: after, by simp⟩
  | base64 | bytes =>
    obtain ⟨_, -, heq⟩ := map_eq_ok_iff.mp hsymbol
    cases heq
  | word word =>
    rcases symbol_word_cases hsymbol with heq | ⟨_, heq⟩ <;> cases heq
  | quotedName | number | mark => cases hsymbol

theorem Lexer.scanFrom_cutFrom (position line : Nat) (previous : Option Token) (text : List Char) :
    ∀ token ∈ (scanFrom position line previous text).tokens, ∀ content,
      token.symbol = .string content → CutFrom text content := by
  fun_induction scanFrom position line previous text with
  | case1 | case3 | case4 => simp
  | case2 position line previous c rest _ ih =>
    exact fun token htoken content h =>
      (ih token htoken content h).mono (List.suffix_cons c rest).isInfix
  | case5 position line previous c rest _ lexeme after hsplit _ _ symbol hsymbol _ ih =>
    intro token htoken content h
    rcases List.mem_cons.mp htoken with rfl | htoken
    · obtain rfl : symbol = .string content := h
      exact Lexeme.cutFrom hsplit hsymbol
    · obtain ⟨front, heq, -⟩ := Lexeme.split?_alone hsplit
      rw [heq]
      exact (ih token htoken content h).mono (List.suffix_append front after).isInfix

theorem scanNested_cutFrom {text content : String} {token : Token}
    (htoken : token ∈ (scanNested text).tokens) (h : token.symbol = .string content) :
    CutFrom text.toList content :=
  Lexer.scanFrom_cutFrom _ _ _ _ token (Nesting.checkFrom_subset _ _ _ _ htoken) content h

/-! Texts that are one literal. -/

/-- A text that is a double-quoted literal and nothing else is read as its inside is decoded. -/
theorem Value.parse_quoted {text : String} {body : List Char}
    (htext : text.toList = '\x22' :: (body ++ ['\x22']))
    (closed : StringBody.outline? (body ++ ['\x22']) = some (body, [])) :
    parse text = ((StringBody.decode 1 body).map fun decoded =>
      string (String.ofList decoded)).mapError fun error => .refused (.lexical error) := by
  have hsplit : Lexeme.split? false ('\x22' :: (body ++ ['\x22'])) = some (.string body, []) :=
    Lexer.split?_quoted (by simp [Lexeme.quoted?, closed])
  rw [parse, scanNested, Lexer.scan, htext, Lexer.scanFrom_cons (by decide), Option.any_none,
    hsplit]
  cases h : StringBody.decode 1 body with
  | ok decoded =>
    simp only [Lexeme.symbol, h, Except.map, Nat.zero_add]
    rw [Lexer.scanFrom]
    rfl
  | error error =>
    simp only [Lexeme.symbol, h, Except.map, Nat.zero_add]
    rfl

/-- Reading a literal by its code points is reading its text. -/
theorem Value.parse_of_readLiteral? {text : String} {outcome : Except LexicalError CodePoints}
    (h : StringBody.readLiteral? (CodePoints.ofChars text.toList) = some outcome) :
    parse text = (outcome.map fun points =>
      string (String.ofList (CodePoints.chars points))).mapError
        fun error => .refused (.lexical error) := by
  obtain ⟨points, hpoints, closed, rfl⟩ := StringBody.readLiteral?_eq_some h
  obtain ⟨body, rfl⟩ : ∃ body, CodePoints.ofChars body = points := by
    refine ⟨_, CodePoints.ofChars_chars fun n hn => ?_⟩
    refine @CodePoints.isValidChar_of_mem_ofChars text.toList n ?_
    simp [hpoints, hn]
  rw [CodePoints.chars_ofChars] at closed
  have hquote : CodePoints.char 0x22 = '\x22' := by decide
  have htext : text.toList = '\x22' :: (body ++ ['\x22']) := by
    rw [← CodePoints.chars_ofChars text.toList, hpoints]
    simp [CodePoints.chars, CodePoints.ofChars, Function.comp_def, hquote]
  rw [parse_quoted htext closed, StringBody.decodePoints_ofChars]
  cases StringBody.decode 1 body with
  | ok decoded => simp [Except.map]
  | error error => rfl

/-- Every value that is read from a text is proper: a literal with or without sets inferred, an
item, a literal of an update, an operand of a condition, whether or not it is fitted to a key, and
the value of a key. A quoted string is a stretch of the text or decoded from one. A body that spells
half of a surrogate pair alone is not decoded at all. Where such a half stands in a body itself,
which then is a text by its code points only, the surrogates of what is decoded are those of the
body. -/
theorem proper_of_text (text : String) :
    (∀ inferring value, Value.parseWith inferring text = .ok value → value.Proper) ∧
      (∀ inferring entries, Value.parseItem inferring text = .ok entries →
        (Value.map entries).Proper) ∧
      (∀ actions, Update.parseSet text = .ok actions →
        ∀ action ∈ actions, ∀ value ∈ action.literals, value.Proper) ∧
      (∀ condition, SortCondition.parse text = .ok condition →
        ∀ value ∈ condition.operands, value.Proper) ∧
      (∀ strict key condition, SortCondition.parseFor strict key text = .ok condition →
        ∀ value ∈ condition.operands, value.Proper) ∧
      (∀ type value, Key.valueOf type text = .ok value → value.Proper) ∧
      (∀ token ∈ (scanNested text).tokens, ∀ content, token.symbol = .string content →
        CutFrom text.toList content) ∧
      (∀ position decoded units, StringBody.decode position text.toList = .ok decoded →
        StringBody.SpellsUnits text.toList units →
          Paired units ∧ units = decoded.flatMap codeUnits) ∧
      (∀ outcome, StringBody.readLiteral? (CodePoints.ofChars text.toList) = some outcome →
        Value.parse text = (outcome.map fun points =>
          Value.string (String.ofList (CodePoints.chars points))).mapError
            fun error => .refused (.lexical error)) ∧
      (∀ position, StringBody.decodePoints position (CodePoints.ofChars text.toList) =
        (StringBody.decode position text.toList).map CodePoints.ofChars) ∧
      ∀ position body points, StringBody.decodePoints position body = .ok points →
        points.filter StringBody.isSurrogate = body.filter StringBody.isSurrogate := by
  refine ⟨?_, ?_, ?_, ?_, ?_, ?_, ?_, ?_, ?_, ?_, ?_⟩
  · exact fun inferring value h => Value.proper_of_parseWith h
  · exact fun inferring entries h => Value.proper_of_parseItem h
  · exact fun actions h => Update.proper_of_parseSet h
  · exact fun condition h value hvalue => (SortCondition.parse_wellFormed h value hvalue).proper
  · exact fun strict key condition h value hvalue =>
      (SortCondition.parseFor_wellFormed h value hvalue).proper
  · exact fun type value h => (Key.isOperand_of_valueOf h).proper
  · exact fun token htoken content h => scanNested_cutFrom htoken h
  · exact fun position decoded units h spelled =>
      ⟨StringBody.paired_of_decode h spelled, spelled.unique (StringBody.decode_units h)⟩
  · exact fun outcome h => Value.parse_of_readLiteral? h
  · exact fun position => StringBody.decodePoints_ofChars position text.toList
  · exact fun position body points h => StringBody.filter_decodePoints h

/-! The theorem on texts with an escaped character, a list that becomes a set, and signs that are
glued to a number or taken off it. -/

set_option maxRecDepth 4000 in
theorem parseItem_escaped :
    Value.parseItem true "\x7bk: [\"\\ud83d\\ude00\", 'b'], n: -1.5E+3\x7d" =
      .ok [("k", .stringSet ["😀", "b"]), ("n", .number "-1.5E+3")] := by
  cbv

set_option maxRecDepth 4000 in
theorem parseSet_signed : Update.parseSet "x = +1 - -2" = .ok [.set [.name "x"]
    (.arithmetic .minus (.literal (.number "1")) (.literal (.number "-2")))] := by
  cbv

set_option maxRecDepth 4000 in
theorem parse_signed : SortCondition.parse "between +1 and - 3" =
    .ok (.between (.number "1") (.number "-3")) := by
  cbv

theorem parseFor_signed : SortCondition.parseFor false ⟨"id", .number⟩ "< '+4.'" =
    .ok (.compare .less (.number "4.")) := by
  cbv

theorem decode_escaped : StringBody.decode 1 "\\ud83d\\ude00".toList = .ok ['😀'] := by
  cbv

theorem spellsUnits_escaped :
    StringBody.SpellsUnits "\\ud83d\\ude00".toList [0xD83D, 0xDE00] := by
  have hlow : StringBody.SpellsUnits ['\\', 'u', 'd', 'e', '0', '0'] [0xDE00] :=
    @StringBody.SpellsUnits.unit ['d', 'e', '0', '0'] [] 0xDE00 [] rfl (by decide) .nil
  exact @StringBody.SpellsUnits.unit ['d', '8', '3', 'd'] _ 0xD83D _ rfl (by decide) hlow

theorem decodePoints_surrogate :
    StringBody.decodePoints 1 [0xD800, 0x5C, 0x6E] = .ok [0xD800, 0x0A] := by
  cbv

theorem proper_of_text_signed :
    (Value.map [("k", .stringSet ["😀", "b"]), ("n", .number "-1.5E+3")]).Proper ∧
      (Value.number "-2").Proper ∧ (Value.number "-3").Proper ∧ (Value.number "4.").Proper ∧
      Paired [0xD83D, 0xDE00] ∧ [0xD800, 0x0A].filter StringBody.isSurrogate =
        [0xD800, 0x5C, 0x6E].filter StringBody.isSurrogate := by
  obtain ⟨-, items, -⟩ := proper_of_text "\x7bk: [\"\\ud83d\\ude00\", 'b'], n: -1.5E+3\x7d"
  obtain ⟨-, -, literals, -⟩ := proper_of_text "x = +1 - -2"
  obtain ⟨-, -, -, operands, -⟩ := proper_of_text "between +1 and - 3"
  obtain ⟨-, -, -, -, fitted, -⟩ := proper_of_text "< '+4.'"
  obtain ⟨-, -, -, -, -, -, -, decoded, -, -, kept⟩ := proper_of_text "\\ud83d\\ude00"
  refine ⟨items true _ parseItem_escaped, ?_, ?_, ?_,
    (decoded 1 _ _ decode_escaped spellsUnits_escaped).1, kept 1 _ _ decodePoints_surrogate⟩
  · exact literals _ parseSet_signed _ List.mem_cons_self _
      (by simp [Action.literals, Formula.literals])
  · exact operands _ parse_signed _ (by simp [SortCondition.operands])
  · exact fitted _ _ _ parseFor_signed _ (by simp [SortCondition.operands])

/-- A surrogate that stands in a literal itself is in the string that the literal stands for. -/
theorem readLiteral?_surrogate :
    StringBody.readLiteral? [0x22, 0xD800, 0x22] = some (.ok [0xD800]) ∧
      StringBody.isSurrogate 0xD800 = true := by
  constructor <;> cbv

end AttributeExpr
