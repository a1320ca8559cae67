import AttributeExpr.Proofs.JsonText.Grammar
import AttributeExpr.Proofs.Value.Literal
/-!
JSON as a part of the language of literals. Every spelling of a document is a literal for the value
that corresponds to the document, if no object repeats a key.
-/
namespace AttributeExpr.JsonText

theorem isSeparator_of_isSpace {c : Char} (h : isSpace c = true) :
    Lexer.isSeparator c = true := h

theorem isSeparator_of_isSpaces {blanks : List Char} (h : ∀ c ∈ blanks, isSpace c = true) :
    ∀ c ∈ blanks, Lexer.isSeparator c = true := fun c hc => isSeparator_of_isSpace (h c hc)

theorem isSeparator_nil : ∀ c ∈ ([] : List Char), Lexer.isSeparator c = true := by simp

theorem IsFraction.numeral {text : List Char} (h : IsFraction text) : Numeral.IsFraction text := by
  cases h with
  | absent => exact .absent
  | point _ h => exact .point h

theorem IsExponent.numeral {text : List Char} (h : IsExponent text) : Numeral.IsExponent text := by
  cases h with
  | absent => exact .absent
  | power letter_eq sign_eq nonempty h => exact .power letter_eq sign_eq nonempty h

theorem IsWhole.digits {text : List Char} (h : IsWhole text) :
    text ≠ [] ∧ ∀ c ∈ text, Numeral.isDigit c = true := by
  cases h with
  | zero => exact ⟨by simp, List.forall_mem_singleton.mpr rfl⟩
  | positive _ h => exact ⟨by simp, h⟩

theorem IsNumber.signed {text : List Char} (h : IsNumber text) : Numeral.Signed text := by
  cases h with
  | plain integral fractional powered =>
    exact .plain (.parts integral.digits.1 integral.digits.2 fractional.numeral powered.numeral)
  | minus integral fractional powered =>
    exact .minus (.parts integral.digits.1 integral.digits.2 fractional.numeral powered.numeral)

theorem shortEscape?_of_mem {letter c : Char} (h : (letter, c) ∈ shortEscapes) :
    StringBody.shortEscape? letter = some c := by
  simp only [shortEscapes, List.mem_cons, Prod.mk.injEq, List.not_mem_nil, or_false] at h
  rcases h with ⟨rfl, rfl⟩ | ⟨rfl, rfl⟩ | ⟨rfl, rfl⟩ | ⟨rfl, rfl⟩ | ⟨rfl, rfl⟩ | ⟨rfl, rfl⟩ |
    ⟨rfl, rfl⟩ | ⟨rfl, rfl⟩ <;> rfl

/-- The two code units of a character beyond the basic plane give the character back. -/
theorem surrogatePair_units {c : Char} (beyond : 0x10000 ≤ c.toNat) :
    StringBody.surrogatePair (0xD800 + (c.toNat - 0x10000) / 0x400)
      (0xDC00 + (c.toNat - 0x10000) % 0x400) = c := by
  have hpoint : StringBody.surrogatePoint (0xD800 + (c.toNat - 0x10000) / 0x400)
      (0xDC00 + (c.toNat - 0x10000) % 0x400) = c.toNat := by
    simp only [StringBody.surrogatePoint]
    omega
  rw [StringBody.surrogatePair, hpoint, Char.ofNat_toNat]

theorem SpellsChar.stringBody {piece : List Char} {c : Char} (h : SpellsChar piece c) :
    StringBody.SpellsChar piece c := by
  cases h with
  | raw _ quote escape => exact .plain escape quote
  | short h => exact .short (shortEscape?_of_mem h)
  | unit length h =>
    have hc := CodePoints.not_surrogate c
    have hunit := StringBody.SpellsChar.unit length h
      (by simp [StringBody.isHighSurrogate]; omega) (by simp [StringBody.isLowSurrogate]; omega)
    rwa [Char.ofNat_toNat] at hunit
  | pair beyond length high length' low =>
    have hc := CodePoints.not_surrogate c
    have hpair := StringBody.SpellsChar.pair length high
      (by simp [StringBody.isHighSurrogate]; omega) length' low
      (by simp [StringBody.isLowSurrogate]; omega)
    rwa [surrogatePair_units beyond] at hpair

theorem SpellsChars.stringBody {body text : List Char} (h : SpellsChars body text) :
    StringBody.Spells body text := by
  induction h with
  | nil => exact .nil
  | cons first _ ih => exact .cons first.stringBody ih

theorem SpellsString.spelling {text : List Char} {meaning : String}
    (h : SpellsString text meaning) : Lexer.Spelling text [.string meaning] := by
  cases h with
  | quoted h => exact Lexer.Spelling.string h.stringBody

theorem MemberText.KeySpelled.spelling {part : MemberText} (h : part.KeySpelled) :
    Lexer.Spelling (part.before ++ part.key ++ part.after) [.string part.name] :=
  (h.key.spelling.layout_left (isSeparator_of_isSpaces h.before)).layout_right
    (isSeparator_of_isSpaces h.after)

/-- The entry that a member of an object is read as. -/
def MemberText.entryText (part : MemberText) : Value.EntryText :=
  ⟨part.before ++ part.key ++ part.after, part.name, part.text, part.tree.value⟩

/-- A spelling of a document is a literal for the value of the document. -/
theorem Spells.isLiteral {text : List Char} {tree : Tree} (h : Spells text tree)
    (unique : tree.UniqueKeys) : Value.IsLiteral text tree.value := by
  induction h with
  | @before c _ _ space _ ih =>
    have hb : ∀ d ∈ [c], (Lexer.isSeparator d : Prop) := by
      simpa using isSeparator_of_isSpace space
    exact (ih unique).layout_left hb
  | after _ space ih =>
    exact (ih unique).layout_right (by simpa using isSeparator_of_isSpace space)
  | null => exact .word (by decide) rfl
  | true => exact .word (by decide) rfl
  | false => exact .word (by decide) rfl
  | number h => exact .scalar (.number h.signed) rfl
  | string h => exact .scalar h.spelling rfl
  | emptyArray spaces => exact .emptyList (isSeparator_of_isSpaces spaces)
  | array parts nonempty h ih =>
    cases unique with
    | array unique =>
    have hlist := Value.IsLiteral.list (parts.map fun part => (part.1, part.2.value))
      (by simpa using nonempty) isSeparator_nil
      (List.forall_mem_map.mpr fun part hp => ih part hp (unique _ (List.mem_map_of_mem hp)))
    simpa [Tree.value, Tree.values_eq_map, Function.comp_def] using hlist
  | emptyObject spaces => exact .emptyMap (isSeparator_of_isSpaces spaces)
  | object parts nonempty keys h ih =>
    cases unique with
    | object distinct unique =>
    have hkeys : ∀ part ∈ parts.map MemberText.entryText,
        Lexer.Spelling part.key [.string part.name] := by
      rw [List.forall_mem_map]
      intro part hp
      exact (keys part hp).spelling
    have hvalues : ∀ part ∈ parts.map MemberText.entryText,
        Value.IsLiteral part.text part.value := by
      rw [List.forall_mem_map]
      intro part hp
      exact ih part hp (unique _ (List.mem_map_of_mem hp))
    have hmap := Value.IsLiteral.map _ (by simpa using nonempty) isSeparator_nil hkeys
      hvalues (by simpa [Function.comp_def, MemberText.entryText, MemberText.member] using distinct)
    simpa [Tree.value, Tree.entries_eq_map, Function.comp_def, MemberText.entryText,
      MemberText.spelled, MemberText.member, Value.EntryText.spelled, Value.EntryText.entry]
      using hmap

/-- Every spelling of a document without repeated keys is parsed as the value that corresponds to
the document. -/
theorem parse_document {text : String} {tree : Tree} (h : Spells text.toList tree)
    (unique : tree.UniqueKeys) : Value.parse text = .ok tree.value :=
  (h.isLiteral unique).parse_eq

theorem parse_document_escaped :
    Value.parse "[-0.5E+2,\t\"\\ud83d\\ude00\\/\"]" =
      .ok (.list [.number "-0.5E+2", .string "😀/"]) := by
  have number : Spells "-0.5E+2".toList (.number "-0.5E+2") :=
    .number (.minus .zero
      (@IsFraction.point ['5'] (by simp) (List.forall_mem_singleton.mpr rfl))
      (@IsExponent.power 'E' ['+'] ['2'] (.inr rfl) (by simp) (by simp)
        (List.forall_mem_singleton.mpr rfl)))
  have face : SpellsChar "\\ud83d\\ude00".toList '😀' :=
    @SpellsChar.pair "d83d".toList "de00".toList _ (by decide) rfl rfl rfl rfl
  have slash : SpellsChar "\\/".toList '/' := .short (by decide)
  have string : Spells "\t\"\\ud83d\\ude00\\/\"".toList (.string "😀/") :=
    .before rfl (.string (.quoted (.cons face (.cons slash .nil))))
  have array : Spells "[-0.5E+2,\t\"\\ud83d\\ude00\\/\"]".toList
      (.array [.number "-0.5E+2", .string "😀/"]) :=
    .array [("-0.5E+2".toList, _), ("\t\"\\ud83d\\ude00\\/\"".toList, _)] (by simp)
      (List.forall_mem_cons.mpr ⟨number, List.forall_mem_singleton.mpr string⟩)
  exact parse_document array
    (.array (List.forall_mem_cons.mpr ⟨.number _, List.forall_mem_singleton.mpr (.string _)⟩))

end AttributeExpr.JsonText
