import AttributeExpr.Proofs.Context
import AttributeExpr.Proofs.Text.Hex
import AttributeExpr.Proofs.Token.Sign
import AttributeExpr.Proofs.Token.Stretch
import AttributeExpr.SortCondition.Resolution
/-!
The readers of numbers. A number may be read as a literal, as the value of a key and as a string
that is taken for a number. On texts without blanks all three read the same numerals, and read them
alike. A number goes to its string and back, and bytes can be read from either case of their digits.
-/
namespace AttributeExpr

namespace Numeral

/-- A text is read as a numeral: a plus sign in front of it is dropped. -/
inductive Reads : List Char → List Char → Prop where
  | signed {numeral : List Char} (h : Signed numeral) : Reads numeral numeral
  | plus {numeral : List Char} (h : Unsigned numeral) : Reads ('+' :: numeral) numeral

theorem Reads.isSigned {text numeral : List Char} (h : Reads text numeral) : Signed numeral := by
  cases h with
  | signed h => exact h
  | plus h => exact .plain h

theorem Reads.subset {text numeral : List Char} (h : Reads text numeral) : numeral ⊆ text := by
  cases h with
  | signed => exact fun _ hc => hc
  | plus => exact List.subset_cons_self _ _

theorem isUnsigned_iff {text : List Char} : isUnsigned text = true ↔ Unsigned text := by
  constructor
  · exact unsigned_of_isUnsigned
  · intro h
    have hsplit := split?_append h (stops_nil continues)
    rw [List.append_nil] at hsplit
    simp [isUnsigned, hsplit]

theorem Unsigned.head_ne {c : Char} {text : List Char} (h : Unsigned (c :: text)) :
    c ≠ '+' ∧ c ≠ '-' := by
  obtain ⟨d, rest, heq, hd⟩ := Lexer.head_of_unsigned h
  obtain ⟨rfl, -⟩ := List.cons.inj heq
  constructor <;> · rintro rfl; contradiction

/-- The reader of plain numerals reads what the grammar of numerals says. -/
theorem read?_eq_some_iff {text numeral : List Char} :
    read? text = some numeral ↔ Reads text numeral := by
  constructor
  · intro h
    unfold read? at h
    split at h
    all_goals
      split_ifs at h with hunsigned
      obtain rfl := Option.some.inj h
      have unsigned := isUnsigned_iff.mp hunsigned
    · exact .plus unsigned
    · exact .signed (.minus unsigned)
    · exact .signed (.plain unsigned)
  · intro h
    cases h with
    | plus h => rw [read?, if_pos (isUnsigned_iff.mpr h)]
    | signed h =>
      cases h with
      | minus h => rw [read?, if_pos (isUnsigned_iff.mpr h)]
      | plain h =>
        unfold read?
        split
        · exact absurd rfl h.head_ne.1
        · exact absurd rfl h.head_ne.2
        · rw [if_pos (isUnsigned_iff.mpr h)]

end Numeral

namespace Lexer

/-- A numeral with any sign spells one number, without the plus sign. -/
theorem spells_of_reads {text numeral : List Char} (h : Numeral.Reads text numeral) :
    Spells false text [.number (String.ofList numeral)] := by
  have hnumeral : (String.ofList numeral).toList = numeral := String.toList_ofList
  cases h with
  | signed h =>
    rw [← hnumeral] at h
    simpa using (Spelling.number h).spells
  | plus h =>
    rw [← hnumeral] at h
    simpa [signChar, signedSymbols, signedText] using spells_signed h false false

/-- A text without separators that spells one number is a numeral from end to end. -/
theorem reads_of_spells {text : List Char} {number : String}
    (solid : ∀ c ∈ text, isSeparator c = false) (h : Spells false text [.number number]) :
    Numeral.Reads text number.toList := by
  obtain ⟨lexeme, rest, split, reads, further⟩ := h.exists_split? solid
  rw [Lexeme.symbol_eq_number (reads 0)] at split
  obtain ⟨front, rfl, -⟩ := Lexeme.split?_alone split
  obtain rfl := further.eq_nil fun c hc => solid c (List.mem_append_right front hc)
  generalize number.toList = numeral at split
  cases Lexeme.cut_of_split? split with
  | number unsigned heq =>
    rw [heq, List.append_nil]
    exact .signed (.plain unsigned)
  | plus unsigned _ heq =>
    rw [heq, List.append_nil]
    exact .plus unsigned
  | minus unsigned _ heq =>
    rw [heq, List.append_nil]
    exact .signed (.minus unsigned)

end Lexer

/-! Hexadecimal digits in either case. -/

theorem hexValue?_toLower (c : Char) : hexValue? c.toLower = hexValue? c := by
  by_cases h : 0x41 ≤ c.toNat ∧ c.toNat ≤ 0x5A
  · obtain ⟨hlow, hhigh⟩ := h
    rw [← Char.ofNat_toNat c]
    generalize c.toNat = n at hlow hhigh
    interval_cases n <;> decide
  · rw [show c.toLower = c from dif_neg h]

namespace Bytes

theorem ofHexDigits?_toLower (digits : List Char) :
    ofHexDigits? (digits.map Char.toLower) = ofHexDigits? digits := by
  fun_induction ofHexDigits? digits <;> simp_all [ofHexDigits?, hexValue?_toLower]

theorem ofHexDigits?_toHex (bytes : Bytes) : ofHexDigits? (toHex bytes).toList = some bytes := by
  rw [toHex, String.toList_ofList]
  induction bytes with
  | nil => rfl
  | cons byte bytes ih =>
    have hdigits : hexDigits 2 byte.toNat = [hexDigit (byte.toNat / 16), hexDigit byte.toNat] := rfl
    have hlt : byte.toNat < 256 := byte.toNat_lt
    have hbyte : 16 * (byte.toNat / 16 % 16) + byte.toNat % 16 = byte.toNat := by omega
    rw [List.flatMap_cons, hdigits, List.cons_append, List.cons_append, List.nil_append,
      ofHexDigits?, hexValue?_hexDigit, hexValue?_hexDigit, ih]
    simp [hbyte]

/-- A text spells bytes in hexadecimal digits of either case. -/
def SpelledBy (bytes : Bytes) (text : String) : Prop :=
  text.toList.map Char.toLower = (toHex bytes).toList

theorem SpelledBy.ofHexDigits? {bytes : Bytes} {text : String} (h : bytes.SpelledBy text) :
    ofHexDigits? text.toList = some bytes := by
  rw [← ofHexDigits?_toLower, h, ofHexDigits?_toHex]

end Bytes

theorem trim_solid {text : List Char} (h : ∀ c ∈ text, isBlank c = false) : trim text = text := by
  have hstart : trimStart text = text := by
    cases text with
    | nil => rfl
    | cons c rest => simp [trimStart, h c List.mem_cons_self]
  have hend : trimEnd text = text := by
    rw [trimEnd]
    cases hreverse : text.reverse with
    | nil => simpa using hreverse
    | cons c rest =>
      have hc : isBlank c = false := h c (by rw [← List.mem_reverse, hreverse]; simp)
      rw [List.dropWhile_cons, if_neg (by simp [hc]), ← hreverse, List.reverse_reverse]
  rw [trim, hstart, hend]

namespace Value

/-- A literal without blanks in it is a number just where it is a numeral. -/
theorem parse_number_iff {text : String} (solid : ∀ c ∈ text.toList, isBlank c = false)
    {value : Value} : Value.parse text = .ok value ∧ value.type = .number ↔
      ∃ numeral, Numeral.Reads text.toList numeral ∧ value = .number (String.ofList numeral) := by
  constructor
  · rintro ⟨h, htype⟩
    have scalar : value.IsScalar := by
      rw [IsScalar, htype]
      rfl
    obtain ⟨symbols, spells, derives⟩ := exists_spells_of_parse h
    obtain ⟨symbol, rfl, hsymbol⟩ := derives.exists_scalarSymbol scalar
    cases hsymbol with
    | number number =>
      have separated (c : Char) (hc : c ∈ text.toList) : Lexer.isSeparator c = false := by
        by_contra hseparator
        have hblank := Lexer.isBlank_of_isSeparator (Bool.eq_true_of_not_eq_false hseparator)
        rw [solid c hc] at hblank
        contradiction
      exact ⟨number.toList, Lexer.reads_of_spells separated spells, by simp⟩
    | string | binary => cases htype
  · rintro ⟨numeral, reads, rfl⟩
    exact ⟨parse_of_spells (Lexer.spells_of_reads reads) (.scalar rfl), rfl⟩

theorem valueOf_number_iff {text : String} {value : Value} :
    Key.valueOf .number text = .ok value ↔
      ∃ numeral, Numeral.Reads text.toList numeral ∧ value = .number (String.ofList numeral) := by
  simp only [← Numeral.read?_eq_some_iff, Key.valueOf]
  cases Numeral.read? text.toList <;> simp [refuse, eq_comm]

theorem coerce_number_iff {text : String} {value : Value} :
    coerce .number (.string text) = .ok value ↔
      ∃ numeral, Numeral.Reads (trim text.toList) numeral ∧
        value = .number (String.ofList numeral) := by
  have hother : (Value.string text).type ≠ .number := nofun
  simp only [← Numeral.read?_eq_some_iff, coerce, if_neg hother]
  cases Numeral.read? (trim text.toList) <;> simp [eq_comm]

/-- A number is the string of its text, from which it is read again. -/
theorem coerce_number_string {text : String} (solid : ∀ c ∈ text.toList, isBlank c = false)
    (h : Numeral.Signed text.toList) :
    coerce .string (.number text) >>= coerce .number = .ok (.number text) := by
  show coerce .number (.string text) = _
  rw [coerce_number_iff, trim_solid solid]
  exact ⟨text.toList, .signed h, by simp⟩

theorem coerce_binary {data : Bytes} (nonempty : data ≠ []) {text : String}
    (h : data.SpelledBy text) : coerce .binary (.string text) = .ok (.binary data) := by
  obtain ⟨byte, rest, rfl⟩ := List.exists_cons_of_ne_nil nonempty
  simp [coerce, type, h.ofHexDigits?]

/-- The readers of numbers agree on texts without blanks: the literals that are numbers, the values
of number keys and the strings that can be taken for numbers are the same numerals, with the same
number for each. Such a number goes to its string and back. Bytes are read from any spelling of
their digits. -/
theorem number_readers_agree {text : String} (solid : ∀ c ∈ text.toList, isBlank c = false) :
    (∀ value, [Value.parse text = .ok value ∧ value.type = .number,
        Key.valueOf .number text = .ok value,
        coerce .number (.string text) = .ok value,
        ∃ numeral, Numeral.Reads text.toList numeral ∧
          value = .number (String.ofList numeral)].TFAE) ∧
      (∀ value, Key.valueOf .number text = .ok value →
        coerce .string value >>= coerce .number = .ok value) ∧
      ∀ (data : Bytes) (spelling : String), data ≠ [] → data.SpelledBy spelling →
        coerce .binary (.string spelling) = .ok (.binary data) := by
  refine ⟨fun value => ?_, fun value h => ?_,
    fun data spelling nonempty h => coerce_binary nonempty h⟩
  · have hcoerce := @coerce_number_iff text value
    rw [trim_solid solid] at hcoerce
    tfae_have 1 ↔ 4 := parse_number_iff solid
    tfae_have 2 ↔ 4 := valueOf_number_iff
    tfae_have 3 ↔ 4 := hcoerce
    tfae_finish
  · obtain ⟨numeral, reads, rfl⟩ := valueOf_number_iff.mp h
    have solid' : ∀ c ∈ (String.ofList numeral).toList, isBlank c = false := by
      rw [String.toList_ofList]
      exact fun c hc => solid c (reads.subset hc)
    exact coerce_number_string solid' (by simpa using reads.isSigned)

theorem number_readers_agree_plus :
    Value.parse "+007.E-2" = .ok (.number "007.E-2") ∧
      coerce .number (.string "+007.E-2") = .ok (.number "007.E-2") ∧
      coerce .number (.string "007.E-2") = .ok (.number "007.E-2") ∧
      coerce .binary (.string "0aFf") = .ok (.binary [0x0A, 0xFF]) := by
  have solid : ∀ c ∈ "+007.E-2".toList, isBlank c = false := by simp [isBlank]
  obtain ⟨agree, back, hexadecimal⟩ := number_readers_agree solid
  have hkey : Key.valueOf .number "+007.E-2" = .ok (.number "007.E-2") := rfl
  have hsame := agree (.number "007.E-2")
  have hparse := (hsame.out 1 0 rfl rfl).mp hkey
  refine ⟨hparse.1, (hsame.out 1 2 rfl rfl).mp hkey, back _ hkey, ?_⟩
  exact hexadecimal _ _ (List.cons_ne_nil _ _) (by unfold Bytes.SpelledBy; decide)

end Value

end AttributeExpr
