import AttributeExpr.Proofs.Token.Operand
import AttributeExpr.Proofs.Value.Grammar
/-!
Texts that are literals. A text is a literal for a value if it spells symbols from which the grammar
derives the value, wherever an operand may stand. Such texts are put together as their values are,
and each of them is parsed as its value.
-/
namespace AttributeExpr.Value

def IsLiteral (text : List Char) (value : Value) : Prop :=
  ∃ symbols, Derives symbols value ∧ Lexer.Spelling text symbols

namespace IsLiteral

variable {text blanks : List Char} {value : Value}

/-- A literal is parsed as the value that it stands for. -/
theorem parse_eq {text : String} (h : IsLiteral text.toList value) : parse text = .ok value := by
  obtain ⟨symbols, derives, spelling⟩ := h
  exact parse_of_spells spelling.spells derives

theorem scalar {symbol : Symbol} (spelling : Lexer.Spelling text [symbol])
    (h : ofSymbol? symbol = some value) : IsLiteral text value :=
  ⟨[symbol], .scalar h, spelling⟩

theorem word {word : String} (hid : Name.isIdentifier word.toList = true)
    (h : ofSymbol? (Lexer.wordSymbol word.toList) = some value) : IsLiteral word.toList value :=
  .scalar (.word hid) h

theorem layout_left (hb : ∀ c ∈ blanks, Lexer.isSeparator c = true) (h : IsLiteral text value) :
    IsLiteral (blanks ++ text) value := by
  obtain ⟨symbols, derives, spelling⟩ := h
  exact ⟨symbols, derives, spelling.layout_left hb⟩

theorem layout_right (hb : ∀ c ∈ blanks, Lexer.isSeparator c = true) (h : IsLiteral text value) :
    IsLiteral (text ++ blanks) value := by
  obtain ⟨symbols, derives, spelling⟩ := h
  exact ⟨symbols, derives, spelling.layout_right hb⟩

theorem emptyList (hb : ∀ c ∈ blanks, Lexer.isSeparator c = true) :
    IsLiteral ('[' :: (blanks ++ [']'])) (list []) :=
  ⟨_, .list [] (by simp), Lexer.Spelling.encloseLayout .square hb⟩

theorem emptyMap (hb : ∀ c ∈ blanks, Lexer.isSeparator c = true) :
    IsLiteral ('\x7b' :: (blanks ++ ['\x7d'])) (map []) :=
  ⟨_, .map [] (by simp) (by simp) (by simp), Lexer.Spelling.encloseLayout .brace hb⟩

/-- Items between brackets, with a comma and some layout between any two of them. -/
theorem list (parts : List (List Char × Value)) (nonempty : parts ≠ [])
    (hb : ∀ c ∈ blanks, Lexer.isSeparator c = true) (h : ∀ part ∈ parts, IsLiteral part.1 part.2) :
    IsLiteral ('[' :: ((',' :: blanks).intercalate (parts.map (·.1)) ++ [']']))
      (list (parts.map (·.2))) := by
  choose! symbols derives spelling using h
  have joined := Lexer.Spelling.join (parts.map fun part => (part.1, symbols part))
    (by simpa using nonempty) hb (List.forall_mem_map.mpr spelling)
  have derived := Derives.list (parts.map fun part => (symbols part, part.2))
    (List.forall_mem_map.mpr derives)
  have spelled := joined.enclose .square
  simp only [List.map_map, Function.comp_def] at spelled derived
  exact ⟨_, derived, spelled⟩

theorem set (parts : List (List Char × Value)) (nonempty : parts ≠ [])
    (hb : ∀ c ∈ blanks, Lexer.isSeparator c = true) (h : ∀ part ∈ parts, IsLiteral part.1 part.2)
    (forms : IsSetOf (parts.map (·.2)) value) :
    IsLiteral ('<' :: '<' :: ((',' :: blanks).intercalate (parts.map (·.1)) ++ ['>', '>']))
      value := by
  choose! symbols derives spelling using h
  have joined := Lexer.Spelling.join (parts.map fun part => (part.1, symbols part))
    (by simpa using nonempty) hb (List.forall_mem_map.mpr spelling)
  have derived := Derives.set (parts.map fun part => (symbols part, part.2))
    (List.forall_mem_map.mpr derives) (by simpa [Function.comp_def] using forms)
  have spelled := joined.enclose .set
  simp only [List.map_map, Function.comp_def] at spelled derived
  exact ⟨_, derived, spelled⟩

end IsLiteral

/-- The text of a key, and the text of the value behind it, with what they stand for. -/
structure EntryText where
  key : List Char
  name : String
  text : List Char
  value : Value

namespace EntryText

def spelled (part : EntryText) : List Char := part.key ++ ':' :: part.text

def entry (part : EntryText) : String × Value := (part.name, part.value)

end EntryText

/-- Entries between braces, with a comma and some layout between any two of them. -/
theorem IsLiteral.map {blanks : List Char} (parts : List EntryText) (nonempty : parts ≠ [])
    (hb : ∀ c ∈ blanks, Lexer.isSeparator c = true)
    (keys : ∀ part ∈ parts, Lexer.Spelling part.key [.string part.name])
    (h : ∀ part ∈ parts, IsLiteral part.text part.value) (distinct : (parts.map (·.name)).Nodup) :
    IsLiteral ('\x7b' :: ((',' :: blanks).intercalate (parts.map (·.spelled)) ++ ['\x7d']))
      (map (parts.map (·.entry))) := by
  choose! symbols derives spelling using h
  have joined := Lexer.Spelling.join
    (parts.map fun part =>
      (part.spelled, .string part.name :: .mark .colon :: symbols part))
    (by simpa using nonempty) hb
    (List.forall_mem_map.mpr fun part hp => (keys part hp).entry (spelling part hp))
  have derived := Derives.map
    (parts.map fun part => ⟨.string part.name, part.name, symbols part, part.value⟩)
    (List.forall_mem_map.mpr fun part _ => rfl) (List.forall_mem_map.mpr derives)
    (by simpa [Function.comp_def] using distinct)
  have spelled := joined.enclose .brace
  simp only [List.map_map, Function.comp_def] at spelled derived
  exact ⟨_, derived, spelled⟩

end AttributeExpr.Value
