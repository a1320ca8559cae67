import AttributeExpr.Proofs.Literal.CodeUnit
import AttributeExpr.Proofs.Literal.Escape
import AttributeExpr.Proofs.Token.Operand
import AttributeExpr.Proofs.Token.Scan
/-!
String literals as tokens. The literal of a text is the first token of whatever begins with it, and
the scan goes on right behind it. Its inside is decoded as the text; and whatever stands inside a
literal is decoded as a text with the code units that it spells, or is refused for an escape.
-/
namespace AttributeExpr.StringBody

open Lexer (scan scanFrom)

theorem newline_not_mem_encodeChar (c : Char) : '\n' ∉ encodeChar c := by
  unfold encodeChar
  split
  case h_8 _ _ _ _ hline _ _ =>
    split_ifs with hcontrol
    · intro hmem
      have hdigits := isHexDigit_of_hexNumber? (hexNumber?_hexDigits 4 c.toNat)
      exact absurd (hdigits '\n' (by simpa using hmem)) (by decide)
    · simpa using Ne.symm hline
  all_goals decide

/-- A line break is written as an escape. -/
theorem newline_not_mem_encode (text : List Char) :
    '\n' ∉ encode (CodePoints.ofChars text) := by
  intro hmem
  rw [encode_ofChars] at hmem
  obtain ⟨c, -, hc⟩ := List.mem_flatMap.mp hmem
  exact newline_not_mem_encodeChar c hc

theorem literal_append (text rest : String) :
    (literal text ++ rest).toList =
      '\x22' :: (encode (CodePoints.ofChars text.toList) ++ '\x22' :: rest.toList) := by
  simp [literal, literalOf]

/-- A literal is one token, on one line, whatever follows it. -/
theorem scan_literal (text rest : String) (line : Nat) :
    scan line (literal text ++ rest) =
      (scanFrom (literal text).length line (some ⟨.string text, 0, line⟩) rest.toList).push
        ⟨.string text, 0, line⟩ := by
  have hspelled := spells_encode text.toList
  generalize hbody : encode (CodePoints.ofChars text.toList) = body at hspelled
  have htext := literal_append text rest
  rw [hbody] at htext
  have hsplit : Lexeme.split? false ('\x22' :: (body ++ '\x22' :: rest.toList)) =
      some (.string body, rest.toList) := by
    apply Lexer.split?_quoted
    simp [Lexeme.quoted?, outline?_append hspelled]
  have hsymbol : (Lexeme.string body).symbol 0 = .ok (.string text) := by
    simp [Lexeme.symbol, decode_spells hspelled, Except.map]
  have hlines : (Lexeme.string body).lineBreaks = 0 :=
    List.count_eq_zero.mpr (hbody ▸ newline_not_mem_encode text.toList)
  have hlength : (literal text ++ rest).length - rest.toList.length = (literal text).length := by
    rw [String.length_append, String.length_toList, Nat.add_sub_cancel]
  rw [Lexer.scan_of_split? htext (by decide) hsplit hsymbol, hlines, hlength, Nat.add_zero]

/-- The inside of a literal stands for its text. -/
theorem decode_literal (position : Nat) (text : String) :
    decode position (literal text).toList.tail.dropLast = .ok text.toList := by
  have hinside : (literal text).toList.tail.dropLast = encode (CodePoints.ofChars text.toList) := by
    simp [literal, literalOf]
  rw [hinside, decode_spells (spells_encode text.toList)]

/-- Every body is decoded or refused for an escape. The text that it is decoded as has the code
units that the body spells, and no surrogate without its partner among them. -/
theorem decode_cases (position : Nat) (body : List Char) :
    (∃ error, decode position body = .error error ∧ error.IsEscape) ∨
      ∃ text, decode position body = .ok text ∧ (∀ c ∈ text, c.toNat ≤ 0x10FFFF) ∧
        SpellsUnits body (text.flatMap codeUnits) ∧ Paired (text.flatMap codeUnits) := by
  cases h : decode position body with
  | error error => exact .inl ⟨error, rfl, (decode_failsOnly position body error h).escape⟩
  | ok text =>
    refine .inr ⟨text, rfl, fun c _ => ?_, decode_units h, paired_codeUnits text⟩
    have hvalid := CodePoints.not_surrogate c
    omega

theorem decode_append {p q : Nat} {body body' text text' : List Char}
    (h : decode p body = .ok text) (h' : decode q body' = .ok text') (position : Nat) :
    decode position (body ++ body') = .ok (text ++ text') :=
  decode_of_denotes ((denotes_of_decode h).append (denotes_of_decode h')) position

/-- The literal of a text is the first token of whatever begins with it and stands for the text; a
body stands for a text that has its code units unless an escape in it is wrong; and two bodies one
behind the other stand for the two texts one behind the other. -/
theorem literals_faithful :
    (∀ (text rest : String) (line : Nat),
      scan line (literal text ++ rest) =
          (scanFrom (literal text).length line (some ⟨.string text, 0, line⟩) rest.toList).push
            ⟨.string text, 0, line⟩ ∧
        decode 0 (literal text).toList.tail.dropLast = .ok text.toList) ∧
    (∀ (position : Nat) (body : List Char),
      (∃ error, decode position body = .error error ∧ error.IsEscape) ∨
        ∃ text, decode position body = .ok text ∧ (∀ c ∈ text, c.toNat ≤ 0x10FFFF) ∧
          SpellsUnits body (text.flatMap codeUnits) ∧ Paired (text.flatMap codeUnits)) ∧
    ∀ (position : Nat) (body body' text text' : List Char), decode position body = .ok text →
      decode position body' = .ok text' →
        decode position (body ++ body') = .ok (text ++ text') := by
  refine ⟨?_, decode_cases, ?_⟩
  · intro text rest line
    exact ⟨scan_literal text rest line, decode_literal 0 text⟩
  · intro position body body' text text' h h'
    exact decode_append h h' position

/-- The halves of a surrogate pair in one body, a control character in the next. -/
theorem literals_faithful_pair :
    decode 0 ['\\', 'u', 'd', '8', '3', 'd', '\\', 'u', 'd', 'e', '0', '0'] = .ok ['😀'] ∧
      decode 0 ['\\', '0'] = .ok ['\x00'] ∧
        decode 0 (['\\', 'u', 'd', '8', '3', 'd', '\\', 'u', 'd', 'e', '0', '0'] ++ ['\\', '0']) =
          .ok (['😀'] ++ ['\x00']) := by
  have h : decode 0 ['\\', 'u', 'd', '8', '3', 'd', '\\', 'u', 'd', 'e', '0', '0'] = .ok ['😀'] := by
    cbv
  have h' : decode 0 ['\\', '0'] = .ok ['\x00'] := by cbv
  exact ⟨h, h', literals_faithful.2.2 0 _ _ _ _ h h'⟩

end AttributeExpr.StringBody
