import AttributeExpr.Proofs.Token.Operand
/-!
Signs. Before a numeral, a sign is part of the number unless an operand ends before it, and then a
plus sign is dropped. Everywhere else a sign is a mark.
-/
namespace AttributeExpr

/-- No numeral is cut off a text that begins with something other than a digit. -/
theorem Numeral.split?_eq_none {text : List Char} (h : Stops isDigit text) :
    split? text = none := by
  have hdigits : text.takeWhile isDigit = [] := h.takeWhile_eq (List.forall_mem_nil _)
  simp [split?, hdigits]

namespace Lexer

def signChar (negative : Bool) : Char := if negative then '-' else '+'

def signMark (negative : Bool) : Mark := if negative then .minus else .plus

/-- The text of the number that a sign and a numeral make. -/
def signedText (negative : Bool) (numeral : String) : String :=
  if negative then "-" ++ numeral else numeral

/-- The symbols that a sign and a numeral spell, behind an operand and elsewhere. -/
def signedSymbols (operand negative : Bool) (numeral : String) : List Symbol :=
  if operand then [.mark (signMark negative), .number numeral]
  else [.number (signedText negative numeral)]

theorem endsOperand_signMark (negative : Bool) :
    (Symbol.mark (signMark negative)).endsOperand = false := by
  cases negative <;> rfl

/-- A sign takes the numeral behind it where no operand ends before it, and is a mark otherwise. -/
theorem split?_sign (operand negative : Bool) (rest : List Char) :
    Lexeme.split? operand (signChar negative :: rest) =
      match operand, Numeral.split? rest with
      | false, some (numeral, after) =>
        some (.number (if negative then '-' :: numeral else numeral), after)
      | _, _ => some (.mark (signMark negative), rest) := by
  have hquoted : Lexeme.quoted? (signChar negative :: rest) = none :=
    quoted?_eq_none (by cases negative <;> rfl) rest
  rw [Lexeme.split?, hquoted, Option.none_or]
  cases negative with
  | false =>
    show ((Numeral.split? rest).map _).or _ = _
    cases operand <;> cases Numeral.split? rest <;> rfl
  | true =>
    show ((Numeral.split? rest).map _).or _ = _
    cases operand <;> cases Numeral.split? rest <;> rfl

theorem spells_signed {numeral : String} (h : Numeral.Unsigned numeral.toList)
    (operand negative : Bool) :
    Spells operand (signChar negative :: numeral.toList)
      (signedSymbols operand negative numeral) := by
  have hnumeral : Numeral.split? numeral.toList = some (numeral.toList, []) := by
    simpa using Numeral.split?_append h (stops_nil _)
  have hsplit := split?_sign operand negative numeral.toList
  rw [hnumeral] at hsplit
  cases operand with
  | true =>
    refine .lexeme hsplit (fun _ => rfl) ?_
    rw [endsOperand_signMark]
    exact (Spelling.number (.plain h)).spells
  | false =>
    refine .lexeme hsplit (fun position => ?_) .nil
    cases negative <;> simp [Lexeme.symbol, signedText]

/-- A sign in front of something other than a numeral. -/
theorem Spells.loneSign {operand : Bool} {rest : List Char} {symbols : List Symbol}
    (negative : Bool) (h : Stops Numeral.isDigit rest) (further : Spells false rest symbols) :
    Spells operand (signChar negative :: rest) (.mark (signMark negative) :: symbols) := by
  have hmark : Lexeme.split? operand (signChar negative :: rest) =
      some (.mark (signMark negative), rest) := by
    rw [split?_sign, Numeral.split?_eq_none h]
    cases operand <;> rfl
  refine .lexeme hmark (fun _ => rfl) ?_
  rwa [endsOperand_signMark]

end Lexer

end AttributeExpr
