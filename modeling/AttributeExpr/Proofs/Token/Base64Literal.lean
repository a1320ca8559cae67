import AttributeExpr.Proofs.Literal.Base64
import AttributeExpr.Proofs.Outcome
import AttributeExpr.Proofs.Token.Operand
import AttributeExpr.Proofs.Token.Scan
/-!
Base64 literals as tokens. Between the quotes the encoding of some bytes may be broken by white
space and may lack its padding; in either case it is one token with these bytes, and the scan goes
on right behind it. Whatever else stands between the quotes is decoded or refused as base64.
-/
namespace AttributeExpr.Base64Body

open Lexer (scan scanFrom)

/-- The literal with the given body. -/
def enclose (body : List Char) : String := "b64\"" ++ String.ofList body ++ "\""

theorem enclose_append (body : List Char) (rest : String) :
    (enclose body ++ rest).toList =
      'b' :: '6' :: '4' :: '\x22' :: (body ++ '\x22' :: rest.toList) := by
  simp [enclose]

/-- A body without quotes that can be decoded makes one token, whatever follows its literal. -/
theorem scan_enclose {body : List Char} {bytes : Bytes} (quotes : ∀ c ∈ body, c ≠ '\x22')
    (h : decode 0 body = .ok bytes) (rest : String) (line : Nat) :
    scan line (enclose body ++ rest) =
      (scanFrom (enclose body).length line (some ⟨.binary bytes, 0, line⟩) rest.toList).push
        ⟨.binary bytes, 0, line⟩ := by
  have hsplit : Lexeme.split? false
      ('b' :: '6' :: '4' :: '\x22' :: (body ++ '\x22' :: rest.toList)) =
        some (.base64 body, rest.toList) := by
    apply Lexer.split?_quoted
    simp [Lexeme.quoted?, plainBody?_append quotes]
  have hsymbol : (Lexeme.base64 body).symbol 0 = .ok (.binary bytes) := by
    simp [Lexeme.symbol, h, Except.map]
  have hlength : (enclose body ++ rest).length - rest.toList.length = (enclose body).length := by
    rw [String.length_append, String.length_toList, Nat.add_sub_cancel]
  rw [Lexer.scan_of_split? (enclose_append body rest) (by decide) hsplit hsymbol, hlength]
  rfl

/-- Every body is decoded or refused as base64, at the place where its literal starts. -/
theorem decode_cases (position : Nat) (body : List Char) :
    (∃ bytes, decode position body = .ok bytes) ∨
      ∃ fault, decode position body = .error (.base64 fault position) := by
  unfold decode
  dsimp only
  generalize Base64.decode _ = outcome
  cases outcome with
  | ok bytes => exact .inl ⟨bytes, rfl⟩
  | error fault => exact .inr ⟨fault, rfl⟩

/-- White space and missing padding change neither what an encoding is decoded as nor the token
that its literal makes. The literal of some bytes is the first token of whatever begins with it. A
body is decoded or refused as base64. -/
theorem literals_tolerant :
    (∀ (bytes : Bytes) (text body : List Char), Unpadded text bytes → SpacedOut text body →
      (∀ position, decode position body = .ok bytes) ∧
        ∀ (rest : String) (line : Nat), scan line (enclose body ++ rest) =
          (scanFrom (enclose body).length line (some ⟨.binary bytes, 0, line⟩) rest.toList).push
            ⟨.binary bytes, 0, line⟩) ∧
    (∀ (bytes : Bytes) (rest : String) (line : Nat), scan line (literal bytes ++ rest) =
      (scanFrom (literal bytes).length line (some ⟨.binary bytes, 0, line⟩) rest.toList).push
        ⟨.binary bytes, 0, line⟩) ∧
    ∀ (position : Nat) (body : List Char), (∃ bytes, decode position body = .ok bytes) ∨
      ∃ fault, decode position body = .error (.base64 fault position) := by
  refine ⟨?_, ?_, decode_cases⟩
  · intro bytes text body unpadded spaced
    have hdecode := decode_spacedOut unpadded spaced
    exact ⟨hdecode, scan_enclose (unpadded.ne_quote spaced) (hdecode 0)⟩
  · intro bytes rest line
    have hquotes := (unpadded_encode bytes).ne_quote (.refl _)
    exact scan_enclose hquotes (decode_encode 0 bytes) rest line

/-- One of two padding characters is left, and the body goes over two lines. -/
theorem literals_tolerant_layout :
    Unpadded ['A', 'Q', '='] [1] ∧
      SpacedOut ['A', 'Q', '='] [' ', 'A', '\n', '\u00a0', 'Q', '=', '\t'] ∧
      decode 7 [' ', 'A', '\n', '\u00a0', 'Q', '=', '\t'] = .ok [1] ∧
      (scan 1 (enclose [' ', 'A', '\n', '\u00a0', 'Q', '=', '\t'] ++ "5")).tokens.head? =
        some ⟨.binary [1], 0, 1⟩ := by
  have unpadded : Unpadded ['A', 'Q', '='] [1] := ⟨1, by decide⟩
  have spaced : SpacedOut ['A', 'Q', '='] [' ', 'A', '\n', '\u00a0', 'Q', '=', '\t'] :=
    .blank (by decide) <| .char _ <| .blank (by decide) <| .blank (by decide) <| .char _ <|
      .char _ <| .blank (by decide) .nil
  obtain ⟨hdecode, hscan⟩ := literals_tolerant.1 [1] _ _ unpadded spaced
  refine ⟨unpadded, spaced, hdecode 7, ?_⟩
  rw [hscan]
  rfl

end AttributeExpr.Base64Body
