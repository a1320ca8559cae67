import AttributeExpr.Proofs.Literal.ByteBody
import AttributeExpr.Proofs.Literal.StringBody
/-!
Escapes that stand for nothing. Only an escape keeps the inside of a literal from being decoded, and
the error has the place of its backslash.
-/
namespace AttributeExpr

/-- The errors of an escape, in a string or in a byte string. -/
def LexicalError.IsEscape : LexicalError → Prop
  | escapeAtEnd _ | unicodeEscape .. | stringEscape .. | loneLowSurrogate _ | brokenSurrogatePair _
  | byteEscape .. | byteEscapeDigits .. | byteEscapeRange .. => True
  | unterminatedString _ | unterminatedName _ | unterminatedBinary _ | unexpectedChar ..
  | base64 .. => False

/-- The error of an escape whose backslash is where the error says it is, in a body that begins at
`start`. -/
structure BreaksAt (start : Nat) (body : List Char) (error : LexicalError) : Prop where
  escape : error.IsEscape
  backslash : ∃ offset, error.position = start + offset ∧ body[offset]? = some '\\'

namespace BreaksAt

variable {start : Nat} {error : LexicalError}

theorem here {rest : List Char} (escape : error.IsEscape) (h : error.position = start) :
    BreaksAt start ('\\' :: rest) error :=
  ⟨escape, 0, h, rfl⟩

/-- An escape behind the beginning of a body is an escape of the body. -/
theorem later (front : List Char) {body : List Char}
    (h : BreaksAt (start + front.length) body error) : BreaksAt start (front ++ body) error := by
  obtain ⟨escape, offset, hposition, hslash⟩ := h
  refine ⟨escape, front.length + offset, by rw [hposition, Nat.add_assoc], ?_⟩
  rwa [List.getElem?_append_right (Nat.le_add_right _ _), Nat.add_sub_cancel_left]

end BreaksAt

namespace StringBody

theorem codeUnit_eq_error {position : Nat} {digits : List Char} {error : LexicalError}
    (h : codeUnit position digits = .error error) :
    error = .unicodeEscape (String.ofList digits) position := by
  unfold codeUnit at h
  split at h
  · cases h
  · exact (Except.error.inj h).symm

theorem readEscape_failsOnly (position : Nat) (rest : List Char) :
    FailsOnly (BreaksAt position ('\\' :: rest)) (readEscape position rest) := by
  fun_cases readEscape position rest with
  | case2 | case6 | case9 => exact failsOnly_ok _
  | case1 | case3 | case5 | case7 | case10 => exact failsOnly_error (.here trivial rfl)
  | case4 code rest _ _ error herror =>
    obtain rfl := codeUnit_eq_error herror
    exact failsOnly_error (.here trivial rfl)
  | case8 code rest _ _ unit hunit _ _ hpair error herror =>
    -- The digits that are missing are those of the second escape, whose backslash is six characters
    -- behind the first.
    obtain ⟨hlength, -⟩ := codeUnit_eq_ok hunit
    obtain rfl := codeUnit_eq_error herror
    rw [pair_eq (not_not.mp hpair)]
    exact failsOnly_error (BreaksAt.later ('\\' :: code :: rest.take 4)
      (.here trivial (by simp [hlength, LexicalError.position])))

theorem decode_failsOnly (position : Nat) (body : List Char) :
    FailsOnly (BreaksAt position body) (decode position body) := by
  unfold decode
  fun_induction decodeAs id Char.ofNat position body with
  | case1 => exact failsOnly_ok []
  | case2 position c rest escape ih =>
    exact (ih.mono fun _ => BreaksAt.later [c]).map _
  | case3 position c rest hslash error herror =>
    obtain rfl : c = '\\' := not_not.mp hslash
    rw [List.map_id, readEscape_take] at herror
    exact failsOnly_error (readEscape_failsOnly position rest error herror)
  | case4 position c rest hslash point width hread ih =>
    rw [List.map_id, readEscape_take] at hread
    have hwidth := (readEscape_sound hread).1
    have hlater : ∀ error, BreaksAt (position + 1 + width) (rest.drop width) error →
        BreaksAt position (c :: rest) error := by
      intro error h
      have hfront : (c :: rest.take width).length = 1 + width := by
        rw [List.length_cons, List.length_take_of_le hwidth, Nat.add_comm]
      rw [← List.take_append_drop width rest, ← List.cons_append]
      exact BreaksAt.later (c :: rest.take width) (by rwa [hfront, ← Nat.add_assoc])
    exact (ih.mono hlater).map _

end StringBody

namespace ByteBody

theorem decodeFrom_failsOnly (continuation continuing : Bool) (position : Nat)
    (body : List Char) :
    FailsOnly (BreaksAt position body) (decodeFrom continuation continuing position body) := by
  fun_induction decodeFrom continuation continuing position body with
  | case1 => exact failsOnly_ok []
  | case2 continuing position c rest _ ih =>
    exact ih.mono fun _ => BreaksAt.later [c]
  | case3 continuing position c rest _ _ ih =>
    exact (ih.mono fun _ => BreaksAt.later [c]).map _
  | case5 continuing position c _ _ code rest byte _ ih =>
    exact (ih.mono fun _ => BreaksAt.later [c, code]).map _
  | case8 continuing position c _ _ high low rest n _ _ _ ih =>
    exact (ih.mono fun _ => BreaksAt.later [c, 'x', high, low]).map _
  | case10 continuing position c _ _ code rest _ _ _ ih =>
    exact ih.mono fun _ => BreaksAt.later [c, code]
  | case4 continuing position c _ hslash | case6 continuing position c _ hslash
  | case7 continuing position c _ hslash | case9 continuing position c _ hslash
  | case11 continuing position c _ hslash =>
    obtain rfl : c = '\\' := not_not.mp hslash
    exact failsOnly_error (.here trivial rfl)

end ByteBody

end AttributeExpr
