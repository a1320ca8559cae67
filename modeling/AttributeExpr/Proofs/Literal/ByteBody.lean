import AttributeExpr.Literal.ByteBody
import AttributeExpr.Proofs.Outcome
import AttributeExpr.Proofs.Text.Hex
import AttributeExpr.Proofs.Text.Run
import Mathlib.Tactic
/-!
The spellings of bytes between quotes. Each piece of a body stands for one character, and the body
for the characters in UTF-8. A continuation stands for nothing: without it, a body stands for the
same bytes, and where continuations are not allowed nothing else about a body changes.
-/
namespace AttributeExpr.ByteBody

/-- A piece of a body that stands for one character. -/
inductive SpellsChar : List Char → Char → Prop where
  | plain {c : Char} (escape : c ≠ '\\') : SpellsChar [c] c
  | short {code : Char} {byte : UInt8} (h : shortEscape? code = some byte) :
      SpellsChar ['\\', code] (Char.ofNat byte.toNat)
  | number {high low : Char} {n : Nat} (h : hexNumber? [high, low] = some n) (range : n ≤ 0x7F) :
      SpellsChar ['\\', 'x', high, low] (Char.ofNat n)

/-- A body that stands for a text, with or without continuations in it. -/
inductive Spells (continuation : Bool) : List Char → List Char → Prop where
  | nil : Spells continuation [] []
  | piece {front body text : List Char} {c : Char} (first : SpellsChar front c)
      (rest : Spells continuation body text) : Spells continuation (front ++ body) (c :: text)
  | continued {code : Char} {run body text : List Char} (allowed : continuation = true)
      (lineBreak : isLineBreak code = true) (layout : ∀ c ∈ run, isLayout c = true)
      (stops : Stops isLayout body) (rest : Spells continuation body text) :
      Spells continuation ('\\' :: code :: (run ++ body)) text

/-- The bytes of a text. -/
def utf8 (text : List Char) : Bytes := text.flatMap String.utf8EncodeChar

@[simp] theorem utf8_nil : utf8 [] = [] := rfl

@[simp] theorem utf8_cons (c : Char) (text : List Char) :
    utf8 (c :: text) = String.utf8EncodeChar c ++ utf8 text := rfl

theorem isValidUTF8_utf8 (text : List Char) : (utf8 text).toByteArray.IsValidUTF8 :=
  ByteArray.isValidUTF8_utf8Encode

theorem utf8EncodeChar_ofNat {n : Nat} (h : n ≤ 0x7F) :
    String.utf8EncodeChar (Char.ofNat n) = [UInt8.ofNat n] := by
  have hascii : ∀ n < 0x80, String.utf8EncodeChar (Char.ofNat n) = [UInt8.ofNat n] := by decide
  exact hascii n (by omega)

theorem shortEscape?_le {code : Char} {byte : UInt8} (h : shortEscape? code = some byte) :
    byte.toNat ≤ 0x7F := by
  unfold shortEscape? at h
  split at h <;> cases h <;> decide

theorem utf8EncodeChar_short {code : Char} {byte : UInt8} (h : shortEscape? code = some byte) :
    String.utf8EncodeChar (Char.ofNat byte.toNat) = [byte] := by
  rw [utf8EncodeChar_ofNat (shortEscape?_le h), UInt8.ofNat_toNat]

/-! Decoding takes a body apart. -/

/-- What counts of a body, which begins with layout to be passed over while `continuing`. -/
def counted (continuing : Bool) (body : List Char) : List Char :=
  if continuing then body.dropWhile isLayout else body

theorem counted_cons {continuing : Bool} {c : Char} (h : ¬ (continuing && isLayout c) = true)
    (rest : List Char) : counted continuing (c :: rest) = c :: rest := by
  cases continuing with
  | false => rfl
  | true => rw [counted, if_pos rfl, List.dropWhile_cons_of_neg (by simpa using h)]

theorem spells_of_decodeFrom {continuation continuing : Bool} {position : Nat} {body : List Char}
    {bytes : Bytes} (h : decodeFrom continuation continuing position body = .ok bytes) :
    ∃ text, Spells continuation (counted continuing body) text ∧ utf8 text = bytes := by
  fun_induction decodeFrom continuation continuing position body generalizing bytes with
  | case1 continuing =>
    obtain rfl := Except.ok.inj h
    exact ⟨[], by cases continuing <;> exact .nil, rfl⟩
  | case2 continuing position c rest hc ih =>
    obtain ⟨rfl, hlayout⟩ := Bool.and_eq_true_iff.mp hc
    obtain ⟨text, spells, hbytes⟩ := ih h
    refine ⟨text, ?_, hbytes⟩
    rwa [counted, if_pos rfl, List.dropWhile_cons_of_pos hlayout]
  | case3 continuing position c rest hc escape ih =>
    obtain ⟨tail, htail, rfl⟩ := map_eq_ok_iff.mp h
    obtain ⟨text, spells, rfl⟩ := ih htail
    rw [counted_cons hc]
    exact ⟨c :: text, .piece (.plain escape) spells, rfl⟩
  | case5 continuing position c hc escape code rest byte hshort ih =>
    obtain rfl : c = '\\' := not_not.mp escape
    obtain ⟨tail, htail, rfl⟩ := map_eq_ok_iff.mp h
    obtain ⟨text, spells, rfl⟩ := ih htail
    rw [counted_cons hc]
    refine ⟨_, .piece (.short hshort) spells, ?_⟩
    rw [utf8_cons, utf8EncodeChar_short hshort]
    rfl
  | case8 continuing position c hc escape high low rest n hdigits range hshort ih =>
    obtain rfl : c = '\\' := not_not.mp escape
    obtain ⟨tail, htail, rfl⟩ := map_eq_ok_iff.mp h
    obtain ⟨text, spells, rfl⟩ := ih htail
    have hrange := Nat.le_of_not_lt range
    rw [counted_cons hc]
    refine ⟨_, .piece (.number hdigits hrange) spells, ?_⟩
    rw [utf8_cons, utf8EncodeChar_ofNat hrange]
    rfl
  | case10 continuing position c hc escape code rest hshort hx lineBreak ih =>
    obtain rfl : c = '\\' := not_not.mp escape
    obtain ⟨allowed, lineBreak⟩ := Bool.and_eq_true_iff.mp lineBreak
    obtain ⟨text, spells, hbytes⟩ := ih h
    rw [counted_cons hc]
    refine ⟨text, ?_, hbytes⟩
    have layout : ∀ c ∈ rest.takeWhile isLayout, isLayout c = true := fun c => of_mem_takeWhile
    have hcontinued := Spells.continued allowed lineBreak layout (stops_dropWhile _ rest) spells
    rwa [List.takeWhile_append_dropWhile] at hcontinued
  | _ => cases h

/-- Layout behind a continuation is passed over. -/
theorem decodeFrom_layout {run : List Char} (layout : ∀ c ∈ run, isLayout c = true)
    (continuation : Bool) (position : Nat) (body : List Char) :
    decodeFrom continuation true position (run ++ body) =
      decodeFrom continuation true (position + run.length) body := by
  induction run generalizing position with
  | nil => rfl
  | cons c run ih =>
    obtain ⟨hc, hrun⟩ := List.forall_mem_cons.mp layout
    rw [List.cons_append, decodeFrom.eq_def]
    dsimp only
    rw [if_pos (by simp [hc]), ih hrun, List.length_cons, Nat.add_right_comm, Nat.add_assoc]

theorem decodeFrom_piece {front body : List Char} {c : Char} (first : SpellsChar front c)
    {continuing : Bool} (stops : Stops (fun c => continuing && isLayout c) (front ++ body))
    (continuation : Bool) (position : Nat) :
    decodeFrom continuation continuing position (front ++ body) =
      (decodeFrom continuation false (position + front.length) body).map
        (String.utf8EncodeChar c ++ ·) := by
  cases first with
  | plain escape =>
    have hc := stops_cons.mp stops
    rw [List.singleton_append, decodeFrom.eq_def]
    simp [hc, escape]
  | short h =>
    have hc := stops_cons.mp stops
    rw [List.cons_append, List.singleton_append, decodeFrom.eq_def]
    simp [hc, h, utf8EncodeChar_short h]
  | @number high low n h range =>
    have hc := stops_cons.mp stops
    have hshort : shortEscape? 'x' = none := rfl
    rw [List.cons_append, decodeFrom.eq_def]
    simp [hc, hshort, h, Nat.not_lt.mpr range, utf8EncodeChar_ofNat range]

theorem isLineBreak_cases {c : Char} (h : isLineBreak c = true) : c = '\r' ∨ c = '\n' := by
  simpa [isLineBreak] using h

theorem decodeFrom_continued {continuation continuing : Bool} {code : Char}
    (h : (continuing && isLayout '\\') = false) (allowed : continuation = true)
    (lineBreak : isLineBreak code = true) (position : Nat) (rest : List Char) :
    decodeFrom continuation continuing position ('\\' :: code :: rest) =
      decodeFrom continuation true (position + 2) rest := by
  rw [decodeFrom.eq_def]
  rcases isLineBreak_cases lineBreak with rfl | rfl <;> simp [h, allowed, shortEscape?, lineBreak]

theorem decodeFrom_of_spells {continuation : Bool} {body text : List Char}
    (h : Spells continuation body text) {continuing : Bool}
    (stops : Stops (fun c => continuing && isLayout c) body) (position : Nat) :
    decodeFrom continuation continuing position body = .ok (utf8 text) := by
  induction h generalizing continuing position with
  | nil => rfl
  | piece first _ ih =>
    rw [decodeFrom_piece first stops, ih (by simp [Stops])]
    rfl
  | @continued code run body text allowed lineBreak layout stopsBody _ ih =>
    rw [decodeFrom_continued (stops_cons.mp stops) allowed lineBreak, decodeFrom_layout layout]
    exact ih (by simpa using stopsBody) _

/-- A body is decoded as the bytes of the text that it stands for. -/
theorem decode_eq_ok_iff {continuation : Bool} {position : Nat} {body : List Char}
    {bytes : Bytes} : decode continuation position body = .ok bytes ↔
      ∃ text, Spells continuation body text ∧ utf8 text = bytes := by
  constructor
  · exact spells_of_decodeFrom
  · rintro ⟨text, spells, rfl⟩
    exact decodeFrom_of_spells spells (by simp [Stops]) position

theorem decode_position {continuation : Bool} {p : Nat} {body : List Char} {bytes : Bytes}
    (h : decode continuation p body = .ok bytes) (q : Nat) :
    decode continuation q body = .ok bytes :=
  decode_eq_ok_iff.mpr (decode_eq_ok_iff.mp h)

/-! Continuations. -/

/-- The body without its continuations: each goes with the layout behind it. -/
def withoutContinuations : List Char → List Char
  | [] => []
  | '\\' :: code :: rest =>
    if isLineBreak code then withoutContinuations (rest.dropWhile isLayout)
    else '\\' :: code :: withoutContinuations rest
  | c :: rest => c :: withoutContinuations rest
termination_by body => body.length
decreasing_by
  · have := (List.dropWhile_sublist isLayout (l := rest)).length_le
    simp; omega
  · simp
  · simp

/-- A backslash that is not itself escaped stands at the end of a line. -/
inductive HasContinuation : List Char → Prop where
  | here {code : Char} {rest : List Char} (h : isLineBreak code = true) :
      HasContinuation ('\\' :: code :: rest)
  | plain {c : Char} {rest : List Char} (h : c ≠ '\\') (later : HasContinuation rest) :
      HasContinuation (c :: rest)
  | escape {code : Char} {rest : List Char} (later : HasContinuation rest) :
      HasContinuation ('\\' :: code :: rest)

theorem withoutContinuations_plain {c : Char} (h : c ≠ '\\') (rest : List Char) :
    withoutContinuations (c :: rest) = c :: withoutContinuations rest := by
  rw [withoutContinuations.eq_def]
  split
  · contradiction
  · next heq => exact absurd (List.cons.inj heq).1 h
  · next heq =>
    obtain ⟨rfl, rfl⟩ := List.cons.inj heq
    rfl

theorem withoutContinuations_escape {code : Char} (h : isLineBreak code = false)
    (rest : List Char) :
    withoutContinuations ('\\' :: code :: rest) = '\\' :: code :: withoutContinuations rest := by
  rw [withoutContinuations, if_neg (by simp [h])]

theorem hasContinuation_plain {c : Char} (h : c ≠ '\\') {rest : List Char} :
    HasContinuation (c :: rest) ↔ HasContinuation rest := by
  refine ⟨?_, .plain h⟩
  rintro (_ | ⟨_, later⟩ | _)
  · contradiction
  · exact later
  · contradiction

theorem hasContinuation_escape {code : Char} (h : isLineBreak code = false) {rest : List Char} :
    HasContinuation ('\\' :: code :: rest) ↔ HasContinuation rest := by
  refine ⟨?_, .escape⟩
  rintro (lineBreak | ⟨escape, _⟩ | later)
  · rw [h] at lineBreak
    contradiction
  · contradiction
  · exact later

namespace SpellsChar

variable {front : List Char} {c : Char}

theorem isLineBreak_code {code : Char} {byte : UInt8} (h : shortEscape? code = some byte) :
    isLineBreak code = false := by
  by_contra hbreak
  rcases isLineBreak_cases (Bool.eq_true_of_not_eq_false hbreak) with rfl | rfl <;> cases h

theorem digits_plain {high low : Char} {n : Nat} (h : hexNumber? [high, low] = some n) :
    high ≠ '\\' ∧ low ≠ '\\' := by
  have hdigits := isHexDigit_of_hexNumber? h
  constructor
  · rintro rfl
    exact absurd (hdigits '\\' (by simp)) (by decide)
  · rintro rfl
    exact absurd (hdigits '\\' (by simp)) (by decide)

/-- No continuation lies inside a piece or begins in it. -/
theorem withoutContinuations (first : SpellsChar front c) (body : List Char) :
    withoutContinuations (front ++ body) = front ++ withoutContinuations body := by
  cases first with
  | plain escape => exact withoutContinuations_plain escape body
  | short h => exact withoutContinuations_escape (isLineBreak_code h) body
  | number h range =>
    obtain ⟨hhigh, hlow⟩ := digits_plain h
    simp only [List.cons_append, List.nil_append]
    rw [withoutContinuations_escape (by decide), withoutContinuations_plain hhigh,
      withoutContinuations_plain hlow]

theorem hasContinuation_iff (first : SpellsChar front c) {body : List Char} :
    HasContinuation (front ++ body) ↔ HasContinuation body := by
  cases first with
  | plain escape => exact hasContinuation_plain escape
  | short h => exact hasContinuation_escape (isLineBreak_code h)
  | number h range =>
    obtain ⟨hhigh, hlow⟩ := digits_plain h
    simp only [List.cons_append, List.nil_append]
    rw [hasContinuation_escape (by decide), hasContinuation_plain hhigh,
      hasContinuation_plain hlow]

end SpellsChar

theorem Spells.withoutContinuations {continuation : Bool} {body text : List Char}
    (h : Spells continuation body text) (continuation' : Bool) :
    Spells continuation' (withoutContinuations body) text := by
  induction h with
  | nil =>
    rw [ByteBody.withoutContinuations]
    exact .nil
  | piece first _ ih =>
    rw [first.withoutContinuations]
    exact .piece first ih
  | continued _ lineBreak layout stops _ ih =>
    rw [ByteBody.withoutContinuations, if_pos lineBreak, stops.dropWhile_eq layout]
    exact ih

theorem spells_false_iff {body text : List Char} :
    Spells false body text ↔ ¬ HasContinuation body ∧ Spells true body text := by
  constructor
  · intro h
    induction h with
    | nil => exact ⟨nofun, .nil⟩
    | piece first _ ih => exact ⟨mt first.hasContinuation_iff.mp ih.1, .piece first ih.2⟩
    | continued allowed => contradiction
  · rintro ⟨none, h⟩
    induction h with
    | nil => exact .nil
    | piece first _ ih => exact .piece first (ih (mt first.hasContinuation_iff.mpr none))
    | continued _ lineBreak => exact absurd (.here lineBreak) none

/-- A byte string spells UTF-8. A body stands for the same bytes with and without its
continuations; and where they are not allowed, exactly the bodies without any are accepted of those
that are accepted otherwise, as the same bytes. -/
theorem decode_continuations (position : Nat) (body : List Char) :
    (∀ continuation bytes, decode continuation position body = .ok bytes →
      bytes.toByteArray.IsValidUTF8) ∧
    (∀ bytes, decode true position body = .ok bytes →
      ∀ continuation, decode continuation position (withoutContinuations body) = .ok bytes) ∧
    ∀ bytes, decode false position body = .ok bytes ↔
      ¬ HasContinuation body ∧ decode true position body = .ok bytes := by
  simp only [decode_eq_ok_iff]
  refine ⟨?_, ?_, ?_⟩
  · rintro continuation _ ⟨text, -, rfl⟩
    exact isValidUTF8_utf8 text
  · rintro _ ⟨text, spells, rfl⟩ continuation
    exact ⟨text, spells.withoutContinuations continuation, rfl⟩
  · intro bytes
    simp only [spells_false_iff, and_assoc, exists_and_left]

/-- A continuation with blanks behind it, a character of two bytes, an escape by number, and a
backslash that is itself escaped at the end of a line. -/
theorem decode_continuations_escaped :
    ∃ body, body = ['a', '\\', '\n', ' ', '\t', '\r', '\n', 'é', '\\', 'x', '4', '1', '\\', '\\',
        '\n'] ∧
      decode true 2 body = .ok [97, 195, 169, 65, 92, 10] ∧
      decode false 2 (withoutContinuations body) = .ok [97, 195, 169, 65, 92, 10] ∧
      [97, 195, 169, 65, 92, 10].toByteArray.IsValidUTF8 := by
  have h : decode true 2 ['a', '\\', '\n', ' ', '\t', '\r', '\n', 'é', '\\', 'x', '4', '1', '\\',
      '\\', '\n'] = .ok [97, 195, 169, 65, 92, 10] := by cbv
  obtain ⟨valid, without, -⟩ := decode_continuations 2 _
  exact ⟨_, rfl, h, without _ h false, valid _ _ h⟩

end AttributeExpr.ByteBody
