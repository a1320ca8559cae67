import AttributeExpr.Proofs.Literal.CodeUnit
import AttributeExpr.Proofs.Literal.Context
import Mathlib
/-!
Surrogates that stand alone. A text that holds one is read by its code points, which for every other
text is the reading by characters. A surrogate that stands in a literal itself is kept, and decoding
adds none, since the escape of a surrogate without its partner is refused. What is written for a
surrogate is such an escape, so the literal of a text is decoded as the text exactly when the text
holds none.
-/
namespace AttributeExpr

namespace CodePoints

/-- Only the replacement character is the character at more than one code point. -/
theorem eq_toNat_of_char {n : Nat} {c : Char} (h : char n = c) (hc : c ≠ '\uFFFD') :
    n = c.toNat := by
  by_cases hvalid : n.isValidChar
  · rw [← h, char, if_pos hvalid, Char.toNat_ofNat, if_pos hvalid]
  · exact absurd (h.symm.trans (if_neg hvalid)) hc

theorem ofChars_chars {text : CodePoints} (h : ∀ n ∈ text, n.isValidChar) :
    ofChars (chars text) = text := by
  rw [ofChars, chars, List.map_map]
  refine (List.map_congr_left fun n hn => ?_).trans (List.map_id text)
  rw [Function.comp_apply, char, if_pos (h n hn), Char.toNat_ofNat, if_pos (h n hn), id]

theorem isValidChar_of_mem_ofChars {text : List Char} {n : Nat} (h : n ∈ ofChars text) :
    n.isValidChar := by
  obtain ⟨c, -, rfl⟩ := List.mem_map.mp h
  exact not_surrogate c

end CodePoints

namespace StringBody

open CodePoints (ofChars chars)

/-! Reading by code points and by characters. -/

theorem map_char_take (k : Nat) (text : List Char) :
    ((ofChars text).take k).map CodePoints.char = text.take k := by
  rw [ofChars, ← List.map_take]
  exact CodePoints.chars_ofChars (text.take k)

theorem decodePoints_ofChars (position : Nat) (body : List Char) :
    decodePoints position (ofChars body) = (decode position body).map ofChars := by
  unfold decodePoints decode
  -- An escape is read from the same characters either way, and stands for a code point that is one.
  fun_induction decodeAs id Char.ofNat position body with
  | case1 => rw [ofChars, List.map_nil, decodeAs]; rfl
  | case2 position c rest escape ih =>
    rw [ofChars, List.map_cons, decodeAs, if_pos (by simpa using escape), ← ofChars, ih]
    cases decodeAs id Char.ofNat (position + 1) rest <;> rfl
  | case3 position c rest hslash error herror =>
    rw [List.map_id] at herror
    rw [ofChars, List.map_cons, decodeAs, if_neg (by simpa using hslash), ← ofChars,
      map_char_take, herror]
    rfl
  | case4 position c rest hslash point width hread ih =>
    rw [List.map_id] at hread
    have hvalid := (readEscape_sound (readEscape_take position rest ▸ hread)).2.1
    have hpoint : (Char.ofNat point).toNat = point := by rw [Char.toNat_ofNat, if_pos hvalid]
    have hdrop : (ofChars rest).drop width = ofChars (rest.drop width) := by simp [ofChars]
    rw [ofChars, List.map_cons, decodeAs, if_neg (by simpa using hslash), ← ofChars,
      map_char_take, hread]
    dsimp only
    rw [hdrop, ih]
    cases decodeAs id Char.ofNat (position + 1 + width) (rest.drop width) with
    | error e => rfl
    | ok tail => simp [Except.map, ofChars, hpoint]

/-! Surrogates are kept and none are made. -/

/-- No replacement character stands in an escape. -/
theorem SpellsChar.ne_replacement {escape : List Char} {c : Char}
    (h : SpellsChar ('\\' :: escape) c) : ∀ d ∈ escape, d ≠ '\uFFFD' := by
  have hhex {digits : List Char} {n : Nat} (number : hexNumber? digits = some n) :
      ∀ d ∈ digits, d ≠ '\uFFFD' := by
    rintro d hd rfl
    exact absurd (isHexDigit_of_hexNumber? number _ hd) (by decide)
  generalize hpiece : '\\' :: escape = piece at h
  cases h with
  | plain hslash =>
    exact absurd (List.cons.inj hpiece).1.symm hslash
  | @short code c h =>
    obtain rfl := (List.cons.inj hpiece).2
    rw [List.forall_mem_singleton]
    rintro rfl
    contradiction
  | unit length number high low =>
    obtain rfl := (List.cons.inj hpiece).2
    exact List.forall_mem_cons.mpr ⟨by decide, hhex number⟩
  | pair length number high length' number' low =>
    rw [List.cons_append, List.cons_append] at hpiece
    obtain rfl := (List.cons.inj hpiece).2
    simp only [List.forall_mem_cons, List.forall_mem_append]
    exact ⟨by decide, hhex number, by decide, by decide, hhex number'⟩

theorem isSurrogate_eq_false_of_char {n : Nat} (h : CodePoints.char n ≠ '\uFFFD') :
    isSurrogate n = false := by
  by_cases hvalid : n.isValidChar
  · exact isSurrogate_eq_false hvalid
  · exact absurd (if_neg hvalid) h

/-- No surrogate stands in an escape that is read. -/
theorem filter_escape {position point width : Nat} {text : CodePoints}
    (h : readEscape position ((text.take 11).map CodePoints.char) = .ok (point, width)) :
    (text.take width).filter isSurrogate = [] := by
  obtain ⟨hwidth, -, hspelled⟩ := readEscape_sound h
  rw [List.length_map, List.length_take] at hwidth
  rw [← List.map_take, List.take_take, Nat.min_eq_left (by omega)] at hspelled
  rw [List.filter_eq_nil_iff]
  intro n hn
  have hne := hspelled.ne_replacement _ (List.mem_map_of_mem hn)
  simp [isSurrogate_eq_false_of_char hne]

/-- The surrogates of a body that is decoded stand in the body itself. -/
theorem filter_decodePoints {position : Nat} {body decoded : CodePoints}
    (h : decodePoints position body = .ok decoded) :
    decoded.filter isSurrogate = body.filter isSurrogate := by
  unfold decodePoints at h
  fun_induction decodeAs CodePoints.char id position body generalizing decoded with
  | case1 =>
    obtain rfl := Except.ok.inj h
    rfl
  | case2 position n rest _ ih =>
    obtain ⟨tail, htail, rfl⟩ := map_eq_ok_iff.mp h
    rw [List.filter_cons, List.filter_cons, ih htail]
  | case3 => cases h
  | case4 position n rest hslash point width hread ih =>
    obtain ⟨tail, htail, rfl⟩ := map_eq_ok_iff.mp h
    have hn : isSurrogate n = false :=
      isSurrogate_eq_false_of_char (by rw [not_not.mp hslash]; decide)
    have hpoint : isSurrogate point = false := isSurrogate_eq_false (readEscape_sound hread).2.1
    have hsplit : rest.filter isSurrogate =
        (rest.take width).filter isSurrogate ++ (rest.drop width).filter isSurrogate := by
      rw [← List.filter_append, List.take_append_drop]
    calc (point :: tail).filter isSurrogate
      _ = tail.filter isSurrogate := List.filter_cons_of_neg (by simp [hpoint])
      _ = (rest.drop width).filter isSurrogate := ih htail
      _ = rest.filter isSurrogate := by rw [hsplit, filter_escape hread, List.nil_append]
      _ = (n :: rest).filter isSurrogate := (List.filter_cons_of_neg (by simp [hn])).symm

/-- What is written for a text is decoded as the text exactly if the text is made of characters. -/
theorem decodePoints_encode_iff (position : Nat) (text : CodePoints) :
    decodePoints position (ofChars (encode text)) = .ok text ↔ ∀ n ∈ text, n.isValidChar := by
  rw [decodePoints_ofChars]
  constructor
  · intro h n hn
    obtain ⟨decoded, -, rfl⟩ := map_eq_ok_iff.mp h
    exact CodePoints.isValidChar_of_mem_ofChars hn
  · intro h
    obtain ⟨decoded, rfl⟩ : ∃ decoded, ofChars decoded = text := ⟨_, CodePoints.ofChars_chars h⟩
    rw [decode_spells (spells_encode decoded)]
    rfl

/-! Texts that are one literal. -/

/-- The text between the quotes is the body of the literal. -/
theorem readLiteral?_eq_some {text : CodePoints} {outcome : Except LexicalError CodePoints}
    (h : readLiteral? text = some outcome) :
    ∃ body, text = 0x22 :: (body ++ [0x22]) ∧
      outline? (chars body ++ ['\x22']) = some (chars body, []) ∧
        outcome = decodePoints 1 body := by
  unfold readLiteral? at h
  split at h
  · next rest hchars =>
    split at h
    · next body houtline =>
      obtain rfl := Option.some.inj h
      obtain ⟨opening, inside, rfl, hopening, rfl⟩ := List.map_eq_cons_iff.mp hchars
      obtain ⟨front, back, rfl, rfl, hback⟩ :=
        List.map_eq_append_iff.mp (escapedBody?_sound houtline)
      obtain ⟨closing, tail, rfl, hclosing, htail⟩ := List.map_eq_cons_iff.mp hback
      obtain rfl := List.map_eq_nil_iff.mp htail
      obtain rfl := CodePoints.eq_toNat_of_char hopening (by decide)
      obtain rfl := CodePoints.eq_toNat_of_char hclosing (by decide)
      rw [List.map_append, List.map_cons, hclosing] at houtline
      exact ⟨front, rfl, houtline, by simp⟩
    · cases h
  · cases h

end StringBody

end AttributeExpr
