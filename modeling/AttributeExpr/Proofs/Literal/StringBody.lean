import AttributeExpr.Literal.Outline
import AttributeExpr.Literal.StringBody
import AttributeExpr.Proofs.Outcome
import AttributeExpr.Proofs.Text.Hex
/-!
The spellings of a string inside double quotes. Each character of the string is spelled on its own,
so a body is read piece by piece: its outline ends at the closing quote behind the last piece, and
decoding gives one character for each piece, and takes nothing that is not made of pieces.
-/
namespace AttributeExpr.StringBody

/-- A piece of a body that stands for one character. -/
inductive SpellsChar : List Char → Char → Prop where
  | plain {c : Char} (escape : c ≠ '\\') (quote : c ≠ '\x22') : SpellsChar [c] c
  | short {code c : Char} (h : shortEscape? code = some c) : SpellsChar ['\\', code] c
  | unit {digits : List Char} {n : Nat} (length : digits.length = 4)
      (number : hexNumber? digits = some n) (high : isHighSurrogate n = false)
      (low : isLowSurrogate n = false) : SpellsChar ('\\' :: 'u' :: digits) (Char.ofNat n)
  | pair {digits further : List Char} {n m : Nat} (length : digits.length = 4)
      (number : hexNumber? digits = some n) (high : isHighSurrogate n = true)
      (length' : further.length = 4) (number' : hexNumber? further = some m)
      (low : isLowSurrogate m = true) :
      SpellsChar ('\\' :: 'u' :: digits ++ '\\' :: 'u' :: further) (surrogatePair n m)

/-- A body that stands for a text. -/
inductive Spells : List Char → List Char → Prop where
  | nil : Spells [] []
  | cons {piece body text : List Char} {c : Char} (first : SpellsChar piece c)
      (rest : Spells body text) : Spells (piece ++ body) (c :: text)

/-- The outline of a double-quoted literal. -/
abbrev outline? (text : List Char) : Option (List Char × List Char) :=
  escapedBody? '\x22' (fun _ => true) text

theorem outline?_plain {c : Char} {rest : List Char} (escape : c ≠ '\\') (quote : c ≠ '\x22') :
    outline? (c :: rest) = (outline? rest).map fun (body, after) => (c :: body, after) := by
  rw [outline?, escapedBody?.eq_def]
  split
  · simp_all
  · simp_all
  · simp_all

theorem outline?_escape (c : Char) (rest : List Char) :
    outline? ('\\' :: c :: rest) =
      (outline? rest).map fun (body, after) => ('\\' :: c :: body, after) := by
  simp [outline?, escapedBody?]

theorem outline?_run {run rest : List Char} (h : ∀ c ∈ run, c ≠ '\\' ∧ c ≠ '\x22') :
    outline? (run ++ rest) = (outline? rest).map fun (body, after) => (run ++ body, after) := by
  induction run with
  | nil => simp
  | cons c run ih =>
    obtain ⟨⟨escape, quote⟩, hrun⟩ := List.forall_mem_cons.mp h
    rw [List.cons_append, outline?_plain escape quote, ih hrun, Option.map_map]
    rfl

theorem hexDigit_plain {digits : List Char} {n : Nat} (h : hexNumber? digits = some n) :
    ∀ c ∈ digits, c ≠ '\\' ∧ c ≠ '\x22' := by
  intro c hc
  have hd := isHexDigit_of_hexNumber? h c hc
  constructor <;> rintro rfl <;> contradiction

theorem outline?_unit {digits : List Char} {n : Nat} (h : hexNumber? digits = some n)
    (rest : List Char) :
    outline? ('\\' :: 'u' :: digits ++ rest) =
      (outline? rest).map fun (body, after) => ('\\' :: 'u' :: digits ++ body, after) := by
  rw [List.cons_append, List.cons_append, outline?_escape, outline?_run (hexDigit_plain h),
    Option.map_map]
  rfl

/-- No piece contains the closing quote or hides it. -/
theorem outline?_append_char {piece : List Char} {c : Char} (h : SpellsChar piece c)
    (rest : List Char) :
    outline? (piece ++ rest) = (outline? rest).map fun (body, after) => (piece ++ body, after) := by
  cases h with
  | plain escape quote => exact outline?_plain escape quote
  | short h => exact outline?_escape _ _
  | unit length number high low => exact outline?_unit number rest
  | pair length number high length' number' low =>
    rw [List.append_assoc, outline?_unit number, outline?_unit number', Option.map_map]
    simp [Function.comp_def]

theorem outline?_append {body text : List Char} (h : Spells body text) (rest : List Char) :
    outline? (body ++ '\x22' :: rest) = some (body, rest) := by
  induction h with
  | nil => simp [outline?, escapedBody?]
  | cons first _ ih => rw [List.append_assoc, outline?_append_char first, ih]; rfl

theorem codeUnit_eq {digits : List Char} {n : Nat} (length : digits.length = 4)
    (number : hexNumber? digits = some n) (position : Nat) :
    codeUnit position digits = .ok n := by
  simp [codeUnit, length, number]

theorem readEscape_unit {digits : List Char} {n : Nat} (length : digits.length = 4)
    (number : hexNumber? digits = some n) (high : isHighSurrogate n = false)
    (low : isLowSurrogate n = false) (position : Nat) (rest : List Char) :
    readEscape position ('u' :: (digits ++ rest)) = .ok (n, 5) := by
  have htake : (digits ++ rest).take 4 = digits := by rw [← length, List.take_left]
  simp [readEscape, shortEscape?, htake, codeUnit_eq length number, high, low]

theorem readEscape_pair {digits further : List Char} {n m : Nat} (length : digits.length = 4)
    (number : hexNumber? digits = some n) (high : isHighSurrogate n = true)
    (length' : further.length = 4) (number' : hexNumber? further = some m)
    (low : isLowSurrogate m = true) (position : Nat) (rest : List Char) :
    readEscape position ('u' :: (digits ++ '\\' :: 'u' :: (further ++ rest))) =
      .ok (surrogatePoint n m, 11) := by
  have htake : (digits ++ '\\' :: 'u' :: (further ++ rest)).take 4 = digits := by
    rw [← length, List.take_left]
  have hdrop (k : Nat) : (digits ++ '\\' :: 'u' :: (further ++ rest)).drop (4 + k) =
      ('\\' :: 'u' :: (further ++ rest)).drop k := by
    rw [← length, List.drop_append]
    simp
  have htake' : (further ++ rest).take 4 = further := by rw [← length', List.take_left]
  have hnot : isLowSurrogate n = false := by
    have hrange := isHighSurrogate_iff.mp high
    rw [Bool.eq_false_iff, ne_eq, isLowSurrogate_iff]
    omega
  simp [readEscape, shortEscape?, htake, hdrop 0, hdrop 2, htake', hnot, high, low,
    codeUnit_eq length number, codeUnit_eq length' number']

/-- Only as much of the text is looked at as the longest escape needs. -/
theorem readEscape_take (position : Nat) (text : List Char) :
    readEscape position (text.take 11) = readEscape position text := by
  cases text with
  | nil => rfl
  | cons code rest => simp [readEscape, List.take_take, List.drop_take]

/-! The steps of decoding. -/

theorem decode_nil (position : Nat) : decode position [] = .ok [] := by rw [decode, decodeAs]

theorem decode_plain {c : Char} (escape : c ≠ '\\') (position : Nat) (rest : List Char) :
    decode position (c :: rest) = (decode (position + 1) rest).map (c :: ·) := by
  rw [decode, decodeAs, if_pos (by exact escape)]
  rfl

theorem decode_escape (position : Nat) (rest : List Char) :
    decode position ('\\' :: rest) =
      match readEscape position rest with
      | .error e => .error e
      | .ok (point, width) =>
        (decode (position + 1 + width) (rest.drop width)).map (Char.ofNat point :: ·) := by
  rw [decode, decodeAs, if_neg (by simp), List.map_id, readEscape_take]
  rfl

theorem decode_append_char {piece : List Char} {c : Char} (h : SpellsChar piece c)
    (position : Nat) (rest : List Char) :
    decode position (piece ++ rest) = (decode (position + piece.length) rest).map (c :: ·) := by
  cases h with
  | plain escape quote => exact decode_plain escape position rest
  | @short code c h =>
    have hread : readEscape position (code :: rest) = .ok (c.toNat, 1) := by simp [readEscape, h]
    rw [List.cons_append, List.singleton_append, decode_escape, hread]
    simp
  | @unit digits n length number high low =>
    rw [List.cons_append, List.cons_append, decode_escape, readEscape_unit length number high low]
    have hdrop : ('u' :: (digits ++ rest)).drop 5 = rest := by
      rw [List.drop_succ_cons, ← length, List.drop_left]
    simp [hdrop, length]
  | @pair digits further n m length number high length' number' low =>
    simp only [List.cons_append, List.append_assoc]
    rw [decode_escape, readEscape_pair length number high length' number' low]
    have hlength : ('u' :: digits ++ '\\' :: 'u' :: further).length = 11 := by
      simp [length, length']
    have hdrop : ('u' :: (digits ++ '\\' :: 'u' :: (further ++ rest))).drop 11 = rest := by
      simp [← hlength]
    simp [hdrop, length, length', surrogatePair]

theorem codeUnit_eq_ok {position n : Nat} {digits : List Char}
    (h : codeUnit position digits = .ok n) :
    digits.length = 4 ∧ hexNumber? digits = some n ∧ n < 0x10000 := by
  unfold codeUnit at h
  split at h
  · next k hlength hnumber =>
    obtain rfl := Except.ok.inj h
    have hlength : digits.length = 4 := by simpa using hlength
    refine ⟨hlength, hnumber, ?_⟩
    have := hexNumber?_lt hnumber
    rwa [hlength] at this
  · contradiction

/-- The second escape of a pair stands behind the first, with a backslash and letter of its own. -/
theorem pair_eq {rest : List Char} (h : (rest.drop 4).take 2 = ['\\', 'u']) :
    rest = rest.take 4 ++ '\\' :: 'u' :: ((rest.drop 6).take 4 ++ rest.drop 10) := by
  have hdrop := List.take_append_drop 2 (rest.drop 4)
  rw [h, List.drop_drop] at hdrop
  have hlast := List.take_append_drop 4 (rest.drop 6)
  rw [List.drop_drop] at hlast
  rw [hlast]
  exact (List.take_append_drop 4 rest).symm.trans (congrArg (rest.take 4 ++ ·) hdrop.symm)

/-- A body that is decoded as a text. A quote stands for itself, although no literal has one inside
it. -/
inductive Denotes : List Char → List Char → Prop where
  | nil : Denotes [] []
  | quote {body text : List Char} (rest : Denotes body text) :
      Denotes ('\x22' :: body) ('\x22' :: text)
  | cons {piece body text : List Char} {c : Char} (first : SpellsChar piece c)
      (rest : Denotes body text) : Denotes (piece ++ body) (c :: text)

theorem Spells.denotes {body text : List Char} (h : Spells body text) : Denotes body text := by
  induction h with
  | nil => exact .nil
  | cons first _ ih => exact .cons first ih

theorem Denotes.plain {c : Char} {body text : List Char} (escape : c ≠ '\\')
    (rest : Denotes body text) : Denotes (c :: body) (c :: text) := by
  by_cases quote : c = '\x22'
  · subst quote
    exact .quote rest
  · exact .cons (.plain escape quote) rest

theorem Denotes.append {body body' text text' : List Char} (h : Denotes body text)
    (h' : Denotes body' text') : Denotes (body ++ body') (text ++ text') := by
  induction h with
  | nil => exact h'
  | quote _ ih => exact .quote ih
  | cons first _ ih =>
    rw [List.append_assoc]
    exact .cons first ih

theorem decode_of_denotes {body text : List Char} (h : Denotes body text) (position : Nat) :
    decode position body = .ok text := by
  induction h generalizing position with
  | nil => exact decode_nil position
  | quote _ ih => rw [decode_plain (by decide), ih]; rfl
  | cons first _ ih => rw [decode_append_char first, ih]; rfl

theorem isValidChar_unit {n : Nat} (bound : n < 0x10000) (high : isHighSurrogate n = false)
    (low : isLowSurrogate n = false) : n.isValidChar := by
  rw [Bool.eq_false_iff, ne_eq, isHighSurrogate_iff] at high
  rw [Bool.eq_false_iff, ne_eq, isLowSurrogate_iff] at low
  simp only [Nat.isValidChar]
  omega

theorem isValidChar_surrogatePoint {n m : Nat} (high : isHighSurrogate n = true)
    (low : isLowSurrogate m = true) : (surrogatePoint n m).isValidChar := by
  rw [isHighSurrogate_iff] at high
  rw [isLowSurrogate_iff] at low
  simp only [surrogatePoint, Nat.isValidChar]
  omega

/-- An escape that is read is a piece of the body, and stands for a character. -/
theorem readEscape_sound {position point width : Nat} {text : List Char}
    (h : readEscape position text = .ok (point, width)) :
    width ≤ text.length ∧ point.isValidChar ∧
      SpellsChar ('\\' :: text.take width) (Char.ofNat point) := by
  revert h
  fun_cases readEscape position text with
  | case2 code rest meaning hshort =>
    intro h
    obtain ⟨rfl, rfl⟩ := Prod.mk.inj (Except.ok.inj h)
    rw [Char.ofNat_toNat]
    exact ⟨by simp, meaning.valid, .short hshort⟩
  | case6 code rest _ hu unit hunit hlow hhigh =>
    intro h
    obtain ⟨rfl, rfl⟩ := Prod.mk.inj (Except.ok.inj h)
    obtain rfl : code = 'u' := not_not.mp hu
    obtain ⟨hlength, hnumber, hbound⟩ := codeUnit_eq_ok hunit
    have high : isHighSurrogate unit = false := by simpa using hhigh
    have low : isLowSurrogate unit = false := by simpa using hlow
    exact ⟨by simpa using hlength, isValidChar_unit hbound high low, .unit hlength hnumber high low⟩
  | case9 code rest _ hu unit hunit _ hhigh hpair low hsecond hlow =>
    intro h
    obtain ⟨rfl, rfl⟩ := Prod.mk.inj (Except.ok.inj h)
    obtain rfl : code = 'u' := not_not.mp hu
    obtain ⟨hlength, hnumber, -⟩ := codeUnit_eq_ok hunit
    obtain ⟨hlength', hnumber', -⟩ := codeUnit_eq_ok hsecond
    have high : isHighSurrogate unit = true := by simpa using hhigh
    have hsplit : (rest.take 4 ++ '\\' :: 'u' :: (rest.drop 6).take 4) ++ rest.drop 10 =
        rest.take 10 ++ rest.drop 10 := by
      rw [List.take_append_drop]
      simpa using (pair_eq (not_not.mp hpair)).symm
    have htake := List.append_cancel_right hsplit
    have hten := congrArg List.length htake
    simp only [List.length_append, List.length_cons, hlength, hlength'] at hten
    refine ⟨by simpa using hten.symm, isValidChar_surrogatePoint high hlow, ?_⟩
    rw [List.take_succ_cons, ← htake]
    exact .pair hlength hnumber high hlength' hnumber' hlow
  | _ => rintro ⟨⟩

theorem denotes_of_decode {position : Nat} {body text : List Char}
    (h : decode position body = .ok text) : Denotes body text := by
  unfold decode at h
  fun_induction decodeAs id Char.ofNat position body generalizing text with
  | case1 =>
    obtain rfl := Except.ok.inj h
    exact .nil
  | case2 position c rest escape ih =>
    obtain ⟨tail, htail, rfl⟩ := map_eq_ok_iff.mp h
    exact .plain escape (ih htail)
  | case3 => cases h
  | case4 position c rest hslash point width hread ih =>
    obtain rfl : c = '\\' := not_not.mp hslash
    obtain ⟨tail, htail, rfl⟩ := map_eq_ok_iff.mp h
    rw [List.map_id, readEscape_take] at hread
    have hdenotes := Denotes.cons (readEscape_sound hread).2.2 (ih htail)
    rwa [List.cons_append, List.take_append_drop] at hdenotes

theorem decode_eq_ok_iff {position : Nat} {body text : List Char} :
    decode position body = .ok text ↔ Denotes body text :=
  ⟨denotes_of_decode, fun h => decode_of_denotes h position⟩

/-- What a body is decoded as does not depend on where it stands. -/
theorem decode_position {p : Nat} {body text : List Char} (h : decode p body = .ok text)
    (q : Nat) : decode q body = .ok text :=
  decode_eq_ok_iff.mpr (decode_eq_ok_iff.mp h)

theorem decode_spells {body text : List Char} (h : Spells body text) (position : Nat) :
    decode position body = .ok text := decode_of_denotes h.denotes position

theorem spellsChar_encodeChar (c : Char) : SpellsChar (encodeChar c) c := by
  unfold encodeChar
  split
  case h_8 quote escape _ _ _ _ _ =>
    split_ifs with hcontrol
    · have hlt : c.toNat < 0x100 := by
        simp only [Bool.or_eq_true, Bool.and_eq_true, decide_eq_true_eq] at hcontrol
        omega
      have hn : hexNumber? (hexDigits 4 c.toNat) = some c.toNat := by
        rw [hexNumber?_hexDigits, Nat.mod_eq_of_lt (by omega)]
      have high : isHighSurrogate c.toNat = false := by simp [isHighSurrogate]; omega
      have low : isLowSurrogate c.toNat = false := by simp [isLowSurrogate]; omega
      simpa using SpellsChar.unit (by simp) hn high low
    · exact .plain escape quote
  all_goals exact .short rfl

theorem isSurrogate_eq_false {n : Nat} (h : n.isValidChar) : isSurrogate n = false := by
  simp only [Nat.isValidChar] at h
  rw [isSurrogate, Bool.or_eq_false_iff, Bool.eq_false_iff, Bool.eq_false_iff, ne_eq, ne_eq,
    isHighSurrogate_iff, isLowSurrogate_iff]
  omega

theorem encode_ofChars (text : List Char) :
    encode (CodePoints.ofChars text) = text.flatMap encodeChar := by
  rw [encode, CodePoints.ofChars, List.flatMap_map]
  congr 1
  funext c
  rw [encodePoint, isSurrogate_eq_false (CodePoints.not_surrogate c), CodePoints.char_toNat]
  rfl

theorem spells_encode (text : List Char) : Spells (encode (CodePoints.ofChars text)) text := by
  rw [encode_ofChars]
  induction text with
  | nil => exact .nil
  | cons c text ih => exact .cons (spellsChar_encodeChar c) ih

end AttributeExpr.StringBody
