import AttributeExpr.Literal.ByteBody
import AttributeExpr.Literal.Outline
import AttributeExpr.Proofs.Outcome
import Mathlib.Tactic
/-!
Encoding in base64 is undone by decoding. Inside a literal the encoding may be broken by white space
and may lack padding: none of its characters is white space, and its length tells how much padding
it had.
-/
namespace AttributeExpr

theorem plainBody?_append {quote : Char} {body : List Char} (h : ∀ c ∈ body, c ≠ quote)
    (rest : List Char) : plainBody? quote (body ++ quote :: rest) = some (body, rest) := by
  induction body with
  | nil => simp [plainBody?]
  | cons c body ih =>
    obtain ⟨hc, hbody⟩ := List.forall_mem_cons.mp h
    simp [plainBody?, hc, ih hbody]

namespace Base64

theorem digitValue?_digit {n : Nat} (h : n < 64) : digitValue? (digit n) = some n := by
  have hall : ∀ k < 64, digitValue? (digit k) = some k := by decide
  exact hall n h

theorem digit_ne_padding {n : Nat} (h : n < 64) : digit n ≠ '=' := by
  have hall : ∀ k < 64, digit k ≠ '=' := by decide
  exact hall n h

/-- Digits, and at most two characters of padding behind them. -/
theorem exists_encode_eq (bytes : Bytes) :
    ∃ (numbers : List Nat) (pads : Nat),
      encode bytes = numbers.map digit ++ List.replicate pads '=' ∧
        (∀ n ∈ numbers, n < 64) ∧ pads ≤ 2 := by
  fun_induction encode bytes with
  | case1 => exact ⟨[], 0, rfl, List.forall_mem_nil _, by decide⟩
  | case2 a =>
    have := a.toNat_lt
    refine ⟨[a.toNat / 4, a.toNat % 4 * 16], 2, rfl, ?_, le_rfl⟩
    simp only [List.forall_mem_cons]
    exact ⟨by omega, by omega, List.forall_mem_nil _⟩
  | case3 a b =>
    have := a.toNat_lt
    have := b.toNat_lt
    refine ⟨[a.toNat / 4, a.toNat % 4 * 16 + b.toNat / 16, b.toNat % 16 * 4], 1, rfl, ?_, by decide⟩
    simp only [List.forall_mem_cons]
    exact ⟨by omega, by omega, by omega, List.forall_mem_nil _⟩
  | case4 a b c rest ih =>
    have := a.toNat_lt
    have := b.toNat_lt
    have := c.toNat_lt
    obtain ⟨numbers, pads, heq, hnumbers, hpads⟩ := ih
    refine ⟨a.toNat / 4 :: (a.toNat % 4 * 16 + b.toNat / 16) ::
      (b.toNat % 16 * 4 + c.toNat / 64) :: c.toNat % 64 :: numbers, pads, ?_, ?_, hpads⟩
    · rw [heq]
      rfl
    · simp only [List.forall_mem_cons]
      exact ⟨by omega, by omega, by omega, by omega, hnumbers⟩

/-- A test that neither digits nor padding pass holds of no character of an encoding. -/
theorem encode_avoids {p : Char → Bool} (padding : p '=' = false)
    (digits : ∀ n < 64, p (digit n) = false) (bytes : Bytes) :
    ∀ c ∈ encode bytes, p c = false := by
  obtain ⟨numbers, pads, heq, hnumbers, -⟩ := exists_encode_eq bytes
  intro c hc
  rw [heq, List.mem_append] at hc
  rcases hc with hc | hc
  · obtain ⟨n, hn, rfl⟩ := List.mem_map.mp hc
    exact digits n (hnumbers n hn)
  · rw [List.eq_of_mem_replicate hc]
    exact padding

theorem length_encode (bytes : Bytes) : (encode bytes).length % 4 = 0 := by
  fun_induction encode bytes with
  | case1 => rfl
  | case2 => simp
  | case3 => simp
  | case4 a b c rest ih => simp only [List.length_cons]; omega

theorem sextets_digit {count n : Nat} (hn : n < 64) (rest : List Char) :
    sextets count false 0 (digit n :: rest) = (sextets (count + 1) false 0 rest).map (n :: ·) := by
  simp [sextets, digit_ne_padding hn, digitValue?_digit hn]

theorem ofNat_eq_byte {a : UInt8} {n : Nat} (h : n = a.toNat) : UInt8.ofNat n = a := by
  rw [h, UInt8.ofNat_toNat]

/-- After whole groups of four, the codes of some bytes are read as numbers that hold them. -/
theorem sextets_encode {count : Nat} (hc : count % 4 = 0) (bytes : Bytes) :
    (sextets count false 0 (encode bytes)).map pack = .ok bytes := by
  fun_induction encode bytes generalizing count with
  | case1 => simp [sextets, hc, pack, Except.map]
  | case2 a =>
    have := a.toNat_lt
    have h1 : (count + 1 + 1) % 4 = 2 := by omega
    rw [sextets_digit (by omega), sextets_digit (by omega)]
    simp only [sextets, h1, ↓reduceIte, Nat.reduceLeDiff, Nat.reduceAdd, List.isEmpty_nil,
      Except.map, pack]
    rw [ofNat_eq_byte (a := a) (by omega)]
  | case3 a b =>
    have := a.toNat_lt
    have := b.toNat_lt
    have h1 : (count + 1 + 1 + 1) % 4 = 3 := by omega
    rw [sextets_digit (by omega), sextets_digit (by omega), sextets_digit (by omega)]
    simp only [sextets, h1, ↓reduceIte, Nat.reduceLeDiff, Nat.reduceAdd, List.isEmpty_nil,
      Except.map, pack]
    rw [ofNat_eq_byte (a := a) (by omega), ofNat_eq_byte (a := b) (by omega)]
  | case4 a b c rest ih =>
    have := a.toNat_lt
    have := b.toNat_lt
    have := c.toNat_lt
    rw [sextets_digit (by omega), sextets_digit (by omega), sextets_digit (by omega),
      sextets_digit (by omega)]
    have hcount : (count + 1 + 1 + 1 + 1) % 4 = 0 := by omega
    have h := ih hcount
    cases hs : sextets (count + 1 + 1 + 1 + 1) false 0 (encode rest) with
    | error e => rw [hs] at h; contradiction
    | ok numbers =>
      rw [hs] at h
      simp only [Except.map, Except.ok.injEq] at h
      simp only [Except.map, pack, h]
      rw [ofNat_eq_byte (a := a) (by omega), ofNat_eq_byte (a := b) (by omega),
        ofNat_eq_byte (a := c) (by omega)]

theorem head?_encode (bytes : Bytes) : (encode bytes).head? ≠ some '=' := by
  cases bytes with
  | nil => simp [encode]
  | cons a rest =>
    have := a.toNat_lt
    have hd : digit (a.toNat / 4) ≠ '=' := digit_ne_padding (by omega)
    rcases rest with _ | ⟨b, _ | ⟨c, rest⟩⟩ <;> simpa [encode] using hd

theorem decode_encode (bytes : Bytes) : decode (encode bytes) = .ok bytes := by
  have hascii : ((encode bytes).any fun c => 128 ≤ c.toNat) = false := by
    rw [List.any_eq_false]
    intro c hc
    simpa using encode_avoids (p := fun c => 128 ≤ c.toNat) (by decide) (by decide) bytes c hc
  simp only [decode, hascii, Bool.false_eq_true, ↓reduceIte, head?_encode]
  exact sextets_encode rfl bytes

/-- What may keep base64 from being decoded, once it is known to be ASCII. -/
theorem failsOnly_sextets (count : Nat) (padding : Bool) (pads : Nat) (text : List Char) :
    FailsOnly (· ≠ .nonAscii) (sextets count padding pads text) := by
  fun_induction sextets count padding pads text with
  | case1 => exact failsOnly_ok []
  | case2 => exact failsOnly_error (by simp)
  | case3 => exact failsOnly_error (by simp)
  | case4 => exact failsOnly_ok []
  | case5 => exact failsOnly_error (by simp)
  | case6 _ _ _ _ _ _ ih => exact ih
  | case7 _ _ _ _ _ ih => exact ih
  | case8 => exact failsOnly_error (by simp)
  | case9 => exact failsOnly_error (by simp)
  | case10 _ _ _ _ _ _ _ _ _ ih => exact ih.map _

theorem decode_eq_nonAscii_iff {text : List Char} :
    decode text = .error .nonAscii ↔ ∃ c ∈ text, 128 ≤ c.toNat := by
  unfold decode
  split_ifs with hascii hpadding
  · simpa using hascii
  · simpa using hascii
  · constructor
    · intro h
      exact absurd rfl ((failsOnly_sextets 0 false 0 text).map pack _ h)
    · intro h
      exact absurd (by simpa using h) hascii

end Base64

namespace Base64Body

/-- The body is the text with white space put in anywhere. -/
inductive SpacedOut : (text body : List Char) → Prop where
  | nil : SpacedOut [] []
  | char (c : Char) {text body : List Char} (h : SpacedOut text body) :
      SpacedOut (c :: text) (c :: body)
  | blank {c : Char} (blank : isBlank c = true) {text body : List Char}
      (h : SpacedOut text body) : SpacedOut text (c :: body)

theorem SpacedOut.refl (text : List Char) : SpacedOut text text := by
  induction text with
  | nil => exact .nil
  | cons c text ih => exact .char c ih

theorem SpacedOut.filter {text body : List Char} (h : SpacedOut text body) :
    (body.filter fun c => !isBlank c) = text.filter fun c => !isBlank c := by
  induction h with
  | nil => rfl
  | char c _ ih => rw [List.filter_cons, List.filter_cons, ih]
  | blank blank _ ih => rw [List.filter_cons_of_neg (by simp [blank]), ih]

theorem SpacedOut.mem {text body : List Char} (h : SpacedOut text body) {c : Char}
    (hc : c ∈ body) : c ∈ text ∨ isBlank c = true := by
  induction h with
  | nil => exact .inl hc
  | char d _ ih =>
    rcases List.mem_cons.mp hc with rfl | hc
    · exact .inl List.mem_cons_self
    · exact (ih hc).imp_left (List.mem_cons_of_mem d)
  | blank blank _ ih =>
    rcases List.mem_cons.mp hc with rfl | hc
    · exact .inr blank
    · exact ih hc

/-- The text is the encoding of some bytes without part of its padding, or with all of it. -/
def Unpadded (text : List Char) (bytes : Bytes) : Prop :=
  ∃ removed, text ++ List.replicate removed '=' = Base64.encode bytes

theorem unpadded_encode (bytes : Bytes) : Unpadded (Base64.encode bytes) bytes :=
  ⟨0, List.append_nil _⟩

section

variable {text body : List Char} {bytes : Bytes}

theorem Unpadded.not_isBlank (h : Unpadded text bytes) : ∀ c ∈ text, isBlank c = false := by
  obtain ⟨removed, heq⟩ := h
  intro c hc
  apply Base64.encode_avoids (p := isBlank) (by decide) (by decide) bytes
  rw [← heq]
  exact List.mem_append_left _ hc

/-- The length of what is left tells how much padding is missing. -/
theorem Unpadded.append_missingPadding (h : Unpadded text bytes) :
    text ++ missingPadding text.length = Base64.encode bytes := by
  obtain ⟨removed, heq⟩ := h
  obtain ⟨numbers, pads, hencode, hnumbers, hpads⟩ := Base64.exists_encode_eq bytes
  have hlength : (text.length + removed) % 4 = 0 := by
    rw [← Base64.length_encode bytes, ← heq, List.length_append, List.length_replicate]
  -- If more were missing than the padding, one of the digits would be a padding character.
  have hremoved : removed ≤ pads := by
    by_contra! hmore
    obtain ⟨further, rfl⟩ := Nat.exists_eq_add_of_lt hmore
    rw [hencode, add_assoc, add_comm, ← List.replicate_append_replicate, ← List.append_assoc,
      List.append_cancel_right_eq] at heq
    have hpadding : '=' ∈ numbers.map Base64.digit := by
      rw [← heq]
      simp
    obtain ⟨n, hn, hdigit⟩ := List.mem_map.mp hpadding
    exact Base64.digit_ne_padding (hnumbers n hn) hdigit
  have hmissing : missingPadding text.length = List.replicate removed '=' := by
    rw [missingPadding]
    congr 1
    omega
  rw [hmissing, heq]

/-- Neither white space nor missing padding changes what an encoding is decoded as. -/
theorem decode_spacedOut (h : Unpadded text bytes) (spaced : SpacedOut text body)
    (position : Nat) : decode position body = .ok bytes := by
  have hpayload : (body.filter fun c => !isBlank c) = text := by
    rw [spaced.filter, List.filter_eq_self]
    intro c hc
    simp [h.not_isBlank c hc]
  simp only [decode, hpayload, h.append_missingPadding, Base64.decode_encode]
  rfl

/-- No quote gets into an encoding. -/
theorem Unpadded.ne_quote (h : Unpadded text bytes) (spaced : SpacedOut text body) :
    ∀ c ∈ body, c ≠ '\x22' := by
  rintro c hc rfl
  rcases spaced.mem hc with hc | hc
  · obtain ⟨removed, heq⟩ := h
    have hquote := Base64.encode_avoids (p := (· = '\x22')) (by decide) (by decide) bytes '\x22'
      (by rw [← heq]; exact List.mem_append_left _ hc)
    contradiction
  · contradiction

end

theorem decode_encode (position : Nat) (bytes : Bytes) :
    decode position (Base64.encode bytes) = .ok bytes :=
  decode_spacedOut (unpadded_encode bytes) (.refl _) position

theorem plainBody?_encode (bytes : Bytes) (rest : List Char) :
    plainBody? '\x22' (Base64.encode bytes ++ '\x22' :: rest) =
      some (Base64.encode bytes, rest) :=
  plainBody?_append ((unpadded_encode bytes).ne_quote (.refl _)) rest

end Base64Body

end AttributeExpr
