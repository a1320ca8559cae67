import AttributeExpr.Proofs.Literal.StringBody
import Mathlib
/-!
The code units that a literal spells. An escape spells one unit of UTF-16, which may be half of a
surrogate pair and then is no character of its own. A literal is decoded only if its units are those
of a text, so a half that stands alone keeps the literal from being decoded, and is never taken for
another character.
-/
namespace AttributeExpr

open StringBody (isHighSurrogate isLowSurrogate)

/-- The code units of a character: its code point, or a pair of surrogates for it. -/
def codeUnits (c : Char) : List Nat :=
  if c.toNat < 0x10000 then [c.toNat]
  else [0xD800 + (c.toNat - 0x10000) / 0x400, 0xDC00 + (c.toNat - 0x10000) % 0x400]

/-- No surrogate among the code units stands alone. -/
inductive Paired : List Nat → Prop where
  | nil : Paired []
  | single {unit : Nat} {units : List Nat} (high : isHighSurrogate unit = false)
      (low : isLowSurrogate unit = false) (rest : Paired units) : Paired (unit :: units)
  | pair {unit unit' : Nat} {units : List Nat} (high : isHighSurrogate unit = true)
      (low : isLowSurrogate unit' = true) (rest : Paired units) : Paired (unit :: unit' :: units)

theorem paired_codeUnits (text : List Char) : Paired (text.flatMap codeUnits) := by
  induction text with
  | nil => exact .nil
  | cons c text ih =>
    have hvalid := CodePoints.not_surrogate c
    rw [List.flatMap_cons, codeUnits]
    split_ifs with hplane
    · exact .single (by simp [isHighSurrogate]; omega) (by simp [isLowSurrogate]; omega) ih
    · exact .pair (by simp [isHighSurrogate]; omega) (by simp [isLowSurrogate]; omega) ih

namespace StringBody

/-- The code units that the inside of a literal spells, whether or not they are those of a text. -/
inductive SpellsUnits : List Char → List Nat → Prop where
  | nil : SpellsUnits [] []
  | plain {c : Char} {body : List Char} {units : List Nat} (escape : c ≠ '\\')
      (rest : SpellsUnits body units) : SpellsUnits (c :: body) (codeUnits c ++ units)
  | short {code c : Char} {body : List Char} {units : List Nat} (h : shortEscape? code = some c)
      (rest : SpellsUnits body units) : SpellsUnits ('\\' :: code :: body) (codeUnits c ++ units)
  | unit {digits body : List Char} {n : Nat} {units : List Nat} (length : digits.length = 4)
      (number : hexNumber? digits = some n) (rest : SpellsUnits body units) :
      SpellsUnits ('\\' :: 'u' :: (digits ++ body)) (n :: units)

/-- A literal spells its code units in one way only, as every escape says how far it goes. -/
theorem SpellsUnits.unique {body : List Char} {units units' : List Nat}
    (h : SpellsUnits body units) (h' : SpellsUnits body units') : units = units' := by
  induction h generalizing units' with
  | nil =>
    cases h'
    rfl
  | plain escape _ ih =>
    cases h' with
    | plain _ rest => rw [ih rest]
    | short => contradiction
    | unit => contradiction
  | short h _ ih =>
    cases h' with
    | plain escape => contradiction
    | short h' rest =>
      obtain rfl := Option.some.inj (h.symm.trans h')
      rw [ih rest]
    | unit => cases h
  | @unit digits body n units length number _ ih =>
    generalize hbody : digits ++ body = tail at h'
    cases h' with
    | plain escape => contradiction
    | short h => cases h
    | @unit digits' body' n' units' length' number' rest =>
      obtain ⟨rfl, rfl⟩ := List.append_inj hbody (length.trans length'.symm)
      obtain rfl := Option.some.inj (number.symm.trans number')
      rw [ih rest]

theorem codeUnits_ofNat {n : Nat} (bound : n < 0x10000) (high : isHighSurrogate n = false)
    (low : isLowSurrogate n = false) : codeUnits (Char.ofNat n) = [n] := by
  have hn : (Char.ofNat n).toNat = n := by
    rw [Char.toNat_ofNat, if_pos (isValidChar_unit bound high low)]
  rw [codeUnits, hn, if_pos bound]

theorem codeUnits_surrogatePair {n m : Nat} (high : isHighSurrogate n = true)
    (low : isLowSurrogate m = true) : codeUnits (surrogatePair n m) = [n, m] := by
  have hpoint : (surrogatePair n m).toNat = surrogatePoint n m := by
    rw [surrogatePair, Char.toNat_ofNat, if_pos (isValidChar_surrogatePoint high low)]
  rw [isHighSurrogate_iff] at high
  rw [isLowSurrogate_iff] at low
  have hhigh : 0xD800 + (surrogatePoint n m - 0x10000) / 0x400 = n := by
    simp only [surrogatePoint]
    omega
  have hlow : 0xDC00 + (surrogatePoint n m - 0x10000) % 0x400 = m := by
    simp only [surrogatePoint]
    omega
  have hbeyond : ¬surrogatePoint n m < 0x10000 := Nat.not_lt.mpr (Nat.le_add_left _ _)
  rw [codeUnits, hpoint, if_neg hbeyond, hhigh, hlow]

/-- A piece spells the code units of the character that it stands for. -/
theorem SpellsChar.units {piece : List Char} {c : Char} (first : SpellsChar piece c)
    {body : List Char} {units : List Nat} (rest : SpellsUnits body units) :
    SpellsUnits (piece ++ body) (codeUnits c ++ units) := by
  cases first with
  | plain escape _ => exact .plain escape rest
  | short h => exact .short h rest
  | unit length number high low =>
    have bound := hexNumber?_lt number
    rw [length] at bound
    rw [codeUnits_ofNat bound high low]
    exact .unit length number rest
  | pair length number high length' number' low =>
    rw [codeUnits_surrogatePair high low, List.append_assoc]
    exact .unit length number (.unit length' number' rest)

theorem Denotes.units {body text : List Char} (h : Denotes body text) :
    SpellsUnits body (text.flatMap codeUnits) := by
  induction h with
  | nil => exact .nil
  | quote _ ih => exact .plain (by decide) ih
  | cons first _ ih => exact first.units ih

/-- What a literal is decoded as has the code units that the literal spells. -/
theorem decode_units {position : Nat} {body text : List Char}
    (h : decode position body = .ok text) : SpellsUnits body (text.flatMap codeUnits) :=
  (denotes_of_decode h).units

/-- No half of a surrogate pair stands alone among the units of a literal that is decoded. -/
theorem paired_of_decode {position : Nat} {body text : List Char} {units : List Nat}
    (h : decode position body = .ok text) (spelled : SpellsUnits body units) : Paired units := by
  rw [spelled.unique (decode_units h)]
  exact paired_codeUnits text

end StringBody

end AttributeExpr
