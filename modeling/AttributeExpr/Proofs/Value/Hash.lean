import AttributeExpr.Proofs.Value.Rearrangement
import AttributeExpr.Value.Hash
/-!
Hash codes and equality. A value has a hash code unless a number in one of its sets cannot be
compared, and rearranging a value does not change its code, so that equal values have the same one.
-/
namespace AttributeExpr

theorem distinctBy_eq_self {α : Type} {same : α → α → Bool} {members : List α}
    (h : members.Pairwise fun a b => same a b = false) : distinctBy same members = members :=
  List.pwFilter_eq_self.mpr h

theorem distinctBy_eq_self_of_nodup {α : Type} [DecidableEq α] {members : List α}
    (h : members.Nodup) : distinctBy (· = ·) members = members :=
  distinctBy_eq_self (h.imp fun hne => decide_eq_false hne)

/-- Steps that all succeed do so in any order, with the same results in that order. -/
theorem exists_mapM_of_perm {ε α β : Type} {f : α → Except ε β} {as as' : List α} {bs : List β}
    (hperm : as.Perm as') (h : as.mapM f = .ok bs) :
    ∃ bs', as'.mapM f = .ok bs' ∧ bs.Perm bs' := by
  obtain ⟨bs', hforall, hbs⟩ := List.perm_comp_forall₂ hperm.symm ((mapM_eq_ok_iff _ _ _).mp h)
  exact ⟨bs', (mapM_eq_ok_iff _ _ _).mpr hforall, hbs.symm⟩

theorem mapM_replaced {ε α β : Type} {f : α → Except ε β} {before after : List α} {a a' : α}
    (h : f a = f a') : (before ++ a :: after).mapM f = (before ++ a' :: after).mapM f := by
  rw [List.mapM_append, List.mapM_append, List.mapM_cons, List.mapM_cons, h]

theorem Hashing.number_eq_of_toRat? {Code : Type} (hashing : Hashing Code) {d d' : Decimal} {x : ℚ}
    (h : d.toRat? = some x) (heq : d.toRat? = d'.toRat?) : hashing.number d = hashing.number d' :=
  hashing.number_eq ((Decimal.sameValue_iff h (heq ▸ h)).mpr heq)

namespace Value

variable {Code : Type} [DecidableEq Code] {hashing : Hashing Code}

mutual

/-- Hashing fails where the numbers of a set cannot be compared, and only there. -/
theorem map_hash : ∀ value : Value,
    (hash hashing value).map (fun _ => ()) = checkComparable value
  | list items => by rw [hash, map_map_unit, checkComparable, map_hashItems]
  | map entries => by rw [hash, map_map_unit, checkComparable, map_hashEntries]
  | numberSet elements => by rw [hash, map_map_unit, checkComparable]
  | null | bool _ | number _ | string _ | binary _ | stringSet _ | binarySet _ => rfl

theorem map_hashItems : ∀ items : List Value,
    (hashItems hashing items).map (fun _ => ()) = checkComparableItems items
  | [] => rfl
  | item :: rest => by
    rw [hashItems, checkComparableItems, ← map_hash item, ← map_hashItems rest]
    cases hash hashing item with
    | error error => rfl
    | ok code => exact map_map_unit _ _

theorem map_hashEntries : ∀ entries : List (String × Value),
    (hashEntries hashing entries).map (fun _ => ()) = checkComparableEntries entries
  | [] => rfl
  | (key, value) :: rest => by
    rw [hashEntries, checkComparableEntries, ← map_hash value, ← map_hashEntries rest]
    cases hash hashing value with
    | error error => rfl
    | ok code => exact map_map_unit _ _

end

theorem Regular.exists_hash {value : Value} (h : value.Regular) (hashing : Hashing Code) :
    ∃ code, hash hashing value = .ok code := by
  have hchecked : (hash hashing value).map (fun _ => ()) = .ok () :=
    (map_hash value).trans h.sound.checkComparable
  obtain ⟨code, hcode, -⟩ := map_eq_ok_iff.mp hchecked
  exact ⟨code, hcode⟩

theorem hashItems_eq_mapM (items : List Value) :
    hashItems hashing items = items.mapM (hash hashing) := by
  induction items with
  | nil => rfl
  | cons item items ih =>
    rw [hashItems, List.mapM_cons, ih]
    cases hash hashing item <;> rfl

/-! A map whose keys differ is hashed entry by entry. -/

/-- The code of an entry of a map. -/
def entryCode (hashing : Hashing Code) (entry : String × Value) : Except Failure Code :=
  (hash hashing entry.2).map fun code => hashing.tuple [hashing.text entry.1, code]

theorem map_entryCodes (entries : List (String × Value)) :
    (hashEntries hashing entries).map (fun hashed => hashed.map fun (entry, code) =>
      hashing.tuple [hashing.text entry.1, code]) = entries.mapM (entryCode hashing) := by
  induction entries with
  | nil => rfl
  | cons entry entries ih =>
    rw [hashEntries, List.mapM_cons, ← ih, entryCode]
    cases hash hashing entry.2 with
    | error error => rfl
    | ok code => cases hashEntries hashing entries <;> rfl

theorem map_fst_of_hashEntries {entries : List (String × Value)}
    {hashed : List ((String × Value) × Code)} (h : hashEntries hashing entries = .ok hashed) :
    hashed.map (·.1) = entries := by
  induction entries generalizing hashed with
  | nil =>
    obtain rfl := Except.ok.inj h
    rfl
  | cons entry entries ih =>
    rw [hashEntries] at h
    split at h
    · contradiction
    · next code _ =>
      obtain ⟨rest, hrest, rfl⟩ := map_eq_ok_iff.mp h
      rw [List.map_cons, ih hrest]

theorem hash_map_eq {entries : List (String × Value)} (distinct : (entries.map (·.1)).Nodup) :
    hash hashing (map entries) =
      (entries.mapM (entryCode hashing)).map hashing.unordered := by
  rw [hash, ← map_entryCodes]
  cases hhashed : hashEntries hashing entries with
  | error error => rfl
  | ok hashed =>
    rw [← map_fst_of_hashEntries hhashed, List.map_map] at distinct
    have hpairwise : hashed.Pairwise fun a b => sameEntry a b = false := by
      apply (List.pairwise_map.mp distinct).imp
      intro a b hne
      have hkey : a.1.1 ≠ b.1.1 := hne
      simp [sameEntry, hkey]
    exact congrArg Except.ok (by rw [mapCode, distinctBy_eq_self hpairwise])

/-! A set of finite numbers is hashed by its rational numbers. -/

theorem hash_numberSet_eq {elements : List String} {numbers : List Decimal}
    (h : ComparedAs elements numbers) (distinct : (elements.map rational?).Nodup) :
    hash hashing (numberSet elements) =
      .ok (setCode hashing "NumberSet" (numbers.map hashing.number)) := by
  rw [hash, (mapM_eq_ok_iff _ _ _).mpr h.forall₂_comparable]
  apply congrArg Except.ok
  dsimp only
  rw [distinctBy_eq_self (h.pairwise_iff.mpr distinct)]

theorem hash_numberSet_of_perm {as bs : List String} (ha : Regular (numberSet as))
    (hb : Regular (numberSet bs)) (h : (as.map rational?).Perm (bs.map rational?)) :
    hash hashing (numberSet as) = hash hashing (numberSet bs) := by
  cases ha with
  | numberSet _ finite distinct =>
  cases hb with
  | numberSet _ finite' distinct' =>
  obtain ⟨numbers, hnumbers⟩ := finite.exists_comparedAs
  obtain ⟨numbers', hnumbers'⟩ := finite'.exists_comparedAs
  rw [← hnumbers.map_rational?, ← hnumbers'.map_rational?] at h
  obtain ⟨others, hperm, hforall⟩ := exists_perm_of_keys Decimal.toRat? h
  have hcodes : numbers.map hashing.number = others.map hashing.number := by
    rw [← List.forall₂_eq_eq_eq, List.forall₂_map_left_iff, List.forall₂_map_right_iff]
    apply forall₂_imp_of_mem hforall
    intro d hd d' _ heq
    obtain ⟨x, hx⟩ := hnumbers.exists_toRat? d hd
    exact hashing.number_eq_of_toRat? hx heq
  rw [hash_numberSet_eq hnumbers distinct, hash_numberSet_eq hnumbers' distinct', setCode, setCode,
    hcodes, hashing.unordered_eq (hperm.map _)]

omit [DecidableEq Code] in
/-- The code of a set of different elements does not depend on their order. -/
theorem setCode_of_perm {α : Type} [DecidableEq α] {as bs : List α} (h : as.Perm bs)
    (distinct : as.Nodup) {kind : String} {code : α → Code} :
    setCode hashing kind ((distinctBy (· = ·) as).map code) =
      setCode hashing kind ((distinctBy (· = ·) bs).map code) := by
  rw [distinctBy_eq_self_of_nodup distinct, distinctBy_eq_self_of_nodup (h.nodup_iff.mp distinct),
    setCode, setCode, hashing.unordered_eq (h.map code)]

/-! Rearranging and hashing. -/

variable {a b : Value}

theorem Rearranges.hash_eq (h : Rearranges a b) (ha : a.Regular) :
    hash hashing a = hash hashing b := by
  have hb := h.regular ha
  induction h with
  | entries hperm =>
    -- In another order another entry might fail first, so it is used that none fails.
    obtain ⟨code, hcode⟩ := ha.exists_hash hashing
    cases ha with
    | map distinct _ =>
    cases hb with
    | map distinct' _ =>
    rw [hash_map_eq distinct] at hcode ⊢
    rw [hash_map_eq distinct']
    obtain ⟨codes, hcodes, -⟩ := map_eq_ok_iff.mp hcode
    obtain ⟨codes', hcodes', hperm⟩ := exists_mapM_of_perm hperm hcodes
    rw [hcodes, hcodes']
    exact congrArg Except.ok (hashing.unordered_eq hperm)
  | numbers hperm => exact hash_numberSet_of_perm ha hb (hperm.map _)
  | respelling hx hx' =>
    exact hash_numberSet_of_perm ha hb (.of_eq (map_rational?_respelled hx hx'))
  | strings hperm =>
    cases ha with
    | stringSet _ distinct => rw [hash, hash, setCode_of_perm hperm distinct]
  | binaries hperm =>
    cases ha with
    | binarySet _ distinct => rw [hash, hash, setCode_of_perm hperm distinct]
  | item _ ih =>
    cases ha with
    | list ha =>
    cases hb with
    | list hb =>
    have hitem := ih (ha _ (by simp)) (hb _ (by simp))
    rw [hash, hash, hashItems_eq_mapM, hashItems_eq_mapM, mapM_replaced hitem]
  | @entry before after key value value' _ ih =>
    cases ha with
    | map distinct ha =>
    cases hb with
    | map distinct' hb =>
    have hvalue := ih (ha (key, value) (by simp)) (hb (key, value') (by simp))
    have hentry : entryCode hashing (key, value) = entryCode hashing (key, value') := by
      rw [entryCode, entryCode, hvalue]
    rw [hash_map_eq distinct, hash_map_eq distinct', mapM_replaced hentry]

theorem Rearranged.hash_eq (h : Rearranged a b) (ha : a.Regular) :
    hash hashing a = hash hashing b := by
  induction h with
  | refl => rfl
  | tail hab step ih => exact ih.trans (step.hash_eq (Rearranged.regular_equals hab ha).1)

/-- Equal values have the same hash code. -/
theorem Equals.hash_eq (h : Equals a b) (ha : a.Regular) (hb : b.Regular)
    (hashing : Hashing Code) : hash hashing a = hash hashing b :=
  (rearranged_of_equals ha hb h).hash_eq ha

end Value

end AttributeExpr
