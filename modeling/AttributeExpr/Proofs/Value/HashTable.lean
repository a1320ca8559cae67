import AttributeExpr.Placeholder
import AttributeExpr.Proofs.Value.Hash
/-!
Tables whose keys are values. Since equal values have the same hash code, a table finds a stored key
under each value that equals it and under no other. What is put into a table under a key is found
until something else is put under an equal one.
-/
namespace AttributeExpr.Value

section

variable {a b c : Value} (ha : a.Regular) (hb : b.Regular)

include ha hb

theorem isEqual_comm : isEqual a b = isEqual b a := by
  rw [Bool.eq_iff_iff, isEqual_iff, isEqual_iff]
  exact ⟨fun h => h.symm ha.sound hb.sound, fun h => h.symm hb.sound ha.sound⟩

/-- Of two equal values, each equals what the other does. -/
theorem isEqual_congr_left (hc : c.Regular) (h : isEqual a b = true) :
    isEqual a c = isEqual b c := by
  have hab := isEqual_iff.mp h
  rw [Bool.eq_iff_iff, isEqual_iff, isEqual_iff]
  constructor
  · exact (hab.symm ha.sound hb.sound).trans hb.sound ha.sound hc.sound
  · exact hab.trans ha.sound hb.sound hc.sound

end

variable {Code α : Type} [DecidableEq Code] {hashing : Hashing Code}

/-- The value is regular and has this code. -/
def HasCode (hashing : Hashing Code) (value : Value) (code : Code) : Prop :=
  value.Regular ∧ hash hashing value = .ok code

theorem Regular.exists_hasCode {value : Value} (h : value.Regular) (hashing : Hashing Code) :
    ∃ code, HasCode hashing value code :=
  (h.exists_hash hashing).imp fun _ hcode => ⟨h, hcode⟩

namespace HashTable

/-- Each key of the table stands beside its own code. -/
def Consistent (hashing : Hashing Code) (table : HashTable Code α) : Prop :=
  ∀ slot ∈ table, HasCode hashing slot.key slot.code

variable {table : HashTable Code α} {key key' : Value} {code code' : Code}

theorem isAt_eq {content : α} (hstored : HasCode hashing key' code')
    (hkey : HasCode hashing key code) :
    isAt code key ⟨code', key', content⟩ = isEqual key' key := by
  rw [isAt]
  cases h : isEqual key' key with
  | false => rw [Bool.and_false]
  | true =>
    have hsame := (isEqual_iff.mp h).hash_eq hstored.1 hkey.1 hashing
    rw [hstored.2, hkey.2] at hsame
    simp [Except.ok.inj hsame]

theorem find?_cons {content : α} (hstored : HasCode hashing key' code')
    (hkey : HasCode hashing key code) :
    find? (⟨code', key', content⟩ :: table) code key =
      if isEqual key' key then some content else find? table code key := by
  rw [find?, List.find?_cons, isAt_eq hstored hkey]
  cases isEqual key' key <;> rfl

theorem Consistent.put (h : Consistent hashing table) (hkey : HasCode hashing key code)
    (content : α) : Consistent hashing (table.put code key content) := by
  induction table with
  | nil => exact List.forall_mem_singleton.mpr hkey
  | cons slot rest ih =>
    obtain ⟨hslot, hrest⟩ := List.forall_mem_cons.mp h
    rw [HashTable.put]
    split
    · exact List.forall_mem_cons.mpr ⟨hslot, hrest⟩
    · exact List.forall_mem_cons.mpr ⟨hslot, ih hrest⟩

/-- What is put under a key is found under the keys that equal it; under the others nothing
changes. -/
theorem find?_put (h : Consistent hashing table) (hkey : HasCode hashing key code)
    (hkey' : HasCode hashing key' code') (content : α) :
    (table.put code key content).find? code' key' =
      if isEqual key key' then some content else table.find? code' key' := by
  induction table with
  | nil => exact find?_cons hkey hkey'
  | cons slot rest ih =>
    obtain ⟨stored, key₀, content₀⟩ := slot
    obtain ⟨hstored, hrest⟩ := List.forall_mem_cons.mp h
    rw [put, isAt_eq hstored hkey, find?_cons hstored hkey']
    cases hequal : isEqual key₀ key with
    | true =>
      rw [if_pos rfl, find?_cons hstored hkey',
        isEqual_congr_left hstored.1 hkey.1 hkey'.1 hequal]
      split_ifs <;> rfl
    | false =>
      rw [if_neg Bool.false_ne_true, find?_cons hstored hkey', ih hrest]
      cases hequal' : isEqual key₀ key' with
      | false => rfl
      | true =>
        -- The stored key equals one of the two keys and not the other, so these differ.
        have hdiffer : isEqual key key' = false := by
          rw [isEqual_comm hkey.1 hkey'.1,
            ← isEqual_congr_left hstored.1 hkey'.1 hkey.1 hequal', hequal]
        rw [hdiffer]
        rfl

theorem exists_insert (h : Consistent hashing table) (hkey : key.Regular) (content : α) :
    ∃ table', insert hashing table key content = .ok table' ∧ Consistent hashing table' ∧
      ∀ key' code', HasCode hashing key' code' →
        table'.find? code' key' =
          if isEqual key key' then some content else table.find? code' key' := by
  obtain ⟨code, hcode⟩ := hkey.exists_hasCode hashing
  refine ⟨table.put code key content, ?_, h.put hcode content, ?_⟩
  · rw [insert, hcode.2]
    rfl
  · exact fun key' code' hcode' => find?_put h hcode hcode' content

/-- After some entries are put into a table, the last one under an equal key is found, or else what
was found before. -/
theorem exists_foldlM_insert {entries : List (Value × α)}
    (hentries : ∀ entry ∈ entries, entry.1.Regular) (h : Consistent hashing table) :
    ∃ table', entries.foldlM (fun table entry => insert hashing table entry.1 entry.2) table =
        .ok table' ∧ Consistent hashing table' ∧
      ∀ key code, HasCode hashing key code →
        table'.find? code key =
          ((entries.reverse.find? fun entry => isEqual entry.1 key).map (·.2)).or
            (table.find? code key) := by
  induction entries generalizing table with
  | nil => exact ⟨table, rfl, h, fun _ _ _ => rfl⟩
  | cons entry entries ih =>
    obtain ⟨hentry, hentries⟩ := List.forall_mem_cons.mp hentries
    obtain ⟨table₁, hinsert, h₁, hfind₁⟩ := exists_insert h hentry entry.2
    obtain ⟨table₂, hrest, h₂, hfind₂⟩ := ih hentries h₁
    refine ⟨table₂, ?_, h₂, ?_⟩
    · rw [List.foldlM_cons, hinsert]
      exact hrest
    · intro key code hkey
      rw [hfind₂ key code hkey, hfind₁ key code hkey, List.reverse_cons, List.find?_append,
        Option.map_or, Option.or_assoc, List.find?_singleton]
      split_ifs <;> rfl

/-- A table of regular keys finds under a key the last content that was put under an equal one. -/
theorem exists_ofEntries (hashing : Hashing Code) {entries : List (Value × α)}
    (hentries : ∀ entry ∈ entries, entry.1.Regular) :
    ∃ table, ofEntries hashing entries = .ok table ∧
      ∀ key, key.Regular → get? hashing table key =
        .ok ((entries.reverse.find? fun entry => isEqual entry.1 key).map (·.2)) := by
  have hempty : Consistent hashing ([] : HashTable Code α) := List.forall_mem_nil _
  obtain ⟨table, htable, -, hfind⟩ := exists_foldlM_insert hentries hempty
  refine ⟨table, htable, fun key hkey => ?_⟩
  obtain ⟨code, hcode⟩ := hkey.exists_hasCode hashing
  rw [get?, hcode.2]
  exact congrArg Except.ok ((hfind key code hcode).trans Option.or_none)

/-- Asking a table of regular keys for a key gives an answer, and it finds something exactly if an
equal key was put into the table. -/
theorem exists_get?_iff (hashing : Hashing Code) {entries : List (Value × α)}
    (hentries : ∀ entry ∈ entries, entry.1.Regular) :
    ∃ table, ofEntries hashing entries = .ok table ∧
      ∀ key, key.Regular → ∃ found, get? hashing table key = .ok found ∧
        (found.isSome ↔ ∃ entry ∈ entries, Equals entry.1 key) := by
  obtain ⟨table, htable, hget⟩ := exists_ofEntries hashing hentries
  refine ⟨table, htable, fun key hkey => ⟨_, hget key hkey, ?_⟩⟩
  simp [isEqual_iff]

end HashTable

theorem isSome_valueRef?_iff {table : PlaceholderTable}
    (htable : ∀ entry ∈ table.values, entry.value.Regular) {value : Value} (h : value.Regular) :
    (table.valueRef? value).isSome ↔ ∃ entry ∈ table.values, Equals entry.value value := by
  rw [PlaceholderTable.valueRef?, Option.isSome_map, List.find?_isSome]
  apply exists_congr
  intro entry
  apply and_congr_right
  intro hentry
  exact shares_iff (htable entry hentry).sound h.sound

/-- Of two equal values, both have an encoding or none has. -/
theorem exists_toWire_iff_of_equals {a b : Value} (ha : a.Regular) (hb : b.Regular)
    (h : Equals a b) :
    (∃ document, toWire a = .ok document) ↔ ∃ document, toWire b = .ok document := by
  rw [exists_toWire_iff, exists_toWire_iff]
  constructor
  · exact h.encodable ha.sound hb.sound
  · exact (h.symm ha.sound hb.sound).encodable hb.sound ha.sound

/-- Equality of regular values is an equivalence relation, namely that of being rearranged. Equal
values have the same hash code, so that a table of values, such as the one of placeholders, has
something under a key exactly if a key was put into it that equals this one; and of equal values,
both have an encoding or none. -/
theorem equality_of_regular {Code α : Type} [DecidableEq Code] (hashing : Hashing Code) :
    (Equivalence fun a b : {value : Value // value.Regular} => Equals a b) ∧
    (∀ a b : Value, a.Regular → b.Regular →
      (equal a b = .ok true ↔ Rearranged a b) ∧ (equal a b = .ok false ↔ ¬Rearranged a b)) ∧
    (∀ a b : Value, a.Regular → b.Regular → Equals a b →
      (∃ code, hash hashing a = .ok code ∧ hash hashing b = .ok code) ∧
      ((∃ document, toWire a = .ok document) ↔ ∃ document, toWire b = .ok document)) ∧
    (∀ entries : List (Value × α), (∀ entry ∈ entries, entry.1.Regular) →
      ∃ table, HashTable.ofEntries hashing entries = .ok table ∧
        ∀ key, key.Regular → ∃ found, HashTable.get? hashing table key = .ok found ∧
          (found.isSome ↔ ∃ entry ∈ entries, Equals entry.1 key)) ∧
    ∀ table : PlaceholderTable, (∀ entry ∈ table.values, entry.value.Regular) →
      ∀ value, value.Regular →
        ((table.valueRef? value).isSome ↔ ∃ entry ∈ table.values, Equals entry.value value) := by
  refine ⟨⟨?_, ?_, ?_⟩, ?_, ?_, ?_, ?_⟩
  · exact fun a => a.2.equals_self
  · exact fun {a b} h => h.symm a.2.sound b.2.sound
  · exact fun {a b c} h h' => h.trans a.2.sound b.2.sound c.2.sound h'
  · intro a b ha hb
    have hiff : equal a b = .ok true ↔ Rearranged a b :=
      ⟨rearranged_of_equals ha hb, fun h => (Rearranged.regular_equals h ha).2⟩
    refine ⟨hiff, ?_⟩
    obtain ⟨answer, hanswer⟩ := ha.sound.exists_equal hb.sound
    rw [← hiff, hanswer]
    cases answer <;> simp
  · intro a b ha hb h
    obtain ⟨code, hcode⟩ := ha.exists_hash hashing
    exact ⟨⟨code, hcode, (h.hash_eq ha hb hashing).symm.trans hcode⟩,
      exists_toWire_iff_of_equals ha hb h⟩
  · exact fun entries hentries => HashTable.exists_get?_iff hashing hentries
  · exact fun table htable value hvalue => isSome_valueRef?_iff htable hvalue

/-- A plain way to hash: by lengths and coefficients, with the codes of members added up. -/
def sumHashing : Hashing Nat where
  text text := text.length
  bytes bytes := bytes.length
  truth b := b.toNat
  number d := match d.normalize with
    | .finite _ coefficient _ => coefficient
    | _ => 0
  tuple codes := codes.foldl (fun sum code => 31 * sum + code) 7
  unordered codes := codes.sum
  number_eq h := by
    simp only [Decimal.sameValue, Bool.and_eq_true, decide_eq_true_eq] at h
    rw [h.2]
  unordered_eq h := h.sum_eq

theorem equality_of_regular_reordered :
    let a := map [("x", numberSet ["1", "0"]), ("y", null)]
    let b := map [("y", null), ("x", numberSet ["-0", "1"])]
    a.Regular ∧ b.Regular ∧ equal a b = .ok true ∧
      (∃ code, hash sumHashing a = .ok code ∧ hash sumHashing b = .ok code) ∧
      ∃ table, HashTable.ofEntries sumHashing [(a, true)] = .ok table ∧
        ∃ found, HashTable.get? sumHashing table b = .ok found ∧ found.isSome := by
  intro a b
  have hone : Denotes "1" 1 :=
    Option.bind_eq_some_iff.mpr ⟨.finite false 1 0, rfl, by simp [Decimal.toRat?]⟩
  have hzero : Denotes "0" 0 :=
    Option.bind_eq_some_iff.mpr ⟨.finite false 0 0, rfl, by simp [Decimal.toRat?]⟩
  have hminusZero : Denotes "-0" 0 :=
    Option.bind_eq_some_iff.mpr ⟨.finite true 0 0, rfl, by simp [Decimal.toRat?]⟩
  have hset : Regular (numberSet ["1", "0"]) := by
    have hfinite : FiniteTexts ["1", "0"] :=
      List.forall_mem_cons.mpr ⟨⟨1, hone⟩, List.forall_mem_singleton.mpr ⟨0, hzero⟩⟩
    refine .numberSet (List.cons_ne_nil _ _) hfinite ?_
    have hvalues : ["1", "0"].map rational? = [some 1, some 0] := by
      rw [List.map_cons, List.map_singleton, show rational? "1" = _ from hone,
        show rational? "0" = _ from hzero]
    rw [hvalues]
    decide
  have ha : a.Regular := by
    refine .map (by decide) ?_
    exact List.forall_mem_cons.mpr ⟨hset, List.forall_mem_singleton.mpr .null⟩
  have hswapped : Rearranges (numberSet ["1", "0"]) (numberSet ["0", "1"]) :=
    .numbers (.swap _ _ _)
  have hrespelled : Rearranges (numberSet ["0", "1"]) (numberSet ["-0", "1"]) :=
    @Rearranges.respelling [] ["1"] _ _ _ hzero hminusZero
  have hab : Rearranged a b :=
    calc Rearranged a (map [("y", null), ("x", numberSet ["1", "0"])]) :=
        .single (.entries (.swap _ _ _))
      Rearranged _ (map [("y", null), ("x", numberSet ["0", "1"])]) :=
        .single (@Rearranges.entry [("y", null)] [] _ _ _ hswapped)
      Rearranged _ b := .single (@Rearranges.entry [("y", null)] [] _ _ _ hrespelled)
  have hb := (Rearranged.regular_equals hab ha).1
  obtain ⟨-, hequal, hsame, htables, -⟩ := @equality_of_regular Nat Bool _ sumHashing
  have h := (hequal a b ha hb).1.mpr hab
  obtain ⟨table, htable, hfound⟩ := htables [(a, true)] (List.forall_mem_singleton.mpr ha)
  obtain ⟨found, hget, hiff⟩ := hfound b hb
  exact ⟨ha, hb, h, (hsame a b ha hb h).1, table, htable, found, hget,
    hiff.mpr ⟨(a, true), List.mem_singleton_self _, h⟩⟩

end AttributeExpr.Value
