import AttributeExpr.Proofs.Dictionary
import AttributeExpr.Proofs.Value.WellFormed
import AttributeExpr.Value.Sharing
/-!
Equality of values whose maps have no key twice. There it is a relation between the parts, it is
symmetric and transitive, and equal values are spelled alike, so that they share a placeholder.
-/
namespace AttributeExpr.Value

/-- The values compare as equal. -/
def Equals (a b : Value) : Prop := equal a b = .ok true

theorem allTrue_eq_ok_true_iff {outcomes : List (Except Failure Bool)} :
    allTrue outcomes = .ok true ↔ ∀ outcome ∈ outcomes, outcome = .ok true := by
  induction outcomes with
  | nil => simp [allTrue]
  | cons outcome outcomes ih =>
    cases outcome with
    | error e => simp [allTrue]
    | ok b => cases b <;> simp [allTrue, ih]

theorem equalItems_eq_ok_true_iff {as bs : List Value} :
    equalItems as bs = .ok true ↔ List.Forall₂ Equals as bs := by
  induction as generalizing bs with
  | nil => cases bs <;> simp [equalItems]
  | cons a as ih =>
    cases bs with
    | nil => simp [equalItems]
    | cons b bs =>
      rw [equalItems, List.forall₂_cons, ← ih, Equals]
      split
      · next h => simp [h]
      · next h => simp_all

theorem equals_list_iff {as bs : List Value} :
    Equals (list as) (list bs) ↔ List.Forall₂ Equals as bs := by
  rw [Equals, equal, equalItems_eq_ok_true_iff]

theorem equalEntries_eq_map (entries : List (String × Value)) (d : Dictionary Value) :
    equalEntries entries d = entries.map fun entry =>
      (entry.1, match Dictionary.get? d entry.1 with
        | some other => equal entry.2 other
        | none => .ok false) := by
  induction entries with
  | nil => rfl
  | cons entry entries ih => rw [equalEntries, ih]; rfl

/-- Two maps are equal if they have as many entries, and the second has an equal value under each
key of the first. -/
theorem equals_map_iff {as bs : List (String × Value)} (ha : (as.map (·.1)).Nodup)
    (hb : (bs.map (·.1)).Nodup) :
    Equals (map as) (map bs) ↔
      as.length = bs.length ∧
        ∀ entry ∈ as, ∃ other, (entry.1, other) ∈ bs ∧ Equals entry.2 other := by
  have hkeys : ((equalEntries as bs).map (·.1)).Nodup := by
    simpa [equalEntries_eq_map, Function.comp_def] using ha
  have hentry (entry : String × Value) :
      (match Dictionary.get? bs entry.1 with
        | some other => equal entry.2 other
        | none => .ok false) = .ok true ↔
        ∃ other, (entry.1, other) ∈ bs ∧ Equals entry.2 other := by
    cases hget : Dictionary.get? bs entry.1 with
    | none =>
      simp only [Except.ok.injEq, Bool.false_eq_true, false_iff]
      rintro ⟨other, hmem, -⟩
      rw [(Dictionary.get?_eq_some_iff hb).mpr hmem] at hget
      contradiction
    | some value =>
      constructor
      · intro h
        exact ⟨value, (Dictionary.get?_eq_some_iff hb).mp hget, h⟩
      · rintro ⟨other, hmem, h⟩
        rw [(Dictionary.get?_eq_some_iff hb).mpr hmem] at hget
        obtain rfl := Option.some.inj hget
        exact h
  rw [Equals, equal]
  simp only [Dictionary.ofEntries_eq_self hb, Dictionary.ofEntries_eq_self hkeys]
  split_ifs with hlength
  · rw [equalEntries_eq_map, List.length_map] at hlength
    rw [allTrue_eq_ok_true_iff, equalEntries_eq_map, List.map_map, List.forall_mem_map]
    simp only [Function.comp_apply, hentry, hlength, true_and]
  · rw [equalEntries_eq_map, List.length_map] at hlength
    simp [hlength]

/-- The texts are numbers, and each number of one list has the value of one of the other. -/
def SameNumbers (as bs : List String) : Prop :=
  ∃ numbers numbers', List.Forall₂ (fun text number => comparable text = .ok number) as numbers ∧
    List.Forall₂ (fun text number => comparable text = .ok number) bs numbers' ∧
    sameMembers Decimal.sameValue numbers numbers' = true

theorem equals_numberSet_iff {as bs : List String} :
    Equals (numberSet as) (numberSet bs) ↔ SameNumbers as bs := by
  unfold Equals SameNumbers
  simp only [equal, equalNumberSets, bind, Except.bind, ← mapM_eq_ok_iff]
  cases as.mapM comparable with
  | error e => simp
  | ok numbers =>
    cases bs.mapM comparable with
    | error e => simp
    | ok numbers' => simp [pure, Except.pure]

theorem sameMembers_iff {α : Type} {same : α → α → Bool} {as bs : List α} :
    sameMembers same as bs = true ↔
      (∀ a ∈ as, ∃ b ∈ bs, same a b = true) ∧ ∀ b ∈ bs, ∃ a ∈ as, same b a = true := by
  simp [sameMembers]

theorem sameMembers_eq_iff {α : Type} [DecidableEq α] {as bs : List α} :
    sameMembers (· = ·) as bs = true ↔ ∀ a, a ∈ as ↔ a ∈ bs := by
  rw [sameMembers_iff]
  simp only [decide_eq_true_eq, exists_eq_right']
  exact ⟨fun h a => ⟨h.1 a, h.2 a⟩, fun h => ⟨fun a => (h a).mp, fun a => (h a).mpr⟩⟩

theorem sameMembers_symm {α : Type} {same : α → α → Bool} {as bs : List α}
    (h : sameMembers same as bs = true) : sameMembers same bs as = true := by
  rw [sameMembers_iff] at h ⊢
  exact h.symm

theorem sameMembers_trans {α : Type} {same : α → α → Bool}
    (trans : ∀ a b c, same a b = true → same b c = true → same a c = true) {as bs cs : List α}
    (h : sameMembers same as bs = true) (h' : sameMembers same bs cs = true) :
    sameMembers same as cs = true := by
  rw [sameMembers_iff] at h h' ⊢
  constructor
  · intro a ha
    obtain ⟨b, hb, hab⟩ := h.1 a ha
    obtain ⟨c, hc, hbc⟩ := h'.1 b hb
    exact ⟨c, hc, trans a b c hab hbc⟩
  · intro c hc
    obtain ⟨b, hb, hcb⟩ := h'.2 c hc
    obtain ⟨a, ha, hba⟩ := h.2 b hb
    exact ⟨a, ha, trans c b a hcb hba⟩

theorem sameValue_trans (a b c : Decimal) (h : a.sameValue b = true) (h' : b.sameValue c = true) :
    a.sameValue c = true := by
  simp only [Decimal.sameValue, Bool.and_eq_true, decide_eq_true_eq] at h h' ⊢
  exact ⟨⟨h.1.1, h'.1.2⟩, h.2.trans h'.2⟩

theorem SameNumbers.symm {as bs : List String} (h : SameNumbers as bs) : SameNumbers bs as := by
  obtain ⟨numbers, numbers', ha, hb, hsame⟩ := h
  exact ⟨numbers', numbers, hb, ha, sameMembers_symm hsame⟩

theorem SameNumbers.trans {as bs cs : List String} (h : SameNumbers as bs)
    (h' : SameNumbers bs cs) : SameNumbers as cs := by
  obtain ⟨as', bs', ha, hb, hab⟩ := h
  obtain ⟨bs'', cs', hb', hc, hbc⟩ := h'
  rw [← mapM_eq_ok_iff] at hb hb'
  obtain rfl := Except.ok.inj (hb.symm.trans hb')
  exact ⟨as', cs', ha, hc, sameMembers_trans sameValue_trans hab hbc⟩

/-- How two values are equal: as one scalar, or as collections of one kind. -/
inductive EqualParts : Value → Value → Prop where
  | null : EqualParts null null
  | bool (b : Bool) : EqualParts (bool b) (bool b)
  | number (text : String) : EqualParts (number text) (number text)
  | string (text : String) : EqualParts (string text) (string text)
  | binary (bytes : Bytes) : EqualParts (binary bytes) (binary bytes)
  | list {as bs : List Value} (h : List.Forall₂ Equals as bs) : EqualParts (list as) (list bs)
  | map (as bs : List (String × Value)) : EqualParts (map as) (map bs)
  | numberSet {as bs : List String} (h : SameNumbers as bs) :
      EqualParts (numberSet as) (numberSet bs)
  | stringSet {as bs : List String} (h : ∀ a, a ∈ as ↔ a ∈ bs) :
      EqualParts (stringSet as) (stringSet bs)
  | binarySet {as bs : List Bytes} (h : ∀ a, a ∈ as ↔ a ∈ bs) :
      EqualParts (binarySet as) (binarySet bs)

theorem equals_stringSet_iff {as bs : List String} :
    Equals (stringSet as) (stringSet bs) ↔ ∀ a, a ∈ as ↔ a ∈ bs := by
  simp only [Equals, equal, Except.ok.injEq, sameMembers_eq_iff]

theorem equals_binarySet_iff {as bs : List Bytes} :
    Equals (binarySet as) (binarySet bs) ↔ ∀ a, a ∈ as ↔ a ∈ bs := by
  simp only [Equals, equal, Except.ok.injEq, sameMembers_eq_iff]

theorem Equals.parts {a b : Value} (h : Equals a b) : EqualParts a b := by
  cases a with
  | list as =>
    cases b with
    | list bs => exact .list (equals_list_iff.mp h)
    | _ => simp [Equals, equal] at h
  | map as =>
    cases b with
    | map bs => exact .map as bs
    | _ => simp [Equals, equal] at h
  | numberSet as =>
    cases b with
    | numberSet bs => exact .numberSet (equals_numberSet_iff.mp h)
    | _ => simp [Equals, equal] at h
  | stringSet as =>
    cases b with
    | stringSet bs => exact .stringSet (equals_stringSet_iff.mp h)
    | _ => simp [Equals, equal] at h
  | binarySet as =>
    cases b with
    | binarySet bs => exact .binarySet (equals_binarySet_iff.mp h)
    | _ => simp [Equals, equal] at h
  | null =>
    cases b with
    | null => exact .null
    | _ => simp [Equals, equal] at h
  | bool | number | string | binary =>
    cases b <;> simp [Equals, equal] at h
    subst h
    constructor

section

variable {numeral : String → Prop} {a b c : Value}

theorem map_fst_subset {α β : Type} {as : List (String × α)} {bs : List (String × β)}
    (h : ∀ entry ∈ as, ∃ other, (entry.1, other) ∈ bs) : as.map (·.1) ⊆ bs.map (·.1) := by
  intro key hkey
  obtain ⟨entry, hentry, rfl⟩ := List.mem_map.mp hkey
  obtain ⟨other, hother⟩ := h entry hentry
  exact List.mem_map.mpr ⟨_, hother, rfl⟩

/-- If one of two maps of the same size has its keys in the other, they have the same keys. -/
theorem keys_subset {α β : Type} {as : List (String × α)} {bs : List (String × β)}
    (ha : (as.map (·.1)).Nodup) (length : as.length = bs.length)
    (h : ∀ entry ∈ as, ∃ other, (entry.1, other) ∈ bs) :
    ∀ entry ∈ bs, ∃ other, (entry.1, other) ∈ as := by
  have hperm := (ha.subperm (map_fst_subset h)).perm_of_length_le (by simp [length])
  intro entry hentry
  have hkey : entry.1 ∈ as.map (·.1) := hperm.mem_iff.mpr (List.mem_map_of_mem hentry)
  obtain ⟨other, hother, heq⟩ := List.mem_map.mp hkey
  exact ⟨other.2, by rwa [← heq]⟩

theorem Equals.symm (ha : a.WellFormed numeral) (hb : b.WellFormed numeral) (h : Equals a b) :
    Equals b a := by
  induction ha generalizing b with
  | list _ ih =>
    cases h.parts with
    | list hparts =>
      cases hb with
      | list hb =>
      apply equals_list_iff.mpr
      apply List.Forall₂.flip
      apply forall₂_imp_of_mem hparts
      intro a ha b hb'
      exact ih a ha (hb b hb')
  | @map as distinct _ ih =>
    cases h.parts with
    | map _ bs =>
      cases hb with
      | map distinct' hb =>
      obtain ⟨length, hentries⟩ := (equals_map_iff distinct distinct').mp h
      refine (equals_map_iff distinct' distinct).mpr ⟨length.symm, ?_⟩
      intro entry hentry
      have hkeys := keys_subset distinct length
        fun entry hentry => (hentries entry hentry).imp fun _ h => h.1
      obtain ⟨other, hother⟩ := hkeys entry hentry
      obtain ⟨value, hvalue, hequals⟩ := hentries _ hother
      obtain rfl := Dictionary.eq_of_mem distinct' hvalue hentry
      exact ⟨other, hother, ih _ hother (hb entry hentry) hequals⟩
  | numberSet nonempty _ distinct =>
    cases h.parts with
    | numberSet hparts => exact equals_numberSet_iff.mpr hparts.symm
  | stringSet nonempty distinct =>
    cases h.parts with
    | stringSet hparts => exact equals_stringSet_iff.mpr fun a => (hparts a).symm
  | binarySet nonempty distinct =>
    cases h.parts with
    | binarySet hparts => exact equals_binarySet_iff.mpr fun a => (hparts a).symm
  | _ => cases h.parts; exact h

theorem Equals.trans (ha : a.WellFormed numeral) (hb : b.WellFormed numeral)
    (hc : c.WellFormed numeral) (h : Equals a b) (h' : Equals b c) : Equals a c := by
  induction ha generalizing b c with
  | list _ ih =>
    cases h.parts with
    | list hab =>
      cases h'.parts with
      | list hbc =>
        cases hb with
        | list hb =>
        cases hc with
        | list hc =>
        apply equals_list_iff.mpr
        apply forall₂_trans_of_mem hab hbc
        intro a ha b hb' c hc'
        exact ih a ha (hb b hb') (hc c hc')
  | map distinct _ ih =>
    cases h.parts with
    | map _ bs =>
      cases h'.parts with
      | map _ cs =>
        cases hb with
        | map distinctb hb =>
        cases hc with
        | map distinctc hc =>
        obtain ⟨length, hab⟩ := (equals_map_iff distinct distinctb).mp h
        obtain ⟨length', hbc⟩ := (equals_map_iff distinctb distinctc).mp h'
        refine (equals_map_iff distinct distinctc).mpr ⟨length.trans length', ?_⟩
        intro entry hentry
        obtain ⟨b, hb', hab⟩ := hab entry hentry
        obtain ⟨c, hc', hbc⟩ := hbc _ hb'
        exact ⟨c, hc', ih entry hentry (hb _ hb') (hc _ hc') hab hbc⟩
  | numberSet nonempty _ distinct =>
    cases h.parts with
    | numberSet hab =>
      cases h'.parts with
      | numberSet hbc => exact equals_numberSet_iff.mpr (hab.trans hbc)
  | stringSet nonempty distinct =>
    cases h.parts with
    | stringSet hab =>
      cases h'.parts with
      | stringSet hbc => exact equals_stringSet_iff.mpr fun a => (hab a).trans (hbc a)
  | binarySet nonempty distinct =>
    cases h.parts with
    | binarySet hab =>
      cases h'.parts with
      | binarySet hbc => exact equals_binarySet_iff.mpr fun a => (hab a).trans (hbc a)
  | _ => cases h.parts; exact h'

end

end AttributeExpr.Value
