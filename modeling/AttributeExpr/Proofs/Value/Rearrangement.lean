import AttributeExpr.Proofs.Value.NumberSet
import Mathlib.Data.List.Perm.Basic
import Mathlib.Logic.Relation
/-!
Equality as rearrangement. Of values whose maps have no key twice and whose sets are sets of finite
numbers, of strings or of binaries, those are equal that can be turned into each other by changing
the order of entries and elements and by writing elements of number sets in another way.
-/
namespace AttributeExpr.Value

/-- The keys of maps differ, sets are sets, and the numbers in sets are finite. -/
inductive Regular : Value → Prop where
  | null : Regular null
  | bool (b : Bool) : Regular (bool b)
  | number (text : String) : Regular (number text)
  | string (text : String) : Regular (string text)
  | binary (bytes : Bytes) : Regular (binary bytes)
  | list {items : List Value} (h : ∀ item ∈ items, Regular item) : Regular (list items)
  | map {entries : List (String × Value)} (distinct : (entries.map (·.1)).Nodup)
      (h : ∀ entry ∈ entries, Regular entry.2) : Regular (map entries)
  | numberSet {elements : List String} (nonempty : elements ≠ []) (finite : FiniteTexts elements)
      (distinct : (elements.map rational?).Nodup) : Regular (numberSet elements)
  | stringSet {elements : List String} (nonempty : elements ≠ []) (distinct : elements.Nodup) :
      Regular (stringSet elements)
  | binarySet {elements : List Bytes} (nonempty : elements ≠ []) (distinct : elements.Nodup) :
      Regular (binarySet elements)

/-- One change to a value at any depth: entries or elements in another order, or an element of a
number set in another spelling of the same number. -/
inductive Rearranges : Value → Value → Prop where
  | entries {entries entries' : List (String × Value)} (h : entries.Perm entries') :
      Rearranges (map entries) (map entries')
  | numbers {elements elements' : List String} (h : elements.Perm elements') :
      Rearranges (numberSet elements) (numberSet elements')
  | strings {elements elements' : List String} (h : elements.Perm elements') :
      Rearranges (stringSet elements) (stringSet elements')
  | binaries {elements elements' : List Bytes} (h : elements.Perm elements') :
      Rearranges (binarySet elements) (binarySet elements')
  | respelling {before after : List String} {text text' : String} {x : ℚ} (h : Denotes text x)
      (h' : Denotes text' x) :
      Rearranges (numberSet (before ++ text :: after)) (numberSet (before ++ text' :: after))
  | item {before after : List Value} {item item' : Value} (h : Rearranges item item') :
      Rearranges (list (before ++ item :: after)) (list (before ++ item' :: after))
  | entry {before after : List (String × Value)} {key : String} {value value' : Value}
      (h : Rearranges value value') :
      Rearranges (map (before ++ (key, value) :: after)) (map (before ++ (key, value') :: after))

/-- The second value can be obtained from the first by any number of such changes. -/
abbrev Rearranged : Value → Value → Prop := Relation.ReflTransGen Rearranges

theorem Regular.sound {value : Value} (h : value.Regular) : value.Sound := by
  induction h with
  | null => exact .null
  | bool b => exact .bool b
  | number => exact .number trivial
  | string text => exact .string text
  | binary bytes => exact .binary bytes
  | list _ ih => exact .list ih
  | map distinct _ ih => exact .map distinct ih
  | numberSet nonempty finite distinct =>
    exact .numberSet nonempty (fun _ _ => trivial) ((distinctNumbers_iff finite).mpr distinct)
  | stringSet nonempty distinct => exact .stringSet nonempty distinct
  | binarySet nonempty distinct => exact .binarySet nonempty distinct

theorem Regular.equals_self {value : Value} (h : value.Regular) : Equals value value := by
  induction h with
  | list _ ih => exact equals_list_iff.mpr (List.forall₂_same.mpr ih)
  | map distinct _ ih =>
    exact (equals_map_iff distinct distinct).mpr
      ⟨rfl, fun entry hentry => ⟨entry.2, hentry, ih entry hentry⟩⟩
  | numberSet _ finite =>
    exact equals_numberSet_iff.mpr ((sameNumbers_iff finite finite).mpr fun _ => Iff.rfl)
  | stringSet => exact equals_stringSet_iff.mpr fun _ => Iff.rfl
  | binarySet => exact equals_binarySet_iff.mpr fun _ => Iff.rfl
  | null | bool | number | string | binary => simp [Equals, equal]

/-! Comparison has an answer. -/

theorem exists_allTrue {outcomes : List (Except Failure Bool)}
    (h : ∀ outcome ∈ outcomes, ∃ answer, outcome = .ok answer) :
    ∃ answer, allTrue outcomes = .ok answer := by
  induction outcomes with
  | nil => exact ⟨true, rfl⟩
  | cons outcome outcomes ih =>
    obtain ⟨⟨answer, rfl⟩, houtcomes⟩ := List.forall_mem_cons.mp h
    cases answer with
    | true => exact ih houtcomes
    | false => exact ⟨false, rfl⟩

theorem exists_equalItems {as bs : List Value}
    (h : ∀ a ∈ as, ∀ b ∈ bs, ∃ answer, equal a b = .ok answer) :
    ∃ answer, equalItems as bs = .ok answer := by
  induction as generalizing bs with
  | nil => cases bs <;> exact ⟨_, rfl⟩
  | cons a as ih =>
    cases bs with
    | nil => exact ⟨false, rfl⟩
    | cons b bs =>
      obtain ⟨answer, hanswer⟩ := h a List.mem_cons_self b List.mem_cons_self
      rw [equalItems, hanswer]
      cases answer with
      | true =>
        exact ih fun a' ha b' hb => h a' (List.mem_cons_of_mem _ ha) b' (List.mem_cons_of_mem _ hb)
      | false => exact ⟨false, rfl⟩

theorem exists_equalNumberSets {as bs : List String} (ha : DistinctNumbers as)
    (hb : DistinctNumbers bs) : ∃ answer, equalNumberSets as bs = .ok answer := by
  obtain ⟨numbers, hnumbers, -⟩ := ha
  obtain ⟨numbers', hnumbers', -⟩ := hb
  rw [equalNumberSets, (mapM_eq_ok_iff _ _ _).mpr hnumbers, (mapM_eq_ok_iff _ _ _).mpr hnumbers']
  exact ⟨_, rfl⟩

theorem exists_equalMaps {as bs : List (String × Value)} (distinct : (bs.map (·.1)).Nodup)
    (h : ∀ a ∈ as, ∀ b ∈ bs, ∃ answer, equal a.2 b.2 = .ok answer) :
    ∃ answer, equal (map as) (map bs) = .ok answer := by
  rw [equal]
  split_ifs
  · apply exists_allTrue
    intro outcome houtcome
    obtain ⟨entry, hentry, rfl⟩ := List.mem_map.mp houtcome
    have hentry := Dictionary.mem_of_mem_ofEntries _ hentry
    rw [equalEntries_eq_map, Dictionary.ofEntries_eq_self distinct] at hentry
    obtain ⟨a, ha, rfl⟩ := List.mem_map.mp hentry
    dsimp only
    split
    · next other hother => exact h a ha _ ((Dictionary.get?_eq_some_iff distinct).mp hother)
    · exact ⟨false, rfl⟩
  · exact ⟨false, rfl⟩

/-- Two sound values are either equal or not; their comparison does not fail. -/
theorem WellFormed.exists_equal {numeral : String → Prop} {a b : Value}
    (ha : a.WellFormed numeral) (hb : b.WellFormed numeral) : ∃ answer, equal a b = .ok answer := by
  induction ha generalizing b with
  | list _ ih =>
    cases hb with
    | list hb => exact exists_equalItems fun a ha b hb' => ih a ha (hb b hb')
    | _ => exact ⟨false, rfl⟩
  | map distinct _ ih =>
    cases hb with
    | map distinct' hb => exact exists_equalMaps distinct' fun a ha b hb' => ih a ha (hb b hb')
    | _ => exact ⟨false, rfl⟩
  | numberSet _ _ distinct =>
    cases hb with
    | numberSet _ _ distinct' => exact exists_equalNumberSets distinct distinct'
    | _ => exact ⟨false, rfl⟩
  | _ => cases hb <;> exact ⟨_, rfl⟩

/-! What one change keeps. -/

theorem ne_nil_of_perm {α : Type} {as bs : List α} (h : as.Perm bs) (nonempty : as ≠ []) :
    bs ≠ [] := by
  rintro rfl
  exact nonempty h.eq_nil

/-- What holds of the members of a list holds of them with one member replaced by a like one. -/
theorem forall_mem_replaced {α : Type} {p : α → Prop} {before after : List α} {a a' : α}
    (h : ∀ b ∈ before ++ a :: after, p b) (hp : p a → p a') : ∀ b ∈ before ++ a' :: after, p b := by
  rw [List.forall_mem_append, List.forall_mem_cons] at h ⊢
  exact ⟨h.1, hp h.2.1, h.2.2⟩

theorem map_rational?_respelled {before after : List String} {text text' : String} {x : ℚ}
    (h : Denotes text x) (h' : Denotes text' x) :
    (before ++ text :: after).map rational? = (before ++ text' :: after).map rational? := by
  have hsame : rational? text = rational? text' := h.trans h'.symm
  simp [hsame]

namespace Rearranges

variable {a b : Value}

theorem regular (h : Rearranges a b) (ha : a.Regular) : b.Regular := by
  induction h with
  | entries hperm =>
    cases ha with
    | map distinct h =>
      exact .map ((hperm.map _).nodup_iff.mp distinct) fun entry hentry =>
        h entry (hperm.mem_iff.mpr hentry)
  | numbers hperm =>
    cases ha with
    | numberSet nonempty finite distinct =>
      exact .numberSet (ne_nil_of_perm hperm nonempty)
        (fun text htext => finite text (hperm.mem_iff.mpr htext))
        ((hperm.map _).nodup_iff.mp distinct)
  | strings hperm =>
    cases ha with
    | stringSet nonempty distinct =>
      exact .stringSet (ne_nil_of_perm hperm nonempty) (hperm.nodup_iff.mp distinct)
  | binaries hperm =>
    cases ha with
    | binarySet nonempty distinct =>
      exact .binarySet (ne_nil_of_perm hperm nonempty) (hperm.nodup_iff.mp distinct)
  | @respelling _ _ _ _ x hx hx' =>
    cases ha with
    | numberSet nonempty finite distinct =>
      exact .numberSet (by simp) (forall_mem_replaced finite fun _ => ⟨x, hx'⟩)
        (map_rational?_respelled hx hx' ▸ distinct)
  | item _ ih =>
    cases ha with
    | list h => exact .list (forall_mem_replaced h ih)
  | entry _ ih =>
    cases ha with
    | map distinct h => exact .map (by simpa using distinct) (forall_mem_replaced h ih)

theorem equals (h : Rearranges a b) (ha : a.Regular) : Equals a b := by
  induction h with
  | entries hperm =>
    cases ha with
    | map distinct h =>
      refine (equals_map_iff distinct ((hperm.map _).nodup_iff.mp distinct)).mpr
        ⟨hperm.length_eq, fun entry hentry => ?_⟩
      exact ⟨entry.2, hperm.mem_iff.mp hentry, (h entry hentry).equals_self⟩
  | numbers hperm =>
    cases ha with
    | numberSet nonempty finite distinct =>
      have finite' : FiniteTexts _ := fun text htext => finite text (hperm.mem_iff.mpr htext)
      exact equals_numberSet_iff.mpr
        ((sameNumbers_iff finite finite').mpr fun _ => (hperm.map _).mem_iff)
  | strings hperm => exact equals_stringSet_iff.mpr fun _ => hperm.mem_iff
  | binaries hperm => exact equals_binarySet_iff.mpr fun _ => hperm.mem_iff
  | @respelling _ _ _ _ x hx hx' =>
    cases ha with
    | numberSet nonempty finite distinct =>
      have finite' : FiniteTexts _ := forall_mem_replaced finite fun _ => ⟨x, hx'⟩
      rw [equals_numberSet_iff, sameNumbers_iff finite finite', map_rational?_respelled hx hx']
      exact fun _ => Iff.rfl
  | item _ ih =>
    cases ha with
    | list h =>
      rw [List.forall_mem_append, List.forall_mem_cons] at h
      obtain ⟨hbefore, hitem, hafter⟩ := h
      apply equals_list_iff.mpr
      refine List.rel_append (List.forall₂_same.mpr fun item h => ?_)
        (.cons (ih hitem) (List.forall₂_same.mpr fun item h => ?_))
      · exact (hbefore item h).equals_self
      · exact (hafter item h).equals_self
  | @entry before after key value value' _ ih =>
    cases ha with
    | map distinct h =>
      refine (equals_map_iff distinct (by simpa using distinct)).mpr ⟨by simp, ?_⟩
      intro entry hentry
      rw [List.mem_append, List.mem_cons] at hentry
      rcases hentry with hmem | rfl | hmem
      · exact ⟨entry.2, by simp [hmem], (h entry (by simp [hmem])).equals_self⟩
      · exact ⟨value', by simp, ih (h (key, value) (by simp))⟩
      · exact ⟨entry.2, by simp [hmem], (h entry (by simp [hmem])).equals_self⟩

end Rearranges

/-- Any number of changes keeps what one change keeps. -/
theorem Rearranged.regular_equals {a b : Value} (h : Rearranged a b) (ha : a.Regular) :
    b.Regular ∧ Equals a b := by
  induction h with
  | refl => exact ⟨ha, ha.equals_self⟩
  | tail _ step ih =>
    obtain ⟨hb, hab⟩ := ih
    have hc := step.regular hb
    exact ⟨hc, hab.trans ha.sound hb.sound hc.sound (step.equals hb)⟩

/-! Equal values are rearranged into each other. -/

/-- The members of a list can be changed one after another. -/
theorem rearranged_of_forall₂ {α : Type} {make : List α → Value} {R : α → α → Prop}
    (change : ∀ before after a a', R a a' →
      Rearranged (make (before ++ a :: after)) (make (before ++ a' :: after)))
    {as bs : List α} (h : List.Forall₂ R as bs) :
    ∀ before, Rearranged (make (before ++ as)) (make (before ++ bs)) := by
  induction h with
  | nil => exact fun _ => .refl
  | @cons a b as bs hab _ ih =>
    -- The changed members move into the part that stays.
    intro before
    have hrest := ih (before ++ [b])
    rw [List.append_assoc, List.append_assoc] at hrest
    exact (change before as a b hab).trans hrest

/-- Members with the same keys as those of another list can be put into its order. -/
theorem exists_perm_of_keys {α κ : Type} (key : α → κ) {as bs : List α}
    (h : (as.map key).Perm (bs.map key)) :
    ∃ bs', bs'.Perm bs ∧ List.Forall₂ (fun a b => key a = key b) as bs' := by
  have hkeys : List.Forall₂ (fun k b => k = key b) (bs.map key) bs := by
    rw [List.forall₂_map_left_iff, List.forall₂_same]
    exact fun _ _ => rfl
  obtain ⟨bs', hforall, hbs⟩ := List.perm_comp_forall₂ h hkeys
  exact ⟨bs', hbs, List.forall₂_map_left_iff.mp hforall⟩

theorem rearranged_list {as bs : List Value} (h : List.Forall₂ Rearranged as bs) :
    Rearranged (list as) (list bs) :=
  rearranged_of_forall₂ (fun before after _ _ h =>
    h.lift (fun item => list (before ++ item :: after)) fun _ _ step => .item step) h []

theorem rearranged_map {as bs : List (String × Value)}
    (h : List.Forall₂ (fun a b => a.1 = b.1 ∧ Rearranged a.2 b.2) as bs) :
    Rearranged (map as) (map bs) := by
  refine rearranged_of_forall₂ ?_ h []
  rintro before after ⟨key, value⟩ ⟨key', value'⟩ ⟨rfl, h⟩
  exact h.lift (fun value => map (before ++ (key, value) :: after)) fun _ _ step => .entry step

/-- Elements that denote the same number can be respelled as each other. -/
theorem rearranged_respelled {as bs : List String} (ha : FiniteTexts as)
    (h : List.Forall₂ (fun a b => rational? a = rational? b) as bs) :
    Rearranged (numberSet as) (numberSet bs) := by
  refine rearranged_of_forall₂ (R := fun a b => ∃ x, Denotes a x ∧ Denotes b x) ?_ ?_ []
  · rintro before after a b ⟨x, hx, hx'⟩
    exact .single (.respelling hx hx')
  · apply forall₂_imp_of_mem h
    intro a hmem b _ hsame
    obtain ⟨x, hx⟩ := ha a hmem
    exact ⟨x, hx, hsame.symm.trans hx⟩

theorem rearranged_numberSet {as bs : List String} (ha : Regular (numberSet as))
    (hb : Regular (numberSet bs)) (h : SameNumbers as bs) :
    Rearranged (numberSet as) (numberSet bs) := by
  cases ha with
  | numberSet _ finite distinct =>
  cases hb with
  | numberSet _ finite' distinct' =>
  obtain ⟨bs', hperm, hrespelled⟩ := exists_perm_of_keys rational?
    ((List.perm_ext_iff_of_nodup distinct distinct').mpr ((sameNumbers_iff finite finite').mp h))
  exact (rearranged_respelled finite hrespelled).tail (.numbers hperm)

/-- Two equal maps have the same keys. -/
theorem keys_perm {as bs : List (String × Value)} (ha : (as.map (·.1)).Nodup)
    (hb : (bs.map (·.1)).Nodup) (h : Equals (map as) (map bs)) :
    (as.map (·.1)).Perm (bs.map (·.1)) := by
  obtain ⟨length, hentries⟩ := (equals_map_iff ha hb).mp h
  have hsub : as.map (·.1) ⊆ bs.map (·.1) :=
    map_fst_subset fun entry hentry => (hentries entry hentry).imp fun _ h => h.1
  exact (ha.subperm hsub).perm_of_length_le (by simp [length])

theorem rearranged_of_equals {a b : Value} (ha : a.Regular) (hb : b.Regular) (h : Equals a b) :
    Rearranged a b := by
  induction ha generalizing b with
  | list _ ih =>
    cases h.parts with
    | list hparts =>
      cases hb with
      | list hb =>
        exact rearranged_list (forall₂_imp_of_mem hparts fun a ha b hb' => ih a ha (hb b hb'))
  | @map as distinct _ ih =>
    cases h.parts with
    | map _ bs =>
      cases hb with
      | map distinct' hb =>
        -- Values are changed under their keys first, and the entries put in order last.
        obtain ⟨bs', hperm, hforall⟩ :=
          exists_perm_of_keys Prod.fst (keys_perm distinct distinct' h)
        obtain ⟨-, hentries⟩ := (equals_map_iff distinct distinct').mp h
        refine (rearranged_map (forall₂_imp_of_mem hforall ?_)).tail (.entries hperm)
        intro entry hentry entry' hentry' hkey
        have hmem := hperm.mem_iff.mp hentry'
        obtain ⟨other, hother, hequals⟩ := hentries entry hentry
        rw [hkey] at hother
        obtain rfl := Dictionary.eq_of_mem distinct' hother hmem
        exact ⟨hkey, ih entry hentry (hb _ hmem) hequals⟩
  | numberSet nonempty finite distinct =>
    cases h.parts with
    | numberSet hparts =>
      exact rearranged_numberSet (.numberSet nonempty finite distinct) hb hparts
  | stringSet nonempty distinct =>
    cases h.parts with
    | stringSet hparts =>
      cases hb with
      | stringSet _ distinct' =>
        exact .single (.strings ((List.perm_ext_iff_of_nodup distinct distinct').mpr hparts))
  | binarySet nonempty distinct =>
    cases h.parts with
    | binarySet hparts =>
      cases hb with
      | binarySet _ distinct' =>
        exact .single (.binaries ((List.perm_ext_iff_of_nodup distinct distinct').mpr hparts))
  | _ =>
    cases h.parts
    exact .refl

end AttributeExpr.Value
