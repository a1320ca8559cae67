import AttributeExpr.Proofs.Provenance
import AttributeExpr.Proofs.Value.Failure
import AttributeExpr.Proofs.Value.NumberSet
/-!
Sets in place of lists. Where all numbers can be read as finite ones, the rewriting of lists into
sets cannot fail. It turns into a set just what could be given as one, all in the order in which it
stands. What it gives holds no list that could still become a set, and turned back into lists it is
what it was before.
-/
namespace AttributeExpr

namespace Value

mutual

/-- The value with each of its sets as the list of its elements. -/
def listed : Value → Value
  | list items => list (listedItems items)
  | map entries => map (listedEntries entries)
  | numberSet elements => list (elements.map number)
  | stringSet elements => list (elements.map string)
  | binarySet elements => list (elements.map binary)
  | value => value

def listedItems : List Value → List Value
  | [] => []
  | item :: rest => listed item :: listedItems rest

def listedEntries : List (String × Value) → List (String × Value)
  | [] => []
  | (key, value) :: rest => (key, listed value) :: listedEntries rest

end

mutual

/-- The items of each list in a value, at any depth. -/
def lists : Value → List (List Value)
  | list items => items :: listsOfItems items
  | map entries => listsOfEntries entries
  | _ => []

def listsOfItems : List Value → List (List Value)
  | [] => []
  | item :: rest => lists item ++ listsOfItems rest

def listsOfEntries : List (String × Value) → List (List Value)
  | [] => []
  | (_, value) :: rest => lists value ++ listsOfEntries rest

end

theorem listedItems_eq (items : List Value) : listedItems items = items.map listed := by
  induction items with
  | nil => rfl
  | cons item items ih => rw [listedItems, ih, List.map_cons]

theorem listedEntries_eq (entries : List (String × Value)) :
    listedEntries entries = entries.map fun entry => (entry.1, entry.2.listed) := by
  induction entries with
  | nil => rfl
  | cons entry entries ih => rw [listedEntries, ih, List.map_cons]

theorem listsOfItems_eq (items : List Value) : listsOfItems items = items.flatMap lists := by
  induction items with
  | nil => rfl
  | cons item items ih => rw [listsOfItems, ih, List.flatMap_cons]

theorem listsOfEntries_eq (entries : List (String × Value)) :
    listsOfEntries entries = entries.flatMap fun entry => entry.2.lists := by
  induction entries with
  | nil => rfl
  | cons entry entries ih => rw [listsOfEntries, ih, List.flatMap_cons]

/-- The second value is the first with a set for each list whose items can be the elements of one.
The items of other lists and the values of maps are rewritten in their places, and nothing else is
changed. -/
inductive Inferred : Value → Value → Prop where
  | set {items : List Value} {set : Value} (nonempty : items ≠ [])
      (accepted : setOf items = .ok set) (order : set.listed = list items) :
      Inferred (list items) set
  | list (parts : List (Value × Value)) (refused : ∀ set, setOf (parts.map (·.1)) ≠ .ok set)
      (h : ∀ part ∈ parts, Inferred part.1 part.2) :
      Inferred (list (parts.map (·.1))) (list (parts.map (·.2)))
  | map (parts : List ((String × Value) × String × Value))
      (keys : ∀ part ∈ parts, part.1.1 = part.2.1)
      (h : ∀ part ∈ parts, Inferred part.1.2 part.2.2) :
      Inferred (map (parts.map (·.1))) (map (parts.map (·.2)))
  | kept {value : Value} (noList : value.type ≠ .list) (noMap : value.type ≠ .map) :
      Inferred value value

/-- All numbers in the value are finite. -/
def Finite (value : Value) : Prop := FiniteTexts value.numbers

theorem finite_list {items : List Value} : (list items).Finite ↔ ∀ item ∈ items, item.Finite := by
  simp only [Finite, FiniteTexts, numbers, numbersOfItems_eq, List.mem_flatMap]
  grind

theorem finite_map {entries : List (String × Value)} :
    (map entries).Finite ↔ ∀ entry ∈ entries, entry.2.Finite := by
  simp only [Finite, FiniteTexts, numbers, numbersOfEntries_eq, List.mem_flatMap]
  constructor
  · exact fun h entry hentry text htext => h text ⟨entry, hentry, htext⟩
  · rintro h text ⟨entry, hentry, htext⟩
    exact h entry hentry text htext

/-! The test for sets and the constructor of sets. -/

/-- Finite numbers can be compared, and the test for repetitions decides what the constructor
asks for. -/
theorem distinctNumbers_eq {texts : List String} (h : FiniteTexts texts) :
    ∃ answer, distinctNumbers texts = .ok answer ∧ (answer = true ↔ DistinctNumbers texts) := by
  obtain ⟨numbers, hnumbers⟩ := h.exists_comparedAs
  have hquiet : numbers.any (·.isSignaling) = false := by
    rw [List.any_eq_false]
    intro d hd
    obtain ⟨x, hx⟩ := hnumbers.exists_toRat? d hd
    cases d <;> first | contradiction | exact Bool.false_ne_true
  refine ⟨numbers.Pairwise fun a b => !a.sameValue b, ?_, ?_⟩
  · refine bind_eq_ok_iff.mpr ⟨numbers, (mapM_eq_ok_iff _ _ _).mpr ?_, ?_⟩
    · exact hnumbers.imp fun text d hd => by rw [read?_of_comparable hd.1]
    · simp [pure, Except.pure, hquiet]
  · simp only [hnumbers.distinctNumbers_iff, decide_eq_true_eq, Bool.not_eq_true']

theorem exists_ofNumbers_iff {elements : List String} :
    (∃ set, ofNumbers elements = .ok set) ↔ DistinctNumbers elements := by
  simp [ofNumbers_eq_ok_iff]

theorem exists_ofStrings_iff {elements : List String} :
    (∃ set, ofStrings elements = .ok set) ↔ elements.Nodup := by
  simp [ofStrings_eq_ok_iff]

theorem exists_ofBinaries_iff {elements : List Bytes} :
    (∃ set, ofBinaries elements = .ok set) ↔ elements.Nodup := by
  simp [ofBinaries_eq_ok_iff]

theorem isNone_firstRepeat?_iff {α : Type} [DecidableEq α] (elements : List α) :
    (firstRepeat? [] elements).isNone = true ↔ elements.Nodup := by
  simp [firstRepeat?_eq_none_iff]

/-- The test for lists that could be sets accepts just what the constructor of sets accepts. -/
theorem isSetLike_eq {items : List Value} (h : (list items).Finite) :
    ∃ answer, isSetLike items = .ok answer ∧ (answer = true ↔ ∃ set, setOf items = .ok set) := by
  have hnumbers : FiniteTexts (items.filterMap numberText?) := by
    intro text htext
    exact finite_list.mp h _ (mem_of_mem_numberTexts htext) text List.mem_cons_self
  cases items with
  | nil => exact ⟨false, rfl, by simp [setOf, refuse]⟩
  | cons first rest =>
    unfold isSetLike setOf
    dsimp only
    by_cases hscalar : first.type.isScalar = true
    · cases hfind : (first :: rest).find? (·.type ≠ first.type) with
      | some other =>
        have hother := List.find?_some hfind
        have hmixed : (first :: rest).any (·.type ≠ first.type) = true :=
          List.any_eq_true.mpr ⟨other, List.mem_of_find?_eq_some hfind, hother⟩
        exact ⟨false, by rw [hmixed, Bool.or_true]; rfl, by simp [hscalar, refuse]⟩
      | none =>
        have huniform : (first :: rest).any (·.type ≠ first.type) = false :=
          List.any_eq_false.mpr (List.find?_eq_none.mp hfind)
        rw [huniform, hscalar]
        cases first with
        | number text =>
          obtain ⟨answer, hanswer, hiff⟩ := distinctNumbers_eq hnumbers
          exact ⟨answer, hanswer, hiff.trans exists_ofNumbers_iff.symm⟩
        | string text =>
          exact ⟨_, rfl, (isNone_firstRepeat?_iff _).trans exists_ofStrings_iff.symm⟩
        | binary bytes =>
          exact ⟨_, rfl, (isNone_firstRepeat?_iff _).trans exists_ofBinaries_iff.symm⟩
        | _ => contradiction
    · exact ⟨false, by simp [hscalar], by simp [hscalar, refuse]⟩

/-! The rewriting follows the rules. -/

theorem listed_of_isSetOf {items : List Value} {set : Value} (h : IsSetOf items set) :
    set.listed = list items := by
  cases h <;> rfl

theorem inferSets_leaf {value : Value} (noList : value.type ≠ .list) (noMap : value.type ≠ .map) :
    inferSets value = .ok value := by
  cases value with
  | list | map => contradiction
  | _ => rfl

theorem inferSetsInItems_of_forall₂ {items items' : List Value}
    (h : List.Forall₂ (fun item item' => inferSets item = .ok item') items items') :
    inferSetsInItems items = .ok items' := by
  induction h with
  | nil => rfl
  | cons hitem _ ih => rw [inferSetsInItems, hitem, ih]; rfl

theorem inferSetsInEntries_of_forall₂ {entries entries' : List (String × Value)}
    (h : List.Forall₂ (fun entry entry' => entry.1 = entry'.1 ∧ inferSets entry.2 = .ok entry'.2)
      entries entries') : inferSetsInEntries entries = .ok entries' := by
  induction h with
  | nil => rfl
  | @cons entry entry' _ _ hentry _ ih =>
    obtain ⟨hkey, hvalue⟩ := hentry
    rw [inferSetsInEntries, hvalue, ih, hkey]
    rfl

/-- Nothing can fail where all numbers are finite. -/
theorem Finite.exists_inferSets {value : Value} (h : value.Finite) :
    ∃ inferred, inferSets value = .ok inferred := by
  induction value using partsInduction with
  | list items ih =>
    obtain ⟨answer, hanswer, hiff⟩ := isSetLike_eq h
    rw [inferSets, hanswer]
    cases answer with
    | true => exact hiff.mp rfl
    | false =>
      obtain ⟨items', hitems⟩ := exists_forall₂ fun item hitem =>
        ih item hitem (finite_list.mp h item hitem)
      exact ⟨list items', by rw [inferSetsInItems_of_forall₂ hitems]; rfl⟩
  | map entries ih =>
    have hexists : ∀ entry ∈ entries, ∃ entry' : String × Value,
        entry.1 = entry'.1 ∧ inferSets entry.2 = .ok entry'.2 := by
      intro entry hentry
      obtain ⟨value, hvalue⟩ := ih entry hentry (finite_map.mp h entry hentry)
      exact ⟨(entry.1, value), rfl, hvalue⟩
    obtain ⟨entries', hentries⟩ := exists_forall₂ hexists
    exact ⟨map entries', by rw [inferSets, inferSetsInEntries_of_forall₂ hentries]; rfl⟩
  | leaf value noList noMap => exact ⟨value, inferSets_leaf noList noMap⟩

theorem inferred_of_inferSets {value inferred : Value} (finite : value.Finite)
    (h : inferSets value = .ok inferred) : Inferred value inferred := by
  induction value using partsInduction generalizing inferred with
  | list items ih =>
    obtain ⟨answer, hanswer, hiff⟩ := isSetLike_eq finite
    rw [inferSets, hanswer] at h
    cases answer with
    | true =>
      have isSet := isSetOf_of_setOf h
      exact .set isSet.ne_nil h (listed_of_isSetOf isSet)
    | false =>
      have refused (set : Value) (hset : setOf items = .ok set) : False := by
        simpa using hiff.mpr ⟨set, hset⟩
      obtain ⟨items', hitems, rfl⟩ := map_eq_ok_iff.mp h
      obtain ⟨parts, rfl, rfl, hparts⟩ := exists_parts_of_forall₂ (inferSetsInItems_eq_ok hitems)
      refine .list parts refused fun part hpart => ?_
      have hmem : part.1 ∈ parts.map (·.1) := List.mem_map_of_mem hpart
      exact ih part.1 hmem (finite_list.mp finite _ hmem) (hparts part hpart)
  | map entries ih =>
    rw [inferSets] at h
    obtain ⟨entries', hentries, rfl⟩ := map_eq_ok_iff.mp h
    obtain ⟨parts, rfl, rfl, hparts⟩ := exists_parts_of_forall₂ (inferSetsInEntries_eq_ok hentries)
    refine .map parts (fun part hpart => (hparts part hpart).1) fun part hpart => ?_
    have hmem : part.1 ∈ parts.map (·.1) := List.mem_map_of_mem hpart
    exact ih part.1 hmem (finite_map.mp finite _ hmem) (hparts part hpart).2
  | leaf value noList noMap =>
    obtain rfl := Except.ok.inj ((inferSets_leaf noList noMap).symm.trans h)
    exact .kept noList noMap

section

variable {value inferred : Value} (h : Inferred value inferred)

include h

theorem Inferred.inferSets_eq (finite : value.Finite) : inferSets value = .ok inferred := by
  induction h with
  | @set items set nonempty accepted order =>
    obtain ⟨answer, hanswer, hiff⟩ := isSetLike_eq finite
    obtain rfl := hiff.mpr ⟨set, accepted⟩
    rw [inferSets, hanswer]
    exact accepted
  | list parts refused _ ih =>
    obtain ⟨answer, hanswer, hiff⟩ := isSetLike_eq finite
    cases answer with
    | true =>
      obtain ⟨set, hset⟩ := hiff.mp rfl
      exact absurd hset (refused set)
    | false =>
      have hitems : List.Forall₂ (fun item item' => inferSets item = .ok item')
          (parts.map (·.1)) (parts.map (·.2)) := by
        rw [List.forall₂_map_left_iff, List.forall₂_map_right_iff, List.forall₂_same]
        exact fun part hpart =>
          ih part hpart (finite_list.mp finite _ (List.mem_map_of_mem hpart))
      rw [inferSets, hanswer, inferSetsInItems_of_forall₂ hitems]
      rfl
  | map parts keys _ ih =>
    have hentries : List.Forall₂ (fun entry entry' => entry.1 = entry'.1 ∧
        inferSets entry.2 = .ok entry'.2) (parts.map (·.1)) (parts.map (·.2)) := by
      rw [List.forall₂_map_left_iff, List.forall₂_map_right_iff, List.forall₂_same]
      exact fun part hpart => ⟨keys part hpart,
        ih part hpart (finite_map.mp finite _ (List.mem_map_of_mem hpart))⟩
    rw [inferSets, inferSetsInEntries_of_forall₂ hentries]
    rfl
  | kept noList noMap => exact inferSets_leaf noList noMap

/-- A scalar is what it was before. -/
theorem Inferred.eq_of_isScalar (scalar : inferred.IsScalar) : value = inferred := by
  cases h with
  | set _ accepted => cases isSetOf_of_setOf accepted <;> contradiction
  | list | map => contradiction
  | kept => rfl

end

theorem IsSetOf.isScalar {items : List Value} {set : Value} (h : IsSetOf items set) :
    ∀ item ∈ items, item.IsScalar := by
  cases h with
  | numbers | strings | binaries =>
    intro item hitem
    obtain ⟨element, -, rfl⟩ := List.mem_map.mp hitem
    rfl

/-- No set comes up by the rewriting of the items of a list. -/
theorem setOf_rewritten {parts : List (Value × Value)}
    (h : ∀ part ∈ parts, Inferred part.1 part.2) {set : Value}
    (hset : setOf (parts.map (·.2)) = .ok set) : setOf (parts.map (·.1)) = .ok set := by
  have scalar := (isSetOf_of_setOf hset).isScalar
  have hsame : parts.map (·.1) = parts.map (·.2) :=
    List.map_congr_left fun part hpart =>
      (h part hpart).eq_of_isScalar (scalar _ (List.mem_map_of_mem hpart))
  rw [hsame, hset]

theorem IsSetOf.lists_eq {items : List Value} {set : Value} (h : IsSetOf items set) :
    set.lists = [] := by
  cases h <;> rfl

/-- No list that is left, or that is rewritten, could be a set. -/
theorem Inferred.refused {value inferred : Value} (h : Inferred value inferred) :
    ∀ items ∈ inferred.lists, ∀ set, setOf items ≠ .ok set := by
  induction h with
  | set _ accepted =>
    rw [(isSetOf_of_setOf accepted).lists_eq]
    exact List.forall_mem_nil _
  | list parts refused h ih =>
    simp only [lists, listsOfItems_eq, List.mem_cons, List.mem_flatMap, List.mem_map]
    rintro items (rfl | ⟨_, ⟨part, hpart, rfl⟩, hitems⟩)
    · exact fun set hset => refused set (setOf_rewritten h hset)
    · exact ih part hpart items hitems
  | map parts keys _ ih =>
    simp only [lists, listsOfEntries_eq, List.mem_flatMap, List.mem_map]
    rintro items ⟨_, ⟨part, hpart, rfl⟩, hitems⟩
    exact ih part hpart items hitems
  | @kept value noList noMap =>
    cases value with
    | list | map => contradiction
    | _ => exact List.forall_mem_nil _

theorem IsSetOf.numbers_eq {items : List Value} {set : Value} (h : IsSetOf items set) :
    set.numbers = (list items).numbers := by
  cases h <;> simp [Value.numbers, numbersOfItems_eq, List.flatMap_map]

theorem Inferred.numbers_eq {value inferred : Value} (h : Inferred value inferred) :
    inferred.numbers = value.numbers := by
  induction h with
  | set _ accepted => exact (isSetOf_of_setOf accepted).numbers_eq
  | list parts _ _ ih =>
    simp only [numbers, numbersOfItems_eq, List.flatMap_map]
    exact List.flatMap_congr ih
  | map parts _ _ ih =>
    simp only [numbers, numbersOfEntries_eq, List.flatMap_map]
    exact List.flatMap_congr ih
  | kept => rfl

/-- A value is left as it is if none of its lists could be a set. -/
theorem Finite.inferSets_of_refused {value : Value} (finite : value.Finite)
    (refused : ∀ items ∈ value.lists, ∀ set, setOf items ≠ .ok set) :
    inferSets value = .ok value := by
  induction value using partsInduction with
  | list items ih =>
    simp only [lists, listsOfItems_eq, List.forall_mem_cons, List.mem_flatMap] at refused
    obtain ⟨answer, hanswer, hiff⟩ := isSetLike_eq finite
    cases answer with
    | true =>
      obtain ⟨set, hset⟩ := hiff.mp rfl
      exact absurd hset (refused.1 set)
    | false =>
      have hitems : List.Forall₂ (fun item item' => inferSets item = .ok item') items items := by
        rw [List.forall₂_same]
        exact fun item hitem => ih item hitem (finite_list.mp finite item hitem)
          fun inner hinner => refused.2 inner ⟨item, hitem, hinner⟩
      rw [inferSets, hanswer, inferSetsInItems_of_forall₂ hitems]
      rfl
  | map entries ih =>
    simp only [lists, listsOfEntries_eq, List.mem_flatMap] at refused
    have hentries : List.Forall₂ (fun entry entry' => entry.1 = entry'.1 ∧
        inferSets entry.2 = .ok entry'.2) entries entries := by
      rw [List.forall₂_same]
      exact fun entry hentry => ⟨rfl, ih entry hentry (finite_map.mp finite entry hentry)
        fun inner hinner => refused inner ⟨entry, hentry, hinner⟩⟩
    rw [inferSets, inferSetsInEntries_of_forall₂ hentries]
    rfl
  | leaf value noList noMap => exact inferSets_leaf noList noMap

theorem IsScalar.listed_eq {value : Value} (h : value.IsScalar) : value.listed = value := by
  cases value with
  | number | string | binary => rfl
  | _ => contradiction

/-- What has become sets is the same when all sets are lists again. -/
theorem Inferred.listed_eq {value inferred : Value} (h : Inferred value inferred) :
    inferred.listed = value.listed := by
  induction h with
  | @set items set _ accepted order =>
    have scalar := (isSetOf_of_setOf accepted).isScalar
    have hsame : items.map listed = items.map id :=
      List.map_congr_left fun item hitem => (scalar item hitem).listed_eq
    rw [order, listed, listedItems_eq, hsame, List.map_id]
  | list parts _ _ ih =>
    simp only [listed, listedItems_eq, List.map_map]
    exact congrArg _ (List.map_congr_left ih)
  | map parts keys _ ih =>
    simp only [listed, listedEntries_eq, List.map_map]
    exact congrArg _ (List.map_congr_left fun part hpart =>
      Prod.ext (keys part hpart).symm (ih part hpart))
  | kept => rfl

/-- Turning lists into sets is complete, loses nothing and is done after one time. Where all numbers
are finite it cannot fail. A list becomes the set of its items, in their order, just where they can
be the elements of one; the items of other lists and the values of maps are rewritten in the same
way, and all the rest is kept. No list that could be a set is left, a second time changes nothing,
and with every set as the list of its elements nothing has changed at all. -/
theorem inferSets_lossless {value : Value} (finite : ∀ text ∈ value.numbers, ∃ x, Denotes text x) :
    (∀ inferred, inferSets value = .ok inferred ↔ Inferred value inferred) ∧
      ∃ inferred, inferSets value = .ok inferred ∧
        (∀ items ∈ inferred.lists, ∀ set, setOf items ≠ .ok set) ∧
        inferSets inferred = .ok inferred ∧ inferred.listed = value.listed := by
  obtain ⟨inferred, hinferred⟩ := Finite.exists_inferSets finite
  have h := inferred_of_inferSets finite hinferred
  have finite' : inferred.Finite := by
    rw [Finite, h.numbers_eq]
    exact finite
  refine ⟨fun other => ⟨inferred_of_inferSets finite, fun h => h.inferSets_eq finite⟩, inferred,
    hinferred, h.refused, finite'.inferSets_of_refused h.refused, h.listed_eq⟩

/-- Two spellings of zero are no set, two different numbers are one. -/
theorem inferSets_lossless_nested :
    let zeros := map [("k", list [number "0", number "-0.0"])]
    let value := list [list [number "7", number "-2"], zeros]
    let inferred := list [numberSet ["7", "-2"], zeros]
    (∀ text ∈ value.numbers, ∃ x, Denotes text x) ∧ Inferred value inferred ∧
      inferSets inferred = .ok inferred ∧ inferred.listed = value.listed := by
  intro zeros value inferred
  have denotes {text : String} {negative : Bool} {coefficient : Nat} {exponent : ℤ}
      (h : Decimal.read? text = some (.finite negative coefficient exponent)) :
      ∃ x, Denotes text x := ⟨_, by rw [Denotes, h]; rfl⟩
  have finite : ∀ text ∈ value.numbers, ∃ x, Denotes text x := by
    have hnumbers : value.numbers = ["7", "-2", "0", "-0.0"] := rfl
    simp only [hnumbers, List.forall_mem_cons]
    exact ⟨denotes rfl, denotes rfl, denotes rfl, denotes rfl, List.forall_mem_nil _⟩
  have hinfer : inferSets value = .ok inferred := rfl
  obtain ⟨hiff, other, hother, -, again, hlisted⟩ := inferSets_lossless finite
  obtain rfl := Except.ok.inj (hinfer.symm.trans hother)
  exact ⟨finite, (hiff _).mp hinfer, again, hlisted⟩

end Value

end AttributeExpr
