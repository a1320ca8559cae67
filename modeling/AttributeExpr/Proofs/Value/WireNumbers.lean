import AttributeExpr.Proofs.Value.Magnitude
import AttributeExpr.Proofs.Value.WireRoundTrip
/-!
The numbers that get into an envelope. A value is encoded exactly if each of its numbers can be
stored, also one whose entry a later one replaces, and it is refused for the first that cannot. An
envelope holds nothing under the tags of numbers but texts that have been checked.
-/
namespace AttributeExpr.Value

mutual

/-- What stands in an envelope as a number or as an element of a set of numbers, at any depth. -/
def numberPayloads : Json → List Json
  | .object [(tag, payload)] =>
    match AttributeType.ofTag? tag, payload with
    | some .number, payload => [payload]
    | some .numberSet, .array items => items
    | some .numberSet, payload => [payload]
    | some .list, .array items => numberPayloadsOfItems items
    | some .map, .object members => numberPayloadsOfMembers members
    | _, _ => []
  | _ => []

def numberPayloadsOfItems : List Json → List Json
  | [] => []
  | item :: rest => numberPayloads item ++ numberPayloadsOfItems rest

def numberPayloadsOfMembers : List (String × Json) → List Json
  | [] => []
  | (_, document) :: rest => numberPayloads document ++ numberPayloadsOfMembers rest

end

/-- The envelope holds the numbers of the value as its numbers. -/
def HoldsNumbersOf (value : Value) (document : Json) : Prop :=
  numberPayloads document = value.numbers.map .string

theorem holdsNumbersOf_list {items : List Value} {documents : List Json}
    (h : List.Forall₂ HoldsNumbersOf items documents) :
    HoldsNumbersOf (list items) (envelope .list (.array documents)) := by
  show numberPayloadsOfItems documents = (numbersOfItems items).map .string
  induction h with
  | nil => rfl
  | cons hitem _ ih => rw [numberPayloadsOfItems, numbersOfItems, List.map_append, hitem, ih]

theorem holdsNumbersOf_map {entries : List (String × Value)} {members : List (String × Json)}
    (h : List.Forall₂ (Dictionary.Corresponds HoldsNumbersOf) entries members) :
    HoldsNumbersOf (map entries) (envelope .map (.object members)) := by
  show numberPayloadsOfMembers members = (numbersOfEntries entries).map .string
  induction h with
  | nil => rfl
  | cons hentry _ ih =>
    rw [numberPayloadsOfMembers, numbersOfEntries, List.map_append, hentry.2, ih]

mutual

/-- The numbers of an envelope are those of the value, without the entries that are replaced. -/
theorem holdsNumbersOf_merged : ∀ {value : Value} {document : Json},
    toWire value = .ok document → HoldsNumbersOf value.merged document
  | list _, _, h => by
    obtain ⟨documents, hdocuments, rfl⟩ := map_eq_ok_iff.mp h
    exact holdsNumbersOf_list (holdsNumbersOf_mergedItems hdocuments)
  | map _, _, h => by
    obtain ⟨members, hmembers, rfl⟩ := map_eq_ok_iff.mp h
    exact holdsNumbersOf_map (Dictionary.forall₂_ofEntries (holdsNumbersOf_mergedEntries hmembers))
  | number text, _, h => by
    obtain ⟨_, -, rfl⟩ := map_eq_ok_iff.mp h
    rfl
  | numberSet elements, _, h => by
    obtain ⟨_, -, rfl⟩ := map_eq_ok_iff.mp h
    rfl
  | null, _, h | bool _, _, h | string _, _, h | binary _, _, h | stringSet _, _, h
  | binarySet _, _, h => by
    obtain rfl := Except.ok.inj h
    rfl

theorem holdsNumbersOf_mergedItems : ∀ {items : List Value} {documents : List Json},
    itemsToWire items = .ok documents →
      List.Forall₂ HoldsNumbersOf (mergedItems items) documents
  | [], _, h => by
    obtain rfl := Except.ok.inj h
    exact .nil
  | item :: rest, _, h => by
    rw [itemsToWire] at h
    split at h
    · contradiction
    next document hdocument =>
    obtain ⟨documents, hdocuments, rfl⟩ := map_eq_ok_iff.mp h
    rw [mergedItems]
    exact .cons (holdsNumbersOf_merged hdocument) (holdsNumbersOf_mergedItems hdocuments)

theorem holdsNumbersOf_mergedEntries : ∀ {entries : List (String × Value)}
    {members : List (String × Json)}, entriesToWire entries = .ok members →
      List.Forall₂ (Dictionary.Corresponds HoldsNumbersOf) (mergedEntries entries) members
  | [], _, h => by
    obtain rfl := Except.ok.inj h
    exact .nil
  | (key, value) :: rest, _, h => by
    rw [entriesToWire] at h
    split at h
    · contradiction
    next document hdocument =>
    obtain ⟨members, hmembers, rfl⟩ := map_eq_ok_iff.mp h
    rw [mergedEntries]
    exact .cons ⟨rfl, holdsNumbersOf_merged hdocument⟩ (holdsNumbersOf_mergedEntries hmembers)

end

mutual

/-- Leaving entries out brings in no numbers. -/
theorem numbers_merged_subset : ∀ value : Value, value.merged.numbers ⊆ value.numbers
  | list items => numbers_mergedItems_subset items
  | map entries => by
    rw [merged, numbers, numbers]
    refine List.Subset.trans ?_ (numbers_mergedEntries_subset entries)
    simp only [numbersOfEntries_eq]
    intro text htext
    obtain ⟨entry, hentry, htext⟩ := List.mem_flatMap.mp htext
    exact List.mem_flatMap.mpr ⟨entry, Dictionary.mem_of_mem_ofEntries entry hentry, htext⟩
  | null | bool _ | number _ | string _ | binary _ | numberSet _ | stringSet _ | binarySet _ =>
    List.Subset.refl _

theorem numbers_mergedItems_subset : ∀ items : List Value,
    numbersOfItems (mergedItems items) ⊆ numbersOfItems items
  | [] => List.Subset.refl _
  | item :: rest => by
    rw [mergedItems, numbersOfItems, numbersOfItems]
    exact List.append_subset.mpr
      ⟨List.subset_append_of_subset_left _ (numbers_merged_subset item),
        List.subset_append_of_subset_right _ (numbers_mergedItems_subset rest)⟩

theorem numbers_mergedEntries_subset : ∀ entries : List (String × Value),
    numbersOfEntries (mergedEntries entries) ⊆ numbersOfEntries entries
  | [] => List.Subset.refl _
  | (_, value) :: rest => by
    rw [mergedEntries, numbersOfEntries, numbersOfEntries]
    exact List.append_subset.mpr
      ⟨List.subset_append_of_subset_left _ (numbers_merged_subset value),
        List.subset_append_of_subset_right _ (numbers_mergedEntries_subset rest)⟩

end

/-- The first text that is refused tells the outcome. -/
theorem checkNumbers_eq_error_iff {texts : List String} {error : TypingError} :
    checkNumbers texts = .error error ↔ ∃ before text after, texts = before ++ text :: after ∧
      (∀ other ∈ before, ∃ d, checkNumber other = .ok d) ∧ checkNumber text = .error error := by
  simp only [checkNumbers_eq_forM, forM_eq_error_iff, map_eq_ok_iff, map_eq_error_iff, and_true]

/-- A value is encoded exactly if each number in it can be stored. What its envelope then holds as
numbers are texts of the value. A value that is not encoded is refused for its first number that
cannot be stored. -/
theorem toWire_checks_numbers (value : Value) :
    ((∃ document, toWire value = .ok document) ↔
      ∀ text ∈ value.numbers, ∃ d, checkNumber text = .ok d) ∧
    (∀ document, toWire value = .ok document →
      ∀ payload ∈ numberPayloads document, ∃ text ∈ value.numbers, payload = .string text) ∧
    ∀ error, toWire value = .error error →
      ∃ before text after, value.numbers = before ++ text :: after ∧
        (∀ other ∈ before, ∃ d, checkNumber other = .ok d) ∧
        checkNumber text = .error error ∧ error.ReportsNumber text := by
  refine ⟨exists_toWire_iff, ?_, ?_⟩
  · intro document h payload hpayload
    rw [holdsNumbersOf_merged h] at hpayload
    obtain ⟨text, htext, rfl⟩ := List.mem_map.mp hpayload
    exact ⟨text, numbers_merged_subset value htext, rfl⟩
  · intro error h
    have hchecks : checkNumbers value.numbers = .error error := by
      rw [← map_toWire, map_eq_error_iff, h]
    obtain ⟨before, text, after, heq, hbefore, htext⟩ := checkNumbers_eq_error_iff.mp hchecks
    exact ⟨before, text, after, heq, hbefore, htext, checkNumber_failsOnly text error htext⟩

/-- Entries that are replaced: their numbers stay out of the envelope but are checked all the
same. -/
theorem toWire_checks_numbers_replaced :
    let value := map [("k", number "7"), ("l", list [numberSet ["1.0", "1"]]), ("k", number "-2")]
    let refused := map [("k", number "7"), ("k", numberSet ["1", "NaN"]), ("k", null)]
    (∃ document, toWire value = .ok document ∧
      ∀ payload ∈ numberPayloads document, ∃ text ∈ value.numbers, payload = .string text) ∧
    toWire refused = .error (.notNumber "NaN") ∧
      ∃ before text after, ["7", "1", "NaN"] = before ++ text :: after ∧
        (∀ other ∈ before, ∃ d, checkNumber other = .ok d) ∧
        checkNumber text = .error (.notNumber "NaN") ∧
        (TypingError.notNumber "NaN").ReportsNumber text := by
  intro value refused
  have hnumbers : checkNumbers value.numbers = .ok () := by decide +kernel
  obtain ⟨document, hdocument⟩ :=
    (toWire_checks_numbers value).1.mpr (checkNumbers_eq_ok_iff_forall.mp hnumbers)
  have hrefused : toWire refused = .error (.notNumber "NaN") := by
    have hchecks : checkNumbers refused.numbers = .error (.notNumber "NaN") := by decide +kernel
    rwa [← map_toWire, map_eq_error_iff] at hchecks
  exact ⟨⟨document, hdocument, (toWire_checks_numbers value).2.1 document hdocument⟩, hrefused,
    (toWire_checks_numbers refused).2.2 _ hrefused⟩

end AttributeExpr.Value
