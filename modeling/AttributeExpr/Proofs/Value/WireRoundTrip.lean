import AttributeExpr.Proofs.Value.Wire
/-!
Decoding what was encoded. If a map repeats a key, only the last of its entries gets into the
envelope, so the envelope is that of the value without the other ones. This value is sound, is what
the envelope is decoded as, and equals the encoded one. A sound value repeats no key, and comes back
as it was.
-/
namespace AttributeExpr.Value

variable {numeral : String → Prop} {value : Value}

mutual

/-- The value with the last entry only of each key that a map repeats, where the first one was. -/
def merged : Value → Value
  | list items => list (mergedItems items)
  | map entries => map (Dictionary.ofEntries (mergedEntries entries))
  | value => value

def mergedItems : List Value → List Value
  | [] => []
  | item :: rest => merged item :: mergedItems rest

def mergedEntries : List (String × Value) → List (String × Value)
  | [] => []
  | (key, value) :: rest => (key, merged value) :: mergedEntries rest

end

theorem mergedItems_eq_map (items : List Value) : mergedItems items = items.map merged := by
  induction items with
  | nil => rfl
  | cons item items ih => rw [mergedItems, ih, List.map_cons]

theorem mergedEntries_eq_map (entries : List (String × Value)) :
    mergedEntries entries = entries.map fun entry => (entry.1, entry.2.merged) := by
  induction entries with
  | nil => rfl
  | cons entry entries ih => rw [mergedEntries, ih, List.map_cons]

theorem mergedEntries_keys (entries : List (String × Value)) :
    (mergedEntries entries).map (·.1) = entries.map (·.1) := by
  simp [mergedEntries_eq_map, Function.comp_def]

/-- Where no map repeats a key, nothing is left out. -/
theorem WellFormed.merged_eq (h : value.WellFormed numeral) :
    value.merged = value := by
  induction h with
  | list _ ih => rw [merged, mergedItems_eq_map, List.map_congr_left ih, List.map_id']
  | map distinct _ ih =>
    rw [merged, Dictionary.ofEntries_eq_self (by rwa [mergedEntries_keys]), mergedEntries_eq_map]
    have hentries := List.map_congr_left fun entry hentry =>
      congrArg (Prod.mk entry.1) (ih entry hentry)
    rw [hentries, List.map_id']
  | _ => rfl

/-- Every set in the value has elements, no two of them equal. Maps may repeat a key. -/
inductive SetsSound : Value → Prop where
  | null : SetsSound null
  | bool (b : Bool) : SetsSound (bool b)
  | number (text : String) : SetsSound (number text)
  | string (text : String) : SetsSound (string text)
  | binary (bytes : Bytes) : SetsSound (binary bytes)
  | list {items : List Value} (h : ∀ item ∈ items, SetsSound item) : SetsSound (list items)
  | map {entries : List (String × Value)} (h : ∀ entry ∈ entries, SetsSound entry.2) :
      SetsSound (map entries)
  | numberSet {elements : List String} (nonempty : elements ≠ [])
      (distinct : DistinctNumbers elements) : SetsSound (numberSet elements)
  | stringSet {elements : List String} (nonempty : elements ≠ []) (distinct : elements.Nodup) :
      SetsSound (stringSet elements)
  | binarySet {elements : List Bytes} (nonempty : elements ≠ []) (distinct : elements.Nodup) :
      SetsSound (binarySet elements)

/-- A value is sound if its sets are and its maps repeat no key, which is what merging brings
about. -/
theorem SetsSound.merged_sound (h : value.SetsSound) : value.merged.Sound := by
  induction h with
  | null => exact .null
  | bool b => exact .bool b
  | number text => exact .number trivial
  | string text => exact .string text
  | binary bytes => exact .binary bytes
  | list _ ih =>
    rw [merged, mergedItems_eq_map]
    exact .list (List.forall_mem_map.mpr ih)
  | map _ ih =>
    refine .map (Dictionary.nodup_ofEntries _) ?_
    intro entry hentry
    have hmem := Dictionary.mem_of_mem_ofEntries entry hentry
    rw [mergedEntries_eq_map] at hmem
    obtain ⟨original, horiginal, rfl⟩ := List.mem_map.mp hmem
    exact ih original horiginal
  | numberSet nonempty distinct => exact .numberSet nonempty (fun _ _ => trivial) distinct
  | stringSet nonempty distinct => exact .stringSet nonempty distinct
  | binarySet nonempty distinct => exact .binarySet nonempty distinct

theorem WellFormed.setsSound (h : value.WellFormed numeral) : value.SetsSound := by
  induction h with
  | null => exact .null
  | bool b => exact .bool b
  | @number text _ => exact .number text
  | string text => exact .string text
  | binary bytes => exact .binary bytes
  | list _ ih => exact .list ih
  | map _ _ ih => exact .map ih
  | numberSet nonempty _ distinct => exact .numberSet nonempty distinct
  | stringSet nonempty distinct => exact .stringSet nonempty distinct
  | binarySet nonempty distinct => exact .binarySet nonempty distinct

mutual

/-- An entry that a later one replaces leaves no trace in the envelope. -/
theorem toWire_merged : ∀ {value : Value} {document : Json},
    toWire value = .ok document → toWire value.merged = .ok document
  | list _, _, h => by
    obtain ⟨documents, hdocuments, rfl⟩ := map_eq_ok_iff.mp h
    rw [merged, toWire, itemsToWire_merged hdocuments]
    rfl
  | map entries, _, h => by
    obtain ⟨members, hmembers, rfl⟩ := map_eq_ok_iff.mp h
    have hmerged := entriesToWire_eq_ok_iff.mp (entriesToWire_merged hmembers)
    have hentries := entriesToWire_eq_ok_iff.mpr (Dictionary.forall₂_ofEntries hmerged)
    rw [merged, toWire, hentries, Except.map,
      Dictionary.ofEntries_eq_self (Dictionary.nodup_ofEntries members)]
  | null, _, h | bool _, _, h | number _, _, h | string _, _, h | binary _, _, h => h
  | numberSet _, _, h | stringSet _, _, h | binarySet _, _, h => h

theorem itemsToWire_merged : ∀ {items : List Value} {documents : List Json},
    itemsToWire items = .ok documents → itemsToWire (mergedItems items) = .ok documents
  | [], _, h => h
  | item :: rest, _, h => by
    rw [itemsToWire] at h
    split at h
    · contradiction
    next document hdocument =>
    obtain ⟨documents, hdocuments, rfl⟩ := map_eq_ok_iff.mp h
    rw [mergedItems, itemsToWire, toWire_merged hdocument, itemsToWire_merged hdocuments]
    rfl

theorem entriesToWire_merged : ∀ {entries : List (String × Value)}
    {members : List (String × Json)},
    entriesToWire entries = .ok members → entriesToWire (mergedEntries entries) = .ok members
  | [], _, h => h
  | (key, value) :: rest, _, h => by
    rw [entriesToWire] at h
    split at h
    · contradiction
    next document hdocument =>
    obtain ⟨members, hmembers, rfl⟩ := map_eq_ok_iff.mp h
    rw [mergedEntries, entriesToWire, toWire_merged hdocument, entriesToWire_merged hmembers]
    rfl

end

/-- A map equals another one just if it equals the dictionary of its entries. -/
theorem equal_map_ofEntries (as bs : List (String × Value)) :
    equal (map as) (map (Dictionary.ofEntries bs)) = equal (map as) (map bs) := by
  rw [equal, equal, Dictionary.ofEntries_eq_self (Dictionary.nodup_ofEntries bs)]

/-- A value that can be encoded equals what it is merged to. -/
theorem SetsSound.equals_merged (h : value.SetsSound) {document : Json}
    (hd : toWire value = .ok document) : Equals value.merged value := by
  induction h generalizing document with
  | list _ ih =>
    obtain ⟨documents, hdocuments, -⟩ := map_eq_ok_iff.mp hd
    rw [itemsToWire_eq_ok_iff] at hdocuments
    rw [merged, mergedItems_eq_map, equals_list_iff, List.forall₂_map_left_iff,
      List.forall₂_same]
    intro item hitem
    obtain ⟨document, -, hdocument⟩ := exists_of_mem_forall₂ hdocuments hitem
    exact ih item hitem hdocument
  | @map entries _ ih =>
    obtain ⟨members, hmembers, -⟩ := map_eq_ok_iff.mp hd
    rw [entriesToWire_eq_ok_iff] at hmembers
    have hentries : List.Forall₂ (Dictionary.Corresponds fun a b => Equals a b)
        (mergedEntries entries) entries := by
      rw [mergedEntries_eq_map, List.forall₂_map_left_iff, List.forall₂_same]
      intro entry hentry
      obtain ⟨member, -, hmember⟩ := exists_of_mem_forall₂ hmembers hentry
      exact ⟨rfl, ih entry hentry hmember.2⟩
    have hdictionary := Dictionary.forall₂_ofEntries hentries
    rw [Equals, merged, ← equal_map_ofEntries]
    refine (equals_map_iff (Dictionary.nodup_ofEntries _) (Dictionary.nodup_ofEntries _)).mpr
      ⟨hdictionary.length_eq, ?_⟩
    intro entry hentry
    obtain ⟨⟨key, other⟩, hother, rfl, hequals⟩ := exists_of_mem_forall₂ hdictionary hentry
    exact ⟨other, hother, hequals⟩
  | numberSet _ distinct =>
    obtain ⟨_, hnumbers, -⟩ := map_eq_ok_iff.mp hd
    exact equals_numberSet_iff.mpr (sameNumbers_self hnumbers distinct)
  | stringSet => exact equals_stringSet_iff.mpr fun _ => Iff.rfl
  | binarySet => exact equals_binarySet_iff.mpr fun _ => Iff.rfl
  | null | bool | number | string | binary => simp [merged, Equals, equal]

/-- A value that can be encoded equals itself. -/
theorem WellFormed.equals_self (h : value.WellFormed numeral) {document : Json}
    (hd : toWire value = .ok document) : Equals value value := by
  have hequals := h.setsSound.equals_merged hd
  rwa [h.merged_eq] at hequals

/-- What was encoded is decoded as a value that equals it and is encoded alike: as the value
itself, but for entries whose key the map repeats later. -/
theorem ofWire_toWire (sets : value.SetsSound) {document : Json}
    (h : toWire value = .ok document) :
    ofWire document = .ok value.merged ∧
      equal value.merged value = .ok true ∧
      toWire value.merged = .ok document ∧
      (value.Sound → ofWire document = .ok value) := by
  have hmerged := toWire_merged h
  have hdecoded := (sets.merged_sound.decodesTo hmerged).ofWire
  refine ⟨hdecoded, sets.equals_merged h, hmerged, ?_⟩
  intro sound
  rwa [sound.merged_eq] at hdecoded

theorem ofWire_toWire_repeated :
    let sound := map [("n", numberSet ["1.0", "-2"]), ("b", binary [1, 255])]
    let document := envelope .map (.object
      [("n", envelope .numberSet (.array [.string "1.0", .string "-2"])),
        ("b", envelope .binary (.string "Af8="))])
    let repeating := map [("k", string "old"), ("m", sound), ("k", null)]
    let document' := envelope .map (.object
      [("k", envelope .null (.bool true)), ("m", document)])
    let decoded := map [("k", null), ("m", sound)]
    (toWire sound = .ok document ∧ ofWire document = .ok sound) ∧
      toWire repeating = .ok document' ∧ ofWire document' = .ok decoded ∧
      equal decoded repeating = .ok true ∧ toWire decoded = .ok document' := by
  intro sound document repeating document' decoded
  have distinct : DistinctNumbers ["1.0", "-2"] := checkNumbers_nil_iff.mp rfl
  have numbers : checkNumbers ["1.0", "-2"] = .ok () := by decide +kernel
  have hsound : sound.Sound := by
    refine .map (by decide) ?_
    simp [WellFormed.numberSet _ _ distinct, WellFormed.binary]
  have hrepeating : repeating.SetsSound :=
    .map (by simp [SetsSound.string, SetsSound.null, hsound.setsSound])
  have hdocument : toWire sound = .ok document := by
    simp only [sound, toWire, entriesToWire, numbers, Except.map]
    rfl
  have hdocument' : toWire repeating = .ok document' := by
    simp only [repeating, toWire, entriesToWire, hdocument, Except.map]
    rfl
  have hmerged : repeating.merged = decoded := by
    simp only [repeating, merged, mergedEntries, hsound.merged_eq]
    rfl
  obtain ⟨hdecoded, hequals, hagain, -⟩ := ofWire_toWire hrepeating hdocument'
  rw [hmerged] at hdecoded hequals hagain
  exact ⟨⟨hdocument, (ofWire_toWire hsound.setsSound hdocument).2.2.2 hsound⟩,
    hdocument', hdecoded, hequals, hagain⟩

end AttributeExpr.Value
