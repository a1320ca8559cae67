import AttributeExpr.Proofs.Value.Set
/-!
Well-formed values. A map has no key twice, and a set has elements, no two of which are equal. What
a number may be written like is left open.
-/
namespace AttributeExpr.Value

/-- What holds of lists and maps because it holds of their parts, and of values without such parts,
holds of all values. -/
@[elab_as_elim]
theorem partsInduction {motive : Value → Prop}
    (list : ∀ items, (∀ item ∈ items, motive item) → motive (list items))
    (map : ∀ entries, (∀ entry ∈ entries, motive entry.2) → motive (map entries))
    (leaf : ∀ value, value.type ≠ .list → value.type ≠ .map → motive value) :
    ∀ value, motive value
  | .list items => list items fun item _ => partsInduction list map leaf item
  | .map entries => map entries fun (_, value) _ => partsInduction list map leaf value
  | .null => leaf _ nofun nofun
  | .bool _ => leaf _ nofun nofun
  | .number _ => leaf _ nofun nofun
  | .string _ => leaf _ nofun nofun
  | .binary _ => leaf _ nofun nofun
  | .numberSet _ => leaf _ nofun nofun
  | .stringSet _ => leaf _ nofun nofun
  | .binarySet _ => leaf _ nofun nofun
termination_by value => sizeOf value
decreasing_by
  all_goals
    have hlt := List.sizeOf_lt_of_mem ‹_ ∈ _›
    simp only [Prod.mk.sizeOf_spec, Value.list.sizeOf_spec, Value.map.sizeOf_spec] at hlt ⊢
    omega

/-- The keys of maps differ, sets are sets, and every number is one of the given numerals. -/
inductive WellFormed (numeral : String → Prop) : Value → Prop where
  | null : WellFormed numeral null
  | bool (b : Bool) : WellFormed numeral (bool b)
  | number {text : String} (h : numeral text) : WellFormed numeral (number text)
  | string (text : String) : WellFormed numeral (string text)
  | binary (bytes : Bytes) : WellFormed numeral (binary bytes)
  | list {items : List Value} (h : ∀ item ∈ items, WellFormed numeral item) :
      WellFormed numeral (list items)
  | map {entries : List (String × Value)} (distinct : (entries.map (·.1)).Nodup)
      (h : ∀ entry ∈ entries, WellFormed numeral entry.2) : WellFormed numeral (map entries)
  | numberSet {elements : List String} (nonempty : elements ≠ [])
      (h : ∀ text ∈ elements, numeral text) (distinct : DistinctNumbers elements) :
      WellFormed numeral (numberSet elements)
  | stringSet {elements : List String} (nonempty : elements ≠ []) (distinct : elements.Nodup) :
      WellFormed numeral (stringSet elements)
  | binarySet {elements : List Bytes} (nonempty : elements ≠ []) (distinct : elements.Nodup) :
      WellFormed numeral (binarySet elements)

/-- Well-formed with any texts as numbers: the keys of maps differ, and sets are sets. -/
abbrev Sound (value : Value) : Prop := value.WellFormed fun _ => True

/-- A string, a number or a binary. -/
def IsScalar (value : Value) : Prop := value.type.isScalar = true

theorem IsScalar.sound {value : Value} (h : value.IsScalar) : value.Sound := by
  cases value with
  | number text => exact .number trivial
  | string text => exact .string text
  | binary bytes => exact .binary bytes
  | _ => contradiction

end AttributeExpr.Value
