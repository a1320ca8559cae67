import AttributeExpr.Request
import AttributeExpr.Proofs.Placeholder.Table
/-!
The order of references. A table that belongs to a text holds exactly the references that a reader
of the text meets, in the order in which they are met for the first time. It stays so when a known
reference is read again, and when the next one is read and added.
-/
namespace AttributeExpr

section

variable {α : Type} [DecidableEq α] {seen seen' as : List α}

theorem mem_dropRepeats {a : α} : a ∈ dropRepeats seen as ↔ a ∈ as ∧ a ∉ seen := by
  induction as generalizing seen with
  | nil => simp [dropRepeats]
  | cons b as ih =>
    rw [dropRepeats]
    split_ifs with hb
    · rw [ih, List.mem_cons]
      constructor
      · exact fun h => ⟨.inr h.1, h.2⟩
      · rintro ⟨rfl | ha, hseen⟩
        · exact absurd hb hseen
        · exact ⟨ha, hseen⟩
    · rw [List.mem_cons, ih, List.mem_cons, List.mem_cons]
      by_cases hab : a = b
      · subst hab
        simp [hb]
      · simp [hab]

/-- Only whether the members themselves have been seen matters. -/
theorem dropRepeats_congr (h : ∀ a ∈ as, a ∈ seen ↔ a ∈ seen') :
    dropRepeats seen as = dropRepeats seen' as := by
  induction as generalizing seen seen' with
  | nil => rfl
  | cons a as ih =>
    obtain ⟨ha, has⟩ := List.forall_mem_cons.mp h
    have hnext : ∀ b ∈ as, b ∈ a :: seen ↔ b ∈ a :: seen' := by
      intro b hb
      rw [List.mem_cons, List.mem_cons, has b hb]
    rw [dropRepeats, dropRepeats, ih has, ih hnext]
    simp only [ha]

theorem dropRepeats_append (as bs : List α) :
    dropRepeats seen (as ++ bs) = dropRepeats seen as ++ dropRepeats (as ++ seen) bs := by
  induction as generalizing seen with
  | nil => rfl
  | cons a as ih =>
    rw [List.cons_append, dropRepeats, dropRepeats]
    split_ifs with ha
    · rw [ih]
      congr 1
      apply dropRepeats_congr
      intro b _
      simp only [List.mem_append, List.cons_append, List.mem_cons]
      constructor
      · exact .inr
      · rintro (rfl | h)
        · exact .inr ha
        · exact h
    · rw [ih, List.cons_append]
      congr 2
      apply dropRepeats_congr
      intro b _
      simp only [List.mem_append, List.cons_append, List.mem_cons]
      tauto

/-- What has been dropped once need not be dropped again. -/
theorem dropRepeats_dropRepeats (h : seen ⊆ seen') :
    dropRepeats seen' (dropRepeats seen as) = dropRepeats seen' as := by
  induction as generalizing seen seen' with
  | nil => rfl
  | cons a as ih =>
    rw [dropRepeats, dropRepeats]
    split_ifs with ha ha' ha'
    · exact ih h
    · exact absurd (h ha) ha'
    · rw [dropRepeats, if_pos ha', ih (List.cons_subset.mpr ⟨ha', h⟩)]
    · rw [dropRepeats, if_neg ha', ih (List.cons_subset_cons a h)]

theorem filter_dropRepeats (p : α → Bool) :
    (dropRepeats seen as).filter p = dropRepeats seen (as.filter p) := by
  induction as generalizing seen with
  | nil => rfl
  | cons a as ih =>
    rw [dropRepeats, List.filter_cons]
    split_ifs with ha hp hp
    · rw [ih, dropRepeats, if_pos ha]
    · exact ih
    · rw [List.filter_cons_of_pos hp, ih, dropRepeats, if_neg ha]
    · rw [List.filter_cons_of_neg hp, ih]
      apply dropRepeats_congr
      intro b hb
      obtain ⟨-, hpb⟩ := List.mem_filter.mp hb
      have hne : b ≠ a := by
        rintro rfl
        exact hp hpb
      simp [hne]

end

/-! One kind of references. -/

/-- Whether the reference is of the kind that begins with the mark. -/
def isMarked (mark : Char) (ref : String) : Bool := ref.toList.head? = some mark

/-- The references of one kind are those that have been read, in the order in which each was read
first, and are numbered without gaps. -/
structure CountsUp (mark : Char) (numbered : Nat → String) (read refs : List String) : Prop where
  first_read : dropRepeats [] (read.filter (isMarked mark)) = refs
  numbered : refs = (List.range refs.length).map numbered

namespace CountsUp

variable {mark : Char} {numbered : Nat → String} {read read' refs : List String} {ref : String}

theorem nil : CountsUp mark numbered [] [] := ⟨rfl, rfl⟩

theorem mem_iff (h : CountsUp mark numbered read refs) :
    ref ∈ refs ↔ ref ∈ read ∧ isMarked mark ref = true := by
  rw [← h.first_read, mem_dropRepeats, List.mem_filter]
  simp

theorem congr (h : CountsUp mark numbered read refs)
    (hread : dropRepeats [] read' = dropRepeats [] read) : CountsUp mark numbered read' refs := by
  refine ⟨?_, h.numbered⟩
  rw [← filter_dropRepeats, hread, filter_dropRepeats, h.first_read]

/-- A reference that has been read already, or is not of the kind, changes nothing. -/
theorem read_again (h : CountsUp mark numbered read refs)
    (href : isMarked mark ref = true → ref ∈ read) :
    CountsUp mark numbered (read ++ [ref]) refs := by
  refine ⟨?_, h.numbered⟩
  rw [List.filter_append, dropRepeats_append, h.first_read]
  cases hmark : isMarked mark ref with
  | false => simp [hmark, dropRepeats]
  | true =>
    have hmem : ref ∈ read.filter (isMarked mark) := List.mem_filter.mpr ⟨href hmark, hmark⟩
    rw [List.filter_cons_of_pos hmark, dropRepeats, if_pos (by simpa using hmem)]
    simp [dropRepeats]

/-- References of another kind behind those read do not matter. -/
theorem read_others {further refs' : List String}
    (h : CountsUp mark numbered read refs) (h' : CountsUp mark numbered (read ++ further) refs')
    (hother : ∀ ref ∈ further, isMarked mark ref = false) : refs' = refs := by
  have hnone : further.filter (isMarked mark) = [] := by
    rw [List.filter_eq_nil_iff]
    intro ref href
    simp [hother ref href]
  rw [← h'.first_read, List.filter_append, hnone, List.append_nil, h.first_read]

/-- The next reference is read. -/
theorem read_next (h : CountsUp mark numbered read refs) (injective : Function.Injective numbered)
    (hmark : ∀ n, isMarked mark (numbered n) = true) :
    CountsUp mark numbered (read ++ [numbered refs.length]) (refs ++ [numbered refs.length]) := by
  have hnew : numbered refs.length ∉ read.filter (isMarked mark) := by
    intro hmem
    have href := h.mem_iff.mpr (List.mem_filter.mp hmem)
    rw [h.numbered] at href
    obtain ⟨n, hn, heq⟩ := List.mem_map.mp href
    have hlt := List.mem_range.mp hn
    simp only [List.length_map, List.length_range] at heq
    exact absurd (injective heq) hlt.ne
  constructor
  · rw [List.filter_append, dropRepeats_append, h.first_read, List.filter_cons_of_pos (hmark _),
      dropRepeats, if_neg (by simpa using hnew)]
    simp [dropRepeats]
  · rw [List.length_append, List.length_singleton, List.range_succ, List.map_append, ← h.numbered]
    rfl

end CountsUp

/-! Both kinds. -/

open PlaceholderTable (nameRef valueRef)

theorem isMarked_nameRef (n : Nat) : isMarked '#' (nameRef n) = true := by
  simp [isMarked, nameRef]

theorem isMarked_valueRef (n : Nat) : isMarked ':' (valueRef n) = true := by
  simp [isMarked, valueRef]

/-- The references that have been read are those that stand for a name or for a value, and both
kinds count up in the order of reading. -/
structure ReadInOrder (read names values : List String) : Prop where
  used_iff_defined : ∀ ref, ref ∈ read ↔ ref ∈ names ∨ ref ∈ values
  names : CountsUp '#' nameRef read names
  values : CountsUp ':' valueRef read values

namespace ReadInOrder

variable {read read' names values : List String} {ref : String}

theorem nil : ReadInOrder [] [] [] := ⟨by simp, .nil, .nil⟩

theorem congr (h : ReadInOrder read names values)
    (hread : dropRepeats [] read' = dropRepeats [] read) : ReadInOrder read' names values := by
  refine ⟨?_, h.names.congr hread, h.values.congr hread⟩
  intro ref
  have hmem : ref ∈ dropRepeats [] read' ↔ ref ∈ dropRepeats [] read := by rw [hread]
  rw [mem_dropRepeats, mem_dropRepeats] at hmem
  rw [← h.used_iff_defined]
  simpa using hmem

theorem read_again (h : ReadInOrder read names values) (href : ref ∈ read) :
    ReadInOrder (read ++ [ref]) names values := by
  refine ⟨?_, h.names.read_again fun _ => href, h.values.read_again fun _ => href⟩
  intro other
  rw [← h.used_iff_defined, List.mem_append, List.mem_singleton]
  constructor
  · rintro (hmem | rfl)
    · exact hmem
    · exact href
  · exact .inl

theorem read_name (h : ReadInOrder read names values) :
    ReadInOrder (read ++ [nameRef names.length]) (names ++ [nameRef names.length]) values := by
  refine ⟨?_, h.names.read_next PlaceholderTable.nameRef_injective isMarked_nameRef, ?_⟩
  · intro ref
    rw [List.mem_append, h.used_iff_defined, List.mem_append]
    tauto
  · apply h.values.read_again
    simp [isMarked, nameRef]

theorem read_value (h : ReadInOrder read names values) :
    ReadInOrder (read ++ [valueRef values.length]) names (values ++ [valueRef values.length]) := by
  refine ⟨?_, ?_, h.values.read_next PlaceholderTable.valueRef_injective isMarked_valueRef⟩
  · intro ref
    rw [List.mem_append, h.used_iff_defined, List.mem_append]
    tauto
  · apply h.names.read_again
    simp [isMarked, valueRef]

end ReadInOrder

/-- The table holds what has been read. -/
def PlaceholderTable.ReadAs (table : PlaceholderTable) (read : List String) : Prop :=
  ReadInOrder read (table.names.map (·.1)) (table.values.map (·.ref))

/-- The table of a compiled expression holds what has been read. -/
def CompiledExpression.ReadAs (compiled : CompiledExpression) (read : List String) : Prop :=
  ReadInOrder read (compiled.names.map (·.1)) (compiled.values.map (·.1))

end AttributeExpr
