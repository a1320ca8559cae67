import AttributeExpr.Proofs.Placeholder.KeyCondition
import AttributeExpr.Proofs.Update.Restoring
/-!
Compiled paths and references are solid: no blank, comma or parenthesis stands in them. So they are
told apart from what stands around them in a compiled clause, and a path can be read back from its
text, as a reference ends with the last of its digits and an index with its bracket.
-/
namespace AttributeExpr

namespace Update

open PlaceholderTable (Coherent)

/-- The character stands neither between formulas nor around the arguments of a call. -/
def isSolid (c : Char) : Bool := !(c = ' ' || c = ',' || c = '(' || c = ')')

/-- No blank, comma or parenthesis is in the text. -/
def Solid (text : String) : Prop := ∀ c ∈ text.toList, isSolid c = true

theorem Solid.append {a b : String} (ha : Solid a) (hb : Solid b) : Solid (a ++ b) := by
  rw [Solid, String.toList_append, List.forall_mem_append]
  exact ⟨ha, hb⟩

theorem isSolid_of_isDigit {c : Char} (h : Numeral.isDigit c = true) : isSolid c = true := by
  rw [Numeral.isDigit_iff] at h
  have hne (d : Char) (hd : d.toNat < 0x30) : c ≠ d := by
    rintro rfl
    omega
  simp [isSolid, hne ' ' (by decide), hne ',' (by decide), hne '(' (by decide), hne ')' (by decide)]

theorem solid_toString (n : Nat) : Solid (toString n) :=
  fun c hc => isSolid_of_isDigit (Decimal.isDigit_toString n c hc)

theorem solid_index (index : Int) : Solid ("[" ++ toString index ++ "]") := by
  have hindex : Solid (toString index) := by
    intro c hc
    rcases Decimal.mem_toString_int hc with hdigit | rfl
    · exact isSolid_of_isDigit hdigit
    · rfl
  exact (Solid.append (by simp [Solid, isSolid]) hindex).append (by simp [Solid, isSolid])

variable {numeral : String → Prop} {table table' : PlaceholderTable} {ref text text' : String}

theorem solid_of_holdsName {name : String} (h : Coherent numeral table)
    (held : table.HoldsName name ref) : Solid ref := by
  obtain ⟨n, rfl⟩ := h.eq_nameRef held
  exact Solid.append (by simp [Solid, isSolid]) (solid_toString n)

theorem solid_of_holdsValue {value : Value} (h : Coherent numeral table)
    (held : table.HoldsValue value ref) : Solid ref := by
  obtain ⟨n, rfl⟩ := h.eq_valueRef held
  exact Solid.append (by simp [Solid, isSolid]) (solid_toString n)

theorem WrittenSegments.solid (h : Coherent numeral table) {segments : List Segment}
    (written : WrittenSegments table segments text) : Solid text := by
  induction written with
  | nil => simp [Solid]
  | name held _ ih =>
    exact (Solid.append (by simp [Solid, isSolid]) (solid_of_holdsName h held)).append ih
  | index index _ ih => exact (solid_index index).append ih

theorem WrittenPath.solid (h : Coherent numeral table) {path : Path}
    (written : WrittenPath table path text) : Solid text := by
  cases written with
  | path held rest => exact (solid_of_holdsName h held).append (rest.solid h)

/-! Reading paths back. -/

/-- Tables that look all names up alike refer to one name by a reference, and the reference is told
apart from a text that does not go on with a digit. -/
theorem holdsName_inj (h : Coherent numeral table) (h' : Coherent numeral table')
    (names : ∀ ref, table.nameAt? ref = table'.nameAt? ref) {name name' ref' : String}
    (held : table.HoldsName name ref) (held' : table'.HoldsName name' ref')
    (stops : Stops Numeral.isDigit text.toList) (stops' : Stops Numeral.isDigit text'.toList)
    (heq : ref ++ text = ref' ++ text') : name = name' ∧ text = text' := by
  obtain ⟨m, rfl⟩ := h.eq_nameRef held
  obtain ⟨n, rfl⟩ := h'.eq_nameRef held'
  have hchars := congrArg String.toList heq
  simp only [PlaceholderTable.nameRef, String.toList_append, List.append_assoc,
    List.append_cancel_left_eq] at hchars
  obtain ⟨hdigits, htext⟩ := append_inj_of_stops (Decimal.isDigit_toString m)
    (Decimal.isDigit_toString n) stops stops' hchars
  obtain rfl : m = n := Decimal.toString_injective (String.toList_inj.mp hdigits)
  exact ⟨held.unique h h' (names _) held', String.toList_inj.mp htext⟩

/-- An index is told apart from whatever follows it. -/
theorem index_inj {index index' : Int}
    (heq : "[" ++ toString index ++ "]" ++ text = "[" ++ toString index' ++ "]" ++ text') :
    index = index' ∧ text = text' := by
  have hinner (index : Int) : ∀ c ∈ (toString index).toList, decide (c ≠ ']') = true := by
    intro c hc
    rcases Decimal.mem_toString_int hc with hdigit | rfl
    · rw [decide_eq_true_eq]
      rintro rfl
      contradiction
    · rfl
  have hchars := congrArg String.toList heq
  simp only [String.toList_append, List.append_assoc, List.append_cancel_left_eq] at hchars
  obtain ⟨hindex, hrest⟩ := append_inj_of_stops (hinner index) (hinner index') (by simp) (by simp)
    hchars
  have htext : text.toList = text'.toList := by simpa using hrest
  exact ⟨Decimal.toString_int_injective (String.toList_inj.mp hindex), String.toList_inj.mp htext⟩

section

variable (h : Coherent numeral table) (h' : Coherent numeral table')
  (names : ∀ ref, table.nameAt? ref = table'.nameAt? ref)

include h h' names

/-- No two lists of segments are written alike. -/
theorem WrittenSegments.unique {segments segments' : List Segment}
    (written : WrittenSegments table segments text)
    (written' : WrittenSegments table' segments' text') (heq : text = text') :
    segments = segments' := by
  induction written generalizing segments' text' with
  | nil =>
    cases written' with
    | nil => rfl
    | name | index => simp [← String.toList_inj] at heq
  | name held rest ih =>
    cases written' with
    | nil | index => simp [← String.toList_inj] at heq
    | name held' rest' =>
      rw [String.append_assoc, String.append_assoc, String.append_right_inj] at heq
      obtain ⟨rfl, htext⟩ := holdsName_inj h h' names held held' rest.stops rest'.stops heq
      rw [ih rest' htext]
  | index index rest ih =>
    cases written' with
    | nil | name => simp [← String.toList_inj] at heq
    | index index' rest' =>
      obtain ⟨rfl, htext⟩ := index_inj heq
      rw [ih rest' htext]

/-- No two paths are written alike. -/
theorem WrittenPath.unique {path path' : Path} (written : WrittenPath table path text)
    (written' : WrittenPath table' path' text') (heq : text = text') : path = path' := by
  cases written with
  | path held rest =>
    cases written' with
    | path held' rest' =>
      obtain ⟨rfl, htext⟩ := holdsName_inj h h' names held held' rest.stops rest'.stops heq
      rw [rest.unique h h' names rest' htext]

end

end Update

end AttributeExpr
