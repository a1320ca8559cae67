import AttributeExpr.Path.Basic
import AttributeExpr.Proofs.Placeholder.Reference
import AttributeExpr.Proofs.Text.Run
import AttributeExpr.Value.Render
/-!
Expanding compiled expressions: every placeholder is replaced by what it stands for, which is a
quoted name or the literal of the decoded value. A placeholder goes on to the last of its digits, so
none is taken for the beginning of a longer one.
-/
namespace AttributeExpr

namespace CompiledExpression

/-- The digits in front of a text, if there are any, complete a placeholder of the given kind. -/
def numbered? (kind : String) (text : List Char) : Option (String × List Char) :=
  let digits := text.takeWhile Numeral.isDigit
  if digits.isEmpty then none
  else some (kind ++ String.ofList digits, text.dropWhile Numeral.isDigit)

/-- The placeholder in front of a text, and the text behind it. -/
def placeholder? : List Char → Option (String × List Char)
  | '#' :: 'p' :: rest => numbered? "#p" rest
  | ':' :: 'v' :: rest => numbered? ":v" rest
  | _ => none

/-- What a placeholder is replaced by. -/
def meaning? (compiled : CompiledExpression) (ref : String) : Option String :=
  match Dictionary.get? compiled.names ref with
  | some name => some (Name.quote name)
  | none =>
    match (Dictionary.get? compiled.values ref).map Value.ofWire with
    | some (.ok value) => some value.render
    | _ => none

theorem length_of_numbered? {kind ref : String} {text after : List Char}
    (h : numbered? kind text = some (ref, after)) : after.length ≤ text.length := by
  unfold numbered? at h
  dsimp only at h
  split_ifs at h
  obtain ⟨-, rfl⟩ := Prod.mk.inj (Option.some.inj h)
  exact (List.dropWhile_suffix _).length_le

theorem length_of_placeholder? {ref : String} {text after : List Char}
    (h : placeholder? text = some (ref, after)) : after.length < text.length := by
  unfold placeholder? at h
  split at h
  · have := length_of_numbered? h
    simp only [List.length_cons]
    omega
  · have := length_of_numbered? h
    simp only [List.length_cons]
    omega
  · contradiction

/-- The text with every placeholder replaced, or none if one of them stands for nothing. -/
def expandFrom (compiled : CompiledExpression) : List Char → Option (List Char)
  | [] => some []
  | c :: rest =>
    match _ : placeholder? (c :: rest) with
    | none => (compiled.expandFrom rest).map (c :: ·)
    | some (ref, after) => do
      return (← compiled.meaning? ref).toList ++ (← compiled.expandFrom after)
termination_by text => text.length
decreasing_by
  · simp
  · exact length_of_placeholder? ‹_›

def expand (compiled : CompiledExpression) (text : String) : Option String :=
  (compiled.expandFrom text.toList).map String.ofList

variable {compiled : CompiledExpression}

theorem expandFrom_placeholder {ref meaning : String} {text after : List Char}
    (h : placeholder? text = some (ref, after)) (hmeaning : compiled.meaning? ref = some meaning) :
    compiled.expandFrom text = (compiled.expandFrom after).map (meaning.toList ++ ·) := by
  cases text with
  | nil => contradiction
  | cons c rest =>
    rw [expandFrom]
    split
    · next hnone => rw [hnone] at h; contradiction
    · next ref' after' hsome =>
      rw [hsome] at h
      obtain ⟨rfl, rfl⟩ := Prod.mk.inj (Option.some.inj h)
      rw [hmeaning]
      cases compiled.expandFrom after' <;> rfl

/-- No placeholder begins with the character. -/
def IsPlain (c : Char) : Prop := c ≠ '#' ∧ c ≠ ':'

theorem isPlain_of_isDigit {c : Char} (h : Numeral.isDigit c = true) : IsPlain c := by
  constructor <;> rintro rfl <;> contradiction

theorem placeholder?_plain {c : Char} (h : IsPlain c) (rest : List Char) :
    placeholder? (c :: rest) = none := by
  unfold placeholder?
  split
  · next heq => exact absurd (List.cons.inj heq).1 h.1
  · next heq => exact absurd (List.cons.inj heq).1 h.2
  · rfl

theorem expandFrom_plain {c : Char} (h : IsPlain c) (rest : List Char) :
    compiled.expandFrom (c :: rest) = (compiled.expandFrom rest).map (c :: ·) := by
  have hnone := placeholder?_plain h rest
  rw [expandFrom]
  split
  · rfl
  · next hsome => rw [hnone] at hsome; contradiction

/-- The text expands to another, wherever no further digit follows it. -/
def Expands (compiled : CompiledExpression) (text text' : List Char) : Prop :=
  ∀ ⦃rest : List Char⦄, Stops Numeral.isDigit rest →
    compiled.expandFrom (text ++ rest) = (compiled.expandFrom rest).map (text' ++ ·)

namespace Expands

variable {a a' b b' : List Char}

theorem nil : Expands compiled [] [] := by
  intro rest _
  simp

theorem append (ha : Expands compiled a a') (hb : Expands compiled b b')
    (hs : Stops Numeral.isDigit b) : Expands compiled (a ++ b) (a' ++ b') := by
  intro rest hrest
  have hstops : Stops Numeral.isDigit (b ++ rest) := by
    cases b with
    | nil => exact hrest
    | cons c b => exact stops_cons.mpr (stops_cons.mp hs)
  rw [List.append_assoc, ha hstops, hb hrest, Option.map_map]
  simp [Function.comp_def]

/-- In front of any text, characters that begin no placeholder are kept. -/
theorem plain_append (h : ∀ c ∈ a, IsPlain c) (hb : Expands compiled b b') :
    Expands compiled (a ++ b) (a ++ b') := by
  intro rest hrest
  induction a with
  | nil => exact hb hrest
  | cons c a ih =>
    obtain ⟨hc, ha⟩ := List.forall_mem_cons.mp h
    rw [List.cons_append, List.cons_append, expandFrom_plain hc, ih ha, Option.map_map]
    rfl

theorem plain (h : ∀ c ∈ a, IsPlain c) : Expands compiled a a := by
  simpa using plain_append h (@nil compiled)

theorem expand_eq {text : String} {text' : List Char} (h : Expands compiled text.toList text') :
    compiled.expand text = some (String.ofList text') := by
  have hexpand := h (stops_nil _)
  rw [List.append_nil, expandFrom] at hexpand
  simp [expand, hexpand]

end Expands

/-- A placeholder with all of its digits is found. -/
theorem placeholder?_numbered {kind : String} {rest : List Char}
    (hkind : ∀ text, placeholder? (kind.toList ++ text) = numbered? kind text) (n : Nat)
    (hs : Stops Numeral.isDigit rest) :
    placeholder? ((kind ++ toString n).toList ++ rest) = some (kind ++ toString n, rest) := by
  have hdigits := Decimal.isDigit_toString n
  have nonempty := List.isEmpty_eq_false_iff.mpr (Decimal.toString_ne_nil n)
  rw [String.toList_append, List.append_assoc, hkind, numbered?]
  rw [hs.takeWhile_eq hdigits, hs.dropWhile_eq hdigits]
  simp only [nonempty, Bool.false_eq_true, if_false, String.ofList_toList]

example : placeholder? "#p10 = :v1".toList = some ("#p10", " = :v1".toList) := by decide

end CompiledExpression

namespace PlaceholderTable

open CompiledExpression

variable {numeral : String → Prop} {table : PlaceholderTable} {ref name : String} {value : Value}

theorem Coherent.eq_nameRef (h : Coherent numeral table) (held : table.HoldsName name ref) :
    ∃ n, ref = nameRef n := by
  have hmem : ref ∈ table.names.map (·.1) := List.mem_map_of_mem held
  rw [h.name_refs] at hmem
  obtain ⟨n, -, rfl⟩ := List.mem_map.mp hmem
  exact ⟨n, rfl⟩

theorem Coherent.eq_valueRef (h : Coherent numeral table) (held : table.HoldsValue value ref) :
    ∃ n, ref = valueRef n := by
  obtain ⟨entry, hentry, rfl, -⟩ := held
  have hmem : entry.ref ∈ table.values.map (·.ref) := List.mem_map_of_mem hentry
  rw [h.value_refs] at hmem
  obtain ⟨n, -, hn⟩ := List.mem_map.mp hmem
  exact ⟨n, hn.symm⟩

/-- No name has a reference that is made for values. -/
theorem Coherent.nameAt?_valueRef (h : Coherent numeral table) (n : Nat) :
    table.nameAt? (valueRef n) = none := by
  cases hname : table.nameAt? (valueRef n) with
  | none => rfl
  | some name =>
    obtain ⟨m, hm⟩ := h.eq_nameRef (h.nameAt?_iff.mp hname)
    have htext := congrArg String.toList hm
    simp [valueRef, nameRef] at htext

/-- The reference to a name is expanded to the quoted name. -/
theorem HoldsName.expands (h : Coherent numeral table) (held : table.HoldsName name ref)
    (expression : String) :
    Expands (table.compiled expression) ref.toList (Name.quote name).toList := by
  obtain ⟨n, rfl⟩ := h.eq_nameRef held
  have hmeaning : (table.compiled expression).meaning? (nameRef n) = some (Name.quote name) := by
    have hname : Dictionary.get? table.names (nameRef n) = some name := h.nameAt?_iff.mpr held
    simp [meaning?, compiled, hname]
  intro rest hs
  exact expandFrom_placeholder (placeholder?_numbered (fun _ => rfl) n hs) hmeaning

/-- The reference to a value is expanded to the literal of a value that equals it. -/
theorem HoldsValue.expands (h : Coherent numeral table) (held : table.HoldsValue value ref)
    (expression : String) :
    ∃ decoded : Value, decoded.WellFormed numeral ∧ Value.Equals decoded value ∧
      Expands (table.compiled expression) ref.toList decoded.render.toList := by
  obtain ⟨wire, decoded, hwire, hdecoded, wellFormed, hequals⟩ := held.decodes h
  obtain ⟨n, rfl⟩ := h.eq_valueRef held
  refine ⟨decoded, wellFormed, hequals, ?_⟩
  have hmeaning : (table.compiled expression).meaning? (valueRef n) = some decoded.render := by
    have hname : Dictionary.get? table.names (valueRef n) = none := h.nameAt?_valueRef n
    have hvalue : Dictionary.get? (table.values.map fun entry => (entry.ref, entry.wire))
        (valueRef n) = some wire := hwire
    simp [meaning?, compiled, hname, hvalue, hdecoded]
  intro rest hs
  exact expandFrom_placeholder (placeholder?_numbered (fun _ => rfl) n hs) hmeaning

end PlaceholderTable

end AttributeExpr
