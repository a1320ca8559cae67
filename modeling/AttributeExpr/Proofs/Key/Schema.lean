import AttributeExpr.Key.Basic
import AttributeExpr.Proofs.Outcome
import AttributeExpr.Proofs.Text.Words
/-!
How a schema is written. Its keys are the parts between commas that are not blank, and the name of a
key is what stands in its part before the last colon, or the whole part, without the blanks around
it.
-/
namespace AttributeExpr

namespace Key

/-- The name that a part of a schema gives to its key. -/
inductive Writes : List Char → List Char → Prop where
  | plain {part : List Char} (h : ':' ∉ part) : Writes part (trim part)
  | typed {front type : List Char} (h : ':' ∉ type) : Writes (front ++ ':' :: type) (trim front)

/-- A text has one last colon. -/
theorem front_eq_of_append_eq {front type front' type' : List Char} (h : ':' ∉ type)
    (h' : ':' ∉ type') (heq : front ++ ':' :: type = front' ++ ':' :: type') : front = front' := by
  rcases List.append_eq_append_iff.mp heq with ⟨more, rfl, hmore⟩ | ⟨more, rfl, hmore⟩
  · cases more with
    | nil => rw [List.append_nil]
    | cons c more =>
      obtain ⟨-, rfl⟩ := List.cons.inj hmore
      exact absurd (by simp) h
  · cases more with
    | nil => rw [List.append_nil]
    | cons c more =>
      obtain ⟨-, rfl⟩ := List.cons.inj hmore
      exact absurd (by simp) h'

theorem Writes.unique {part name name' : List Char} (h : Writes part name)
    (h' : Writes part name') : name = name' := by
  cases h with
  | plain hno =>
    cases h' with
    | plain => rfl
    | typed => exact absurd (by simp) hno
  | @typed front type hno =>
    generalize heq : front ++ ':' :: type = part at h'
    cases h' with
    | plain hno' =>
      subst heq
      exact absurd (by simp) hno'
    | typed hno' => rw [front_eq_of_append_eq hno hno' heq]

theorem splitType?_eq_none {text : List Char} (h : splitType? text = none) : ':' ∉ text := by
  unfold splitType? at h
  dsimp only at h
  split at h
  · next hdrop =>
    intro hcolon
    simpa using List.dropWhile_eq_nil_iff.mp hdrop ':' (List.mem_reverse.mpr hcolon)
  · contradiction

theorem splitType?_sound {text name type : List Char} (h : splitType? text = some (name, type)) :
    text = name ++ ':' :: type ∧ ':' ∉ type := by
  unfold splitType? at h
  dsimp only at h
  split at h
  · contradiction
  · next c rest hdrop =>
    obtain ⟨rfl, rfl⟩ := Prod.mk.inj (Option.some.inj h)
    have hcolon := stops_dropWhile (· ≠ ':') text.reverse
    rw [hdrop, stops_cons] at hcolon
    obtain rfl : c = ':' := by simpa using hcolon
    have htext := @List.takeWhile_append_dropWhile _ (· ≠ ':') text.reverse
    rw [hdrop, ← List.reverse_inj, List.reverse_append, List.reverse_cons, List.append_assoc,
      List.reverse_reverse] at htext
    constructor
    · exact htext.symm
    · intro hmem
      have := of_mem_takeWhile (List.mem_reverse.mp hmem)
      contradiction

theorem name_of_make {name : String} {type : AttributeType} {key : Key}
    (h : make name type = .ok key) : key.name = name := by
  unfold make at h
  split_ifs at h
  obtain rfl := Except.ok.inj h
  rfl

theorem writes_of_parse {text : String} {key : Key} (h : parse text = .ok key) :
    Writes text.toList key.name.toList := by
  obtain ⟨before, after, htext, hbefore, hafter⟩ := exists_trim text.toList
  have colonless {blanks : List Char} (h : ∀ c ∈ blanks, isBlank c = true) : ':' ∉ blanks := by
    intro hcolon
    have := h ':' hcolon
    contradiction
  unfold parse at h
  dsimp only at h
  split at h
  · next hnone =>
    rw [name_of_make h, String.toList_ofList]
    apply Writes.plain
    rw [htext]
    simp [colonless hbefore, colonless hafter, splitType?_eq_none hnone]
  · next front type hsome =>
    obtain ⟨hfront, hno⟩ := splitType?_sound hsome
    obtain ⟨type', -, hmake⟩ := bind_eq_ok_iff.mp h
    rw [name_of_make hmake, String.toList_ofList]
    have hpart : text.toList = (before ++ front) ++ ':' :: (type ++ after) := by
      rw [htext, hfront]
      simp
    have hname : trim (before ++ front) = trim front := by
      simpa using trim_blanks hbefore (List.forall_mem_nil _)
    rw [hpart, ← hname]
    exact .typed (by simp [hno, colonless hafter])

end Key

namespace KeySchema

theorem splitCommas_eq_splitOn (text : List Char) : splitCommas text = text.splitOn ',' := by
  induction text with
  | nil => rfl
  | cons c text ih =>
    obtain ⟨part, parts, hparts⟩ :=
      List.exists_cons_of_ne_nil (List.splitOnP_ne_nil (· == ',') text)
    rw [splitCommas, ih, List.splitOn, List.splitOn, List.splitOnP_cons_eq_if_modifyHead, hparts]
    simp

/-- The parts of a schema with two keys, and the names of the keys. -/
theorem writes_of_parse {text : String} {schema : KeySchema} {sort : Key}
    (h : parse text = .ok schema) (hsort : schema.sort = some sort) :
    ∃ part part', (text.toList.splitOn ',').filter (fun part => !part.all isBlank) =
        [part, part'] ∧
      Key.Writes part schema.partition.name.toList ∧ Key.Writes part' sort.name.toList := by
  unfold parse at h
  rw [splitCommas_eq_splitOn] at h
  split at h
  · obtain ⟨partition, -, heq⟩ := bind_eq_ok_iff.mp h
    obtain rfl := Except.ok.inj heq
    contradiction
  · next part part' hparts =>
    obtain ⟨partition, hpartition, hrest⟩ := bind_eq_ok_iff.mp h
    obtain ⟨sort', hsort', heq⟩ := bind_eq_ok_iff.mp hrest
    obtain rfl := Except.ok.inj heq
    obtain rfl := Option.some.inj hsort
    refine ⟨part, part', hparts, ?_, ?_⟩
    · simpa using Key.writes_of_parse hpartition
    · simpa using Key.writes_of_parse hsort'
  · contradiction

end KeySchema

end AttributeExpr
