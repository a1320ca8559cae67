import AttributeExpr.Json.Printer
import AttributeExpr.Proofs.JsonText.Grammar
import AttributeExpr.Proofs.Outcome
import AttributeExpr.Proofs.Text.Hex
import Mathlib
/-!
Printing. What is printed for a document without numbers is a spelling of exactly this document:
strings are escaped where they have to be, and the lines and their indentation are layout.
-/
namespace AttributeExpr

namespace Json

open JsonText (Tree)

mutual

/-- The document as the grammar of JSON texts has it, with a number as the text that is printed. -/
def tree : Json → Tree
  | null => .null
  | bool b => .bool b
  | int n => .number (toString n)
  | binary x => .number x.text
  | decimal d => .number d.toScientific
  | string s => .string s
  | array items => .array (treesOfItems items)
  | object members => .object (treesOfMembers members)

def treesOfItems : List Json → List Tree
  | [] => []
  | item :: rest => tree item :: treesOfItems rest

def treesOfMembers : List (String × Json) → List (String × Tree)
  | [] => []
  | (key, value) :: rest => (key, tree value) :: treesOfMembers rest

end

/-- No part of the document is a number. -/
inductive Numberless : Json → Prop where
  | null : Numberless null
  | bool (b : Bool) : Numberless (bool b)
  | string (text : String) : Numberless (string text)
  | array {items : List Json} (h : ∀ item ∈ items, Numberless item) : Numberless (array items)
  | object {members : List (String × Json)} (h : ∀ member ∈ members, Numberless member.2) :
      Numberless (object members)

theorem toList_block (opening closing : String) (level : Nat) {lines : List String}
    (nonempty : lines ≠ []) :
    (block opening closing level lines).toList =
      opening.toList ++ ((lineStart (level + 1)).toList ++
        (',' :: (lineStart (level + 1)).toList).intercalate (lines.map (·.toList)) ++
        (lineStart level).toList ++ closing.toList) := by
  rw [block, if_neg (by simpa using nonempty)]
  simp [String.toList_intercalate]

theorem toList_block_nil (opening closing : String) (level : Nat) :
    (block opening closing level []).toList = opening.toList ++ closing.toList :=
  String.toList_append

end Json

namespace JsonText

theorem isSpace_lineStart (level : Nat) :
    ∀ c ∈ (Json.lineStart level).toList, isSpace c = true := by
  intro c hc
  simp only [Json.lineStart, String.toList_append, String.toList_ofList, List.mem_append,
    List.mem_replicate] at hc
  rcases hc with hc | ⟨-, rfl⟩
  · obtain rfl : c = '\n' := by simpa using hc
    rfl
  · rfl

theorem spellsChar_escapeChar (c : Char) : SpellsChar (Json.escapeChar c) c := by
  unfold Json.escapeChar
  split
  · exact .short (by decide)
  · exact .short (by decide)
  · exact .short (by decide)
  · exact .short (by decide)
  · exact .short (by decide)
  · exact .short (by decide)
  · exact .short (by decide)
  · next quote escape _ _ _ _ _ =>
    split_ifs with hcontrol
    · refine .unit (length_hexDigits 4 _) ?_
      rw [hexNumber?_hexDigits, Nat.mod_eq_of_lt (by omega)]
    · exact .raw (by omega) quote escape

theorem spellsString_printString (text : String) :
    SpellsString (Json.printString text).toList text := by
  have hchars (text : List Char) : SpellsChars (text.flatMap Json.escapeChar) text := by
    induction text with
    | nil => exact .nil
    | cons c text ih => exact .cons (spellsChar_escapeChar c) ih
  have hquoted := SpellsString.quoted (hchars text.toList)
  rwa [String.ofList_toList, ← String.toList_ofList (l := _ :: _)] at hquoted

/-! Layout. -/

theorem Spells.layout_left {blanks text : List Char} {tree : Tree} (h : Spells text tree)
    (spaces : ∀ c ∈ blanks, isSpace c = Bool.true) : Spells (blanks ++ text) tree := by
  induction blanks with
  | nil => exact h
  | cons c blanks ih =>
    obtain ⟨hc, hblanks⟩ := List.forall_mem_cons.mp spaces
    exact .before hc (ih hblanks)

theorem Spells.layout_right {blanks text : List Char} {tree : Tree} (h : Spells text tree)
    (spaces : ∀ c ∈ blanks, isSpace c = Bool.true) : Spells (text ++ blanks) tree := by
  induction blanks generalizing text with
  | nil => rwa [List.append_nil]
  | cons c blanks ih =>
    obtain ⟨hc, hblanks⟩ := List.forall_mem_cons.mp spaces
    rw [← List.singleton_append, ← List.append_assoc]
    exact ih (.after h hc) hblanks

/-- The text spells the member of an object, maybe with layout around it. -/
def SpellsMember (text : List Char) (member : String × Tree) : Prop :=
  ∃ part : MemberText, part.KeySpelled ∧ Spells part.text part.tree ∧ part.spelled = text ∧
    part.member = member

theorem SpellsMember.of_spells {key text : List Char} {name : String} {tree : Tree}
    (hkey : SpellsString key name) (hvalue : Spells text tree) :
    SpellsMember (key ++ ':' :: text) (name, tree) :=
  ⟨⟨[], key, [], name, text, tree⟩, ⟨by simp, hkey, by simp⟩, hvalue,
    by simp [MemberText.spelled], rfl⟩

theorem SpellsMember.layout_left {blanks text : List Char} {member : String × Tree}
    (h : SpellsMember text member) (spaces : ∀ c ∈ blanks, isSpace c = Bool.true) :
    SpellsMember (blanks ++ text) member := by
  obtain ⟨part, key, value, rfl, rfl⟩ := h
  refine ⟨{ part with before := blanks ++ part.before }, ⟨?_, key.key, key.after⟩, value, ?_, rfl⟩
  · exact List.forall_mem_append.mpr ⟨spaces, key.before⟩
  · simp [MemberText.spelled]

theorem SpellsMember.layout_right {blanks text : List Char} {member : String × Tree}
    (h : SpellsMember text member) (spaces : ∀ c ∈ blanks, isSpace c = Bool.true) :
    SpellsMember (text ++ blanks) member := by
  obtain ⟨part, key, value, rfl, rfl⟩ := h
  refine ⟨{ part with text := part.text ++ blanks }, ⟨key.before, key.key, key.after⟩,
    value.layout_right spaces, ?_, rfl⟩
  simp [MemberText.spelled]

theorem exists_memberTexts {texts : List (List Char)} {members : List (String × Tree)}
    (h : List.Forall₂ SpellsMember texts members) :
    ∃ parts : List MemberText, parts.map (·.spelled) = texts ∧ parts.map (·.member) = members ∧
      (∀ part ∈ parts, part.KeySpelled) ∧ ∀ part ∈ parts, Spells part.text part.tree := by
  induction h with
  | nil => exact ⟨[], rfl, rfl, by simp, by simp⟩
  | cons hmember _ ih =>
    obtain ⟨part, key, value, rfl, rfl⟩ := hmember
    obtain ⟨parts, rfl, rfl, hkeys, hvalues⟩ := ih
    exact ⟨part :: parts, rfl, rfl, List.forall_mem_cons.mpr ⟨key, hkeys⟩,
      List.forall_mem_cons.mpr ⟨value, hvalues⟩⟩

/-- Parts on lines of their own are parts between single commas, with the line breaks and the
indentation belonging to the parts. -/
theorem exists_parts_of_lines {α : Type} {R : List Char → α → Prop} {front back : List Char}
    (before : ∀ text a, R text a → R (front ++ text) a)
    (after : ∀ text a, R text a → R (text ++ back) a) {lines : List (List Char)} {as : List α}
    (h : List.Forall₂ R lines as) (nonempty : as ≠ []) :
    ∃ parts, List.Forall₂ R parts as ∧
      front ++ (',' :: front).intercalate lines ++ back = [','].intercalate parts := by
  induction h with
  | nil => contradiction
  | @cons line a lines as hline hlines ih =>
    cases hlines with
    | nil => exact ⟨[front ++ line ++ back], .cons (after _ _ (before _ _ hline)) .nil, by simp⟩
    | @cons line' a' lines as =>
      obtain ⟨parts, hparts, heq⟩ := ih (by simp)
      obtain ⟨part, parts, -, -, rfl⟩ := List.forall₂_cons_right_iff.mp hparts
      refine ⟨(front ++ line) :: part :: parts, .cons (before _ _ hline) hparts, ?_⟩
      rw [List.intercalate_cons_cons, List.intercalate_cons_cons, ← heq]
      simp

end JsonText

namespace Json

open JsonText

theorem printItems_eq_map (level : Nat) (items : List Json) :
    printItems level items = items.map (printAt level) := by
  induction items with
  | nil => rfl
  | cons item items ih => rw [printItems, ih, List.map_cons]

theorem treesOfItems_eq_map (items : List Json) : treesOfItems items = items.map tree := by
  induction items with
  | nil => rfl
  | cons item items ih => rw [treesOfItems, ih, List.map_cons]

theorem printMembers_eq_map (level : Nat) (members : List (String × Json)) :
    printMembers level members =
      members.map fun member => printString member.1 ++ ": " ++ printAt level member.2 := by
  induction members with
  | nil => rfl
  | cons member members ih => rw [printMembers, ih, List.map_cons]

theorem treesOfMembers_eq_map (members : List (String × Json)) :
    treesOfMembers members = members.map fun member => (member.1, member.2.tree) := by
  induction members with
  | nil => rfl
  | cons member members ih => rw [treesOfMembers, ih, List.map_cons]

theorem spells_array (level : Nat) {items : List Json}
    (h : ∀ item ∈ items, Spells (printAt (level + 1) item).toList item.tree) :
    Spells (printAt level (array items)).toList (array items).tree := by
  rw [printAt, tree, printItems_eq_map, treesOfItems_eq_map]
  by_cases hempty : items = []
  · subst hempty
    rw [List.map_nil, List.map_nil, toList_block_nil]
    exact @Spells.emptyArray [] (by simp)
  have hlines : List.Forall₂ Spells
      ((items.map (printAt (level + 1))).map (·.toList)) (items.map tree) := by
    simpa [List.forall₂_same] using h
  obtain ⟨texts, htexts, heq⟩ := exists_parts_of_lines
    (fun _ _ h => h.layout_left (isSpace_lineStart (level + 1)))
    (fun _ _ h => h.layout_right (isSpace_lineStart level)) hlines (by simpa using hempty)
  obtain ⟨parts, rfl, htrees, hparts⟩ := exists_parts_of_forall₂ htexts
  have nonempty : parts ≠ [] := by
    rintro rfl
    exact hempty (by simpa using htrees.symm)
  rw [toList_block _ _ _ (by simpa using hempty), heq, ← htrees]
  exact .array parts nonempty hparts

theorem spells_object (level : Nat) {members : List (String × Json)}
    (h : ∀ member ∈ members, Spells (printAt (level + 1) member.2).toList member.2.tree) :
    Spells (printAt level (object members)).toList (object members).tree := by
  rw [printAt, tree, printMembers_eq_map, treesOfMembers_eq_map]
  by_cases hempty : members = []
  · subst hempty
    rw [List.map_nil, List.map_nil, toList_block_nil]
    exact @Spells.emptyObject [] (by simp)
  have hmember : ∀ member ∈ members, SpellsMember
      (printString member.1 ++ ": " ++ printAt (level + 1) member.2).toList
      (member.1, member.2.tree) := by
    intro member hmember
    have hvalue : Spells (' ' :: (printAt (level + 1) member.2).toList) member.2.tree :=
      .before rfl (h member hmember)
    have hkey := spellsString_printString member.1
    simpa using SpellsMember.of_spells hkey hvalue
  have hlines : List.Forall₂ SpellsMember
      ((members.map fun member => printString member.1 ++ ": " ++
        printAt (level + 1) member.2).map (·.toList))
      (members.map fun member => (member.1, member.2.tree)) := by
    simpa [List.forall₂_same] using hmember
  obtain ⟨texts, htexts, heq⟩ := exists_parts_of_lines
    (fun _ _ h => h.layout_left (isSpace_lineStart (level + 1)))
    (fun _ _ h => h.layout_right (isSpace_lineStart level)) hlines (by simpa using hempty)
  obtain ⟨parts, rfl, htrees, hkeys, hvalues⟩ := exists_memberTexts htexts
  have nonempty : parts ≠ [] := by
    rintro rfl
    exact hempty (by simpa using htrees.symm)
  rw [toList_block _ _ _ (by simpa using hempty), heq, ← htrees]
  exact .object parts nonempty hkeys hvalues

/-- Whatever level it is printed at, the text of a document without numbers spells the document. -/
theorem Numberless.spells {document : Json} (h : document.Numberless) (level : Nat) :
    Spells (printAt level document).toList document.tree := by
  induction h generalizing level with
  | null => exact .null
  | bool b =>
    cases b with
    | true => exact .true
    | false => exact .false
  | string text => exact .string (spellsString_printString text)
  | array _ ih => exact spells_array level fun item hitem => ih item hitem (level + 1)
  | object _ ih => exact spells_object level fun member hmember => ih member hmember (level + 1)

end Json

end AttributeExpr
