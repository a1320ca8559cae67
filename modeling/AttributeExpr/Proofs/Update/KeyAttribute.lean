import AttributeExpr.Proofs.Placeholder.Mention
import AttributeExpr.Proofs.Update.RoundTrip
import AttributeExpr.Proofs.Update.Solid
import AttributeExpr.Proofs.Update.Target
import AttributeExpr.Update.Compile
import Mathlib
/-!
Keys are never updated. The attributes that a request changes are read off the request itself: its
expression falls into actions at the commas outside of parentheses, and the first placeholder of an
action stands for the name of the attribute. None of these names is that of a key, and an update
that would change a key is refused.
-/
namespace AttributeExpr

namespace CompiledExpression

/-! Reading the actions of a clause. -/

/-- The number of open parentheses behind a character. -/
def depthAfter (depth : Nat) (c : Char) : Nat :=
  if c = '(' then depth + 1 else if c = ')' then depth - 1 else depth

/-- The parts of a text between the commas that stand outside of parentheses. The beginning of the
first part, which has been read, is given backwards. -/
def outerParts (depth : Nat) (read : List Char) : List Char → List (List Char)
  | [] => [read.reverse]
  | c :: rest =>
    if c = ',' ∧ depth = 0 then read.reverse :: outerParts 0 [] rest
    else outerParts (depthAfter depth c) (c :: read) rest

/-- The first placeholder of each action of a clause. -/
def targets (expression : String) : List (Option String) :=
  (outerParts 0 [] expression.toList).map fun part => (placeholders part).head?

example : targets "SET #p0 = list_append(:v0, #p1), #p2[1].#p0 = :v1" =
    [some "#p0", some "#p2"] := by
  cbv

/-- The text is read as a whole wherever it stands. -/
def Enclosed (text : List Char) : Prop :=
  ∀ ⦃depth : Nat⦄ ⦃read rest : List Char⦄,
    outerParts depth read (text ++ rest) = outerParts depth (text.reverse ++ read) rest

variable {a b : List Char}

theorem Enclosed.append (ha : Enclosed a) (hb : Enclosed b) : Enclosed (a ++ b) := by
  intro depth read rest
  rw [List.append_assoc, ha, hb, List.reverse_append, List.append_assoc]

theorem enclosed_plain (h : ∀ c ∈ a, c ≠ ',' ∧ c ≠ '(' ∧ c ≠ ')') : Enclosed a := by
  intro depth read rest
  induction a generalizing read with
  | nil => rfl
  | cons c a ih =>
    obtain ⟨⟨hcomma, hopening, hclosing⟩, ha⟩ := List.forall_mem_cons.mp h
    rw [List.cons_append, outerParts, if_neg (fun hc => hcomma hc.1), depthAfter,
      if_neg hopening, if_neg hclosing, ih ha]
    simp

/-- The comma between the arguments of a call stands inside of its parentheses. -/
theorem Enclosed.call {name : List Char} (hname : Enclosed name) (ha : Enclosed a)
    (hb : Enclosed b) : Enclosed (name ++ '(' :: (a ++ ',' :: (b ++ [')']))) := by
  intro depth read rest
  simp only [List.append_assoc, List.cons_append, List.nil_append]
  rw [hname, outerParts, if_neg (by simp)]
  show outerParts (depth + 1) _ _ = _
  rw [ha, outerParts, if_neg (by simp)]
  show outerParts (depth + 1) _ _ = _
  rw [hb, outerParts, if_neg (by simp)]
  show outerParts depth _ _ = _
  simp

/-- Parts between commas are told apart again. -/
theorem outerParts_intercalate {texts : List String} (h : ∀ text ∈ texts, Enclosed text.toList)
    {first : String} (hfirst : Enclosed first.toList) (read : List Char) :
    outerParts 0 read (", ".intercalate (first :: texts)).toList =
      (read.reverse ++ first.toList) :: texts.map fun text => ' ' :: text.toList := by
  induction texts generalizing first read with
  | nil =>
    have hread := @hfirst 0 read []
    simpa [outerParts] using hread
  | cons second texts ih =>
    obtain ⟨hsecond, htexts⟩ := List.forall_mem_cons.mp h
    have hcons : (", ".intercalate (first :: second :: texts)).toList =
        first.toList ++ ',' :: ' ' :: (", ".intercalate (second :: texts)).toList := by
      simp [String.toList_intercalate]
    rw [hcons, hfirst, outerParts, if_pos ⟨rfl, rfl⟩, outerParts, if_neg (by simp)]
    show _ :: outerParts 0 [' '] _ = _
    rw [ih htexts hsecond, List.reverse_append, List.reverse_reverse]
    rfl

theorem placeholders_plain_append (h : ∀ c ∈ a, IsPlain c) :
    placeholders (a ++ b) = placeholders b := by
  induction a with
  | nil => rfl
  | cons c a ih =>
    obtain ⟨hc, ha⟩ := List.forall_mem_cons.mp h
    rw [List.cons_append, placeholders_plain hc, ih ha]

theorem targets_clause (clause : Clause) {texts : List String} (nonempty : texts ≠ [])
    (h : ∀ text ∈ texts, Enclosed text.toList) :
    targets (clause.keyword ++ " " ++ ", ".intercalate texts) =
      texts.map fun text => (placeholders text.toList).head? := by
  obtain ⟨first, texts, rfl⟩ := List.exists_cons_of_ne_nil nonempty
  obtain ⟨hfirst, htexts⟩ := List.forall_mem_cons.mp h
  have henclosed : Enclosed (clause.keyword ++ " ").toList :=
    enclosed_plain (by cases clause <;> simp [Clause.keyword])
  have hplain : ∀ c ∈ (clause.keyword ++ " ").toList, IsPlain c := by
    cases clause <;> simp [Clause.keyword, IsPlain]
  rw [targets, String.toList_append, henclosed, List.append_nil,
    outerParts_intercalate htexts hfirst, List.map_cons, List.map_map, List.reverse_reverse,
    placeholders_plain_append hplain, List.map_cons]
  congr 1
  refine List.map_congr_left fun text _ => ?_
  rw [Function.comp_apply, placeholders_plain (by simp [IsPlain])]

end CompiledExpression

namespace Update

open CompiledExpression (Enclosed enclosed_plain placeholders targets)
open PlaceholderTable (Coherent)

variable {numeral : String → Prop} {table : PlaceholderTable} {text : String}

/-! Compiled actions are read as a whole, and begin with the reference to the attribute. -/

theorem Solid.enclosed (h : Solid text) : Enclosed text.toList := by
  refine enclosed_plain fun c hc => ?_
  have hsolid := h c hc
  simp only [isSolid, Bool.not_eq_true', Bool.or_eq_false_iff, decide_eq_false_iff_not] at hsolid
  exact ⟨hsolid.1.1.2, hsolid.1.2, hsolid.2⟩

theorem WrittenFormula.enclosed (coherent : Coherent numeral table) {formula : Formula}
    (h : WrittenFormula table formula text) : Enclosed text.toList := by
  have hcall {name first second : String} (hname : Enclosed name.toList)
      (hfirst : Enclosed first.toList) (hsecond : Enclosed second.toList) :
      Enclosed (name ++ "(" ++ first ++ ", " ++ second ++ ")").toList := by
    have hblank : Enclosed [' '] := enclosed_plain (by simp)
    simpa using hname.call hfirst (hblank.append hsecond)
  induction h with
  | literal held => exact (solid_of_holdsValue coherent held).enclosed
  | path written => exact (written.solid coherent).enclosed
  | @arithmetic op _ _ _ _ _ _ ih ih' =>
    have hop : Enclosed (" " ++ op.text ++ " ").toList :=
      enclosed_plain (by cases op <;> simp [ArithmeticOp.text])
    simpa using ih.append (hop.append ih')
  | listAppend _ _ ih ih' =>
    exact @hcall "list_append" _ _ (enclosed_plain (by simp)) ih ih'
  | ifNotExists written _ ih =>
    exact @hcall "if_not_exists" _ _ (enclosed_plain (by simp)) (written.solid coherent).enclosed ih

theorem WrittenAction.enclosed (coherent : Coherent numeral table) {action : Action}
    (h : WrittenAction table action text) : Enclosed text.toList := by
  cases h with
  | set written written' =>
    have hsign : Enclosed " = ".toList := enclosed_plain (by simp)
    simpa using (written.solid coherent).enclosed.append
      (hsign.append (written'.enclosed coherent))
  | remove written => exact (written.solid coherent).enclosed

theorem WrittenPath.head?_placeholders (coherent : Coherent numeral table) {path : Path}
    (h : WrittenPath table path text) {rest : List Char} (stops : Stops Numeral.isDigit rest) :
    ∃ name segments ref, path = .name name :: segments ∧ table.HoldsName name ref ∧
      (placeholders (text.toList ++ rest)).head? = some ref := by
  cases h with
  | @path name ref text segments held further =>
    obtain ⟨n, rfl⟩ := coherent.eq_nameRef held
    have hplaceholder : CompiledExpression.placeholder?
        ((PlaceholderTable.nameRef n).toList ++ (text.toList ++ rest)) = some (_, _) :=
      CompiledExpression.placeholder?_numbered (fun _ => rfl) n (further.stops.append stops)
    refine ⟨name, segments, _, rfl, held, ?_⟩
    rw [String.toList_append, List.append_assoc,
      CompiledExpression.placeholders_of_placeholder? hplaceholder]
    rfl

/-- The first placeholder of an action stands for the name of the attribute that it changes. -/
theorem WrittenAction.head?_placeholders (coherent : Coherent numeral table) {action : Action}
    (h : WrittenAction table action text) :
    ∃ ref name, (placeholders text.toList).head? = some ref ∧ table.HoldsName name ref ∧
      topName? action = some name := by
  cases h with
  | @set _ _ first second written written' =>
    have hstops : Stops Numeral.isDigit (" = ".toList ++ second.toList) := by
      simp [Numeral.isDigit]
    obtain ⟨name, segments, ref, rfl, held, hhead⟩ := written.head?_placeholders coherent hstops
    exact ⟨ref, name, by simpa using hhead, held, rfl⟩
  | remove written =>
    obtain ⟨name, segments, ref, rfl, held, hhead⟩ :=
      written.head?_placeholders coherent (stops_nil _)
    exact ⟨ref, name, by simpa using hhead, held, rfl⟩

/-! Requests. -/

/-- The parameters for a text of one clause. -/
def parametersOf (clause : Clause) (keys : List String) (text : String) :
    Except Failure (Dictionary Json) :=
  match clause with
  | .set => parameters keys (some text) none
  | .remove => parameters keys none (some text)

/-- The name that a placeholder of a request stands for. -/
def nameOf? (names : Dictionary Json) (ref : Option String) : Option String :=
  match ref.bind (Dictionary.get? names) with
  | some (.string name) => some name
  | _ => none

/-- The attributes that a request changes: for each action of its expression, the name that the
first placeholder stands for. -/
def changedNames (request : Dictionary Json) : List (Option String) :=
  match Dictionary.get? request "UpdateExpression",
      Dictionary.get? request "ExpressionAttributeNames" with
  | some (.string expression), some (.object names) => (targets expression).map (nameOf? names)
  | _, _ => []

theorem get?_parameters (compiled : CompiledExpression) :
    Dictionary.get? (compiled.parameters "UpdateExpression") "UpdateExpression" =
        some (.string compiled.expression) ∧
      (compiled.names ≠ [] →
        Dictionary.get? (compiled.parameters "UpdateExpression") "ExpressionAttributeNames" =
          some (.object (compiled.names.map fun (ref, name) => (ref, .string name)))) := by
  obtain ⟨expression, names, values⟩ := compiled
  cases names <;> cases values <;> exact ⟨rfl, fun h => by first | rfl | contradiction⟩

theorem WrittenAction.nameOf? (coherent : Coherent numeral table) {action : Action}
    (h : WrittenAction table action text) :
    Update.nameOf? (table.names.map fun (ref, name) => (ref, .string name))
      (placeholders text.toList).head? = topName? action := by
  obtain ⟨ref, name, hhead, held, hname⟩ := h.head?_placeholders coherent
  have hnodup : ((table.names.map fun (ref, name) => (ref, Json.string name)).map (·.1)).Nodup := by
    simpa [Function.comp_def] using coherent.nodup_names
  have hget := (Dictionary.get?_eq_some_iff hnodup).mpr (List.mem_map_of_mem held)
  rw [Update.nameOf?, hhead, Option.bind_some, hget, hname]

/-- The names for the texts of actions, in the order of the actions. -/
theorem map_nameOf?_of_written (coherent : Coherent numeral table) {actions : List Action}
    {texts : List String} (written : List.Forall₂ (WrittenAction table) actions texts) :
    (texts.map fun text => (placeholders text.toList).head?).map
        (Update.nameOf? (table.names.map fun (ref, name) => (ref, .string name))) =
      actions.map topName? := by
  induction written with
  | nil => rfl
  | cons first _ ih => rw [List.map_cons, List.map_cons, first.nameOf? coherent, ih, List.map_cons]

/-- What is read off a compiled clause are the attributes that its actions change. -/
theorem changedNames_of_compile {clause : Clause} {keys : List String} {actions : List Action}
    {compiled : CompiledExpression} (nonempty : actions ≠ [])
    (sound : ∀ action ∈ actions, ∀ value ∈ action.literals, value.WellFormed numeral)
    (hcompile : (compile clause keys actions).onEmptyTable = .ok compiled) :
    changedNames (compiled.parameters "UpdateExpression") = actions.map topName? := by
  obtain ⟨table, texts, coherent, written, rfl⟩ := written_of_compile sound hcompile
  have hnames : table.names ≠ [] := by
    cases written with
    | nil => contradiction
    | cons first _ =>
      obtain ⟨_, _, -, held, -⟩ := first.head?_placeholders coherent
      exact List.ne_nil_of_mem held
  have htexts : texts ≠ [] := by
    rintro rfl
    exact nonempty (List.forall₂_nil_right_iff.mp written)
  have henclosed : ∀ text ∈ texts, Enclosed text.toList := by
    intro text htext
    obtain ⟨action, -, hwritten⟩ := exists_of_mem_forall₂ written.flip htext
    exact hwritten.enclosed coherent
  obtain ⟨hexpression, hobject⟩ := get?_parameters
    (table.compiled (clause.keyword ++ " " ++ ", ".intercalate texts))
  rw [changedNames, hexpression, hobject hnames]
  show (targets (clause.keyword ++ " " ++ ", ".intercalate texts)).map
    (Update.nameOf? (table.names.map fun (ref, name) => (ref, .string name))) = _
  rw [CompiledExpression.targets_clause clause htexts henclosed,
    map_nameOf?_of_written coherent written]

theorem parametersOf_eq (clause : Clause) (keys : List String) (text : String) :
    parametersOf clause keys text = (do
      let actions ← parse clause text
      let compiled ← (compile clause keys actions).onEmptyTable
      return compiled.parameters "UpdateExpression") := by
  cases clause <;> rfl

/-- An update that is accepted changes no attribute that is a key, and the names of all attributes
that it changes can be read off the request. An update that would change a key is refused for it. -/
theorem changedNames_not_keys (clause : Clause) (keys : List String) (text : String) :
    (∀ request, parametersOf clause keys text = .ok request →
        ∃ (actions : List Action) (names : List String), parse clause text = .ok actions ∧
          actions.map topName? = names.map some ∧ changedNames request = names.map some ∧
          ∀ name ∈ names, name ∉ keys) ∧
      ∀ actions, parse clause text = .ok actions →
        (∃ action ∈ actions, ∃ name ∈ keys, topName? action = some name) →
          ∃ path, ∃ name ∈ keys, parametersOf clause keys text =
            .error (.refused (.semantic (.keyAttribute clause path name))) := by
  rw [parametersOf_eq]
  constructor
  · intro request hrequest
    obtain ⟨actions, hparsed, hrequest⟩ := bind_eq_ok_iff.mp hrequest
    obtain ⟨compiled, hcompiled, hrequest⟩ := bind_eq_ok_iff.mp hrequest
    obtain rfl := Except.ok.inj hrequest
    obtain ⟨nonempty, belongs⟩ := belongs_of_parse hparsed
    have free := (checkActions_eq_ok_iff nonempty belongs).mp (checkActions_of_compile hcompiled)
    have hchanged := changedNames_of_compile nonempty (literals_of_parse hparsed) hcompiled
    obtain ⟨names, hnames⟩ := exists_map_topName? belongs
    refine ⟨actions, names, hparsed, hnames, hchanged.trans hnames, ?_⟩
    intro name hname
    have hmem : some name ∈ actions.map topName? := hnames ▸ List.mem_map_of_mem hname
    obtain ⟨action, haction, htop⟩ := List.mem_map.mp hmem
    exact free action haction name htop
  · rintro actions hparsed ⟨action, haction, name, hkey, hname⟩
    obtain ⟨nonempty, belongs⟩ := belongs_of_parse hparsed
    cases hcheck : checkActions clause keys actions with
    | ok _ =>
      have free := (checkActions_eq_ok_iff nonempty belongs).mp hcheck action haction
      exact absurd hkey (free name hname)
    | error error =>
      obtain ⟨refused, -, key, hmem, -, rfl⟩ :=
        keyAttribute_of_checkActions nonempty belongs hcheck
      refine ⟨refused.target.text, key, hmem, ?_⟩
      rw [hparsed]
      show (compile clause keys actions).onEmptyTable >>= _ = _
      rw [onEmptyTable_compile_of_unchecked hcheck]
      rfl

set_option maxRecDepth 4000 in
/-- A backquote that belongs to a name is doubled, and a keyword in backquotes is a name. -/
theorem changedNames_not_keys_quoted :
    let text := "`i``d`.x,`set`[0]"
    let request : Dictionary Json := [
      ("UpdateExpression", .string "REMOVE #p0.#p1, #p2[0]"),
      ("ExpressionAttributeNames", .object [("#p0", .string "i`d"), ("#p1", .string "x"),
        ("#p2", .string "set")])]
    parametersOf .remove ["id", "x"] text = .ok request ∧
      changedNames request = [some "i`d", some "set"] ∧
      (∃ names : List String, changedNames request = names.map some ∧
        ∀ name ∈ names, name ∉ ["id", "x"]) ∧
      ∃ path, ∃ name ∈ ["set"], parametersOf .remove ["set"] text =
        .error (.refused (.semantic (.keyAttribute .remove path name))) := by
  intro text request
  have haccepted : parametersOf .remove ["id", "x"] text = .ok request := by cbv
  have hparsed : parse .remove text = .ok [
      .remove [.name "i`d", .name "x"], .remove [.name "set", .index 0]] := by cbv
  have hread : changedNames request = [some "i`d", some "set"] := by cbv
  obtain ⟨_, names, -, -, hnames, free⟩ :=
    (changedNames_not_keys .remove ["id", "x"] text).1 _ haccepted
  exact ⟨haccepted, hread, ⟨names, hnames, free⟩,
    (changedNames_not_keys .remove ["set"] text).2 _ hparsed
      ⟨_, List.mem_of_getLast? rfl, "set", List.mem_singleton_self _, rfl⟩⟩

end Update

end AttributeExpr
