import AttributeExpr.Proofs.CommandLine.Failure
import AttributeExpr.Proofs.JsonText.Printer
import AttributeExpr.Proofs.Placeholder.KeyCondition
import AttributeExpr.Proofs.Update.Written
import Mathlib
/-!
How a run ends. The parameters of a command hold no numbers, since numbers travel as texts, so what
is printed is a JSON text. A run that does not print its parameters reports why, unless it has one
of the inputs without a result.
-/
namespace AttributeExpr

open Json (Numberless)

/-! Encoded values. -/

namespace Value

theorem numberless_envelope (type : AttributeType) {payload : Json} (h : payload.Numberless) :
    (envelope type payload).Numberless :=
  .object (by simpa using h)

theorem numberless_strings (texts : List String) :
    (Json.array (texts.map .string)).Numberless :=
  .array (List.forall_mem_map.mpr fun text _ => .string text)

mutual

theorem numberless_of_toWire : ∀ {value : Value} {document : Json},
    toWire value = .ok document → document.Numberless
  | null, _, h => by
    obtain rfl := Except.ok.inj h
    exact numberless_envelope _ (.bool true)
  | bool b, _, h => by
    obtain rfl := Except.ok.inj h
    exact numberless_envelope _ (.bool b)
  | string text, _, h => by
    obtain rfl := Except.ok.inj h
    exact numberless_envelope _ (.string text)
  | binary bytes, _, h => by
    obtain rfl := Except.ok.inj h
    exact numberless_envelope _ (.string _)
  | number text, _, h => by
    obtain ⟨_, -, rfl⟩ := map_eq_ok_iff.mp h
    exact numberless_envelope _ (.string text)
  | list items, _, h => by
    obtain ⟨documents, hdocuments, rfl⟩ := map_eq_ok_iff.mp h
    exact numberless_envelope _ (.array (numberless_of_itemsToWire hdocuments))
  | map entries, _, h => by
    obtain ⟨members, hmembers, rfl⟩ := map_eq_ok_iff.mp h
    refine numberless_envelope _ (.object fun member hmember => ?_)
    exact numberless_of_entriesToWire hmembers member
      (Dictionary.mem_of_mem_ofEntries member hmember)
  | numberSet elements, _, h => by
    obtain ⟨_, -, rfl⟩ := map_eq_ok_iff.mp h
    exact numberless_envelope _ (numberless_strings elements)
  | stringSet elements, _, h => by
    obtain rfl := Except.ok.inj h
    exact numberless_envelope _ (numberless_strings elements)
  | binarySet elements, _, h => by
    obtain rfl := Except.ok.inj h
    have hstrings := numberless_strings (elements.map Base64.encodeString)
    rw [List.map_map] at hstrings
    exact numberless_envelope _ hstrings

theorem numberless_of_itemsToWire : ∀ {items : List Value} {documents : List Json},
    itemsToWire items = .ok documents → ∀ document ∈ documents, document.Numberless
  | [], _, h => by
    obtain rfl := Except.ok.inj h
    simp
  | item :: rest, _, h => by
    rw [itemsToWire] at h
    split at h
    · contradiction
    next document hdocument =>
    obtain ⟨documents, hdocuments, rfl⟩ := map_eq_ok_iff.mp h
    exact List.forall_mem_cons.mpr
      ⟨numberless_of_toWire hdocument, numberless_of_itemsToWire hdocuments⟩

theorem numberless_of_entriesToWire : ∀ {entries : List (String × Value)}
    {members : List (String × Json)},
    entriesToWire entries = .ok members → ∀ member ∈ members, member.2.Numberless
  | [], _, h => by
    obtain rfl := Except.ok.inj h
    simp
  | (key, value) :: rest, _, h => by
    rw [entriesToWire] at h
    split at h
    · contradiction
    next document hdocument =>
    obtain ⟨members, hmembers, rfl⟩ := map_eq_ok_iff.mp h
    exact List.forall_mem_cons.mpr
      ⟨numberless_of_toWire hdocument, numberless_of_entriesToWire hmembers⟩

end

theorem numberless_of_encode {value : Value} {document : Json}
    (h : value.encode = .ok document) : document.Numberless :=
  numberless_of_toWire (mapError_eq_ok_iff.mp h)

end Value

/-! The parameters of a command. -/

/-- No member of an object holds a number. -/
def NumberlessMembers (members : Dictionary Json) : Prop := ∀ member ∈ members, member.2.Numberless

theorem NumberlessMembers.insert {members : Dictionary Json} (h : NumberlessMembers members)
    (key : String) {value : Json} (hvalue : value.Numberless) :
    NumberlessMembers (Dictionary.insert members key value) := by
  intro member hmember
  rcases Dictionary.mem_of_mem_insert hmember with hmember | rfl
  · exact h member hmember
  · exact hvalue

theorem numberlessMembers_ofEntries {entries : Dictionary Json} (h : NumberlessMembers entries) :
    NumberlessMembers (Dictionary.ofEntries entries) :=
  fun member hmember => h member (Dictionary.mem_of_mem_ofEntries member hmember)

theorem numberlessMembers_singleton (key : String) {value : Json} (h : value.Numberless) :
    NumberlessMembers [(key, value)] :=
  List.forall_mem_singleton.mpr h

theorem numberless_names (names : List (String × String)) :
    (Json.object (names.map fun (ref, name) => (ref, Json.string name))).Numberless :=
  .object (List.forall_mem_map.mpr fun (_, name) _ => .string name)

theorem numberlessMembers_buildKey {schema : KeySchema} {partitionText : String}
    {sortText : Option String} {key : Dictionary Json}
    (h : buildKey schema partitionText sortText = .ok key) : NumberlessMembers key := by
  obtain ⟨value, -, h⟩ := bind_eq_ok_iff.mp h
  obtain ⟨partition, hpartition, h⟩ := bind_eq_ok_iff.mp h
  have hmember := numberlessMembers_singleton schema.partition.name
    (Value.numberless_of_encode hpartition)
  split at h
  · obtain rfl := Except.ok.inj h
    exact hmember
  · contradiction
  · contradiction
  · obtain ⟨value', -, h⟩ := bind_eq_ok_iff.mp h
    obtain ⟨sort, hsort, h⟩ := bind_eq_ok_iff.mp h
    obtain rfl := Except.ok.inj h
    exact hmember.insert _ (Value.numberless_of_encode hsort)

theorem numberlessMembers_addEntries {item result : Dictionary Json}
    {entries : List (String × Value)} (hitem : NumberlessMembers item)
    (h : addEntries item entries = .ok result) : NumberlessMembers result := by
  induction entries generalizing item with
  | nil =>
    obtain rfl := Except.ok.inj h
    exact hitem
  | cons entry entries ih =>
    obtain ⟨name, value⟩ := entry
    rw [addEntries] at h
    obtain ⟨document, hdocument, h⟩ := bind_eq_ok_iff.mp h
    have hnext := hitem.insert name (Value.numberless_of_encode hdocument)
    split at h
    · split_ifs at h
      · contradiction
      · exact ih hnext h
    · exact ih hnext h

theorem numberlessMembers_buildItem {inferring : Bool} {schema : KeySchema}
    {partitionText : String} {sortText body : Option String} {item : Dictionary Json}
    (h : buildItem inferring schema partitionText sortText body = .ok item) :
    NumberlessMembers item := by
  obtain ⟨key, hkey, h⟩ := bind_eq_ok_iff.mp h
  have hmembers := numberlessMembers_buildKey hkey
  split at h
  · obtain rfl := Except.ok.inj h
    exact hmembers
  · obtain rfl := Except.ok.inj h
    exact hmembers
  · obtain ⟨entries, -, h⟩ := bind_eq_ok_iff.mp h
    exact numberlessMembers_addEntries hmembers h

theorem numberlessMembers_unless {c : Prop} [Decidable c] {members : Dictionary Json}
    (h : NumberlessMembers members) : NumberlessMembers (if c then [] else members) := by
  split
  · exact List.forall_mem_nil _
  · exact h

theorem numberlessMembers_parameters {compiled : CompiledExpression}
    (h : NumberlessMembers compiled.values) (key : String) :
    NumberlessMembers (compiled.parameters key) := by
  have hnames := numberlessMembers_singleton "ExpressionAttributeNames"
    (numberless_names compiled.names)
  have hvalues := numberlessMembers_singleton "ExpressionAttributeValues" (Numberless.object h)
  have hexpression := numberlessMembers_singleton key (.string compiled.expression)
  apply numberlessMembers_ofEntries
  exact List.forall_mem_append.mpr ⟨List.forall_mem_append.mpr
    ⟨hexpression, numberlessMembers_unless hnames⟩, numberlessMembers_unless hvalues⟩

/-- The values beside an expression are encodings, which the table keeps with the values. -/
theorem numberlessMembers_compiled {numeral : String → Prop} {table : PlaceholderTable}
    (coherent : table.Coherent numeral) (expression : String) :
    NumberlessMembers (table.compiled expression).values := by
  have hwires : ∀ entry ∈ table.values, (entry.ref, entry.wire).2.Numberless := by
    intro entry hentry
    exact Value.numberless_of_encode (coherent.encodes entry hentry)
  exact List.forall_mem_map.mpr hwires

theorem Update.numberlessMembers_compile {clause : Clause} {keys : List String}
    {actions : List Action} {compiled : CompiledExpression}
    (sound : ∀ action ∈ actions, ∀ value ∈ action.literals,
      value.WellFormed fun text => Numeral.Signed text.toList)
    (h : (compile clause keys actions).onEmptyTable = .ok compiled) :
    NumberlessMembers compiled.values := by
  obtain ⟨table, texts, coherent, -, rfl⟩ := written_of_compile sound h
  exact numberlessMembers_compiled coherent _

theorem Update.numberlessMembers_parameters {keys : List String}
    {setText removeText : Option String} {result : Dictionary Json}
    (h : parameters keys setText removeText = .ok result) : NumberlessMembers result := by
  unfold parameters at h
  dsimp only at h
  split at h
  · obtain ⟨actions, hactions, h⟩ := bind_eq_ok_iff.mp h
    obtain ⟨compiled, hcompile, h⟩ := bind_eq_ok_iff.mp h
    obtain rfl := Except.ok.inj h
    exact AttributeExpr.numberlessMembers_parameters
      (numberlessMembers_compile (@literals_of_parse .set _ _ hactions) hcompile) _
  · obtain ⟨actions, hactions, h⟩ := bind_eq_ok_iff.mp h
    obtain ⟨compiled, hcompile, h⟩ := bind_eq_ok_iff.mp h
    obtain rfl := Except.ok.inj h
    exact AttributeExpr.numberlessMembers_parameters
      (numberlessMembers_compile (@literals_of_parse .remove _ _ hactions) hcompile) _
  · contradiction

theorem numberlessMembers_keyCondition {strict : Bool} {schema : KeySchema}
    {partitionText : String} {sortText : Option String} {compiled : CompiledExpression}
    (h : (compileKeyCondition strict schema partitionText sortText).onEmptyTable = .ok compiled) :
    NumberlessMembers compiled.values := by
  obtain ⟨table, _, _, _, _, coherent, -, -, rfl⟩ := written_of_compileKeyCondition h
  exact numberlessMembers_compiled coherent _

namespace CommandLine

theorem numberlessMembers_query {strict : Bool} {target : Target}
    {condition attributes : Option String} {keysOnly : Bool} {result : Dictionary Json}
    (h : queryParameters strict target condition attributes keysOnly = .ok result) :
    NumberlessMembers result := by
  obtain ⟨⟨compiled, projection⟩, hboth, h⟩ := bind_eq_ok_iff.mp h
  obtain ⟨table, hrun⟩ := Compiling.run_of_onEmptyTable hboth
  obtain ⟨condition, between, hcondition, hrun⟩ := Compiling.run_bind_eq_ok hrun
  obtain ⟨projection, after, -, hrun⟩ := Compiling.run_bind_eq_ok hrun
  cases hrun
  have hvalues := numberlessMembers_keyCondition (congrArg Prod.fst hcondition)
  have hparameters := numberlessMembers_parameters hvalues "KeyConditionExpression"
  cases projection with
  | none =>
    obtain rfl := Except.ok.inj h
    exact hparameters
  | some projection =>
    obtain rfl := Except.ok.inj h
    exact (hparameters.insert _ (.string _)).insert _ (numberless_names projection.names)

theorem numberlessMembers_command {config : ConfigFile} {command : Command}
    {parameters : Dictionary Json} (h : command.parameters config = .ok parameters) :
    NumberlessMembers parameters := by
  cases command with
  | item target body inferSets =>
    obtain ⟨item, hitem, h⟩ := bind_eq_ok_iff.mp h
    obtain rfl := Except.ok.inj h
    exact numberlessMembers_singleton _ (.object (numberlessMembers_buildItem hitem))
  | update target setText removeText counter =>
    unfold Command.parameters updateParameters at h
    dsimp only at h
    split at h
    · contradiction
    · obtain ⟨key, hkey, h⟩ := bind_eq_ok_iff.mp h
      obtain ⟨update, hupdate, h⟩ := bind_eq_ok_iff.mp h
      obtain rfl := Except.ok.inj h
      apply numberlessMembers_ofEntries
      exact List.forall_mem_cons.mpr ⟨.object (numberlessMembers_buildKey hkey),
        Update.numberlessMembers_parameters hupdate⟩
  | query target condition strict lenient attributes keysOnly =>
    obtain ⟨settings, -, h⟩ := bind_eq_ok_iff.mp h
    obtain ⟨policy, -, h⟩ := bind_eq_ok_iff.mp h
    exact numberlessMembers_query h

/-- The two ways in which a run ends: either it prints the parameters of the command as one JSON
text and nothing else, or it prints nothing and reports what kept the command from them. -/
inductive Ends (config : ConfigFile) (command : Command) : Outcome → Prop
  | printed {parameters : Dictionary Json} {output : String}
      (h : command.parameters config = .ok parameters)
      (spells : JsonText.Spells output.toList (Json.object parameters).tree) :
      Ends config command ⟨0, output, ""⟩
  | reported {failure : Failure} (h : command.parameters config = .error failure) :
      Ends config command ⟨1, "", "Error: " ++ failure.message ++ "\n"⟩

theorem spells_printed {parameters : Dictionary Json} (h : NumberlessMembers parameters) :
    JsonText.Spells ((Json.object parameters).print ++ "\n").toList
      (Json.object parameters).tree := by
  have hspells := (Numberless.object h).spells 0
  rw [String.toList_append]
  exact hspells.layout_right (by simp [JsonText.isSpace])

/-- Every run ends in one of the two ways, unless one of the texts that the command reads keeps it
from its parameters and is not reported. -/
theorem run_ends (config : ConfigFile) (command : Command) :
    (∃ outcome, command.run config = .ok outcome ∧ Ends config command outcome) ∨
      ∃ failure, command.run config = .error failure ∧ Unreported config command failure := by
  unfold Command.run
  cases hparameters : command.parameters config with
  | ok parameters =>
    have hspells := spells_printed (numberlessMembers_command hparameters)
    exact .inl ⟨_, rfl, .printed hparameters hspells⟩
  | error failure =>
    cases failsOnly_parameters config command failure hparameters with
    | refused error => exact .inl ⟨_, rfl, .reported hparameters⟩
    | unreadableFile path reason => exact .inl ⟨_, rfl, .reported hparameters⟩
    | unreported h => exact .inr ⟨failure, by cases h <;> rfl, h⟩

/-- The text of a binary partition key in which a character is not ASCII is not reported. -/
theorem run_item_nonAscii (config : ConfigFile) {target : Target} (body : Option String)
    (inferSets : Bool)
    (h : IsNonAsciiKey (target.schema.partition.type, target.partitionText)) :
    (Command.item target body inferSets).run config = .error .nonAsciiBase64 := by
  have hkey : buildKey target.schema target.partitionText target.sortText =
      .error .nonAsciiBase64 := by
    have hvalue := Key.valueOf_nonAscii h
    dsimp only at hvalue
    rw [buildKey, hvalue]
    rfl
  have hparameters : (Command.item target body inferSets).parameters config =
      .error .nonAsciiBase64 := by
    show itemParameters target body inferSets = _
    rw [itemParameters, buildItem, hkey]
    rfl
  rw [Command.run, hparameters]

/-- Some command line leads to a run that ends in neither way. -/
theorem not_run_ends :
    let command : Command := .item ⟨⟨⟨"id", .binary⟩, none⟩, "é", none⟩ none false
    Invocation.parse ["item", "--schema", "id:B", "é"] = .ok ⟨none, command⟩ ∧
      ¬ ∃ outcome, command.run ⟨"", .missing⟩ = .ok outcome := by
  intro command
  have hkey : IsNonAsciiKey (.binary, "é") := ⟨rfl, 'é', List.mem_singleton_self _, by decide⟩
  have hrun : command.run ⟨"", .missing⟩ = .error .nonAsciiBase64 :=
    run_item_nonAscii _ none false hkey
  refine ⟨rfl, ?_⟩
  rw [hrun]
  rintro ⟨outcome, h⟩
  contradiction

end CommandLine

end AttributeExpr
