import AttributeExpr.CommandLine.Run
import AttributeExpr.Proofs.Provenance
import AttributeExpr.Proofs.Refusal
import AttributeExpr.Proofs.Update.Counter
import Mathlib
/-!
What may keep a command from its parameters. Beside what is reported there are four kinds of
inputs without a result: the text of a binary key with a character outside ASCII, a number in the
literals of an item or of an assignment that denotes no decimal number, a position in a path of an
update with too many digits, and for queries a configuration with a scalar that does not convert.
-/
namespace AttributeExpr

/-! Keys and items. -/

/-- The text of a binary key that has a character outside ASCII. -/
def IsNonAsciiKey (part : AttributeType × String) : Prop :=
  part.1 = .binary ∧ ∃ c ∈ part.2.toList, 128 ≤ c.toNat

theorem Key.valueOf_nonAscii {part : AttributeType × String} (h : IsNonAsciiKey part) :
    valueOf part.1 part.2 = .error .nonAsciiBase64 := by
  rw [h.1, valueOf, Base64.decode_eq_nonAscii_iff.mpr h.2]

section

variable {p : Failure → Prop} (refused : ∀ error : ExpressionError, p (.refused error))

include refused

theorem Key.failsOnly_valueOf {part : AttributeType × String}
    (nonAscii : IsNonAsciiKey part → p .nonAsciiBase64) :
    FailsOnly p (valueOf part.1 part.2) := by
  obtain ⟨type, text⟩ := part
  cases type with
  | string => exact failsOnly_ok _
  | number =>
    dsimp only [valueOf]
    split
    · exact failsOnly_ok _
    · exact failsOnly_error (refused _)
  | binary =>
    dsimp only [valueOf]
    split
    · exact failsOnly_ok _
    · next hdecode =>
      exact failsOnly_error (nonAscii ⟨rfl, Base64.decode_eq_nonAscii_iff.mp hdecode⟩)
    · exact failsOnly_error (refused _)
  | _ => exact failsOnly_error (refused _)

theorem failsOnly_addEntries (item : Dictionary Json) (entries : List (String × Value)) :
    FailsOnly p (addEntries item entries) := by
  induction entries generalizing item with
  | nil => exact failsOnly_ok item
  | cons entry entries ih =>
    obtain ⟨name, value⟩ := entry
    rw [addEntries]
    refine (Value.failsOnly_encode refused value).bind fun envelope _ => ?_
    split
    · split_ifs
      · exact failsOnly_error (refused _)
      · exact ih _
    · exact ih _

end

namespace CommandLine

/-- The texts of an item's key, with the types of the key attributes. -/
def Target.keyTexts (target : Target) : List (AttributeType × String) :=
  (target.schema.partition.type, target.partitionText) ::
    match target.schema.sort, target.sortText with
    | some key, some text => [(key.type, text)]
    | _, _ => []

section

variable {p : Failure → Prop} (refused : ∀ error : ExpressionError, p (.refused error))

include refused

theorem failsOnly_buildKey {target : Target}
    (nonAscii : ∀ part ∈ target.keyTexts, IsNonAsciiKey part → p .nonAsciiBase64) :
    FailsOnly p (buildKey target.schema target.partitionText target.sortText) := by
  have hvalue (part : AttributeType × String) (h : part ∈ target.keyTexts) :=
    Key.failsOnly_valueOf refused (nonAscii part h)
  unfold Target.keyTexts at hvalue
  unfold buildKey
  refine (hvalue _ List.mem_cons_self).bind fun partition _ => ?_
  refine (Value.failsOnly_encode refused partition).bind fun envelope _ => ?_
  split
  · exact failsOnly_ok _
  · exact failsOnly_error (refused _)
  · exact failsOnly_error (refused _)
  · next text key htext hkey =>
    rw [htext, hkey] at hvalue
    refine (hvalue (key.type, text) (by simp)).bind fun sort _ => ?_
    exact (Value.failsOnly_encode refused sort).bind fun _ _ => failsOnly_ok _

end

end CommandLine

/-! Updates. -/

theorem IsParsingFailure.elim {p : Failure → Prop} {unreadable overlong : Prop} {failure : Failure}
    (h : IsParsingFailure unreadable overlong failure)
    (refused : ∀ error : ExpressionError, p (.refused error))
    (noDecimal : unreadable → p .noDecimal) (longIndex : overlong → p .longIndex) : p failure := by
  cases h with
  | refused error => exact refused error
  | noDecimal h => exact noDecimal h
  | longIndex h => exact longIndex h

section

variable {p : Failure → Prop} (refused : ∀ error : ExpressionError, p (.refused error))

include refused

theorem Update.failsOnly_parameters (keys : List String) {setText removeText : Option String}
    (assignments : ∀ text ∈ setText, FailsOnly p (parseSet text))
    (removals : ∀ text ∈ removeText, FailsOnly p (parseRemove text)) :
    FailsOnly p (parameters keys setText removeText) := by
  unfold parameters
  dsimp only
  split
  · next text =>
    refine (assignments text rfl).bind fun actions hactions => ?_
    have hcompile :=
      Compiling.composed_update refused .set keys (@literals_of_parse .set _ _ hactions)
    exact (hcompile.onEmptyTable refused).bind fun _ _ => failsOnly_ok _
  · next text =>
    refine (removals text rfl).bind fun actions hactions => ?_
    have hcompile :=
      Compiling.composed_update refused .remove keys (@literals_of_parse .remove _ _ hactions)
    exact (hcompile.onEmptyTable refused).bind fun _ _ => failsOnly_ok _
  · exact failsOnly_error (refused _)

/-- Nothing but refusals comes of reading a condition for a key. -/
theorem SortCondition.failsOnly_parseFor (strict : Bool) (key : Key) (text : String) :
    FailsOnly p (parseFor strict key text) := by
  have hlift {α : Type} (outcome : Except ExpressionError α) :
      FailsOnly p (liftRefusal outcome) := by
    intro failure hfailure
    obtain ⟨error, -, rfl⟩ := liftRefusal_eq_error hfailure
    exact refused error
  rcases parseFor_cases key text with ⟨condition, -, hboth⟩ | ⟨error, bare, -, -, htrue, hfalse⟩ |
    ⟨error, -, hboth⟩
  · rw [hboth]
    exact hlift _
  · cases strict with
    | true => rw [htrue]; exact failsOnly_error (refused _)
    | false => rw [hfalse]; exact hlift _
  · rw [hboth]
    exact failsOnly_error (refused _)

/-! The configuration. -/

theorem Config.failsOnly_ofSettings (scalar : ∀ fault, p (.scalar fault))
    (query strictMode : Option Yaml) : FailsOnly p (ofSettings query strictMode) := by
  unfold ofSettings
  dsimp only
  split
  · exact failsOnly_ok _
  · exact failsOnly_ok _
  · exact failsOnly_ok _
  · split_ifs
    · exact failsOnly_error (scalar _)
    · exact failsOnly_error (refused _)
  · exact failsOnly_error (refused _)

theorem Config.failsOnly_ofText (scalar : ∀ fault, p (.scalar fault)) (path text : String) :
    FailsOnly p (ofText path text) := by
  unfold ofText
  dsimp only
  split
  · exact failsOnly_ok _
  · unfold ofDocument
    dsimp only
    split
    · exact failsOnly_ok _
    · exact failsOnly_ofSettings refused scalar _ _
    · exact failsOnly_error (refused _)
  · exact failsOnly_error (refused _)
  · exact failsOnly_error (scalar _)

end

namespace CommandLine

/-- The texts of keys that a command reads, with the types of the key attributes. -/
def Command.keyTexts : Command → List (AttributeType × String)
  | .item target .. | .update target .. => target.keyTexts
  | .query target .. => [(target.schema.partition.type, target.partitionText)]

/-- The texts in which a command reads literals that may be sets. -/
def Command.literalTexts : Command → List String
  | .item _ body _ => body.toList
  | .update _ setText .. => setText.toList
  | .query .. => []

/-- The texts in which a command reads paths. -/
def Command.pathTexts : Command → List String
  | .update _ setText removeText _ => setText.toList ++ removeText.toList
  | .item .. | .query .. => []

/-- What keeps a command from its parameters without being reported, and the inputs it takes. -/
inductive Unreported (config : ConfigFile) (command : Command) : Failure → Prop
  | nonAsciiBase64 {part : AttributeType × String} (read : part ∈ command.keyTexts)
      (h : IsNonAsciiKey part) : Unreported config command .nonAsciiBase64
  | noDecimal {text : String} (read : text ∈ command.literalTexts)
      (h : HasUnreadableNumber text) : Unreported config command .noDecimal
  | longIndex {text : String} (read : text ∈ command.pathTexts)
      (h : HasOverlongNumber text) : Unreported config command .longIndex
  | scalar {text : String} {fault : ScalarFault} (read : command.readsConfig = true)
      (content : config.content = .text text)
      (h : Config.ofText config.path text = .error (.scalar fault)) :
      Unreported config command (.scalar fault)

/-- What keeps a command from its parameters. -/
inductive CommandFailure (config : ConfigFile) (command : Command) : Failure → Prop
  | refused (error : ExpressionError) : CommandFailure config command (.refused error)
  | unreadableFile (path reason : String) :
      CommandFailure config command (.unreadableFile path reason)
  | unreported {failure : Failure} (h : Unreported config command failure) :
      CommandFailure config command failure

variable {config : ConfigFile} {target : Target}

theorem failsOnly_item (body : Option String) (inferSets : Bool) :
    FailsOnly (CommandFailure config (.item target body inferSets))
      (itemParameters target body inferSets) := by
  have hkey : FailsOnly (CommandFailure config (.item target body inferSets))
      (buildKey target.schema target.partitionText target.sortText) :=
    failsOnly_buildKey .refused fun part hpart h => .unreported (.nonAsciiBase64 hpart h)
  unfold itemParameters buildItem
  refine FailsOnly.bind (hkey.bind fun key _ => ?_) fun _ _ => failsOnly_ok _
  split
  · exact failsOnly_ok _
  · exact failsOnly_ok _
  · next text _ =>
    have hparse : FailsOnly (CommandFailure config (.item target (some text) inferSets))
        (Value.parseItem inferSets text) := by
      refine (Value.failsOnly_parseItem .refused (numbers_comparable text False) inferSets).mono ?_
      intro failure h
      exact h.elim .refused (fun h => .unreported (.noDecimal (List.mem_singleton_self text) h))
        False.elim
    exact hparse.bind fun entries _ => failsOnly_addEntries .refused key entries

theorem failsOnly_update (setText removeText counter : Option String) :
    FailsOnly (CommandFailure config (.update target setText removeText counter))
      (updateParameters target setText removeText counter) := by
  have hkey : FailsOnly (CommandFailure config (.update target setText removeText counter))
      (buildKey target.schema target.partitionText target.sortText) :=
    failsOnly_buildKey .refused fun part hpart h => .unreported (.nonAsciiBase64 hpart h)
  have hremovals : ∀ text ∈ removeText,
      FailsOnly (CommandFailure config (.update target setText removeText counter))
        (Update.parseRemove text) := by
    rintro text rfl
    refine (Update.failsOnly_parseRemove .refused (numbers_indexes text False)).mono ?_
    intro failure h
    exact h.elim .refused False.elim fun h =>
      .unreported (.longIndex (List.mem_append_right _ (List.mem_singleton_self text)) h)
  have hassignments : ∀ text ∈ (counter.map Update.atomicCounter).or setText,
      FailsOnly (CommandFailure config (.update target setText removeText counter))
        (Update.parseSet text) := by
    cases counter with
    | some name =>
      rintro text ⟨⟩
      rw [Update.parseSet_counter]
      exact failsOnly_ok _
    | none =>
      rintro text rfl
      refine (Update.failsOnly_parseSet .refused
        ⟨numbers_comparable text _, numbers_indexes text _⟩).mono ?_
      intro failure h
      exact h.elim .refused
        (fun h => .unreported (.noDecimal (List.mem_singleton_self text) h))
        fun h => .unreported (.longIndex (List.mem_append_left _ (List.mem_singleton_self text)) h)
  unfold updateParameters
  dsimp only
  split
  · exact failsOnly_error (.refused _)
  · refine hkey.bind fun key _ => ?_
    exact (Update.failsOnly_parameters .refused _ hassignments hremovals).bind fun _ _ =>
      failsOnly_ok _

section

variable {p : Failure → Prop} (refused : ∀ error : ExpressionError, p (.refused error))
  (nonAscii : IsNonAsciiKey (target.schema.partition.type, target.partitionText) →
    p .nonAsciiBase64)

include refused nonAscii

/-- The two expressions of a query on one table. -/
theorem composed_query (strict : Bool) (condition : Option String)
    (attributes : Option (List String)) (keysOnly : Bool) :
    Compiling.Composed Value.Sound p
      (do
        let compiled ← compileKeyCondition strict target.schema target.partitionText condition
        let projection ← compileProjection keysOnly target.schema attributes
        return (compiled, projection)) := by
  have hpartition := Key.failsOnly_valueOf refused nonAscii
  have hcondition := SortCondition.failsOnly_parseFor refused strict
  apply (Compiling.composed_keyCondition refused hpartition hcondition).bind
  intro compiled
  exact (Compiling.composed_projection keysOnly target.schema attributes).bind fun _ => .done _

theorem failsOnly_query (strict : Bool) (condition attributes : Option String) (keysOnly : Bool) :
    FailsOnly p (queryParameters strict target condition attributes keysOnly) := by
  unfold queryParameters
  dsimp only
  refine ((composed_query refused nonAscii strict condition _ keysOnly).onEmptyTable refused).bind
    ?_
  rintro ⟨compiled, projection⟩ _
  cases projection with
  | none => exact failsOnly_ok _
  | some projection => exact failsOnly_ok _

end

theorem failsOnly_config (config : ConfigFile) {command : Command}
    (h : command.readsConfig = true) :
    FailsOnly (CommandFailure config command) (Config.ofFile config) := by
  unfold Config.ofFile
  split
  · exact failsOnly_ok _
  · exact failsOnly_error (.unreadableFile _ _)
  · next text hcontent =>
    intro failure hfailure
    have hkind : (∃ error, failure = .refused error) ∨ ∃ fault, failure = .scalar fault :=
      @Config.failsOnly_ofText (fun failure => (∃ error, failure = .refused error) ∨
        ∃ fault, failure = .scalar fault) (fun error => .inl ⟨error, rfl⟩)
        (fun fault => .inr ⟨fault, rfl⟩) _ _ failure hfailure
    rcases hkind with ⟨error, rfl⟩ | ⟨fault, rfl⟩
    · exact .refused error
    · exact .unreported (.scalar h hcontent hfailure)

/-- A command comes to its parameters, or fails in a way that is reported, or has an input of one
of four kinds. -/
theorem failsOnly_parameters (config : ConfigFile) (command : Command) :
    FailsOnly (CommandFailure config command) (command.parameters config) := by
  cases command with
  | item target body inferSets => exact failsOnly_item body inferSets
  | update target setText removeText counter => exact failsOnly_update setText removeText counter
  | query target condition strict lenient attributes keysOnly =>
    refine (failsOnly_config config rfl).bind fun settings _ => ?_
    refine FailsOnly.bind ?_ fun policy _ => ?_
    · intro failure hfailure
      obtain ⟨error, -, rfl⟩ := SortCondition.liftRefusal_eq_error hfailure
      exact .refused error
    · refine failsOnly_query .refused ?_ policy condition attributes keysOnly
      exact fun h => .unreported (.nonAsciiBase64 (List.mem_singleton_self _) h)

end CommandLine

end AttributeExpr
