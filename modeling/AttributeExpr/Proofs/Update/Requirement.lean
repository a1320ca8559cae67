import AttributeExpr.Proofs.Provenance
import AttributeExpr.Proofs.Placeholder.Shape
import AttributeExpr.Proofs.Update.Target
import AttributeExpr.Proofs.Value.Limits
import Mathlib
/-!
What a parsed clause needs in order to be compiled. Names must not be empty and numbers have to be
within their limits, and the first name or number that is not, from the left, tells the error. A
value that shares the reference of an earlier one is not checked again, and need not be, since equal
values can be encoded alike.
-/
namespace AttributeExpr

/-- What has to hold for a part of an action to be compiled. -/
inductive Requirement
  /-- The name, which stands in the path, is not empty. -/
  | named (path : Path) (name : String)
  /-- The number is within the limits. -/
  | storable (number : String)

def Requirement.check : Requirement → Except Failure Unit
  | named path name =>
    if name = "" then .error (.refused (.semantic (.emptyName path.text))) else .ok ()
  | storable number =>
    match checkNumber number with
    | .error error => .error (.refused (.typing error))
    | .ok _ => .ok ()

/-! The requirements of an action, from the left. -/

def Path.requirements (path : Path) : List Requirement := path.names.map (.named path)

def Value.requirements (value : Value) : List Requirement := value.numbers.map .storable

def Formula.requirements : Formula → List Requirement
  | literal value => value.requirements
  | path operand => operand.requirements
  | arithmetic _ left right | listAppend left right => left.requirements ++ right.requirements
  | ifNotExists operand otherwise => operand.requirements ++ otherwise.requirements

def Action.requirements : Action → List Requirement
  | set target formula => target.requirements ++ formula.requirements
  | remove target => target.requirements

/-- Encoding a value fails with the first requirement that does not hold. -/
theorem Value.map_encode (value : Value) :
    value.encode.map (fun _ => ()) = value.requirements.forM Requirement.check := by
  have hnumbers (texts : List String) :
      (texts.map .storable).forM Requirement.check =
        (Value.checkNumbers texts).mapError fun error => .refused (.typing error) := by
    induction texts with
    | nil => rfl
    | cons text texts ih =>
      show (Requirement.check (.storable text) >>= fun _ =>
        (texts.map .storable).forM Requirement.check) = _
      rw [ih, Requirement.check, Value.checkNumbers]
      cases checkNumber text <;> rfl
  rw [Value.requirements, hnumbers, ← Value.map_toWire, Value.encode]
  cases value.toWire <;> rfl

namespace Compiling

open PlaceholderTable (Coherent)

/-- On a coherent table, the steps succeed if the requirements hold, and else fail with the first
that does not. -/
structure Enforces {α : Type} (numeral : String → Prop) (steps : Compiling α)
    (requirements : List Requirement) : Prop where
  allocates : Allocates numeral steps
  outcome : ∀ table, Coherent numeral table →
    (steps.run table).1.map (fun _ => ()) = requirements.forM Requirement.check

variable {α β : Type} {numeral : String → Prop} {requirements requirements' : List Requirement}

theorem enforces_pure (a : α) : Enforces numeral (pure a) [] :=
  ⟨allocates_pure a, fun _ _ => rfl⟩

theorem enforces_compiled (expression : String) : Enforces numeral (compiled expression) [] :=
  ⟨allocates_compiled expression, fun _ _ => rfl⟩

theorem Enforces.bind {steps : Compiling α} {next : α → Compiling β}
    (h : Enforces numeral steps requirements)
    (hnext : ∀ a, Enforces numeral (next a) requirements') :
    Enforces numeral (steps >>= next) (requirements ++ requirements') := by
  refine ⟨h.allocates.bind fun a => (hnext a).allocates, ?_⟩
  intro table coherent
  have hsteps := h.outcome table coherent
  rw [forM_append, ← hsteps, run_bind]
  cases hrun : steps.run table with
  | mk outcome between =>
    cases outcome with
    | error failure => rfl
    | ok a => exact (hnext a).outcome between ((h.allocates.grows hrun).coherent coherent)

/-- Steps with nothing to check behind them. -/
theorem Enforces.map {steps : Compiling α} (h : Enforces numeral steps requirements)
    (f : α → β) : Enforces numeral (steps >>= fun a => pure (f a)) requirements := by
  have hbind := h.bind fun a => @enforces_pure _ numeral (f a)
  rwa [List.append_nil] at hbind

theorem enforces_nameRef (name : String) : Enforces numeral (nameRef name) [] := by
  refine ⟨allocates_nameRef name, ?_⟩
  intro table _
  obtain ⟨ref, table', hrun, -⟩ := nameRef_holds name table
  rw [hrun]
  rfl

/-- A value that has a reference already equals one that has been encoded, so that its numbers are
within the limits too. -/
theorem enforces_valueRef {value : Value} (sound : value.WellFormed numeral) :
    Enforces numeral (valueRef value) value.requirements := by
  refine ⟨allocates_valueRef sound, ?_⟩
  intro table coherent
  rw [run_valueRef, sound.checkComparable, ← Value.map_encode]
  dsimp only
  cases hshared : table.valueRef? value with
  | none => cases value.encode <;> rfl
  | some ref =>
    obtain ⟨entry, hentry, -, hequals⟩ :=
      PlaceholderTable.holdsValue_of_valueRef? coherent sound hshared
    have hwire := Value.encode_eq_ok_iff.mp (coherent.encodes entry hentry)
    have hencodable := hequals.encodable (coherent.sound entry hentry) sound
      (Value.exists_toWire_iff.mp ⟨_, hwire⟩)
    obtain ⟨document, hdocument⟩ := Value.exists_toWire_iff.mpr hencodable
    rw [Value.encode_eq_ok_iff.mpr hdocument]
    rfl

/-- Steps that are made only if the name is not empty. -/
theorem Enforces.named {path : Path} {name : String} {steps : Compiling α}
    (h : Enforces numeral steps requirements) (next : β → Compiling α) :
    Enforces numeral (if name = "" then
        throw (.refused (.semantic (.emptyName path.text))) >>= next else steps)
      (.named path name :: requirements) := by
  have hcheck (outcome : Except Failure Unit) :
      (Requirement.check (.named path name) >>= fun _ => outcome) =
        if name = "" then .error (.refused (.semantic (.emptyName path.text))) else outcome := by
    rw [Requirement.check]
    split_ifs <;> rfl
  constructor
  · split_ifs
    · exact fun _ => .refl
    · exact h.allocates
  · intro table coherent
    show _ = Requirement.check _ >>= fun _ => requirements.forM Requirement.check
    rw [hcheck]
    split_ifs
    · rfl
    · exact h.outcome table coherent

theorem enforces_segments (operand : Path) (first : Bool) {rest : List Segment}
    (h : first = true → Path.IsRooted rest) :
    Enforces numeral (segments operand first rest) ((Path.names rest).map (.named operand)) := by
  induction rest generalizing first with
  | nil => exact enforces_pure []
  | cons segment rest ih =>
    have hrest := ih false nofun
    cases segment with
    | index index =>
      have hfirst : ¬ first = true := by
        intro hfirst
        obtain ⟨_, _, hrooted⟩ := h hfirst
        cases hrooted
      rw [segments, if_neg hfirst]
      exact hrest.map _
    | name name =>
      rw [segments]
      exact ((enforces_nameRef name).bind fun ref => hrest.map _).named _

theorem enforces_path {operand : Path} (rooted : operand.IsRooted) :
    Enforces numeral (path operand) operand.requirements := by
  have nonempty : ¬ operand.isEmpty = true := by
    obtain ⟨_, _, rfl⟩ := rooted
    nofun
  rw [path, if_neg nonempty]
  exact (enforces_segments operand true fun _ => rooted).map _

theorem enforces_formula {operand : Formula}
    (sound : ∀ value ∈ operand.literals, value.WellFormed numeral)
    (rooted : ∀ path ∈ operand.paths, path.IsRooted) :
    Enforces numeral (formula operand) operand.requirements := by
  induction operand with
  | literal value => exact enforces_valueRef (sound value (List.mem_singleton_self _))
  | path operand => exact enforces_path (rooted operand (List.mem_singleton_self _))
  | arithmetic op left right ih ih' | listAppend left right ih ih' =>
    obtain ⟨hleft, hright⟩ := List.forall_mem_append.mp sound
    obtain ⟨hleft', hright'⟩ := List.forall_mem_append.mp rooted
    exact (ih hleft hleft').bind fun first => (ih' hright hright').map _
  | ifNotExists operand otherwise ih =>
    obtain ⟨hpath, hotherwise⟩ := List.forall_mem_cons.mp rooted
    exact (enforces_path hpath).bind fun first => (ih sound hotherwise).map _

theorem enforces_action {step : Action}
    (sound : ∀ value ∈ step.literals, value.WellFormed numeral)
    (rooted : ∀ path ∈ step.paths, path.IsRooted) :
    Enforces numeral (action step) step.requirements := by
  cases step with
  | set target computed =>
    obtain ⟨htarget, hformula⟩ := List.forall_mem_cons.mp rooted
    exact (enforces_path htarget).bind fun first => (enforces_formula sound hformula).map _
  | remove target => exact enforces_path (rooted target (List.mem_singleton_self _))

/-- A run over the actions enforces their requirements one after another. -/
theorem enforces_actions {actions : List Action}
    (sound : ∀ action ∈ actions, ∀ value ∈ action.literals, value.WellFormed numeral)
    (rooted : ∀ action ∈ actions, ∀ path ∈ action.paths, path.IsRooted) :
    Enforces numeral (actions.mapM action) (actions.flatMap Action.requirements) := by
  induction actions with
  | nil => exact enforces_pure []
  | cons step actions ih =>
    obtain ⟨hstep, hactions⟩ := List.forall_mem_cons.mp sound
    obtain ⟨hstep', hactions'⟩ := List.forall_mem_cons.mp rooted
    rw [List.mapM_cons, List.flatMap_cons]
    exact (enforces_action hstep hstep').bind fun text => (ih hactions hactions').map _

end Compiling

/-! Requirements by names and numbers. -/

theorem Path.forall_requirements {path : Path} :
    (∀ requirement ∈ path.requirements, requirement.check = .ok ()) ↔ "" ∉ path.names := by
  have hcheck (name : String) :
      (Requirement.named path name).check = .ok () ↔ name ≠ "" := by
    rw [Requirement.check]
    split_ifs <;> simp_all
  rw [Path.requirements, List.forall_mem_map]
  simp only [hcheck]
  exact ⟨fun h hmem => h "" hmem rfl, fun h name hname heq => h (heq ▸ hname)⟩

theorem Value.forall_requirements {value : Value} :
    (∀ requirement ∈ value.requirements, requirement.check = .ok ()) ↔ value.Encodable := by
  rw [← forM_eq_ok_iff, ← Value.map_encode, ← Value.exists_toWire_iff, map_eq_ok_iff]
  simp [Value.encode_eq_ok_iff]

theorem Formula.forall_requirements {formula : Formula} :
    (∀ requirement ∈ formula.requirements, requirement.check = .ok ()) ↔
      "" ∉ formula.names ∧ ∀ value ∈ formula.literals, value.Encodable := by
  induction formula with
  | literal value => simp [requirements, names, literals, Value.forall_requirements]
  | path operand => simp [requirements, names, literals, Path.forall_requirements]
  | arithmetic op left right ih ih' | listAppend left right ih ih' =>
    rw [requirements, names, literals, List.forall_mem_append, List.forall_mem_append, ih, ih',
      List.mem_append, not_or]
    tauto
  | ifNotExists operand otherwise ih =>
    rw [requirements, names, literals, List.forall_mem_append, ih, Path.forall_requirements,
      List.mem_append, not_or, and_assoc]

theorem Action.forall_requirements {action : Action} :
    (∀ requirement ∈ action.requirements, requirement.check = .ok ()) ↔
      "" ∉ action.names ∧ ∀ value ∈ action.literals, value.Encodable := by
  cases action with
  | set target formula =>
    rw [requirements, names, literals, List.forall_mem_append, Path.forall_requirements,
      Formula.forall_requirements, List.mem_append, not_or, and_assoc]
  | remove target => simp [requirements, names, literals, Path.forall_requirements]

namespace Update

/-- Compiling a clause of a text comes to checking the requirements of its actions. -/
theorem map_compile {numeral : String → Prop} {clause : Clause} {keys : List String}
    {actions : List Action} (checked : checkActions clause keys actions = .ok ())
    (sound : ∀ action ∈ actions, ∀ value ∈ action.literals, value.WellFormed numeral)
    (rooted : ∀ action ∈ actions, ∀ path ∈ action.paths, path.IsRooted) :
    (compile clause keys actions).onEmptyTable.map (fun _ => ()) =
      (actions.flatMap Action.requirements).forM Requirement.check := by
  have h := (Compiling.enforces_actions sound rooted).bind fun parts =>
    Compiling.enforces_compiled (clause.keyword ++ " " ++ ", ".intercalate parts)
  rw [List.append_nil] at h
  rw [Compiling.onEmptyTable, run_compile_of_checked checked]
  exact h.outcome .empty (PlaceholderTable.coherent_empty _)

/-- What a text of assignments is parsed as is compiled exactly if no name in a path is empty and
all numbers in its literals, at any depth, are within the limits. Otherwise the error is that of the
first requirement that does not hold, from the left: that a name is empty, or what is wrong with a
number. -/
theorem compile_parsed_iff {text : String} {actions : List Action}
    (h : parseSet text = .ok actions) :
    ((∃ compiled, (compile .set [] actions).onEmptyTable = .ok compiled) ↔
        ∀ action ∈ actions, "" ∉ action.names ∧
          ∀ value ∈ action.literals, ∀ number ∈ value.numbers, ∃ d, checkNumber number = .ok d) ∧
      ∀ failure, (compile .set [] actions).onEmptyTable = .error failure ↔
        ∃ before requirement after,
          actions.flatMap Action.requirements = before ++ requirement :: after ∧
            (∀ earlier ∈ before, earlier.check = .ok ()) ∧
            requirement.check = .error failure := by
  obtain ⟨nonempty, belongs⟩ := @belongs_of_parse .set _ _ h
  have checked : checkActions .set [] actions = .ok () :=
    (checkActions_eq_ok_iff nonempty belongs).mpr fun _ _ _ _ => List.not_mem_nil
  have sound := fun action haction value hvalue =>
    proper_of_parseSet h action haction value hvalue
  have hmap := map_compile checked sound fun action haction => (belongs action haction).rooted
  constructor
  · have hok : (∃ compiled, (compile .set [] actions).onEmptyTable = .ok compiled) ↔
        (compile .set [] actions).onEmptyTable.map (fun _ => ()) = .ok () := by
      rw [map_eq_ok_iff]
      simp only [and_true]
    rw [hok, hmap, forM_eq_ok_iff]
    simp only [List.forall_mem_flatMap, Action.forall_requirements]
    exact Iff.rfl
  · intro failure
    rw [← forM_eq_error_iff, ← hmap]
    cases (compile .set [] actions).onEmptyTable <;> simp [Except.map]

set_option maxRecDepth 2000 in
/-- The second list shares the reference of the first, and the number behind it comes before the
empty name. -/
theorem compile_parsed_iff_shared :
    let text := "a = [1], b = [1], c = [1e126], d.`` = 1"
    let one := Formula.literal (.list [.number "1"])
    let actions : List Action := [.set [.name "a"] one, .set [.name "b"] one,
      .set [.name "c"] (.literal (.list [.number "1e126"])),
      .set [.name "d", .name ""] (.literal (.number "1"))]
    parseSet text = .ok actions ∧ (compile .set [] actions).onEmptyTable =
      .error (.refused (.typing (.outOfRange "1e126"))) := by
  intro text one actions
  have hparsed : parseSet text = .ok actions := by cbv
  have hone : (Requirement.storable "1").check = .ok () := by decide +kernel
  have hrange : (Requirement.storable "1e126").check =
      .error (.refused (.typing (.outOfRange "1e126"))) := by decide +kernel
  refine ⟨hparsed, ((compile_parsed_iff hparsed).2 _).mpr ⟨[.named [.name "a"] "a", .storable "1",
    .named [.name "b"] "b", .storable "1", .named [.name "c"] "c"], .storable "1e126", _, rfl, ?_,
    hrange⟩⟩
  simp only [List.forall_mem_cons, hone]
  simp [Requirement.check]

end Update

end AttributeExpr
