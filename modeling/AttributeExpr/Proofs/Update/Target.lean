import AttributeExpr.Proofs.Placeholder.Compiling
import AttributeExpr.Proofs.Update.Clause
import AttributeExpr.Update.Compile
/-!
Paths of parsed actions. A parsed clause has an action, all of its actions are of its kind, and each
path in them begins with a name. So of the checks before a clause is compiled, only the one for keys
can fail.
-/
namespace AttributeExpr

/-- The path begins with a name. -/
def Path.IsRooted (path : Path) : Prop := ∃ name segments, path = .name name :: segments

/-- The paths in a formula, in the order in which they are written. -/
def Formula.paths : Formula → List Path
  | literal _ => []
  | path operand => [operand]
  | arithmetic _ left right | listAppend left right => left.paths ++ right.paths
  | ifNotExists operand otherwise => operand :: otherwise.paths

def Action.paths : Action → List Path
  | set target formula => target :: formula.paths
  | remove target => [target]

theorem Action.target_mem_paths (action : Action) : action.target ∈ action.paths := by
  cases action <;> exact List.mem_cons_self

theorem Path.Derives.rooted {symbols : List Symbol} {path : Path} (h : Derives symbols path) :
    path.IsRooted := by
  cases h with
  | @path _ name _ segments => exact ⟨name, segments, rfl⟩

namespace Update

variable {clause : Clause} {keys : List String} {actions : List Action}

theorem Derives.rooted {operand : Bool} {symbols : List Symbol} {formula : Formula}
    (h : Derives operand symbols formula) : ∀ path ∈ formula.paths, path.IsRooted := by
  induction h with
  | literal => exact List.forall_mem_nil _
  | path h => exact List.forall_mem_singleton.mpr h.rooted
  | listAppend _ _ ih ih' | arithmetic _ _ _ _ ih ih' =>
    exact List.forall_mem_append.mpr ⟨ih, ih'⟩
  | ifNotExists hpath _ ih => exact List.forall_mem_cons.mpr ⟨hpath.rooted, ih⟩
  | operand _ ih => exact ih

/-- The action is of the kind of the clause, and its paths begin with names. -/
structure Belongs (clause : Clause) (action : Action) : Prop where
  kind : action.clause = clause
  rooted : ∀ path ∈ action.paths, path.IsRooted

theorem DerivesAction.belongs {symbols : List Symbol} {action : Action}
    (h : DerivesAction clause symbols action) : Belongs clause action := by
  cases clause with
  | set =>
    cases h with
    | set htarget hformula =>
      exact ⟨rfl, List.forall_mem_cons.mpr ⟨htarget.rooted, hformula.rooted⟩⟩
  | remove =>
    cases h with
    | remove htarget => exact ⟨rfl, List.forall_mem_singleton.mpr htarget.rooted⟩

theorem belongs_of_parse {text : String} (h : parse clause text = .ok actions) :
    actions ≠ [] ∧ ∀ action ∈ actions, Belongs clause action := by
  obtain ⟨parts, nonempty, -, hderives, rfl⟩ := parse_sound h
  exact ⟨by simpa using nonempty,
    List.forall_mem_map.mpr fun part hpart => (hderives part hpart).belongs⟩

/-- The name of the attribute that an action changes, or changes a part of. -/
def topName? (action : Action) : Option String :=
  match action.target with
  | .name name :: _ => some name
  | _ => none

theorem Belongs.topName? {action : Action} (h : Belongs clause action) :
    ∃ name segments, action.target = .name name :: segments ∧ topName? action = some name := by
  obtain ⟨name, segments, htarget⟩ := h.rooted _ action.target_mem_paths
  exact ⟨name, segments, htarget, by rw [Update.topName?, htarget]⟩

/-- Each action changes an attribute of some name. -/
theorem exists_map_topName? (h : ∀ action ∈ actions, Belongs clause action) :
    ∃ names : List String, actions.map topName? = names.map some := by
  induction actions with
  | nil => exact ⟨[], rfl⟩
  | cons action actions ih =>
    obtain ⟨haction, hactions⟩ := List.forall_mem_cons.mp h
    obtain ⟨name, -, -, hname⟩ := haction.topName?
    obtain ⟨names, hnames⟩ := ih hactions
    exact ⟨name :: names, by rw [List.map_cons, hname, hnames, List.map_cons]⟩

/-- An action is refused just if the attribute is one of the keys. -/
theorem Belongs.checkAction {action : Action} (h : Belongs clause action) {name : String}
    (hname : Update.topName? action = some name) :
    checkAction clause keys action =
      if name ∈ keys then .error (.keyAttribute clause action.target.text name) else .ok () := by
  obtain ⟨name', segments, htarget, hname'⟩ := h.topName?
  obtain rfl := Option.some.inj (hname'.symm.trans hname)
  rw [Update.checkAction, if_neg (not_not_intro h.kind), htarget]

theorem checkActions_of_ne_nil (nonempty : actions ≠ []) :
    checkActions clause keys actions = actions.forM (checkAction clause keys) := by
  rw [checkActions, if_neg (by simpa using nonempty)]

/-- The actions pass the checks exactly if none of the attributes is a key. -/
theorem checkActions_eq_ok_iff (nonempty : actions ≠ [])
    (h : ∀ action ∈ actions, Belongs clause action) :
    checkActions clause keys actions = .ok () ↔
      ∀ action ∈ actions, ∀ name ∈ topName? action, name ∉ keys := by
  rw [checkActions_of_ne_nil nonempty, forM_eq_ok_iff]
  refine forall₂_congr fun action haction => ?_
  obtain ⟨name, -, -, hname⟩ := (h action haction).topName?
  rw [(h action haction).checkAction hname, hname]
  simp

/-- Actions that do not pass are refused for a key. -/
theorem keyAttribute_of_checkActions (nonempty : actions ≠ [])
    (h : ∀ action ∈ actions, Belongs clause action) {error : SemanticError}
    (hcheck : checkActions clause keys actions = .error error) :
    ∃ action ∈ actions, ∃ name ∈ keys, topName? action = some name ∧
      error = .keyAttribute clause action.target.text name := by
  rw [checkActions_of_ne_nil nonempty, forM_eq_error_iff] at hcheck
  obtain ⟨before, action, after, rfl, -, herror⟩ := hcheck
  have haction : action ∈ before ++ action :: after := by simp
  obtain ⟨name, -, -, hname⟩ := (h action haction).topName?
  rw [(h action haction).checkAction hname] at herror
  split_ifs at herror with hkey
  obtain rfl := Except.error.inj herror
  exact ⟨action, haction, name, hkey, hname, rfl⟩

theorem run_compile_of_checked (h : checkActions clause keys actions = .ok ())
    (table : PlaceholderTable) :
    (compile clause keys actions).run table = (do
      let parts ← actions.mapM Compiling.action
      Compiling.compiled (clause.keyword ++ " " ++ ", ".intercalate parts)).run table := by
  rw [compile, h]
  exact Compiling.run_bind_of_ok (Compiling.run_ofExcept (.ok ()) table)

/-- A check that fails is all that is done. -/
theorem onEmptyTable_compile_of_unchecked {error : SemanticError}
    (h : checkActions clause keys actions = .error error) :
    (compile clause keys actions).onEmptyTable = .error (.refused (.semantic error)) := by
  rw [Compiling.onEmptyTable, compile, h]
  rfl

/-- Only actions that pass the checks are compiled. -/
theorem checkActions_of_compile {compiled : CompiledExpression}
    (h : (compile clause keys actions).onEmptyTable = .ok compiled) :
    checkActions clause keys actions = .ok () := by
  cases hcheck : checkActions clause keys actions with
  | ok _ => rfl
  | error error =>
    rw [onEmptyTable_compile_of_unchecked hcheck] at h
    contradiction

end Update

end AttributeExpr
