import ModularGlsl.Bundle
import ModularGlsl.Proofs.Binding.Place
import ModularGlsl.Proofs.Run

/-!
# What typing changes

Typing gives variables their types and changes nothing else, so that an arena
keeps its variables while a program is typed.
-/

namespace ModularGlsl

/-- An arena holds the same variables as another one, with the same records up
to their types. -/
structure Arena.Retypes (before after : Arena) : Prop where
  /-- No variable is lost or added. -/
  size_eq : after.size = before.size
  /-- A variable keeps all but its type. -/
  get_eq : ∀ id, ∃ ty, after.get id = { before.get id with ty := ty }

variable {before after : Arena}

namespace Arena

theorem Retypes.refl (arena : Arena) : arena.Retypes arena :=
  ⟨rfl, fun _ => ⟨_, rfl⟩⟩

theorem Retypes.trans
    {middle : Arena}
    (early : before.Retypes middle)
    (late : middle.Retypes after) :
    before.Retypes after := by
  refine ⟨late.size_eq.trans early.size_eq, fun id => ?_⟩
  obtain ⟨_, first⟩ := early.get_eq id
  obtain ⟨ty, second⟩ := late.get_eq id
  exact ⟨ty, by rw [second, first]⟩

theorem Retypes.symm (retypes : before.Retypes after) :
    after.Retypes before := by
  refine ⟨retypes.size_eq.symm, fun id => ?_⟩
  obtain ⟨ty, same⟩ := retypes.get_eq id
  exact ⟨(before.get id).ty, by rw [same]⟩

theorem retypes_setTy
    (arena : Arena)
    (id : VarId)
    (ty : Ty) :
    arena.Retypes (arena.setTy id ty) := by
  refine ⟨by simp [setTy], fun other => ?_⟩
  rw [setTy, get_modify]
  split
  · exact ⟨some ty, rfl⟩
  · exact ⟨_, rfl⟩

section

variable (retypes : before.Retypes after)
include retypes

/-- Variables that change at most their types are kept. -/
theorem Retypes.keeps :
    before.Keeps after :=
  ⟨Nat.le_of_eq retypes.size_eq.symm, fun id _ => retypes.get_eq id⟩

theorem Retypes.members_eq
    (id : VarId) :
    (after.get id).members = (before.get id).members := by
  obtain ⟨ty, same⟩ := retypes.get_eq id
  rw [same]

theorem Retypes.name_eq (id : VarId) :
    after.name id = before.name id := by
  obtain ⟨ty, same⟩ := retypes.get_eq id
  rw [Arena.name, same, Arena.name]

theorem Retypes.decl_eq
    (id : VarId) :
    (after.get id).decl = (before.get id).decl := by
  obtain ⟨ty, same⟩ := retypes.get_eq id
  rw [same]

theorem Retypes.constant_eq
    (id : VarId) :
    (after.get id).constant = (before.get id).constant := by
  obtain ⟨ty, same⟩ := retypes.get_eq id
  rw [same]

end

end Arena

namespace Typing

section Steps

variable {α β : Type}

/-- A step changes nothing but types when it succeeds. -/
class KeepsArena (step : Check α) : Prop where
  /-- The arena after the step holds the same variables. -/
  retypes : ∀ {before value after}, step before = .ok value after -> before.Retypes after

instance (value : α) : KeepsArena (pure value : Check α) where
  retypes run := by
    obtain ⟨_, rfl⟩ := pure_eq_ok.mp run
    exact .refl _

variable {next : α -> Check β}

instance
    (first : Check α)
    [early : KeepsArena first]
    [late : ∀ value, KeepsArena (next value)] :
    KeepsArena (first >>= next) where
  retypes run := by
    obtain ⟨value, middle, firstRun, nextRun⟩ := bind_eq_ok.mp run
    exact (early.retypes firstRun).trans ((late value).retypes nextRun)

/-- A failure keeps nothing to speak of. -/
instance (error : Diagnostic) : KeepsArena (throw error : Check α) where
  retypes run := by cases run

instance
    (condition : Prop)
    [Decidable condition]
    (first second : Check α)
    [yes : KeepsArena first]
    [no : KeepsArena second] :
    KeepsArena (if condition then first else second) := by
  split
  · exact yes
  · exact no

variable {result : Arena -> Except Diagnostic α}

theorem use_eq_ok {value : α} :
    use result before = .ok value after ↔ result before = .ok value ∧ before = after := by
  unfold use
  rw [bind_eq_ok]
  constructor
  · rintro ⟨_, _, ⟨⟩, run⟩
    cases outcome : result before with
    | error error =>
        rw [outcome] at run
        cases run
    | ok found =>
        rw [outcome] at run
        cases run
        exact ⟨rfl, rfl⟩
  · rintro ⟨outcome, rfl⟩
    refine ⟨before, before, rfl, ?_⟩
    rw [outcome]
    rfl

theorem use_bind_eq_ok
    {value : β} :
    (use result >>= next) before = .ok value after ↔
      ∃ found, result before = .ok found ∧ next found before = .ok value after := by
  rw [bind_eq_ok]
  constructor
  · rintro ⟨found, _, early, late⟩
    obtain ⟨held, rfl⟩ := use_eq_ok.mp early
    exact ⟨found, held, late⟩
  · rintro ⟨found, held, late⟩
    exact ⟨found, before, use_eq_ok.mpr ⟨held, rfl⟩, late⟩

instance (result : Arena -> Except Diagnostic α) : KeepsArena (use result) where
  retypes run := by
    obtain ⟨_, rfl⟩ := use_eq_ok.mp run
    exact .refl _

end Steps

theorem setType_eq_ok
    {ident : Ident}
    {ty : Ty}
    {done : Unit} :
    setType ident ty before = .ok done after ↔
      ∃ id, ident.var = some id ∧ after = before.setTy id ty := by
  unfold setType
  rw [bind_eq_ok]
  constructor
  · rintro ⟨id, middle, found, run⟩
    unfold Ident.bound at found
    split at found
    · next bound =>
        cases found
        cases run
        exact ⟨id, bound, rfl⟩
    · cases found
  · rintro ⟨id, bound, rfl⟩
    exact ⟨id, before, use_eq_ok.mpr ⟨by simp [Ident.bound, bound], rfl⟩, rfl⟩

instance (ident : Ident) (ty : Ty) : KeepsArena (setType ident ty) where
  retypes run := by
    obtain ⟨id, _, rfl⟩ := setType_eq_ok.mp run
    exact Arena.retypes_setTy _ id ty

/-! ## Declarations -/

instance (decl : InterfaceDecl) : KeepsArena (checkInterface decl) := by
  unfold checkInterface
  infer_instance

instance (decl : ConstDecl) : KeepsArena (checkConst decl) := by
  unfold checkConst
  cases decl.init <;> infer_instance

instance (decl : VarDecl) : KeepsArena (checkVar decl) := by
  unfold checkVar
  cases decl.init <;> infer_instance

instance (decl : StructDecl) : KeepsArena (checkStruct decl) := by
  unfold checkStruct
  infer_instance

instance (params : List Param) : KeepsArena (checkParams params) := by
  induction params with
  | nil | cons =>
      unfold checkParams
      infer_instance

instance (header : FunctionHeader) : KeepsArena (checkHeader header) := by
  unfold checkHeader
  infer_instance

/-! ## Statements -/

mutual

/-- The check of a statement changes nothing but types. -/
theorem keepsArena_checkStmt
    (result : Option Ty) :
    (stmt : Stmt) -> KeepsArena (checkStmt result stmt)
  | .version _ _ _ | .extension _ _ _ | .importName _ _ _ _ | .importAll _ _ _
  | .reexport _ _ _ _ | .exportName _ _ _ | .accessor _ | .precision _ _ _ | .assign _ _ _ _
  | .ret _ _ | .call _ _ _ | .update _ _ _ | .setIndex _ _ _ _ _ | .interface _ | .const _
  | .var _ | .struct _ => by
      unfold checkStmt
      infer_instance
  | .function _ body => by
      have := fun own => keepsArena_checkBlock own body
      unfold checkStmt
      infer_instance
  | .cond branches _ => by
      exact keepsArena_checkBranches result branches
  | .loop init _ step body _ => by
      have := keepsArena_checkStmt result init
      have := keepsArena_checkStmt result step
      have := keepsArena_checkBlock result body
      unfold checkStmt
      infer_instance

theorem keepsArena_checkBlock
    (result : Option Ty) :
    (block : List Stmt) -> KeepsArena (checkBlock result block)
  | [] => by
      unfold checkBlock
      infer_instance
  | stmt :: rest => by
      have := keepsArena_checkStmt result stmt
      have := keepsArena_checkBlock result rest
      unfold checkBlock
      infer_instance

theorem keepsArena_checkBranches
    (result : Option Ty) :
    (branches : List (Branch Stmt)) -> KeepsArena (checkBranches result branches)
  | [] => by
      unfold checkBranches
      infer_instance
  | ⟨_, body, _⟩ :: rest => by
      have := keepsArena_checkBlock result body
      have := keepsArena_checkBranches result rest
      unfold checkBranches
      infer_instance

end

end Typing

namespace Bundle

instance (modules : List Module) : Typing.KeepsArena (checkModules modules) := by
  induction modules with
  | nil =>
      unfold checkModules
      infer_instance
  | cons module rest ih =>
      have := Typing.keepsArena_checkBlock none module.statements
      unfold checkModules
      infer_instance

end Bundle
end ModularGlsl
