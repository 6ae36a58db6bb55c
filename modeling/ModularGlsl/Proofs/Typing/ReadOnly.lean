import ModularGlsl.Proofs.Parts
import ModularGlsl.Proofs.Typing.OwnParts
import ModularGlsl.Proofs.Typing.Settled

/-!
# Stores to variables that may change

A statement that stores passes the check of types only if its target leads to a variable
that is not constant.  Typing changes no variable but for its type, so that the targets of
a typed program lead to the same variables.  Binding makes a variable constant unless code
of the stage may store to it.
-/

namespace ModularGlsl

/-! ## Targets of statements -/

/-- What a statement stores to: the target of an assignment, of an increment or decrement,
or of a store to an element at a dynamic index. -/
def Stmt.target? : Stmt -> Option Expr
  | .assign target _ _ _ | .update target _ _ | .setIndex target _ _ _ _ => some target
  | _ => none

/-- The target is among the expressions of its statement. -/
theorem Stmt.mem_exprs_of_target?
    {stmt : Stmt}
    {target : Expr}
    (isTarget : target ∈ stmt.target?) :
    target ∈ stmt.exprs := by
  cases stmt with
  | assign | setIndex | update =>
      cases isTarget
      exact List.mem_cons_self
  | _ => cases isTarget

variable {before after : Arena}

theorem Expr.StoresTo.retypes
    {target : Expr}
    {id : VarId}
    (stores : target.StoresTo before id)
    (retypes : before.Retypes after)
    {ty : Ty}
    (typed : target.typeOf after = .ok ty) :
    target.StoresTo after id := by
  replace typed := target.typed_of_typeOf typed
  induction stores generalizing ty with
  | var bound changes => exact .var bound ((retypes.constant_eq _).trans changes)
  | member _ ih =>
      cases typed with | member object => exact .member (ih object)
  | index _ _ ih =>
      cases typed with
      | index container position known =>
          exact .index (ih container) (except_bind_eq_ok.mpr
            ⟨_, position.typeOf_eq, typing_eq_ok.mpr (knownIndex_eq_ok.mpr known)⟩)
  | paren _ ih =>
      cases typed with | paren inner => exact .paren (ih inner)

/-! ## Checked stores -/

namespace Typing

/-- A statement stores to a variable that is not constant, as seen in an arena that differs
in its types only. -/
def Stores
    (final : Arena)
    (stmt : Stmt) : Prop :=
  ∀ target ∈ stmt.target?, ∃ arena id, Arena.Retypes arena final ∧ target.StoresTo arena id

variable {result : Option Ty} {final : Arena}

/-- A statement that passes the check stores to what is not constant. -/
theorem stores_of_checkStmt
    {stmt : Stmt}
    (retypes : before.Retypes final)
    (passed : checkStmt result stmt before = .ok () after) :
    Stores final stmt := by
  intro target isTarget
  have found : ∃ ty, target.targetType before = .ok ty := by
    cases stmt with
    | assign =>
        cases isTarget
        exact (exists_of_checkAssign (use_eq_ok.mp passed).1).2
    | update | setIndex =>
        cases isTarget
        obtain ⟨ty, found, _⟩ := except_bind_eq_ok.mp (use_eq_ok.mp passed).1
        exact ⟨ty, found⟩
    | _ => cases isTarget
  obtain ⟨ty, found⟩ := found
  obtain ⟨id, stores⟩ := target.exists_storesTo_of_targetType found
  exact ⟨before, id, retypes, stores⟩

end Typing

/-! ## Variables that may change -/

/-- A variable that code of a stage may store to, by its declaration or as a built-in. -/
def Variable.IsWritable
    (stage : Stage)
    (record : Variable) : Prop :=
  record.decl.IsWritable stage ∨
    record.decl = .builtin ∧ ∃ ty, .stageVariable record.name ty true ∈ Builtin.table stage

/-- All variables are constant but for those that code of the stage may store to. -/
def Arena.Guards
    (stage : Stage)
    (arena : Arena) : Prop :=
  ∀ id < arena.size, (arena.get id).constant = false -> (arena.get id).IsWritable stage

section Guards

variable {stage : Stage} {arena : Arena}

/-- The variables of a stage are constant but for its writable ones. -/
theorem guards_builtins (stage : Stage) : stage.arena.Guards stage := by
  intro id inside changes
  obtain ⟨builtin, mem, record_eq⟩ := Bundle.get_builtins stage inside
  rw [record_eq] at changes ⊢
  refine .inr ⟨rfl, ?_⟩
  cases builtin with
  | type | function => cases changes
  | stageVariable name ty writable =>
      cases writable with
      | false => cases changes
      | true => exact ⟨ty, mem⟩

theorem Arena.Guards.retypes
    (guards : arena.Guards stage)
    (retypes : arena.Retypes after) :
    after.Guards stage := by
  intro id inside changes
  obtain ⟨ty, get_eq⟩ := retypes.get_eq id
  rw [get_eq] at changes ⊢
  exact guards id (retypes.size_eq ▸ inside) changes

/-- Binding adds only constants and variables that may change. -/
theorem Binding.admits_guards (context : Context) :
    Admits context (fun _ => True) fun before after =>
      before.arena.Guards context.stage -> after.arena.Guards context.stage where
  refl _ := id
  trans early late := late ∘ early
  fail _ _ _ _ := id
  frames _ _ := id
  declare _ _ _ _ _ _ := id
  publish _ _ := id
  alloc state record _ writable guards id inside changes := by
    rcases Nat.lt_or_eq_of_le (Nat.le_of_lt_succ (Arena.size_alloc state.arena record ▸ inside))
      with old | rfl
    · rw [Arena.get_alloc_of_lt _ old] at changes ⊢
      exact guards id old changes
    · rw [Arena.get_alloc_size] at changes ⊢
      exact .inl (writable changes)

end Guards

/-! ## Programs -/

namespace Bundle

/-- Every statement that stores does so through fields, swizzles, elements at known indices
and parentheses, never through a member of a package, to a variable that is not constant
and that code of the stage may store to. -/
def StoresToWritable (bundle : Bundle) : Prop :=
  ∀ module ∈ bundle.modules, ∀ part ∈ module.parts, ∀ target ∈ part.target?,
    ∃ id < bundle.arena.size, target.StoresTo bundle.arena id ∧
      (bundle.arena.get id).constant = false ∧ (bundle.arena.get id).IsWritable bundle.stage

/-- After typing, no uniform, attribute, constant, function, struct, package, varying of the
fragment stage or built-in that is only read is stored to, under whatever name. -/
theorem evalTypes_storesToWritable
    {library : Library}
    {bundle placed named typed : Bundle}
    (fresh : IsFresh library bundle)
    (placing : resolveDependencies library bundle = .ok () placed)
    (binding : resolveNames placed = .ok () named)
    (typing : evalTypes named = .ok () typed) :
    typed.StoresToWritable := by
  intro module mem part isPart target isTarget
  have settled := fresh.isSettled ⟨⟨placing, binding⟩, typing⟩
  obtain ⟨_, _, early, _, _, _, _, passed⟩ :=
    ((fresh.placed placing).isPassed binding typing mem part isPart).declared
  obtain ⟨modules, rfl, _⟩ := resolveDependencies_eq_ok placing
  obtain ⟨succeeded, rfl⟩ := resolveNames_eq_ok binding
  obtain ⟨arena, checked, rfl⟩ := evalTypes_eq_ok typing
  have guards : arena.Guards bundle.stage := by
    refine Arena.Guards.retypes ?_ (Typing.KeepsArena.retypes checked)
    refine holds_bindModules (fun _ _ => Binding.admits_guards _) (fun _ _ _ _ => trivial) ?_
      succeeded
    rw [fresh.arena_eq]
    exact guards_builtins bundle.stage
  -- The target has a type in the end, and led to its variable when it was checked.
  obtain ⟨_, exprs⟩ := (Stmt.everyIn_iff_parts _).mp (settled module mem) part isPart
  obtain ⟨below, ty, typed⟩ := exprs target (Stmt.mem_exprs_of_target? isTarget)
  obtain ⟨_, id, retypes, leads⟩ := Typing.stores_of_checkStmt early.retypes passed target isTarget
  have leads := leads.retypes retypes typed
  have inside := below id leads.mem_reads
  exact ⟨id, inside, leads, leads.constant_eq, guards id inside leads.constant_eq⟩

/-- The stores of a program with a loop, to local variables and to a built-in. -/
theorem evalTypes_sample_storesToWritable :
    ∃ placed named typed, resolveDependencies Sample.library Sample.bundle = .ok () placed ∧
      resolveNames placed = .ok () named ∧ evalTypes named = .ok () typed ∧
      ((typed.modules.flatMap Module.parts).filterMap Stmt.target?).length = 3 ∧
      typed.StoresToWritable := by
  have passed : passes (fun placed =>
      passes (fun named =>
        passes (fun typed =>
            decide (((typed.modules.flatMap Module.parts).filterMap Stmt.target?).length = 3))
          (evalTypes named))
        (resolveNames placed))
      (resolveDependencies Sample.library Sample.bundle) = true := by
    decide +kernel
  obtain ⟨placed, placing, passed⟩ := exists_of_passes passed
  obtain ⟨named, binding, passed⟩ := exists_of_passes passed
  obtain ⟨typed, typing, length_eq⟩ := exists_of_passes passed
  exact ⟨placed, named, typed, placing, binding, typing, of_decide_eq_true length_eq,
    evalTypes_storesToWritable Sample.isFresh_bundle placing binding typing⟩

end Bundle

end ModularGlsl
