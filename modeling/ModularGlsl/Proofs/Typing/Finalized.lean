import ModularGlsl.Proofs.Naming.Inherited
import ModularGlsl.Proofs.Parts
import ModularGlsl.Proofs.Typing.Declared

/-!
# Types of a finished build

The steps after typing change no type: the sweep fills places for accessors and adds
variables without types, splicing adds accessors, and naming changes names.  What typing
has settled therefore holds of the result of a build, and the known integers of its arena
are the types of its constants.
-/

namespace ModularGlsl

/-! ## Erased trees -/

variable {typed swept spliced bundle : Bundle}

namespace Stmt.ArePlain

variable {onExpr : Expr -> Prop} {onStmt : Stmt -> Prop}

/-- The sweep and splicing keep plain conditions. -/
theorem everyIn_spliced
    (plain : ArePlain onExpr onStmt)
    (sweeping : Bundle.resolveActivity typed = .ok () swept)
    (splicing : Bundle.finalizeInjected swept = .ok () spliced)
    (satisfied : ∀ module ∈ typed.modules, Stmt.EveryIn onExpr onStmt module.statements) :
    ∀ module ∈ spliced.modules, Stmt.EveryIn onExpr onStmt module.statements := by
  have holds := Bundle.holdsRequested_of_resolveActivity sweeping
  refine Bundle.everyIn_spliced splicing (fun stmt isWaiting => ?_) fun module mem => ?_
  · obtain ⟨_, _, _, _, _, _, rfl⟩ := holds stmt isWaiting
    exact ⟨plain.accessor _, trivial⟩
  · obtain ⟨modules, state, run, rfl⟩ := Bundle.resolveActivity_eq_ok sweeping
    have erased := Liveness.map_erase_sweepModules typed.stage typed.modules
      { arena := typed.arena, usage := typed.modules.foldl Bundle.markMain {} }
    rw [run.1] at erased
    have listed := List.mem_map_of_mem (f := Module.erase) mem
    rw [erased] at listed
    obtain ⟨original, isOriginal, same⟩ := List.mem_map.mp listed
    have statements_eq : Stmt.eraseBlock original.statements = Stmt.eraseBlock module.statements :=
      congrArg Module.statements same
    rw [← plain.everyIn_eraseBlock, ← statements_eq, plain.everyIn_eraseBlock]
    exact satisfied original isOriginal

end Stmt.ArePlain

/-! ## Constants -/

/-- The variable of the constant that a statement declares. -/
def Stmt.constVar? (stmt : Stmt) : Option (Option VarId) :=
  stmt.const?.map fun decl => decl.name.var

/-- Accessors have no part in constants. -/
theorem Stmt.isPlainView_constVar? : Stmt.IsPlainView Stmt.constVar? where
  erase_eq stmt := by cases stmt <;> rfl
  accessor_eq _ := rfl

/-- The constants of a bundle are those of its modules. -/
theorem Bundle.vars_consts (bundle : Bundle) :
    ConstDecl.vars bundle.consts =
      (bundle.modules.map (Module.collect (Stmt.within Stmt.constVar?))).flatten.flatten := by
  rw [consts, ConstDecl.vars, List.map_flatMap, List.flatten_flatten, List.map_map,
    List.flatMap_def]
  refine congrArg List.flatten (List.map_congr_left fun module _ => ?_)
  rw [List.map_filterMap]
  exact (Module.flatten_collect_within (fun _ => rfl) module).symm

/-! ## Settled types -/

variable {arena : Arena}

/-- Accessors have no part in the types of constants. -/
theorem ConstDecl.hasType_erase
    {decl : ConstDecl}
    {id : VarId}
    {declared : Ty} :
    ConstDecl.HasType arena { decl with init := decl.init.map Expr.erase } id declared ↔
      decl.HasType arena id declared := by
  constructor
  · intro hasType
    refine ⟨hasType.var_eq, hasType.decl_eq, hasType.declared_eq, fun init isInit => ?_,
      fun init isInit => ?_, fun isMissing => hasType.missing (by simp [isMissing])⟩
    · have below := hasType.below init.erase (by simp [Option.mem_def.mp isInit])
      rwa [Expr.reads_erase] at below
    · have initial := hasType.initial init.erase (by simp [Option.mem_def.mp isInit])
      rwa [Expr.typeOf_erase] at initial
  · intro hasType
    refine ⟨hasType.var_eq, hasType.decl_eq, hasType.declared_eq, fun init isInit => ?_,
      fun init isInit => ?_, fun isMissing => hasType.missing (by simpa using isMissing)⟩
    · obtain ⟨original, isOriginal, rfl⟩ := Option.map_eq_some_iff.mp isInit
      rw [Expr.reads_erase]
      exact hasType.below original isOriginal
    · obtain ⟨original, isOriginal, rfl⟩ := Option.map_eq_some_iff.mp isInit
      rw [Expr.typeOf_erase]
      exact hasType.initial original isOriginal

/-- Accessors have no part in what typing settles. -/
theorem Stmt.arePlain_isSettled
    (limit : VarId)
    (arena : Arena) :
    Stmt.ArePlain (Expr.IsSettled limit arena) (Stmt.IsSettled limit arena) where
  expr_iff expr := by
    refine ⟨fun settled => ⟨?_, ?_⟩, fun settled => ⟨?_, ?_⟩⟩
    · simpa using settled.below
    · simpa using settled.typed
    · simpa using settled.below
    · simpa using settled.typed
  stmt_iff stmt := by
    cases stmt with
    | const decl => simp only [Stmt.erase, Stmt.IsSettled, ConstDecl.hasType_erase]
    | _ => rfl
  accessor _ := trivial

variable {limit : VarId}

/-- The value of a constant has no part in what typing settles. -/
theorem Stmt.isSettled_inject
    (decl : ConstDecl)
    (text : Option String)
    (settled : (Stmt.const decl).IsSettled limit arena) :
    (Stmt.const { decl with injected := text }).IsSettled limit arena := by
  obtain ⟨asked, id, declared, below, hasType⟩ := settled
  exact ⟨asked, id, declared, below, hasType.var_eq, hasType.decl_eq, hasType.declared_eq,
    hasType.below, hasType.initial, hasType.missing⟩

namespace Bundle

variable {library : Library} {placed named result : Bundle}

section

variable (fresh : IsFresh library bundle) (run : finalize library bundle = .ok () result)
include fresh run

/-- After typing, a build changes no type. -/
theorem IsFresh.agreesOn_typed :
    ∃ placed named typed swept spliced,
      Spliced library bundle placed named typed swept spliced ∧
      result.modules = spliced.modules ∧
      (∀ id < typed.arena.size, typed.arena.AgreesOn result.arena id) ∧
      ∀ id, typed.arena.size ≤ id -> (result.arena.get id).ty = none := by
  obtain ⟨placed, named, typed, swept, spliced, unique, _, build, naming, _, rfl⟩ :=
    finalize_eq_ok run
  have nameable := fresh.isNameable build
  obtain ⟨state, rfl, inherits, _⟩ := nameable.inherits naming
  have arena_eq := build.arena_eq
  have grows : typed.arena.Grows swept.arena := by
    obtain ⟨modules, swept, run, rfl⟩ := resolveActivity_eq_ok build.sweeping
    exact (Liveness.areBound_of_sweepModules _ run).1.grows
  refine ⟨placed, named, typed, swept, spliced, build, rfl,
    fun id inside => ?_, fun id outside => ?_⟩
  · have get_eq := inherits.renames.get_eq id
    rw [arena_eq, grows.get_eq id inside] at get_eq
    exact get_eq
  · have get_eq := inherits.renames.get_eq id
    rw [arena_eq] at get_eq
    rw [get_eq]
    exact grows.untyped id outside

/-- What typing has settled holds of the result of a build. -/
theorem IsFresh.isSettled_finalized :
    ∃ limit, ∀ module ∈ result.modules, module.IsSettled limit result.arena := by
  obtain ⟨placed, named, typed, swept, spliced, build,
    modules_eq, agrees, _⟩ := fresh.agreesOn_typed run
  have settled := fresh.isSettled build.toTyped
  refine ⟨typed.arena.size, fun module mem => ?_⟩
  rw [modules_eq] at mem
  have kept :=
    (Stmt.arePlain_isSettled _ _).everyIn_spliced build.sweeping build.splicing settled module
      mem
  exact Stmt.EveryIn.mono (fun _ own => own.agrees (Nat.le_refl _) agrees)
    (fun _ own => own.agrees (Nat.le_refl _) agrees) kept

end

/-- A build keeps the constants of a typed bundle. -/
theorem vars_consts_spliced
    (sweeping : resolveActivity typed = .ok () swept)
    (splicing : finalizeInjected swept = .ok () spliced) :
    ConstDecl.vars spliced.consts = ConstDecl.vars typed.consts := by
  rw [vars_consts, vars_consts, Stmt.isPlainView_constVar?.within.collect_spliced sweeping splicing]

/-- The types of the result of a build suit its variables.  Only those of the stage are built
in, and constants are declared as such. -/
theorem IsFresh.suits_finalized
    (fresh : IsFresh library bundle)
    (run : finalize library bundle = .ok () result)
    {id : VarId}
    {ty : Ty}
    (found : (result.arena.get id).ty = some ty) :
    ∃ base : Arena, ty.Suits base id ∧
      ((base.get id).decl = .builtin -> id < bundle.stage.arena.size) ∧
        ∀ exported, (base.get id).decl = .const exported ->
          some id ∈ ConstDecl.vars result.consts := by
  obtain ⟨placed, named, typed, swept, spliced, build,
    modules_eq, agrees, untyped⟩ := fresh.agreesOn_typed run
  have consts_eq : ConstDecl.vars result.consts = ConstDecl.vars typed.consts := by
    rw [consts, modules_eq]
    exact vars_consts_spliced build.sweeping build.splicing
  rcases Nat.lt_or_ge id typed.arena.size with inside | outside
  · rw [(agrees id inside).ty_eq] at found
    rw [consts_eq]
    exact ⟨typed.arena, (fresh.isFormed_typed build.toTyped).suits id ty found,
      fresh.declared_typed build.toTyped found⟩
  · rw [untyped id outside] at found
    cases found

/-! ## Values of constants -/

section Injected

variable {finalized : Bundle} (injects : Relation.ReflTransGen Injects finalized bundle)
include injects

/-- Values of constants do not unsettle types. -/
theorem isSettled_of_injects
    (settled : ∀ module ∈ finalized.modules, module.IsSettled limit arena) :
    ∀ module ∈ bundle.modules, module.IsSettled limit arena := by
  induction injects with
  | refl => exact settled
  | tail _ step ih => exact step.everyIn Stmt.isSettled_inject ih

theorem get_of_injects
    (settled : ∀ module ∈ finalized.modules, module.IsSettled limit finalized.arena)
    (id : VarId)
    (notConst : ∀ exported, (finalized.arena.get id).decl ≠ .const exported) :
    bundle.arena.get id = finalized.arena.get id := by
  induction injects with
  | refl => rfl
  | @tail middle _ early step ih =>
      obtain ⟨decl, own, bound, ⟨module, mem, isStmt⟩, get_eq⟩ := step.get_eq
      obtain ⟨⟨_, _, _, _, hasType⟩, _⟩ :=
        Stmt.everyIn_iff.mp (isSettled_of_injects early settled module mem) _ isStmt
      cases bound.symm.trans hasType.var_eq
      rw [← ih]
      refine get_eq id fun same => notConst decl.exported ?_
      rw [same]
      exact hasType.decl_eq

end Injected

end Bundle

end ModularGlsl
