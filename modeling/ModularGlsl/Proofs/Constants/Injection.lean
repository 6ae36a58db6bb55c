import ModularGlsl.Proofs.Accessor.Selection
import ModularGlsl.Proofs.Closed.Written
import ModularGlsl.Proofs.Constants
import ModularGlsl.Proofs.Emission

/-!
# Values are given to one constant at a time

An exported constant keeps its name, so no two modules export constants of one name.  A
value for that name therefore has one target, and the text changes in one place.  Whether
the target takes the value is up to its declaration alone: an earlier value changes a known
integer at most, and a known integer is an integer still.
-/

namespace ModularGlsl

/-! ## The one target of a value -/

/-- A statement with a text in place of the initial value of an exported constant. -/
def Stmt.withText
    (name text : String)
    (stmt : Stmt) : Stmt :=
  match Module.exportedConst? name stmt with
  | some decl => .const { decl with injected := some text }
  | none => stmt

/-- A module with a text in place of the initial values of exported constants. -/
def Module.withText
    (name text : String)
    (module : Module) : Module :=
  { module with statements := module.statements.map (Stmt.withText name text) }

/-- The exported constants of a name among statements of modules. -/
def Stmt.exportedConsts
    (name : String)
    (block : List Stmt) : List ConstDecl :=
  block.filterMap (Module.exportedConst? name)

/-- The statements of all modules in order. -/
def Bundle.statements (bundle : Bundle) : List Stmt :=
  bundle.modules.flatMap Module.statements

variable {name text : String} {decl : ConstDecl} {block : List Stmt} {value : ConstValue}

theorem Module.exportedConst?_const
    (isExported : decl.exported = true)
    (name_eq : decl.name.name = name) :
    Module.exportedConst? name (.const decl) = some decl := by
  simp [Module.exportedConst?, isExported, name_eq]

theorem Stmt.mem_exportedConsts :
    decl ∈ Stmt.exportedConsts name block ↔
      .const decl ∈ block ∧ decl.exported = true ∧ decl.name.name = name := by
  rw [exportedConsts, List.mem_filterMap]
  constructor
  · rintro ⟨stmt, mem, found⟩
    obtain ⟨rfl, isExported, name_eq⟩ := Module.eq_const_of_exportedConst? found
    exact ⟨mem, isExported, name_eq⟩
  · rintro ⟨mem, isExported, name_eq⟩
    exact ⟨_, mem, Module.exportedConst?_const isExported name_eq⟩

/-- Without exported constants of a name nothing changes. -/
theorem Stmt.map_withText_eq (noneExported : Stmt.exportedConsts name block = []) :
    block.map (Stmt.withText name text) = block := by
  refine (List.map_congr_left fun stmt mem => ?_).trans (List.map_id block)
  rw [Stmt.withText, List.filterMap_eq_nil_iff.mp noneExported stmt mem]
  rfl

theorem Module.withText_eq
    {module : Module}
    (noneExported : Stmt.exportedConsts name module.statements = []) :
    module.withText name text = module := by
  rw [Module.withText, Stmt.map_withText_eq noneExported]

/-- A text for the first exported constant is one for the only one. -/
theorem Module.injectText_eq_map (unique : Stmt.exportedConsts name block = [decl]) :
    Module.injectText name text block = block.map (Stmt.withText name text) := by
  induction block with
  | nil => cases unique
  | cons stmt rest ih =>
      rw [Stmt.exportedConsts, List.filterMap_cons] at unique
      rw [Module.injectText, List.map_cons, Stmt.withText]
      split at unique
      next isOther =>
        rw [isOther]
        exact congrArg (stmt :: ·) (ih unique)
      next isConst =>
        rw [isConst]
        exact congrArg (_ :: ·) (Stmt.map_withText_eq (List.cons.inj unique).2).symm

namespace Bundle

variable {arena : Arena}

variable {modules : List Module}

theorem injectInto_eq
    (unique : Stmt.exportedConsts name (modules.flatMap Module.statements) = [decl]) :
    injectInto name value arena modules = (do
      let id ← injectionTarget arena decl value
      return (injectType arena id value, modules.map (Module.withText name value.text))) := by
  induction modules with
  | nil => cases unique
  | cons module rest ih =>
      rw [List.flatMap_cons, Stmt.exportedConsts, List.filterMap_append] at unique
      rw [injectInto, Module.findExportedConst?, ← List.head?_filterMap, List.map_cons]
      rcases List.append_eq_singleton_iff.mp unique with ⟨noneHere, inRest⟩ | ⟨here, noneLater⟩
      · rw [noneHere, ih inRest, Module.withText_eq noneHere]
        cases injectionTarget arena decl value <;> rfl
      · have rest_eq : rest.map (Module.withText name value.text) = rest := by
          refine (List.map_congr_left fun other mem => Module.withText_eq ?_).trans
            (List.map_id rest)
          refine List.filterMap_eq_nil_iff.mpr fun stmt isStmt => ?_
          exact List.filterMap_eq_nil_iff.mp noneLater stmt
            (List.mem_flatMap.mpr ⟨other, mem, isStmt⟩)
        rw [here, rest_eq, Module.withText, ← Module.injectText_eq_map here]
        rfl

theorem injectInto_eq_error
    (noneExported : Stmt.exportedConsts name (modules.flatMap Module.statements) = []) :
    injectInto name value arena modules = .error (.assembly (.constNotFound name)) := by
  induction modules with
  | nil => rfl
  | cons module rest ih =>
      rw [List.flatMap_cons, Stmt.exportedConsts, List.filterMap_append,
        List.append_eq_nil_iff] at noneExported
      rw [injectInto, Module.findExportedConst?, ← List.head?_filterMap, noneExported.1,
        ih noneExported.2]
      rfl

variable {bundle after : Bundle}

/-- A value that is not taken changes nothing. -/
theorem eq_of_injectConst_error
    {error : Diagnostic}
    (run : injectConst name value bundle = .error error after) :
    after = bundle := by
  rw [injectConst, get_bind_apply] at run
  cases outcome : injectInto name value bundle.arena bundle.modules with
  | ok changed =>
      rw [outcome] at run
      cases run
  | error error =>
      rw [outcome] at run
      cases run
      rfl

end Bundle

/-! ## What a constant takes -/

/-- A constant takes values of a kind: it is declared as a scalar of that kind. -/
def ConstDecl.Takes
    (arena : Arena)
    (decl : ConstDecl)
    (kind : ScalarKind) : Prop :=
  decl.length = none ∧
    ∃ id, decl.ty.var = some id ∧ (arena.get id).ty = some (.descriptor (.scalar kind))

section Takes

variable {arena : Arena} {id : VarId} {kind : ScalarKind}

/-- A name for a type with one component is a name for a scalar. -/
theorem Ty.Suits.eq_scalar
    {proto : Ty}
    (suits : (Ty.descriptor proto).Suits arena id)
    (kind_eq : proto.scalarKind? = some kind) :
    proto = .scalar kind := by
  cases suits.proto.1 with
  | plain isPlain =>
      cases isPlain with
      | scalar =>
          cases kind_eq
          rfl
      | @vector own arity low _ =>
          have single : arity = 1 := by
            unfold Ty.scalarKind? Ty.shape? Ty.bare at kind_eq
            split at kind_eq <;> simp_all
          omega
      | array | struct => cases kind_eq
  | sampler | samplers => cases kind_eq

/-- A known integer is an integer still. -/
theorem Typing.scalarKind?_constType (declared init : Ty) :
    (constType declared init).scalarKind? = declared.scalarKind? := by
  unfold constType
  split
  next isInt _ => exact (beq_iff_eq.mp isInt).symm
  next => rfl

variable {declared : Ty}

theorem ConstDecl.HasType.scalarKind?_eq (hasType : decl.HasType arena id declared) :
    ∃ ty, (arena.get id).ty = some ty ∧ ty.scalarKind? = declared.scalarKind? := by
  cases init_eq : decl.init with
  | none => exact ⟨_, hasType.missing init_eq, rfl⟩
  | some init =>
      obtain ⟨ty, _, ty_eq⟩ := hasType.initial init init_eq
      exact ⟨_, ty_eq, Typing.scalarKind?_constType declared ty⟩

/-- A variable of an arena is the target of values of a kind. -/
def ConstDecl.IsTarget
    (arena : Arena)
    (decl : ConstDecl)
    (kind : ScalarKind)
    (id : VarId) : Prop :=
  decl.name.var = some id ∧ decl.length = none ∧
    (arena.get id).ty.bind Ty.scalarKind? = some kind

theorem Bundle.injectionTarget_eq_ok_iff :
    Bundle.injectionTarget arena decl value = .ok id ↔ decl.IsTarget arena value.kind id := by
  constructor
  · intro target
    obtain ⟨declares, single, ty, ty_eq, fits⟩ := Bundle.injectionTarget_eq_ok target
    exact ⟨declares, single, Option.bind_eq_some_iff.mpr ⟨ty, ty_eq, fits⟩⟩
  · rintro ⟨declares, single, known⟩
    obtain ⟨ty, ty_eq, fits⟩ := Option.bind_eq_some_iff.mp known
    refine except_bind_eq_ok.mpr ⟨id, Ident.bound_eq_ok.mpr declares, ?_⟩
    refine except_bind_eq_ok.mpr ⟨ty, Arena.ty_eq_ok.mpr ty_eq, if_neg ?_⟩
    rw [fits, single]
    exact fun fails => fails.elim (· rfl) Bool.false_ne_true

/-- A constant is the target of values of a kind exactly if it is declared as a scalar of that
kind. -/
theorem ConstDecl.HasType.exists_target_iff
    (hasType : decl.HasType arena id declared)
    (suits : ∀ id ty, (arena.get id).ty = some ty -> ∃ base, ty.Suits base id) :
    (∃ own, decl.IsTarget arena kind own) ↔ decl.Takes arena kind := by
  obtain ⟨ty, ty_eq, kind_eq⟩ := hasType.scalarKind?_eq
  obtain ⟨asked, bound, typed⟩ := except_bind_eq_ok.mp hasType.declared_eq
  obtain ⟨descriptor, known, made⟩ := except_bind_eq_ok.mp typed
  obtain ⟨proto, instance_eq, sized⟩ := except_bind_eq_ok.mp made
  rw [Ident.bound_eq_ok] at bound
  rw [Arena.ty_eq_ok] at known
  obtain ⟨base, suits⟩ := suits asked descriptor known
  obtain rfl : descriptor = .descriptor proto := by
    rw [typing_eq_ok, Ty.instantiate, suits.bare_eq] at instance_eq
    split at instance_eq <;> cases instance_eq
    rfl
  have declared_eq (single : decl.length = none) : proto = declared := by
    rw [single] at sized
    split at sized <;> cases sized
    rfl
  have own_kind : (arena.get id).ty.bind Ty.scalarKind? = declared.scalarKind? := by
    rw [ty_eq]
    exact kind_eq
  constructor
  · rintro ⟨own, declares, single, fits⟩
    cases declares.symm.trans hasType.var_eq
    obtain rfl := declared_eq single
    exact ⟨single, asked, bound, suits.eq_scalar (own_kind.symm.trans fits) ▸ known⟩
  · rintro ⟨single, other, other_bound, other_ty⟩
    cases other_bound.symm.trans bound
    cases other_ty.symm.trans known
    obtain rfl := declared_eq single
    exact ⟨id, hasType.var_eq, single, own_kind⟩

end Takes

/-! ## What a value leaves of an arena -/

/-- Two arenas have the same names and the same types, up to scalars of one kind. -/
structure Arena.Revalues (before after : Arena) : Prop where
  /-- Names stay. -/
  name_eq : ∀ id, after.name id = before.name id
  /-- A type stays, or it is that of a scalar and stays one of its kind. -/
  ty_eq : ∀ id, (after.get id).ty = (before.get id).ty ∨
    ∃ kind, (before.get id).ty.bind Ty.scalarKind? = some kind ∧
      (after.get id).ty.bind Ty.scalarKind? = some kind

section Revalues

variable {before after : Arena} {kind : ScalarKind} {id other : VarId}

theorem ConstDecl.IsTarget.revalues (target : decl.IsTarget before value.kind id) :
    before.Revalues (Bundle.injectType before id value) := by
  obtain ⟨_, _, known⟩ := target
  cases value with
  | float | bool => exact ⟨fun _ => rfl, fun _ => .inl rfl⟩
  | int number =>
      refine ⟨(before.retypes_setTy id (.literal number)).name_eq, fun other => ?_⟩
      rw [Bundle.injectType, Arena.setTy, Arena.get_modify]
      split
      next same =>
        rw [← same.1]
        exact .inr ⟨.int, known, rfl⟩
      next => exact .inl rfl

variable (revalues : before.Revalues after)
include revalues

theorem Arena.Revalues.isTarget_iff :
    decl.IsTarget after kind id ↔ decl.IsTarget before kind id := by
  have kind_eq : (after.get id).ty.bind Ty.scalarKind? =
      (before.get id).ty.bind Ty.scalarKind? := by
    rcases revalues.ty_eq id with same | ⟨_, early, late⟩
    · rw [same]
    · rw [early, late]
  rw [ConstDecl.IsTarget, kind_eq]
  rfl

theorem Arena.Revalues.takes_iff :
    decl.Takes after kind ↔ decl.Takes before kind := by
  have ty_iff (asked : VarId) : (after.get asked).ty = some (.descriptor (.scalar kind)) ↔
      (before.get asked).ty = some (.descriptor (.scalar kind)) := by
    rcases revalues.ty_eq asked with same | ⟨_, early, late⟩
    · rw [same]
    · constructor <;> intro known
      · rw [known] at late
        cases late
      · rw [known] at early
        cases early
  simp only [ConstDecl.Takes, ty_iff]

end Revalues

/-! ## Texts for one name and for another -/

section Texts

variable {other first second : String} {stmt : Stmt}

theorem Module.exportedConst?_withText :
    Module.exportedConst? name (stmt.withText name text) =
      (Module.exportedConst? name stmt).map fun decl => { decl with injected := some text } := by
  rw [Stmt.withText]
  cases found : Module.exportedConst? name stmt with
  | none => exact found
  | some decl =>
      obtain ⟨_, isExported, name_eq⟩ := Module.eq_const_of_exportedConst? found
      exact Module.exportedConst?_const isExported name_eq

theorem Module.exportedConst?_withText_of_ne (different : other ≠ name) :
    Module.exportedConst? other (stmt.withText name text) = Module.exportedConst? other stmt := by
  rw [Stmt.withText]
  cases found : Module.exportedConst? name stmt with
  | none => rfl
  | some decl =>
      obtain ⟨rfl, _, name_eq⟩ := Module.eq_const_of_exportedConst? found
      simp [Module.exportedConst?, name_eq, different.symm]

/-- The later one of two texts stays. -/
theorem Stmt.withText_withText :
    (stmt.withText name first).withText name second = stmt.withText name second := by
  rw [withText, Module.exportedConst?_withText, withText, withText]
  cases Module.exportedConst? name stmt <;> rfl

theorem Stmt.withText_comm
    (different : other ≠ name) :
    (stmt.withText name first).withText other second =
      (stmt.withText other second).withText name first := by
  have eq_self {name text : String} {stmt : Stmt}
      (isOther : Module.exportedConst? name stmt = none) : stmt.withText name text = stmt := by
    rw [withText, isOther]
  cases found : Module.exportedConst? name stmt with
  | none =>
      have kept : Module.exportedConst? name (stmt.withText other second) = none := by
        rw [Module.exportedConst?_withText_of_ne different.symm, found]
      rw [eq_self found, eq_self kept]
  | some decl =>
      obtain ⟨rfl, _, name_eq⟩ := Module.eq_const_of_exportedConst? found
      have noOther : Module.exportedConst? other (.const decl) = none := by
        simp [Module.exportedConst?, name_eq, different.symm]
      have kept : Module.exportedConst? other ((Stmt.const decl).withText name first) = none := by
        rw [Module.exportedConst?_withText_of_ne different, noOther]
      rw [eq_self noOther, eq_self kept]

theorem Stmt.exportedConsts_withText :
    Stmt.exportedConsts name (block.map (Stmt.withText name text)) =
      (Stmt.exportedConsts name block).map fun decl => { decl with injected := some text } := by
  simp only [exportedConsts, List.filterMap_map, List.map_filterMap]
  exact List.filterMap_congr fun _ _ => Module.exportedConst?_withText

theorem Stmt.exportedConsts_withText_of_ne (different : other ≠ name) :
    Stmt.exportedConsts other (block.map (Stmt.withText name text)) =
      Stmt.exportedConsts other block := by
  rw [exportedConsts, List.filterMap_map]
  exact List.filterMap_congr fun _ _ => Module.exportedConst?_withText_of_ne different

end Texts

/-! ## Bundles with values -/

namespace Bundle

/-- A bundle with a value for an exported constant that declares a variable. -/
def given
    (bundle : Bundle)
    (name : String)
    (value : ConstValue)
    (id : VarId) : Bundle :=
  { bundle with
    arena := injectType bundle.arena id value
    modules := bundle.modules.map (Module.withText name value.text) }

/-- A name stands for a target of values of a kind. -/
def Targets
    (bundle : Bundle)
    (name : String)
    (kind : ScalarKind)
    (id : VarId) : Prop :=
  ∃ decl ∈ Stmt.exportedConsts name bundle.statements, decl.IsTarget bundle.arena kind id

variable {bundle after : Bundle} {kind : ScalarKind} {id own : VarId} {other : String}
variable {otherValue : ConstValue}

theorem statements_given :
    (bundle.given name value id).statements =
      bundle.statements.map (Stmt.withText name value.text) := by
  rw [statements, given, List.flatMap_map, statements, List.map_flatMap]
  rfl

/-- A value changes no target. -/
theorem targets_given_iff
    (target : bundle.Targets name value.kind id) :
    (bundle.given name value id).Targets other kind own ↔ bundle.Targets other kind own := by
  obtain ⟨_, _, target⟩ := target
  unfold Targets
  rw [statements_given]
  by_cases same : other = name
  · subst same
    rw [Stmt.exportedConsts_withText]
    simp only [List.mem_map, exists_exists_and_eq_and]
    exact exists_congr fun _ => and_congr_right fun _ => target.revalues.isTarget_iff
  · rw [Stmt.exportedConsts_withText_of_ne same]
    exact exists_congr fun _ => and_congr_right fun _ => target.revalues.isTarget_iff

/-- A later value of the same kind overrides an earlier one. -/
theorem given_given
    (kind_eq : otherValue.kind = value.kind) :
    (bundle.given name value id).given name otherValue id = bundle.given name otherValue id := by
  have arena_eq : injectType (injectType bundle.arena id value) id otherValue =
      injectType bundle.arena id otherValue := by
    cases value <;> cases otherValue <;> cases kind_eq <;> try rfl
    simp [injectType, Arena.setTy, Arena.modify, ← Array.toList_inj, List.modify_modify_eq,
      Function.comp_def]
  simp [given, arena_eq, Module.withText, Stmt.withText_withText, Function.comp_def]

/-- Values for two names may be given in any order. -/
theorem given_comm
    (different : other ≠ name)
    (apart : own ≠ id) :
    (bundle.given name value id).given other otherValue own =
      (bundle.given other otherValue own).given name value id := by
  have arena_eq : injectType (injectType bundle.arena id value) own otherValue =
      injectType (injectType bundle.arena own otherValue) id value := by
    cases value <;> cases otherValue <;> try rfl
    simp [injectType, Arena.setTy, Arena.modify, ← Array.toList_inj,
      List.modify_modify_ne _ _ _ apart.symm]
  simp [given, arena_eq, Module.withText, Stmt.withText_comm different, Function.comp_def]

/-- What makes values for constants independent of each other. -/
structure HasTargets (bundle : Bundle) : Prop where
  /-- One constant is exported under a name. -/
  unique : ∀ name, ∀ decl ∈ Stmt.exportedConsts name bundle.statements,
    Stmt.exportedConsts name bundle.statements = [decl]
  /-- Constants under different names are different variables. -/
  apart : ∀ first, ∀ decl ∈ Stmt.exportedConsts first bundle.statements,
    ∀ second, ∀ other ∈ Stmt.exportedConsts second bundle.statements,
      decl.name.var = other.name.var -> first = second
  /-- Constants take values as declared. -/
  decides : ∀ name, ∀ decl ∈ Stmt.exportedConsts name bundle.statements, ∀ kind,
    (∃ id, decl.IsTarget bundle.arena kind id) ↔ decl.Takes bundle.arena kind
  /-- Constants can be written. -/
  written : ∀ name, ∀ decl ∈ Stmt.exportedConsts name bundle.statements, ∀ arena,
    ∃ text, Emission.constText arena decl = .ok text

namespace HasTargets

variable (has : bundle.HasTargets)
include has

/-- A value is taken by the target of its name. -/
theorem injectConst_iff :
    injectConst name value bundle = .ok () after ↔
      ∃ id, bundle.Targets name value.kind id ∧ after = bundle.given name value id := by
  have run_iff : injectConst name value bundle = .ok () after ↔
      ∃ changed, injectInto name value bundle.arena bundle.modules = .ok changed ∧
        after = { bundle with arena := changed.1, modules := changed.2 } := by
    rw [injectConst, get_bind_apply]
    cases outcome : injectInto name value bundle.arena bundle.modules with
    | error error =>
        constructor
        · rintro ⟨⟩
        · rintro ⟨_, ⟨⟩, _⟩
    | ok changed =>
        constructor
        · rintro ⟨⟩
          exact ⟨changed, rfl, rfl⟩
        · rintro ⟨_, ⟨⟩, rfl⟩
          rfl
  rw [run_iff]
  unfold Targets
  cases consts_eq : Stmt.exportedConsts name bundle.statements with
  | nil =>
      rw [injectInto_eq_error consts_eq]
      simp
  | cons decl rest =>
      have unique := has.unique name decl (by simp [consts_eq])
      rw [injectInto_eq unique, ← consts_eq]
      simp only [unique, List.mem_singleton, exists_eq_left, ← injectionTarget_eq_ok_iff]
      constructor
      · rintro ⟨_, found, rfl⟩
        obtain ⟨id, target, found⟩ := except_bind_eq_ok.mp found
        cases found
        exact ⟨id, target, rfl⟩
      · rintro ⟨id, target, rfl⟩
        exact ⟨_, except_bind_eq_ok.mpr ⟨id, target, rfl⟩, rfl⟩

theorem exists_injectConst_iff :
    (∃ after, injectConst name value bundle = .ok () after) ↔
      ∃ id, bundle.Targets name value.kind id := by
  simp only [has.injectConst_iff]
  exact ⟨fun ⟨_, id, target, _⟩ => ⟨id, target⟩, fun ⟨id, target⟩ => ⟨_, id, target, rfl⟩⟩

/-- Values leave the targets of all names. -/
theorem given
    (target : bundle.Targets name value.kind id) :
    (bundle.given name value id).HasTargets := by
  obtain ⟨_, _, isTarget⟩ := target
  have revalues := isTarget.revalues
  -- A constant of the new bundle is one of the old bundle, up to its text.
  have origin {other : String} {decl : ConstDecl}
      (mem : decl ∈ Stmt.exportedConsts other (bundle.given name value id).statements) :
      ∃ original ∈ Stmt.exportedConsts other bundle.statements,
        Stmt.exportedConsts other (bundle.given name value id).statements = [decl] ∧
        (decl = original ∨ decl = { original with injected := some value.text }) := by
    rw [statements_given] at mem ⊢
    by_cases same : other = name
    · subst same
      rw [Stmt.exportedConsts_withText] at mem ⊢
      obtain ⟨original, isOriginal, rfl⟩ := List.mem_map.mp mem
      rw [has.unique _ original isOriginal]
      exact ⟨original, List.mem_singleton_self _, rfl, .inr rfl⟩
    · rw [Stmt.exportedConsts_withText_of_ne same] at mem ⊢
      exact ⟨decl, mem, has.unique _ decl mem, .inl rfl⟩
  refine ⟨fun _ decl mem => ?_, fun first decl isFirst second other isSecond same => ?_,
    fun _ decl mem kind => ?_, fun _ decl mem arena => ?_⟩
  · obtain ⟨_, _, unique, _⟩ := origin mem
    exact unique
  · obtain ⟨original, isOriginal, _, decl_eq⟩ := origin isFirst
    obtain ⟨another, isAnother, _, other_eq⟩ := origin isSecond
    refine has.apart first original isOriginal second another isAnother ?_
    rcases decl_eq with rfl | rfl <;> rcases other_eq with rfl | rfl <;> exact same
  · obtain ⟨original, isOriginal, _, decl_eq⟩ := origin mem
    have decides := has.decides _ original isOriginal kind
    simp only [← revalues.isTarget_iff, ← revalues.takes_iff] at decides
    rcases decl_eq with rfl | rfl <;> exact decides
  · obtain ⟨original, isOriginal, _, decl_eq⟩ := origin mem
    obtain ⟨text, written⟩ := has.written _ original isOriginal arena
    rcases decl_eq with rfl | rfl
    · exact ⟨text, written⟩
    · obtain ⟨typed, typed_eq, _⟩ := except_bind_eq_ok.mp written
      exact ⟨_, except_bind_eq_ok.mpr ⟨typed, typed_eq, rfl⟩⟩

theorem injectConst (run : Bundle.injectConst name value bundle = .ok () after) :
    after.HasTargets := by
  obtain ⟨id, target, rfl⟩ := has.injectConst_iff.mp run
  exact has.given target

variable {middle : Bundle}

/-- A later value for a name overrides an earlier one. -/
theorem injectConst_overrides (early : Bundle.injectConst name value bundle = .ok () middle) :
    Bundle.injectConst name otherValue middle = .ok () after ↔
      Bundle.injectConst name otherValue bundle = .ok () after := by
  obtain ⟨id, target, rfl⟩ := has.injectConst_iff.mp early
  rw [(has.given target).injectConst_iff, has.injectConst_iff]
  refine exists_congr fun own => ?_
  rw [targets_given_iff target]
  refine and_congr_right fun other => ?_
  obtain ⟨decl, mem, declares, _, known⟩ := target
  obtain ⟨_, isOther, isOwn, _, otherKnown⟩ := other
  rw [has.unique name decl mem, List.mem_singleton] at isOther
  subst isOther
  cases declares.symm.trans isOwn
  rw [given_given (Option.some.inj (otherKnown.symm.trans known))]

/-- Values for two names may be given in either order. -/
theorem injectConst_swap
    (different : other ≠ name)
    (early : Bundle.injectConst name value bundle = .ok () middle)
    (late : Bundle.injectConst other otherValue middle = .ok () after) :
    ∃ between, Bundle.injectConst other otherValue bundle = .ok () between ∧
      Bundle.injectConst name value between = .ok () after := by
  obtain ⟨id, target, rfl⟩ := has.injectConst_iff.mp early
  obtain ⟨own, otherTarget, rfl⟩ := (has.given target).injectConst_iff.mp late
  rw [targets_given_iff target] at otherTarget
  refine ⟨_, has.injectConst_iff.mpr ⟨own, otherTarget, rfl⟩,
    (has.given otherTarget).injectConst_iff.mpr ⟨id, (targets_given_iff otherTarget).mpr target,
      given_comm different fun same => different ?_⟩⟩
  obtain ⟨decl, mem, declares, _⟩ := target
  obtain ⟨another, isOther, isOwn, _⟩ := otherTarget
  refine has.apart other another isOther name decl mem ?_
  rw [declares, isOwn, same]

/-- Values for different names may be given in any order. -/
theorem injectAll_perm
    {values others : List (String × ConstValue)}
    (perm : values.Perm others)
    (differ : (values.map Prod.fst).Nodup)
    (run : Program.injectAll values bundle = .ok () after) :
    Program.injectAll others bundle = .ok () after := by
  induction perm generalizing bundle with
  | nil => exact run
  | cons entry _ ih =>
      obtain ⟨_, middle, early, late⟩ := bind_eq_ok.mp run
      exact bind_eq_ok.mpr
        ⟨(), middle, early, ih (has.injectConst early) (List.nodup_cons.mp differ).2 late⟩
  | swap first second rest =>
      obtain ⟨_, middle, early, run⟩ := bind_eq_ok.mp run
      obtain ⟨_, last, late, run⟩ := bind_eq_ok.mp run
      have different : first.1 ≠ second.1 := fun same => by simp [same] at differ
      obtain ⟨between, isFirst, isSecond⟩ := has.injectConst_swap different early late
      exact bind_eq_ok.mpr ⟨(), between, isFirst, bind_eq_ok.mpr ⟨(), last, isSecond, run⟩⟩
  | trans early _ first second =>
      exact second has ((early.map Prod.fst).nodup_iff.mp differ) (first has differ run)

end HasTargets

/-! ## The text around a constant -/

/-- One text is the other with a part of it replaced. -/
def Replaced (old new first second : String) : Prop :=
  ∃ front back, first = front ++ old ++ back ∧ second = front ++ new ++ back

theorem exists_intercalate_eq (separator : String) (early late : List String) :
    ∃ front back, ∀ text,
      separator.intercalate (early ++ text :: late) = front ++ text ++ back := by
  induction early with
  | nil =>
      cases late with
      | nil => exact ⟨"", "", fun text => by simp⟩
      | cons next rest =>
          refine ⟨"", separator ++ separator.intercalate (next :: rest), fun text => ?_⟩
          simp [String.append_assoc]
  | cons head rest ih =>
      obtain ⟨front, back, text_eq⟩ := ih
      refine ⟨head ++ separator ++ front, back, fun text => ?_⟩
      have rest_eq : separator.intercalate (head :: (rest ++ text :: late)) =
          head ++ separator ++ separator.intercalate (rest ++ text :: late) := by
        cases rest <;> exact String.intercalate_cons_cons
      rw [List.cons_append, rest_eq, text_eq]
      simp only [String.append_assoc]

variable {arena : Arena}

/-- An exported constant is always written. -/
theorem moduleChunks_const
    (text_eq : Emission.constText arena decl = .ok text)
    (isExported : decl.exported = true)
    (usage : Usage)
    (early late : List Stmt) :
    Emission.moduleChunks arena usage (early ++ .const decl :: late) = (do
      let front ← Emission.moduleChunks arena usage early
      let back ← Emission.moduleChunks arena usage late
      return front ++ [.text text] :: back) := by
  have kept : (Stmt.const decl).isKept usage true = true := by simp [Stmt.isKept, isExported]
  rw [Emission.moduleChunks_append, Emission.moduleChunks, if_pos kept, Emission.stmtPieces, text_eq]
  refine bind_congr fun front => ?_
  cases Emission.moduleChunks arena usage late <;> rfl

/-- Types have no part in the text. -/
theorem write_revalues
    (bundle : Bundle)
    (revalues : bundle.arena.Revalues arena)
    (spacing : Spacing) :
    { bundle with arena := arena }.write spacing = bundle.write spacing := by
  have eq_of_respelled {mentions : List Mention} {first second : String}
      (respelled : Respelled bundle.arena arena mentions first second) : second = first := by
    induction respelled with
    | fixed | int | float | word => rfl
    | name id => exact revalues.name_eq id
    | append _ _ early late => rw [early, late]
  have pieces_eq (mentions : List Mention) (first second : List Piece)
      (pieces : Laid bundle.arena arena mentions first second) : second = first := by
    induction pieces with
    | line respelled | head respelled => rw [eq_of_respelled respelled]
    | append _ _ early late => rw [early, late]
    | _ => rfl
  have alike := bundle.alike_write (fun id => .inl (revalues.name_eq id).symm) spacing
  generalize bundle.write spacing = first at alike
  generalize Bundle.write _ spacing = second at alike
  cases alike with
  | ok held =>
      obtain ⟨_, _, chunks, rfl, rfl⟩ := held
      rw [chunks.eq pieces_eq]
  | error => rfl

/-- One bundle is the other with a text for the one exported constant of a name.  What is
written differs in the initial value of that constant and nowhere else, whatever the spacing. -/
def ReplacesInitial (bundle after : Bundle) (name text : String) : Prop :=
  ∃ early decl late typed init,
    Stmt.exportedConsts name bundle.statements = [decl] ∧
    bundle.statements = early ++ .const decl :: late ∧
    after.statements = early ++ .const { decl with injected := some text } :: late ∧
    Emission.typedName bundle.arena decl.ty decl.name decl.length = .ok typed ∧
    Emission.constInitText bundle.arena decl = .ok init ∧
    ∀ spacing, Alike
      (Replaced ("const " ++ typed ++ init ++ ";") ("const " ++ typed ++ ("=" ++ text) ++ ";"))
      (bundle.write spacing) (after.write spacing)

theorem HasTargets.replacesInitial
    (has : bundle.HasTargets)
    (target : bundle.Targets name value.kind id) :
    ReplacesInitial bundle (bundle.given name value id) name value.text := by
  obtain ⟨decl, mem, target⟩ := target
  have unique := has.unique name decl mem
  obtain ⟨early, stmt, late, statements_eq, noneEarly, found, noneLate⟩ :=
    List.filterMap_eq_cons_iff.mp unique
  obtain ⟨rfl, isExported, name_eq⟩ := Module.eq_const_of_exportedConst? found
  have given_eq : (bundle.given name value id).statements =
      early ++ .const { decl with injected := some value.text } :: late := by
    rw [statements_given, statements_eq, List.map_append, List.map_cons, Stmt.withText, found,
      Stmt.map_withText_eq (List.filterMap_eq_nil_iff.mpr noneEarly),
      Stmt.map_withText_eq noneLate]
  obtain ⟨text, written⟩ := has.written name decl mem bundle.arena
  obtain ⟨typed, typed_eq, written'⟩ := except_bind_eq_ok.mp written
  obtain ⟨init, init_eq, text_eq⟩ := except_bind_eq_ok.mp written'
  cases text_eq
  refine ⟨early, decl, late, typed, init, unique, statements_eq, given_eq, typed_eq, init_eq,
    fun spacing => ?_⟩
  have changed : Emission.constText bundle.arena { decl with injected := some value.text } =
      .ok ("const " ++ typed ++ ("=" ++ value.text) ++ ";") :=
    except_bind_eq_ok.mpr ⟨typed, typed_eq, rfl⟩
  have write_eq : (bundle.given name value id).write spacing =
      { bundle with modules := bundle.modules.map (Module.withText name value.text) }.write
        spacing :=
    write_revalues { bundle with modules := bundle.modules.map (Module.withText name value.text) }
      target.revalues spacing
  rw [write_eq, write, write, chunks_eq, chunks_eq, ← statements, statements_eq,
    moduleChunks_const written isExported]
  change Alike _ _ (Emission.moduleChunks bundle.arena bundle.usage
    (bundle.given name value id).statements >>= _)
  rw [given_eq, moduleChunks_const changed isExported]
  cases Emission.moduleChunks bundle.arena bundle.usage early with
  | error error => exact .error error
  | ok front =>
      cases Emission.moduleChunks bundle.arena bundle.usage late with
      | error error => exact .error error
      | ok back =>
          obtain ⟨before, after, text_eq⟩ := exists_intercalate_eq "\n"
            (front.map (render spacing)) (back.map (render spacing))
          refine .ok ⟨versionLine bundle.version ++ before, after, ?_, ?_⟩
          · simp [text_eq, render, Piece.render, String.append_assoc]
          · simp [text_eq, render, Piece.render, String.append_assoc]

/-! ## Targets after a build -/

/-- Exported constants of modules are constants. -/
theorem sublist_consts (name : String) (bundle : Bundle) :
    (Stmt.exportedConsts name bundle.statements).Sublist bundle.consts := by
  have inModule (module : Module) : (Stmt.exportedConsts name module.statements).Sublist
      (module.parts.filterMap Stmt.const?) := by
    have filter_eq : Stmt.exportedConsts name module.statements =
        (module.statements.filterMap Stmt.const?).filter fun decl =>
          decl.exported && decl.name.name == name := by
      rw [Stmt.exportedConsts, List.filter_filterMap]
      refine List.filterMap_congr fun stmt _ => ?_
      cases stmt <;> simp [Module.exportedConst?, Stmt.const?, Option.filter]
    rw [filter_eq, Module.parts, Stmt.partsOfBlock_eq_flatMap]
    exact List.filter_sublist.trans ((Stmt.sublist_flatMap_parts _).filterMap _)
  rw [statements, consts]
  induction bundle.modules with
  | nil => exact .slnil
  | cons module rest ih =>
      rw [List.flatMap_cons, List.flatMap_cons, Stmt.exportedConsts, List.filterMap_append]
      exact (inModule module).append ih

section Finalized

variable {library : Library} {finalized : Bundle}

/-- An exported constant keeps its name. -/
theorem mem_sites_of_exportedConsts
    (isConst : decl ∈ Stmt.exportedConsts name bundle.statements)
    (declares : decl.name.var = some id) :
    ⟨id, name, [], true⟩ ∈ bundle.sites := by
  obtain ⟨mem, isExported, rfl⟩ := Stmt.mem_exportedConsts.mp isConst
  obtain ⟨module, isModule, isStmt⟩ := List.mem_flatMap.mp mem
  refine List.mem_flatMap.mpr ⟨module, isModule, List.mem_flatMap.mpr ⟨_, isStmt, ?_⟩⟩
  simp [Stmt.sitesInModule, Stmt.isKept, isExported, Stmt.mustKeep, Stmt.sites, Ident.sites,
    declares]

variable (fresh : IsFresh library bundle) (run : finalize library bundle = .ok () finalized)
include fresh run

/-- A finished build has targets for values. -/
theorem IsFresh.hasTargets : finalized.HasTargets := by
  have hasType {name : String} {decl : ConstDecl}
      (isConst : decl ∈ Stmt.exportedConsts name finalized.statements) :
      ∃ id declared, decl.HasType finalized.arena id declared :=
    (fresh.areTyped_finalized run).hasType decl ((sublist_consts name finalized).subset isConst)
  have distinct := fresh.areDistinct_finalized run
  have suits (id : VarId) (ty : Ty) (found : (finalized.arena.get id).ty = some ty) :
      ∃ base, ty.Suits base id := by
    obtain ⟨base, suits, _⟩ := fresh.suits_finalized run found
    exact ⟨base, suits⟩
  obtain ⟨_, _, _, _, spliced, unique, _, build, naming, _, rfl⟩ := finalize_eq_ok run
  have nameable := fresh.isNameable build
  obtain ⟨state, rfl, _, differ⟩ := nameable.inherits naming
  have site {name : String} {decl : ConstDecl} {id : VarId} :
      decl ∈ Stmt.exportedConsts name spliced.statements -> decl.name.var = some id ->
        ⟨id, name, [], true⟩ ∈ spliced.sites :=
    mem_sites_of_exportedConsts
  refine ⟨fun name decl isConst => ?_, fun first decl isFirst second other isSecond same => ?_,
    fun name decl isConst kind => ?_, fun name decl isConst arena => ?_⟩
  · rw [ConstDecl.AreDistinct, ConstDecl.vars, List.pairwise_map] at distinct
    have apart := distinct.sublist (sublist_consts name _)
    -- Two constants of one name would be one variable, since both keep the name.
    cases consts_eq : Stmt.exportedConsts name spliced.statements with
    | nil => exact (List.not_mem_nil (consts_eq ▸ isConst)).elim
    | cons head rest =>
        cases rest with
        | nil => exact List.mem_singleton.mp (consts_eq ▸ isConst) ▸ consts_eq
        | cons next rest =>
            have isHead : head ∈ Stmt.exportedConsts name spliced.statements := by simp [consts_eq]
            have isNext : next ∈ Stmt.exportedConsts name spliced.statements := by simp [consts_eq]
            obtain ⟨id, _, early⟩ := hasType isHead
            obtain ⟨own, _, late⟩ := hasType isNext
            obtain rfl : id = own :=
              differ _ (site isHead early.var_eq) _ (site isNext late.var_eq) rfl rfl rfl
            have apart : (head :: next :: rest).Pairwise _ := consts_eq ▸ apart
            exact ((List.pairwise_cons.mp apart).1 next List.mem_cons_self id early.var_eq
              late.var_eq).elim
  · obtain ⟨id, _, hasType⟩ := hasType isFirst
    have early : ⟨id, first, [], true⟩ ∈ spliced.sites := site isFirst hasType.var_eq
    have late : ⟨id, second, [], true⟩ ∈ spliced.sites :=
      site isSecond (same ▸ hasType.var_eq)
    exact (nameable.named _ early).symm.trans (nameable.named _ late)
  · obtain ⟨id, _, hasType⟩ := hasType isConst
    exact hasType.exists_target_iff suits
  · obtain ⟨mem, isExported, _⟩ := Stmt.mem_exportedConsts.mp isConst
    obtain ⟨module, isModule, isStmt⟩ := List.mem_flatMap.mp mem
    have kept : (Stmt.const decl).isKept spliced.usage true = true := by
      simp [Stmt.isKept, isExported]
    obtain ⟨_, writes⟩ := fresh.writesAll_spliced build module isModule _ isStmt kept
    obtain ⟨pieces, written⟩ := (writes arena).exists_iff.mpr (List.forall_mem_nil _)
    obtain ⟨text, text_eq, _⟩ := except_bind_eq_ok.mp written
    exact ⟨text, text_eq⟩

end Finalized

/-! ## Values one after the other -/

/-- The bundle after attempts to give values to constants.  Some of them may fail. -/
def attemptAll
    (values : List (String × ConstValue))
    (bundle : Bundle) : Bundle :=
  values.foldl (fun bundle entry => leftBy (injectConst entry.1 entry.2 bundle)) bundle

/-- Attempts leave the targets of all names. -/
theorem HasTargets.attemptAll
    (has : bundle.HasTargets)
    (values : List (String × ConstValue)) :
    (bundle.attemptAll values).HasTargets := by
  induction values generalizing bundle with
  | nil => exact has
  | cons entry rest ih =>
      have kept : (leftBy (Bundle.injectConst entry.1 entry.2 bundle)).HasTargets := by
        cases run : Bundle.injectConst entry.1 entry.2 bundle with
        | ok _ after => exact has.injectConst run
        | error _ after =>
            rw [leftBy, eq_of_injectConst_error run]
            exact has
      exact ih kept

/-- Values are given to constants as a whole or not at all, to one constant each, and in any
order. -/
structure InjectsLocally (bundle : Bundle) : Prop where
  /-- A value that is not taken changes nothing. -/
  unchanged : ∀ name value error after,
    injectConst name value bundle = .error error after -> after = bundle
  /-- A value is taken exactly if a module exports a constant of that name that is declared as
  a scalar of its kind. -/
  succeeds_iff : ∀ name value, (∃ after, injectConst name value bundle = .ok () after) ↔
    ∃ module ∈ bundle.modules, ∃ decl, .const decl ∈ module.statements ∧
      decl.exported = true ∧ decl.name.name = name ∧ decl.Takes bundle.arena value.kind
  /-- That constant is the only one, and its initial value is what changes. -/
  replaces : ∀ name value after, injectConst name value bundle = .ok () after ->
    ReplacesInitial bundle after name value.text
  /-- A later value for a name overrides an earlier one. -/
  overrides : ∀ name value middle, injectConst name value bundle = .ok () middle ->
    ∀ later after, injectConst name later middle = .ok () after ↔
      injectConst name later bundle = .ok () after
  /-- A value that is taken has no part in whether others are. -/
  independent : ∀ name value middle, injectConst name value bundle = .ok () middle ->
    ∀ other later, (∃ after, injectConst other later middle = .ok () after) ↔
      ∃ after, injectConst other later bundle = .ok () after
  /-- Values for different names may be given in any order. -/
  commutes : ∀ values others, values.Perm others -> (values.map Prod.fst).Nodup ->
    ∀ after, Program.injectAll values bundle = .ok () after ->
      Program.injectAll others bundle = .ok () after

theorem HasTargets.injectsLocally (has : bundle.HasTargets) :
    bundle.InjectsLocally where
  unchanged _ _ _ _ := eq_of_injectConst_error
  succeeds_iff name value := by
    rw [has.exists_injectConst_iff]
    constructor
    · rintro ⟨id, decl, isConst, target⟩
      obtain ⟨mem, isExported, name_eq⟩ := Stmt.mem_exportedConsts.mp isConst
      obtain ⟨module, isModule, isStmt⟩ := List.mem_flatMap.mp mem
      exact ⟨module, isModule, decl, isStmt, isExported, name_eq,
        (has.decides name decl isConst _).mp ⟨id, target⟩⟩
    · rintro ⟨module, isModule, decl, isStmt, isExported, name_eq, takes⟩
      have isConst : decl ∈ Stmt.exportedConsts name bundle.statements :=
        Stmt.mem_exportedConsts.mpr
          ⟨List.mem_flatMap.mpr ⟨module, isModule, isStmt⟩, isExported, name_eq⟩
      obtain ⟨id, target⟩ := (has.decides name decl isConst _).mpr takes
      exact ⟨id, decl, isConst, target⟩
  replaces name value after run := by
    obtain ⟨id, target, rfl⟩ := has.injectConst_iff.mp run
    exact has.replacesInitial target
  overrides _ _ _ early _ _ := has.injectConst_overrides early
  independent name value middle early other later := by
    obtain ⟨id, target, rfl⟩ := has.injectConst_iff.mp early
    rw [has.exists_injectConst_iff, (has.given target).exists_injectConst_iff]
    exact exists_congr fun _ => targets_given_iff target
  commutes _ _ perm differ _ := has.injectAll_perm perm differ

/-- After a build and any attempts to give values to constants, every further value is given
to one constant or to none, and the order of values for different names does not matter. -/
theorem attemptAll_injectsLocally
    {library : Library}
    {finalized : Bundle}
    (fresh : IsFresh library bundle)
    (run : finalize library bundle = .ok () finalized)
    (values : List (String × ConstValue)) :
    (finalized.attemptAll values).InjectsLocally :=
  ((fresh.hasTargets run).attemptAll values).injectsLocally

/-- A constant gets a value, another one of no exported name gets none. -/
theorem attemptAll_counted_injectsLocally :
    ∃ finalized, finalize ⟨[]⟩ Sample.counted = .ok () finalized ∧
      (finalized.attemptAll [("N", .int 5), ("M", .int 1)]).write ⟨"\n", " "⟩ =
        .ok Sample.countedText ∧
      (finalized.attemptAll [("N", .int 5), ("M", .int 1)]).InjectsLocally := by
  have passed : passes (fun finalized =>
      decide ((finalized.attemptAll [("N", .int 5), ("M", .int 1)]).write ⟨"\n", " "⟩ =
        .ok Sample.countedText))
      (finalize ⟨[]⟩ Sample.counted) = true := by
    decide +kernel
  obtain ⟨finalized, run, text_eq⟩ := exists_of_passes passed
  exact ⟨finalized, run, of_decide_eq_true text_eq,
    attemptAll_injectsLocally Sample.isFresh_counted run _⟩

end Bundle

end ModularGlsl
