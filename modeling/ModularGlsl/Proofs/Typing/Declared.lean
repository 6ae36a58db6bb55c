import ModularGlsl.Proofs.Declarations
import ModularGlsl.Proofs.Typing.Settled

/-!
# Typed programs

When typing succeeds, the types of variables fit their declarations: a package
has none, only built-in names and structs stand for types, and the structs in a
type were declared before the variable or are the variable itself.  Only constants
are known integers.  A typed tree reads no packages, and stores to no constants.
-/

namespace ModularGlsl

/-! ## Types of variables -/

/-- Kinds of declarations whose variables may stand for types. -/
def DeclKind.NamesType : DeclKind -> Prop
  | builtin | struct => True
  | _ => False

variable {stored : Layout Ty -> Prop} {arena : Arena} {ty : Ty} {id : VarId}

namespace Ty

theorem IsPlain.isValue (isPlain : ty.IsPlain stored) :
    ty.IsValue := by
  induction isPlain with
  | scalar kind => exact .scalar kind
  | vector kind => exact .vector kind _
  | array _ _ _ ih => exact .array ih _
  | struct _ _ ih => exact .struct ih

theorem IsInput.isValue (isInput : ty.IsInput stored) :
    ty.IsValue := by
  cases isInput with
  | plain isPlain => exact isPlain.isValue
  | sampler kind => exact .sampler kind
  | samplers kind => exact .array (.sampler kind) _

/-- The types that a variable may have may be those of expressions. -/
theorem Suits.appears (suits : ty.Suits arena id) :
    ty.Appears := by
  cases suits with
  | plain isPlain => exact .value isPlain.isValue
  | input _ fits => exact .value fits.isValue
  | known _ value => exact .literal value
  | builtinType _ fits _ => exact .descriptor fits.isValue
  | struct _ _ _ isPlain => exact .descriptor isPlain.isValue
  | builtinFunction _ _ result =>
      exact .function fun signature isOwn ty mem => (result signature isOwn ty mem).isValue
  | function _ _ overloads_eq _ result =>
      refine .function fun signature isOwn ty mem => ?_
      rw [overloads_eq, List.mem_singleton] at isOwn
      subst isOwn
      exact (result ty mem).isValue

section

variable {limit : VarId} (below : ∀ layout, stored layout -> layout.owner < limit)
include below

theorem IsPlain.structsBelow (isPlain : ty.IsPlain stored) :
    ty.StructsBelow limit := by
  induction isPlain with
  | scalar kind => exact .scalar kind
  | vector kind => exact .vector kind _
  | array _ _ _ ih => exact .array ih _
  | struct isKnown _ ih => exact .struct (below _ isKnown.isStored) ih

theorem IsInput.structsBelow (isInput : ty.IsInput stored) :
    ty.StructsBelow limit := by
  cases isInput with
  | plain isPlain => exact isPlain.structsBelow below
  | sampler kind => exact .sampler kind
  | samplers kind => exact .array (.sampler kind) _

end

/-- No struct in the type of a variable is declared after the variable. -/
theorem Suits.structsBelow (suits : ty.Suits arena id) :
    ty.StructsBelow (id + 1) := by
  cases suits with
  | plain isPlain => exact isPlain.structsBelow fun _ => And.right
  | input _ fits => exact fits.structsBelow fun _ => And.right
  | known _ value => exact .literal value
  | builtinType _ fits _ => exact .descriptor (fits.structsBelow fun _ => False.elim)
  | struct _ _ _ isPlain => exact .descriptor (isPlain.structsBelow fun _ => And.right)
  | builtinFunction _ _ result =>
      exact .function fun signature isOwn ty mem =>
        (result signature isOwn ty mem).structsBelow fun _ => False.elim
  | function _ _ overloads_eq _ result =>
      refine .function fun signature isOwn ty mem => ?_
      rw [overloads_eq, List.mem_singleton] at isOwn
      subst isOwn
      exact (result ty mem).structsBelow fun _ => And.right

/-- What stands for a type is a struct or built in. -/
theorem Suits.namesType
    (suits : (Ty.descriptor ty).Suits arena id) :
    (arena.get id).decl.NamesType := by
  cases suits with
  | plain isPlain => cases isPlain
  | input _ fits => cases fits with | plain isPlain => cases isPlain
  | builtinType isBuiltin => rw [isBuiltin]; trivial
  | struct isStruct => rw [isStruct]; trivial

/-- A known integer is that of a constant. -/
theorem Suits.exists_const
    {value : Int}
    (suits : (Ty.literal value).Suits arena id) :
    ∃ exported, (arena.get id).decl = .const exported :=
  (suits.isWellFormed.literal value (.self _)).2

/-- What stands for no struct is built in. -/
theorem Suits.isBuiltin
    (suits : (Ty.descriptor ty).Suits arena id)
    (isSimple : ty.isSimple = true) :
    (arena.get id).decl = .builtin := by
  cases suits with
  | plain isPlain => cases isPlain
  | input _ fits => cases fits with | plain isPlain => cases isPlain
  | builtinType isBuiltin => exact isBuiltin
  | struct => cases isSimple

end Ty

/-! ## Trees -/

/-- An identifier stands for a type. -/
def Ident.IsType
    (arena : Arena)
    (ident : Ident) : Prop :=
  ∃ id, ident.var = some id ∧ (arena.get id).members = none ∧ (arena.get id).decl.NamesType

/-- The name of a type that a declaration asks for stands for a type. -/
theorem Arena.IsFormed.isType
    (formed : arena.IsFormed)
    {ty : Ident}
    (asked : Typing.IsAsked arena ty) :
    ty.IsType arena := by
  obtain ⟨_, _, _, _, found⟩ := asked
  obtain ⟨id, descriptor, proto, bound, known, describes, _⟩ :=
    Typing.exists_descriptor_of_declaredType found
  have suits := formed.suits id descriptor known
  rw [suits.bare_eq] at describes
  subst describes
  exact ⟨id, bound, formed.members_eq id _ known, suits.namesType⟩

/-- An expression reads no package. -/
def Expr.IsTyped
    (arena : Arena)
    (expr : Expr) : Prop :=
  ∀ id ∈ expr.reads, (arena.get id).members = none

/-- The names of types in a statement stand for types, and a bare variable that
it stores to is no constant. -/
def Stmt.HasTypes (arena : Arena) : Stmt -> Prop
  | .precision _ ty _ => ty.IsType arena
  | .interface decl => decl.ty.IsType arena
  | .const decl => decl.ty.IsType arena
  | .var decl => decl.ty.IsType arena
  | .struct decl => ∀ member ∈ decl.members, member.ty.IsType arena
  | .function header _ =>
      (∀ ty ∈ header.result, ty.IsType arena) ∧ ∀ param ∈ header.params, param.ty.IsType arena
  | .assign target _ _ _ =>
      ∀ ident, target = .var ident -> ∃ id, ident.var = some id ∧ (arena.get id).constant = false
  | _ => True

/-- The names of types in a statement that passed stand for types, and it stores to no
constant. -/
theorem Stmt.IsPassed.hasTypes
    {stmt : Stmt}
    (passed : stmt.IsPassed arena)
    (formed : arena.IsFormed) :
    stmt.HasTypes arena := by
  have asked (ty : Ident) (mem : ty ∈ stmt.typeNames) : ty.IsType arena :=
    formed.isType (passed.asked ty mem)
  cases stmt with
  | precision | interface | const | var => exact asked _ List.mem_cons_self
  | struct => exact List.forall_mem_map.mp asked
  | function =>
      obtain ⟨result, params⟩ := List.forall_mem_append.mp asked
      exact ⟨fun ty mem => result ty (Option.mem_toList.mpr mem), List.forall_mem_map.mp params⟩
  | assign target =>
      obtain ⟨before, _, early, _, _, _, _, run⟩ := passed.declared
      obtain ⟨_, _, found⟩ := Typing.exists_of_checkAssign (Typing.use_eq_ok.mp run).1
      rintro ident rfl
      obtain ⟨id, stores⟩ := Expr.exists_storesTo_of_targetType _ found
      cases stores with
      | var bound changes => exact ⟨id, bound, by rw [early.retypes.constant_eq, changes]⟩
  | _ => trivial

/-- An expression with a type reads no package. -/
theorem Expr.HasType.isTyped
    {expr : Expr}
    (typed : expr.HasType arena)
    (formed : arena.IsFormed) :
    expr.IsTyped arena := by
  intro id mem
  obtain ⟨_, typed⟩ := typed
  obtain ⟨known, found⟩ := expr.exists_ty_of_typeOf typed id mem
  exact formed.members_eq id known found

/-! ## Programs -/

/-- All statements of a module are typed. -/
def Module.IsTyped
    (arena : Arena)
    (module : Module) : Prop :=
  Stmt.EveryIn (Expr.IsTyped arena) (Stmt.HasTypes arena) module.statements

namespace Bundle

section

variable {library : Library} {bundle placed named typed : Bundle} (fresh : IsFresh library bundle)
variable (build : Typed library bundle placed named typed)
include fresh build

/-- After a fresh bundle is typed, its variables have types that they may have. -/
theorem IsFresh.isFormed_typed : typed.arena.IsFormed := by
  have goes := (fresh.placed build.placing).goes_checkModules build.binding
  obtain ⟨arena, checked, rfl⟩ := evalTypes_eq_ok build.typing
  rw [checked] at goes
  exact goes.formed_leftBy

theorem IsFresh.isTyped :
    ∀ module ∈ typed.modules, module.IsTyped typed.arena := by
  have formed := fresh.isFormed_typed build
  refine fun module mem => (Stmt.everyIn_iff_parts _).mpr fun part isPart => ?_
  have passed := (fresh.placed build.placing).isPassed build.binding build.typing mem part isPart
  exact ⟨passed.hasTypes formed, fun expr isExpr => (passed.typed expr isExpr).isTyped formed⟩

/-- Variables with types are declared: only those of the stage are built in, and constants by
declarations of constants. -/
theorem IsFresh.declared_typed
    (found : (typed.arena.get id).ty = some ty) :
    ((typed.arena.get id).decl = .builtin -> id < bundle.stage.arena.size) ∧
      ∀ exported, (typed.arena.get id).decl = .const exported ->
        some id ∈ ConstDecl.vars typed.consts := by
  have formed := fresh.isFormed_typed build
  obtain ⟨grows, bound⟩ := fresh.isInRange.areBound build.toNamed
  obtain ⟨arena, checked, rfl⟩ := evalTypes_eq_ok build.typing
  have retypes := Typing.KeepsArena.retypes checked
  rw [fresh.arena_eq] at bound grows
  rcases Nat.lt_or_ge id bundle.stage.arena.size with isProvided | outside
  · obtain ⟨_, _, record_eq⟩ := get_builtins bundle.stage isProvided
    rw [retypes.decl_eq, grows.get_eq id isProvided, record_eq]
    exact ⟨fun _ => isProvided, fun _ => by rintro ⟨⟩⟩
  · have inside : id < named.arena.size := retypes.size_eq ▸ Arena.lt_size_of_ty found
    obtain ⟨ident, isDeclared, var_eq⟩ := (bound arena retypes.keeps).ascend.covers id outside
      inside fun isPackage => isPackage (formed.members_eq id ty found)
    obtain ⟨module, mem, isDeclared⟩ := List.mem_flatMap.mp isDeclared
    obtain ⟨part, isPart, isDeclared⟩ := List.mem_flatMap.mp isDeclared
    have isPlaced := (bound arena retypes.keeps).of_mem_parts (fun _ => List.mem_range.mp) module
      mem part isPart
    obtain ⟨other, kind, declares, notBuiltin, isConst⟩ := isPlaced.declares ident isDeclared
    cases declares.var_eq.symm.trans var_eq
    rw [declares.decl_eq]
    refine ⟨fun isBuiltin => absurd isBuiltin notBuiltin, fun exported same => ?_⟩
    obtain ⟨decl, rfl, rfl⟩ := isConst exported same
    rw [← var_eq]
    exact List.mem_map_of_mem (mem_consts.mpr ⟨module, mem, isPart⟩)

end

end Bundle

end ModularGlsl
