import ModularGlsl.Proofs.Liveness.Reads
import ModularGlsl.Proofs.Typing.Visits

/-!
# Settled types

Every variable gets its type once, before anything reads it.  The types that typing
found on its way are therefore those of the last arena: there all expressions of a
typed program have types, variables of the interface have the types that their
declarations ask for, and the type of a constant follows from its initial value.
-/

namespace ModularGlsl

/-! ## Arenas that agree on a variable -/

/-- Two arenas hold the same record of a variable up to its name. -/
def Arena.AgreesOn
    (before after : Arena)
    (id : VarId) : Prop :=
  after.get id = { before.get id with name := after.name id }

variable {id : VarId}

namespace Arena.AgreesOn

variable {before after : Arena}

theorem of_get_eq (same : after.get id = before.get id) : before.AgreesOn after id := by
  unfold AgreesOn Arena.name
  rw [same]

section

variable (agrees : before.AgreesOn after id)
include agrees

theorem ty_eq : (after.get id).ty = (before.get id).ty := by
  rw [agrees]

theorem members_eq :
    (after.get id).members = (before.get id).members := by
  rw [agrees]

theorem decl_eq :
    (after.get id).decl = (before.get id).decl := by
  rw [agrees]

end

end Arena.AgreesOn

variable {declared : Ty} {length : Option Nat} {allowSampler : Bool} {expr : Expr} {ty : Ty}
variable {span : Span}

section Agreement

variable {before after : Arena}

theorem Ident.typeOf_of_agrees
    {ident : Ident}
    (agrees : ∀ id ∈ ident.var, before.AgreesOn after id)
    (typed : ident.typeOf before = .ok ty) :
    ident.typeOf after = .ok ty := by
  obtain ⟨id, bound, typed⟩ := except_bind_eq_ok.mp typed
  have same := agrees id (Ident.bound_eq_ok.mp bound)
  refine except_bind_eq_ok.mpr ⟨id, bound, ?_⟩
  rw [Variable.isPackage] at typed ⊢
  rw [same.members_eq]
  split at typed
  · cases typed
  next isValue =>
    rw [if_neg isValue]
    obtain ⟨known, found, typed⟩ := except_bind_eq_ok.mp typed
    refine except_bind_eq_ok.mpr ⟨known, ?_, typed⟩
    rw [Arena.ty_eq_ok] at found ⊢
    rw [same.ty_eq, found]

/-- The type of an expression follows from the types of the variables that it reads. -/
theorem Expr.typeOf_of_agrees
    (expr : Expr)
    (agrees : ∀ id ∈ expr.reads, before.AgreesOn after id)
    (typed : expr.typeOf before = .ok ty) :
    expr.typeOf after = .ok ty := by
  replace typed := expr.typed_of_typeOf typed
  refine Expr.Typed.typeOf_eq ?_
  induction typed with
  | int | float | bool => constructor
  | var found =>
      refine .var (Ident.typeOf_of_agrees (fun id bound => agrees id ?_) found)
      exact Option.mem_toList.mpr bound
  | path found => exact .path (by rw [(agrees _ (List.mem_singleton_self _)).ty_eq, found])
  | member _ found object => exact .member (object agrees) found
  | index _ _ known found container position =>
      obtain ⟨inContainer, inPosition⟩ := List.forall_mem_append.mp agrees
      exact .index (container inContainer) (position inPosition) known found
  | getIndex _ _ isInt found container position =>
      obtain ⟨inContainer, inPosition⟩ := List.forall_mem_append.mp agrees
      exact .getIndex (container inContainer) (position inPosition) isInt found
  | call _ _ found callee args =>
      obtain ⟨inCallee, inArguments⟩ := List.forall_mem_append.mp agrees
      exact .call (callee inCallee) (fun argument mem => args argument mem
        fun id isRead => inArguments id (mem_readsOfAll.mpr ⟨argument, mem, isRead⟩)) found
  | binary _ _ found left right =>
      obtain ⟨inLeft, inRight⟩ := List.forall_mem_append.mp agrees
      exact .binary (left inLeft) (right inRight) found
  | unary _ found operand => exact .unary (operand agrees) found
  | paren _ inner => exact .paren (inner agrees)

/-- The types of expressions follow from the types of the variables they read. -/
theorem Expr.typesOf_of_agrees
    (exprs : List Expr)
    (agrees : ∀ id ∈ Expr.readsOfAll exprs, before.AgreesOn after id)
    {tys : List Ty}
    (typed : Expr.typesOf before exprs = .ok tys) :
    Expr.typesOf after exprs = .ok tys := by
  obtain ⟨each, rfl⟩ := Expr.of_typesOf typed
  exact Expr.typesOf_map fun expr mem => expr.typeOf_of_agrees
    (fun id isRead => agrees id (mem_readsOfAll.mpr ⟨expr, mem, isRead⟩)) (each expr mem)

/-- The type that a declaration asks for is that of a variable. -/
theorem Typing.declaredType_of_agrees
    {ty : Ident}
    (agrees : ∀ id ∈ ty.var, before.AgreesOn after id)
    (found : declaredType before ty length allowSampler span = .ok declared) :
    declaredType after ty length allowSampler span = .ok declared := by
  obtain ⟨id, bound, found⟩ := except_bind_eq_ok.mp found
  obtain ⟨descriptor, known, found⟩ := except_bind_eq_ok.mp found
  refine except_bind_eq_ok.mpr ⟨id, bound, except_bind_eq_ok.mpr ⟨descriptor, ?_, found⟩⟩
  rw [Arena.ty_eq_ok] at known ⊢
  rw [(agrees id (Ident.bound_eq_ok.mp bound)).ty_eq, known]

end Agreement

/-! ## Settled trees -/

/-- An expression over variables with smaller numbers has a type. -/
structure Expr.IsSettled
    (limit : VarId)
    (arena : Arena)
    (expr : Expr) : Prop where
  /-- The variables have smaller numbers. -/
  below : ∀ id ∈ expr.reads, id < limit
  /-- The expression has a type. -/
  typed : ∃ ty, expr.typeOf arena = .ok ty

/-- A variable of the interface has the type that its declaration asks for, which is a
scalar or a vector unless it is a uniform. -/
structure InterfaceDecl.HasType
    (arena : Arena)
    (decl : InterfaceDecl)
    (id : VarId)
    (declared : Ty) : Prop where
  /-- The declared variable. -/
  var_eq : decl.name.var = some id
  /-- The variable is of the kind of the declaration. -/
  decl_eq : (arena.get id).decl = Binding.declKind decl.kind
  /-- The declaration asks for the type. -/
  declared_eq :
    Typing.declaredType arena decl.ty decl.length (decl.kind == .uniform) decl.span = .ok declared
  /-- Only uniforms may be anything. -/
  isSimple : decl.kind ≠ .uniform -> declared.isSimple = true
  /-- The variable has the type. -/
  ty_eq : (arena.get id).ty = some declared

/-- A constant has the type that its declaration asks for, or a known integer if its
initial value is one. -/
structure ConstDecl.HasType
    (arena : Arena)
    (decl : ConstDecl)
    (id : VarId)
    (declared : Ty) : Prop where
  /-- The declared variable. -/
  var_eq : decl.name.var = some id
  /-- The variable is a constant. -/
  decl_eq : (arena.get id).decl = .const decl.exported
  /-- The declaration asks for the type. -/
  declared_eq : Typing.declaredType arena decl.ty decl.length false decl.span = .ok declared
  /-- The initial value reads earlier variables only. -/
  below : ∀ init ∈ decl.init, ∀ other ∈ init.reads, other < id
  /-- The type follows from that of the initial value. -/
  initial : ∀ init ∈ decl.init, ∃ ty, init.typeOf arena = .ok ty ∧
    (arena.get id).ty = some (Typing.constType declared ty)
  /-- Without an initial value it is the type that the declaration asks for. -/
  missing : decl.init = none -> (arena.get id).ty = some declared

/-- Interface variables and constants have types, and so have the names of their types,
which have smaller numbers. -/
def Stmt.IsSettled
    (limit : VarId)
    (arena : Arena) : Stmt -> Prop
  | .interface decl => (∀ id ∈ decl.ty.var, id < limit) ∧
      ∃ id declared, id < limit ∧ decl.HasType arena id declared
  | .const decl => (∀ id ∈ decl.ty.var, id < limit) ∧
      ∃ id declared, id < limit ∧ decl.HasType arena id declared
  | _ => True

variable {stmt : Stmt}

section Agreement

variable {before after : Arena} {low high : VarId}

theorem InterfaceDecl.HasType.agrees
    {decl : InterfaceDecl}
    (hasType : decl.HasType before id declared)
    (own : before.AgreesOn after id)
    (asked : ∀ id ∈ decl.ty.var, before.AgreesOn after id) :
    decl.HasType after id declared where
  var_eq := hasType.var_eq
  decl_eq := own.decl_eq.trans hasType.decl_eq
  declared_eq := Typing.declaredType_of_agrees asked hasType.declared_eq
  isSimple := hasType.isSimple
  ty_eq := own.ty_eq.trans hasType.ty_eq

/-- Types of constants stay where arenas agree. -/
theorem ConstDecl.HasType.agrees
    {decl : ConstDecl}
    (hasType : decl.HasType before id declared)
    (earlier : ∀ other ≤ id, before.AgreesOn after other)
    (asked : ∀ id ∈ decl.ty.var, before.AgreesOn after id) :
    decl.HasType after id declared where
  var_eq := hasType.var_eq
  decl_eq := (earlier id (Nat.le_refl _)).decl_eq.trans hasType.decl_eq
  declared_eq := Typing.declaredType_of_agrees asked hasType.declared_eq
  below := hasType.below
  initial init isInit := by
    obtain ⟨ty, typed, ty_eq⟩ := hasType.initial init isInit
    refine ⟨ty, init.typeOf_of_agrees (fun other isRead => ?_) typed, ?_⟩
    · exact earlier other (Nat.le_of_lt (hasType.below init isInit other isRead))
    · exact (earlier id (Nat.le_refl _)).ty_eq.trans ty_eq
  missing isMissing := (earlier id (Nat.le_refl _)).ty_eq.trans (hasType.missing isMissing)

/-- Settled expressions stay so where arenas agree. -/
theorem Expr.IsSettled.agrees
    (settled : expr.IsSettled low before)
    (low_le : low ≤ high)
    (agrees : ∀ id < low, before.AgreesOn after id) :
    expr.IsSettled high after := by
  obtain ⟨ty, typed⟩ := settled.typed
  refine ⟨fun id isRead => Nat.lt_of_lt_of_le (settled.below id isRead) low_le, ty, ?_⟩
  exact expr.typeOf_of_agrees (fun id isRead => agrees id (settled.below id isRead)) typed

/-- Settled declarations stay so where arenas agree. -/
theorem Stmt.IsSettled.agrees
    (settled : stmt.IsSettled low before)
    (low_le : low ≤ high)
    (agrees : ∀ id < low, before.AgreesOn after id) :
    stmt.IsSettled high after := by
  cases stmt with
  | interface decl =>
      obtain ⟨asked, id, declared, below, hasType⟩ := settled
      refine ⟨fun other bound => Nat.lt_of_lt_of_le (asked other bound) low_le, id, declared,
        Nat.lt_of_lt_of_le below low_le, ?_⟩
      exact hasType.agrees (agrees id below) fun other bound => agrees other (asked other bound)
  | const decl =>
      obtain ⟨asked, id, declared, below, hasType⟩ := settled
      refine ⟨fun other bound => Nat.lt_of_lt_of_le (asked other bound) low_le, id, declared,
        Nat.lt_of_lt_of_le below low_le, ?_⟩
      refine hasType.agrees (fun other le => ?_) fun other bound => agrees other (asked other bound)
      exact agrees other (Nat.lt_of_le_of_lt le below)
  | _ => trivial

end Agreement

/-! ## Types on the way -/

/-- Variables get types, and nothing else changes. -/
structure Arena.CompletedBy (before after : Arena) : Prop where
  /-- Only types change. -/
  retypes : before.Retypes after
  /-- Types that are known stay. -/
  remembers : before.Remembers after

section Completed

variable {before after : Arena}

/-- A variable with a type is in the arena. -/
theorem Arena.lt_size_of_ty (found : (before.get id).ty = some ty) :
    id < before.size := by
  by_contra outside
  rw [Arena.get_of_size_le (Nat.le_of_not_lt outside)] at found
  cases found

/-- Arenas agree on a variable with a type. -/
theorem Arena.CompletedBy.agreesOn
    (completed : before.CompletedBy after)
    (found : (before.get id).ty = some ty) :
    before.AgreesOn after id := by
  obtain ⟨given, record_eq⟩ := completed.retypes.get_eq id
  have remembered := completed.remembers id ty found
  rw [record_eq] at remembered
  cases remembered
  exact .of_get_eq (by rw [record_eq, ← found])

theorem Arena.CompletedBy.typeOf_eq_ok
    (completed : before.CompletedBy after)
    (typed : expr.typeOf before = .ok ty) :
    expr.typeOf after = .ok ty := by
  refine expr.typeOf_of_agrees (fun id isRead => ?_) typed
  obtain ⟨known, found⟩ := expr.exists_ty_of_typeOf typed id isRead
  exact completed.agreesOn found

/-- The name of a type that is asked for has a type. -/
theorem Typing.exists_ty_of_declaredType
    {ty : Ident}
    (found : declaredType before ty length allowSampler span = .ok declared) :
    ∀ id ∈ ty.var, ∃ known, (before.get id).ty = some known := by
  obtain ⟨id, bound, found⟩ := except_bind_eq_ok.mp found
  obtain ⟨descriptor, known, _⟩ := except_bind_eq_ok.mp found
  intro other isOther
  obtain rfl : other = id := Option.some.inj (isOther.symm.trans (Ident.bound_eq_ok.mp bound))
  exact ⟨descriptor, Arena.ty_eq_ok.mp known⟩

theorem Arena.CompletedBy.declaredType_eq_ok
    (completed : before.CompletedBy after)
    {ty : Ident}
    (found : Typing.declaredType before ty length allowSampler span = .ok declared) :
    Typing.declaredType after ty length allowSampler span = .ok declared := by
  refine Typing.declaredType_of_agrees (fun id bound => ?_) found
  obtain ⟨known, typed⟩ := Typing.exists_ty_of_declaredType found id bound
  exact completed.agreesOn typed

theorem Expr.HasType.isSettled (typed : expr.HasType before) :
    expr.IsSettled before.size before := by
  obtain ⟨ty, typed⟩ := typed
  refine ⟨fun id isRead => ?_, ty, typed⟩
  obtain ⟨known, found⟩ := expr.exists_ty_of_typeOf typed id isRead
  exact Arena.lt_size_of_ty found

end Completed

/-- A statement passed while types were given that stay: it stands at a place, it gave its own
types, and its expressions have types. -/
structure Stmt.IsPassed
    (final : Arena)
    (stmt : Stmt) : Prop where
  /-- The statement is bound. -/
  placed : stmt.IsPlaced final Accessor.IsUnbound
  /-- The statement passed. -/
  declared : ∃ before after, before.CompletedBy final ∧ after.CompletedBy final ∧
    Typing.declare stmt before = .ok () after ∧
      ∃ inner left, Typing.checkStmt inner stmt before = .ok () left
  /-- Its expressions have types. -/
  typed : ∀ expr ∈ stmt.exprs, expr.HasType final
  /-- Its names of types are asked for. -/
  asked : ∀ ty ∈ stmt.typeNames, Typing.IsAsked final ty

open Typing in
theorem Stmt.IsPassed.isSettled
    {final : Arena}
    (passed : stmt.IsPassed final) :
    stmt.IsSettled final.size final := by
  obtain ⟨before, after, early, late, run, _⟩ := passed.declared
  obtain ⟨first, last, bound, inRange⟩ := passed.placed
  have given {ident : Ident} {kind : DeclKind} {ty : Ty}
      (declares : ident.Declares final first.next kind)
      (run : setType ident ty before = .ok () after) : (final.get first.next).ty = some ty := by
    obtain ⟨id, isOwn, rfl⟩ := setType_eq_ok.mp run
    obtain rfl : first.next = id := Option.some.inj (declares.var_eq.symm.trans isOwn)
    have inside : first.next < before.size := early.retypes.size_eq ▸ declares.lt_size
    exact late.remembers _ _ (by rw [Arena.get_setTy_self inside])
  have asked {ty : Ident} {length : Option Nat} {allowSampler : Bool} {span : Span} {declared : Ty}
      (found : declaredType before ty length allowSampler span = .ok declared) :
      (∀ id ∈ ty.var, id < final.size) ∧
        declaredType final ty length allowSampler span = .ok declared := by
    have found := early.declaredType_eq_ok found
    refine ⟨fun id bound => ?_, found⟩
    obtain ⟨_, typed⟩ := exists_ty_of_declaredType found id bound
    exact Arena.lt_size_of_ty typed
  cases stmt with
  | interface decl =>
      obtain ⟨_, declares, _⟩ := bound
      obtain ⟨declared, found, run⟩ := use_bind_eq_ok.mp run
      obtain ⟨below, found⟩ := asked found
      split at run
      · cases run
      next simple =>
        refine ⟨below, first.next, declared, declares.lt_size, declares.var_eq, declares.decl_eq,
          found, fun notUniform => ?_, given declares run⟩
        by_contra notSimple
        exact simple (by simp [notUniform, notSimple])
  | const decl =>
      obtain ⟨_, initBound, declares, _⟩ := bound
      obtain ⟨declared, found, run⟩ := use_bind_eq_ok.mp run
      obtain ⟨below, found⟩ := asked found
      refine ⟨below, first.next, declared, declares.lt_size, declares.var_eq, declares.decl_eq,
        found, fun init isInit id isRead => ?_, fun init isInit => ?_, fun isMissing => ?_⟩
      · exact inRange.visible id ((initBound init isInit).mem_visible isRead)
      · rw [Option.mem_def.mp isInit] at run
        obtain ⟨_, initFound, run⟩ := use_bind_eq_ok.mp run
        obtain ⟨_, typed, initFound⟩ := except_bind_eq_ok.mp initFound
        obtain ⟨_, _, initFound⟩ := except_bind_eq_ok.mp initFound
        cases initFound
        exact ⟨_, early.typeOf_eq_ok typed, given declares run⟩
      · rw [isMissing] at run
        exact given declares run
  | _ => trivial

/-! ## Modules -/

/-- All parts of a module are settled. -/
def Module.IsSettled
    (limit : VarId)
    (arena : Arena)
    (module : Module) : Prop :=
  Stmt.EveryIn (Expr.IsSettled limit arena) (Stmt.IsSettled limit arena) module.statements

namespace Bundle

variable {bundle named typed : Bundle} {library : Library}

section

variable (fresh : IsFresh library bundle) (binding : resolveNames bundle = .ok () named)
variable (typing : evalTypes named = .ok () typed)
include fresh binding typing

/-- The last arena on the way is that of the typed program. -/
theorem IsFresh.getLast_visits :
    (named.arena :: typingVisits named.modules named.arena).getLast (List.cons_ne_nil _ _) =
      typed.arena := by
  have last_eq := (fresh.goes_checkModules binding).last_eq
  obtain ⟨arena, checked, rfl⟩ := evalTypes_eq_ok typing
  rw [last_eq, checked]
  rfl

/-- The arenas on the way are completed by that of the typed program. -/
theorem IsFresh.completedBy :
    ∀ arena ∈ named.arena :: typingVisits named.modules named.arena,
      arena.CompletedBy typed.arena := by
  have gains := (fresh.goes_checkModules binding).gains
  refine gains.backwards_cons_induction (Arena.CompletedBy · typed.arena) _
    (fresh.getLast_visits binding typing) (fun before _ gained later => ?_)
    ⟨.refl _, fun _ _ found => found⟩
  obtain ⟨id, ty, _, _, rfl⟩ := id gained
  exact ⟨(before.retypes_setTy id ty).trans later.retypes, gained.remembers.trans later.remembers⟩

/-- Types that expressions have on the way they have at the end. -/
theorem IsFresh.typeOf_typed
    {arena : Arena}
    (visited : arena ∈ named.arena :: typingVisits named.modules named.arena)
    (exprTyped : expr.typeOf arena = .ok ty) :
    expr.typeOf typed.arena = .ok ty :=
  (fresh.completedBy binding typing arena visited).typeOf_eq_ok exprTyped

/-- The statements of a typed program passed on the way. -/
theorem IsFresh.isPassed
    {module : Module}
    (mem : module ∈ typed.modules) :
    ∀ part ∈ module.parts, part.IsPassed typed.arena := by
  have completed := fresh.completedBy binding typing
  obtain ⟨grows, bound⟩ := fresh.areBound binding
  obtain ⟨arena, checked, rfl⟩ := evalTypes_eq_ok typing
  have isPlaced := (bound arena (Typing.KeepsArena.retypes checked).keeps).of_mem_parts
    fun _ => List.mem_range.mp
  intro part isPart
  have passed := (walks_checkModules checked).parts part
    (List.mem_flatMap.mpr ⟨module, mem, isPart⟩)
  refine ⟨isPlaced module mem part isPart, ?_, fun expr isExpr => ?_, fun ty isName => ?_⟩
  · obtain ⟨before, visited, after, next, declared⟩ := passed.declared
    exact ⟨before, after, completed before visited, completed after next, declared⟩
  · obtain ⟨before, visited, ty, typed⟩ := passed.typed expr isExpr
    exact ⟨ty, (completed before visited).typeOf_eq_ok typed⟩
  · obtain ⟨before, visited, length, allowSampler, span, declared, found⟩ := passed.asked ty isName
    exact ⟨length, allowSampler, span, declared, (completed before visited).declaredType_eq_ok found⟩

end

/-- After typing, all expressions and declarations of a program whose names were bound as
it stood are settled. -/
theorem IsFresh.isSettled_named
    (fresh : IsFresh library bundle)
    (binding : resolveNames bundle = .ok () named)
    (typing : evalTypes named = .ok () typed) :
    ∀ module ∈ typed.modules, module.IsSettled typed.arena.size typed.arena := by
  refine fun module mem => (Stmt.everyIn_iff_parts _).mpr fun part isPart => ?_
  have passed := fresh.isPassed binding typing mem part isPart
  exact ⟨passed.isSettled, fun expr isExpr => (passed.typed expr isExpr).isSettled⟩

/-- After typing, all expressions and declarations of a program are settled. -/
theorem IsFresh.isSettled
    {bundle placed named typed : Bundle}
    (fresh : IsFresh library bundle)
    (build : Typed library bundle placed named typed) :
    ∀ module ∈ typed.modules, module.IsSettled typed.arena.size typed.arena :=
  (fresh.placed build.placing).isSettled_named build.binding build.typing

end Bundle

end ModularGlsl
