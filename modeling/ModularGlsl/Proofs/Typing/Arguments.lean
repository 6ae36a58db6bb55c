import ModularGlsl.Proofs.Constants.Range
import ModularGlsl.Proofs.Typing.Signatures

/-!
# Arguments of calls

A call of a function of the program is accepted exactly if its arguments have the types of the
parameters.  Directions do not matter: the check of a call sees the signature of the function,
which holds types only, so that a uniform may stand at a parameter that is written to.
-/

namespace ModularGlsl

/-! ## Signatures -/

variable {signature : Signature Ty}

section Signatures

variable {args : List Ty} {span : Span}

theorem Ty.checkAll_eq_ok
    {expecteds : List Ty}
    (same : expecteds.length = args.length) :
    checkAll span expecteds args = .ok () ↔
      List.Forall₂ (fun expected got => expected.accepts got = true) expecteds args := by
  induction expecteds generalizing args with
  | nil =>
      obtain rfl := List.length_eq_zero_iff.mp same.symm
      simp [checkAll]
  | cons expected rest ih =>
      obtain ⟨got, others, rfl⟩ := List.exists_cons_of_length_eq_add_one same.symm
      rw [checkAll, List.forall₂_cons, ← ih (Nat.succ.inj same),
        ← @Ty.check_eq_ok_iff _ _ span]
      exact ⟨fun passed => by
        obtain ⟨_, own, others⟩ := except_bind_eq_ok.mp passed
        exact ⟨own, others⟩, fun ⟨own, others⟩ => except_bind_eq_ok.mpr ⟨(), own, others⟩⟩

theorem Ty.applySignature_eq_ok {result : Option Ty} :
    applySignature signature args span = .ok result ↔
      List.Forall₂ (fun expected got => expected.accepts got = true) signature.params args ∧
        signature.result = result := by
  unfold applySignature
  split
  next differ =>
    refine ⟨nofun, fun ⟨accepted, _⟩ => ?_⟩
    exact absurd accepted.length_eq differ
  next same =>
    rw [← @checkAll_eq_ok _ span _ (not_not.mp same)]
    refine ⟨fun passed => ?_, fun ⟨passed, result_eq⟩ => ?_⟩
    · obtain ⟨_, passed, result_eq⟩ := except_bind_eq_ok.mp passed
      exact ⟨passed, Except.ok.inj result_eq⟩
    · exact except_bind_eq_ok.mpr ⟨(), passed, congrArg _ result_eq⟩

end Signatures

/-! ## Headers -/

/-- Arguments of some types fit the parameters of a function, in whatever direction these are
passed. -/
def FunctionHeader.Takes
    (arena : Arena)
    (header : FunctionHeader)
    (args : List Ty) : Prop :=
  List.Forall₂ (fun param got => ∃ id expected, param.name.var = some id ∧
    (arena.get id).ty = some expected ∧ expected.accepts got = true) header.params args

variable {arena : Arena} {header : FunctionHeader} {id : VarId}

theorem FunctionHeader.HasSignature.takes_iff
    (hasSignature : header.HasSignature arena id signature)
    (args : List Ty) :
    header.Takes arena args ↔ List.Forall₂
      (fun expected got => expected.accepts got = true) signature.params args := by
  have params := hasSignature.params
  unfold FunctionHeader.Takes
  generalize header.params = own, signature.params = tys at params ⊢
  induction params generalizing args with
  | nil => simp
  | @cons param ty _ _ own others ih =>
      obtain ⟨id, var_eq, ty_eq⟩ := own
      cases args with
      | nil => simp
      | cons got rest =>
          rw [List.forall₂_cons, List.forall₂_cons]
          refine and_congr ?_ (ih rest)
          simp [var_eq, ty_eq]

/-! ## Calls -/

section Calls

variable {callee : Expr} {args : List Expr} {span : Span}

/-- What names a variable with a type has this type. -/
theorem Expr.typeOf_of_named?
    (formed : arena.IsFormed)
    (names : callee.named? = some id)
    {known : Ty}
    (found : (arena.get id).ty = some known) :
    ∃ ty, callee.typeOf arena = .ok ty ∧ ty.bare = known.bare := by
  cases callee with
  | var ident =>
      refine ⟨known.locate ident.span, ?_, Ty.bare_locate _ _⟩
      refine except_bind_eq_ok.mpr ⟨id, Ident.bound_eq_ok.mpr names, ?_⟩
      rw [Variable.isPackage, formed.members_eq id known found]
      exact except_bind_eq_ok.mpr ⟨known, Arena.ty_eq_ok.mpr found, rfl⟩
  | member object key packageMember span =>
      cases names
      exact ⟨known, Arena.ty_eq_ok.mpr found, rfl⟩
  | _ => cases names

theorem FunctionHeader.HasSignature.callResult_eq_ok
    (formed : arena.IsFormed)
    (hasSignature : header.HasSignature arena id signature)
    (names : callee.named? = some id)
    {result : Option Ty} :
    callResult arena callee args span = .ok result ↔
      ∃ tys, Expr.typesOf arena args = .ok tys ∧ header.Takes arena tys ∧
        Typing.resultType arena header = .ok result := by
  obtain ⟨callable, found, overloads_eq⟩ := hasSignature.ty_eq
  obtain ⟨ty, typed, bare_eq⟩ := Expr.typeOf_of_named? formed names found
  have call_eq (tys : List Ty) : typing (ty.call tys span) = .ok result ↔
      header.Takes arena tys ∧ Typing.resultType arena header = .ok result := by
    rw [typing_eq_ok, Ty.call, bare_eq, hasSignature.takes_iff, hasSignature.result]
    simp [Ty.bare, Ty.applyFunction, overloads_eq, Ty.applySignature_eq_ok]
  simp only [← call_eq]
  constructor
  · intro passed
    obtain ⟨_, calleeTyped, passed⟩ := except_bind_eq_ok.mp passed
    cases typed.symm.trans calleeTyped
    exact except_bind_eq_ok.mp passed
  · exact fun passed => except_bind_eq_ok.mpr ⟨ty, typed, except_bind_eq_ok.mpr passed⟩

theorem Expr.HasType.of_mem_operands
    {expr : Expr}
    (typed : expr.HasType arena) :
    ∀ part ∈ expr.operands, part.HasType arena := by
  obtain ⟨_, typed⟩ := typed
  cases expr.typed_of_typeOf typed with
  | int | float | bool | var | path => simp [operands, children]
  | member object | unary object | paren object =>
      simpa [operands, children] using ⟨_, object.typeOf_eq⟩
  | index left right | getIndex left right | binary left right =>
      simpa [operands, children] using ⟨⟨_, left.typeOf_eq⟩, ⟨_, right.typeOf_eq⟩⟩
  | call callee args =>
      exact List.forall_mem_cons.mpr ⟨⟨_, callee.typeOf_eq⟩,
        fun argument mem => ⟨_, (args argument mem).typeOf_eq⟩⟩

/-- What an expression with a type contains has a type, unless it is a path. -/
theorem Expr.HasType.of_contains
    {whole part : Expr}
    (typed : whole.HasType arena)
    (paths : whole.HasPaths)
    (contains : whole.Contains part)
    (isOther : ¬part.IsPath) :
    part.HasType arena :=
  paths.ascend (motive := fun whole => whole.HasType arena -> part.HasType arena) contains isOther
    id (fun _ operand isOperand inside typed => inside (typed.of_mem_operands operand isOperand))
    typed

theorem Stmt.IsPassed.callResult_eq_ok (passed : (Stmt.call callee args span).IsPassed arena) :
    callResult arena callee args span = .ok none := by
  obtain ⟨before, _, early, _, _, _, _, passed⟩ := passed.declared
  obtain ⟨result, called, passed⟩ := except_bind_eq_ok.mp (Typing.use_eq_ok.mp passed).1
  obtain ⟨_, calleeTyped, called⟩ := except_bind_eq_ok.mp called
  obtain ⟨_, argumentsTyped, called⟩ := except_bind_eq_ok.mp called
  cases result with
  | some ty => cases passed
  | none =>
      refine except_bind_eq_ok.mpr ⟨_, early.typeOf_eq_ok calleeTyped, ?_⟩
      refine except_bind_eq_ok.mpr ⟨_, Expr.typesOf_of_agrees args (fun id isRead => ?_)
        argumentsTyped, called⟩
      obtain ⟨known, found⟩ := Expr.exists_ty_of_typesOf args argumentsTyped id isRead
      exact early.agreesOn found

end Calls

/-! ## Programs -/

/-- A module calls something with some arguments, in a statement of its own or inside an
expression. -/
def Module.Calls
    (module : Module)
    (callee : Expr)
    (args : List Expr) : Prop :=
  ∃ span, Stmt.call callee args span ∈ module.parts ∨
    ∃ whole ∈ module.exprs, whole.Contains (.call callee args span)

/-- The calls of a program pass, and one of its functions may be called with whatever has the
types of its parameters. -/
structure Bundle.DecidesCalls (typed : Bundle) : Prop where
  /-- Every call passes. -/
  passes : ∀ module ∈ typed.modules, ∀ callee args, module.Calls callee args ->
    ∃ span result, callResult typed.arena callee args span = .ok result
  /-- A call of a function passes exactly if the function takes the arguments. -/
  decides : ∀ module ∈ typed.modules, ∀ header body, Stmt.function header body ∈ module.parts ->
    ∀ callee id, header.name.var = some id -> callee.named? = some id ->
      ∀ args span result, callResult typed.arena callee args span = .ok result ↔
        ∃ tys, Expr.typesOf typed.arena args = .ok tys ∧ header.Takes typed.arena tys ∧
          Typing.resultType typed.arena header = .ok result

namespace Bundle

variable {library : Library} {bundle placed named typed : Bundle}

/-- If a fresh program is typed, its calls pass, and whether a call of one of its functions
passes depends on the types of the arguments alone. -/
theorem evalTypes_decidesCalls
    (fresh : IsFresh library bundle)
    (placing : resolveDependencies library bundle = .ok () placed)
    (binding : resolveNames placed = .ok () named)
    (typing : evalTypes named = .ok () typed) :
    typed.DecidesCalls := by
  have placedFresh := fresh.placed placing
  have exprs_eq : typed.exprs = named.exprs := by
    obtain ⟨_, _, rfl⟩ := evalTypes_eq_ok typing
    rfl
  constructor
  case passes =>
    rintro module mem callee args ⟨span, isStmt | ⟨whole, isExpr, contains⟩⟩
    · exact ⟨span, none, ((placedFresh.isPassed binding typing mem _ isStmt).callResult_eq_ok)⟩
    · obtain ⟨part, isPart, isOwn⟩ := List.mem_flatMap.mp isExpr
      have isPassed := placedFresh.isPassed binding typing mem part isPart
      have paths : whole.HasPaths := fresh.hasPaths_of_mem_exprs ⟨placing, binding⟩
        (exprs_eq ▸ List.mem_flatMap.mpr ⟨module, mem, isExpr⟩)
      obtain ⟨ty, typed⟩ := (isPassed.typed whole isOwn).of_contains paths contains id
      obtain ⟨calleeTy, calleeTyped, typed⟩ := except_bind_eq_ok.mp typed
      obtain ⟨tys, argumentsTyped, typed⟩ := except_bind_eq_ok.mp typed
      obtain ⟨result, called, _⟩ := except_bind_eq_ok.mp typed
      exact ⟨span, result, except_bind_eq_ok.mpr
        ⟨calleeTy, calleeTyped, except_bind_eq_ok.mpr ⟨tys, argumentsTyped, called⟩⟩⟩
  case decides =>
    intro module mem header body isPart callee id isOwn names args span result
    obtain ⟨other, signature, isOther, hasSignature⟩ :=
      (placedFresh.isPassed binding typing mem _ isPart).hasSignature
    obtain rfl : id = other := Option.some.inj (isOwn.symm.trans isOther)
    exact hasSignature.callResult_eq_ok (fresh.isFormed_typed ⟨⟨placing, binding⟩, typing⟩) names

end Bundle

namespace Sample

/-- A program whose main function passes a uniform to a function that writes to its
parameter. -/
def raising : Bundle :=
  (Bundle.empty .vertex .readable).append
    { path := "/main"
      statements :=
        [.interface ⟨.uniform, none, name "float", name "level", none, {}⟩,
          .function
            { result := none
              name := name "raise"
              params := [⟨.outward, name "float", name "x", none, {}⟩]
              span := {} }
            [.assign (read "x") .assign (.float ⟨0x3ff0000000000000⟩ {}) {}],
          main
            [.call (read "raise") [read "level"] {},
              .assign (read "gl_PointSize") .assign (read "level") {}]] }

theorem isFresh_raising : Bundle.IsFresh ⟨[]⟩ raising :=
  ⟨rfl, by decide +kernel, by decide +kernel⟩

end Sample

namespace Bundle

/-- A constant is passed to a function that writes to its parameter. -/
def PassesConstant (bundle : Bundle) : Prop :=
  ∃ module ∈ bundle.modules, ∃ header body callee argument id,
    Stmt.function header body ∈ module.parts ∧ module.Calls (.var callee) [.var argument] ∧
      callee.var = header.name.var ∧ header.params.map Param.direction = [.outward] ∧
        argument.var = some id ∧ (bundle.arena.get id).constant = true

/-- Whether a module of six statements calls the second in the fifth, with a constant that is
written to. -/
def passesConstant (bundle : Bundle) : Bool :=
  bundle.modules.any fun module =>
    match module.parts with
    | [_, .function header _, _, _, .call (.var callee) [.var argument] _, _] =>
        callee.var == header.name.var && header.params.map Param.direction == [.outward] &&
          argument.var.any fun id => (bundle.arena.get id).constant
    | _ => false

theorem passesConstant_of_check
    {bundle : Bundle}
    (checked : bundle.passesConstant = true) :
    bundle.PassesConstant := by
  obtain ⟨module, mem, checked⟩ := List.any_eq_true.mp checked
  split at checked
  · next header body _ _ callee argument span _ parts_eq =>
      simp only [Bool.and_eq_true, beq_iff_eq, Option.any_eq_true] at checked
      obtain ⟨⟨callee_eq, direction_eq⟩, id, argument_eq, constant⟩ := checked
      refine ⟨module, mem, header, body, callee, argument, id, ?_, ⟨span, .inl ?_⟩,
        callee_eq, direction_eq, argument_eq, constant⟩
      all_goals simp [parts_eq]
  · cases checked

/-- Typing decides the calls of a program that passes a constant to a function that writes to
its parameter. -/
theorem evalTypes_raising_decidesCalls :
    ∃ placed named typed, resolveDependencies ⟨[]⟩ Sample.raising = .ok () placed ∧
      resolveNames placed = .ok () named ∧ evalTypes named = .ok () typed ∧
        typed.PassesConstant ∧ typed.DecidesCalls := by
  have passed : passes (fun placed => passes (fun named =>
      passes passesConstant (evalTypes named)) (resolveNames placed))
        (resolveDependencies ⟨[]⟩ Sample.raising) = true := by
    decide +kernel
  obtain ⟨placed, placing, passed⟩ := exists_of_passes passed
  obtain ⟨named, binding, passed⟩ := exists_of_passes passed
  obtain ⟨typed, typing, passed⟩ := exists_of_passes passed
  exact ⟨placed, named, typed, placing, binding, typing, passesConstant_of_check passed,
    evalTypes_decidesCalls Sample.isFresh_raising placing binding typing⟩

/-- A build accepts a program that passes a constant to a function that writes to its
parameter. -/
theorem finalize_raising_passesConstant :
    ∃ result, finalize ⟨[]⟩ Sample.raising = .ok () result ∧ result.PassesConstant := by
  have passed : passes passesConstant (finalize ⟨[]⟩ Sample.raising) = true := by
    decide +kernel
  obtain ⟨result, run, passed⟩ := exists_of_passes passed
  exact ⟨result, run, passesConstant_of_check passed⟩

end Bundle

end ModularGlsl
