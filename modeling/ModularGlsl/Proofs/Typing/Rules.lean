import ModularGlsl.Proofs.Run
import ModularGlsl.Proofs.Tree
import ModularGlsl.Typing.Stmt

/-!
# Rules of typing

The types of expressions as a judgement with one rule for each form.  An expression has a
type by these rules exactly if evaluation yields it, so what holds of typed expressions is
proved by induction on the rules.
-/

namespace ModularGlsl

/-- The rules by which expressions have types. -/
inductive Expr.Typed (arena : Arena) : Expr -> Ty -> Prop
  | int (value : Int) (span : Span) : Typed arena (.int value span) (.literal value)
  | float (value : Decimal.Binary64) (span : Span) : Typed arena (.float value span) .float
  | bool (value : Bool) (span : Span) : Typed arena (.bool value span) .bool
  | var
      (found : ident.typeOf arena = .ok ty) :
      Typed arena (.var ident) ty
  | path
      (found : (arena.get target).ty = some ty) :
      Typed arena (.member object key (some target) spot) ty
  | member
      (objectTyped : Typed arena object objectTy)
      (found : objectTy.member key spot = .ok ty) :
      Typed arena (.member object key none spot) ty
  | index
      (containerTyped : Typed arena container containerTy)
      (positionTyped : Typed arena position positionTy)
      (known : positionTy.literal? = some value)
      (found : containerTy.index value spot = .ok ty) :
      Typed arena (.index container position spot) ty
  | getIndex
      (containerTyped : Typed arena container containerTy)
      (positionTyped : Typed arena position positionTy)
      (isInt : Ty.int.check positionTy position.span = .ok ())
      (found : containerTy.index 0 spot = .ok ty) :
      Typed arena (.getIndex container position accessor spot) ty
  | call
      (calleeTyped : Typed arena callee calleeTy)
      (argumentsTyped : ∀ argument ∈ args, Typed arena argument (types argument))
      (found : calleeTy.call (args.map types) spot = .ok (some ty)) :
      Typed arena (.call callee args spot) ty
  | binary
      (leftTyped : Typed arena left leftTy)
      (rightTyped : Typed arena right rightTy)
      (found : Ty.binary op leftTy rightTy spot = .ok ty) :
      Typed arena (.binary op left right spot) ty
  | unary
      (operandTyped : Typed arena operand operandTy)
      (found : Ty.unary op operandTy spot = .ok ty) :
      Typed arena (.unary op operand spot) ty
  | paren
      {inner : Expr}
      (innerTyped : Typed arena inner ty) :
      Typed arena (.paren inner spot) ty

variable {arena : Arena} {ty : Ty}

theorem Arena.ty_eq_ok
    {id : VarId}
    {span : Span} :
    arena.ty id span = .ok ty ↔ (arena.get id).ty = some ty := by
  unfold Arena.ty
  split
  next found => simp [found]
  next found => simp [found]

theorem Ident.typeOf_eq_ok
    {ident : Ident}
    (typed : ident.typeOf arena = .ok ty) :
    ∃ id known, ident.var = some id ∧ (arena.get id).ty = some known ∧
      ty = known.locate ident.span := by
  obtain ⟨id, bound, typed⟩ := except_bind_eq_ok.mp typed
  split at typed
  · cases typed
  · obtain ⟨known, found, typed⟩ := except_bind_eq_ok.mp typed
    cases typed
    exact ⟨id, known, Ident.bound_eq_ok.mp bound, Arena.ty_eq_ok.mp found, rfl⟩

theorem knownIndex_eq_ok
    {value : Int}
    {span : Span} :
    knownIndex ty span = .ok value ↔ ty.literal? = some value := by
  unfold knownIndex
  split
  next found => simp [found]
  next found => simp [found]

namespace Expr

/-- The type of an expression that has one. -/
def typeAt
    (arena : Arena)
    (expr : Expr) : Ty :=
  match expr.typeOf arena with
  | .ok ty => ty
  | .error _ => default

theorem typesOf_map
    {exprs : List Expr}
    {types : Expr -> Ty}
    (typed : ∀ expr ∈ exprs, expr.typeOf arena = .ok (types expr)) :
    typesOf arena exprs = .ok (exprs.map types) := by
  induction exprs with
  | nil => rfl
  | cons expr rest ih =>
      obtain ⟨exprTyped, restTyped⟩ := List.forall_mem_cons.mp typed
      exact except_bind_eq_ok.mpr ⟨_, exprTyped,
        except_bind_eq_ok.mpr ⟨_, ih restTyped, rfl⟩⟩

/-- Where a list of expressions has types, each of them has. -/
theorem of_typesOf
    {exprs : List Expr}
    {tys : List Ty}
    (typed : typesOf arena exprs = .ok tys) :
    (∀ expr ∈ exprs, expr.typeOf arena = .ok (expr.typeAt arena)) ∧
      tys = exprs.map (typeAt arena) := by
  induction exprs generalizing tys with
  | nil =>
      cases typed
      simp
  | cons expr rest ih =>
      obtain ⟨ty, exprTyped, typed⟩ := except_bind_eq_ok.mp typed
      obtain ⟨others, restTyped, same⟩ := except_bind_eq_ok.mp typed
      cases same
      obtain ⟨each, rfl⟩ := ih restTyped
      have typeAt_eq : expr.typeAt arena = ty := by rw [typeAt, exprTyped]
      rw [List.forall_mem_cons, List.map_cons, typeAt_eq]
      exact ⟨⟨exprTyped, each⟩, rfl⟩

/-- What has a type by the rules evaluates to it. -/
theorem Typed.typeOf_eq
    {expr : Expr}
    (typed : expr.Typed arena ty) :
    expr.typeOf arena = .ok ty := by
  induction typed with
  | int | float | bool => rfl
  | var found => exact found
  | path found => exact Arena.ty_eq_ok.mpr found
  | member _ found object =>
      exact except_bind_eq_ok.mpr ⟨_, object, typing_eq_ok.mpr found⟩
  | index _ _ known found container position =>
      refine except_bind_eq_ok.mpr ⟨_, container, except_bind_eq_ok.mpr ⟨_, position, ?_⟩⟩
      exact except_bind_eq_ok.mpr
        ⟨_, typing_eq_ok.mpr (knownIndex_eq_ok.mpr known), typing_eq_ok.mpr found⟩
  | getIndex _ _ isInt found container position =>
      refine except_bind_eq_ok.mpr ⟨_, container, except_bind_eq_ok.mpr ⟨_, position, ?_⟩⟩
      exact except_bind_eq_ok.mpr ⟨_, typing_eq_ok.mpr isInt, typing_eq_ok.mpr found⟩
  | call _ _ found callee args =>
      refine except_bind_eq_ok.mpr ⟨_, callee, ?_⟩
      refine except_bind_eq_ok.mpr ⟨_, typesOf_map args, ?_⟩
      exact except_bind_eq_ok.mpr ⟨_, typing_eq_ok.mpr found, rfl⟩
  | binary _ _ found left right =>
      refine except_bind_eq_ok.mpr ⟨_, left, except_bind_eq_ok.mpr ⟨_, right, ?_⟩⟩
      exact typing_eq_ok.mpr found
  | unary _ found operand =>
      exact except_bind_eq_ok.mpr ⟨_, operand, typing_eq_ok.mpr found⟩
  | paren _ inner => exact inner

/-- What evaluates to a type has it by the rules. -/
theorem typed_of_typeOf
    (expr : Expr)
    {ty : Ty}
    (typed : expr.typeOf arena = .ok ty) :
    expr.Typed arena ty := by
  match expr with
  | .int value span | .float value span | .bool value span =>
      cases typed
      constructor
  | .var _ => exact .var typed
  | .member _ _ (some _) _ => exact .path (Arena.ty_eq_ok.mp typed)
  | .member object _ none _ =>
      obtain ⟨_, objectTyped, found⟩ := except_bind_eq_ok.mp typed
      exact .member (object.typed_of_typeOf objectTyped) (typing_eq_ok.mp found)
  | .index container position _ =>
      obtain ⟨_, containerTyped, typed⟩ := except_bind_eq_ok.mp typed
      obtain ⟨_, positionTyped, typed⟩ := except_bind_eq_ok.mp typed
      obtain ⟨_, known, found⟩ := except_bind_eq_ok.mp typed
      exact .index (container.typed_of_typeOf containerTyped)
        (position.typed_of_typeOf positionTyped) (knownIndex_eq_ok.mp (typing_eq_ok.mp known))
        (typing_eq_ok.mp found)
  | .getIndex container position _ _ =>
      obtain ⟨_, containerTyped, typed⟩ := except_bind_eq_ok.mp typed
      obtain ⟨_, positionTyped, typed⟩ := except_bind_eq_ok.mp typed
      obtain ⟨_, isInt, found⟩ := except_bind_eq_ok.mp typed
      exact .getIndex (container.typed_of_typeOf containerTyped)
        (position.typed_of_typeOf positionTyped) (typing_eq_ok.mp isInt) (typing_eq_ok.mp found)
  | .call callee args _ =>
      obtain ⟨_, calleeTyped, typed⟩ := except_bind_eq_ok.mp typed
      obtain ⟨_, argumentsTyped, typed⟩ := except_bind_eq_ok.mp typed
      obtain ⟨result, found, typed⟩ := except_bind_eq_ok.mp typed
      obtain ⟨each, rfl⟩ := of_typesOf argumentsTyped
      cases result with
      | none => cases typed
      | some result =>
          cases typed
          exact .call (callee.typed_of_typeOf calleeTyped)
            (fun argument mem => argument.typed_of_typeOf (each argument mem))
            (typing_eq_ok.mp found)
  | .binary _ left right _ =>
      obtain ⟨_, leftTyped, typed⟩ := except_bind_eq_ok.mp typed
      obtain ⟨_, rightTyped, found⟩ := except_bind_eq_ok.mp typed
      exact .binary (left.typed_of_typeOf leftTyped) (right.typed_of_typeOf rightTyped)
        (typing_eq_ok.mp found)
  | .unary _ operand _ =>
      obtain ⟨_, operandTyped, found⟩ := except_bind_eq_ok.mp typed
      exact .unary (operand.typed_of_typeOf operandTyped) (typing_eq_ok.mp found)
  | .paren inner _ => exact .paren (inner.typed_of_typeOf typed)

end Expr

end ModularGlsl
