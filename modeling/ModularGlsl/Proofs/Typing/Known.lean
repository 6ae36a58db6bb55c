import ModularGlsl.Proofs.Build

/-!
# Known types

Typing gives every variable its type before anything reads it.  Variables are
numbered in the order of their declarations, so this is a bound on numbers: before
a statement is typed, all variables with smaller numbers than those it declares
have types, packages apart.  The type of a function is known after its header; the
header itself may name the function as a type, and any name of a type may be that
of a package.  These names, and packages that are read as members of packages, are
the only ones whose types are missing when they are asked for.
-/

namespace ModularGlsl

/-! ## Failures -/

/-- A failure is an internal one only where a condition does not hold, and then a
type is missing. -/
def Diagnostic.Blames
    (proper : Prop)
    (error : Diagnostic) : Prop :=
  ∀ internal, error = .internal internal ->
    (∃ name span, internal = .valueNotSet name span) ∧ ¬proper

variable {proper stronger : Prop}

theorem Diagnostic.Blames.mono
    {error : Diagnostic}
    (blames : error.Blames proper)
    (weaken : stronger -> proper) :
    error.Blames stronger := by
  intro internal same
  obtain ⟨missing, improper⟩ := blames internal same
  exact ⟨missing, fun held => improper (weaken held)⟩

/-- A computation fails with an internal error only where a condition does not
hold. -/
def Faults
    {α : Type}
    (proper : Prop)
    (result : Except Diagnostic α) : Prop :=
  ∀ error, result = .error error -> error.Blames proper

variable {α β : Type}

namespace Faults

/-- A computation that succeeds has no failure. -/
theorem ok (value : α) : Faults proper (.ok value) := by
  rintro error ⟨⟩

/-- A failure that is not internal. -/
theorem error
    {error : Diagnostic}
    (noInternal : ∀ internal, error ≠ .internal internal) :
    Faults proper (.error error : Except Diagnostic α) := by
  rintro _ ⟨⟩ internal same
  exact absurd same (noInternal internal)

variable {first : Except Diagnostic α} {next : α -> Except Diagnostic β}

theorem bind
    (early : Faults proper first)
    (late : ∀ value, first = .ok value -> Faults proper (next value)) :
    Faults proper (first >>= next) := by
  intro error failed
  cases outcome : first with
  | error other =>
      rw [outcome] at failed early
      cases failed
      exact early _ rfl
  | ok value =>
      rw [outcome] at failed
      exact late value outcome error failed

/-- A stronger condition is to blame too. -/
theorem mono
    {result : Except Diagnostic α}
    (faults : Faults proper result)
    (weaken : stronger -> proper) :
    Faults stronger result :=
  fun error failed => (faults error failed).mono weaken

/-- Computations in turn, each with a condition on its own variables. -/
theorem append
    {left right : List VarId}
    {holds : VarId -> Prop}
    (early : Faults (∀ id ∈ left, holds id) first)
    (late : ∀ value, Faults (∀ id ∈ right, holds id) (next value)) :
    Faults (∀ id ∈ left ++ right, holds id) (first >>= next) :=
  (early.mono fun all => (List.forall_mem_append.mp all).1).bind fun value _ =>
    (late value).mono fun all => (List.forall_mem_append.mp all).2

/-- Errors of typing are not internal. -/
theorem typing (result : Except TypingError α) : Faults proper (ModularGlsl.typing result) := by
  cases result with
  | ok value => exact .ok value
  | error error => exact .error fun _ => by rintro ⟨⟩

end Faults

/-! ## Known variables -/

/-- All variables with smaller numbers have types, possibly one variable and what are
packages in the end apart. -/
def Arena.KnownBelow
    (limit : VarId)
    (own : Option VarId)
    (arena final : Arena) : Prop :=
  ∀ id < limit, own ≠ some id -> (final.get id).members = none -> ∃ ty, (arena.get id).ty = some ty

/-- An arena on the way to a last one, in which all is known that can be named at a place,
possibly one variable apart. -/
structure Typing.Knows
    (own : Option VarId)
    (final : Arena)
    (place : Place)
    (arena : Arena) : Prop where
  /-- Visible variables have smaller numbers. -/
  inRange : place.InRange
  /-- Variables with smaller numbers have types. -/
  known : arena.KnownBelow place.next own final
  /-- Only types change until the end. -/
  retypes : arena.Retypes final

variable {id : VarId} {ty : Ident} {limit low middle high : VarId} {own : Option VarId}
variable {arena before after final : Arena} {place : Place}

theorem Typing.Knows.faults_ty
    (knows : Typing.Knows own final place arena)
    (isVisible : id ∈ place.visible)
    (span : Span) :
    Faults ((final.get id).members = none ∧ own ≠ some id) (arena.ty id span) := by
  intro error failed
  unfold Arena.ty at failed
  split at failed
  · cases failed
  · next missing =>
      cases failed
      rintro internal ⟨⟩
      refine ⟨⟨_, _, rfl⟩, fun proper => ?_⟩
      obtain ⟨ty, found⟩ :=
        knows.known id (knows.inRange.visible id isVisible) proper.2 proper.1
      rw [missing] at found
      cases found

mutual

/-- The members of packages that an expression reads. -/
def Expr.memberReads : Expr -> List VarId
  | .int _ _ | .float _ _ | .bool _ _ | .var _ => []
  | .member _ _ (some id) _ => [id]
  | .member object _ none _ => object.memberReads
  | .index container position _
  | .getIndex container position _ _ => container.memberReads ++ position.memberReads
  | .call callee args _ => callee.memberReads ++ Expr.memberReadsOfAll args
  | .binary _ left right _ => left.memberReads ++ right.memberReads
  | .unary _ operand _ => operand.memberReads
  | .paren inner _ => inner.memberReads

/-- The members of packages that a list of expressions reads. -/
def Expr.memberReadsOfAll : List Expr -> List VarId
  | [] => []
  | expr :: rest => expr.memberReads ++ Expr.memberReadsOfAll rest

end

/-- The members of packages that an expression reads are no packages. -/
def Expr.ReadsValues
    (arena : Arena)
    (expr : Expr) : Prop :=
  ∀ id ∈ expr.memberReads, (arena.get id).members = none

theorem Expr.mem_memberReadsOfAll
    {exprs : List Expr}
    {id : VarId} :
    id ∈ Expr.memberReadsOfAll exprs ↔ ∃ expr ∈ exprs, id ∈ expr.memberReads := by
  induction exprs with
  | nil => simp [memberReadsOfAll]
  | cons expr rest ih => simp [memberReadsOfAll, ih]

/-- The names of types in a statement. -/
def Stmt.typeNames : Stmt -> List Ident
  | .precision _ ty _ => [ty]
  | .interface decl => [decl.ty]
  | .const decl => [decl.ty]
  | .var decl => [decl.ty]
  | .struct decl => decl.members.map (·.ty)
  | .function header _ => header.result.toList ++ header.params.map (·.ty)
  | _ => []

/-- A name of a type denotes neither a package nor a given variable. -/
def Ident.MayNameType
    (arena : Arena)
    (own : Option VarId)
    (ty : Ident) : Prop :=
  ∀ id ∈ ty.var, (arena.get id).members = none ∧ own ≠ some id

/-- The names of types in a statement denote neither packages nor what the
statement itself declares. -/
def Stmt.NamesTypes
    (arena : Arena)
    (stmt : Stmt) : Prop :=
  ∀ ty ∈ stmt.typeNames, ty.MayNameType arena (stmt.declared?.bind Ident.var)

/-! ## Expressions -/

mutual

/-- The type of a bound expression is missing only where it reads a package as a
member. -/
theorem Expr.faults_typeOf
    (knows : Typing.Knows none final place arena)
    (expr : Expr)
    (bound : expr.IsBound place) :
    Faults (expr.ReadsValues final) (expr.typeOf arena) := by
  match expr with
  | .int _ _ | .float _ _ | .bool _ _ =>
      exact .ok _
  | .var ident =>
      rw [Expr.typeOf]
      obtain ⟨id, isVisible, bound⟩ := bound
      rw [Ident.typeOf, Ident.bound_eq_ok.mpr bound]
      refine .bind (.ok id) ?_
      rintro _ ⟨⟩
      split
      · exact .error fun _ => by rintro ⟨⟩
      · next isValue =>
          refine .bind ?_ fun _ _ => .ok _
          refine (knows.faults_ty isVisible _).mono fun _ => ⟨?_, by simp⟩
          rw [knows.retypes.members_eq]
          simpa [Variable.isPackage] using isValue
  | .member _ _ (some id) span =>
      refine (knows.faults_ty (bound.2 id rfl) span).mono fun reads => ?_
      exact ⟨reads id List.mem_cons_self, by simp⟩
  | .member object _ none _ =>
      exact .bind (Expr.faults_typeOf knows object bound.1) fun _ _ => .typing _
  | .index left right _ | .getIndex left right _ _ =>
      refine .append (Expr.faults_typeOf knows left bound.1) fun _ => ?_
      refine .bind (Expr.faults_typeOf knows right bound.2) fun _ _ => ?_
      exact .bind (.typing _) fun _ _ => .typing _
  | .call callee args _ =>
      refine .append (Expr.faults_typeOf knows callee bound.1) fun _ => ?_
      refine .bind (Expr.faults_typesOf knows args bound.2) fun _ _ => ?_
      exact .bind (.typing _) fun _ _ => .typing _
  | .binary _ left right _ =>
      refine .append (Expr.faults_typeOf knows left bound.1) fun _ => ?_
      exact .bind (Expr.faults_typeOf knows right bound.2) fun _ _ => .typing _
  | .unary _ operand _ =>
      exact .bind (Expr.faults_typeOf knows operand bound) fun _ _ => .typing _
  | .paren inner _ =>
      rw [Expr.typeOf]
      exact Expr.faults_typeOf knows inner bound

theorem Expr.faults_typesOf
    (knows : Typing.Knows none final place arena)
    (exprs : List Expr)
    (bound : Expr.AreBound place exprs) :
    Faults (∀ id ∈ Expr.memberReadsOfAll exprs, (final.get id).members = none)
      (Expr.typesOf arena exprs) := by
  match exprs with
  | [] =>
      rw [Expr.typesOf]
      exact .ok _
  | expr :: rest =>
      rw [Expr.typesOf]
      refine .append (Expr.faults_typeOf knows expr bound.1) fun _ => ?_
      exact .bind (Expr.faults_typesOf knows rest bound.2) fun _ _ => .ok _

end

theorem Expr.faults_targetType
    (knows : Typing.Knows none final place arena)
    (target : Expr)
    (bound : target.IsBound place) :
    Faults (target.ReadsValues final) (target.targetType arena) := by
  match target with
  | .var ident =>
      rw [Expr.targetType]
      obtain ⟨id, _, isBound⟩ := id bound
      rw [Ident.bound_eq_ok.mpr isBound]
      refine .bind (.ok id) ?_
      rintro _ ⟨⟩
      split
      · exact .error fun _ => by rintro ⟨⟩
      · exact Expr.faults_typeOf knows _ bound
  | .member object _ none _ =>
      refine .bind (Expr.faults_targetType knows object bound.1) fun _ _ => ?_
      exact Expr.faults_typeOf knows _ bound
  | .index container position _ =>
      refine .bind ((Expr.faults_targetType knows container bound.1).mono ?_) fun _ _ => ?_
      · exact fun reads id mem => reads id (List.mem_append_left _ mem)
      · exact Expr.faults_typeOf knows _ bound
  | .paren inner _ =>
      exact Expr.faults_targetType knows inner bound
  | .int _ _ | .float _ _ | .bool _ _ | .member _ _ (some _) _ | .getIndex _ _ _ _
  | .call _ _ _ | .binary _ _ _ _ | .unary _ _ _ => exact .error fun _ => by rintro ⟨⟩

theorem Expr.faults_checkStore
    (knows : Typing.Knows none final place arena)
    (value : Ty)
    (span : Span)
    (target : Expr)
    (bound : target.IsBound place) :
    Faults (target.ReadsValues final) (target.checkStore arena value span) := by
  match target with
  | .member object _ none _ =>
      exact .bind (Expr.faults_targetType knows object bound.1) fun _ _ => .typing _
  | .index container position _ =>
      refine .append (Expr.faults_targetType knows container bound.1) fun _ => ?_
      refine .bind (.bind (Expr.faults_typeOf knows position bound.2) fun _ _ => ?_) ?_
      · exact .typing _
      · exact fun _ _ => .typing _
  | .paren inner _ =>
      exact Expr.faults_checkStore knows value span inner bound
  | .int _ _ | .float _ _ | .bool _ _ | .var _ | .member _ _ (some _) _ | .getIndex _ _ _ _
  | .call _ _ _ | .binary _ _ _ _ | .unary _ _ _ =>
      exact .bind (Expr.faults_targetType knows _ bound) fun _ _ => .typing _

/-! ## Declarations -/

variable {header : FunctionHeader}

variable {proper : Prop}

namespace Typing

/-- The type that a declaration asks for is missing only where its name denotes a
package or what is declared itself. -/
theorem faults_declaredType
    (knows : Knows own final place arena)
    (bound : ty.IsBound place)
    (length : Option Nat)
    (allowSampler : Bool)
    (span : Span) :
    Faults (ty.MayNameType final own) (declaredType arena ty length allowSampler span) := by
  obtain ⟨id, isVisible, bound⟩ := bound
  rw [declaredType, Ident.bound_eq_ok.mpr bound]
  refine .bind (.ok id) ?_
  rintro _ ⟨⟩
  refine .bind ((knows.faults_ty isVisible _).mono ?_) fun _ _ => ?_
  · exact fun mayName => mayName id bound
  refine .bind (.typing _) fun _ _ => ?_
  split
  · exact .error fun _ => by rintro ⟨⟩
  · split
    · exact .typing _
    · exact .ok _

/-- The types of the fields of a struct. -/
theorem faults_fieldsOf
    (knows : Knows own final place arena)
    {members : List StructMember}
    (bound : ∀ member ∈ members, member.ty.IsBound place) :
    Faults (∀ ty ∈ members.map (·.ty), ty.MayNameType final own) (fieldsOf arena members) := by
  induction members with
  | nil => exact .ok _
  | cons member rest ih =>
      obtain ⟨ownBound, restBound⟩ := List.forall_mem_cons.mp bound
      refine .bind ((faults_declaredType knows ownBound _ _ _).mono ?_) fun _ _ => ?_
      · exact fun mayName => mayName _ List.mem_cons_self
      refine .bind ((ih restBound).mono ?_) fun _ _ => .ok _
      exact fun mayName ty mem => mayName ty (List.mem_cons_of_mem _ mem)

theorem faults_resultType
    (knows : Knows own final place arena)
    (bound : ∀ ty ∈ header.result, ty.IsBound place) :
    Faults (∀ ty ∈ header.result, ty.MayNameType final own) (resultType arena header) := by
  unfold resultType
  split
  · next ty isResult =>
      rw [isResult] at bound
      refine .bind ((faults_declaredType knows (bound ty rfl) _ _ _).mono ?_)
        fun _ _ => .ok _
      exact fun mayName => mayName ty isResult
  · exact .ok _

/-- A path without a return is no internal error. -/
theorem faults_checkCoverage
    (result : Option Ty)
    (header : FunctionHeader)
    (body : List Stmt) :
    Faults proper (checkCoverage result header body) := by
  unfold checkCoverage
  split
  · cases header.checkReturns body with
    | ok value => exact .ok value
    | error error => exact .error fun _ => by rintro ⟨⟩
  · exact .ok _

/-! ## Statements -/

section

variable (knows : Knows none final place arena)
include knows

theorem faults_checkPrecision
    (bound : ty.IsBound place)
    (span : Span) :
    Faults (ty.MayNameType final none) (checkPrecision arena ty span) := by
  refine .bind (faults_declaredType knows bound _ _ _) fun _ _ => ?_
  split
  · exact .ok _
  · exact .error fun _ => by rintro ⟨⟩

theorem faults_checkAssign
    {target value : Expr}
    (targetBound : target.IsBound place)
    (valueBound : value.IsBound place)
    (op : AssignOp)
    (span : Span) :
    Faults (target.ReadsValues final ∧ value.ReadsValues final)
      (checkAssign arena target op value span) := by
  refine .bind ((Expr.faults_typeOf knows value valueBound).mono And.right) fun _ _ => ?_
  split
  · refine .bind ?_ fun _ _ => .bind (.typing _) fun _ _ => .typing _
    exact (Expr.faults_targetType knows target targetBound).mono And.left
  · exact (Expr.faults_checkStore knows _ _ target targetBound).mono And.left

theorem faults_checkCondition
    {condition : Expr}
    (bound : condition.IsBound place) :
    Faults (condition.ReadsValues final) (checkCondition arena condition) :=
  .bind (Expr.faults_typeOf knows condition bound) fun _ _ => .typing _

theorem faults_checkOptionalCondition
    {condition : Option Expr}
    (bound : Expr.IsBoundIfAny place condition) :
    Faults (∀ expr ∈ condition, expr.ReadsValues final)
      (checkOptionalCondition arena condition) := by
  cases condition with
  | none => exact .ok _
  | some expr =>
      exact (faults_checkCondition knows (bound expr rfl)).mono fun reads => reads expr rfl

theorem faults_checkReturn
    {value : Option Expr}
    (bound : Expr.IsBoundIfAny place value)
    (expected : Option Ty)
    (span : Span) :
    Faults (∀ expr ∈ value, expr.ReadsValues final) (checkReturn arena expected value span) := by
  refine .bind ?_ fun _ _ => ?_
  · cases value with
    | none => exact .ok _
    | some expr =>
        have typed := Expr.faults_typeOf knows expr (bound expr rfl)
        exact .bind (typed.mono fun reads => reads expr rfl) fun _ _ => .ok _
  · split
    · exact .ok _
    · exact .error fun _ => by rintro ⟨⟩

theorem faults_checkCall
    {callee : Expr}
    {args : List Expr}
    (calleeBound : callee.IsBound place)
    (argumentsBound : Expr.AreBound place args)
    (span : Span) :
    Faults (callee.ReadsValues final ∧ ∀ argument ∈ args, argument.ReadsValues final)
      (checkCall arena callee args span) := by
  refine .bind (.bind ?_ fun _ _ => .bind ?_ fun _ _ => .typing _) fun _ _ => ?_
  · exact (Expr.faults_typeOf knows callee calleeBound).mono And.left
  · refine (Expr.faults_typesOf knows args argumentsBound).mono
      fun reads id mem => ?_
    obtain ⟨argument, isArgument, isRead⟩ := Expr.mem_memberReadsOfAll.mp mem
    exact reads.2 argument isArgument id isRead
  · split
    · exact .ok _
    · exact .error fun _ => by rintro ⟨⟩

/-- The check of a store to an element at a dynamic index. -/
theorem faults_checkSetIndex
    {container position value : Expr}
    (containerBound : container.IsBound place)
    (positionBound : position.IsBound place)
    (valueBound : value.IsBound place)
    (span : Span) :
    Faults (container.ReadsValues final ∧ position.ReadsValues final ∧ value.ReadsValues final)
      (checkSetIndex arena container position value span) := by
  refine .bind ?_ fun _ _ => .bind ?_ fun _ _ => .bind ?_ fun _ _ => .typing _
  · exact (Expr.faults_targetType knows container containerBound).mono And.left
  · refine .bind ?_ fun _ _ => .typing _
    exact (Expr.faults_typeOf knows position positionBound).mono fun reads => reads.2.1
  · exact (Expr.faults_typeOf knows value valueBound).mono fun reads => reads.2.2

end

end Typing

/-! ## Modules -/

/-- No statement of a module names a package or what it declares itself as a type, and
no expression reads a package as a member of another one. -/
def Module.IsProper
    (arena : Arena)
    (module : Module) : Prop :=
  Stmt.EveryIn (Expr.ReadsValues arena) (Stmt.NamesTypes arena) module.statements

namespace Bundle

/-- After names are bound, the variables of the stage have types. -/
theorem IsFresh.knownBelow
    {library : Library}
    {bundle named : Bundle}
    (fresh : IsFresh library bundle)
    (grows : bundle.arena.Grows named.arena) :
    named.arena.KnownBelow bundle.arena.size none named.arena := by
  intro id below _ _
  rw [grows.get_eq id below]
  rw [fresh.arena_eq] at below ⊢
  obtain ⟨builtin, _, record_eq⟩ := get_builtins bundle.stage below
  exact ⟨builtin.ty id, by rw [record_eq]; rfl⟩

/-- The check of a main function never fails with an internal error. -/
theorem faults_checkEntry
    (arena : Arena)
    (module : Module) :
    Faults proper (checkEntry arena module) := by
  unfold checkEntry
  split
  · unfold Typing.checkMain
    dsimp only
    split
    · exact .ok _
    · exact .error fun _ => by rintro ⟨⟩
  · exact .ok _

end Bundle

end ModularGlsl
