import ModularGlsl.Proofs.Declarations
import ModularGlsl.Proofs.Liveness.Indices

/-!
# Failures of the sweep

The sweep of a typed program fails only where code follows a return statement: the
identifiers that it marks are bound, and the containers whose types it asks for have types
that an accessor can be made for.
-/

namespace ModularGlsl

/-! ## Containers -/

/-- Arrays and vectors hold elements. -/
def Ty.IsIndexed (ty : Ty) : Prop :=
  (∃ element length, ty.bare = .array element length) ∨ ∃ kind arity, ty.bare = .vector kind arity

/-- What has an element at a known index holds elements. -/
theorem Ty.isIndexed_of_index
    {container element : Ty}
    {position : Int}
    {span : Span}
    (found : container.index position span = .ok element) :
    container.IsIndexed := by
  unfold Ty.index Ty.elements? at found
  cases isBare : container.bare with
  | array element length => exact .inl ⟨element, length, isBare⟩
  | vector kind arity => exact .inr ⟨kind, arity, isBare⟩
  | _ =>
      rw [isBare] at found
      cases found

/-- An accessor can be made for what holds elements. -/
theorem Ty.IsIndexed.exists_accessor
    {container : Ty}
    (indexed : container.IsIndexed)
    (arena : Arena)
    (usage : Usage)
    (kind : AccessorKind)
    (span : Span) :
    ∃ made, Accessor.obtainFor arena usage kind container span = .ok made := by
  have requested : ∃ request, Accessor.request kind container span = .ok request := by
    unfold Accessor.request
    rcases indexed with ⟨_, _, isBare⟩ | ⟨_, _, isBare⟩
    · exact ⟨_, by rw [isBare]⟩
    · exact ⟨_, by rw [isBare]⟩
  obtain ⟨request, requested⟩ := requested
  unfold Accessor.obtainFor
  rw [requested]
  cases found : usage.find? request.name request.deps with
  | some | none => exact ⟨_, except_bind_eq_ok.mpr ⟨_, rfl, by rw [found]; rfl⟩⟩

/-- A container has a type that an accessor can be made for. -/
def Expr.IsIndexed
    (arena : Arena)
    (container : Expr) : Prop :=
  ∃ ty, container.typeOf arena = .ok ty ∧ ty.IsIndexed

/-- The dynamic index that a statement stores at. -/
def Stmt.dynamicStores : Stmt -> List DynamicIndex
  | .setIndex container _ _ bound _ => [⟨.set, container, bound⟩]
  | _ => []

/-- The sweep may ask for what a statement declares, and for the accessor of its
container. -/
structure Stmt.MaySweep
    (arena : Arena)
    (stmt : Stmt) : Prop where
  /-- Declared identifiers are bound. -/
  bound : ∀ ident ∈ stmt.declares, ∃ id, ident.var = some id
  /-- An accessor can be made for the container of a store at a dynamic index. -/
  indexed : ∀ call ∈ stmt.dynamicStores, call.container.IsIndexed arena

namespace Liveness

/-! ## Steps -/

/-- The arena grows from a typed one, and a failure is code after a return statement. -/
structure State.IsSound
    (typed : Arena)
    (state : State) : Prop where
  /-- Variables are only added. -/
  grows : typed.Grows state.arena
  /-- A failure is code after a return statement. -/
  failure : ∀ error, state.failure = some error -> ∃ span, error = .flow (.unreachable span)

/-- A step fails only where code follows a return statement. -/
def Keeps
    {α : Type}
    (typed : Arena)
    (step : Sweep α) : Prop :=
  ∀ state : State, state.IsSound typed -> (step state).2.IsSound typed

variable {typed : Arena}

section Steps

variable {α β : Type}

theorem Keeps.pure (value : α) : Keeps typed (Pure.pure value : Sweep α) :=
  fun _ sound => sound

theorem Keeps.bind
    {first : Sweep α}
    {next : α -> Sweep β}
    (early : Keeps typed first)
    (late : ∀ value, Keeps typed (next value)) :
    Keeps typed (first >>= next) :=
  fun state sound => late (first state).1 (first state).2 (early state sound)

theorem keeps_changeUsage (change : Usage -> Usage) : Keeps typed (changeUsage change) := by
  rintro ⟨arena, usage, failure⟩ sound
  cases failure with
  | some diagnostic => exact sound
  | none => exact ⟨sound.grows, sound.failure⟩

variable {ident : Ident}

section

variable (bound : ∃ id, ident.var = some id)
include bound

theorem keeps_markIdent :
    Keeps typed (markIdent ident) := by
  obtain ⟨var, bound⟩ := bound
  rw [markIdent, Ident.bound_eq_ok.mpr bound]
  exact keeps_changeUsage _

theorem keeps_trackIdent (span : Span) :
    Keeps typed (trackIdent ident span) := by
  obtain ⟨var, bound⟩ := bound
  rw [trackIdent, Ident.bound_eq_ok.mpr bound]
  exact keeps_changeUsage _

/-- A bound identifier is asked about. -/
theorem keeps_readsIdent :
    Keeps typed (readsIdent ident) := by
  obtain ⟨var, bound⟩ := bound
  rw [readsIdent, Ident.bound_eq_ok.mpr bound]
  exact fun _ sound => sound

end

theorem keeps_checkReachable (block : List Stmt) : Keeps typed (checkReachable block) := by
  unfold checkReachable
  split
  next stmt _ =>
    rintro ⟨arena, usage, failure⟩ sound
    cases failure with
    | some diagnostic => exact sound
    | none => exact ⟨sound.grows, fun error failed => ⟨stmt.span, (Option.some.inj failed).symm⟩⟩
  next => exact .pure ()

/-- An accessor is bound for a container that was typed. -/
theorem keeps_bindAccessor
    {container : Expr}
    (indexed : container.IsIndexed typed)
    (kind : AccessorKind)
    (accessor : Option VarId)
    (span : Span) :
    Keeps typed (bindAccessor kind container accessor span) := by
  obtain ⟨ty, isTyped, isIndexed⟩ := indexed
  intro state sound
  obtain ⟨⟨var, arena, usage⟩, obtained⟩ :=
    isIndexed.exists_accessor state.arena state.usage kind span
  have made : accessorFor state kind container span = .ok (var, arena, usage) :=
    except_bind_eq_ok.mpr
      ⟨ty, Expr.typeOf_of_grows sound.grows isTyped, typing_eq_ok.mpr obtained⟩
  unfold bindAccessor
  rw [made]
  split
  · exact sound
  next failed => cases failed
  next clear same =>
    cases same
    refine ⟨sound.grows.trans ?_, sound.failure⟩
    obtain ⟨request, _, ⟨_, rfl, _⟩ | ⟨_, rfl, _⟩⟩ := obtainFor_eq_ok obtained
    · exact .refl _
    · exact state.arena.grows_alloc rfl

end Steps

/-! ## Expressions -/

theorem keeps_sweepExprs
    {exprs : List Expr}
    (each : ∀ expr ∈ exprs, Keeps typed (sweepExpr expr)) :
    Keeps typed (sweepExprs exprs) := by
  induction exprs with
  | nil =>
      exact .pure _
  | cons expr rest ih =>
      obtain ⟨own, others⟩ := List.forall_mem_cons.mp each
      exact .bind (ih others) fun _ => .bind own fun _ => .pure _

theorem keeps_sweepExpr
    (expr : Expr)
    (hasType : expr.HasType typed) :
    Keeps typed (sweepExpr expr) := by
  obtain ⟨ty, isTyped⟩ := hasType
  replace isTyped := expr.typed_of_typeOf isTyped
  induction isTyped with
  | int | float | bool =>
      exact .pure _
  | var found =>
      obtain ⟨id, _, bound, _⟩ := Ident.typeOf_eq_ok found
      exact .bind (keeps_markIdent ⟨id, bound⟩) fun _ => .pure _
  | path =>
      exact .bind (keeps_changeUsage _) fun _ => .pure _
  | member _ _ operand | unary _ _ operand | paren _ operand =>
      exact .bind operand fun _ => .pure _
  | index _ _ _ _ left right | binary _ _ _ left right =>
      exact .bind right fun _ => .bind left fun _ => .pure _
  | getIndex containerTyped _ _ found container position =>
      have indexed := Ty.isIndexed_of_index found
      refine .bind (keeps_bindAccessor ⟨_, containerTyped.typeOf_eq, indexed⟩ _ _ _) fun _ => ?_
      exact .bind position fun _ => .bind container fun _ => .pure _
  | call _ _ _ callee args =>
      exact .bind (keeps_sweepExprs args) fun _ => .bind callee fun _ => .pure _

theorem keeps_sweepOptional
    {expr : Option Expr}
    (haveTypes : ∀ value ∈ expr, value.HasType typed) :
    Keeps typed (sweepOptional expr) := by
  cases expr with
  | none => exact .pure _
  | some expr => exact .bind (keeps_sweepExpr expr (haveTypes expr rfl)) fun _ => .pure _

theorem keeps_sweepInit
    (live : Bool)
    {init : Option Expr}
    (haveTypes : ∀ value ∈ init, value.HasType typed) :
    Keeps typed (sweepInit live init) := by
  unfold sweepInit
  split
  · exact keeps_sweepOptional haveTypes
  · exact .pure _

theorem keeps_sweepTarget
    {target : Expr}
    (hasType : target.HasType typed) :
    Keeps typed (sweepTarget target) := by
  unfold sweepTarget
  split
  · exact .pure _
  · exact keeps_sweepExpr _ hasType

/-! ## Statements -/

section Statements

variable (stage : Stage)

mutual

theorem keeps_sweepStmt
    (stmt : Stmt)
    (haveTypes : stmt.Every (Expr.HasType typed) fun _ => True)
    (maySweep : ∀ part ∈ stmt.parts, part.MaySweep typed) :
    Keeps typed (sweepStmt stage stmt) := by
  cases stmt with
  | interface decl =>
      have bound := (maySweep _ List.mem_cons_self).bound decl.name List.mem_cons_self
      refine .bind ?_ fun _ => .pure _
      unfold sweepInterface
      split
      · exact keeps_trackIdent bound _
      · exact .pure ()
  | const decl =>
      have bound := (maySweep _ List.mem_cons_self).bound decl.name List.mem_cons_self
      refine .bind (.bind (keeps_readsIdent bound) fun _ => ?_) fun _ => .pure _
      exact .bind (keeps_sweepInit _ haveTypes.2) fun _ => .pure _
  | var decl =>
      have bound := (maySweep _ List.mem_cons_self).bound decl.name List.mem_cons_self
      refine .bind (.bind (keeps_trackIdent bound _) fun _ => ?_) fun _ => .pure _
      refine .bind (keeps_readsIdent bound) fun _ => ?_
      refine .bind (fun _ sound => sound) fun _ => ?_
      exact .bind (keeps_sweepInit _ haveTypes.2) fun _ => .pure _
  | function header body =>
      rw [Stmt.parts, List.forall_mem_cons] at maySweep
      have bound := maySweep.1.bound header.name List.mem_cons_self
      refine .bind (keeps_readsIdent bound) fun _ => ?_
      split
      · refine .bind (keeps_checkReachable body) fun _ => ?_
        exact .bind (keeps_sweepBlock body haveTypes.2 maySweep.2) fun _ => .pure _
      · exact .pure _
  | assign target _ value _ =>
      refine .bind (keeps_sweepExpr value haveTypes.2.2) fun _ => ?_
      exact .bind (keeps_sweepTarget haveTypes.2.1) fun _ => .pure _
  | cond branches _ =>
      rw [Stmt.parts, List.forall_mem_cons] at maySweep
      exact .bind (keeps_sweepBranches branches haveTypes.2 maySweep.2) fun _ => .pure _
  | loop init condition step body _ =>
      rw [Stmt.parts, List.forall_mem_cons, List.forall_mem_append,
        List.forall_mem_append] at maySweep
      obtain ⟨_, initSweeps, stepSweeps, bodySweeps⟩ := maySweep
      obtain ⟨_, initTypes, conditionType, stepTypes, bodyTypes⟩ := haveTypes
      refine .bind (keeps_checkReachable body) fun _ => ?_
      refine .bind (keeps_sweepBlock body bodyTypes bodySweeps) fun _ => ?_
      refine .bind (keeps_sweepStmt step stepTypes stepSweeps) fun _ => ?_
      refine .bind (keeps_sweepExpr condition conditionType) fun _ => ?_
      exact .bind (keeps_sweepStmt init initTypes initSweeps) fun _ => .pure _
  | ret value _ =>
      exact .bind (keeps_sweepOptional haveTypes.2) fun _ => .pure _
  | call callee args _ =>
      refine .bind (keeps_sweepExpr callee haveTypes.2.1) fun _ => ?_
      exact .bind (keeps_sweepExprs fun argument mem =>
        keeps_sweepExpr argument (haveTypes.2.2 argument mem)) fun _ => .pure _
  | update target _ _ =>
      exact .bind (keeps_sweepExpr target haveTypes.2) fun _ => .pure _
  | setIndex container position value _ _ =>
      obtain ⟨_, containerType, positionType, valueType⟩ := haveTypes
      have indexed := (maySweep _ List.mem_cons_self).indexed _ List.mem_cons_self
      refine .bind (keeps_bindAccessor indexed _ _ _) fun _ => ?_
      refine .bind (keeps_sweepExpr value valueType) fun _ => ?_
      refine .bind (keeps_sweepExpr position positionType) fun _ => ?_
      exact .bind (keeps_sweepExpr container containerType) fun _ => .pure _
  | _ =>
      exact .pure _

theorem keeps_sweepBlock
    (block : List Stmt)
    (haveTypes : Stmt.EveryIn (Expr.HasType typed) (fun _ => True) block)
    (maySweep : ∀ part ∈ Stmt.partsOfBlock block, part.MaySweep typed) :
    Keeps typed (sweepBlock stage block) := by
  unfold sweepBlock
  match block with
  | [] =>
      exact .pure _
  | stmt :: rest =>
      rw [Stmt.partsOfBlock, List.forall_mem_append] at maySweep
      refine .bind (keeps_sweepBlock rest haveTypes.2 maySweep.2) fun _ => ?_
      exact .bind (keeps_sweepStmt stmt haveTypes.1 maySweep.1) fun _ => .pure _

theorem keeps_sweepBranches
    (branches : List (Branch Stmt))
    (haveTypes : Stmt.EveryInBranches (Expr.HasType typed) (fun _ => True) branches)
    (maySweep : ∀ part ∈ Stmt.partsOfBranches branches, part.MaySweep typed) :
    Keeps typed (sweepBranches stage branches) := by
  unfold sweepBranches
  match branches with
  | [] =>
      exact .pure _
  | ⟨condition, body, _⟩ :: rest =>
      rw [Stmt.partsOfBranches, List.forall_mem_append] at maySweep
      refine .bind (keeps_sweepBranches rest haveTypes.2.2 maySweep.2) fun _ => ?_
      refine .bind (keeps_checkReachable body) fun _ => ?_
      refine .bind (keeps_sweepBlock body haveTypes.2.1 maySweep.1) fun _ => ?_
      exact .bind (keeps_sweepOptional haveTypes.1) fun _ => .pure _

end

theorem keeps_sweepModules
    {modules : List Module}
    (haveTypes : ∀ module ∈ modules,
      Stmt.EveryIn (Expr.HasType typed) (fun _ => True) module.statements)
    (maySweep : ∀ module ∈ modules, ∀ part ∈ module.parts, part.MaySweep typed) :
    Keeps typed (sweepModules stage modules) := by
  induction modules with
  | nil => exact .pure _
  | cons module rest ih =>
      obtain ⟨ownTypes, restTypes⟩ := List.forall_mem_cons.mp haveTypes
      obtain ⟨ownSweeps, restSweeps⟩ := List.forall_mem_cons.mp maySweep
      refine .bind (ih restTypes restSweeps) fun _ => ?_
      refine .bind (keeps_checkReachable _) fun _ => ?_
      exact .bind (keeps_sweepBlock stage module.statements ownTypes ownSweeps) fun _ => .pure _

end Statements

end Liveness
end ModularGlsl
