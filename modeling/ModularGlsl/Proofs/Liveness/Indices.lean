import ModularGlsl.Proofs.Liveness.Waiting
import ModularGlsl.Proofs.Typing.Settled

/-!
# Dynamic indices of live code

The sweep binds every dynamic index of live code to an accessor for the type of its
container, and makes an accessor only for an index.  What an index asks for depends on the
type of its container only, which stays as it is while accessors are added.
-/

namespace ModularGlsl

/-- A dynamic index: whether it reads or writes, into what, and by which accessor. -/
structure DynamicIndex where
  /-- Whether an element is read or written. -/
  kind : AccessorKind
  /-- What the element belongs to. -/
  container : Expr
  /-- The accessor, once there is one. -/
  accessor : Option VarId

mutual

/-- The dynamic indices of an expression. -/
def Expr.dynamicIndices : Expr -> List DynamicIndex
  | .int _ _ | .float _ _ | .bool _ _ | .var _ | .member _ _ (some _) _ => []
  | .member object _ none _ => object.dynamicIndices
  | .index container position _ => container.dynamicIndices ++ position.dynamicIndices
  | .getIndex container position accessor _ =>
      ⟨.get, container, accessor⟩ :: (container.dynamicIndices ++ position.dynamicIndices)
  | .call callee args _ => callee.dynamicIndices ++ Expr.dynamicIndicesOfAll args
  | .binary _ left right _ => left.dynamicIndices ++ right.dynamicIndices
  | .unary _ operand _ => operand.dynamicIndices
  | .paren inner _ => inner.dynamicIndices

/-- The dynamic indices of a list of expressions. -/
def Expr.dynamicIndicesOfAll : List Expr -> List DynamicIndex
  | [] => []
  | expr :: rest => expr.dynamicIndices ++ Expr.dynamicIndicesOfAll rest

end

theorem Expr.mem_dynamicIndicesOfAll
    {exprs : List Expr}
    {call : DynamicIndex} :
    call ∈ Expr.dynamicIndicesOfAll exprs ↔ ∃ expr ∈ exprs, call ∈ expr.dynamicIndices := by
  induction exprs with
  | nil => simp [dynamicIndicesOfAll]
  | cons expr rest ih => simp [dynamicIndicesOfAll, ih]

/-- The dynamic indices of an expression, if there is one. -/
def Expr.dynamicIndicesIfAny : Option Expr -> List DynamicIndex
  | some expr => expr.dynamicIndices
  | none => []

mutual

/-- A statement holds a dynamic index in live code, given which declarations are live. -/
def Stmt.IndexesLive
    (live : Set VarId)
    (call : DynamicIndex) : Stmt -> Bool -> Prop
  | .const decl, _ =>
      (decl.exported = true ∨ decl.name.IsLive live) ∧ call ∈ Expr.dynamicIndicesIfAny decl.init
  | .var decl, atTop =>
      (atTop = false ∨ decl.name.IsLive live) ∧ call ∈ Expr.dynamicIndicesIfAny decl.init
  | .function header body, _ => header.name.IsLive live ∧ Stmt.IndexesLiveIn live call body false
  | .assign target _ value _, _ => call ∈ target.dynamicIndices ∨ call ∈ value.dynamicIndices
  | .cond branches _, _ => Stmt.IndexesLiveInBranches live call branches
  | .loop init condition step body _, _ =>
      init.IndexesLive live call false ∨ call ∈ condition.dynamicIndices ∨
        step.IndexesLive live call false ∨ Stmt.IndexesLiveIn live call body false
  | .ret value _, _ => call ∈ Expr.dynamicIndicesIfAny value
  | .call callee args _, _ =>
      call ∈ Expr.dynamicIndicesOfAll args ∨ call ∈ callee.dynamicIndices
  | .update target _ _, _ => call ∈ target.dynamicIndices
  | .setIndex container position value bound _, _ =>
      call ∈ container.dynamicIndices ∨ call ∈ position.dynamicIndices ∨
        call ∈ value.dynamicIndices ∨ call = ⟨.set, container, bound⟩
  | _, _ => False

/-- A list of statements holds a dynamic index in live code. -/
def Stmt.IndexesLiveIn
    (live : Set VarId)
    (call : DynamicIndex) : List Stmt -> Bool -> Prop
  | [], _ => False
  | stmt :: rest, atTop =>
      stmt.IndexesLive live call atTop ∨ Stmt.IndexesLiveIn live call rest atTop

/-- The arms of a chain of conditions hold a dynamic index in live code. -/
def Stmt.IndexesLiveInBranches
    (live : Set VarId)
    (call : DynamicIndex) : List (Branch Stmt) -> Prop
  | [] => False
  | ⟨condition, body, _⟩ :: rest =>
      call ∈ Expr.dynamicIndicesIfAny condition ∨ Stmt.IndexesLiveIn live call body false ∨
        Stmt.IndexesLiveInBranches live call rest

end

/-- Modules hold a dynamic index in live code. -/
def IndexedByModules
    (modules : List Module)
    (live : Set VarId)
    (call : DynamicIndex) : Prop :=
  ∃ module ∈ modules, Stmt.IndexesLiveIn live call module.statements true

/-! ## Accessors of dynamic indices -/

/-- The type of an expression stays when variables are added. -/
theorem Expr.typeOf_of_grows
    {before after : Arena}
    (grows : before.Grows after)
    {expr : Expr}
    {ty : Ty}
    (typed : expr.typeOf before = .ok ty) :
    expr.typeOf after = .ok ty := by
  refine expr.typeOf_of_agrees (fun id isRead => ?_) typed
  obtain ⟨known, hasType⟩ := expr.exists_ty_of_typeOf typed id isRead
  refine .of_get_eq (grows.get_eq id ?_)
  by_contra outside
  rw [Arena.get_of_size_le (Nat.le_of_not_lt outside)] at hasType
  cases hasType

namespace DynamicIndex

/-- A dynamic index asks for an accessor for the type of its container. -/
structure Asks
    (arena : Arena)
    (call : DynamicIndex)
    (span : Span)
    (ty : Ty)
    (asked : Accessor.Request) : Prop where
  /-- The type of the container. -/
  typed : call.container.typeOf arena = .ok ty
  /-- The accessor for it. -/
  requested : Accessor.request call.kind ty span = .ok asked

/-- A dynamic index is bound to an accessor that waits under the name and with the
dependencies that the index asks for. -/
def IsBoundTo
    (arena : Arena)
    (call : DynamicIndex)
    (waiting : Pending) : Prop :=
  call.accessor = some waiting.var ∧
    ∃ span ty asked, call.Asks arena span ty asked ∧
      waiting.name = asked.name ∧ waiting.deps = asked.deps

/-- An accessor waits that was made for a dynamic index. -/
def Makes
    (arena : Arena)
    (call : DynamicIndex)
    (waiting : Pending) : Prop :=
  call.accessor = some waiting.var ∧
    ∃ span ty asked, call.Asks arena span ty asked ∧
      waiting = ⟨asked.name, waiting.var, asked.deps,
        .accessor (.ofRequest call.kind asked waiting.var span)⟩

variable {before after : Arena} {call : DynamicIndex} {waiting : Pending}

/-- An index asks for the same when variables are added. -/
theorem Asks.grows
    {span : Span}
    {ty : Ty}
    {asked : Accessor.Request}
    (asks : call.Asks before span ty asked)
    (grows : before.Grows after) :
    call.Asks after span ty asked :=
  ⟨Expr.typeOf_of_grows grows asks.typed, asks.requested⟩

/-- An index stays bound when variables are added. -/
theorem IsBoundTo.grows
    (bound : call.IsBoundTo before waiting)
    (grows : before.Grows after) :
    call.IsBoundTo after waiting := by
  obtain ⟨accessor_eq, span, ty, asked, asks, same⟩ := bound
  exact ⟨accessor_eq, span, ty, asked, asks.grows grows, same⟩

/-- An accessor stays the one made for an index when variables are added. -/
theorem Makes.grows
    (makes : call.Makes before waiting)
    (grows : before.Grows after) :
    call.Makes after waiting := by
  obtain ⟨accessor_eq, span, ty, asked, asks, same⟩ := makes
  exact ⟨accessor_eq, span, ty, asked, asks.grows grows, same⟩

end DynamicIndex

namespace Liveness

theorem State.Moves.mem_pending
    {before after : State}
    (moves : before.Moves after)
    {waiting : Pending}
    (mem : waiting ∈ before.usage.pending) :
    waiting ∈ after.usage.pending := by
  induction moves with
  | refl => exact mem
  | tail _ step ih =>
      cases step with
      | mark =>
          rw [Usage.pending_markUsed]
          exact ih
      | track =>
          rw [Usage.pending_track]
          exact ih
      | obtain made =>
          rw [Usage.pending_markUsed]
          obtain ⟨_, _, ⟨_, _, rfl⟩ | ⟨_, _, rfl⟩⟩ := obtainFor_eq_ok made
          · exact ih
          · exact List.mem_append_left _ ih

/-- What a step of the sweep does for the dynamic indices that it yields: each is bound,
and each accessor that it makes is made for one of them. -/
structure Selects
    (calls : DynamicIndex -> Prop)
    (before after : State) : Prop where
  /-- The state changes as the sweep changes it. -/
  moves : before.Moves after
  /-- The indices are bound. -/
  bound : ∀ call, calls call ->
    ∃ waiting ∈ after.usage.pending, call.IsBoundTo after.arena waiting
  /-- Accessors are made for the indices. -/
  made : ∀ waiting ∈ after.usage.pending, waiting ∈ before.usage.pending ∨
    ∃ call, calls call ∧ call.Makes after.arena waiting

section Selects

variable {before middle after : State} {calls early late : DynamicIndex -> Prop}

theorem Selects.refl (state : State) : Selects (fun _ => False) state state :=
  ⟨.refl, fun _ => False.elim, fun _ => .inl⟩

theorem Selects.of_pending_eq
    (moves : before.Moves after)
    (same : after.usage.pending = before.usage.pending) :
    Selects (fun _ => False) before after :=
  ⟨moves, fun _ => False.elim, fun _ mem => .inl (same ▸ mem)⟩

theorem Selects.trans
    (first : Selects late before middle)
    (second : Selects early middle after) :
    Selects (fun call => early call ∨ late call) before after where
  moves := first.moves.trans second.moves
  bound call isCall := by
    rcases isCall with isEarly | isLate
    · exact second.bound call isEarly
    · obtain ⟨waiting, mem, isBound⟩ := first.bound call isLate
      exact ⟨waiting, second.moves.mem_pending mem, isBound.grows second.moves.grows⟩
  made waiting mem := by
    rcases second.made waiting mem with earlier | ⟨call, isCall, makes⟩
    · rcases first.made waiting earlier with earlier | ⟨call, isCall, makes⟩
      · exact .inl earlier
      · exact .inr ⟨call, .inr isCall, makes.grows second.moves.grows⟩
    · exact .inr ⟨call, .inl isCall, makes⟩

theorem Selects.congr
    {other : DynamicIndex -> Prop}
    (selects : Selects calls before after)
    (same : ∀ call, other call ↔ calls call) :
    Selects other before after where
  moves := selects.moves
  bound call isCall := selects.bound call ((same call).mp isCall)
  made waiting mem := by
    refine (selects.made waiting mem).imp_right ?_
    rintro ⟨call, isCall, makes⟩
    exact ⟨call, (same call).mpr isCall, makes⟩

/-- A dynamic index is bound to an accessor that waits, or to a new one. -/
theorem selects_of_bindAccessor
    {kind : AccessorKind}
    {container swept : Expr}
    {accessor bound : Option VarId}
    {span : Span}
    (same : swept.erase = container.erase)
    (run : Runs (bindAccessor kind container accessor span) before bound after) :
    Selects (· = ⟨kind, swept, bound⟩) before after := by
  obtain ⟨ty, var, arena, usage, typed, obtained, rfl, rfl⟩ := runs_bindAccessor run
  have moves : before.Moves _ := .single (.obtain obtained)
  obtain ⟨asked, requested, found⟩ := obtainFor_eq_ok obtained
  have typed : swept.typeOf before.arena = .ok ty := by
    rw [← Expr.typeOf_erase, same, Expr.typeOf_erase, typed]
  have asks : DynamicIndex.Asks arena ⟨kind, swept, some var⟩ span ty asked :=
    ⟨Expr.typeOf_of_grows moves.grows typed, requested⟩
  rcases found with ⟨found, _, rfl⟩ | ⟨_, _, rfl⟩
  · obtain ⟨waiting, isFound, rfl⟩ := Option.map_eq_some_iff.mp found
    have mem := List.mem_of_find?_eq_some isFound
    have keys := List.find?_some isFound
    simp only [Bool.and_eq_true, beq_iff_eq] at keys
    refine ⟨moves, ?_, fun waiting mem => .inl ?_⟩
    · rintro _ rfl
      refine ⟨waiting, ?_, rfl, span, ty, asked, asks, keys⟩
      rwa [Usage.pending_markUsed]
    · rwa [Usage.pending_markUsed] at mem
  · have pending_eq : _ = before.usage.pending ++ [_] := Usage.pending_markUsed
      (before.usage.inject ⟨asked.name, var, asked.deps, .accessor (.ofRequest kind asked var span)⟩)
      var
    refine ⟨moves, ?_, fun waiting mem => ?_⟩
    · rintro _ rfl
      exact ⟨⟨asked.name, var, asked.deps, .accessor (.ofRequest kind asked var span)⟩,
        pending_eq ▸ List.mem_append_right _ (List.mem_singleton_self _),
        rfl, span, ty, asked, asks, rfl, rfl⟩
    · rw [pending_eq] at mem
      refine (List.mem_append.mp mem).imp_right fun isNew => ?_
      obtain rfl := List.mem_singleton.mp isNew
      exact ⟨_, rfl, rfl, span, ty, asked, asks, rfl⟩

/-- A swept expression differs in its accessors only. -/
theorem erase_of_sweepExpr
    {expr swept : Expr}
    (run : Runs (sweepExpr expr) before swept after) :
    swept.erase = expr.erase := by
  obtain ⟨run, _⟩ := run
  rw [← erase_sweepExpr expr before, run]

end Selects

end Liveness

end ModularGlsl
