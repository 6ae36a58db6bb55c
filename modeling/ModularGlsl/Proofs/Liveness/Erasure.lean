import ModularGlsl.Liveness.Sweep
import ModularGlsl.Proofs.Binding.Place
import ModularGlsl.Proofs.Tree

/-!
# Trees without accessors

The sweep fills the places for accessors and changes nothing else of a tree.  It
therefore keeps whatever does not depend on these places: the names that are bound, the
types of expressions, and the declarations of modules.
-/

namespace ModularGlsl

/-! ## Erased places -/

mutual

/-- An expression whose places for accessors are empty. -/
def Expr.erase : Expr -> Expr
  | .int value span => .int value span
  | .float value span => .float value span
  | .bool value span => .bool value span
  | .var ident => .var ident
  | .member object key packageMember span => .member object.erase key packageMember span
  | .index container position span => .index container.erase position.erase span
  | .getIndex container position _ span => .getIndex container.erase position.erase none span
  | .call callee args span => .call callee.erase (Expr.eraseAll args) span
  | .binary op left right span => .binary op left.erase right.erase span
  | .unary op operand span => .unary op operand.erase span
  | .paren inner span => .paren inner.erase span

/-- Expressions whose places for accessors are empty. -/
def Expr.eraseAll : List Expr -> List Expr
  | [] => []
  | expr :: rest => expr.erase :: Expr.eraseAll rest

end

mutual

/-- A statement whose places for accessors are empty. -/
def Stmt.erase : Stmt -> Stmt
  | .const decl => .const { decl with init := decl.init.map Expr.erase }
  | .var decl => .var { decl with init := decl.init.map Expr.erase }
  | .function header body => .function header (Stmt.eraseBlock body)
  | .assign target op value span => .assign target.erase op value.erase span
  | .cond branches span => .cond (Stmt.eraseBranches branches) span
  | .loop init condition step body span =>
      .loop init.erase condition.erase step.erase (Stmt.eraseBlock body) span
  | .ret value span => .ret (value.map Expr.erase) span
  | .call callee args span => .call callee.erase (Expr.eraseAll args) span
  | .update target op span => .update target.erase op span
  | .setIndex container position value _ span =>
      .setIndex container.erase position.erase value.erase none span
  | stmt => stmt

/-- Statements whose places for accessors are empty. -/
def Stmt.eraseBlock : List Stmt -> List Stmt
  | [] => []
  | stmt :: rest => stmt.erase :: Stmt.eraseBlock rest

/-- Arms of a chain of conditions whose places for accessors are empty. -/
def Stmt.eraseBranches : List (Branch Stmt) -> List (Branch Stmt)
  | [] => []
  | ⟨condition, body, span⟩ :: rest =>
      ⟨condition.map Expr.erase, Stmt.eraseBlock body, span⟩ :: Stmt.eraseBranches rest

end

/-- A module whose places for accessors are empty. -/
def Module.erase (module : Module) : Module :=
  { module with statements := Stmt.eraseBlock module.statements }

theorem Stmt.eraseBlock_eq_map (block : List Stmt) :
    Stmt.eraseBlock block = block.map Stmt.erase := by
  induction block with
  | nil => rfl
  | cons stmt rest ih => rw [eraseBlock, ih, List.map_cons]

/-! ## The sweep -/

namespace Liveness

mutual

/-- The sweep of an expression only fills places for accessors. -/
theorem erase_sweepExpr
    (expr : Expr)
    (state : State) :
    (sweepExpr expr state).1.erase = expr.erase := by
  match expr with
  | .int _ _ | .float _ _ | .bool _ _ | .var _ | .member _ _ (some _) _ =>
      rfl
  | .member object key none span =>
      change Expr.erase (.member (sweepExpr object _).1 key none span) = _
      rw [Expr.erase, Expr.erase, erase_sweepExpr object]
  | .index container position span =>
      change Expr.erase (.index (sweepExpr container _).1 (sweepExpr position _).1 span) = _
      rw [Expr.erase, Expr.erase, erase_sweepExpr container, erase_sweepExpr position]
  | .getIndex container position accessor span =>
      change Expr.erase
        (.getIndex (sweepExpr container _).1 (sweepExpr position _).1 _ span) = _
      rw [Expr.erase, Expr.erase, erase_sweepExpr container, erase_sweepExpr position]
  | .call callee args span =>
      change Expr.erase (.call (sweepExpr callee _).1 (sweepExprs args _).1 span) = _
      rw [Expr.erase, Expr.erase, erase_sweepExpr callee, eraseAll_sweepExprs args]
  | .binary op left right span =>
      change Expr.erase (.binary op (sweepExpr left _).1 (sweepExpr right _).1 span) = _
      rw [Expr.erase, Expr.erase, erase_sweepExpr left, erase_sweepExpr right]
  | .unary op operand span =>
      change Expr.erase (.unary op (sweepExpr operand _).1 span) = _
      rw [Expr.erase, Expr.erase, erase_sweepExpr operand]
  | .paren inner span =>
      change Expr.erase (.paren (sweepExpr inner _).1 span) = _
      rw [Expr.erase, Expr.erase, erase_sweepExpr inner]

theorem eraseAll_sweepExprs
    (exprs : List Expr)
    (state : State) :
    Expr.eraseAll (sweepExprs exprs state).1 = Expr.eraseAll exprs := by
  unfold sweepExprs
  match exprs with
  | [] =>
      rfl
  | expr :: rest =>
      change Expr.eraseAll ((sweepExpr expr _).1 :: (sweepExprs rest _).1) = _
      rw [Expr.eraseAll, Expr.eraseAll, erase_sweepExpr expr, eraseAll_sweepExprs rest]

end

theorem map_erase_sweepOptional
    (expr : Option Expr)
    (state : State) :
    (sweepOptional expr state).1.map Expr.erase = expr.map Expr.erase := by
  cases expr with
  | none => rfl
  | some expr => exact congrArg some (erase_sweepExpr expr state)

theorem map_erase_sweepInit
    (live : Bool)
    (init : Option Expr)
    (state : State) :
    (sweepInit live init state).1.map Expr.erase = init.map Expr.erase := by
  cases live with
  | false => rfl
  | true => exact map_erase_sweepOptional init state

/-- The sweep of a target only fills places for accessors. -/
theorem erase_sweepTarget
    (target : Expr)
    (state : State) :
    (sweepTarget target state).1.erase = target.erase := by
  unfold sweepTarget
  split
  · rfl
  · exact erase_sweepExpr _ state

mutual

/-- The sweep of a statement only fills places for accessors. -/
theorem erase_sweepStmt
    (stage : Stage)
    (stmt : Stmt)
    (state : State) :
    (sweepStmt stage stmt state).1.erase = stmt.erase := by
  cases stmt with
  | const decl =>
      change Stmt.erase (.const { decl with init := (sweepInit _ decl.init _).1 }) = _
      rw [Stmt.erase, Stmt.erase, map_erase_sweepInit]
  | var decl =>
      change Stmt.erase (.var { decl with init := (sweepInit _ decl.init _).1 }) = _
      rw [Stmt.erase, Stmt.erase, map_erase_sweepInit]
  | function header body =>
      change Stmt.erase
        ((if (readsIdent header.name state).1 = true then _ else _ : Sweep Stmt)
          (readsIdent header.name state).2).1 = _
      split
      · change Stmt.erase (.function header (sweepBlock stage body _).1) = _
        rw [Stmt.erase, Stmt.erase, eraseBlock_sweepBlock stage body]
      · rfl
  | assign target op value span =>
      change Stmt.erase (.assign (sweepTarget target _).1 op (sweepExpr value _).1 span) = _
      rw [Stmt.erase, Stmt.erase, erase_sweepTarget, erase_sweepExpr]
  | cond branches span =>
      change Stmt.erase (.cond (sweepBranches stage branches _).1 span) = _
      rw [Stmt.erase, Stmt.erase, eraseBranches_sweepBranches stage branches]
  | loop init condition step body span =>
      change Stmt.erase (.loop (sweepStmt stage init _).1 (sweepExpr condition _).1
        (sweepStmt stage step _).1 (sweepBlock stage body _).1 span) = _
      rw [Stmt.erase, Stmt.erase, erase_sweepStmt stage init, erase_sweepExpr,
        erase_sweepStmt stage step, eraseBlock_sweepBlock stage body]
  | ret value span =>
      change Stmt.erase (.ret (sweepOptional value _).1 span) = _
      rw [Stmt.erase, Stmt.erase, map_erase_sweepOptional]
  | call callee args span =>
      change Stmt.erase (.call (sweepExpr callee _).1 (sweepExprs args _).1 span) = _
      rw [Stmt.erase, Stmt.erase, erase_sweepExpr, eraseAll_sweepExprs]
  | update target op span =>
      change Stmt.erase (.update (sweepExpr target _).1 op span) = _
      rw [Stmt.erase, Stmt.erase, erase_sweepExpr]
  | setIndex container position value accessor span =>
      change Stmt.erase (.setIndex (sweepExpr container _).1 (sweepExpr position _).1
        (sweepExpr value _).1 _ span) = _
      rw [Stmt.erase, Stmt.erase, erase_sweepExpr, erase_sweepExpr, erase_sweepExpr]
  | _ =>
      rfl

theorem eraseBlock_sweepBlock
    (stage : Stage)
    (block : List Stmt)
    (state : State) :
    Stmt.eraseBlock (sweepBlock stage block state).1 = Stmt.eraseBlock block := by
  unfold sweepBlock
  match block with
  | [] =>
      rfl
  | stmt :: rest =>
      change Stmt.eraseBlock ((sweepStmt stage stmt _).1 :: (sweepBlock stage rest _).1) = _
      rw [Stmt.eraseBlock, Stmt.eraseBlock, erase_sweepStmt stage stmt,
        eraseBlock_sweepBlock stage rest]

/-- The sweep of the arms of a chain of conditions only fills places for
accessors. -/
theorem eraseBranches_sweepBranches
    (stage : Stage)
    (branches : List (Branch Stmt))
    (state : State) :
    Stmt.eraseBranches (sweepBranches stage branches state).1 = Stmt.eraseBranches branches := by
  unfold sweepBranches
  match branches with
  | [] =>
      rfl
  | ⟨condition, body, span⟩ :: rest =>
      change Stmt.eraseBranches
        (⟨(sweepOptional condition _).1, (sweepBlock stage body _).1, span⟩ ::
          (sweepBranches stage rest _).1) = _
      rw [Stmt.eraseBranches, Stmt.eraseBranches, map_erase_sweepOptional,
        eraseBlock_sweepBlock stage body, eraseBranches_sweepBranches stage rest]

end

/-- The sweep of modules only fills places for accessors. -/
theorem map_erase_sweepModules
    (stage : Stage)
    (modules : List Module)
    (state : State) :
    (sweepModules stage modules state).1.map Module.erase = modules.map Module.erase := by
  induction modules generalizing state with
  | nil => rfl
  | cons module rest ih =>
      change ({ module with statements := (sweepBlock stage module.statements _).1 } ::
        (sweepModules stage rest state).1).map Module.erase = _
      rw [List.map_cons, List.map_cons, ih]
      simp only [Module.erase, eraseBlock_sweepBlock]

end Liveness

/-! ## Bound trees -/

mutual

/-- The places for accessors have no part in the names of an expression. -/
theorem Expr.isBound_erase
    (place : Place)
    (expr : Expr) :
    expr.erase.IsBound place ↔ expr.IsBound place := by
  match expr with
  | .int _ _ | .float _ _ | .bool _ _ | .var _ => rfl
  | .member operand _ _ _ | .unary _ operand _ | .paren operand _ =>
      rw [Expr.erase, Expr.IsBound, Expr.IsBound, operand.isBound_erase place]
  | .index left right _ | .getIndex left right _ _ | .binary _ left right _ =>
      rw [Expr.erase, Expr.IsBound, Expr.IsBound, left.isBound_erase place,
        right.isBound_erase place]
  | .call callee args _ =>
      rw [Expr.erase, Expr.IsBound, Expr.IsBound, callee.isBound_erase place,
        Expr.areBound_eraseAll place args]

/-- The places for accessors have no part in the names of expressions. -/
theorem Expr.areBound_eraseAll
    (place : Place)
    (exprs : List Expr) :
    Expr.AreBound place (Expr.eraseAll exprs) ↔ Expr.AreBound place exprs := by
  match exprs with
  | [] => rfl
  | expr :: rest =>
      rw [Expr.eraseAll, Expr.AreBound, Expr.AreBound, expr.isBound_erase place,
        Expr.areBound_eraseAll place rest]

end

/-- The places for accessors have no part in the names of an expression, if there is
one. -/
theorem Expr.isBoundIfAny_erase
    (place : Place)
    (expr : Option Expr) :
    Expr.IsBoundIfAny place (expr.map Expr.erase) ↔ Expr.IsBoundIfAny place expr := by
  cases expr with
  | none => rfl
  | some expr => simp [Expr.IsBoundIfAny, expr.isBound_erase place]

section Bound

variable (arena : Arena) (accessors : Accessor -> Prop)

mutual

/-- A statement leads to the same place without its accessors. -/
theorem Stmt.isBound_erase
    (stmt : Stmt)
    (before after : Place) :
    stmt.erase.IsBound arena accessors before after ↔
      stmt.IsBound arena accessors before after := by
  cases stmt with
  | const _ | var _ | ret _ _ => simp only [Stmt.erase, Stmt.IsBound, Expr.isBoundIfAny_erase]
  | assign _ _ _ _ | update _ _ _ | setIndex _ _ _ _ _ =>
      simp only [Stmt.erase, Stmt.IsBound, Expr.isBound_erase]
  | call _ _ _ => simp only [Stmt.erase, Stmt.IsBound, Expr.isBound_erase, Expr.areBound_eraseAll]
  | function _ body => simp only [Stmt.erase, Stmt.IsBound, Stmt.areBound_eraseBlock body]
  | cond branches _ => simp only [Stmt.erase, Stmt.IsBound, Stmt.branchesBound_erase branches]
  | loop init _ step body _ =>
      simp only [Stmt.erase, Stmt.IsBound, Expr.isBound_erase, init.isBound_erase,
        step.isBound_erase, Stmt.areBound_eraseBlock body]
  | _ => rfl

theorem Stmt.areBound_eraseBlock
    (block : List Stmt)
    (before after : Place) :
    Stmt.AreBound arena accessors (Stmt.eraseBlock block) before after ↔
      Stmt.AreBound arena accessors block before after := by
  match block with
  | [] => rfl
  | stmt :: rest =>
      simp only [Stmt.eraseBlock, Stmt.AreBound, stmt.isBound_erase, Stmt.areBound_eraseBlock rest]

/-- The arms of a chain of conditions lead to the same place without their
accessors. -/
theorem Stmt.branchesBound_erase
    (branches : List (Branch Stmt))
    (before after : Place) :
    Stmt.BranchesBound arena accessors (Stmt.eraseBranches branches) before after ↔
      Stmt.BranchesBound arena accessors branches before after := by
  match branches with
  | [] => rfl
  | ⟨_, body, _⟩ :: rest =>
      simp only [Stmt.eraseBranches, Stmt.BranchesBound, Expr.isBoundIfAny_erase,
        Stmt.areBound_eraseBlock body, Stmt.branchesBound_erase rest]

end

end Bound

/-! ## Reads and types -/

mutual

/-- Places for accessors do not matter for what an expression reads. -/
@[simp] theorem Expr.reads_erase (expr : Expr) : expr.erase.reads = expr.reads := by
  match expr with
  | .int _ _ | .float _ _ | .bool _ _ | .var _ | .member _ _ (some _) _ => rfl
  | .member operand _ none _ | .unary _ operand _ | .paren operand _ =>
      rw [Expr.erase, Expr.reads, Expr.reads, operand.reads_erase]
  | .index left right _ | .getIndex left right _ _ | .binary _ left right _ =>
      rw [Expr.erase, Expr.reads, Expr.reads, left.reads_erase, right.reads_erase]
  | .call callee args _ =>
      rw [Expr.erase, Expr.reads, Expr.reads, callee.reads_erase, Expr.readsOfAll_eraseAll]

/-- Places for accessors do not matter for what expressions read. -/
theorem Expr.readsOfAll_eraseAll (exprs : List Expr) :
    Expr.readsOfAll (Expr.eraseAll exprs) = Expr.readsOfAll exprs := by
  match exprs with
  | [] => rfl
  | expr :: rest =>
      rw [Expr.eraseAll, Expr.readsOfAll, Expr.readsOfAll, expr.reads_erase,
        Expr.readsOfAll_eraseAll rest]

end

/-- Places for accessors do not matter for where an expression stands. -/
@[simp] theorem Expr.span_erase (expr : Expr) : expr.erase.span = expr.span := by
  cases expr <;> rfl

mutual

/-- Places for accessors do not matter for the type of an expression. -/
@[simp] theorem Expr.typeOf_erase
    (arena : Arena)
    (expr : Expr) :
    expr.erase.typeOf arena = expr.typeOf arena := by
  match expr with
  | .int _ _ | .float _ _ | .bool _ _ | .var _ | .member _ _ (some _) _ => rfl
  | .member operand _ none _ | .unary _ operand _ | .paren operand _ =>
      rw [Expr.erase, Expr.typeOf, Expr.typeOf, operand.typeOf_erase arena]
  | .index container position _ | .getIndex container position _ _ =>
      rw [Expr.erase, Expr.typeOf, Expr.typeOf, container.typeOf_erase arena,
        position.typeOf_erase arena, Expr.span_erase]
  | .call callee args _ =>
      rw [Expr.erase, Expr.typeOf, Expr.typeOf, callee.typeOf_erase arena,
        Expr.typesOf_eraseAll arena args]
  | .binary _ left right _ =>
      rw [Expr.erase, Expr.typeOf, Expr.typeOf, left.typeOf_erase arena, right.typeOf_erase arena]

/-- Places for accessors do not matter for the types of expressions. -/
theorem Expr.typesOf_eraseAll
    (arena : Arena)
    (exprs : List Expr) :
    Expr.typesOf arena (Expr.eraseAll exprs) = Expr.typesOf arena exprs := by
  match exprs with
  | [] => rfl
  | expr :: rest =>
      rw [Expr.eraseAll, Expr.typesOf, Expr.typesOf, expr.typeOf_erase arena,
        Expr.typesOf_eraseAll arena rest]

end

theorem Expr.eraseAll_eq_map (exprs : List Expr) :
    Expr.eraseAll exprs = exprs.map Expr.erase := by
  induction exprs with
  | nil => rfl
  | cons expr rest ih => rw [eraseAll, ih, List.map_cons]

/-! ## Parts -/

mutual

theorem Stmt.parts_erase (stmt : Stmt) : stmt.erase.parts = stmt.parts.map Stmt.erase := by
  cases stmt with
  | function _ body =>
      rw [Stmt.erase, Stmt.parts, Stmt.parts, List.map_cons, Stmt.partsOfBlock_erase body,
        Stmt.erase]
  | cond branches _ =>
      rw [Stmt.erase, Stmt.parts, Stmt.parts, List.map_cons, Stmt.partsOfBranches_erase branches,
        Stmt.erase]
  | loop init _ step body _ =>
      rw [Stmt.erase, Stmt.parts, Stmt.parts, List.map_cons, List.map_append, List.map_append,
        init.parts_erase, step.parts_erase, Stmt.partsOfBlock_erase body, Stmt.erase]
  | _ => rfl

theorem Stmt.partsOfBlock_erase (block : List Stmt) :
    Stmt.partsOfBlock (Stmt.eraseBlock block) = (Stmt.partsOfBlock block).map Stmt.erase := by
  match block with
  | [] => rfl
  | stmt :: rest =>
      rw [Stmt.eraseBlock, Stmt.partsOfBlock, Stmt.partsOfBlock, List.map_append,
        stmt.parts_erase, Stmt.partsOfBlock_erase rest]

theorem Stmt.partsOfBranches_erase (branches : List (Branch Stmt)) :
    Stmt.partsOfBranches (Stmt.eraseBranches branches) =
      (Stmt.partsOfBranches branches).map Stmt.erase := by
  match branches with
  | [] => rfl
  | ⟨_, body, _⟩ :: rest =>
      rw [Stmt.eraseBranches, Stmt.partsOfBranches, Stmt.partsOfBranches, List.map_append,
        Stmt.partsOfBlock_erase body, Stmt.partsOfBranches_erase rest]

end

theorem Stmt.exprs_erase (stmt : Stmt) : stmt.erase.exprs = stmt.exprs.map Expr.erase := by
  cases stmt with
  | cond branches span =>
      rw [Stmt.erase, Stmt.exprs, Stmt.exprs]
      induction branches with
      | nil => rfl
      | cons branch rest ih =>
          cases cond_eq : branch.cond <;>
            simp [Stmt.eraseBranches, ih, cond_eq]
  | const decl | var decl => cases init_eq : decl.init <;> simp [Stmt.erase, Stmt.exprs, init_eq]
  | ret value span => cases value <;> rfl
  | call callee args span => simp [Stmt.erase, Stmt.exprs, Expr.eraseAll_eq_map]
  | _ => rfl

/-! ## Conditions -/

/-- Conditions on expressions and statements that accessors have no part in. -/
structure Stmt.ArePlain
    (onExpr : Expr -> Prop)
    (onStmt : Stmt -> Prop) : Prop where
  /-- The places for accessors in expressions do not matter. -/
  expr_iff : ∀ expr : Expr, onExpr expr.erase ↔ onExpr expr
  /-- The places for accessors in statements do not matter. -/
  stmt_iff : ∀ stmt : Stmt, onStmt stmt.erase ↔ onStmt stmt
  /-- Accessors satisfy the condition. -/
  accessor : ∀ accessor, onStmt (.accessor accessor)

namespace Stmt.ArePlain

variable {onExpr : Expr -> Prop} {onStmt : Stmt -> Prop}

theorem everyIn_eraseBlock
    (plain : ArePlain onExpr onStmt)
    (block : List Stmt) :
    Stmt.EveryIn onExpr onStmt (Stmt.eraseBlock block) ↔ Stmt.EveryIn onExpr onStmt block := by
  rw [Stmt.everyIn_iff_parts, Stmt.everyIn_iff_parts, Stmt.partsOfBlock_erase, List.forall_mem_map]
  refine forall₂_congr fun part _ => ?_
  rw [plain.stmt_iff, Stmt.exprs_erase, List.forall_mem_map]
  simp only [plain.expr_iff]

end Stmt.ArePlain

end ModularGlsl
