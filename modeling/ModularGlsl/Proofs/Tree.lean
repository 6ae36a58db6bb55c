import ModularGlsl.Tree.Stmt

/-!
# Parts of trees

Conditions on all parts of a tree, and the variables that an expression reads.
A member of a package reads the member only; what stands before the dot names a
package, which is no variable of the output.
-/

namespace ModularGlsl

theorem Ident.bound_eq_ok
    {ident : Ident}
    {id : VarId} :
    ident.bound = .ok id ↔ ident.var = some id := by
  unfold Ident.bound
  split
  next found => simp [found]
  next found => simp [found]

mutual

/-- The variables that an expression reads. -/
def Expr.reads : Expr -> List VarId
  | .int _ _ | .float _ _ | .bool _ _ => []
  | .var ident => ident.var.toList
  | .member _ _ (some id) _ => [id]
  | .member object _ none _ => object.reads
  | .index container position _
  | .getIndex container position _ _ => container.reads ++ position.reads
  | .call callee args _ => callee.reads ++ Expr.readsOfAll args
  | .binary _ left right _ => left.reads ++ right.reads
  | .unary _ operand _ => operand.reads
  | .paren inner _ => inner.reads

/-- The variables that a list of expressions reads. -/
def Expr.readsOfAll : List Expr -> List VarId
  | [] => []
  | expr :: rest => expr.reads ++ Expr.readsOfAll rest

end

theorem Expr.mem_readsOfAll
    {exprs : List Expr}
    {id : VarId} :
    id ∈ Expr.readsOfAll exprs ↔ ∃ expr ∈ exprs, id ∈ expr.reads := by
  induction exprs with
  | nil => simp [readsOfAll]
  | cons expr rest ih => simp [readsOfAll, ih]

/-- The variables that an expression reads if there is one. -/
def Expr.readsIfAny : Option Expr -> List VarId
  | some expr => expr.reads
  | none => []

/-- The variables that the target of an assignment reads; a bare variable is
only stored to. -/
def Expr.targetReads : Expr -> List VarId
  | .var _ => []
  | target => target.reads

theorem Expr.targetReads_eq
    {target : Expr}
    (noVariable : ∀ ident, target = .var ident -> False) :
    target.targetReads = target.reads := by
  cases target with
  | var ident => exact (noVariable ident rfl).elim
  | _ => rfl

mutual

/-- All members of packages in an expression that are bound already satisfy a
condition. -/
def Expr.MembersSatisfy (known : VarId -> Prop) : Expr -> Prop
  | .int _ _ | .float _ _ | .bool _ _ | .var _ => True
  | .member object _ packageMember _ =>
      object.MembersSatisfy known ∧ ∀ member ∈ packageMember, known member
  | .index container position _
  | .getIndex container position _ _ =>
      container.MembersSatisfy known ∧ position.MembersSatisfy known
  | .call callee args _ =>
      callee.MembersSatisfy known ∧ Expr.AllMembersSatisfy known args
  | .binary _ left right _ => left.MembersSatisfy known ∧ right.MembersSatisfy known
  | .unary _ operand _ => operand.MembersSatisfy known
  | .paren inner _ => inner.MembersSatisfy known

/-- All members of packages in a list of expressions that are bound already
satisfy a condition. -/
def Expr.AllMembersSatisfy (known : VarId -> Prop) : List Expr -> Prop
  | [] => True
  | expr :: rest => expr.MembersSatisfy known ∧ Expr.AllMembersSatisfy known rest

end

theorem Expr.allMembersSatisfy_iff
    {known : VarId -> Prop}
    {exprs : List Expr} :
    Expr.AllMembersSatisfy known exprs ↔ ∀ expr ∈ exprs, expr.MembersSatisfy known := by
  induction exprs with
  | nil => simp [AllMembersSatisfy]
  | cons expr rest ih => simp [AllMembersSatisfy, ih]

mutual

/-- The variables that members of packages in an expression are bound to. -/
def Expr.packageMembers : Expr -> List VarId
  | .int _ _ | .float _ _ | .bool _ _ | .var _ => []
  | .member object _ packageMember _ => object.packageMembers ++ packageMember.toList
  | .index container position _
  | .getIndex container position _ _ => container.packageMembers ++ position.packageMembers
  | .call callee args _ => callee.packageMembers ++ Expr.packageMembersOfAll args
  | .binary _ left right _ => left.packageMembers ++ right.packageMembers
  | .unary _ operand _ => operand.packageMembers
  | .paren inner _ => inner.packageMembers

/-- The variables that members of packages in a list of expressions are bound to. -/
def Expr.packageMembersOfAll : List Expr -> List VarId
  | [] => []
  | expr :: rest => expr.packageMembers ++ Expr.packageMembersOfAll rest

end

section Members

variable {known : VarId -> Prop}

mutual

theorem Expr.membersSatisfy_iff (expr : Expr) :
    expr.MembersSatisfy known ↔ ∀ id ∈ expr.packageMembers, known id := by
  match expr with
  | .int _ _ | .float _ _ | .bool _ _ | .var _ => simp [MembersSatisfy, packageMembers]
  | .member object _ packageMember _ =>
      simp [MembersSatisfy, packageMembers, object.membersSatisfy_iff, or_imp, forall_and]
  | .index left right _
  | .getIndex left right _ _
  | .binary _ left right _ =>
      rw [MembersSatisfy, packageMembers, List.forall_mem_append, left.membersSatisfy_iff,
        right.membersSatisfy_iff]
  | .call callee args _ =>
      rw [MembersSatisfy, packageMembers, List.forall_mem_append, callee.membersSatisfy_iff,
        Expr.allMembersSatisfy_iff_all args]
  | .unary _ operand _ | .paren operand _ =>
      rw [MembersSatisfy, packageMembers, operand.membersSatisfy_iff]

theorem Expr.allMembersSatisfy_iff_all (exprs : List Expr) :
    Expr.AllMembersSatisfy known exprs ↔ ∀ id ∈ Expr.packageMembersOfAll exprs, known id := by
  match exprs with
  | [] => simp [AllMembersSatisfy, packageMembersOfAll]
  | expr :: rest =>
      rw [AllMembersSatisfy, packageMembersOfAll, List.forall_mem_append, expr.membersSatisfy_iff,
        Expr.allMembersSatisfy_iff_all rest]

end

instance [DecidablePred known] : DecidablePred (Expr.MembersSatisfy known) :=
  fun expr => decidable_of_iff _ expr.membersSatisfy_iff.symm

theorem Expr.MembersSatisfy.mono
    {other : VarId -> Prop}
    (weaker : ∀ id, known id -> other id)
    {expr : Expr}
    (satisfied : expr.MembersSatisfy known) :
    expr.MembersSatisfy other :=
  expr.membersSatisfy_iff.mpr fun id mem =>
    weaker id (expr.membersSatisfy_iff.mp satisfied id mem)

end Members

/-- If a statement defines an accessor, then the accessor satisfies a condition. -/
def Stmt.AccessorSatisfies (accessors : Accessor -> Prop) : Stmt -> Prop
  | .accessor decl => accessors decl
  | _ => True

instance (accessors : Accessor -> Prop) [DecidablePred accessors] :
    DecidablePred (Stmt.AccessorSatisfies accessors) := fun stmt => by
  unfold Stmt.AccessorSatisfies
  split <;> infer_instance

theorem Stmt.AccessorSatisfies.mono
    {accessors allowed : Accessor -> Prop}
    (allow : ∀ accessor, accessors accessor -> allowed accessor)
    {stmt : Stmt}
    (satisfied : stmt.AccessorSatisfies accessors) :
    stmt.AccessorSatisfies allowed := by
  unfold AccessorSatisfies at satisfied ⊢
  split
  · exact allow _ satisfied
  · trivial

/-- The names of an accessor denote nothing yet. -/
structure Accessor.IsUnbound (accessor : Accessor) : Prop where
  /-- The accessor declares no variable. -/
  name_eq : accessor.name.var = none
  /-- The type of the elements denotes no variable. -/
  element_eq : accessor.element.var = none

instance : DecidablePred Accessor.IsUnbound := fun accessor =>
  decidable_of_iff (accessor.name.var = none ∧ accessor.element.var = none)
    ⟨fun both => ⟨both.1, both.2⟩, fun isUnbound => ⟨isUnbound.1, isUnbound.2⟩⟩

mutual

/-- A statement and all statements in it satisfy a condition, and so do all
their expressions. -/
def Stmt.Every
    (onExpr : Expr -> Prop)
    (onStmt : Stmt -> Prop)
    (stmt : Stmt) : Prop :=
  onStmt stmt ∧
    match stmt with
    | .const decl => ∀ init ∈ decl.init, onExpr init
    | .var decl => ∀ init ∈ decl.init, onExpr init
    | .function _ body => Stmt.EveryIn onExpr onStmt body
    | .assign target _ value _ => onExpr target ∧ onExpr value
    | .cond branches _ => Stmt.EveryInBranches onExpr onStmt branches
    | .loop init condition step body _ =>
        init.Every onExpr onStmt ∧ onExpr condition ∧ step.Every onExpr onStmt ∧
          Stmt.EveryIn onExpr onStmt body
    | .ret value _ => ∀ expr ∈ value, onExpr expr
    | .call callee args _ => onExpr callee ∧ ∀ argument ∈ args, onExpr argument
    | .update target _ _ => onExpr target
    | .setIndex container position value _ _ =>
        onExpr container ∧ onExpr position ∧ onExpr value
    | _ => True

/-- All statements of a list and in them satisfy a condition, and so do all
their expressions. -/
def Stmt.EveryIn
    (onExpr : Expr -> Prop)
    (onStmt : Stmt -> Prop) : List Stmt -> Prop
  | [] => True
  | stmt :: rest => stmt.Every onExpr onStmt ∧ Stmt.EveryIn onExpr onStmt rest

/-- All statements in the arms of a chain of conditions satisfy a condition, and
so do all their expressions. -/
def Stmt.EveryInBranches
    (onExpr : Expr -> Prop)
    (onStmt : Stmt -> Prop) : List (Branch Stmt) -> Prop
  | [] => True
  | ⟨condition, body, _⟩ :: rest =>
      (∀ expr ∈ condition, onExpr expr) ∧ Stmt.EveryIn onExpr onStmt body ∧
        Stmt.EveryInBranches onExpr onStmt rest

end

/-! ## Parts of statements -/

mutual

/-- A statement and all statements inside it. -/
def Stmt.parts : Stmt -> List Stmt
  | .function header body => .function header body :: Stmt.partsOfBlock body
  | .cond branches span => .cond branches span :: Stmt.partsOfBranches branches
  | .loop init condition step body span =>
      .loop init condition step body span ::
        (init.parts ++ (step.parts ++ Stmt.partsOfBlock body))
  | stmt => [stmt]

/-- The statements of a list and all statements inside them. -/
def Stmt.partsOfBlock : List Stmt -> List Stmt
  | [] => []
  | stmt :: rest => stmt.parts ++ Stmt.partsOfBlock rest

/-- All statements inside the arms of a chain of conditions. -/
def Stmt.partsOfBranches : List (Branch Stmt) -> List Stmt
  | [] => []
  | ⟨_, body, _⟩ :: rest => Stmt.partsOfBlock body ++ Stmt.partsOfBranches rest

end

/-- The expressions of a statement, those of statements inside of it apart. -/
def Stmt.exprs : Stmt -> List Expr
  | .const decl => decl.init.toList
  | .var decl => decl.init.toList
  | .assign target _ value _ => [target, value]
  | .cond branches _ => branches.flatMap fun branch => branch.cond.toList
  | .loop _ condition _ _ _ => [condition]
  | .ret value _ => value.toList
  | .call callee args _ => callee :: args
  | .update target _ _ => [target]
  | .setIndex container position value _ _ => [container, position, value]
  | _ => []

section Every

variable {onExpr : Expr -> Prop} {onStmt : Stmt -> Prop}
mutual

/-- A condition on a statement is one on its parts and their expressions. -/
theorem Stmt.every_iff_parts (stmt : Stmt) :
    stmt.Every onExpr onStmt ↔
      ∀ part ∈ stmt.parts, onStmt part ∧ ∀ expr ∈ part.exprs, onExpr expr := by
  cases stmt with
  | function _ body =>
      simp [Stmt.Every, Stmt.parts, Stmt.exprs, Stmt.everyIn_iff_parts body]
  | cond branches _ =>
      rw [Stmt.Every, Stmt.parts, List.forall_mem_cons, Stmt.everyInBranches_iff_parts branches,
        Stmt.exprs, List.forall_mem_flatMap, and_assoc]
      simp only [Option.mem_toList, Option.mem_def]
  | loop init _ step body _ =>
      simp only [Stmt.Every, Stmt.parts, Stmt.exprs, init.every_iff_parts, step.every_iff_parts,
        Stmt.everyIn_iff_parts body, List.forall_mem_cons, List.forall_mem_append]
      grind
  | _ => simp [Stmt.Every, Stmt.parts, Stmt.exprs]

/-- A condition on a list of statements is one on its parts and their expressions. -/
theorem Stmt.everyIn_iff_parts (block : List Stmt) :
    Stmt.EveryIn onExpr onStmt block ↔
      ∀ part ∈ Stmt.partsOfBlock block, onStmt part ∧ ∀ expr ∈ part.exprs, onExpr expr := by
  match block with
  | [] => simp [Stmt.EveryIn, Stmt.partsOfBlock]
  | stmt :: rest =>
      rw [Stmt.EveryIn, Stmt.partsOfBlock, List.forall_mem_append, stmt.every_iff_parts,
        Stmt.everyIn_iff_parts rest]

theorem Stmt.everyInBranches_iff_parts (branches : List (Branch Stmt)) :
    Stmt.EveryInBranches onExpr onStmt branches ↔
      (∀ branch ∈ branches, ∀ expr ∈ branch.cond, onExpr expr) ∧
        ∀ part ∈ Stmt.partsOfBranches branches,
          onStmt part ∧ ∀ expr ∈ part.exprs, onExpr expr := by
  match branches with
  | [] => simp [Stmt.EveryInBranches, Stmt.partsOfBranches]
  | ⟨_, body, _⟩ :: rest =>
      rw [Stmt.EveryInBranches, Stmt.partsOfBranches, List.forall_mem_append, List.forall_mem_cons,
        Stmt.everyIn_iff_parts body, Stmt.everyInBranches_iff_parts rest]
      grind

end

theorem Stmt.EveryIn.mono
    {otherOnExpr : Expr -> Prop}
    {otherOnStmt : Stmt -> Prop}
    (weakerExpr : ∀ expr, onExpr expr -> otherOnExpr expr)
    (weakerStmt : ∀ stmt, onStmt stmt -> otherOnStmt stmt)
    {block : List Stmt}
    (satisfied : Stmt.EveryIn onExpr onStmt block) :
    Stmt.EveryIn otherOnExpr otherOnStmt block := by
  refine (Stmt.everyIn_iff_parts block).mpr fun part isPart => ?_
  obtain ⟨own, exprs⟩ := (Stmt.everyIn_iff_parts block).mp satisfied part isPart
  exact ⟨weakerStmt part own, fun expr isExpr => weakerExpr expr (exprs expr isExpr)⟩

end Every

/-! ## Declared names -/

/-- The identifiers that a statement declares, those in statements inside of it apart. -/
def Stmt.declares : Stmt -> List Ident
  | .interface decl => [decl.name]
  | .const decl => [decl.name]
  | .var decl => [decl.name]
  | .struct decl => [decl.name]
  | .function header _ => header.name :: header.params.map Param.name
  | _ => []

mutual

/-- The names of the variables that a statement and those in it declare.  An alias
of an import stands for a variable of another module and declares none. -/
def Stmt.declaredNames : Stmt -> List String
  | .importAll newName _ _ => [newName.name]
  | .interface decl => [decl.name.name]
  | .const decl => [decl.name.name]
  | .var decl => [decl.name.name]
  | .struct decl => [decl.name.name]
  | .function header body =>
      header.name.name :: (header.params.map (·.name.name) ++ Stmt.declaredNamesOfBlock body)
  | .cond branches _ => Stmt.declaredNamesOfBranches branches
  | .loop init _ step body _ =>
      init.declaredNames ++ (step.declaredNames ++ Stmt.declaredNamesOfBlock body)
  | _ => []

/-- The names of the variables that a list of statements declares. -/
def Stmt.declaredNamesOfBlock : List Stmt -> List String
  | [] => []
  | stmt :: rest => stmt.declaredNames ++ Stmt.declaredNamesOfBlock rest

/-- The names of the variables that the arms of a chain of conditions declare. -/
def Stmt.declaredNamesOfBranches : List (Branch Stmt) -> List String
  | [] => []
  | ⟨_, body, _⟩ :: rest => Stmt.declaredNamesOfBlock body ++ Stmt.declaredNamesOfBranches rest

end

/-! ## Exports -/

mutual

/-- Whether a statement or a statement in it exports a name. -/
def Stmt.exports : Stmt -> Bool
  | .exportName _ _ _ | .reexport _ _ _ _ => true
  | .const decl => decl.exported
  | .function _ body => Stmt.anyExports body
  | .cond branches _ => Stmt.anyArmExports branches
  | .loop init _ step body _ => init.exports || step.exports || Stmt.anyExports body
  | _ => false

/-- Whether a statement of a list or in it exports a name. -/
def Stmt.anyExports : List Stmt -> Bool
  | [] => false
  | stmt :: rest => stmt.exports || Stmt.anyExports rest

/-- Whether a statement in the arms of a chain of conditions exports a name. -/
def Stmt.anyArmExports : List (Branch Stmt) -> Bool
  | [] => false
  | ⟨_, body, _⟩ :: rest => Stmt.anyExports body || Stmt.anyArmExports rest

end

end ModularGlsl
