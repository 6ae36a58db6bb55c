import ModularGlsl.Proofs.AccessPaths

/-!
# What bound trees contain

Binding keeps the form of a tree: what stands in a bound expression is an expression that
was read and bound.  Therefore integers stay as they are, and what stands before a member
of a package is a path of names, since nothing else denotes a package.
-/

namespace ModularGlsl

/-- An expression that stands inside another one, or is it. -/
inductive Expr.Contains : Expr -> Expr -> Prop
  | self (expr : Expr) : Contains expr expr
  | object
      {object part : Expr}
      (inside : Contains object part)
      (key : String)
      (packageMember : Option VarId)
      (span : Span) :
      Contains (.member object key packageMember span) part
  | container
      {container part : Expr}
      (inside : Contains container part)
      (position : Expr)
      (span : Span) :
      Contains (.index container position span) part
  | position
      {position part : Expr}
      (inside : Contains position part)
      (container : Expr)
      (span : Span) :
      Contains (.index container position span) part
  | dynamicContainer
      {container part : Expr}
      (inside : Contains container part)
      (position : Expr)
      (accessor : Option VarId)
      (span : Span) :
      Contains (.getIndex container position accessor span) part
  | dynamicPosition
      {position part : Expr}
      (inside : Contains position part)
      (container : Expr)
      (accessor : Option VarId)
      (span : Span) :
      Contains (.getIndex container position accessor span) part
  | callee
      {callee part : Expr}
      (inside : Contains callee part)
      (args : List Expr)
      (span : Span) :
      Contains (.call callee args span) part
  | argument
      {argument part : Expr}
      {args : List Expr}
      (mem : argument ∈ args)
      (inside : Contains argument part)
      (callee : Expr)
      (span : Span) :
      Contains (.call callee args span) part
  | left
      {left part : Expr}
      (inside : Contains left part)
      (op : BinaryOp)
      (right : Expr)
      (span : Span) :
      Contains (.binary op left right span) part
  | right
      {right part : Expr}
      (inside : Contains right part)
      (op : BinaryOp)
      (left : Expr)
      (span : Span) :
      Contains (.binary op left right span) part
  | operand
      {operand part : Expr}
      (inside : Contains operand part)
      (op : UnaryOp)
      (span : Span) :
      Contains (.unary op operand span) part
  | inner
      {inner part : Expr}
      (inside : Contains inner part)
      (span : Span) :
      Contains (.paren inner span) part

variable {whole child part expr : Expr} {motive : Expr -> Prop}

namespace Expr

/-- The expressions that an expression is made of. -/
def children : Expr -> List Expr
  | .member object _ _ _ => [object]
  | .index container position _ | .getIndex container position _ _ => [container, position]
  | .call callee args _ => callee :: args
  | .binary _ left right _ => [left, right]
  | .unary _ operand _ | .paren operand _ => [operand]
  | .int _ _ | .float _ _ | .bool _ _ | .var _ => []

theorem Contains.of_child
    (isChild : child ∈ whole.children)
    (inside : child.Contains part) :
    whole.Contains part := by
  cases whole with
  | int | float | bool | var => cases isChild
  | member _ key packageMember span =>
      cases List.mem_singleton.mp isChild
      exact .object inside key packageMember span
  | index container position span =>
      rcases List.mem_pair.mp isChild with rfl | rfl
      · exact .container inside position span
      · exact .position inside container span
  | getIndex container position accessor span =>
      rcases List.mem_pair.mp isChild with rfl | rfl
      · exact .dynamicContainer inside position accessor span
      · exact .dynamicPosition inside container accessor span
  | call callee args span =>
      rcases List.mem_cons.mp isChild with rfl | mem
      · exact .callee inside args span
      · exact .argument mem inside callee span
  | binary op left right span =>
      rcases List.mem_pair.mp isChild with rfl | rfl
      · exact .left inside op right span
      · exact .right inside op left span
  | unary op _ span =>
      cases List.mem_singleton.mp isChild
      exact .operand inside op span
  | paren _ span =>
      cases List.mem_singleton.mp isChild
      exact .inner inside span

/-- What holds of a part and goes from children to the whole holds of what contains the
part. -/
theorem Contains.ascend
    (contains : whole.Contains part)
    (self : motive part)
    (step : ∀ whole child, child ∈ whole.children -> child.Contains part -> motive child ->
      motive whole) :
    motive whole := by
  induction contains with
  | self => exact self
  | argument mem inside _ _ ih =>
      exact step _ _ (List.mem_cons_of_mem _ mem) inside (ih self step)
  | object inside _ _ _ ih | container inside _ _ ih
  | position inside _ _ ih | dynamicContainer inside _ _ _ ih
  | dynamicPosition inside _ _ _ ih | callee inside _ _ ih
  | left inside _ _ _ ih | right inside _ _ _ ih
  | operand inside _ _ ih | inner inside _ ih =>
      exact step _ _ (by simp [children]) inside (ih self step)

theorem Contains.trans
    {outer middle inner : Expr}
    (early : outer.Contains middle)
    (late : middle.Contains inner) :
    outer.Contains inner :=
  early.ascend (motive := (·.Contains inner)) late fun _ _ isChild _ inside =>
    .of_child isChild inside

theorem unboundAll_eq_map (exprs : List Expr) :
    unboundAll exprs = exprs.map Expr.unbound := by
  induction exprs with
  | nil => rfl
  | cons expr rest ih => rw [unboundAll, ih, List.map_cons]

theorem pathsOfAll_eq_flatMap (exprs : List Expr) :
    pathsOfAll exprs = exprs.flatMap paths := by
  induction exprs with
  | nil => rfl
  | cons expr rest ih => rw [pathsOfAll, ih, List.flatMap_cons]

/-- Expressions without variables are made of such expressions. -/
theorem children_unbound (expr : Expr) :
    expr.unbound.children = expr.children.map Expr.unbound := by
  cases expr with
  | call callee args span => exact congrArg (_ :: ·) (unboundAll_eq_map args)
  | _ => rfl

/-- What stands in an expression without variables stands in the expression. -/
theorem exists_of_contains_unbound (contains : expr.unbound.Contains part) :
    ∃ source, expr.Contains source ∧ source.unbound = part := by
  refine contains.ascend (motive := fun whole => ∀ expr : Expr, expr.unbound = whole ->
    ∃ source, expr.Contains source ∧ source.unbound = part) ?_ ?_ expr rfl
  · exact fun expr same => ⟨expr, .self _, same⟩
  · rintro _ child isChild _ ih expr rfl
    rw [children_unbound] at isChild
    obtain ⟨original, isOriginal, same⟩ := List.mem_map.mp isChild
    obtain ⟨source, within, source_eq⟩ := ih original same
    exact ⟨source, .of_child isOriginal within, source_eq⟩

theorem Contains.unbound (contains : whole.Contains part) :
    whole.unbound.Contains part.unbound := by
  refine contains.ascend (motive := fun whole => whole.unbound.Contains part.unbound) (.self _)
    fun whole child isChild _ inside => .of_child ?_ inside
  rw [children_unbound]
  exact List.mem_map_of_mem isChild

/-- Variables have no part in the integers of an expression. -/
theorem contains_int_of_unbound
    (same : whole.unbound = expr.unbound)
    {value : Int}
    {span : Span}
    (contains : whole.Contains (.int value span)) :
    expr.Contains (.int value span) := by
  have inside := contains.unbound
  rw [same] at inside
  obtain ⟨source, within, source_eq⟩ := exists_of_contains_unbound inside
  cases source with
  | int =>
      cases source_eq
      exact within
  | _ => cases source_eq

/-- The names and members in a part stand in the whole. -/
theorem Contains.paths_subset (contains : whole.Contains part) :
    part.paths ⊆ whole.paths := by
  refine contains.ascend (motive := fun whole => part.paths ⊆ whole.paths) (List.Subset.refl _)
    fun whole child isChild _ inside => List.Subset.trans inside ?_
  cases whole with
  | int | float | bool | var => cases isChild
  | member => exact List.mem_singleton.mp isChild ▸ List.subset_cons_self _ _
  | unary | paren => exact List.mem_singleton.mp isChild ▸ List.Subset.refl _
  | index | getIndex | binary =>
      rcases List.mem_pair.mp isChild with rfl | rfl <;> simp [paths]
  | call callee args =>
      rw [paths, pathsOfAll_eq_flatMap]
      rcases List.mem_cons.mp isChild with rfl | mem
      · exact List.subset_append_left _ _
      · exact fun path isPath => List.mem_append_right _ (List.mem_flatMap.mpr ⟨_, mem, isPath⟩)

end Expr

/-! ## Modules -/

theorem Stmt.exprs_unbound (stmt : Stmt) :
    stmt.unbound.exprs = stmt.exprs.map Expr.unbound := by
  cases stmt with
  | cond branches _ =>
      rw [unbound, exprs, exprs]
      induction branches with
      | nil => rfl
      | cons branch rest ih =>
          rw [unboundBranches, List.flatMap_cons, List.flatMap_cons, ih, List.map_append,
            Option.toList_map]
  | const decl | var decl | ret value => exact Option.toList_map
  | call callee args => exact congrArg (_ :: ·) (Expr.unboundAll_eq_map args)
  | _ => rfl

theorem Module.exprs_unbound (module : Module) :
    module.unbound.exprs = module.exprs.map Expr.unbound := by
  rw [exprs, parts, unbound, Stmt.partsOfBlock_unbound, List.flatMap_map, exprs, List.map_flatMap]
  exact List.flatMap_congr fun part _ => part.exprs_unbound

mutual

/-- Parts of a statement stand where some names are in scope. -/
theorem Stmt.map_situated
    (names : Names)
    (stmt : Stmt) :
    (stmt.situated names).map Situated.stmt = stmt.parts := by
  cases stmt with
  | function header body => simp [Stmt.situated, Stmt.parts, Stmt.map_situatedBlock _ body]
  | cond branches _ => simp [Stmt.situated, Stmt.parts, Stmt.map_situatedBranches _ branches]
  | loop init _ step body _ =>
      simp [Stmt.situated, Stmt.parts, init.map_situated, step.map_situated,
        Stmt.map_situatedBlock _ body]
  | _ => rfl

theorem Stmt.map_situatedBlock
    (names : Names)
    (block : List Stmt) :
    (Stmt.situatedBlock names block).map Situated.stmt = Stmt.partsOfBlock block := by
  match block with
  | [] => rfl
  | stmt :: rest =>
      simp [Stmt.situatedBlock, Stmt.partsOfBlock, stmt.map_situated,
        Stmt.map_situatedBlock _ rest]

theorem Stmt.map_situatedBranches
    (names : Names)
    (branches : List (Branch Stmt)) :
    (Stmt.situatedBranches names branches).map Situated.stmt = Stmt.partsOfBranches branches := by
  match branches with
  | [] => rfl
  | ⟨_, body, _⟩ :: rest =>
      simp [Stmt.situatedBranches, Stmt.partsOfBranches, Stmt.map_situatedBlock _ body,
        Stmt.map_situatedBranches _ rest]

end

/-- The paths in the expressions of a statement are references. -/
theorem Situated.exists_mem_references
    {situated : Situated}
    (isExpr : expr ∈ situated.stmt.exprs)
    (isPath : part ∈ expr.paths) :
    ∃ names, ⟨names, part⟩ ∈ situated.references := by
  have inAny {value : Option Expr} (isValue : expr ∈ value.toList) : part ∈ Expr.pathsIfAny value := by
    rw [Option.mem_toList.mp isValue]
    exact isPath
  obtain ⟨names, stmt⟩ := situated
  cases stmt with
  | const decl | var decl => exact ⟨_, List.mem_map_of_mem (List.mem_cons_of_mem _ (inAny isExpr))⟩
  | ret value => exact ⟨_, List.mem_map_of_mem (inAny isExpr)⟩
  | cond branches =>
      obtain ⟨branch, mem, isCond⟩ := List.mem_flatMap.mp isExpr
      exact ⟨_, List.mem_map_of_mem (List.mem_flatMap.mpr ⟨branch, mem, inAny isCond⟩)⟩
  | loop | update =>
      rw [← List.mem_singleton.mp isExpr]
      exact ⟨_, List.mem_map_of_mem isPath⟩
  | assign | setIndex =>
      refine ⟨_, List.mem_map_of_mem ?_⟩
      simp [Stmt.exprs] at isExpr ⊢
      grind
  | call callee args =>
      refine ⟨_, List.mem_map_of_mem ?_⟩
      rw [Expr.pathsOfAll_eq_flatMap]
      rcases List.mem_cons.mp isExpr with rfl | mem
      · exact List.mem_append_left _ isPath
      · exact List.mem_append_right _ (List.mem_flatMap.mpr ⟨_, mem, isPath⟩)
  | _ => cases isExpr

/-- The expressions of a bundle. -/
def Bundle.exprs (bundle : Bundle) : List Expr :=
  bundle.modules.flatMap Module.exprs

/-! ## Paths -/

/-- A name, or a member of a path. -/
def Expr.IsPath : Expr -> Prop
  | .var _ => True
  | .member object _ _ _ => object.IsPath
  | _ => False

theorem Expr.IsPath.of_contains
    (isPath : expr.IsPath)
    (contains : expr.Contains part) :
    part.IsPath := by
  induction contains with
  | self => exact isPath
  | object _ _ _ _ ih => exact ih isPath
  | _ => cases isPath

/-- What reaches something is a path. -/
theorem Expr.Reaches.isPath
    {bundle : Bundle}
    {names : Names}
    {target : Target}
    (reaches : expr.Reaches bundle names target) :
    expr.IsPath := by
  induction reaches with
  | var => trivial
  | member _ _ ih => exact ih

/-- The expressions whose types the type of an expression is computed from. -/
def Expr.operands : Expr -> List Expr
  | .member _ _ (some _) _ => []
  | expr => expr.children

/-- A child that is no operand stands before a member of a package. -/
theorem Expr.mem_operands_or_path (isChild : child ∈ whole.children) :
    child ∈ whole.operands ∨ ∃ key id span, whole = .member child key (some id) span := by
  unfold operands
  split
  · cases List.mem_singleton.mp isChild
    exact .inr ⟨_, _, _, rfl⟩
  · exact .inl isChild

/-- What stands before the members of packages in an expression are paths. -/
def Expr.HasPaths (whole : Expr) : Prop :=
  ∀ object key id span, whole.Contains (.member object key (some id) span) -> object.IsPath

theorem Expr.HasPaths.of_contains
    (paths : whole.HasPaths)
    (contains : whole.Contains part) :
    part.HasPaths :=
  fun object key id span inside => paths object key id span (contains.trans inside)

/-- What holds of a part and goes from operands to the whole holds of what contains the part,
unless the part is a path. -/
theorem Expr.HasPaths.ascend
    (paths : whole.HasPaths)
    (contains : whole.Contains part)
    (isOther : ¬part.IsPath)
    (self : motive part)
    (step : ∀ whole operand, operand ∈ whole.operands -> motive operand -> motive whole) :
    motive whole := by
  revert paths
  refine contains.ascend (motive := fun whole => whole.HasPaths -> motive whole) (fun _ => self) ?_
  intro whole child isChild inside ih paths
  rcases mem_operands_or_path isChild with isOperand | ⟨key, id, span, rfl⟩
  · exact step _ _ isOperand (ih (paths.of_contains (.of_child isChild (.self _))))
  · exact absurd ((paths child key id span (.self _)).of_contains inside) isOther

namespace Bundle

variable {library : Library} {bundle placed named : Bundle}

/-- The expressions of a bound bundle stand in modules of its own or of the library, up to
variables. -/
theorem IsFresh.exists_of_mem_exprs
    (fresh : IsFresh library bundle)
    (build : Named library bundle placed named)
    (mem : expr ∈ named.exprs) :
    ∃ module, (module ∈ bundle.modules ∨ module ∈ library.modules) ∧
      ∃ source ∈ module.exprs, expr.unbound = source.unbound := by
  obtain ⟨unbound, _⟩ := fresh.areLinked build
  obtain ⟨modules, rfl, sources⟩ := resolveDependencies_eq_ok build.placing
  obtain ⟨module, isModule, isExpr⟩ := List.mem_flatMap.mp mem
  have isUnbound := List.mem_map_of_mem (f := Module.unbound) isModule
  rw [unbound] at isUnbound
  obtain ⟨source, isSource, same⟩ := List.mem_map.mp isUnbound
  have exprs_eq := congrArg Module.exprs same
  rw [Module.exprs_unbound, Module.exprs_unbound] at exprs_eq
  obtain ⟨original, isOriginal, original_eq⟩ :=
    List.mem_map.mp (exprs_eq ▸ List.mem_map_of_mem isExpr)
  exact ⟨source, sources source isSource, original, isOriginal, original_eq.symm⟩

/-- In a bound bundle, paths stand before the members of packages. -/
theorem IsFresh.hasPaths_of_mem_exprs
    (fresh : IsFresh library bundle)
    (build : Named library bundle placed named)
    (mem : expr ∈ named.exprs) :
    expr.HasPaths := by
  intro object key id span contains
  obtain ⟨module, isModule, isExpr⟩ := List.mem_flatMap.mp mem
  obtain ⟨part, isPart, isOwn⟩ := List.mem_flatMap.mp isExpr
  rw [Module.parts, ← Stmt.map_situatedBlock (.ofStage named.stage)] at isPart
  obtain ⟨situated, isSituated, rfl⟩ := List.mem_map.mp isPart
  obtain ⟨names, isReference⟩ :=
    situated.exists_mem_references isOwn (contains.paths_subset List.mem_cons_self)
  have linked := (fresh.areLinked build).2.2 _
    (List.mem_flatMap.mpr ⟨module, isModule, List.mem_flatMap.mpr ⟨_, isSituated, isReference⟩⟩)
  rcases linked with ⟨_, _, reaches, _⟩ | ⟨_, _, _, unbound, _⟩
  · cases reaches with
    | member package _ => exact package.isPath
  · cases unbound

end Bundle

end ModularGlsl
