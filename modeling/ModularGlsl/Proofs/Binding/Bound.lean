import ModularGlsl.Proofs.Binding.Failure
import ModularGlsl.Proofs.Binding.Place
import ModularGlsl.Proofs.Tree

/-!
# What binding achieves

A run of binding that ends without a failure yields a bound tree: it leads from
the place that its first state is at to the place that its last state is at.
The proof follows the steps of binding once; all later facts about bound trees
are read off the description by places.
-/

namespace ModularGlsl

/-! ## Open frames -/

variable {name : String} {span : Span} {var : VarId} {scope : Scope} {arena : Arena}

namespace Scope

/-- The variables that the open frames bind. -/
def vars (scope : Scope) : List VarId :=
  scope.frames.flatMap fun frame => frame.bindings.map Prod.snd

theorem mem_vars_of_get?
    {frame : Frame}
    (isOpen : frame ∈ scope.frames)
    (found : frame.get? name = some var) :
    var ∈ scope.vars := by
  have listed : (⟨frame.bindings⟩ : Table VarId).get? name = some var := found
  exact List.mem_flatMap.mpr
    ⟨frame, isOpen, List.mem_map.mpr ⟨_, Table.mem_of_get?_eq_some listed, rfl⟩⟩

theorem mem_vars_of_lookup (found : scope.lookup name = some var) :
    var ∈ scope.vars := by
  obtain ⟨frame, isOpen, bound⟩ := List.exists_of_findSome?_eq_some found
  exact mem_vars_of_get? isOpen bound

theorem innermost_mem_frames (scope : Scope) :
    scope.innermost ∈ scope.frames := by
  obtain ⟨inner, base, globals⟩ := scope
  cases inner <;> simp [innermost, frames]

theorem mem_vars_of_lookupInnermost (found : scope.lookupInnermost name = some var) :
    var ∈ scope.vars :=
  mem_vars_of_get? scope.innermost_mem_frames found

theorem mem_vars_bind
    {var other : VarId}
    (bound : other ∈ (scope.bind name var).vars) :
    other = var ∨ other ∈ scope.vars := by
  obtain ⟨inner, base, globals⟩ := scope
  cases inner with
  | nil | cons => simpa [vars, bind, Frame.bind, frames, or_assoc] using bound

@[simp] theorem vars_pushBlock (scope : Scope) :
    scope.pushBlock.vars = scope.vars := by
  simp [vars, pushBlock, frames]

/-- A new function body binds nothing. -/
@[simp] theorem vars_pushFunction
    (scope : Scope)
    (function : VarId) :
    (scope.pushFunction function).vars = scope.vars := by
  simp [vars, pushFunction, frames]

theorem pop_bind
    (name : String)
    (var : VarId)
    (nested : scope.depth ≠ 0) :
    (scope.bind name var).pop = scope.pop := by
  obtain ⟨inner, base, globals⟩ := scope
  cases inner with
  | nil => simp [depth] at nested
  | cons frame rest => rfl

theorem mem_vars_ofGlobals
    {globals : List (String × VarId)}
    {var : VarId} :
    var ∈ (ofGlobals globals).vars ↔ var ∈ globals.map Prod.snd := by
  simp [vars, ofGlobals, frames]

end Scope

variable {α : Type}

theorem Table.mem_insert
    {table : Table α}
    {value : α}
    {entry : String × α}
    (listed : entry ∈ (table.insert name value).entries) :
    entry = (name, value) ∨ entry ∈ table.entries := by
  obtain ⟨entries⟩ := table
  simp only [insert] at listed ⊢
  induction entries with
  | nil => simpa [insertEntry] using listed
  | cons first rest ih =>
      unfold insertEntry at listed
      split at listed
      · simpa using listed
      · split at listed
        · rcases List.mem_cons.mp listed with same | later
          · exact .inl same
          · exact .inr (List.mem_cons_of_mem _ later)
        · rcases List.mem_cons.mp listed with same | later
          · exact .inr (same ▸ List.mem_cons_self)
          · rcases ih later with same | earlier
            · exact .inl same
            · exact .inr (List.mem_cons_of_mem _ earlier)

namespace Binding

/-! ## Runs of single steps -/

variable {ident bound : Ident} {record : Variable} {after before outer inner : State}
variable {context : Context} {path key : String}

variable {decl : DeclKind} {constant : Bool} {object : Expr}

section Runs

/-- A step that records a failure does not run. -/
theorem not_runs_fail
    {diagnostic : Diagnostic}
    {done : Unit} :
    ¬Runs (fail diagnostic) before done after := by
  rintro ⟨run, clear⟩
  have failed := failure_fail_ne_none diagnostic before
  rw [run] at failed
  exact failed clear

/-- A step that is taken only without a failure runs as it would alone. -/
theorem runs_of_unlessFailed
    {result value : α}
    {step : Bind α}
    (run : Runs (unlessFailed result step) before value after) :
    before.failure = none ∧ Runs step before value after := by
  obtain ⟨run, clear⟩ := run
  unfold unlessFailed at run
  split at run
  · next earlier recorded =>
      cases run
      rw [failure_binding, recorded] at clear
      cases clear
  · next recorded => exact ⟨recorded, run, clear⟩

/-- An identifier is bound to what its name denotes. -/
theorem runs_bindIdent (run : Runs (bindIdent ident) before bound after) :
    ∃ var, before.scope.lookup ident.name = some var ∧
      bound = { ident with var := some var } ∧ before = after := by
  obtain ⟨_, run, clear⟩ := runs_of_unlessFailed run
  simp only [bind, StateT.bind, get, getThe, MonadStateOf.get, StateT.get, pure] at run
  cases found : before.scope.lookup ident.name with
  | some var =>
      rw [found] at run
      cases run
      exact ⟨var, rfl, rfl, rfl⟩
  | none =>
      rw [found] at run
      cases run
      exact absurd clear (failure_fail_ne_none _ _)

/-- A name is bound over an earlier binding. -/
theorem runs_introduce (run : Runs (introduce ident var) before bound after) :
    bound = { ident with var := some var } ∧
      after = { before with scope := before.scope.bind ident.name var } := by
  obtain ⟨run, clear⟩ := run
  rw [introduce_apply] at run
  split at run
  · next accepted =>
      cases run
      exact ⟨rfl, by rw [Scope.eq_bind_of_declare accepted]⟩
  · cases run
    exact absurd clear (failure_fail_ne_none _ _)

/-- A declaration takes the next number. -/
theorem runs_declareIdent (run : Runs (declareIdent ident decl constant) before bound after) :
    bound = { ident with var := some before.arena.size } ∧
      after = { before with
        arena := before.arena.alloc
          { name := ident.name, constant := constant, decl := decl, span := ident.span }
        scope := before.scope.bind ident.name before.arena.size } := by
  obtain ⟨_, run⟩ := runs_of_unlessFailed run
  exact runs_introduce run

variable {done : Unit}

/-- An exported name is new, and stands for its variable. -/
theorem runs_addExport (run : Runs (addExport name var span) before done after) :
    before.exports.get? name = none ∧
      after = { before with exports := before.exports.insert name ⟨var, span⟩ } := by
  obtain ⟨run, clear⟩ := run
  rw [addExport_apply] at run
  split at run
  · next recorded =>
      cases run
      rw [failure_binding, recorded] at clear
      cases clear
  · exact absurd ⟨run, clear⟩ not_runs_fail
  · next isNew =>
      cases run
      exact ⟨isNew, rfl⟩

theorem runs_exportIdent
    (bound : ident.var = some var)
    (run : Runs (exportIdent ident name span) before done after) :
    before.exports.get? name = none ∧
      after = { before with exports := before.exports.insert name ⟨var, span⟩ } := by
  unfold exportIdent at run
  simp only [Ident.bound, bound] at run
  exact runs_addExport run

theorem Context.exported_eq_ok (found : context.exported path name span = .ok var) :
    ∃ exports, context.registry.lookup path = some exports ∧
      ∃ entry, exports.get? name = some entry ∧ entry.var = var := by
  obtain ⟨exports, mem, found⟩ := except_bind_eq_ok.mp found
  unfold Context.exportsOf at mem
  split at mem
  · next listed =>
      cases mem
      refine ⟨exports, listed, ?_⟩
      split at found
      · next entry held =>
          cases found
          exact ⟨entry, held, rfl⟩
      · cases found
  · cases mem

variable {newName : Ident}

/-- The alias of an import denotes the imported variable. -/
theorem runs_importName
    (run : Runs (importName context name newName path span) before bound after) :
    ∃ var, context.exported path name span = .ok var ∧
      bound = { newName with var := some var } ∧
        after = { before with scope := before.scope.bind newName.name var } := by
  obtain ⟨_, run⟩ := runs_of_unlessFailed run
  split at run
  · next var found => exact ⟨var, found, runs_introduce run⟩
  · obtain ⟨run, clear⟩ := run
    cases run
    exact absurd clear (failure_fail_ne_none _ _)

/-- The alias of an import of everything denotes a new package. -/
theorem runs_importAll (run : Runs (importAll context newName path span) before bound after) :
    ∃ exports, context.registry.lookup path = some exports ∧
      bound = { newName with var := some before.arena.size } ∧
        after = { before with
          arena := before.arena.alloc
            { name := newName.name
              constant := true
              decl := .package
              members := some (exports.map (·.var))
              span := span }
          scope := before.scope.bind newName.name before.arena.size } := by
  obtain ⟨_, run⟩ := runs_of_unlessFailed run
  split at run
  · next exports found =>
      refine ⟨exports, ?_, runs_introduce run⟩
      unfold Context.exportsOf at found
      split at found <;> cases found
      assumption
  · obtain ⟨run, clear⟩ := run
    cases run
    exact absurd clear (failure_fail_ne_none _ _)

/-- A name of another module is exported again. -/
theorem runs_reexport
    {newName : String}
    (run : Runs (reexport context name newName path span) before done after) :
    ∃ var, context.exported path name span = .ok var ∧
      before.exports.get? newName = none ∧
        after = { before with exports := before.exports.insert newName ⟨var, span⟩ } := by
  obtain ⟨_, run⟩ := runs_of_unlessFailed run
  split at run
  · next var found => exact ⟨var, found, runs_addExport run⟩
  · exact absurd run not_runs_fail

/-- A member of a package is one of its variables; any other member keeps what
it is bound to. -/
theorem runs_bindMember
    {packageMember bound : Option VarId}
    (run : Runs (bindMember object key packageMember span) before bound after) :
    before = after ∧
      (packageOf? before.arena object = none ∧ bound = packageMember ∨
        ∃ package members var, packageOf? before.arena object = some package ∧
          (before.arena.get package).members = some members ∧ members.get? key = some var ∧
            bound = some var) := by
  obtain ⟨_, run, clear⟩ := runs_of_unlessFailed run
  simp only [bind, StateT.bind, get, getThe, MonadStateOf.get, StateT.get, pure] at run
  cases denoted : packageOf? before.arena object with
  | none =>
      rw [denoted] at run
      cases run
      exact ⟨rfl, .inl ⟨rfl, rfl⟩⟩
  | some package =>
      rw [denoted] at run
      dsimp only at run
      cases found : (before.arena.get package).members.bind fun members => members.get? key with
      | some var =>
          rw [found] at run
          cases run
          obtain ⟨members, held, listed⟩ := Option.bind_eq_some_iff.mp found
          exact ⟨rfl, .inr ⟨package, members, var, rfl, held, listed, rfl⟩⟩
      | none =>
          rw [found] at run
          cases run
          exact absurd clear (failure_fail_ne_none _ _)

/-- A demand on the target of an assignment changes nothing. -/
theorem runs_checkTarget
    {target : Expr}
    (run : Runs (checkTarget target span) before done after) :
    before = after := by
  unfold checkTarget at run
  split at run
  · exact absurd run not_runs_fail
  · obtain ⟨_, same, _⟩ := runs_pure.mp run
    exact same

/-- A demand on the name of a function changes nothing. -/
theorem runs_checkUndefined (run : Runs (checkUndefined ident) before done after) :
    before = after := by
  obtain ⟨_, run, clear⟩ := runs_of_unlessFailed run
  simp only [bind, StateT.bind, get, getThe, MonadStateOf.get, StateT.get, pure] at run
  cases found : before.scope.lookup ident.name with
  | some existing =>
      rw [found] at run
      exact absurd ⟨run, clear⟩ not_runs_fail
  | none =>
      rw [found] at run
      cases run
      rfl

/-- A demand on the place of a return statement changes nothing. -/
theorem runs_checkInFunction (run : Runs (checkInFunction span) before done after) :
    before = after := by
  obtain ⟨_, run, clear⟩ := runs_of_unlessFailed run
  simp only [bind, StateT.bind, get, getThe, MonadStateOf.get, StateT.get, pure] at run
  cases found : before.scope.enclosingFunction with
  | some function =>
      rw [found] at run
      cases run
      rfl
  | none =>
      rw [found] at run
      exact absurd ⟨run, clear⟩ not_runs_fail

/-- A change of the open frames is made. -/
theorem runs_changeScope
    {change : Scope -> Scope}
    (run : Runs (changeScope change) before done after) :
    after = { before with scope := change before.scope } := by
  obtain ⟨run, _⟩ := run
  cases run
  rfl

end Runs

/-! ## States at a place -/

/-- All exports of the modules bound before are known. -/
def Context.Knows
    (context : Context)
    (known : VarId -> Prop) : Prop :=
  ∀ registered ∈ context.registry, ∀ entry ∈ registered.2.entries, known entry.2.var

/-- What a state of binding has to do with a place: the next variable takes the
number of the place, and all that can be named is visible there. -/
structure State.At
    (known : VarId -> Prop)
    (place : Place)
    (state : State) : Prop where
  /-- The next variable takes the next number. -/
  size_eq : state.arena.size = place.next
  /-- As many functions and blocks are open. -/
  depth_eq : state.scope.depth = place.depth
  /-- What the open frames bind is visible. -/
  visible : ∀ var ∈ state.scope.vars, var ∈ place.visible
  /-- What other modules export is visible. -/
  known_visible : ∀ var, known var -> var ∈ place.visible
  /-- What the module exports is listed. -/
  exported : ∀ entry ∈ state.exports.entries, entry.2.var ∈ place.exported
  /-- Packages hold what other modules export. -/
  packages : ∀ id members, (state.arena.get id).members = some members ->
    ∀ entry ∈ members.entries, known entry.2

variable {known : VarId -> Prop} {place : Place}

section At

theorem Context.Knows.exported
    (knows : context.Knows known)
    (found : context.exported path name span = .ok var) :
    known var := by
  obtain ⟨exports, registered, entry, held, rfl⟩ := Context.exported_eq_ok found
  have listed : (⟨context.registry⟩ : Table (Table Export)).get? path = some exports := registered
  exact knows _ (Table.mem_of_get?_eq_some listed) _ (Table.mem_of_get?_eq_some held)

/-- The members of a package of a module are known. -/
theorem Context.Knows.members
    (knows : context.Knows known)
    {exports : Table Export}
    (registered : context.registry.lookup path = some exports) :
    ∀ entry ∈ (exports.map (·.var)).entries, known entry.2 := by
  have listed : (⟨context.registry⟩ : Table (Table Export)).get? path = some exports := registered
  intro entry mem
  obtain ⟨held, member, rfl⟩ := List.mem_map.mp mem
  exact knows _ (Table.mem_of_get?_eq_some listed) held member

variable {state : State}

section

variable (isAt : state.At known place)
include isAt

/-- The place after a new variable that is bound. -/
theorem State.At.declare
    (name : String)
    (members : ∀ table ∈ record.members, ∀ entry ∈ table.entries, known entry.2) :
    State.At known place.declare
      { state with
        arena := state.arena.alloc record
        scope := state.scope.bind name state.arena.size } where
  size_eq := by
    rw [Arena.size_alloc, isAt.size_eq]
    rfl
  depth_eq := by
    rw [Scope.depth_bind, isAt.depth_eq]
    rfl
  visible var bound := by
    rcases Scope.mem_vars_bind bound with same | earlier
    · rw [same, isAt.size_eq]
      exact List.mem_cons_self
    · exact List.mem_cons_of_mem _ (isAt.visible var earlier)
  known_visible var isKnown := List.mem_cons_of_mem _ (isAt.known_visible var isKnown)
  exported := isAt.exported
  packages id table held := by
    rcases Nat.lt_trichotomy id state.arena.size with below | same | above
    · rw [Arena.get_alloc_of_lt record below] at held
      exact isAt.packages id table held
    · rw [same, Arena.get_alloc_size] at held
      exact members table held
    · rw [Arena.get_of_size_le (by rw [Arena.size_alloc]; exact above)] at held
      cases held

theorem State.At.bind
    (name : String)
    (isVisible : var ∈ place.visible) :
    State.At known place { state with scope := state.scope.bind name var } :=
  { isAt with
    depth_eq := by rw [Scope.depth_bind, isAt.depth_eq]
    visible := fun other bound => by
      rcases Scope.mem_vars_bind bound with same | earlier
      · rw [same]
        exact isVisible
      · exact isAt.visible other earlier }

theorem State.At.publish
    (name : String)
    (var : VarId)
    (span : Span) :
    State.At known (place.publish var)
      { state with exports := state.exports.insert name ⟨var, span⟩ } :=
  { isAt with
    exported := fun entry listed => by
      rcases Table.mem_insert listed with same | earlier
      · rw [same]
        exact List.mem_cons_self
      · exact List.mem_cons_of_mem _ (isAt.exported entry earlier) }

theorem State.At.pushBlock :
    State.At known place.enter { state with scope := state.scope.pushBlock } :=
  { isAt with
    depth_eq := congrArg (· + 1) isAt.depth_eq
    visible := fun var bound => isAt.visible var (by simpa using bound) }

/-- The place at the start of the body of a function. -/
theorem State.At.pushFunction (function : VarId) :
    State.At known place.enter { state with scope := state.scope.pushFunction function } :=
  { isAt with
    depth_eq := congrArg (· + 1) isAt.depth_eq
    visible := fun var bound => isAt.visible var (by simpa using bound) }

end

/-- The place after a block or a function, whose frame is closed. -/
theorem State.At.leave
    {inner : Place}
    (outerAt : outer.At known place)
    (innerAt : state.At known inner)
    (closed : state.scope.pop = outer.scope) :
    State.At known (place.leave inner) { state with scope := state.scope.pop } :=
  { innerAt with
    depth_eq := by rw [closed]; exact outerAt.depth_eq
    visible := by rw [closed]; exact outerAt.visible
    known_visible := outerAt.known_visible }

end At

/-! ## Steps that are taken only without a failure -/

section Sticky

variable (context : Context)

instance (change : Scope -> Scope) : Sticky (changeScope change) :=
  ⟨fun _ clear => clear⟩

instance (ident : Ident) (decl : DeclKind) (constant : Bool) :
    Sticky (declareIdent ident decl constant) := by
  have (record : Variable) : Follows (Records ⟨.vertex, [], ""⟩) (alloc record) :=
    ⟨fun _ => .inl rfl⟩
  unfold declareIdent
  infer_instance

instance (ident : Ident) (name : String) (span : Span) : Sticky (exportIdent ident name span) := by
  unfold exportIdent
  split
  · infer_instance
  · exact ⟨fun state clear => absurd clear (failure_fail_ne_none _ state)⟩

instance (params : List Param) : Sticky (bindParams params) :=
  (follows_bindParams (admits_records ⟨.vertex, [], ""⟩) fun _ _ => trivial).sticky

instance (stmt : Stmt) : Sticky (bindStmt context stmt) :=
  (follows_bindStmt (admits_records context) stmt fun _ _ => trivial).sticky

instance (block : List Stmt) : Sticky (bindBlock context block) :=
  (follows_bindBlock (admits_records context) block fun _ _ => trivial).sticky

instance (branches : List (Branch Stmt)) : Sticky (bindBranches context branches) :=
  (follows_bindBranches (admits_records context) branches fun _ _ => trivial).sticky

end Sticky

/-! ## Expressions -/

/-- A bound identifier denotes a visible variable. -/
theorem isBound_of_bindIdent
    (isAt : before.At known place)
    (run : Runs (bindIdent ident) before bound after) :
    before = after ∧ bound.IsBound place := by
  obtain ⟨var, found, rfl, same⟩ := runs_bindIdent run
  exact ⟨same, var, isAt.visible var (Scope.mem_vars_of_lookup found), rfl⟩

/-- A bound member of a package is visible. -/
theorem visible_of_bindMember
    (isAt : before.At known place)
    {packageMember bound : Option VarId}
    (fresh : ∀ var ∈ packageMember, known var)
    (run : Runs (bindMember object key packageMember span) before bound after) :
    before = after ∧ ∀ var ∈ bound, var ∈ place.visible := by
  obtain ⟨same, ⟨_, rfl⟩ | ⟨package, members, var, _, held, listed, rfl⟩⟩ := runs_bindMember run
  · exact ⟨same, fun var mem => isAt.known_visible var (fresh var mem)⟩
  · refine ⟨same, ?_⟩
    rintro _ ⟨⟩
    exact isAt.known_visible _ (isAt.packages package members held _
      (Table.mem_of_get?_eq_some listed))

mutual

/-- A bound expression names visible variables. -/
theorem isBound_of_bindExpr
    (isAt : before.At known place)
    (expr : Expr)
    (fresh : expr.MembersSatisfy known)
    {bound : Expr}
    {after : State}
    (run : Runs (bindExpr expr) before bound after) :
    before = after ∧ bound.IsBound place := by
  match expr with
  | .int _ _ | .float _ _ | .bool _ _ =>
      obtain ⟨rfl, same, _⟩ := runs_pure.mp run
      exact ⟨same, trivial⟩
  | .var ident =>
      obtain ⟨name, ⟨rfl, isBound⟩, rfl⟩ := run.last (isBound_of_bindIdent isAt)
      exact ⟨rfl, isBound⟩
  | .member object key packageMember span =>
      obtain ⟨_, _, ⟨rfl, objectBound⟩, late⟩ := run.step (isBound_of_bindExpr isAt object fresh.1)
      obtain ⟨_, ⟨rfl, memberVisible⟩, rfl⟩ := late.last (visible_of_bindMember isAt fresh.2)
      exact ⟨rfl, objectBound, memberVisible⟩
  | .index left right _ | .getIndex left right _ _ | .binary _ left right _ =>
      obtain ⟨_, _, ⟨rfl, leftBound⟩, late⟩ := run.step (isBound_of_bindExpr isAt left fresh.1)
      obtain ⟨_, ⟨rfl, rightBound⟩, rfl⟩ := late.last (isBound_of_bindExpr isAt right fresh.2)
      exact ⟨rfl, leftBound, rightBound⟩
  | .call callee args _ =>
      obtain ⟨_, _, ⟨rfl, calleeBound⟩, late⟩ := run.step (isBound_of_bindExpr isAt callee fresh.1)
      obtain ⟨_, ⟨rfl, argumentsBound⟩, rfl⟩ :=
        late.last (areBound_of_bindExprs isAt args fresh.2)
      exact ⟨rfl, calleeBound, argumentsBound⟩
  | .unary _ operand _ | .paren operand _ =>
      obtain ⟨_, ⟨rfl, operandBound⟩, rfl⟩ := run.last (isBound_of_bindExpr isAt operand fresh)
      exact ⟨rfl, operandBound⟩

theorem areBound_of_bindExprs
    (isAt : before.At known place)
    (exprs : List Expr)
    (fresh : Expr.AllMembersSatisfy known exprs)
    {bound : List Expr}
    {after : State}
    (run : Runs (bindExprs exprs) before bound after) :
    before = after ∧ Expr.AreBound place bound := by
  match exprs with
  | [] =>
      obtain ⟨rfl, same, _⟩ := runs_pure.mp run
      exact ⟨same, trivial⟩
  | expr :: rest =>
      obtain ⟨_, _, ⟨rfl, exprBound⟩, late⟩ := run.step (isBound_of_bindExpr isAt expr fresh.1)
      obtain ⟨_, ⟨rfl, restBound⟩, rfl⟩ := late.last (areBound_of_bindExprs isAt rest fresh.2)
      exact ⟨rfl, exprBound, restBound⟩

end

/-- A bound expression names visible variables, if there is one. -/
theorem isBound_of_bindOptionalExpr
    (isAt : before.At known place)
    {expr bound : Option Expr}
    (fresh : ∀ value ∈ expr, value.MembersSatisfy known)
    (run : Runs (bindOptionalExpr expr) before bound after) :
    before = after ∧ Expr.IsBoundIfAny place bound := by
  cases expr with
  | none =>
      obtain ⟨rfl, same, _⟩ := runs_pure.mp run
      exact ⟨same, by rintro _ ⟨⟩⟩
  | some expr =>
      obtain ⟨_, ⟨rfl, exprBound⟩, rfl⟩ := run.last (isBound_of_bindExpr isAt expr (fresh expr rfl))
      refine ⟨rfl, ?_⟩
      rintro _ ⟨⟩
      exact exprBound

/-! ## Declarations -/

/-- What a step of binding leaves as it was: all variables, and all frames but
the innermost one. -/
structure State.Extends (before after : State) : Prop where
  /-- Variables are only added. -/
  grows : before.arena.Grows after.arena
  /-- As many frames are open. -/
  depth_eq : after.scope.depth = before.scope.depth
  /-- Outer frames are as they were. -/
  pop_eq : before.scope.depth ≠ 0 -> after.scope.pop = before.scope.pop

theorem State.Extends.keeps (extended : before.Extends after) :
    before.arena.Keeps after.arena :=
  extended.grows.keeps

theorem State.Extends.refl (state : State) : state.Extends state :=
  ⟨.refl _, rfl, fun _ => rfl⟩

theorem State.Extends.trans
    {middle : State}
    (early : before.Extends middle)
    (late : middle.Extends after) :
    before.Extends after where
  grows := early.grows.trans late.grows
  depth_eq := late.depth_eq.trans early.depth_eq
  pop_eq nested := by
    have still : middle.scope.depth ≠ 0 := by
      rw [early.depth_eq]
      exact nested
    rw [late.pop_eq still, early.pop_eq nested]

theorem State.extends_exports
    (state : State)
    (exports : Table Export) :
    state.Extends { state with exports := exports } :=
  ⟨.refl _, rfl, fun _ => rfl⟩

theorem State.extends_bind
    (state : State)
    (name : String)
    (var : VarId) :
    state.Extends { state with scope := state.scope.bind name var } :=
  ⟨.refl _, Scope.depth_bind _ _ _, Scope.pop_bind name var⟩

/-- A new variable that is bound extends a state. -/
theorem State.extends_declare
    (state : State)
    (untyped : record.ty = none)
    (name : String) :
    state.Extends
      { state with
        arena := state.arena.alloc record
        scope := state.scope.bind name state.arena.size } :=
  ⟨state.arena.grows_alloc untyped, Scope.depth_bind _ _ _, Scope.pop_bind _ _⟩

section

variable (extended : State.Extends { outer with scope := scope } inner)
variable (opened : scope.pop = outer.scope) (nested : scope.depth ≠ 0)
include extended opened nested

/-- The frame of a function or block that ends is the only one that is lost. -/
theorem State.Extends.pop_eq_outer :
    inner.scope.pop = outer.scope :=
  (extended.pop_eq nested).trans opened

/-- A function or block that ends leaves the frames around it. -/
theorem State.Extends.leave :
    outer.Extends { inner with scope := inner.scope.pop } where
  grows := extended.grows
  depth_eq := congrArg Scope.depth (extended.pop_eq_outer opened nested)
  pop_eq _ := congrArg Scope.pop (extended.pop_eq_outer opened nested)

end

/-- A step leads from the place of its first state to that of its last one.  What it binds is
described by these places in every later arena. -/
def Arrives
    {α : Type}
    (known : VarId -> Prop)
    (isBound : Arena -> α -> Place -> Place -> Prop)
    (step : StateM State α) : Prop :=
  ∀ {place before bound after}, State.At known place before -> Runs step before bound after ->
    ∃ next, after.At known next ∧ before.Extends after ∧
      ∀ final, after.arena.Keeps final -> isBound final bound place next

variable {accessors : Accessor -> Prop}

theorem declares_alloc
    (plain : record.members = none)
    (storable : record.constant = false -> record.decl.IsStorable)
    (var_eq : ident.var = some arena.size)
    (name_eq : record.name = ident.name) :
    ident.Declares (arena.alloc record) arena.size record.decl := by
  have record_eq := arena.get_alloc_size record
  refine ⟨var_eq, by simp, ?_, ?_, ?_, ?_⟩
  · rw [record_eq, name_eq]
  · rw [record_eq]
  · rw [record_eq, plain]
  · rw [record_eq]
    exact storable

theorem declaresPackage_alloc
    (size_eq : arena.size = place.next)
    (decl_eq : record.decl = .package)
    (members_ne : record.members ≠ none)
    (constant_eq : record.constant = true)
    (var_eq : ident.var = some arena.size) :
    ident.DeclaresPackage (arena.alloc record) place := by
  have record_eq := arena.get_alloc_size record
  rw [size_eq] at var_eq record_eq
  refine ⟨var_eq, by simp [size_eq], ?_, ?_, ?_⟩
  · rw [record_eq, decl_eq]
  · rw [record_eq]
    exact members_ne
  · rw [record_eq, constant_eq]

/-- A declaration takes the next number. -/
theorem declares_of_declareIdent
    (isAt : before.At known place)
    (storable : constant = false -> decl.IsStorable)
    (run : Runs (declareIdent ident decl constant) before bound after) :
    after.At known place.declare ∧ before.Extends after ∧
      ∀ final, after.arena.Keeps final -> bound.Declares final place.next decl := by
  obtain ⟨rfl, rfl⟩ := runs_declareIdent run
  refine ⟨isAt.declare _ (by rintro _ ⟨⟩), before.extends_declare rfl _, fun final keeps => ?_⟩
  rw [← isAt.size_eq]
  exact (declares_alloc rfl storable rfl rfl).keeps keeps

/-- A variable of the interface that is no varying is never stored to. -/
theorem isStorable_declKind
    {stage : Stage}
    {kind : InterfaceKind}
    (written : isReadOnly stage kind = false) :
    (declKind kind).IsStorable := by
  cases kind with
  | varying => trivial
  | vertexAttribute => cases written
  | uniform => cases written

theorem arrives_bindInterface (decl : InterfaceDecl) :
    Arrives known (fun final bound => Stmt.IsBound final accessors (.interface bound))
      (bindInterface context decl) := by
  intro place before _ _ isAt run
  obtain ⟨_, _, ⟨rfl, tyBound⟩, late⟩ := run.step (isBound_of_bindIdent isAt)
  obtain ⟨_, ⟨nextAt, extended, declares⟩, rfl⟩ :=
    late.last (declares_of_declareIdent isAt isStorable_declKind)
  exact ⟨_, nextAt, extended, fun final keeps => ⟨tyBound, declares final keeps, rfl⟩⟩

theorem arrives_bindConst
    {decl : ConstDecl}
    (fresh : ∀ init ∈ decl.init, init.MembersSatisfy known) :
    Arrives known (fun final bound => Stmt.IsBound final accessors (.const bound))
      (bindConst decl) := by
  intro place before _ _ isAt run
  obtain ⟨_, _, ⟨rfl, tyBound⟩, late⟩ := run.step (isBound_of_bindIdent isAt)
  obtain ⟨_, _, ⟨rfl, initBound⟩, late⟩ := late.step (isBound_of_bindOptionalExpr isAt fresh)
  obtain ⟨name, _, ⟨nextAt, extended, declares⟩, late⟩ :=
    late.step (declares_of_declareIdent isAt (by simp))
  cases exported : decl.exported with
  | false =>
      rw [exported, if_neg (by simp)] at late
      obtain ⟨rfl, rfl, _⟩ := runs_pure.mp late
      refine ⟨_, nextAt, extended, fun final keeps => ⟨tyBound, initBound, ?_, ?_⟩⟩
      · exact exported ▸ declares final keeps
      · rfl
  | true =>
      rw [exported, if_pos rfl] at late
      obtain ⟨_, ⟨_, published⟩, rfl⟩ := late.last (runs_exportIdent (declares _ (.refl _)).var_eq)
      subst published
      refine ⟨_, nextAt.publish _ _ _, extended.trans (State.extends_exports _ _),
        fun final keeps => ⟨tyBound, initBound, ?_, ?_⟩⟩
      · exact exported ▸ declares final keeps
      · rfl

theorem arrives_bindVar
    {decl : VarDecl}
    (fresh : ∀ init ∈ decl.init, init.MembersSatisfy known) :
    Arrives known (fun final bound => Stmt.IsBound final accessors (.var bound))
      (bindVar decl) := by
  intro place before _ _ isAt run
  obtain ⟨_, _, ⟨rfl, tyBound⟩, late⟩ := run.step (isBound_of_bindIdent isAt)
  obtain ⟨_, _, ⟨rfl, initBound⟩, late⟩ := late.step (isBound_of_bindOptionalExpr isAt fresh)
  obtain ⟨_, _, ⟨⟨⟩, _⟩, late⟩ := runs_bind.mp late
  obtain ⟨_, early, rfl⟩ := runs_map.mp late
  have storable : false = false -> (DeclKind.ofDepth before.scope.depth).IsStorable := by
    intro _
    unfold DeclKind.ofDepth
    split <;> trivial
  obtain ⟨nextAt, extended, declares⟩ := declares_of_declareIdent isAt storable early
  rw [isAt.depth_eq] at declares
  exact ⟨_, nextAt, extended, fun final keeps => ⟨tyBound, initBound, declares final keeps, rfl⟩⟩

theorem isBound_of_bindMembers
    (isAt : before.At known place)
    {members bound : List StructMember}
    (run : Runs (bindMembers members) before bound after) :
    before = after ∧ ∀ member ∈ bound, member.ty.IsBound place := by
  induction members generalizing bound after with
  | nil =>
      obtain ⟨rfl, same, _⟩ := runs_pure.mp run
      exact ⟨same, by simp⟩
  | cons member rest ih =>
      obtain ⟨_, _, ⟨rfl, tyBound⟩, late⟩ := run.step (isBound_of_bindIdent isAt)
      obtain ⟨_, ⟨rfl, restBound⟩, rfl⟩ := late.last ih
      exact ⟨rfl, List.forall_mem_cons.mpr ⟨tyBound, restBound⟩⟩

theorem arrives_bindStruct (decl : StructDecl) :
    Arrives known (fun final bound => Stmt.IsBound final accessors (.struct bound))
      (bindStruct decl) := by
  intro place before _ _ isAt run
  obtain ⟨_, _, ⟨rfl, membersBound⟩, late⟩ := run.step (isBound_of_bindMembers isAt)
  obtain ⟨_, ⟨nextAt, extended, declares⟩, rfl⟩ :=
    late.last (declares_of_declareIdent isAt (by simp))
  exact ⟨_, nextAt, extended, fun final keeps => ⟨membersBound, declares final keeps, rfl⟩⟩

theorem arrives_bindParams (params : List Param) :
    Arrives known Param.AreBound (bindParams params) := by
  induction params with
  | nil =>
      intro place before _ _ isAt run
      obtain ⟨rfl, rfl, _⟩ := runs_pure.mp run
      exact ⟨place, isAt, .refl _, fun _ _ => rfl⟩
  | cons param rest ih =>
      intro place before _ _ isAt run
      obtain ⟨_, _, ⟨rfl, tyBound⟩, late⟩ := run.step (isBound_of_bindIdent isAt)
      obtain ⟨_, _, early, late⟩ := runs_bind.mp late
      have storable : false = false -> DeclKind.param.IsStorable := fun _ => trivial
      obtain ⟨nextAt, extended, declares⟩ := declares_of_declareIdent isAt storable early
      obtain ⟨_, ⟨last, lastAt, extendedLater, restBound⟩, rfl⟩ := late.last (ih nextAt)
      refine ⟨last, lastAt, extended.trans extendedLater, fun final keeps => ?_⟩
      exact ⟨tyBound, declares final (extendedLater.keeps.trans keeps), restBound final keeps⟩

section

variable (isAt : before.At known place)
include isAt

theorem isBound_of_bindOptional
    {ident bound : Option Ident}
    (run : Runs (bindOptional ident) before bound after) :
    before = after ∧ ∀ ty ∈ bound, ty.IsBound place := by
  cases ident with
  | none =>
      obtain ⟨rfl, same, _⟩ := runs_pure.mp run
      exact ⟨same, by rintro _ ⟨⟩⟩
  | some ident =>
      obtain ⟨_, ⟨rfl, isBound⟩, rfl⟩ := run.last (isBound_of_bindIdent isAt)
      refine ⟨rfl, ?_⟩
      rintro _ ⟨⟩
      exact isBound

/-- The header of a function is bound, and its body is open. -/
theorem isBound_of_bindHeader
    {header bound : FunctionHeader}
    (run : Runs (bindHeader header) before bound after) :
    ∃ outer scope start,
      outer.At known place.declare ∧ before.Extends outer ∧ scope.pop = outer.scope ∧
        scope.depth ≠ 0 ∧ State.Extends { outer with scope := scope } after ∧
          after.At known start ∧
            ∀ final, after.arena.Keeps final ->
              bound.name.Declares final place.next .function ∧
                (∀ ty ∈ bound.result, ty.IsBound place.declare) ∧
                  Param.AreBound final bound.params place.declare.enter start := by
  obtain ⟨_, _, rfl, late⟩ := run.step runs_checkUndefined
  obtain ⟨_, outer, ⟨outerAt, extended, declares⟩, late⟩ :=
    late.step (declares_of_declareIdent isAt (by simp))
  obtain ⟨_, _, ⟨rfl, resultBound⟩, late⟩ := late.step (isBound_of_bindOptional outerAt)
  obtain ⟨_, _, rfl, late⟩ := late.step runs_changeScope
  obtain ⟨_, ⟨start, startAt, extendedLater, paramsBound⟩, rfl⟩ :=
    late.last (arrives_bindParams _ (outerAt.pushFunction _))
  refine ⟨outer, _, start, outerAt, extended, Scope.pop_pushFunction _ _, Nat.succ_ne_zero _,
    extendedLater, startAt, fun final keeps => ?_⟩
  exact ⟨declares final (extendedLater.keeps.trans keeps), resultBound, paramsBound final keeps⟩

end

/-! ## Forms of statements -/

section Forms

variable {body : List Stmt}

theorem arrives_importAll
    (knows : context.Knows known)
    (newName : Ident) :
    Arrives known (Stmt.IsBound · accessors) (bindStmt context (.importAll newName path span)) := by
  intro place before _ _ isAt run
  obtain ⟨_, ⟨exports, registered, rfl, rfl⟩, rfl⟩ := run.last runs_importAll
  refine ⟨_, isAt.declare _ ?_, before.extends_declare rfl _, fun final keeps => ⟨?_, rfl⟩⟩
  · rintro _ ⟨⟩
    exact knows.members registered
  · exact (declaresPackage_alloc isAt.size_eq rfl (by simp) rfl rfl).keeps keeps

/-- The body of a function is bound after its header, and its frame is closed. -/
theorem arrives_function
    {header : FunctionHeader}
    (inBody : Arrives known (Stmt.AreBound · accessors) (bindBlock context body)) :
    Arrives known (Stmt.IsBound · accessors) (bindStmt context (.function header body)) := by
  intro place before _ _ isAt run
  obtain ⟨_, _, early, late⟩ := runs_bind.mp run
  obtain ⟨outer, scope, start, outerAt, extended, opened, nested, extendedHead, startAt,
    headBound⟩ := isBound_of_bindHeader isAt early
  obtain ⟨_, _, ⟨last, lastAt, extendedBody, bodyBound⟩, late⟩ := late.step (inBody startAt)
  obtain ⟨_, rfl, rfl⟩ := late.last runs_changeScope
  have inside := extendedHead.trans extendedBody
  refine ⟨place.declare.leave last, outerAt.leave lastAt (inside.pop_eq_outer opened nested),
    extended.trans (inside.leave opened nested), fun final keeps => ?_⟩
  obtain ⟨nameDeclares, resultBound, paramsBound⟩ :=
    headBound final (extendedBody.keeps.trans keeps)
  exact ⟨nameDeclares, resultBound, start, last, paramsBound, bodyBound final keeps, rfl⟩

/-- One frame is open for all parts of a loop. -/
theorem arrives_loop
    {init step : Stmt}
    {condition : Expr}
    (inInit : Arrives known (Stmt.IsBound · accessors) (bindStmt context init))
    (fresh : condition.MembersSatisfy known)
    (inStep : Arrives known (Stmt.IsBound · accessors) (bindStmt context step))
    (inBody : Arrives known (Stmt.AreBound · accessors) (bindBlock context body)) :
    Arrives known (Stmt.IsBound · accessors)
      (bindStmt context (.loop init condition step body span)) := by
  intro place before _ _ isAt run
  obtain ⟨_, _, rfl, late⟩ := run.step runs_changeScope
  obtain ⟨_, _, ⟨start, startAt, extendedInit, initBound⟩, late⟩ :=
    late.step (inInit isAt.pushBlock)
  obtain ⟨_, _, ⟨rfl, conditionBound⟩, late⟩ :=
    late.step (isBound_of_bindExpr startAt condition fresh)
  obtain ⟨_, _, ⟨middle, middleAt, extendedStep, stepBound⟩, late⟩ := late.step (inStep startAt)
  obtain ⟨_, _, ⟨last, lastAt, extendedBody, bodyBound⟩, late⟩ := late.step (inBody middleAt)
  obtain ⟨_, rfl, rfl⟩ := late.last runs_changeScope
  have inside := (extendedInit.trans extendedStep).trans extendedBody
  have opened : before.scope.pushBlock.pop = before.scope := rfl
  have nested : before.scope.pushBlock.depth ≠ 0 := Nat.succ_ne_zero _
  refine ⟨place.leave last, isAt.leave lastAt (inside.pop_eq_outer opened nested),
    inside.leave opened nested, fun final keeps => ?_⟩
  have keepsStep := extendedBody.keeps.trans keeps
  exact ⟨start, middle, last, initBound final (extendedStep.keeps.trans keepsStep),
    conditionBound, stepBound final keepsStep, bodyBound final keeps, rfl⟩

theorem arrives_setIndex
    {container position value : Expr}
    {accessor : Option VarId}
    (freshContainer : container.MembersSatisfy known)
    (freshPosition : position.MembersSatisfy known)
    (freshValue : value.MembersSatisfy known) :
    Arrives known (Stmt.IsBound · accessors)
      (bindStmt context (.setIndex container position value accessor span)) := by
  intro place before _ _ isAt run
  obtain ⟨_, _, ⟨rfl, containerBound⟩, late⟩ :=
    run.step (isBound_of_bindExpr isAt container freshContainer)
  obtain ⟨_, _, ⟨rfl, positionBound⟩, late⟩ :=
    late.step (isBound_of_bindExpr isAt position freshPosition)
  obtain ⟨_, ⟨rfl, valueBound⟩, rfl⟩ := late.last (isBound_of_bindExpr isAt value freshValue)
  exact ⟨place, isAt, .refl _, fun _ _ => ⟨containerBound, positionBound, valueBound, rfl⟩⟩

end Forms

/-! ## Statements -/

mutual

theorem isBound_of_bindStmt
    (knows : context.Knows known)
    (stmt : Stmt)
    (fresh : stmt.Every (Expr.MembersSatisfy known) (Stmt.AccessorSatisfies accessors)) :
    Arrives known (Stmt.IsBound · accessors) (bindStmt context stmt) := by
  intro place before _ _ isAt run
  match stmt with
  | .version _ _ _ | .extension _ _ _ =>
      obtain ⟨rfl, rfl, _⟩ := runs_pure.mp run
      exact ⟨place, isAt, .refl _, fun _ _ => rfl⟩
  | .accessor _ =>
      obtain ⟨rfl, rfl, _⟩ := runs_pure.mp run
      exact ⟨place, isAt, .refl _, fun _ _ => ⟨fresh.1, rfl⟩⟩
  | .precision _ _ _ =>
      obtain ⟨_, ⟨rfl, tyBound⟩, rfl⟩ := run.last (isBound_of_bindIdent isAt)
      exact ⟨place, isAt, .refl _, fun _ _ => ⟨tyBound, rfl⟩⟩
  | .importName _ _ _ _ =>
      obtain ⟨_, ⟨var, found, rfl, rfl⟩, rfl⟩ := run.last runs_importName
      have isVisible := isAt.known_visible var (knows.exported found)
      exact ⟨place, isAt.bind _ isVisible, before.extends_bind _ _,
        fun _ _ => ⟨⟨var, isVisible, rfl⟩, rfl⟩⟩
  | .importAll newName _ _ => exact arrives_importAll knows newName isAt run
  | .reexport _ _ _ _ =>
      obtain ⟨_, ⟨var, found, _, rfl⟩, rfl⟩ := run.last runs_reexport
      have isVisible := isAt.known_visible var (knows.exported found)
      exact ⟨_, isAt.publish _ var _, before.extends_exports _, fun _ _ => ⟨var, isVisible, rfl⟩⟩
  | .exportName _ _ _ =>
      obtain ⟨_, _, ⟨rfl, var, isVisible, var_eq⟩, late⟩ := run.step (isBound_of_bindIdent isAt)
      obtain ⟨_, ⟨_, rfl⟩, rfl⟩ := late.last (runs_exportIdent var_eq)
      exact ⟨_, isAt.publish _ var _, before.extends_exports _,
        fun _ _ => ⟨var, isVisible, var_eq, rfl⟩⟩
  | .interface decl =>
      obtain ⟨_, early, rfl⟩ := runs_map.mp run
      exact arrives_bindInterface decl isAt early
  | .const _ =>
      obtain ⟨_, early, rfl⟩ := runs_map.mp run
      exact arrives_bindConst fresh.2 isAt early
  | .var _ =>
      obtain ⟨_, early, rfl⟩ := runs_map.mp run
      exact arrives_bindVar fresh.2 isAt early
  | .struct decl =>
      obtain ⟨_, early, rfl⟩ := runs_map.mp run
      exact arrives_bindStruct decl isAt early
  | .function _ body =>
      exact arrives_function (areBound_of_bindBlock knows body fresh.2) isAt run
  | .assign target _ value _ =>
      obtain ⟨_, _, ⟨rfl, targetBound⟩, late⟩ :=
        run.step (isBound_of_bindExpr isAt target fresh.2.1)
      obtain ⟨_, _, rfl, late⟩ := late.step runs_checkTarget
      obtain ⟨_, ⟨rfl, valueBound⟩, rfl⟩ := late.last (isBound_of_bindExpr isAt value fresh.2.2)
      exact ⟨place, isAt, .refl _, fun _ _ => ⟨targetBound, valueBound, rfl⟩⟩
  | .cond branches _ =>
      obtain ⟨_, early, rfl⟩ := runs_map.mp run
      exact branchesBound_of_bindBranches knows branches fresh.2 isAt early
  | .loop init _ step body _ =>
      obtain ⟨_, freshInit, freshCondition, freshStep, freshBody⟩ := fresh
      exact arrives_loop (isBound_of_bindStmt knows init freshInit) freshCondition
        (isBound_of_bindStmt knows step freshStep) (areBound_of_bindBlock knows body freshBody)
        isAt run
  | .ret _ _ =>
      obtain ⟨_, _, rfl, late⟩ := run.step runs_checkInFunction
      obtain ⟨_, ⟨rfl, valueBound⟩, rfl⟩ := late.last (isBound_of_bindOptionalExpr isAt fresh.2)
      exact ⟨place, isAt, .refl _, fun _ _ => ⟨valueBound, rfl⟩⟩
  | .call callee args _ =>
      obtain ⟨_, _, ⟨rfl, calleeBound⟩, late⟩ :=
        run.step (isBound_of_bindExpr isAt callee fresh.2.1)
      obtain ⟨_, ⟨rfl, argumentsBound⟩, rfl⟩ :=
        late.last (areBound_of_bindExprs isAt args (Expr.allMembersSatisfy_iff.mpr fresh.2.2))
      exact ⟨place, isAt, .refl _, fun _ _ => ⟨calleeBound, argumentsBound, rfl⟩⟩
  | .update target _ _ =>
      obtain ⟨_, ⟨rfl, targetBound⟩, rfl⟩ := run.last (isBound_of_bindExpr isAt target fresh.2)
      exact ⟨place, isAt, .refl _, fun _ _ => ⟨targetBound, rfl⟩⟩
  | .setIndex _ _ _ _ _ =>
      exact arrives_setIndex fresh.2.1 fresh.2.2.1 fresh.2.2.2 isAt run

/-- A bound list of statements leads from the place of the first state to that
of the last. -/
theorem areBound_of_bindBlock
    (knows : context.Knows known)
    (block : List Stmt)
    (fresh : Stmt.EveryIn (Expr.MembersSatisfy known) (Stmt.AccessorSatisfies accessors) block) :
    Arrives known (Stmt.AreBound · accessors) (bindBlock context block) := by
  intro place before _ _ isAt run
  match block with
  | [] =>
      obtain ⟨rfl, rfl, _⟩ := runs_pure.mp run
      exact ⟨place, isAt, .refl _, fun _ _ => rfl⟩
  | stmt :: rest =>
      obtain ⟨_, _, ⟨middle, middleAt, extended, stmtBound⟩, late⟩ :=
        run.step (isBound_of_bindStmt knows stmt fresh.1 isAt)
      obtain ⟨_, ⟨last, lastAt, extendedRest, restBound⟩, rfl⟩ :=
        late.last (areBound_of_bindBlock knows rest fresh.2 middleAt)
      refine ⟨last, lastAt, extended.trans extendedRest, fun final keeps => ?_⟩
      exact ⟨middle, stmtBound final (extendedRest.keeps.trans keeps), restBound final keeps⟩

theorem branchesBound_of_bindBranches
    (knows : context.Knows known)
    (branches : List (Branch Stmt))
    (fresh : Stmt.EveryInBranches (Expr.MembersSatisfy known) (Stmt.AccessorSatisfies accessors)
      branches) :
    Arrives known (Stmt.BranchesBound · accessors) (bindBranches context branches) := by
  intro place before _ _ isAt run
  match branches with
  | [] =>
      obtain ⟨rfl, rfl, _⟩ := runs_pure.mp run
      exact ⟨place, isAt, .refl _, fun _ _ => rfl⟩
  | ⟨_, body, _⟩ :: rest =>
      obtain ⟨_, _, ⟨rfl, conditionBound⟩, late⟩ :=
        run.step (isBound_of_bindOptionalExpr isAt fresh.1)
      obtain ⟨_, _, rfl, late⟩ := late.step runs_changeScope
      obtain ⟨_, _, ⟨inner, innerAt, extendedBody, bodyBound⟩, late⟩ :=
        late.step (areBound_of_bindBlock knows body fresh.2.1 isAt.pushBlock)
      obtain ⟨_, _, rfl, late⟩ := late.step runs_changeScope
      obtain ⟨_, early, rfl⟩ := runs_map.mp late
      have opened : before.scope.pushBlock.pop = before.scope := rfl
      have nested : before.scope.pushBlock.depth ≠ 0 := Nat.succ_ne_zero _
      obtain ⟨last, lastAt, extendedRest, restBound⟩ :=
        branchesBound_of_bindBranches knows rest fresh.2.2
          (isAt.leave innerAt (extendedBody.pop_eq_outer opened nested)) early
      refine ⟨last, lastAt, (extendedBody.leave opened nested).trans extendedRest,
        fun final keeps => ?_⟩
      have keepsBody := extendedRest.keeps.trans keeps
      exact ⟨conditionBound, inner, bodyBound final keepsBody, restBound final keeps⟩

end

end Binding
end ModularGlsl
