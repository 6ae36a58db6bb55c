import ModularGlsl.Binding.Stmt
import ModularGlsl.Proofs.Run
import ModularGlsl.Proofs.Tree

/-!
# What binding changes

Binding consists of a few single steps: it records a failure, opens and closes
frames, binds a name in the innermost frame, adds a variable and adds an export.
A relation between states that contains these steps and their compositions
relates the states before and after any statement.  So whatever is to be shown of
all runs of binding, failed ones included, is shown of the single steps.
-/

namespace ModularGlsl

/-- Kinds of declarations whose variables code of a stage may store to, built-ins
apart. -/
def DeclKind.IsWritable (stage : Stage) : DeclKind -> Prop
  | param | localVariable | globalVariable => True
  | varying => stage = .vertex
  | _ => False

namespace Binding

/-- Of the interface, only varyings before the fragment stage are not constant. -/
theorem isWritable_declKind
    {stage : Stage}
    {kind : InterfaceKind}
    (written : isReadOnly stage kind = false) :
    (declKind kind).IsWritable stage := by
  cases kind <;> cases stage <;> cases written
  rfl

/-- The failures that binding records: errors of its own, and imports of modules
that are not registered. -/
inductive Context.Raises (context : Context) : Diagnostic -> Prop
  | binding (error : BindingError) : context.Raises (.binding error)
  | notFound
      {path : String}
      (absent : context.registry.lookup path = none)
      (span : Span) :
      context.Raises (.assembly (.notFound path context.path span))

/-- A relation between states that contains the single steps of binding, as long as
only some names are declared. -/
class Admits
    (context : outParam Context)
    (declarable : outParam (String -> Prop))
    (may : State -> State -> Prop) : Prop where
  /-- Nothing has to change. -/
  refl : ∀ state, may state state
  /-- Steps are taken in turn. -/
  trans : ∀ {before middle after}, may before middle -> may middle after -> may before after
  /-- The first failure is recorded. -/
  fail : ∀ state diagnostic, context.Raises diagnostic -> state.failure = none ->
    may state { state with failure := some diagnostic }
  /-- Frames of functions and blocks are opened and closed. -/
  frames : ∀ state inner, may state { state with scope := { state.scope with inner := inner } }
  /-- A name is bound in the innermost frame. -/
  declare : ∀ state name id span scope, state.scope.declare state.arena name id span = .ok scope ->
    may state { state with scope := scope }
  /-- A variable is added, which is constant unless the stage may store to it. -/
  alloc : ∀ state record, declarable record.name ->
    (record.constant = false -> record.decl.IsWritable context.stage) ->
      may state { state with arena := state.arena.alloc record }
  /-- A variable is exported. -/
  publish : ∀ state exports, may state { state with exports := exports }

/-- A step leads from each state to a related one. -/
class Follows
    {α : Type}
    (may : State -> State -> Prop)
    (step : Bind α) : Prop where
  /-- The state after the step is related to the one before it. -/
  leads : ∀ state, may state (step state).2

variable {may : State -> State -> Prop} {context : Context} {declarable : String -> Prop}

/-! ## Single steps -/

section Steps

variable {α β : Type} {step : Bind α}

variable {before after : State} {value : α}

/-- A run of a step leads to a related state. -/
theorem Follows.of_runs
    (follows : Follows may step)
    (run : Runs step before value after) :
    may before after := by
  have related := follows.leads before
  rw [run.1] at related
  exact related

theorem Admits.of_runs
    (_ : Admits context declarable may)
    [follows : Follows may step]
    (run : Runs step before value after) :
    may before after :=
  follows.of_runs run

theorem Admits.bind
    (admits : Admits context declarable may)
    (early : Follows may step)
    {next : α -> Bind β}
    (late : ∀ value, Follows may (next value)) :
    Follows may (step >>= next) where
  leads state := admits.trans (early.leads state) ((late (step state).1).leads (step state).2)

section

variable [admits : Admits context declarable may]
include admits

instance (value : α) : Follows may (pure value : Bind α) where
  leads := admits.refl

instance : Follows may (get : Bind State) where
  leads := admits.refl

instance
    (next : α -> Bind β)
    [early : Follows may step]
    [late : ∀ value, Follows may (next value)] :
    Follows may (step >>= next) :=
  admits.bind early late

/-- A step that is taken only without a failure. -/
instance
    (result : α)
    [follows : Follows may step] :
    Follows may (unlessFailed result step) where
  leads state := by
    unfold unlessFailed
    split
    · exact admits.refl state
    · exact follows.leads state

instance : Follows may (changeScope Scope.pushBlock) where
  leads state := admits.frames state _

instance (function : VarId) :
    Follows may (changeScope fun scope => scope.pushFunction function) where
  leads state := admits.frames state _

instance : Follows may (changeScope Scope.pop) where
  leads state := admits.frames state _

end

theorem fail_apply
    (diagnostic : Diagnostic)
    (state : State) :
    fail diagnostic state =
      ((), match state.failure with
        | some _ => state
        | none => { state with failure := some diagnostic }) :=
  rfl

variable (admits : Admits context declarable may)

include admits

theorem follows_fail
    {diagnostic : Diagnostic}
    (raised : context.Raises diagnostic) :
    Follows may (fail diagnostic) where
  leads state := by
    rw [fail_apply]
    cases recorded : state.failure with
    | some earlier => exact admits.refl state
    | none => exact admits.fail state diagnostic raised recorded

theorem follows_alloc
    {record : Variable}
    (isDeclarable : declarable record.name)
    (writable : record.constant = false -> record.decl.IsWritable context.stage) :
    Follows may (alloc record) where
  leads state := admits.alloc state record isDeclarable writable

end Steps

instance
    [admits : Admits context declarable may]
    (error : BindingError) :
    Follows may (fail error) :=
  follows_fail admits (.binding error)

/-! ## Names -/

variable {error : Diagnostic}

variable {span : Span}

/-- A failed search for the exports of a module. -/
theorem Context.raises_of_exportsOf
    {path : String}
    (failed : context.exportsOf path span = .error error) :
    context.Raises error := by
  unfold Context.exportsOf at failed
  split at failed
  · cases failed
  · next absent =>
      cases failed
      exact .notFound absent span

/-- A failed search for an exported name. -/
theorem Context.raises_of_exported
    {path name : String}
    (failed : context.exported path name span = .error error) :
    context.Raises error := by
  unfold Context.exported at failed
  cases found : context.exportsOf path span with
  | error other =>
      rw [found] at failed
      cases failed
      exact raises_of_exportsOf found
  | ok exports =>
      simp only [found, bind, Except.bind] at failed
      split at failed
      · cases failed
      · cases failed
        exact .binding _

theorem introduce_apply
    (ident : Ident)
    (id : VarId)
    (state : State) :
    introduce ident id state =
      match state.scope.declare state.arena ident.name id ident.span with
      | .ok scope => ({ ident with var := some id }, { state with scope := scope })
      | .error error => (ident, (fail error state).2) := by
  unfold introduce
  simp only [bind, StateT.bind, get, getThe, MonadStateOf.get, StateT.get, pure]
  cases state.scope.declare state.arena ident.name id ident.span <;> rfl

theorem bindIdent_apply
    (ident : Ident)
    (state : State) :
    bindIdent ident state =
      match state.failure, state.scope.lookup ident.name with
      | some _, _ => (ident, state)
      | none, some id => ({ ident with var := some id }, state)
      | none, none => (ident, (fail (BindingError.undefined ident.name ident.span) state).2) := by
  obtain ⟨arena, scope, exports, failure⟩ := state
  cases failure with
  | some earlier => rfl
  | none =>
      simp only [bindIdent, unlessFailed, bind, StateT.bind, get, getThe, MonadStateOf.get,
        StateT.get, pure]
      cases scope.lookup ident.name <;> rfl

theorem addExport_apply
    (name : String)
    (var : VarId)
    (span : Span)
    (state : State) :
    addExport name var span state =
      match state.failure, state.exports.get? name with
      | some _, _ => ((), state)
      | none, some previous =>
          fail (BindingError.duplicateExport name span previous.span) state
      | none, none => ((), { state with exports := state.exports.insert name ⟨var, span⟩ }) := by
  obtain ⟨arena, scope, exports, failure⟩ := state
  cases failure with
  | some earlier => rfl
  | none =>
      simp only [addExport, unlessFailed, bind, StateT.bind, get, getThe, MonadStateOf.get,
        StateT.get, pure]
      cases exports.get? name <;> rfl

section Names

variable [admits : Admits context declarable may]

include admits

/-- A step that looks at the state, taken only without a failure. -/
theorem follows_guarded
    {α : Type}
    {result : α}
    {next : State -> Bind α}
    (follows : ∀ state, Follows may (next state)) :
    Follows may (unlessFailed result (get >>= next)) :=
  inferInstance

/-- Binding a name in the innermost frame. -/
instance (ident : Ident) (id : VarId) : Follows may (introduce ident id) where
  leads state := by
    rw [introduce_apply]
    split
    · next scope declared => exact admits.declare state _ _ _ scope declared
    · next error _ => exact (follows_fail admits (.binding error)).leads state

instance (name : String) (var : VarId) (span : Span) : Follows may (addExport name var span) where
  leads state := by
    rw [addExport_apply]
    split
    · exact admits.refl state
    · exact (follows_fail admits (.binding _)).leads state
    · exact admits.publish state _

instance (ident : Ident) : Follows may (bindIdent ident) := by
  refine follows_guarded fun state => ?_
  split <;> infer_instance

instance (ident : Option Ident) : Follows may (bindOptional ident) := by
  cases ident with
  | none | some =>
      unfold bindOptional
      infer_instance

instance (name : String) (newName : Ident) (path : String) (span : Span) :
    Follows may (importName context name newName path span) := by
  unfold importName
  split
  · infer_instance
  · next failed =>
      have := follows_fail admits (Context.raises_of_exported failed)
      infer_instance

/-- An export of a name of another module. -/
instance (name newName path : String) (span : Span) :
    Follows may (reexport context name newName path span) := by
  unfold reexport
  split
  · infer_instance
  · next failed =>
      have := follows_fail admits (Context.raises_of_exported failed)
      infer_instance

/-- The demand that a name is not bound. -/
instance (ident : Ident) : Follows may (checkUndefined ident) := by
  refine follows_guarded fun state => ?_
  split <;> infer_instance

/-- The demand that a function is open. -/
instance (span : Span) : Follows may (checkInFunction span) := by
  refine follows_guarded fun state => ?_
  split <;> infer_instance

/-- The demand that no member of a package is stored to. -/
instance (target : Expr) (span : Span) : Follows may (checkTarget target span) := by
  unfold checkTarget
  split <;> infer_instance

instance (object : Expr) (key : String) (packageMember : Option VarId) (span : Span) :
    Follows may (bindMember object key packageMember span) := by
  refine follows_guarded fun state => ?_
  dsimp only
  split
  · infer_instance
  · split <;> infer_instance

end Names

/-! ## Exports -/

/-- A step yields a bound identifier, unless there is a failure. -/
def Settles (step : Bind Ident) : Prop :=
  ∀ state, (step state).2.failure = none -> (step state).1.var ≠ none

theorem failure_fail_ne_none
    (diagnostic : Diagnostic)
    (state : State) :
    (fail diagnostic state).2.failure ≠ none := by
  cases recorded : state.failure <;> simp [fail_apply, recorded]

/-- A name in the innermost frame denotes its variable. -/
theorem settles_introduce
    (ident : Ident)
    (id : VarId) :
    Settles (introduce ident id) := by
  intro state clear
  rw [introduce_apply] at clear ⊢
  split at clear
  · simp
  · exact absurd clear (failure_fail_ne_none _ _)

/-- An identifier denotes a variable once it is bound. -/
theorem settles_bindIdent (ident : Ident) : Settles (bindIdent ident) := by
  intro state clear
  rw [bindIdent_apply] at clear ⊢
  split at clear
  · next recorded => simp [recorded] at clear
  · simp
  · exact absurd clear (failure_fail_ne_none _ _)

/-- A declared identifier denotes its variable. -/
theorem settles_declareIdent
    (ident : Ident)
    (decl : DeclKind)
    (constant : Bool) :
    Settles (declareIdent ident decl constant) := by
  intro state clear
  unfold declareIdent unlessFailed at clear ⊢
  split at clear
  · next recorded => simp [recorded] at clear
  · exact settles_introduce ident _ _ clear

theorem follows_exportIdent
    (admits : Admits context declarable may)
    {step : Bind Ident}
    (follows : Follows may step)
    (settles : Settles step)
    (name : Ident -> String)
    (span : Span) :
    Follows may (step >>= fun ident => exportIdent ident (name ident) span) where
  leads state := by
    refine admits.trans (follows.leads state) ?_
    change may (step state).2
      (exportIdent (step state).1 (name (step state).1) span (step state).2).2
    unfold exportIdent Ident.bound
    cases bound : (step state).1.var with
    | some id => exact Follows.leads _
    | none =>
        have failed : (step state).2.failure ≠ none := fun clear => settles state clear bound
        obtain ⟨earlier, recorded⟩ := Option.ne_none_iff_exists'.mp failed
        dsimp only
        rw [fail_apply, recorded]
        exact admits.refl _

section Expressions

variable [admits : Admits context declarable may]

include admits

/-! ## Expressions -/

mutual

theorem follows_bindExpr : (expr : Expr) -> Follows may (bindExpr expr)
  | .int _ _ | .float _ _ | .bool _ _ | .var _ => by
      unfold bindExpr
      infer_instance
  | .member operand _ _ _ | .unary _ operand _ | .paren operand _ => by
      have := follows_bindExpr operand
      unfold bindExpr
      infer_instance
  | .index left right _ | .getIndex left right _ _ | .binary _ left right _ => by
      have := follows_bindExpr left
      have := follows_bindExpr right
      unfold bindExpr
      infer_instance
  | .call callee args _ => by
      have := follows_bindExpr callee
      have := follows_bindExprs args
      unfold bindExpr
      infer_instance

theorem follows_bindExprs : (exprs : List Expr) -> Follows may (bindExprs exprs)
  | [] => by
      unfold bindExprs
      infer_instance
  | expr :: rest => by
      have := follows_bindExpr expr
      have := follows_bindExprs rest
      unfold bindExprs
      infer_instance

end

instance (expr : Expr) : Follows may (bindExpr expr) :=
  follows_bindExpr expr

instance (exprs : List Expr) : Follows may (bindExprs exprs) :=
  follows_bindExprs exprs

instance (expr : Option Expr) : Follows may (bindOptionalExpr expr) := by
  cases expr with
  | none | some =>
      unfold bindOptionalExpr
      infer_instance

instance (members : List StructMember) : Follows may (bindMembers members) := by
  induction members with
  | nil | cons =>
      unfold bindMembers
      infer_instance

end Expressions

section Trees

variable (admits : Admits context declarable may)

include admits

/-! ## Declarations -/

theorem follows_declareIdent
    {ident : Ident}
    (isDeclarable : declarable ident.name)
    {decl : DeclKind}
    {constant : Bool}
    (writable : constant = false -> decl.IsWritable context.stage) :
    Follows may (declareIdent ident decl constant) := by
  have : Follows may (alloc
      { name := ident.name, constant := constant, decl := decl, span := ident.span }) :=
    follows_alloc admits isDeclarable writable
  unfold declareIdent
  infer_instance

/-- An import of all that a module exports. -/
theorem follows_importAll
    {newName : Ident}
    (isDeclarable : declarable newName.name)
    (path : String)
    (span : Span) :
    Follows may (importAll context newName path span) := by
  unfold importAll
  split
  · next exports _ =>
      have : Follows may (alloc
          { name := newName.name
            constant := true
            decl := .package
            members := some (exports.map (·.var))
            span := span }) :=
        follows_alloc admits isDeclarable (by simp)
      infer_instance
  · next failed =>
      have := follows_fail admits (Context.raises_of_exportsOf failed)
      infer_instance

theorem follows_bindInterface
    {decl : InterfaceDecl}
    (isDeclarable : declarable decl.name.name) :
    Follows may (bindInterface context decl) := by
  refine admits.bind inferInstance fun _ => admits.bind ?_ fun _ => inferInstance
  exact follows_declareIdent admits isDeclarable isWritable_declKind

theorem follows_bindConst
    {decl : ConstDecl}
    (isDeclarable : declarable decl.name.name) :
    Follows may (bindConst decl) := by
  have declares : Follows may (declareIdent decl.name (.const decl.exported) true) :=
    follows_declareIdent admits isDeclarable (by simp)
  refine admits.bind inferInstance fun ty => admits.bind inferInstance fun init => ?_
  cases exported : decl.exported with
  | false =>
      rw [exported] at declares
      exact ⟨declares.leads⟩
  | true =>
      -- The constant is declared first, so that it is bound when it is exported.
      have exports := follows_exportIdent admits declares (settles_declareIdent _ _ _) Ident.name
        decl.span
      rw [exported] at exports
      exact ⟨exports.leads⟩

theorem follows_bindVar
    {decl : VarDecl}
    (isDeclarable : declarable decl.name.name) :
    Follows may (bindVar decl) := by
  have (depth : Nat) : Follows may (declareIdent decl.name
      (if depth = 0 then .globalVariable else .localVariable) false) := by
    refine follows_declareIdent admits isDeclarable fun _ => ?_
    split <;> trivial
  unfold bindVar
  infer_instance

theorem follows_bindStruct
    {decl : StructDecl}
    (isDeclarable : declarable decl.name.name) :
    Follows may (bindStruct decl) := by
  have : Follows may (declareIdent decl.name .struct true) :=
    follows_declareIdent admits isDeclarable (by simp)
  unfold bindStruct
  infer_instance

theorem follows_bindParams
    {params : List Param}
    (areDeclarable : ∀ name ∈ params.map (·.name.name), declarable name) :
    Follows may (bindParams params) := by
  induction params with
  | nil => 
      unfold bindParams
      infer_instance
  | cons param rest ih =>
      obtain ⟨isDeclarable, restDeclarable⟩ := List.forall_mem_cons.mp areDeclarable
      have : Follows may (declareIdent param.name .param false) :=
        follows_declareIdent admits isDeclarable fun _ => trivial
      have := ih restDeclarable
      unfold bindParams
      infer_instance

theorem follows_bindHeader
    {header : FunctionHeader}
    (isDeclarable : declarable header.name.name)
    (paramsDeclarable : ∀ name ∈ header.params.map (·.name.name), declarable name) :
    Follows may (bindHeader header) := by
  have : Follows may (declareIdent header.name .function true) :=
    follows_declareIdent admits isDeclarable (by simp)
  have := follows_bindParams admits paramsDeclarable
  unfold bindHeader
  infer_instance

/-! ## Statements -/

mutual

theorem follows_bindStmt
    (stmt : Stmt)
    (areDeclarable : ∀ name ∈ stmt.declaredNames, declarable name) :
    Follows may (bindStmt context stmt) := by
  unfold bindStmt
  match stmt with
  | .version _ _ _ | .extension _ _ _ | .accessor _ | .precision _ _ _ | .importName _ _ _ _
  | .reexport _ _ _ _ | .assign _ _ _ _ | .ret _ _ | .call _ _ _ | .update _ _ _
  | .setIndex _ _ _ _ _ =>
      infer_instance
  | .importAll newName path span =>
      have := follows_importAll admits (areDeclarable newName.name List.mem_cons_self) path span
      infer_instance
  | .exportName target newName span =>
      have exports := follows_exportIdent admits inferInstance (settles_bindIdent target)
        (fun _ => newName) span
      exact ⟨exports.leads⟩
  | .interface decl =>
      have := follows_bindInterface admits (areDeclarable decl.name.name List.mem_cons_self)
      infer_instance
  | .const decl =>
      have := follows_bindConst admits (areDeclarable decl.name.name List.mem_cons_self)
      infer_instance
  | .var decl =>
      have := follows_bindVar admits (areDeclarable decl.name.name List.mem_cons_self)
      infer_instance
  | .struct decl =>
      have := follows_bindStruct admits (areDeclarable decl.name.name List.mem_cons_self)
      infer_instance
  | .function header body =>
      rw [Stmt.declaredNames, List.forall_mem_cons, List.forall_mem_append] at areDeclarable
      obtain ⟨isDeclarable, paramsDeclarable, bodyDeclarable⟩ := areDeclarable
      have := follows_bindHeader admits isDeclarable paramsDeclarable
      have := follows_bindBlock body bodyDeclarable
      infer_instance
  | .cond branches _ =>
      have := follows_bindBranches branches areDeclarable
      infer_instance
  | .loop init cond step body _ =>
      rw [Stmt.declaredNames, List.forall_mem_append, List.forall_mem_append] at areDeclarable
      obtain ⟨initDeclarable, stepDeclarable, bodyDeclarable⟩ := areDeclarable
      have := follows_bindStmt init initDeclarable
      have := follows_bindStmt step stepDeclarable
      have := follows_bindBlock body bodyDeclarable
      infer_instance

theorem follows_bindBlock
    (block : List Stmt)
    (areDeclarable : ∀ name ∈ Stmt.declaredNamesOfBlock block, declarable name) :
    Follows may (bindBlock context block) := by
  unfold bindBlock
  match block with
  | [] => infer_instance
  | stmt :: rest =>
      rw [Stmt.declaredNamesOfBlock, List.forall_mem_append] at areDeclarable
      have := follows_bindStmt stmt areDeclarable.1
      have := follows_bindBlock rest areDeclarable.2
      infer_instance

theorem follows_bindBranches
    (branches : List (Branch Stmt))
    (areDeclarable : ∀ name ∈ Stmt.declaredNamesOfBranches branches, declarable name) :
    Follows may (bindBranches context branches) := by
  unfold bindBranches
  match branches with
  | [] => infer_instance
  | ⟨cond, body, _⟩ :: rest =>
      rw [Stmt.declaredNamesOfBranches, List.forall_mem_append] at areDeclarable
      have := follows_bindBlock body areDeclarable.1
      have := follows_bindBranches rest areDeclarable.2
      infer_instance

end

end Trees

end Binding
end ModularGlsl
