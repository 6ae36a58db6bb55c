import ModularGlsl.Proofs.Binding.Paths

/-!
# Paths are bound to what they reach

While modules are bound one after the other, every name in the open frames is bound to what
its origin stands for, and so is every exported name.  Packages hold the exports of finished
modules.  A path is therefore bound to the declaration that it reaches, however many imports
and exports lie between them.
-/

namespace ModularGlsl

/-! ## Variables of paths -/

/-- The variable that a path is bound to. -/
def Expr.boundVar? : Expr -> Option VarId
  | .var ident => ident.var
  | .member _ _ packageMember _ => packageMember
  | _ => none

/-- A variable is what a path leads to: that of a declaration of the program, or a package of
a finished module. -/
def Target.IsAt
    (bundle : Bundle)
    (done : List Module)
    (arena : Arena)
    (id : VarId) : Target -> Prop
  | .declaration ident =>
      ident ∈ bundle.declarations ∧ ident.var = some id ∧ id < arena.size ∧
        (arena.get id).members = none
  | .package path =>
      ∃ module ∈ done, module.path = path ∧
        (arena.get id).members = some (module.exports.map (·.var))

/-- A variable is what a name stands for. -/
def Origin.IsAt
    (bundle : Bundle)
    (done : List Module)
    (arena : Arena)
    (id : VarId)
    (origin : Origin) : Prop :=
  ∃ target, origin.Leads bundle target ∧ target.IsAt bundle done arena id

/-- A path reaches something and is bound to it. -/
def Expr.IsResolved
    (bundle : Bundle)
    (done : List Module)
    (arena : Arena)
    (names : Names)
    (path : Expr) : Prop :=
  ∃ target id, path.Reaches bundle names target ∧ path.boundVar? = some id ∧
    target.IsAt bundle done arena id

/-- An expression reaches no package: it reaches a declaration, is a member of what reaches no
package, or is no path. -/
def Expr.IsPlain
    (bundle : Bundle)
    (names : Names) : Expr -> Prop
  | .var ident => ∃ declared, (Expr.var ident).Reaches bundle names (.declaration declared)
  | .member object key packageMember span =>
      object.IsPlain bundle names ∨
        ∃ declared, (Expr.member object key packageMember span).Reaches bundle names
          (.declaration declared)
  | _ => True

/-- A path is bound to what it reaches, or is a member of what reaches no package and is not
bound. -/
def Reference.IsLinked
    (bundle : Bundle)
    (done : List Module)
    (arena : Arena)
    (reference : Reference) : Prop :=
  reference.path.IsResolved bundle done arena reference.names ∨
    ∃ object key span, reference.path = .member object key none span ∧
      object.IsPlain bundle reference.names

/-- The exports of a module are bound to what they stand for. -/
def Module.IsFinished
    (bundle : Bundle)
    (done : List Module)
    (arena : Arena)
    (module : Module) : Prop :=
  ∀ key entry, module.exports.get? key = some entry ->
    ∃ origin, (key, origin) ∈ module.origins bundle.stage ∧
      origin.IsAt bundle done arena entry.var

variable {bundle : Bundle} {done : List Module} {arena later : Arena} {id : VarId} {origin : Origin}

variable {module : Module}

section Later

variable {more : List Module}

theorem Arena.lt_size_of_members
    {members : Table VarId}
    (held : (arena.get id).members = some members) :
    id < arena.size := by
  refine Nat.lt_of_not_le fun outside => ?_
  rw [Arena.get_of_size_le outside] at held
  cases held

theorem Target.IsAt.mono
    {target : Target}
    (isAt : target.IsAt bundle done arena id)
    (finished : done ⊆ more)
    (keeps : arena.Keeps later) :
    target.IsAt bundle more later id := by
  cases target with
  | declaration ident =>
      obtain ⟨declared, var_eq, inside, plain⟩ := isAt
      exact ⟨declared, var_eq, Nat.lt_of_lt_of_le inside keeps.size_le,
        (keeps.members_eq inside).trans plain⟩
  | package path =>
      obtain ⟨module, mem, path_eq, held⟩ := isAt
      exact ⟨module, finished mem, path_eq,
        (keeps.members_eq (Arena.lt_size_of_members held)).trans held⟩

theorem Origin.IsAt.mono
    (isAt : origin.IsAt bundle done arena id)
    (finished : done ⊆ more)
    (keeps : arena.Keeps later) :
    origin.IsAt bundle more later id := by
  obtain ⟨target, leads, targetAt⟩ := isAt
  exact ⟨target, leads, targetAt.mono finished keeps⟩

theorem Reference.IsLinked.mono
    {reference : Reference}
    (linked : reference.IsLinked bundle done arena)
    (finished : done ⊆ more)
    (keeps : arena.Keeps later) :
    reference.IsLinked bundle more later := by
  refine linked.imp_left ?_
  rintro ⟨target, id, reaches, var_eq, targetAt⟩
  exact ⟨target, id, reaches, var_eq, targetAt.mono finished keeps⟩

theorem Module.IsFinished.mono
    (isFinished : module.IsFinished bundle done arena)
    (finished : done ⊆ more)
    (keeps : arena.Keeps later) :
    module.IsFinished bundle more later := by
  intro key entry found
  obtain ⟨origin, exported, isAt⟩ := isFinished key entry found
  exact ⟨origin, exported, isAt.mono finished keeps⟩

end Later

/-! ## Tables -/

variable {α β : Type}

theorem lookup_map
    (change : String -> α -> β)
    (entries : List (String × α))
    (key : String) :
    (entries.map fun entry => (entry.1, change entry.1 entry.2)).lookup key =
      (entries.lookup key).map (change key) := by
  induction entries with
  | nil => rfl
  | cons entry rest ih =>
      rw [List.map_cons, List.lookup_cons, List.lookup_cons, ih]
      split
      · next same =>
          rw [eq_of_beq same]
          rfl
      · rfl

theorem Table.get?_map
    (f : α -> β)
    (table : Table α)
    (key : String) :
    (table.map f).get? key = (table.get? key).map f :=
  lookup_map (fun _ => f) table.entries key

/-! ## Open frames -/

variable {scope : Scope}

namespace Scope

theorem lookup_bind_of_ne
    {name other : String}
    (var : VarId)
    (different : other ≠ name) :
    (scope.bind name var).lookup other = scope.lookup other := by
  obtain ⟨inner, base, globals⟩ := scope
  cases inner <;>
    simp [bind, lookup, frames, List.findSome?_cons, Frame.get?_bind_of_ne _ _ different]

@[simp] theorem lookup_pushBlock
    (scope : Scope)
    (name : String) :
    scope.pushBlock.lookup name = scope.lookup name := by
  simp [pushBlock, lookup, frames, List.findSome?_cons, Frame.get?]

/-- A new function body hides no name. -/
@[simp] theorem lookup_pushFunction
    (scope : Scope)
    (function : VarId)
    (name : String) :
    (scope.pushFunction function).lookup name = scope.lookup name := by
  simp [pushFunction, lookup, frames, List.findSome?_cons, Frame.get?]

end Scope

namespace Binding

/-! ## States that match names in scope -/

/-- A state binds the names in scope to what they stand for, and has exported what is
listed. -/
structure State.Matches
    (bundle : Bundle)
    (done : List Module)
    (names : Names)
    (listed : List (String × Origin))
    (state : State) : Prop where
  /-- What an open frame binds is in scope. -/
  lookup : ∀ name id, state.scope.lookup name = some id ->
    ∃ origin, names.lookup name = some origin ∧ origin.IsAt bundle done state.arena id
  /-- What is exported is listed. -/
  exports : ∀ key entry, state.exports.get? key = some entry ->
    ∃ origin, (key, origin) ∈ listed ∧ origin.IsAt bundle done state.arena entry.var
  /-- What is listed is exported. -/
  published : ∀ key ∈ listed.map Prod.fst, state.exports.get? key ≠ none
  /-- No name is listed twice. -/
  nodup : (listed.map Prod.fst).Nodup

variable {names : Names} {listed : List (String × Origin)} {ident bound : Ident}

section Matches

variable {state : State}

section

variable (isMatch : state.Matches bundle done names listed)
include isMatch

theorem State.Matches.keeps (kept : state.arena.Keeps arena) :
    State.Matches bundle done names listed { state with arena := arena } where
  lookup name id found := by
    obtain ⟨origin, inScope, isAt⟩ := isMatch.lookup name id found
    exact ⟨origin, inScope, isAt.mono (List.Subset.refl _) kept⟩
  exports key entry found := by
    obtain ⟨origin, isListed, isAt⟩ := isMatch.exports key entry found
    exact ⟨origin, isListed, isAt.mono (List.Subset.refl _) kept⟩
  published := isMatch.published
  nodup := isMatch.nodup

theorem State.Matches.bind
    (name : String)
    (isAt : origin.IsAt bundle done state.arena id) :
    State.Matches bundle done ((name, origin) :: names) listed
      { state with scope := state.scope.bind name id } where
  lookup other found isFound := by
    by_cases same : other = name
    · subst same
      rw [Scope.lookup_bind_self] at isFound
      cases isFound
      exact ⟨origin, by simp, isAt⟩
    · rw [Scope.lookup_bind_of_ne id same] at isFound
      have unequal : (other == name) = false := by simpa using same
      rw [List.lookup_cons, unequal]
      exact isMatch.lookup other found isFound
  exports := isMatch.exports
  published := isMatch.published
  nodup := isMatch.nodup

/-- A declaration is bound to its variable. -/
theorem State.Matches.declare
    {record : Variable}
    (declared : { ident with var := some state.arena.size } ∈ bundle.declarations)
    (plain : record.members = none) :
    State.Matches bundle done
      (names.declare { ident with var := some state.arena.size }) listed
      { state with
        arena := state.arena.alloc record
        scope := state.scope.bind ident.name state.arena.size } := by
  refine (isMatch.keeps (Arena.keeps_alloc state.arena record)).bind ident.name ?_
  refine ⟨_, .declared _, declared, rfl, ?_, ?_⟩
  · rw [Arena.size_alloc]
    exact Nat.lt_succ_self _
  · rw [Arena.get_alloc_size]
    exact plain

theorem State.Matches.publish
    {name : String}
    (isNew : state.exports.get? name = none)
    (isAt : origin.IsAt bundle done state.arena id)
    (span : Span) :
    State.Matches bundle done names (listed ++ [(name, origin)])
      { state with exports := state.exports.insert name ⟨id, span⟩ } where
  lookup := isMatch.lookup
  exports key entry found := by
    by_cases same : key = name
    · subst same
      rw [Table.get?_insert_self] at found
      cases found
      exact ⟨origin, by simp, isAt⟩
    · rw [Table.get?_insert_of_ne _ _ same] at found
      obtain ⟨other, isListed, otherAt⟩ := isMatch.exports key entry found
      exact ⟨other, List.mem_append_left _ isListed, otherAt⟩
  published key mem := by
    by_cases same : key = name
    · subst same
      simp
    · rw [Table.get?_insert_of_ne _ _ same]
      refine isMatch.published key ?_
      rw [List.map_append] at mem
      exact (List.mem_append.mp mem).resolve_right (by simpa using same)
  nodup := by
    rw [List.map_append, List.nodup_append]
    refine ⟨isMatch.nodup, by simp, ?_⟩
    rintro key isListed other isOther rfl
    cases List.mem_singleton.mp isOther
    exact isMatch.published _ isListed isNew

/-- Frames that hide no name are opened. -/
theorem State.Matches.opens (same : ∀ name, scope.lookup name = state.scope.lookup name) :
    State.Matches bundle done names listed { state with scope := scope } where
  lookup name id found := isMatch.lookup name id ((same name).symm.trans found)
  exports := isMatch.exports
  published := isMatch.published
  nodup := isMatch.nodup

end

theorem State.Matches.leave
    {outer : State}
    {inside : Names}
    {others : List (String × Origin)}
    (outerMatch : outer.Matches bundle done names others)
    (isMatch : state.Matches bundle done inside listed)
    (closed : state.scope.pop = outer.scope)
    (kept : outer.arena.Keeps state.arena) :
    State.Matches bundle done names listed { state with scope := state.scope.pop } where
  lookup name id found := by
    rw [closed] at found
    obtain ⟨origin, inScope, isAt⟩ := outerMatch.lookup name id found
    exact ⟨origin, inScope, isAt.mono (List.Subset.refl _) kept⟩
  exports := isMatch.exports
  published := isMatch.published
  nodup := isMatch.nodup

end Matches

/-! ## Expressions -/

/-- What is registered before a module is bound: the exports of finished modules. -/
structure Registered
    (bundle : Bundle)
    (done : List Module)
    (arena : Arena)
    (registry : List (String × Table Export)) : Prop where
  /-- A registered path is that of a finished module. -/
  lookup : ∀ path exports, registry.lookup path = some exports ->
    ∃ module ∈ done, module.path = path ∧ module.exports = exports
  /-- Finished modules belong to the program. -/
  subset : done ⊆ bundle.modules
  /-- Finished modules are finished. -/
  finished : ∀ module ∈ done, module.IsFinished bundle done arena

variable {context : Context} {before after : State}

section Expr

variable {registry : List (String × Table Export)}

theorem Registered.keeps
    (registered : Registered bundle done arena registry)
    (kept : arena.Keeps later) :
    Registered bundle done later registry where
  lookup := registered.lookup
  subset := registered.subset
  finished module mem :=
    (registered.finished module mem).mono (List.Subset.refl _) kept

variable {key : String}

/-- What a finished module exports is what an import of it stands for. -/
theorem Registered.isAt_of_get?
    (registered : Registered bundle done arena registry)
    (mem : module ∈ done)
    {entry : Export}
    (found : module.exports.get? key = some entry) :
    (Origin.imported module.path key).IsAt bundle done arena entry.var := by
  obtain ⟨origin, exported, target, leads, isAt⟩ :=
    registered.finished module mem key entry found
  exact ⟨target, .imported (registered.subset mem) rfl exported leads, isAt⟩

variable {span : Span}

/-- An imported name stands for what is found. -/
theorem Registered.isAt_of_exported
    (registered : Registered bundle done arena context.registry)
    {path name : String}
    {var : VarId}
    (found : context.exported path name span = .ok var) :
    (Origin.imported path name).IsAt bundle done arena var := by
  obtain ⟨exports, known, entry, held, rfl⟩ := Context.exported_eq_ok found
  obtain ⟨module, mem, rfl, rfl⟩ := registered.lookup path exports known
  exact registered.isAt_of_get? mem held

theorem packageOf?_eq
    (arena : Arena)
    (expr : Expr) :
    packageOf? arena expr = expr.boundVar?.filter fun id => (arena.get id).isPackage := by
  cases expr <;> rfl

theorem mem_paths_of_boundVar?
    {expr : Expr}
    (bound : expr.boundVar? = some id) :
    expr ∈ expr.paths := by
  cases expr with
  | var | member => exact List.mem_cons_self
  | _ => cases bound

variable {object : Expr}

section

variable (linked : ∀ path ∈ object.paths, Reference.IsLinked bundle done arena ⟨names, path⟩)
include linked

/-- What is bound to no package reaches none. -/
theorem isPlain_of_packageOf? (noPackage : packageOf? arena object = none) :
    object.IsPlain bundle names := by
  have declares {target : Target} {id : VarId} (reaches : object.Reaches bundle names target)
      (bound : object.boundVar? = some id) (isAt : target.IsAt bundle done arena id) :
      ∃ declared, object.Reaches bundle names (.declaration declared) := by
    cases target with
    | declaration declared => exact ⟨declared, reaches⟩
    | package path =>
        obtain ⟨module, _, _, held⟩ := isAt
        rw [packageOf?_eq, bound] at noPackage
        simp [Option.filter, Variable.isPackage, held] at noPackage
  cases object with
  | var ident =>
      rcases linked _ List.mem_cons_self with ⟨target, id, reaches, bound, isAt⟩ | ⟨_, _, _, ⟨⟩, _⟩
      exact declares reaches bound isAt
  | member inner key packageMember span =>
      rcases linked _ List.mem_cons_self with
        ⟨target, id, reaches, bound, isAt⟩ | ⟨_, _, _, same, plain⟩
      · exact .inr (declares reaches bound isAt)
      · cases same
        exact .inl plain
  | _ => trivial

theorem reaches_of_packageOf?
    {package : VarId}
    (isPackage : packageOf? arena object = some package) :
    ∃ module ∈ done, object.Reaches bundle names (.package module.path) ∧
      (arena.get package).members = some (module.exports.map (·.var)) := by
  rw [packageOf?_eq] at isPackage
  obtain ⟨bound, isPackage⟩ := Option.filter_eq_some_iff.mp isPackage
  rcases linked object (mem_paths_of_boundVar? bound) with
    ⟨target, id, reaches, var_eq, isAt⟩ | ⟨inner, key, span, same, _⟩
  · obtain rfl : id = package := Option.some.inj (var_eq.symm.trans bound)
    cases target with
    | declaration declared =>
        rw [Variable.isPackage, isAt.2.2.2] at isPackage
        cases isPackage
    | package path =>
        obtain ⟨module, mem, rfl, held⟩ := isAt
        exact ⟨module, mem, reaches, held⟩
  · dsimp only at same
    rw [same] at bound
    cases bound

end

/-- A bound identifier reaches what it is bound to. -/
theorem isResolved_of_bindIdent
    (isMatch : before.Matches bundle done names listed)
    (run : Runs (bindIdent ident) before bound after) :
    before = after ∧ (Expr.var bound).IsResolved bundle done before.arena names := by
  obtain ⟨id, found, rfl, same⟩ := runs_bindIdent run
  obtain ⟨origin, inScope, target, leads, isAt⟩ := isMatch.lookup _ _ found
  refine ⟨same, target, id, .var ?_ leads, rfl, isAt⟩
  exact inScope

/-- A member of a package reaches what it is bound to, and any other member is not bound. -/
theorem isLinked_of_bindMember
    (registered : Registered bundle done before.arena registry)
    (linked : ∀ path ∈ object.paths, Reference.IsLinked bundle done before.arena ⟨names, path⟩)
    {bound : Option VarId}
    (run : Runs (bindMember object key none span) before bound after) :
    before = after ∧
      Reference.IsLinked bundle done before.arena ⟨names, .member object key bound span⟩ := by
  obtain ⟨same, ⟨noPackage, rfl⟩ | ⟨package, members, var, isPackage, held, found, rfl⟩⟩ :=
    runs_bindMember run
  · exact ⟨same, .inr ⟨object, key, span, rfl, isPlain_of_packageOf? linked noPackage⟩⟩
  · obtain ⟨module, mem, reaches, members_eq⟩ := reaches_of_packageOf? linked isPackage
    rw [members_eq] at held
    cases held
    rw [Table.get?_map] at found
    obtain ⟨entry, listed, rfl⟩ := Option.map_eq_some_iff.mp found
    obtain ⟨target, leads, isAt⟩ := registered.isAt_of_get? mem listed
    exact ⟨same, .inl ⟨target, _, .member reaches leads, rfl, isAt⟩⟩

mutual

/-- The paths of a bound expression are bound to what they reach. -/
theorem areLinked_of_bindExpr
    (registered : Registered bundle done before.arena registry)
    (isMatch : before.Matches bundle done names listed)
    (expr : Expr)
    (fresh : expr.MembersSatisfy fun _ => False)
    {bound : Expr}
    {after : State}
    (run : Runs (bindExpr expr) before bound after) :
    before = after ∧
      ∀ path ∈ bound.paths, Reference.IsLinked bundle done before.arena ⟨names, path⟩ := by
  match expr with
  | .int _ _ | .float _ _ | .bool _ _ =>
      obtain ⟨rfl, same, _⟩ := runs_pure.mp run
      exact ⟨same, by simp [Expr.paths]⟩
  | .var ident =>
      obtain ⟨name, ⟨rfl, reached⟩, rfl⟩ := run.last (isResolved_of_bindIdent isMatch)
      refine ⟨rfl, fun path mem => ?_⟩
      rw [List.mem_singleton.mp mem]
      exact .inl reached
  | .member object key packageMember span =>
      obtain rfl : packageMember = none :=
        Option.eq_none_iff_forall_not_mem.mpr fresh.2
      obtain ⟨_, _, ⟨rfl, objectLinked⟩, late⟩ :=
        run.step (areLinked_of_bindExpr registered isMatch object fresh.1)
      obtain ⟨_, ⟨rfl, memberLinked⟩, rfl⟩ :=
        late.last (isLinked_of_bindMember registered objectLinked)
      exact ⟨rfl, List.forall_mem_cons.mpr ⟨memberLinked, objectLinked⟩⟩
  | .index left right _ | .getIndex left right _ _ | .binary _ left right _ =>
      obtain ⟨_, _, ⟨rfl, leftLinked⟩, late⟩ :=
        run.step (areLinked_of_bindExpr registered isMatch left fresh.1)
      obtain ⟨_, ⟨rfl, rightLinked⟩, rfl⟩ :=
        late.last (areLinked_of_bindExpr registered isMatch right fresh.2)
      exact ⟨rfl, List.forall_mem_append.mpr ⟨leftLinked, rightLinked⟩⟩
  | .call callee args _ =>
      obtain ⟨_, _, ⟨rfl, calleeLinked⟩, late⟩ :=
        run.step (areLinked_of_bindExpr registered isMatch callee fresh.1)
      obtain ⟨_, ⟨rfl, argumentsLinked⟩, rfl⟩ :=
        late.last (areLinked_of_bindExprs registered isMatch args fresh.2)
      exact ⟨rfl, List.forall_mem_append.mpr ⟨calleeLinked, argumentsLinked⟩⟩
  | .unary _ operand _ | .paren operand _ =>
      obtain ⟨_, ⟨rfl, operandLinked⟩, rfl⟩ :=
        run.last (areLinked_of_bindExpr registered isMatch operand fresh)
      exact ⟨rfl, operandLinked⟩

theorem areLinked_of_bindExprs
    (registered : Registered bundle done before.arena registry)
    (isMatch : before.Matches bundle done names listed)
    (exprs : List Expr)
    (fresh : Expr.AllMembersSatisfy (fun _ => False) exprs)
    {bound : List Expr}
    {after : State}
    (run : Runs (bindExprs exprs) before bound after) :
    before = after ∧
      ∀ path ∈ Expr.pathsOfAll bound,
        Reference.IsLinked bundle done before.arena ⟨names, path⟩ := by
  match exprs with
  | [] =>
      obtain ⟨rfl, same, _⟩ := runs_pure.mp run
      exact ⟨same, by simp [Expr.pathsOfAll]⟩
  | expr :: rest =>
      obtain ⟨_, _, ⟨rfl, exprLinked⟩, late⟩ :=
        run.step (areLinked_of_bindExpr registered isMatch expr fresh.1)
      obtain ⟨_, ⟨rfl, restLinked⟩, rfl⟩ :=
        late.last (areLinked_of_bindExprs registered isMatch rest fresh.2)
      exact ⟨rfl, List.forall_mem_append.mpr ⟨exprLinked, restLinked⟩⟩

end

/-- The paths of a bound expression are bound to what they reach, if there is one. -/
theorem areLinked_of_bindOptionalExpr
    (registered : Registered bundle done before.arena registry)
    (isMatch : before.Matches bundle done names listed)
    {expr bound : Option Expr}
    (fresh : ∀ value ∈ expr, value.MembersSatisfy fun _ => False)
    (run : Runs (bindOptionalExpr expr) before bound after) :
    before = after ∧
      ∀ path ∈ Expr.pathsIfAny bound,
        Reference.IsLinked bundle done before.arena ⟨names, path⟩ := by
  cases expr with
  | none =>
      obtain ⟨rfl, same, _⟩ := runs_pure.mp run
      exact ⟨same, by simp [Expr.pathsIfAny]⟩
  | some expr =>
      obtain ⟨_, ⟨rfl, linked⟩, rfl⟩ :=
        run.last (areLinked_of_bindExpr registered isMatch expr (fresh _ rfl))
      exact ⟨rfl, linked⟩

end Expr

/-! ## Statements -/

/-- A run over statements leads to names in scope, exports what the statements export, and
binds their paths to what they reach. -/
structure Carries
    (bundle : Bundle)
    (done : List Module)
    (before : State)
    (listed : List (String × Origin))
    (parts : List Situated)
    (next : Names)
    (after : State) : Prop where
  /-- The last state matches the names in scope and all exports. -/
  isMatch : after.Matches bundle done next (listed ++ parts.flatMap Situated.exports)
  /-- The first state is extended. -/
  extended : before.Extends after
  /-- Paths are bound to what they reach. -/
  linked : ∀ part ∈ parts, ∀ reference ∈ part.references, reference.IsLinked bundle done after.arena

section Carries

variable {next : Names}

/-- References where the same names are in scope are those of the paths. -/
theorem areLinked_references
    {paths : List Expr}
    (linked : ∀ path ∈ paths, Reference.IsLinked bundle done arena ⟨names, path⟩)
    (kept : arena.Keeps later) :
    ∀ reference ∈ names.references paths, reference.IsLinked bundle done later :=
  List.forall_mem_map.mpr fun path mem =>
    (linked path mem).mono (List.Subset.refl _) kept

variable {part : Situated}

theorem Carries.single
    (isMatch : after.Matches bundle done next (listed ++ part.exports))
    (extended : before.Extends after)
    (linked : ∀ reference ∈ part.references, reference.IsLinked bundle done after.arena) :
    Carries bundle done before listed [part] next after where
  isMatch := by
    rw [List.flatMap_singleton]
    exact isMatch
  extended := extended
  linked other mem reference isReference := by
    rw [List.mem_singleton.mp mem] at isReference
    exact linked reference isReference

/-- A single statement that exports nothing. -/
theorem Carries.silent
    (silent : part.exports = [])
    (isMatch : after.Matches bundle done next listed)
    (extended : before.Extends after)
    (linked : ∀ reference ∈ part.references, reference.IsLinked bundle done after.arena) :
    Carries bundle done before listed [part] next after := by
  refine .single ?_ extended linked
  rw [silent, List.append_nil]
  exact isMatch

theorem Carries.nil (isMatch : before.Matches bundle done names listed) :
    Carries bundle done before listed [] names before where
  isMatch := by
    rw [List.flatMap_nil, List.append_nil]
    exact isMatch
  extended := .refl _
  linked _ mem := by cases mem

theorem Carries.append
    {middle : State}
    {parts others : List Situated}
    (early : Carries bundle done before listed parts names middle)
    (late :
      Carries bundle done middle (listed ++ parts.flatMap Situated.exports) others next after) :
    Carries bundle done before listed (parts ++ others) next after where
  isMatch := by
    rw [List.flatMap_append, ← List.append_assoc]
    exact late.isMatch
  extended := early.extended.trans late.extended
  linked := by
    refine List.forall_mem_append.mpr ⟨fun part mem reference isReference => ?_, late.linked⟩
    exact (early.linked part mem reference isReference).mono (List.Subset.refl _)
      late.extended.keeps

variable {parts : List Situated}

/-- A run that is led to by another one. -/
theorem Carries.prepend
    {first : State}
    (extended : first.Extends before)
    (late : Carries bundle done before listed parts next after) :
    Carries bundle done first listed parts next after where
  isMatch := late.isMatch
  extended := extended.trans late.extended
  linked := late.linked

theorem Carries.cons
    (inside : Carries bundle done before listed parts next after)
    (silent : part.exports = [])
    (linked : ∀ reference ∈ part.references, reference.IsLinked bundle done after.arena) :
    Carries bundle done before listed (part :: parts) next after where
  isMatch := by
    rw [List.flatMap_cons, silent]
    exact inside.isMatch
  extended := inside.extended
  linked := List.forall_mem_cons.mpr ⟨linked, inside.linked⟩

theorem Carries.leave
    {inner : Names}
    (isMatch : before.Matches bundle done names listed)
    (inside : Carries bundle done { before with scope := scope } listed parts inner after)
    (opened : scope.pop = before.scope)
    (nested : scope.depth ≠ 0) :
    Carries bundle done before listed parts names { after with scope := after.scope.pop } where
  isMatch := isMatch.leave inside.isMatch (inside.extended.pop_eq_outer opened nested)
    inside.extended.keeps
  extended := inside.extended.leave opened nested
  linked := inside.linked

end Carries

section

variable (isMatch : before.Matches bundle done names listed)
include isMatch

variable {decl : DeclKind} {constant : Bool}

theorem matches_of_declareIdent
    (run : Runs (declareIdent ident decl constant) before bound after)
    (declared : bound ∈ bundle.declarations) :
    after.Matches bundle done (names.declare bound) listed ∧ before.Extends after := by
  obtain ⟨rfl, rfl⟩ := runs_declareIdent run
  exact ⟨isMatch.declare declared rfl, before.extends_declare rfl _⟩

/-- A single statement that declares an identifier after what it refers to. -/
theorem Carries.declares
    (run : Runs (declareIdent ident decl constant) before bound after)
    (declared : bound ∈ bundle.declarations)
    {part : Situated}
    (silent : part.exports = [])
    (linked : ∀ reference ∈ part.references, reference.IsLinked bundle done before.arena) :
    Carries bundle done before listed [part] (names.declare bound) after := by
  obtain ⟨nextMatch, extended⟩ := matches_of_declareIdent isMatch run declared
  refine .silent silent nextMatch extended fun reference isReference => ?_
  exact (linked reference isReference).mono (List.Subset.refl _) extended.keeps

/-- Bound identifiers reach what they are bound to. -/
theorem areLinked_of_bindMembers
    {members bound : List StructMember}
    (run : Runs (bindMembers members) before bound after) :
    before = after ∧
      ∀ member ∈ bound, Reference.IsLinked bundle done before.arena ⟨names, .var member.ty⟩ := by
  induction members generalizing bound after with
  | nil =>
      obtain ⟨rfl, same, _⟩ := runs_pure.mp run
      exact ⟨same, by simp⟩
  | cons member rest ih =>
      obtain ⟨_, _, ⟨rfl, reached⟩, late⟩ := run.step (isResolved_of_bindIdent isMatch)
      obtain ⟨_, ⟨rfl, restLinked⟩, rfl⟩ := late.last ih
      exact ⟨rfl, List.forall_mem_cons.mpr ⟨.inl reached, restLinked⟩⟩

theorem areLinked_of_bindOptional
    {ident bound : Option Ident}
    (run : Runs (bindOptional ident) before bound after) :
    before = after ∧
      ∀ path ∈ bound.toList.map Expr.var,
        Reference.IsLinked bundle done before.arena ⟨names, path⟩ := by
  cases ident with
  | none =>
      obtain ⟨rfl, same, _⟩ := runs_pure.mp run
      exact ⟨same, by simp⟩
  | some ident =>
      obtain ⟨_, ⟨rfl, reached⟩, rfl⟩ := run.last (isResolved_of_bindIdent isMatch)
      exact ⟨rfl, List.forall_mem_singleton.mpr (.inl reached)⟩

theorem matches_of_bindParams
    {params bound : List Param}
    (run : Runs (bindParams params) before bound after)
    (declared : bound.map Param.name ⊆ bundle.declarations) :
    after.Matches bundle done (Param.namesAfter names bound) listed ∧ before.Extends after ∧
      ∀ reference ∈ Param.references names bound, reference.IsLinked bundle done after.arena := by
  induction params generalizing before bound names with
  | nil =>
      obtain ⟨rfl, rfl, _⟩ := runs_pure.mp run
      exact ⟨isMatch, .refl _, by simp [Param.references]⟩
  | cons param rest ih =>
      obtain ⟨_, _, ⟨rfl, reached⟩, late⟩ := run.step (isResolved_of_bindIdent isMatch)
      obtain ⟨_, middle, declaring, late⟩ := runs_bind.mp late
      obtain ⟨_, early, rfl⟩ := runs_map.mp late
      obtain ⟨isOwn, areOwn⟩ := List.cons_subset.mp declared
      obtain ⟨middleMatch, extended⟩ := matches_of_declareIdent isMatch declaring isOwn
      obtain ⟨lastMatch, extendedRest, restLinked⟩ := ih middleMatch early areOwn
      have kept := (extended.trans extendedRest).keeps
      have tyLinked : Reference.IsLinked bundle done before.arena ⟨names, .var _⟩ := .inl reached
      exact ⟨lastMatch, extended.trans extendedRest, List.forall_mem_cons.mpr
        ⟨tyLinked.mono (List.Subset.refl _) kept, restLinked⟩⟩

/-- The name and the parameters of a function are in scope in its body. -/
theorem matches_of_bindHeader
    {header bound : FunctionHeader}
    (run : Runs (bindHeader header) before bound after)
    (declared : bound.name :: bound.params.map Param.name ⊆ bundle.declarations) :
    ∃ outer scope,
      before.Extends outer ∧ outer.Matches bundle done (names.declare bound.name) listed ∧
        scope.pop = outer.scope ∧ scope.depth ≠ 0 ∧
          State.Extends { outer with scope := scope } after ∧
            after.Matches bundle done
              (Param.namesAfter (names.declare bound.name) bound.params) listed ∧
      ∀ reference ∈ (names.declare bound.name).references (bound.result.toList.map .var) ++
          Param.references (names.declare bound.name) bound.params,
        reference.IsLinked bundle done after.arena := by
  obtain ⟨_, _, rfl, late⟩ := run.step runs_checkUndefined
  obtain ⟨name, outer, declaring, late⟩ := runs_bind.mp late
  obtain ⟨_, _, resulting, late⟩ := runs_bind.mp late
  obtain ⟨_, _, rfl, late⟩ := late.step runs_changeScope
  obtain ⟨_, binding, rfl⟩ := runs_map.mp late
  obtain ⟨isOwn, areOwn⟩ := List.cons_subset.mp declared
  obtain ⟨outerMatch, extended⟩ := matches_of_declareIdent isMatch declaring isOwn
  obtain ⟨rfl, resultLinked⟩ := areLinked_of_bindOptional outerMatch resulting
  obtain ⟨lastMatch, extendedParams, paramsLinked⟩ :=
    matches_of_bindParams (outerMatch.opens fun _ => Scope.lookup_pushFunction _ _ _) binding areOwn
  refine ⟨outer, _, extended, outerMatch, Scope.pop_pushFunction _ _, Nat.succ_ne_zero _,
    extendedParams, lastMatch, List.forall_mem_append.mpr ⟨?_, paramsLinked⟩⟩
  exact areLinked_references resultLinked extendedParams.keeps

end

section Stmt

variable {onStmt : Stmt -> Prop}

/-- A constant is in scope after its initial value, and is exported if it says so. -/
theorem carries_of_bindConst
    (registered : Registered bundle done before.arena context.registry)
    (isMatch : before.Matches bundle done names listed)
    {decl bound : ConstDecl}
    (fresh : ∀ init ∈ decl.init, init.MembersSatisfy fun _ => False)
    (run : Runs (bindConst decl) before bound after)
    (declared : bound.name ∈ bundle.declarations) :
    Carries bundle done before listed [⟨names, .const bound⟩] (names.declare bound.name) after := by
  obtain ⟨_, _, ⟨rfl, tyReached⟩, late⟩ := run.step (isResolved_of_bindIdent isMatch)
  obtain ⟨_, _, ⟨rfl, initLinked⟩, late⟩ :=
    late.step (areLinked_of_bindOptionalExpr registered isMatch fresh)
  obtain ⟨name, middle, declaring, late⟩ := runs_bind.mp late
  cases exported : decl.exported with
  | false =>
      rw [exported, if_neg (by simp)] at late
      obtain ⟨rfl, rfl, _⟩ := runs_pure.mp late
      refine .declares isMatch declaring declared (by simp [Situated.exports]) ?_
      exact areLinked_references (List.forall_mem_cons.mpr ⟨.inl tyReached, initLinked⟩) (.refl _)
  | true =>
      rw [exported, if_pos rfl] at late
      obtain ⟨_, publishing, rfl⟩ := runs_map.mp late
      obtain ⟨nextMatch, extended⟩ := matches_of_declareIdent isMatch declaring declared
      obtain ⟨name_eq, middle_eq⟩ := runs_declareIdent declaring
      have var_eq : name.var = some before.arena.size := by rw [name_eq]
      obtain ⟨isNew, rfl⟩ := runs_exportIdent var_eq publishing
      obtain ⟨origin, inScope, isAt⟩ := nextMatch.lookup name.name before.arena.size (by
        rw [middle_eq, name_eq]
        exact Scope.lookup_bind_self _ _ _)
      have origin_eq : origin = .declared name := by simpa [Names.declare] using inScope.symm
      subst origin_eq
      refine .single ?_ (extended.trans (State.extends_exports _ _)) ?_
      · have published := nextMatch.publish isNew isAt decl.span
        simpa [Situated.exports, exported, name_eq] using published
      · exact areLinked_references (List.forall_mem_cons.mpr ⟨.inl tyReached, initLinked⟩)
          extended.keeps

/-- A bound statement carries the names in scope on. -/
def CarriesStmt
    (bundle : Bundle)
    (done : List Module)
    (context : Context)
    (stmt : Stmt) : Prop :=
  ∀ {names listed before bound after}, Runs (bindStmt context stmt) before bound after ->
    Registered bundle done before.arena context.registry ->
      before.Matches bundle done names listed ->
        bound.parts.flatMap Stmt.declares ⊆ bundle.declarations ->
          Carries bundle done before listed (bound.situated names) (bound.namesAfter names) after

/-- Bound statements carry the names in scope on. -/
def CarriesBlock
    (bundle : Bundle)
    (done : List Module)
    (context : Context)
    (block : List Stmt) : Prop :=
  ∀ {names listed before bound after}, Runs (bindBlock context block) before bound after ->
    Registered bundle done before.arena context.registry ->
      before.Matches bundle done names listed ->
        (Stmt.partsOfBlock bound).flatMap Stmt.declares ⊆ bundle.declarations ->
          ∃ next, Carries bundle done before listed (Stmt.situatedBlock names bound) next after

section Forms

variable {newName : Ident} {path : String} {span : Span} {body : List Stmt}

theorem carries_importName {name : String} :
    CarriesStmt bundle done context (.importName name newName path span) := by
  intro names listed before _ _ run registered isMatch _
  obtain ⟨_, ⟨var, found, rfl, rfl⟩, rfl⟩ := run.last runs_importName
  have isAt := registered.isAt_of_exported found
  refine .silent rfl (isMatch.bind newName.name isAt) (before.extends_bind _ _) ?_
  obtain ⟨target, leads, targetAt⟩ := isAt
  refine areLinked_references (List.forall_mem_singleton.mpr (.inl ?_)) (.refl _)
  refine ⟨target, var, .var ?_ leads, rfl, targetAt⟩
  simp [Stmt.namesAfter]

/-- A package is a new variable that holds what a finished module exports. -/
theorem carries_importAll : CarriesStmt bundle done context (.importAll newName path span) := by
  intro names listed before _ _ run registered isMatch _
  obtain ⟨_, ⟨exports, known, rfl, rfl⟩, rfl⟩ := run.last runs_importAll
  obtain ⟨module, mem, rfl, rfl⟩ := registered.lookup path exports known
  have isAt {record : Variable} (held : record.members = some (module.exports.map (·.var))) :
      (Target.package module.path).IsAt bundle done (before.arena.alloc record)
        before.arena.size :=
    ⟨module, mem, rfl, by rw [Arena.get_alloc_size, held]⟩
  refine .silent rfl ((isMatch.keeps (Arena.keeps_alloc _ _)).bind newName.name
    ⟨_, .package _, isAt rfl⟩) (before.extends_declare rfl _) ?_
  refine areLinked_references (List.forall_mem_singleton.mpr (.inl ?_)) (.refl _)
  refine ⟨_, _, .var ?_ (.package _), rfl, isAt rfl⟩
  simp [Stmt.namesAfter]

theorem carries_exportName
    {target : Ident}
    {newName : String} :
    CarriesStmt bundle done context (.exportName target newName span) := by
  intro names listed before _ _ run _ isMatch _
  obtain ⟨_, _, early, late⟩ := runs_bind.mp run
  obtain ⟨id, found, rfl, rfl⟩ := runs_bindIdent early
  obtain ⟨origin, inScope, isAt⟩ := isMatch.lookup _ _ found
  obtain ⟨_, reached⟩ := isResolved_of_bindIdent isMatch early
  obtain ⟨_, ⟨isNew, rfl⟩, rfl⟩ := late.last (runs_exportIdent rfl)
  refine .single ?_ (before.extends_exports _)
    (areLinked_references (List.forall_mem_singleton.mpr (.inl reached)) (.refl _))
  have published := isMatch.publish isNew isAt span
  simpa [Situated.exports, Stmt.namesAfter, inScope] using published

theorem carries_var
    {decl : VarDecl}
    (fresh : ∀ init ∈ decl.init, init.MembersSatisfy fun _ => False) :
    CarriesStmt bundle done context (.var decl) := by
  intro names listed before _ _ run registered isMatch declared
  obtain ⟨_, ⟨_, _, early, late⟩, rfl⟩ := run.last runs_bind.mp
  obtain ⟨rfl, reached⟩ := isResolved_of_bindIdent isMatch early
  obtain ⟨_, _, ⟨rfl, initLinked⟩, late⟩ :=
    late.step (areLinked_of_bindOptionalExpr registered isMatch fresh)
  obtain ⟨_, _, ⟨⟨⟩, _⟩, late⟩ := runs_bind.mp late
  obtain ⟨_, declaring, rfl⟩ := runs_map.mp late
  exact .declares isMatch declaring (declared List.mem_cons_self) rfl
    (areLinked_references (List.forall_mem_cons.mpr ⟨.inl reached, initLinked⟩) (.refl _))

/-- The frame of a body is closed, but the name of the function stays in scope. -/
theorem carries_function
    {header : FunctionHeader}
    (inBody : CarriesBlock bundle done context body) :
    CarriesStmt bundle done context (.function header body) := by
  intro names listed before _ _ run registered isMatch declared
  obtain ⟨_, _, heading, late⟩ := runs_bind.mp run
  obtain ⟨_, _, block, late⟩ := runs_bind.mp late
  obtain ⟨_, rfl, rfl⟩ := late.last runs_changeScope
  rw [Stmt.parts, List.flatMap_cons] at declared
  obtain ⟨headerDeclared, bodyDeclared⟩ := List.append_subset.mp declared
  obtain ⟨outer, scope, extended, outerMatch, opened, nested, extendedHead, startMatch,
    headLinked⟩ := matches_of_bindHeader isMatch heading headerDeclared
  obtain ⟨_, bodyCarries⟩ := inBody block
    ((registered.keeps extended.keeps).keeps extendedHead.keeps) startMatch bodyDeclared
  have left := Carries.leave outerMatch (bodyCarries.prepend extendedHead) opened nested
  refine (left.prepend extended).cons rfl fun reference isReference => ?_
  exact (headLinked reference isReference).mono (List.Subset.refl _) bodyCarries.extended.keeps

/-- One frame is open for all parts of a loop, so each sees what the ones before declare. -/
theorem carries_loop
    {init step : Stmt}
    {condition : Expr}
    (inInit : CarriesStmt bundle done context init)
    (fresh : condition.MembersSatisfy fun _ => False)
    (inStep : CarriesStmt bundle done context step)
    (inBody : CarriesBlock bundle done context body) :
    CarriesStmt bundle done context (.loop init condition step body span) := by
  intro names listed before _ _ run registered isMatch declared
  obtain ⟨_, _, rfl, late⟩ := run.step runs_changeScope
  obtain ⟨_, _, first, late⟩ := runs_bind.mp late
  obtain ⟨_, _, testing, late⟩ := runs_bind.mp late
  obtain ⟨_, _, second, late⟩ := runs_bind.mp late
  obtain ⟨_, _, block, late⟩ := runs_bind.mp late
  obtain ⟨_, rfl, rfl⟩ := late.last runs_changeScope
  rw [Stmt.parts, List.flatMap_cons, List.flatMap_append, List.flatMap_append] at declared
  obtain ⟨initDeclared, others⟩ := List.append_subset.mp (List.append_subset.mp declared).2
  obtain ⟨stepDeclared, bodyDeclared⟩ := List.append_subset.mp others
  have initCarries := inInit first registered
    (isMatch.opens fun _ => Scope.lookup_pushBlock _ _) initDeclared
  have known := registered.keeps initCarries.extended.keeps
  obtain ⟨rfl, conditionLinked⟩ :=
    areLinked_of_bindExpr known initCarries.isMatch condition fresh testing
  have stepCarries := inStep second known initCarries.isMatch stepDeclared
  obtain ⟨_, bodyCarries⟩ := inBody block (known.keeps stepCarries.extended.keeps)
    stepCarries.isMatch bodyDeclared
  have rest := stepCarries.append bodyCarries
  refine (Carries.leave isMatch (initCarries.append rest) rfl (Nat.succ_ne_zero _)).cons rfl ?_
  exact areLinked_references conditionLinked rest.extended.keeps

theorem carries_setIndex
    {container position value : Expr}
    {accessor : Option VarId}
    (freshContainer : container.MembersSatisfy fun _ => False)
    (freshPosition : position.MembersSatisfy fun _ => False)
    (freshValue : value.MembersSatisfy fun _ => False) :
    CarriesStmt bundle done context (.setIndex container position value accessor span) := by
  intro names listed before _ _ run registered isMatch _
  obtain ⟨_, _, ⟨rfl, containerLinked⟩, late⟩ :=
    run.step (areLinked_of_bindExpr registered isMatch container freshContainer)
  obtain ⟨_, _, ⟨rfl, positionLinked⟩, late⟩ :=
    late.step (areLinked_of_bindExpr registered isMatch position freshPosition)
  obtain ⟨_, ⟨rfl, valueLinked⟩, rfl⟩ :=
    late.last (areLinked_of_bindExpr registered isMatch value freshValue)
  have linked := List.forall_mem_append.mpr
    ⟨containerLinked, List.forall_mem_append.mpr ⟨positionLinked, valueLinked⟩⟩
  exact .silent rfl isMatch (.refl _) (areLinked_references linked (.refl _))

end Forms

mutual

theorem carries_of_bindStmt
    (stmt : Stmt)
    (fresh : stmt.Every (Expr.MembersSatisfy fun _ => False) onStmt) :
    CarriesStmt bundle done context stmt := by
  intro names listed before _ _ run registered isMatch declared
  match stmt with
  | .version _ _ _ | .extension _ _ _ | .accessor _ =>
      obtain ⟨rfl, rfl, _⟩ := runs_pure.mp run
      exact .silent rfl isMatch (.refl _) (by simp [Situated.references])
  | .precision _ _ _ =>
      obtain ⟨_, ⟨rfl, reached⟩, rfl⟩ := run.last (isResolved_of_bindIdent isMatch)
      exact .silent rfl isMatch (.refl _)
        (areLinked_references (List.forall_mem_singleton.mpr (.inl reached)) (.refl _))
  | .importName _ _ _ _ => exact carries_importName run registered isMatch declared
  | .importAll _ _ _ => exact carries_importAll run registered isMatch declared
  | .reexport _ _ _ _ =>
      obtain ⟨_, ⟨var, found, isNew, rfl⟩, rfl⟩ := run.last runs_reexport
      exact .single (isMatch.publish isNew (registered.isAt_of_exported found) _)
        (before.extends_exports _) (by simp [Situated.references])
  | .exportName _ _ _ => exact carries_exportName run registered isMatch declared
  | .interface _ =>
      obtain ⟨_, ⟨_, _, early, late⟩, rfl⟩ := run.last runs_bind.mp
      obtain ⟨rfl, reached⟩ := isResolved_of_bindIdent isMatch early
      obtain ⟨_, declaring, rfl⟩ := runs_map.mp late
      exact .declares isMatch declaring (declared List.mem_cons_self) rfl
        (areLinked_references (List.forall_mem_singleton.mpr (.inl reached)) (.refl _))
  | .const _ =>
      obtain ⟨_, binding, rfl⟩ := runs_map.mp run
      exact carries_of_bindConst registered isMatch fresh.2 binding (declared List.mem_cons_self)
  | .var _ => exact carries_var fresh.2 run registered isMatch declared
  | .struct _ =>
      obtain ⟨_, ⟨_, _, early, late⟩, rfl⟩ := run.last runs_bind.mp
      obtain ⟨rfl, membersLinked⟩ := areLinked_of_bindMembers isMatch early
      obtain ⟨_, declaring, rfl⟩ := runs_map.mp late
      exact .declares isMatch declaring (declared List.mem_cons_self) rfl
        (areLinked_references (List.forall_mem_map.mpr membersLinked) (.refl _))
  | .function _ body =>
      exact carries_function (carries_of_bindBlock body fresh.2) run registered isMatch declared
  | .assign target _ value _ =>
      obtain ⟨_, _, ⟨rfl, targetLinked⟩, late⟩ :=
        run.step (areLinked_of_bindExpr registered isMatch target fresh.2.1)
      obtain ⟨_, _, rfl, late⟩ := late.step runs_checkTarget
      obtain ⟨_, ⟨rfl, valueLinked⟩, rfl⟩ :=
        late.last (areLinked_of_bindExpr registered isMatch value fresh.2.2)
      exact .silent rfl isMatch (.refl _)
        (areLinked_references (List.forall_mem_append.mpr ⟨targetLinked, valueLinked⟩) (.refl _))
  | .cond branches _ =>
      obtain ⟨_, early, rfl⟩ := runs_map.mp run
      obtain ⟨inside, conditionsLinked⟩ :=
        carries_of_bindBranches branches fresh.2 early registered isMatch declared
      exact inside.cons rfl (areLinked_references conditionsLinked (.refl _))
  | .loop init _ step body _ =>
      obtain ⟨_, freshInit, freshCondition, freshStep, freshBody⟩ := fresh
      exact carries_loop (carries_of_bindStmt init freshInit) freshCondition
        (carries_of_bindStmt step freshStep) (carries_of_bindBlock body freshBody)
        run registered isMatch declared
  | .ret _ _ =>
      obtain ⟨_, _, rfl, late⟩ := run.step runs_checkInFunction
      obtain ⟨_, ⟨rfl, valueLinked⟩, rfl⟩ :=
        late.last (areLinked_of_bindOptionalExpr registered isMatch fresh.2)
      exact .silent rfl isMatch (.refl _) (areLinked_references valueLinked (.refl _))
  | .call callee args _ =>
      obtain ⟨_, _, ⟨rfl, calleeLinked⟩, late⟩ :=
        run.step (areLinked_of_bindExpr registered isMatch callee fresh.2.1)
      obtain ⟨_, early, rfl⟩ := runs_map.mp late
      obtain ⟨rfl, argumentsLinked⟩ := areLinked_of_bindExprs registered isMatch args
        (Expr.allMembersSatisfy_iff.mpr fresh.2.2) early
      exact .silent rfl isMatch (.refl _) (areLinked_references
        (List.forall_mem_append.mpr ⟨calleeLinked, argumentsLinked⟩) (.refl _))
  | .update target _ _ =>
      obtain ⟨_, ⟨rfl, targetLinked⟩, rfl⟩ :=
        run.last (areLinked_of_bindExpr registered isMatch target fresh.2)
      exact .silent rfl isMatch (.refl _) (areLinked_references targetLinked (.refl _))
  | .setIndex _ _ _ _ _ =>
      exact carries_setIndex fresh.2.1 fresh.2.2.1 fresh.2.2.2 run registered isMatch declared

theorem carries_of_bindBlock
    (block : List Stmt)
    (fresh : Stmt.EveryIn (Expr.MembersSatisfy fun _ => False) onStmt block) :
    CarriesBlock bundle done context block := by
  intro names listed before _ _ run registered isMatch declared
  match block with
  | [] =>
      obtain ⟨rfl, rfl, _⟩ := runs_pure.mp run
      exact ⟨names, .nil isMatch⟩
  | stmt :: rest =>
      obtain ⟨_, _, first, late⟩ := runs_bind.mp run
      obtain ⟨_, others, rfl⟩ := runs_map.mp late
      rw [Stmt.partsOfBlock, List.flatMap_append] at declared
      obtain ⟨inStmt, inRest⟩ := List.append_subset.mp declared
      have early := carries_of_bindStmt stmt fresh.1 first registered isMatch inStmt
      obtain ⟨next, late⟩ := carries_of_bindBlock rest fresh.2 others
        (registered.keeps early.extended.keeps) early.isMatch inRest
      exact ⟨next, early.append late⟩

/-- Bound arms of a chain of conditions carry the names in scope on, and their conditions are
bound to what they reach. -/
theorem carries_of_bindBranches
    (branches : List (Branch Stmt))
    (fresh : Stmt.EveryInBranches (Expr.MembersSatisfy fun _ => False) onStmt branches)
    {names : Names}
    {listed : List (String × Origin)}
    {before after : State}
    {bound : List (Branch Stmt)}
    (run : Runs (bindBranches context branches) before bound after)
    (registered : Registered bundle done before.arena context.registry)
    (isMatch : before.Matches bundle done names listed)
    (declared : (Stmt.partsOfBranches bound).flatMap Stmt.declares ⊆ bundle.declarations) :
    Carries bundle done before listed (Stmt.situatedBranches names bound) names after ∧
      ∀ path ∈ bound.flatMap fun branch => Expr.pathsIfAny branch.cond,
        Reference.IsLinked bundle done after.arena ⟨names, path⟩ := by
  unfold bindBranches at run
  match branches with
  | [] =>
      obtain ⟨rfl, rfl, _⟩ := runs_pure.mp run
      exact ⟨.nil isMatch, by simp⟩
  | ⟨condition, body, _⟩ :: rest =>
      obtain ⟨_, _, ⟨rfl, conditionLinked⟩, late⟩ :=
        run.step (areLinked_of_bindOptionalExpr registered isMatch fresh.1)
      obtain ⟨_, _, rfl, late⟩ := late.step runs_changeScope
      obtain ⟨_, _, block, late⟩ := runs_bind.mp late
      obtain ⟨_, _, rfl, late⟩ := late.step runs_changeScope
      obtain ⟨_, others, rfl⟩ := runs_map.mp late
      rw [Stmt.partsOfBranches, List.flatMap_append] at declared
      obtain ⟨inBody, inRest⟩ := List.append_subset.mp declared
      obtain ⟨_, bodyCarries⟩ := carries_of_bindBlock body fresh.2.1 block registered
        (isMatch.opens fun _ => Scope.lookup_pushBlock _ _) inBody
      have early := Carries.leave isMatch bodyCarries rfl (Nat.succ_ne_zero _)
      obtain ⟨restCarries, restLinked⟩ := carries_of_bindBranches rest fresh.2.2 others
        (registered.keeps early.extended.keeps) early.isMatch inRest
      refine ⟨early.append restCarries, ?_⟩
      rw [List.flatMap_cons]
      refine List.forall_mem_append.mpr ⟨fun path mem => ?_, restLinked⟩
      exact (conditionLinked path mem).mono (List.Subset.refl _)
        (early.append restCarries).extended.keeps

end

end Stmt

end Binding
end ModularGlsl
