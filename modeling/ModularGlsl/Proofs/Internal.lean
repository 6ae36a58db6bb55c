import ModularGlsl.Proofs.Binding.Failure
import ModularGlsl.Proofs.Liveness.Splicing
import ModularGlsl.Proofs.Liveness.Stable
import ModularGlsl.Proofs.Naming.Faults

/-!
# Internal errors of a build

A build meets an internal error in two ways only.  A type is missing where a module
names a package, or a function in its own header, as a type or reads a package as a
member of another one.  An accessor is left over where its struct is declared inside
of a function.  Every identifier that a step asks for is bound.
-/

namespace ModularGlsl
namespace Bundle

/-! ## Failures of single steps -/

/-- Binding modules never fails with an internal error. -/
theorem failure_bindModules
    (stage : Stage)
    (registry : List (String × Table Export))
    (arena : Arena)
    (modules : List Module)
    (error : InternalError) :
    (bindModules stage registry arena modules).2.2 ≠ some (.internal error) := by
  induction modules generalizing registry arena with
  | nil => rintro ⟨⟩
  | cons module rest ih =>
      rw [bindModules]
      dsimp only
      split
      · next diagnostic failed =>
          intro isInternal
          obtain rfl := Option.some.inj isInternal
          have records := Binding.records_bindBlock
            { stage := stage, registry := registry, path := module.path } module.statements
            { arena := arena, scope := Scope.ofGlobals stage.globals }
          rcases records with clear | ⟨_, other, isOther, raised⟩
          · exact Option.some_ne_none _ (failed.symm.trans clear)
          · obtain rfl := Option.some.inj (failed.symm.trans isOther)
            exact raised.ne_internal error rfl
      · split
        · rintro ⟨⟩
        · exact ih _ _

variable {library : Library} {error : InternalError}

section Steps

variable {bundle after : Bundle}

/-- Placing modules never fails with an internal error. -/
theorem resolveDependencies_ne_internal :
    resolveDependencies library bundle ≠ .error (.internal error) after := by
  rw [resolveDependencies_apply]
  split
  · rintro ⟨⟩
  · rintro ⟨⟩

/-- Binding names never fails with an internal error. -/
theorem resolveNames_ne_internal : resolveNames bundle ≠ .error (.internal error) after := by
  intro failed
  exact failure_bindModules _ _ _ _ error (failWith_eq_error failed)

theorem evalTypes_eq_error
    {raised : Diagnostic}
    (failed : evalTypes bundle = .error raised after) :
    ∃ arena, checkModules bundle.modules bundle.arena = .error raised arena := by
  rw [evalTypes, bind_eq_error] at failed
  rcases failed with early | ⟨_, _, early, failed⟩
  · cases early
  · cases early
    cases outcome : checkModules bundle.modules bundle.arena with
    | ok done arena =>
        rw [outcome] at failed
        cases failed
    | error error arena =>
        rw [outcome] at failed
        cases failed
        exact ⟨arena, rfl⟩

theorem exists_of_check_eq_error
    {usage : Usage}
    {arena : Arena}
    (failed : usage.check arena = .error (.internal error)) :
    ∃ waiting ∈ usage.pending, error = .unconsumedAccessor waiting.name waiting.stmt.span := by
  unfold Usage.check at failed
  split at failed
  · cases failed
  · next waiting rest _ isPending =>
      cases failed
      exact ⟨waiting, isPending ▸ List.mem_cons_self, rfl⟩
  · cases failed

/-- Splicing fails with an internal error where something still waits. -/
theorem finalizeInjected_eq_internal
    (failed : finalizeInjected bundle = .error (.internal error) after) :
    ∃ waiting ∈ (spliceModules true bundle.usage bundle.modules).2.pending,
      error = .unconsumedAccessor waiting.name waiting.stmt.span := by
  rw [finalizeInjected, bind_eq_error] at failed
  rcases failed with early | ⟨_, _, early, failed⟩
  · cases early
  · cases early
    rcases bind_eq_error.mp failed with early | ⟨_, _, early, failed⟩
    · cases early
    · cases early
      cases outcome : (spliceModules true bundle.usage bundle.modules).2.check bundle.arena with
      | ok done =>
          rw [outcome] at failed
          cases failed
      | error raised =>
          rw [outcome] at failed
          cases failed
          exact exists_of_check_eq_error outcome

/-- Giving names to bound modules never fails with an internal error. -/
theorem uniqueNames_ne_internal
    {arena : Arena}
    (bound : ∀ module ∈ bundle.modules, FinalNames.EachBound arena module.statements) :
    uniqueNames bundle ≠ .error (.internal error) after := by
  intro failed
  rw [uniqueNames, bind_eq_error] at failed
  rcases failed with early | ⟨_, _, early, failed⟩
  · cases early
  · cases early
    cases outcome : FinalNames.nameModules bundle.usage bundle.modules bundle.namer with
    | ok done state =>
        rw [outcome] at failed
        cases failed
    | error error state =>
        rw [outcome] at failed
        cases failed
        exact FinalNames.avoids_nameModules bound _ (.internal _) _ trivial outcome

/-- Collecting the version never fails with an internal error. -/
theorem collectVersion_ne_internal : collectVersion bundle ≠ .error (.internal error) after := by
  intro failed
  rw [collectVersion, bind_eq_error] at failed
  rcases failed with early | ⟨_, _, early, failed⟩
  · cases early
  · cases early
    cases outcome : commonVersion none bundle.modules with
    | ok | error =>
        rw [outcome] at failed
        cases failed

end Steps

/-! ## Programs as they are read -/

/-- A bundle that no step was taken on and a library of modules, both as they are
read: no name denotes a member of a package, and no accessor stands among the
statements. -/
structure IsRead
    (library : Library)
    (bundle : Bundle) : Prop where
  /-- There are only the variables of the stage. -/
  arena_eq : bundle.arena = bundle.stage.arena
  /-- The modules of the bundle are as they are read. -/
  modules : ∀ module ∈ bundle.modules, module.MembersSatisfy (fun _ => False) fun _ => False
  /-- The modules of the library are as they are read. -/
  library : ∀ module ∈ library.modules, module.MembersSatisfy (fun _ => False) fun _ => False

section Read

variable {bundle placed named typed swept spliced after : Bundle}

/-- A bundle as it is read is fresh. -/
theorem IsRead.isFresh (isRead : IsRead library bundle) : IsFresh library bundle :=
  ⟨isRead.arena_eq,
    fun module mem => (isRead.modules module mem).mono (fun _ => id) fun _ => False.elim,
    fun module mem => (isRead.library module mem).mono (fun _ => id) fun _ => False.elim⟩

/-- A bundle as it is read refers to no variable that does not exist, whichever
accessors are allowed. -/
theorem IsRead.isInRange
    (isRead : IsRead library bundle)
    (accessors : Accessor -> Prop) :
    IsInRange library accessors bundle :=
  ⟨isRead.isFresh.isInRange.builtins_le, isRead.isFresh.isInRange.packages,
    fun module mem =>
      (isRead.modules module mem).mono (fun _ => False.elim) fun _ => False.elim,
    fun module mem =>
      (isRead.library module mem).mono (fun _ => False.elim) fun _ => False.elim⟩

/-- The sweep of a typed program never fails with an internal error. -/
theorem IsFresh.resolveActivity_ne_internal
    (fresh : IsFresh library bundle)
    (build : Typed library bundle placed named typed) :
    resolveActivity typed ≠ .error (.internal error) after := by
  intro failed
  obtain ⟨_, isUnreachable⟩ :=
    (fresh.placed build.placing).resolveActivity_eq_error build.binding build.typing failed
  cases isUnreachable

/-- After splicing, the statements of all modules are bound. -/
theorem IsRead.eachBound
    (isRead : IsRead library bundle)
    (build : Spliced library bundle placed named typed swept spliced) :
    ∀ module ∈ spliced.modules, FinalNames.EachBound swept.arena module.statements := by
  obtain ⟨bound, _, waits⟩ :=
    (isRead.isInRange Accessor.IsNamed).areBound_swept build.toSwept
  obtain ⟨rfl, _⟩ := finalizeInjected_eq_ok build.splicing
  intro module mem stmt isStmt
  obtain ⟨original, isOriginal, _, holds⟩ := mem_spliceModules true mem
  rcases holds stmt isStmt with isOwn | isWaiting
  · obtain ⟨_, _, _, own⟩ := bound.exists_of_mem isOriginal
    obtain ⟨first, last, _, stmtBound, _⟩ := own.statements.exists_of_mem isOwn
    exact ⟨first, last, stmtBound⟩
  · obtain ⟨waiting, isPending, rfl⟩ := List.mem_map.mp isWaiting
    obtain ⟨accessor, stmt_eq, declares, _⟩ := waits.isAccessor waiting isPending
    rw [stmt_eq]
    exact ⟨.ofModule [] 0, .ofModule [] 0, ⟨_, declares.var_eq⟩, rfl⟩

end Read

/-! ## The two internal errors -/

/-- The internal errors that a build meets. -/
inductive Meets
    (library : Library)
    (bundle : Bundle) : InternalError -> Prop
  /-- A type is missing, and some module names a package, or a function in its own
  header, as a type or reads a package as a member. -/
  | missingType
      {placed named : Bundle}
      (placing : resolveDependencies library bundle = .ok () placed)
      (binding : resolveNames placed = .ok () named)
      {module : Module}
      (mem : module ∈ named.modules)
      (improper : ¬module.IsProper named.arena)
      (name : String)
      (span : Span) :
      Meets library bundle (.valueNotSet name span)
  /-- An accessor waits for a struct that no module declares outside of its
  functions. -/
  | leftOver
      {placed named typed swept : Bundle}
      (placing : resolveDependencies library bundle = .ok () placed)
      (binding : resolveNames placed = .ok () named)
      (typing : evalTypes named = .ok () typed)
      (sweeping : resolveActivity typed = .ok () swept)
      {waiting : Pending}
      (mem : waiting ∈ swept.usage.pending)
      {struct : VarId}
      (waitsFor : waiting.deps = [struct])
      (undeclared : struct ∉ structs swept.modules) :
      Meets library bundle (.unconsumedAccessor waiting.name waiting.stmt.span)

/-- A build of a program as it is read meets no other internal error. -/
theorem finalize_meets
    {library : Library}
    {bundle after : Bundle}
    {error : InternalError}
    (isRead : IsRead library bundle)
    (failed : finalize library bundle = .error (.internal error) after) :
    Meets library bundle error := by
  rcases bind_eq_error.mp failed with failed | ⟨_, placed, placing, failed⟩
  · exact absurd failed resolveDependencies_ne_internal
  rcases bind_eq_error.mp failed with failed | ⟨_, named, binding, failed⟩
  · exact absurd failed resolveNames_ne_internal
  rcases bind_eq_error.mp failed with failed | ⟨_, typed, typing, failed⟩
  · obtain ⟨arena, failed⟩ := evalTypes_eq_error failed
    have ends := ((isRead.isFresh.placed placing).goes_checkModules binding).ends
    rw [failed] at ends
    obtain ⟨⟨name, span, rfl⟩, improper⟩ := ends error rfl
    rw [not_forall₂] at improper
    obtain ⟨module, mem, improper⟩ := improper
    exact .missingType placing binding mem improper name span
  rcases bind_eq_error.mp failed with failed | ⟨_, swept, sweeping, failed⟩
  · exact absurd failed (isRead.isFresh.resolveActivity_ne_internal ⟨⟨placing, binding⟩, typing⟩)
  rcases bind_eq_error.mp failed with failed | ⟨_, spliced, splicing, failed⟩
  · obtain ⟨bound, _, waits⟩ :=
      isRead.isFresh.isInRange.areBound_swept ⟨⟨⟨placing, binding⟩, typing⟩, sweeping⟩
    have isSpliced := isSplicedFrom_spliceModules bound waits (pending_eq_nil sweeping)
    obtain ⟨waiting, stillWaits, rfl⟩ := finalizeInjected_eq_internal failed
    rw [isSpliced.left_eq] at stillWaits
    obtain ⟨mem, blocked⟩ := List.mem_filter.mp stillWaits
    obtain ⟨struct, waitsFor⟩ := (waits.isAccessor waiting mem).exists_deps_eq
      (Usage.deps_ne_nil_of_without stillWaits)
    refine .leftOver placing binding typing sweeping mem waitsFor ?_
    rw [Pending.isReleased_of_deps_eq waitsFor] at blocked
    simpa using blocked
  rcases bind_eq_error.mp failed with failed | ⟨_, unique, naming, failed⟩
  · exact absurd failed
      (uniqueNames_ne_internal (isRead.eachBound
        ⟨⟨⟨⟨placing, binding⟩, typing⟩, sweeping⟩, splicing⟩))
  rcases bind_eq_error.mp failed with failed | ⟨_, versioned, collecting, failed⟩
  · exact absurd failed collectVersion_ne_internal
  · cases failed

/-- The internal error that a build fails with. -/
def internal? : EStateM.Result Diagnostic Bundle Unit -> Option InternalError
  | .error (.internal error) _ => some error
  | _ => none

/-- A build with an internal error fails with it. -/
theorem exists_of_internal?
    {outcome : EStateM.Result Diagnostic Bundle Unit}
    (isInternal : internal? outcome = some error) :
    ∃ after, outcome = .error (.internal error) after := by
  unfold internal? at isInternal
  split at isInternal
  · next after =>
      cases isInternal
      exact ⟨after, rfl⟩
  · cases isInternal

end Bundle

namespace Sample

theorem membersSatisfy_library :
    ∀ module ∈ library.modules, module.MembersSatisfy (fun _ => False) fun _ => False := by
  decide +kernel

/-- A program that names a package as a type. -/
def packageTyped : Bundle :=
  (Bundle.empty .vertex .readable).append
    { path := "/main"
      statements :=
        [.importAll (name "light") "/light" {},
          .var { ty := name "light", name := name "x", length := none, init := none, span := {} },
          main []] }

theorem isRead_packageTyped : Bundle.IsRead library packageTyped :=
  ⟨rfl, by decide +kernel, membersSatisfy_library⟩

/-- A program that reads an array of structs of its main function at a dynamic
index. -/
def locallyTyped : Bundle :=
  (Bundle.empty .vertex .readable).append
    { path := "/main"
      statements :=
        [main
          [.struct ⟨name "Light", [⟨name "float", "power", none, {}⟩], {}⟩,
            .var
              { ty := name "Light"
                name := name "lights"
                length := some 2
                init := none
                span := {} },
            declare "int" "i" (.int 0 {}),
            .assign (read "gl_PointSize") .assign
              (.member (.getIndex (read "lights") (read "i") none {}) "power" none {}) {}]] }

theorem isRead_locallyTyped : Bundle.IsRead library locallyTyped :=
  ⟨rfl, by decide +kernel, membersSatisfy_library⟩

end Sample

namespace Bundle

/-- Both internal errors are met. -/
theorem finalize_sample_meets :
    ((∃ after, finalize Sample.library Sample.packageTyped =
          .error (.internal (.valueNotSet "light" {})) after) ∧
        Meets Sample.library Sample.packageTyped (.valueNotSet "light" {})) ∧
      (∃ after, finalize Sample.library Sample.locallyTyped =
          .error (.internal (.unconsumedAccessor "getIndex_Light_2" {})) after) ∧
        Meets Sample.library Sample.locallyTyped (.unconsumedAccessor "getIndex_Light_2" {}) := by
  have packageFails : internal? (finalize Sample.library Sample.packageTyped) =
      some (.valueNotSet "light" {}) := by
    decide +kernel
  have localFails : internal? (finalize Sample.library Sample.locallyTyped) =
      some (.unconsumedAccessor "getIndex_Light_2" {}) := by
    decide +kernel
  obtain ⟨_, packageFails⟩ := exists_of_internal? packageFails
  obtain ⟨_, localFails⟩ := exists_of_internal? localFails
  exact ⟨⟨⟨_, packageFails⟩, finalize_meets Sample.isRead_packageTyped packageFails⟩,
    ⟨_, localFails⟩, finalize_meets Sample.isRead_locallyTyped localFails⟩

end Bundle
end ModularGlsl
