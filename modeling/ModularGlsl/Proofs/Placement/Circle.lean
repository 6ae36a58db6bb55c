import Mathlib.Data.List.Chain
import ModularGlsl.Proofs.Build

/-!
# Circles of imports

Placement is stuck when every waiting module imports a path that is not placed.  A
module is known for each imported path, so such a path belongs to another waiting
module.  The walk along these imports therefore ends only where it comes back to a path
that it has been to, and what is reported is a circle of imports between waiting
modules.

The invariant of the walk is `Walk`.  It visits no path twice and only paths of waiting
modules, so that it closes before its steps are used up.
-/

namespace ModularGlsl

/-! ## Imports with their spans -/

namespace Module

/-- A statement of a module imports from a path, and stands at a span. -/
def ImportsAt
    (module : Module)
    (path : String)
    (span : Span) : Prop :=
  ∃ stmt ∈ module.statements, stmt.importPath? = some path ∧ stmt.span = span

theorem importsAt_of_mem_dependencies
    {module : Module}
    {dep : String × Span}
    (listed : dep ∈ module.dependencies) :
    module.ImportsAt dep.1 dep.2 := by
  -- The list grows along the statements, and what is added comes from the last of them.
  have folded (deps : List (String × Span)) (stmts : List Stmt)
      (found : dep ∈ stmts.foldl addDependency deps) :
      dep ∈ deps ∨ ∃ stmt ∈ stmts, stmt.importPath? = some dep.1 ∧ stmt.span = dep.2 := by
    induction stmts generalizing deps with
    | nil => exact .inl found
    | cons stmt rest ih =>
        rcases ih _ found with early | ⟨other, mem, isImport⟩
        · unfold addDependency at early
          split at early
          · next path imported =>
              split at early
              · exact .inl early
              · rcases List.mem_append.mp early with old | isNew
                · exact .inl old
                · rw [List.mem_singleton.mp isNew]
                  exact .inr ⟨stmt, List.mem_cons_self, imported, rfl⟩
          · exact .inl early
        · exact .inr ⟨other, List.mem_cons_of_mem _ mem, isImport⟩
  rcases folded [] module.statements listed with early | imported
  · cases early
  · exact imported

end Module

namespace Placement

/-! ## Circles -/

/-- A module at the first path imports the second one. -/
def Links
    (modules : List Module)
    (path next : String) : Prop :=
  ∃ module ∈ modules, module.path = path ∧ module.Imports next

/-- Modules import each other along the paths of a trace, which comes back to its first
path and to no other one.  The import that closes the circle stands at a span. -/
structure IsCircle
    (modules : List Module)
    (trace : List String)
    (span : Span) : Prop where
  /-- There is at least one import. -/
  one_lt_length : 1 < trace.length
  /-- The trace ends where it begins. -/
  head?_eq : trace.head? = trace.getLast?
  /-- Up to its end it comes to no path twice. -/
  nodup : trace.dropLast.Nodup
  /-- Each path is imported by a module at the path before it. -/
  links : trace.IsChain (Links modules)
  /-- The last import stands at the span. -/
  closes : ∃ module ∈ modules, ∃ last, trace.dropLast.getLast? = some module.path ∧
    trace.getLast? = some last ∧ module.ImportsAt last span

/-- No waiting module can be placed: each of them imports a path that is not placed, and
all such paths belong to waiting modules. -/
structure IsStuck (placed waiting : List Module) : Prop where
  /-- Some module waits. -/
  nonempty : waiting ≠ []
  /-- A waiting module imports a path that is not placed. -/
  misses : ∀ module ∈ waiting, ∃ path, module.Imports path ∧ path ∉ placed.map Module.path
  /-- A path that is imported and not placed is that of a waiting module. -/
  awaits : ∀ module ∈ waiting, ∀ path, module.Imports path -> path ∉ placed.map Module.path ->
    path ∈ waiting.map Module.path

/-! ## The walk -/

variable {placed waiting pending : List Module}

section Walk

variable {walked : List String} {span : Span} {path : String}

/-- A waiting module is found by its path. -/
theorem exists_waitingAt? (waits : path ∈ waiting.map Module.path) :
    ∃ module ∈ waiting, waitingAt? waiting path = some module ∧ module.path = path := by
  obtain ⟨module, mem, rfl⟩ := List.mem_map.mp waits
  have isFound : (waitingAt? waiting module.path).isSome := by
    rw [waitingAt?, List.find?_isSome]
    exact ⟨module, List.mem_reverse.mpr mem, by simp⟩
  obtain ⟨found, found_eq⟩ := Option.isSome_iff_exists.mp isFound
  refine ⟨found, List.mem_reverse.mp (List.mem_of_find?_eq_some found_eq), found_eq, ?_⟩
  simpa using List.find?_some found_eq

/-- From a path of a waiting module the walk goes on to another one. -/
theorem IsStuck.exists_next
    (stuck : IsStuck placed waiting)
    (waits : path ∈ waiting.map Module.path) :
    ∃ module ∈ waiting, ∃ next nextSpan, module.path = path ∧
      waitingAt? waiting path = some module ∧
      (module.dependencies.find? fun dep => !(placed.map Module.path).contains dep.1) =
        some (next, nextSpan) ∧
      next ∈ waiting.map Module.path ∧ module.ImportsAt next nextSpan := by
  obtain ⟨module, mem, found, path_eq⟩ := exists_waitingAt? waits
  obtain ⟨missed, imported, unplaced⟩ := stuck.misses module mem
  have isFound : (module.dependencies.find?
      fun dep => !(placed.map Module.path).contains dep.1).isSome := by
    obtain ⟨dep, listed, rfl⟩ :=
      List.mem_map.mp ((module.mem_paths_dependencies missed).mpr imported)
    rw [List.find?_isSome]
    exact ⟨dep, listed, by simpa using unplaced⟩
  obtain ⟨⟨next, nextSpan⟩, next_eq⟩ := Option.isSome_iff_exists.mp isFound
  have listed := List.mem_of_find?_eq_some next_eq
  have nextUnplaced : next ∉ placed.map Module.path := by simpa using List.find?_some next_eq
  have nextImported : module.Imports next :=
    (module.mem_paths_dependencies next).mp (List.mem_map_of_mem listed)
  exact ⟨module, mem, next, nextSpan, path_eq, found, next_eq,
    stuck.awaits module mem next nextImported nextUnplaced,
    Module.importsAt_of_mem_dependencies listed⟩

/-- What holds while the walk has come to a path, by an import at a span. -/
structure Walk
    (waiting : List Module)
    (walked : List String)
    (span : Span)
    (path : String) : Prop where
  /-- No path was visited twice. -/
  nodup : walked.Nodup
  /-- All paths are those of waiting modules. -/
  waits : walked ++ [path] ⊆ waiting.map Module.path
  /-- Each path is imported by a module at the path before it. -/
  links : (walked ++ [path]).IsChain (Links waiting)
  /-- The last import stands at the span. -/
  arrives : ∀ last ∈ walked.getLast?, ∃ module ∈ waiting, module.path = last ∧
    module.ImportsAt path span

/-- The walk begins at a waiting module. -/
theorem Walk.start (waits : path ∈ waiting.map Module.path) :
    Walk waiting [] span path where
  nodup := List.nodup_nil
  waits := by simpa using waits
  links := .singleton path
  arrives := by simp

section

variable (walk : Walk waiting walked span path)
include walk

theorem Walk.length_le :
    walked.length ≤ waiting.length := by
  have included : walked ⊆ waiting.map Module.path :=
    fun stop visited => walk.waits (List.mem_append_left _ visited)
  simpa using (walk.nodup.subperm included).length_le

theorem Walk.step
    (isNew : path ∉ walked)
    {module : Module}
    (mem : module ∈ waiting)
    (path_eq : module.path = path)
    {next : String}
    {nextSpan : Span}
    (imported : module.ImportsAt next nextSpan)
    (nextWaits : next ∈ waiting.map Module.path) :
    Walk waiting (walked ++ [path]) nextSpan next where
  nodup := by
    rw [List.nodup_append]
    refine ⟨walk.nodup, List.nodup_singleton _, fun stop visited other isPath same => ?_⟩
    rw [List.mem_singleton.mp isPath] at same
    exact isNew (same ▸ visited)
  waits := by
    apply List.append_subset.mpr
    exact ⟨walk.waits, by simpa using nextWaits⟩
  links := by
    rw [List.isChain_append]
    refine ⟨walk.links, .singleton next, fun last isLast first isFirst => ?_⟩
    obtain rfl : path = last := by simpa using isLast
    obtain rfl : next = first := by simpa using isFirst
    obtain ⟨stmt, isStmt, isImport, _⟩ := imported
    exact ⟨module, mem, path_eq, stmt, isStmt, isImport⟩
  arrives last isLast := by
    obtain rfl : path = last := by simpa using isLast
    exact ⟨module, mem, path_eq, imported⟩

/-- A walk that comes to a path again closes a circle. -/
theorem Walk.isCircle (visited : path ∈ walked) :
    IsCircle waiting (walked.dropWhile (· != path) ++ [path]) span := by
  -- What is dropped stands before the first visit of the path.
  obtain ⟨before, after, rfl, isFirst⟩ := List.eq_append_cons_of_mem visited
  have dropped : (before ++ path :: after).dropWhile (· != path) = path :: after := by
    rw [List.dropWhile_append_of_pos]
    · simp
    · intro stop isBefore
      rw [bne_iff_ne]
      rintro rfl
      exact isFirst isBefore
  have links := walk.links
  rw [List.append_assoc] at links
  rw [dropped]
  constructor
  case one_lt_length => simp
  case head?_eq => rw [List.getLast?_concat, List.cons_append, List.head?_cons]
  case nodup =>
    rw [List.dropLast_concat]
    exact (List.nodup_append.mp walk.nodup).2.1
  case links => exact (List.isChain_append.mp links).2.1
  case closes =>
    rw [List.dropLast_concat]
    have last_eq := List.getLast?_append_cons before path after
    obtain ⟨last, isLast⟩ : ∃ last, (path :: after).getLast? = some last :=
      ⟨_, List.getLast?_eq_some_getLast (List.cons_ne_nil _ _)⟩
    obtain ⟨module, mem, rfl, imported⟩ := walk.arrives last (last_eq.trans isLast)
    exact ⟨module, mem, path, isLast, List.getLast?_concat, imported⟩

end

/-- With enough steps the walk closes a circle, and more steps change nothing. -/
theorem followImports_isCircle
    (stuck : IsStuck placed waiting)
    (steps : Nat)
    (walk : Walk waiting walked span path)
    (enough : waiting.length < steps + walked.length) :
    ∃ trace last, IsCircle waiting trace last ∧ ∀ extra,
      followImports waiting (placed.map Module.path) (steps + extra) walked span path =
        (trace, last) := by
  induction steps generalizing walked span path with
  | zero =>
      have bounded := walk.length_le
      omega
  | succ steps ih =>
      by_cases visited : path ∈ walked
      · refine ⟨_, _, walk.isCircle visited, fun extra => ?_⟩
        rw [Nat.add_right_comm, followImports, if_pos (by simpa using visited)]
      · have waits : path ∈ waiting.map Module.path := walk.waits (by simp)
        obtain ⟨module, mem, next, nextSpan, path_eq, found, next_eq, nextWaits, imported⟩ :=
          stuck.exists_next waits
        obtain ⟨_, _, nextFound, _⟩ := exists_waitingAt? nextWaits
        have longer : waiting.length < steps + (walked ++ [path]).length := by
          simp only [List.length_append, List.length_singleton]
          omega
        obtain ⟨trace, last, isCircle, run⟩ := ih
          (walk.step visited mem path_eq imported nextWaits) longer
        refine ⟨trace, last, isCircle, fun extra => ?_⟩
        rw [Nat.add_right_comm, followImports, if_neg (by simpa using visited)]
        simp only [found, next_eq, nextFound]
        exact run extra

end Walk

/-! ## Stuck placement -/

/-- All imports of the modules are paths of modules. -/
def IsClosed (modules : List Module) : Prop :=
  ∀ module ∈ modules, ∀ path, module.Imports path -> path ∈ modules.map Module.path

/-- The modules of a program import no others. -/
theorem LoadedFor.isClosed
    {library : Library}
    {appended loaded : List Module}
    (loadedFor : LoadedFor library appended loaded) :
    IsClosed (appended ++ loaded) := by
  intro module mem path imported
  have reached : Reached library appended path := by
    rcases List.mem_append.mp mem with isAppended | isLoaded
    · exact .direct isAppended imported
    · obtain ⟨through, fresh⟩ :=
        (loadedFor.mem_paths module.path).mp (List.mem_map_of_mem isLoaded)
      exact .through through fresh (loadedFor.get? module isLoaded) imported
  rw [List.map_append, List.mem_append]
  by_cases isAppended : path ∈ appended.map Module.path
  · exact .inl isAppended
  · exact .inr ((loadedFor.mem_paths path).mpr ⟨reached, isAppended⟩)

/-- A round that places nothing is stuck. -/
theorem isStuck_of_placeReady
    (closed : IsClosed (placed ++ pending))
    (nonempty : pending ≠ [])
    (stuck : (placeReady (placed.map Module.path) pending).1 = []) :
    IsStuck placed (placeReady (placed.map Module.path) pending).2 := by
  have permuted := placeReady_perm (placed.map Module.path) pending
  rw [stuck, List.nil_append] at permuted
  constructor
  case nonempty =>
    intro empty
    rw [empty] at permuted
    exact nonempty permuted.symm.eq_nil
  case misses =>
    intro module waits
    have notReady := not_isReady_of_placeReady_eq_nil stuck module (permuted.mem_iff.mp waits)
    by_contra none
    push Not at none
    rw [(isReady_iff _ _).mpr none] at notReady
    cases notReady
  case awaits =>
    intro module waits path imported unplaced
    have known := closed module (List.mem_append_right _ (permuted.mem_iff.mp waits)) path imported
    rw [List.map_append, List.mem_append] at known
    exact (permuted.map Module.path).mem_iff.mpr (known.resolve_left unplaced)

/-- Rounds of placement fail where they are stuck, after modules in order. -/
theorem exists_isStuck_of_placeAll
    (rounds : Nat)
    (ordered : OrderedAfter [] placed)
    (closed : IsClosed (placed ++ pending))
    {error : AssemblyError}
    (failed : placeAll rounds placed pending = .error error) :
    ∃ done waiting, (done ++ waiting).Perm (placed ++ pending) ∧ OrderedAfter [] done ∧
      IsStuck done waiting ∧ error = circle waiting (done.map Module.path) := by
  induction rounds generalizing placed pending with
  | zero => cases failed
  | succ rounds ih =>
      have permuted := (placeReady_perm (placed.map Module.path) pending).append_left placed
      unfold placeAll at failed
      split at failed
      · cases failed
      · next nonempty =>
          rw [List.isEmpty_iff] at nonempty
          dsimp only at failed
          split at failed
          · next stuck =>
              rw [List.isEmpty_iff] at stuck
              cases failed
              rw [stuck, List.nil_append] at permuted
              exact ⟨placed, _, permuted, ordered, isStuck_of_placeReady closed nonempty stuck, rfl⟩
          · rw [← List.append_assoc] at permuted
            have nextOrdered := ordered.append
              (by simpa using placeReady_ordered (placed.map Module.path) pending)
            have nextClosed : IsClosed (placed ++ (placeReady (placed.map Module.path) pending).1 ++
                (placeReady (placed.map Module.path) pending).2) := by
              intro module mem path imported
              rw [(permuted.map Module.path).mem_iff]
              exact closed module (permuted.mem_iff.mp mem) path imported
            obtain ⟨done, waiting, donePermuted, rest⟩ :=
              ih nextOrdered nextClosed failed
            exact ⟨done, waiting, donePermuted.trans permuted, rest⟩

theorem IsStuck.circle_eq (stuck : IsStuck placed waiting) :
    ∃ first rest trace span, waiting = first :: rest ∧ IsCircle waiting trace span ∧
      circle waiting (placed.map Module.path) = .circularDependency trace span ∧
      ∀ extra, followImports waiting (placed.map Module.path) (waiting.length + 1 + extra) [] {}
        first.path = (trace, span) := by
  obtain ⟨first, rest, rfl⟩ := List.exists_cons_of_ne_nil stuck.nonempty
  have walk : Walk (first :: rest) [] {} first.path := .start (by simp)
  obtain ⟨trace, span, isCircle, run⟩ :=
    followImports_isCircle stuck ((first :: rest).length + 1) walk (by simp)
  refine ⟨first, rest, trace, span, rfl, isCircle, ?_, run⟩
  have walked := run 0
  simp only [circle, walked]

end Placement

/-! ## What is reported -/

namespace Bundle

open Placement

/-- A circle that is reported is a circle of imports between modules that are not
placed.  They are what is left of the program when as many modules as possible stand in
order.  The walk that finds the circle begins at the first of them, closes the circle
however many steps it is given, and the text of the diagnostic lists its paths. -/
theorem resolveDependencies_reportsCircle
    {library : Library}
    {bundle after : Bundle}
    {trace : List String}
    {span : Span}
    (failed : resolveDependencies library bundle =
      .error (.assembly (.circularDependency trace span)) after) :
    ∃ loaded placed first rest, LoadedFor library bundle.modules loaded ∧
      (placed ++ first :: rest).Perm (bundle.modules ++ loaded) ∧
      Ordered placed ∧ IsStuck placed (first :: rest) ∧
      IsCircle (first :: rest) trace span ∧
      (∀ extra, followImports (first :: rest) (placed.map Module.path)
        ((first :: rest).length + 1 + extra) [] {} first.path = (trace, span)) ∧
      (Diagnostic.assembly (.circularDependency trace span)).message =
        "circular dependency found:" ++ String.join (trace.map fun path => "\n -> " ++ path) := by
  rw [resolveDependencies_apply] at failed
  have sorted := sortByPath_perm bundle.modules
  rcases discover_spec library (sortByPath bundle.modules) with
    ⟨loaded, discovered, loadedFor⟩ | ⟨⟨_, _, _, missing⟩, _⟩
  · have placing : place library bundle.modules =
        placeAll (sortByPath bundle.modules ++ loaded).length []
          (sortByPath bundle.modules ++ loaded) := by
      simp [place, discovered, bind, Except.bind]
    rw [placing] at failed
    split at failed
    · cases failed
    · next error placeFailed =>
        cases failed
        have start : OrderedAfter [] [] := trivial
        obtain ⟨placed, waiting, permuted, ordered, stuck, reported⟩ :=
          exists_isStuck_of_placeAll _ start loadedFor.isClosed placeFailed
        obtain ⟨first, rest, cycle, last, rfl, isCircle, circle_eq, run⟩ := stuck.circle_eq
        cases reported.trans circle_eq
        refine ⟨loaded, placed, first, rest, loadedFor.perm sorted, ?_, ?_, stuck, isCircle, run, rfl⟩
        · exact permuted.trans (sorted.append_right loaded)
        · exact (ordered_iff placed).mpr ordered
  · have placing : place library bundle.modules = discover library (sortByPath bundle.modules) := by
      simp [place, missing, bind, Except.bind]
    rw [placing, missing] at failed
    cases failed

/-- The circle that a step reports. -/
def circle? : EStateM.Result Diagnostic Bundle Unit -> Option (List String × Span)
  | .error (.assembly (.circularDependency trace span)) _ => some (trace, span)
  | _ => none

/-- A circle that is found in the outcome of a step was reported. -/
theorem eq_error_of_circle?
    {outcome : EStateM.Result Diagnostic Bundle Unit}
    {trace : List String}
    {span : Span}
    (found : circle? outcome = some (trace, span)) :
    ∃ after, outcome = .error (.assembly (.circularDependency trace span)) after := by
  unfold circle? at found
  split at found
  · cases found
    exact ⟨_, rfl⟩
  · cases found

end Bundle

namespace Sample

/-- A module that imports from two paths. -/
def borrower
    (own first second : String)
    (span : Span) : Module :=
  { path := own
    statements :=
      [.importAll (name "first") first {}, .reexport "unit" "unit" second span] }

/-- Two modules that import each other, and one that both import. -/
def entangled : Library :=
  ⟨[{ path := "/base", statements := [] }, borrower "/left" "/base" "/right" ⟨1, 2, 1, 9⟩,
    borrower "/right" "/base" "/left" ⟨2, 2, 1, 9⟩]⟩

/-- A program that imports one of two modules that import each other. -/
def entangling : Bundle :=
  (Bundle.empty .vertex .readable).append (borrower "/main" "/base" "/right" ⟨0, 2, 1, 9⟩)

end Sample

namespace Bundle

open Placement

/-- The circle begins after the first waiting module, which is not on it. -/
theorem resolveDependencies_entangling_reportsCircle :
    (∃ after, resolveDependencies Sample.entangled Sample.entangling =
        .error (.assembly (.circularDependency ["/right", "/left", "/right"] ⟨1, 2, 1, 9⟩)) after) ∧
      ∃ loaded placed first rest, LoadedFor Sample.entangled Sample.entangling.modules loaded ∧
        (placed ++ first :: rest).Perm (Sample.entangling.modules ++ loaded) ∧
        Ordered placed ∧ IsStuck placed (first :: rest) ∧
        IsCircle (first :: rest) ["/right", "/left", "/right"] ⟨1, 2, 1, 9⟩ := by
  have found : circle? (resolveDependencies Sample.entangled Sample.entangling) =
      some (["/right", "/left", "/right"], ⟨1, 2, 1, 9⟩) := by
    decide +kernel
  obtain ⟨after, failed⟩ := eq_error_of_circle? found
  obtain ⟨loaded, placed, first, rest, loadedFor, permuted, ordered, stuck, isCircle, _⟩ :=
    resolveDependencies_reportsCircle failed
  exact ⟨⟨after, failed⟩, loaded, placed, first, rest, loadedFor, permuted, ordered, stuck,
    isCircle⟩

end Bundle

end ModularGlsl
