import Mathlib.Data.List.Sort
import Mathlib.Data.String.Basic
import ModularGlsl.Proofs.Build

/-!
# Order of appended modules

The first step of a build sorts the appended modules by their paths before it looks at
anything else.  Modules with different paths have one sorted order only, so nothing that
follows depends on the order in which they were appended: neither the modules that are
loaded, nor the missing module or the circle that is reported, nor any later step.
-/

namespace ModularGlsl

namespace Placement

/-- A module whose path does not come later. -/
abbrev Precedes (first second : Module) : Prop :=
  first.path ≤ second.path

/-- Putting a module before those that it precedes. -/
theorem insertByPath_eq_orderedInsert
    (module : Module)
    (modules : List Module) :
    insertByPath module modules = modules.orderedInsert Precedes module := by
  induction modules with
  | nil => rfl
  | cons other rest ih =>
      rw [insertByPath, List.orderedInsert_cons, ih]
      by_cases later : other.path < module.path
      · rw [if_pos later, if_neg (not_le_of_gt later)]
      · rw [if_neg later, if_pos (le_of_not_gt later)]

/-- Modules are sorted by insertion. -/
theorem sortByPath_eq_insertionSort (modules : List Module) :
    sortByPath modules = modules.insertionSort Precedes := by
  exact congrArg (fun insert => modules.foldr insert [])
    (funext₂ insertByPath_eq_orderedInsert)

/-- The paths of sorted modules ascend. -/
theorem pairwise_sortByPath (modules : List Module) :
    (sortByPath modules).Pairwise Precedes := by
  rw [sortByPath_eq_insertionSort]
  exact List.pairwise_insertionSort Precedes modules

/-- Modules with different paths have one sorted order. -/
theorem sortByPath_eq_of_perm
    {modules others : List Module}
    (permuted : modules.Perm others)
    (distinct : (modules.map Module.path).Nodup) :
    sortByPath modules = sortByPath others := by
  have sorted := (sortByPath_perm modules).trans (permuted.trans (sortByPath_perm others).symm)
  refine sorted.eq_of_pairwise (fun first second isFirst isSecond early late => ?_)
    (pairwise_sortByPath modules) (pairwise_sortByPath others)
  have isOwn := (sortByPath_perm modules).mem_iff.mp isFirst
  have isOther := permuted.mem_iff.mpr ((sortByPath_perm others).mem_iff.mp isSecond)
  exact List.inj_on_of_nodup_map distinct isOwn isOther (le_antisymm early late)

end Placement

namespace Bundle

theorem foldl_append
    (bundle : Bundle)
    (modules : List Module) :
    modules.foldl append bundle =
      { bundle with
        modules := bundle.modules ++ modules.map fun module => { module with entry := true } } := by
  induction modules generalizing bundle with
  | nil => simp
  | cons module rest ih =>
      rw [List.foldl_cons, ih]
      simp [append]

/-- The first step of a build starts from the sorted modules. -/
theorem resolveDependencies_eq_of_sortByPath
    (library : Library)
    (bundle : Bundle)
    {modules others : List Module}
    (sorted : Placement.sortByPath modules = Placement.sortByPath others) :
    resolveDependencies library { bundle with modules := modules } =
      resolveDependencies library { bundle with modules := others } := by
  have placed : Placement.place library modules = Placement.place library others := by
    rw [Placement.place, Placement.place, sorted]
  rw [resolveDependencies_apply, resolveDependencies_apply, placed]

theorem bind_apply_eq
    {first : Step Unit}
    {before other : Bundle}
    (same : first before = first other)
    (next : Unit -> Step Unit) :
    (first >>= next) before = (first >>= next) other := by
  change EStateM.bind first next before = EStateM.bind first next other
  unfold EStateM.bind
  rw [same]

/-- A build does not depend on the order in which modules with different paths were
appended.  It fails in the same way, or it succeeds with the same bundle: the same modules
in the same order, the same variables under the same final names, and the same version,
hence the same varyings and the same text for all spacings. -/
theorem finalize_eq_of_perm
    (stage : Stage)
    (naming : Naming)
    (library : Library)
    {modules others : List Module}
    (permuted : modules.Perm others)
    (distinct : (modules.map Module.path).Nodup) :
    finalize library (modules.foldl append (empty stage naming)) =
      finalize library (others.foldl append (empty stage naming)) := by
  let asEntry (module : Module) : Module := { module with entry := true }
  have distinctEntries : ((modules.map asEntry).map Module.path).Nodup := by
    rw [List.map_map]
    exact distinct
  have sorted := Placement.sortByPath_eq_of_perm (permuted.map asEntry) distinctEntries
  have first := resolveDependencies_eq_of_sortByPath library (empty stage naming) sorted
  rw [foldl_append, foldl_append]
  exact bind_apply_eq first _

end Bundle

namespace Sample

/-- A module that exports its main function. -/
def shared : Module :=
  { path := "/shared"
    statements :=
      [.importAll (name "light") "/light" {},
        main
          [.assign (read "gl_PointSize") .assign
            (.call (.member (read "light") "scale" none {}) [.float ⟨0x3ff0000000000000⟩ {}] {})
            {}],
        .exportName (name "main") "main" {}] }

/-- A module that imports its main function. -/
def borrowing : Module :=
  { path := "/borrowing"
    statements := [.importName "main" (name "main") "/shared" {}] }

end Sample

namespace Bundle

/-- Two modules with one main function, appended in either order. -/
theorem finalize_shared_eq_of_perm :
    ∃ result,
      finalize Sample.library
          ([Sample.borrowing, Sample.shared].foldl append (empty .vertex .minify)) =
        .ok () result ∧
      finalize Sample.library
          ([Sample.shared, Sample.borrowing].foldl append (empty .vertex .minify)) =
        .ok () result ∧
      result.modules.map Module.path = ["/light", "/shared", "/borrowing"] := by
  have passed : passes (fun result => decide
      (result.modules.map Module.path = ["/light", "/shared", "/borrowing"]))
      (finalize Sample.library
        ([Sample.borrowing, Sample.shared].foldl append (empty .vertex .minify))) = true := by
    decide +kernel
  obtain ⟨result, run, paths⟩ := exists_of_passes passed
  refine ⟨result, run, ?_, of_decide_eq_true paths⟩
  rw [← finalize_eq_of_perm .vertex .minify Sample.library (.swap _ _ _) (by decide), run]

end Bundle

end ModularGlsl
