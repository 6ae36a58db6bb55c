import Mathlib.Data.List.Nodup
import Mathlib.Data.List.Perm.Subperm
import ModularGlsl.Bundle
import ModularGlsl.Proofs.Binding.Failure

/-!
# Correctness of placement

Which modules belong to a program is said by a closure: the paths that are
imported from the appended modules, directly or through modules of the library.
Discovery finds exactly these or reports a path that is missing, and the rounds
of placement find an order of all modules whenever there is one.

Neither discovery nor placement runs out of steps.  The measure of discovery is
the length of the queue together with the number of modules of the library that
are not loaded; a round of placement that does not get stuck places a module.
-/

namespace ModularGlsl

/-- A statement of a module imports from a path. -/
def Module.Imports
    (module : Module)
    (path : String) : Prop :=
  ∃ stmt ∈ module.statements, stmt.importPath? = some path

namespace Module

theorem mem_paths_addDependency
    (deps : List (String × Span))
    (stmt : Stmt)
    (path : String) :
    path ∈ (addDependency deps stmt).map Prod.fst ↔
      path ∈ deps.map Prod.fst ∨ stmt.importPath? = some path := by
  unfold addDependency
  cases imported : stmt.importPath? with
  | none => simp
  | some other =>
      dsimp only
      split
      · next listed =>
          have mem : other ∈ deps.map Prod.fst := by simpa using listed
          constructor
          · exact .inl
          · rintro (old | same)
            · exact old
            · cases same
              exact mem
      · simp [eq_comm]

theorem mem_paths_dependencies
    (module : Module)
    (path : String) :
    path ∈ module.dependencies.map Prod.fst ↔ module.Imports path := by
  have folded (deps : List (String × Span)) (stmts : List Stmt) :
      path ∈ (stmts.foldl addDependency deps).map Prod.fst ↔
        path ∈ deps.map Prod.fst ∨ ∃ stmt ∈ stmts, stmt.importPath? = some path := by
    induction stmts generalizing deps with
    | nil => simp
    | cons stmt rest ih =>
        rw [List.foldl_cons, ih, mem_paths_addDependency]
        simp [or_assoc]
  rw [dependencies, folded]
  simp [Imports]

end Module

namespace Placement

/-! ## What is to be placed -/

/-- The paths that are imported from the appended modules, directly or through
modules of the library. -/
inductive Reached
    (library : Library)
    (appended : List Module) : String -> Prop
  | direct {module : Module} {path : String} :
      module ∈ appended ->
      module.Imports path ->
      Reached library appended path
  | through {origin path : String} {module : Module} :
      Reached library appended origin ->
      origin ∉ appended.map Module.path ->
      library.get? origin = some module ->
      module.Imports path ->
      Reached library appended path

/-- Some imported path is neither that of an appended module nor in the
library. -/
def Missing
    (library : Library)
    (appended : List Module) : Prop :=
  ∃ path, Reached library appended path ∧ path ∉ appended.map Module.path ∧
    library.get? path = none

/-- The loaded modules are those of the library at the imported paths that were
not appended, one for each path. -/
structure LoadedFor
    (library : Library)
    (appended loaded : List Module) : Prop where
  /-- No path is loaded twice. -/
  nodup : (loaded.map Module.path).Nodup
  /-- The loaded paths are the imported ones that were not appended. -/
  mem_paths : ∀ path, path ∈ loaded.map Module.path ↔
    Reached library appended path ∧ path ∉ appended.map Module.path
  /-- A loaded module is that of the library. -/
  get? : ∀ module ∈ loaded, library.get? module.path = some module

/-- Every module comes after modules at all the paths that it imports. -/
def Ordered (order : List Module) : Prop :=
  ∀ before module after, order = before ++ module :: after ->
    ∀ path, module.Imports path -> path ∈ before.map Module.path

/-- Every module comes after its imports, when modules at some paths come
before all of them. -/
def OrderedAfter : List String -> List Module -> Prop
  | _, [] => True
  | earlier, module :: rest =>
      (∀ path, module.Imports path -> path ∈ earlier) ∧
        OrderedAfter (module.path :: earlier) rest

variable {earlier : List String} {order entries loaded placed pending left right : List Module}

theorem OrderedAfter.mono
    {more : List String}
    (included : earlier ⊆ more)
    (ordered : OrderedAfter earlier order) :
    OrderedAfter more order := by
  induction order generalizing earlier more with
  | nil => trivial
  | cons module rest ih =>
      refine ⟨fun path imported => included (ordered.1 path imported), ?_⟩
      exact ih (List.cons_subset_cons _ included) ordered.2

theorem OrderedAfter.append
    {first second : List Module}
    (firstOrdered : OrderedAfter earlier first)
    (secondOrdered : OrderedAfter (first.map Module.path ++ earlier) second) :
    OrderedAfter earlier (first ++ second) := by
  induction first generalizing earlier with
  | nil => exact secondOrdered
  | cons module rest ih =>
      refine ⟨firstOrdered.1, ih firstOrdered.2 (secondOrdered.mono ?_)⟩
      intro path mem
      simp only [List.map_cons, List.cons_append, List.mem_cons, List.mem_append] at mem ⊢
      tauto

theorem orderedAfter_iff {order : List Module} :
    OrderedAfter earlier order ↔
      ∀ before module after, order = before ++ module :: after ->
        ∀ path, module.Imports path -> path ∈ earlier ∨ path ∈ before.map Module.path := by
  induction order generalizing earlier with
  | nil => simp [OrderedAfter]
  | cons head rest ih =>
      rw [OrderedAfter, ih]
      constructor
      · rintro ⟨first, others⟩ before module after split path imported
        cases before with
        | nil =>
            obtain ⟨rfl, rfl⟩ : head = module ∧ rest = after := by simpa using split
            exact .inl (first path imported)
        | cons other before =>
            obtain ⟨rfl, restSplit⟩ : head = other ∧ rest = before ++ module :: after := by
              simpa using split
            have placed := others before module after restSplit path imported
            simp only [List.mem_cons, List.map_cons] at placed ⊢
            tauto
      · intro all
        constructor
        · intro path imported
          simpa using all [] head rest rfl path imported
        · intro before module after split path imported
          have placed := all (head :: before) module after (by simp [split]) path imported
          simp only [List.mem_cons, List.map_cons] at placed ⊢
          tauto

theorem ordered_iff (order : List Module) :
    Ordered order ↔ OrderedAfter [] order := by
  rw [orderedAfter_iff]
  simp [Ordered]

/-! ## Sorting -/

/-- Insertion by path adds one module. -/
theorem insertByPath_perm
    (module : Module)
    (modules : List Module) :
    (insertByPath module modules).Perm (module :: modules) := by
  induction modules with
  | nil => exact .refl _
  | cons other rest ih =>
      unfold insertByPath
      split
      · exact (ih.cons other).trans (.swap module other rest)
      · exact .refl _

/-- Sorting by path only changes the order. -/
theorem sortByPath_perm (modules : List Module) :
    (sortByPath modules).Perm modules := by
  induction modules with
  | nil => exact .refl _
  | cons module rest ih =>
      exact (insertByPath_perm module _).trans (ih.cons module)

/-! ## Discovery -/

variable {library : Library} {discovery : Discovery} {path : String} {module : Module}

theorem mem_of_get?_eq_some (found : library.get? path = some module) :
    module ∈ library.modules ∧ module.path = path := by
  refine ⟨List.mem_of_find?_eq_some found, ?_⟩
  simpa using List.find?_some found

/-- What holds while modules are discovered. -/
structure Discovery.Sound
    (library : Library)
    (entries : List Module)
    (discovery : Discovery) : Prop where
  /-- The known paths are those of the appended and of the loaded modules. -/
  mem_known : ∀ path, path ∈ discovery.known ↔
    path ∈ entries.map Module.path ∨ path ∈ discovery.loaded.map Module.path
  /-- No path is loaded twice. -/
  nodup : (discovery.loaded.map Module.path).Nodup
  /-- Loaded modules come from the library, are imported and were not appended. -/
  loaded : ∀ module ∈ discovery.loaded,
    library.get? module.path = some module ∧ Reached library entries module.path ∧
      module.path ∉ entries.map Module.path
  /-- Only modules of the program are to be visited. -/
  queue : ∀ module ∈ discovery.queue, module ∈ entries ∨ module ∈ discovery.loaded

/-- What an import of a module of the program leads to is reached. -/
theorem Discovery.Sound.reached
    (sound : discovery.Sound library entries)
    (belongs : module ∈ entries ∨ module ∈ discovery.loaded)
    (imported : module.Imports path) :
    Reached library entries path := by
  rcases belongs with appended | loaded
  · exact .direct appended imported
  · obtain ⟨found, reached, fresh⟩ := sound.loaded module loaded
    exact .through reached fresh found imported

theorem Discovery.Sound.loaded_length_le (sound : discovery.Sound library entries) :
    discovery.loaded.length ≤ library.size := by
  have distinct : discovery.loaded.Nodup := List.Nodup.of_map _ sound.nodup
  have included : discovery.loaded ⊆ library.modules := by
    intro module loaded
    exact (mem_of_get?_eq_some (sound.loaded module loaded).1).1
  exact (distinct.subperm included).length_le

/-- What a step of discovery adds to what was discovered before it. -/
structure Discovery.Grows (before after : Discovery) : Prop where
  /-- Known paths stay known. -/
  known : before.known ⊆ after.known
  /-- Loaded modules stay loaded. -/
  loaded : before.loaded ⊆ after.loaded
  /-- Modules that wait for a visit keep waiting. -/
  queue : before.queue ⊆ after.queue
  /-- A module that is loaded is visited later. -/
  fresh : ∀ module ∈ after.loaded, module ∈ before.loaded ∨ module ∈ after.queue
  /-- Every loaded module adds one visit. -/
  length : after.queue.length + before.loaded.length =
    before.queue.length + after.loaded.length

theorem Discovery.Grows.refl (discovery : Discovery) : discovery.Grows discovery where
  known := List.Subset.refl _
  loaded := List.Subset.refl _
  queue := List.Subset.refl _
  fresh _ loaded := .inl loaded
  length := rfl

theorem Discovery.Grows.trans
    {first second third : Discovery}
    (early : first.Grows second)
    (late : second.Grows third) :
    first.Grows third where
  known := List.Subset.trans early.known late.known
  loaded := List.Subset.trans early.loaded late.loaded
  queue := List.Subset.trans early.queue late.queue
  fresh module loaded := by
    rcases late.fresh module loaded with old | waiting
    · exact (early.fresh module old).imp id fun waiting => late.queue waiting
    · exact .inr waiting
  length := by
    have earlyLength := early.length
    have lateLength := late.length
    omega

/-- One module is loaded. -/
def Discovery.load
    (discovery : Discovery)
    (path : String)
    (module : Module) : Discovery where
  known := path :: discovery.known
  loaded := insertByPath module discovery.loaded
  queue := discovery.queue ++ [module]

/-- Loading adds to what was discovered. -/
theorem Discovery.grows_load
    (discovery : Discovery)
    (path : String)
    (module : Module) :
    discovery.Grows (discovery.load path module) where
  known := List.subset_cons_self _ _
  loaded other mem := by
    rw [load, (insertByPath_perm module _).mem_iff]
    exact List.mem_cons_of_mem _ mem
  queue := List.subset_append_left _ _
  fresh other mem := by
    rw [load, (insertByPath_perm module _).mem_iff, List.mem_cons] at mem
    rcases mem with same | old
    · exact .inr (by simp [load, same])
    · exact .inl old
  length := by
    have inserted := (insertByPath_perm module discovery.loaded).length_eq
    simp only [load, List.length_append, List.length_cons, List.length_nil] at inserted ⊢
    omega

/-- Loading an imported module that is not known keeps the discovery sound. -/
theorem Discovery.Sound.load
    (sound : discovery.Sound library entries)
    (reached : Reached library entries path)
    (unknown : path ∉ discovery.known)
    (found : library.get? path = some module) :
    (discovery.load path module).Sound library entries := by
  obtain ⟨_, rfl⟩ := mem_of_get?_eq_some found
  have inserted := insertByPath_perm module discovery.loaded
  have absent := mt (sound.mem_known module.path).mpr unknown
  rw [not_or] at absent
  constructor
  · intro other
    rw [Discovery.load, List.mem_cons, sound.mem_known, (inserted.map _).mem_iff, List.map_cons,
      List.mem_cons]
    tauto
  · rw [Discovery.load, (inserted.map _).nodup_iff, List.map_cons, List.nodup_cons]
    exact ⟨absent.2, sound.nodup⟩
  · intro other mem
    rw [Discovery.load, inserted.mem_iff, List.mem_cons] at mem
    rcases mem with rfl | old
    · exact ⟨found, reached, absent.1⟩
    · exact sound.loaded other old
  · intro other waiting
    rw [Discovery.load, List.mem_append, List.mem_singleton] at waiting
    rw [Discovery.load, inserted.mem_iff, List.mem_cons]
    rcases waiting with old | rfl
    · exact (sound.queue other old).imp id .inr
    · exact .inr (.inl rfl)

/-- Loading the imports of a module either succeeds and makes all of them
known, or a missing path is reported. -/
theorem loadAll_spec
    (origin : String)
    (deps : List (String × Span))
    (sound : discovery.Sound library entries)
    (reached : ∀ path ∈ deps.map Prod.fst, Reached library entries path) :
    (∃ after, loadAll library origin deps discovery = .ok after ∧
        after.Sound library entries ∧ discovery.Grows after ∧
        ∀ path ∈ deps.map Prod.fst, path ∈ after.known) ∨
      (∃ path span, loadAll library origin deps discovery = .error (.notFound path origin span)) ∧
        Missing library entries := by
  induction deps generalizing discovery with
  | nil => exact .inl ⟨discovery, rfl, sound, .refl _, by simp⟩
  | cons dep rest ih =>
      obtain ⟨path, span⟩ := dep
      simp only [List.map_cons, List.forall_mem_cons] at reached ⊢
      unfold loadAll
      by_cases known : path ∈ discovery.known
      · simp only [List.contains_iff_mem, known, if_true]
        rcases ih sound reached.2 with
          ⟨after, loaded, afterSound, grows, others⟩ | failed
        · exact .inl ⟨after, loaded, afterSound, grows, grows.known known, others⟩
        · exact .inr failed
      · simp only [List.contains_iff_mem, known, if_false]
        cases found : library.get? path with
        | none =>
            refine .inr ⟨⟨path, span, rfl⟩, path, reached.1, ?_, found⟩
            exact fun appended => known ((sound.mem_known path).mpr (.inl appended))
        | some module =>
            have loadedSound := sound.load reached.1 known found
            rcases ih loadedSound reached.2 with
              ⟨after, loaded, afterSound, grows, others⟩ | failed
            · refine .inl ⟨after, loaded, afterSound,
                (discovery.grows_load path module).trans grows, ?_, others⟩
              exact grows.known List.mem_cons_self
            · exact .inr failed

/-- Every module of the program waits for its visit or has only imports that
are known. -/
def Discovery.Visits
    (entries : List Module)
    (discovery : Discovery) : Prop :=
  ∀ module, module ∈ entries ∨ module ∈ discovery.loaded ->
    module ∈ discovery.queue ∨ ∀ path, module.Imports path -> path ∈ discovery.known

theorem Discovery.Visits.step
    {discovery after : Discovery}
    {rest : List Module}
    (visits : discovery.Visits entries)
    (waiting : discovery.queue = module :: rest)
    (grows : Discovery.Grows { discovery with queue := rest } after)
    (known : ∀ path, module.Imports path -> path ∈ after.known) :
    after.Visits entries := by
  intro other belongs
  have before : other ∈ entries ∨ other ∈ discovery.loaded ∨ other ∈ after.queue := by
    rcases belongs with appended | loaded
    · exact .inl appended
    · exact .inr (grows.fresh other loaded)
  rw [← or_assoc] at before
  rcases before with old | queued
  · rcases visits other old with queued | closed
    · rw [waiting, List.mem_cons] at queued
      rcases queued with rfl | queued
      · exact .inr known
      · exact .inl (grows.queue queued)
    · exact .inr fun path imported => grows.known (closed path imported)
  · exact .inl queued

/-- The number of visits that are left at most. -/
def Discovery.measure
    (library : Library)
    (discovery : Discovery) : Nat :=
  discovery.queue.length + (library.size - discovery.loaded.length)

/-- With enough steps, all modules are visited or a missing path is reported. -/
theorem explore_spec
    (steps : Nat)
    (sound : discovery.Sound library entries)
    (visits : discovery.Visits entries)
    (enough : discovery.measure library ≤ steps) :
    (∃ after, explore library steps discovery = .ok after ∧
        after.Sound library entries ∧ after.Visits entries ∧ after.queue = []) ∨
      (∃ path origin span,
          explore library steps discovery = .error (.notFound path origin span)) ∧
        Missing library entries := by
  induction steps generalizing discovery with
  | zero =>
      refine .inl ⟨discovery, rfl, sound, visits, ?_⟩
      apply List.eq_nil_of_length_eq_zero
      unfold Discovery.measure at enough
      omega
  | succ steps ih =>
      unfold explore
      cases waiting : discovery.queue with
      | nil => exact .inl ⟨discovery, rfl, sound, visits, waiting⟩
      | cons module rest =>
          have belongs := sound.queue module (by simp [waiting])
          have reached : ∀ path ∈ module.dependencies.map Prod.fst,
              Reached library entries path := by
            intro path listed
            exact sound.reached belongs ((module.mem_paths_dependencies path).mp listed)
          have popped : Discovery.Sound library entries { discovery with queue := rest } :=
            { sound with
              queue := fun other mem => sound.queue other (by simp [waiting, mem]) }
          rcases loadAll_spec module.path module.dependencies popped reached with
            ⟨next, loaded, nextSound, grows, known⟩ | ⟨⟨path, span, failed⟩, missing⟩
          · simp only [loaded, bind, Except.bind]
            apply ih nextSound
            · refine visits.step waiting grows fun path imported => ?_
              exact known path ((module.mem_paths_dependencies path).mpr imported)
            · have bounded := nextSound.loaded_length_le
              have lengths := grows.length
              simp only [Discovery.measure, waiting, List.length_cons] at enough lengths ⊢
              omega
          · simp only [failed, bind, Except.bind]
            exact .inr ⟨⟨path, module.path, span, rfl⟩, missing⟩

/-- Discovery that has visited all modules does not change with more steps. -/
theorem explore_add
    (library : Library)
    (steps extra : Nat)
    (discovery : Discovery)
    (ended : ∀ after, explore library steps discovery = .ok after -> after.queue = []) :
    explore library (steps + extra) discovery = explore library steps discovery := by
  induction steps generalizing discovery with
  | zero =>
      have empty : discovery.queue = [] := ended discovery rfl
      cases extra with
      | zero => rfl
      | succ extra =>
          unfold explore
          simp [empty]
  | succ steps ih =>
      rw [Nat.add_right_comm]
      unfold explore at ended ⊢
      cases waiting : discovery.queue with
      | nil => rfl
      | cons module rest =>
          simp only [waiting] at ended
          dsimp only
          cases loaded : loadAll library module.path module.dependencies
              { discovery with queue := rest } with
          | error error => rfl
          | ok next =>
              simp only [loaded, bind, Except.bind] at ended ⊢
              exact ih next ended

/-- The start of discovery. -/
def Discovery.start (entries : List Module) : Discovery where
  known := entries.map Module.path
  loaded := []
  queue := entries

/-- The start of discovery is sound. -/
theorem Discovery.sound_start
    (library : Library)
    (entries : List Module) :
    (start entries).Sound library entries where
  mem_known path := by simp [start]
  nodup := by simp [start]
  loaded := by simp [start]
  queue module mem := .inl mem

/-- At the start all modules wait for their visit. -/
theorem Discovery.visits_start (entries : List Module) :
    (start entries).Visits entries := by
  intro module belongs
  left
  simpa [start] using belongs

section

variable (sound : discovery.Sound library entries) (visits : discovery.Visits entries)
variable (empty : discovery.queue = [])
include sound visits empty

/-- All modules have been visited: all that is reached is known. -/
theorem Discovery.Sound.known_of_reached (reached : Reached library entries path) :
    path ∈ discovery.known := by
  have closed : ∀ module, module ∈ entries ∨ module ∈ discovery.loaded ->
      ∀ path, module.Imports path -> path ∈ discovery.known := by
    intro module belongs
    simpa [empty] using visits module belongs
  induction reached with
  | direct appended imported => exact closed _ (.inl appended) _ imported
  | @through origin path module _ fresh found imported ih =>
      rcases (sound.mem_known origin).mp ih with appended | loaded
      · exact absurd appended fresh
      · obtain ⟨other, mem, same⟩ := List.mem_map.mp loaded
        have own := (sound.loaded other mem).1
        rw [same, found] at own
        cases own
        exact closed module (.inr mem) path imported

/-- A discovery that has visited all modules has loaded the right ones. -/
theorem Discovery.Sound.loadedFor :
    LoadedFor library entries discovery.loaded where
  nodup := sound.nodup
  mem_paths path := by
    constructor
    · intro mem
      obtain ⟨module, loaded, rfl⟩ := List.mem_map.mp mem
      exact (sound.loaded module loaded).2
    · rintro ⟨reached, fresh⟩
      have known := sound.known_of_reached visits empty reached
      exact ((sound.mem_known path).mp known).resolve_left fresh
  get? module loaded := (sound.loaded module loaded).1

end

/-- Discovery yields the right modules or reports a missing path. -/
theorem discover_spec
    (library : Library)
    (entries : List Module) :
    (∃ loaded, discover library entries = .ok loaded ∧ LoadedFor library entries loaded) ∨
      (∃ path origin span, discover library entries = .error (.notFound path origin span)) ∧
        Missing library entries := by
  have enough : (Discovery.start entries).measure library ≤ entries.length + library.size := by
    simp [Discovery.measure, Discovery.start]
  rcases explore_spec _ (Discovery.sound_start library entries)
      (Discovery.visits_start entries) enough with
    ⟨after, explored, sound, visits, empty⟩ | ⟨⟨path, origin, span, failed⟩, missing⟩
  · refine .inl ⟨after.loaded, ?_, sound.loadedFor visits empty⟩
    rw [Discovery.start] at explored
    simp [discover, explored, bind, Except.bind, pure, Except.pure]
  · refine .inr ⟨⟨path, origin, span, ?_⟩, missing⟩
    rw [Discovery.start] at failed
    simp [discover, failed, bind, Except.bind]

/-- What is loaded for a program is not missing. -/
theorem LoadedFor.not_missing (loadedFor : LoadedFor library entries loaded) :
    ¬Missing library entries := by
  rintro ⟨path, reached, fresh, absent⟩
  obtain ⟨module, mem, rfl⟩ :=
    List.mem_map.mp ((loadedFor.mem_paths path).mpr ⟨reached, fresh⟩)
  rw [loadedFor.get? module mem] at absent
  simp at absent

/-- More steps than those of discovery change nothing. -/
theorem explore_start_add
    (library : Library)
    (entries : List Module)
    (extra : Nat) :
    explore library (entries.length + library.size + extra) (Discovery.start entries) =
      explore library (entries.length + library.size) (Discovery.start entries) := by
  apply explore_add
  intro after explored
  have enough : (Discovery.start entries).measure library ≤ entries.length + library.size := by
    simp [Discovery.measure, Discovery.start]
  rcases explore_spec _ (Discovery.sound_start library entries)
      (Discovery.visits_start entries) enough with
    ⟨other, same, _, _, empty⟩ | ⟨⟨path, origin, span, failed⟩, _⟩
  · rw [explored] at same
    cases same
    exact empty
  · rw [explored] at failed
    cases failed

/-! ## Order -/

theorem isReady_iff
    (placed : List String)
    (module : Module) :
    isReady placed module = true ↔ ∀ path, module.Imports path -> path ∈ placed := by
  simp only [isReady, List.all_eq_true, List.contains_iff_mem]
  constructor
  · intro ready path imported
    obtain ⟨dep, listed, rfl⟩ :=
      List.mem_map.mp ((module.mem_paths_dependencies path).mpr imported)
    exact ready dep listed
  · intro ready dep listed
    exact ready dep.1
      ((module.mem_paths_dependencies dep.1).mp (List.mem_map_of_mem listed))

/-- A round neither loses nor doubles a module. -/
theorem placeReady_perm
    (placed : List String)
    (pending : List Module) :
    ((placeReady placed pending).1 ++ (placeReady placed pending).2).Perm pending := by
  induction pending generalizing placed with
  | nil => exact .refl _
  | cons module rest ih =>
      unfold placeReady
      split
      · exact (ih _).cons module
      · exact List.perm_middle.trans ((ih placed).cons module)

theorem length_waiting_lt
    {placed : List String}
    (progress : (placeReady placed pending).1 ≠ []) :
    (placeReady placed pending).2.length < pending.length := by
  have lengths := (placeReady_perm placed pending).length_eq
  have positive := List.length_pos_iff.mpr progress
  rw [List.length_append] at lengths
  omega

/-- What a round places is in order. -/
theorem placeReady_ordered
    (placed : List String)
    (pending : List Module) :
    OrderedAfter placed (placeReady placed pending).1 := by
  induction pending generalizing placed with
  | nil => trivial
  | cons module rest ih =>
      unfold placeReady
      split
      · next ready => exact ⟨(isReady_iff placed module).mp ready, ih _⟩
      · exact ih placed

theorem not_isReady_of_placeReady_eq_nil
    {placed : List String}
    (stuck : (placeReady placed pending).1 = []) :
    ∀ module ∈ pending, isReady placed module = false := by
  induction pending with
  | nil => simp
  | cons module rest ih =>
      unfold placeReady at stuck
      split at stuck
      · simp at stuck
      · next waits =>
          rw [List.forall_mem_cons]
          exact ⟨by simpa using waits, ih stuck⟩

/-- As long as an order exists, some waiting module is ready. -/
theorem exists_isReady
    (permuted : order.Perm (placed ++ pending))
    (ordered : Ordered order)
    (nonempty : pending ≠ []) :
    ∃ module ∈ pending, isReady (placed.map Module.path) module = true := by
  classical
  obtain ⟨first, rest, rfl⟩ := List.exists_cons_of_ne_nil nonempty
  have waits : (order.find? fun module => decide (module ∈ first :: rest)).isSome := by
    rw [List.find?_isSome]
    exact ⟨first, permuted.mem_iff.mpr (by simp), by simp⟩
  obtain ⟨module, found⟩ := Option.isSome_iff_exists.mp waits
  obtain ⟨waiting, before, after, split, earlier⟩ := List.find?_eq_some_iff_append.mp found
  refine ⟨module, by simpa using waiting, (isReady_iff _ _).mpr fun path imported => ?_⟩
  obtain ⟨other, mem, rfl⟩ :=
    List.mem_map.mp (ordered before module after split path imported)
  have belongs : other ∈ placed ++ first :: rest :=
    permuted.mem_iff.mp (by simp [split, mem])
  have notWaiting : other ∉ first :: rest := by simpa using earlier other mem
  have placedBefore := (List.mem_append.mp belongs).resolve_right notWaiting
  exact List.mem_map_of_mem placedBefore

/-- Enough rounds place all modules in order, or there is no order and a circle
is reported. -/
theorem placeAll_spec
    (rounds : Nat)
    (ordered : OrderedAfter [] placed)
    (enough : pending.length ≤ rounds) :
    (∃ modules, placeAll rounds placed pending = .ok modules ∧
        modules.Perm (placed ++ pending) ∧ OrderedAfter [] modules) ∨
      (∃ cycle span, placeAll rounds placed pending = .error (.circularDependency cycle span)) ∧
        ¬∃ order, order.Perm (placed ++ pending) ∧ Ordered order := by
  induction rounds generalizing placed pending with
  | zero =>
      have empty : pending = [] := List.eq_nil_of_length_eq_zero (by omega)
      subst empty
      exact .inl ⟨placed, rfl, by simp, ordered⟩
  | succ rounds ih =>
      unfold placeAll
      split
      · next empty =>
          rw [List.isEmpty_iff] at empty
          subst empty
          exact .inl ⟨placed, rfl, by simp, ordered⟩
      · next nonempty =>
          rw [List.isEmpty_iff] at nonempty
          have permuted := placeReady_perm (placed.map Module.path) pending
          have readyOrdered := placeReady_ordered (placed.map Module.path) pending
          dsimp only
          split
          · next stuck =>
              rw [List.isEmpty_iff] at stuck
              refine .inr ⟨?_, ?_⟩
              · unfold circle
                split <;> exact ⟨_, _, rfl⟩
              · rintro ⟨order, orderPermuted, orderOrdered⟩
                obtain ⟨module, waiting, ready⟩ :=
                  exists_isReady orderPermuted orderOrdered nonempty
                rw [not_isReady_of_placeReady_eq_nil stuck module waiting] at ready
                simp at ready
          · next progress =>
              rw [List.isEmpty_iff] at progress
              have fewer := length_waiting_lt progress
              have nextOrdered : OrderedAfter []
                  (placed ++ (placeReady (placed.map Module.path) pending).1) :=
                ordered.append (by simpa using readyOrdered)
              have samePermuted := permuted.append_left placed
              rw [← List.append_assoc] at samePermuted
              rcases ih nextOrdered 
                  (Nat.le_of_lt_succ (Nat.lt_of_lt_of_le fewer enough)) with
                ⟨modules, run, modulesPermuted, modulesOrdered⟩ | ⟨failed, impossible⟩
              · exact .inl ⟨modules, run, modulesPermuted.trans samePermuted, modulesOrdered⟩
              · refine .inr ⟨failed, ?_⟩
                rintro ⟨order, orderPermuted, orderOrdered⟩
                exact impossible ⟨order, orderPermuted.trans samePermuted.symm, orderOrdered⟩

/-- More rounds than there are modules to place change nothing. -/
theorem placeAll_add
    (rounds extra : Nat)
    (enough : pending.length ≤ rounds) :
    placeAll (rounds + extra) placed pending = placeAll rounds placed pending := by
  induction rounds generalizing placed pending with
  | zero =>
      have empty : pending = [] := List.eq_nil_of_length_eq_zero (by omega)
      subst empty
      cases extra with
      | zero => rfl
      | succ extra =>
          rfl
  | succ rounds ih =>
      rw [Nat.add_right_comm]
      unfold placeAll
      split
      · rfl
      · dsimp only
        split
        · rfl
        · next progress =>
            rw [List.isEmpty_iff] at progress
            have fewer := length_waiting_lt progress
            exact ih (Nat.le_of_lt_succ (Nat.lt_of_lt_of_le fewer enough))

/-! ## Placement as a whole -/

/-- What is reached does not depend on the order of the appended modules. -/
theorem Reached.perm
    (permuted : left.Perm right)
    (reached : Reached library left path) :
    Reached library right path := by
  induction reached with
  | direct appended imported => exact .direct (permuted.mem_iff.mp appended) imported
  | through _ fresh found imported ih =>
      refine .through ih (fun appended => fresh ?_) found imported
      exact (permuted.map Module.path).mem_iff.mpr appended

/-- What is missing does not depend on the order of the appended modules. -/
theorem Missing.perm (permuted : left.Perm right) :
    Missing library left -> Missing library right := by
  rintro ⟨path, reached, fresh, absent⟩
  refine ⟨path, reached.perm permuted, fun appended => fresh ?_, absent⟩
  exact (permuted.map Module.path).mem_iff.mpr appended

/-- What is loaded does not depend on the order of the appended modules. -/
theorem LoadedFor.perm
    (permuted : left.Perm right)
    (loadedFor : LoadedFor library left loaded) :
    LoadedFor library right loaded where
  nodup := loadedFor.nodup
  mem_paths path := by
    rw [loadedFor.mem_paths, (permuted.map Module.path).mem_iff]
    exact and_congr_left fun _ => ⟨.perm permuted, .perm permuted.symm⟩
  get? := loadedFor.get?

/-- The three outcomes of placement. -/
theorem place_spec
    (library : Library)
    (appended : List Module) :
    (∃ path origin span, place library appended = .error (.notFound path origin span)) ∧
        Missing library appended ∨
      ∃ loaded, LoadedFor library appended loaded ∧
        ((∃ modules, place library appended = .ok modules ∧
            modules.Perm (appended ++ loaded) ∧ Ordered modules) ∨
          (∃ cycle span, place library appended = .error (.circularDependency cycle span)) ∧
            ¬∃ order, order.Perm (appended ++ loaded) ∧ Ordered order) := by
  have sorted := sortByPath_perm appended
  rcases discover_spec library (sortByPath appended) with
    ⟨loaded, discovered, loadedFor⟩ | ⟨⟨path, origin, span, failed⟩, missing⟩
  · refine .inr ⟨loaded, loadedFor.perm sorted, ?_⟩
    have permuted := sorted.append_right loaded
    have placed : place library appended =
        placeAll (sortByPath appended ++ loaded).length [] (sortByPath appended ++ loaded) := by
      simp [place, discovered, bind, Except.bind]
    rw [placed]
    have start : OrderedAfter [] [] := trivial
    rcases placeAll_spec _ start (Nat.le_refl _) with
      ⟨modules, run, modulesPermuted, modulesOrdered⟩ | ⟨failed, impossible⟩
    · exact .inl ⟨modules, run, modulesPermuted.trans permuted,
        (ordered_iff modules).mpr modulesOrdered⟩
    · refine .inr ⟨failed, ?_⟩
      rintro ⟨order, orderPermuted, orderOrdered⟩
      exact impossible ⟨order, orderPermuted.trans permuted.symm, orderOrdered⟩
  · refine .inl ⟨⟨path, origin, span, ?_⟩, missing.perm sorted⟩
    simp [place, failed, bind, Except.bind]

end Placement

/-! ## The first step of a build -/

namespace Bundle

open Placement

theorem resolveDependencies_apply
    (library : Library)
    (bundle : Bundle) :
    resolveDependencies library bundle =
      match place library bundle.modules with
      | .ok modules => .ok () { bundle with modules := modules }
      | .error error => .error (.assembly error) { bundle with modules := [] } := by
  change (match place library bundle.modules with
    | .ok modules => (set { bundle with modules := modules } : Step Unit)
    | .error error => do
        set { bundle with modules := [] }
        throw (Diagnostic.assembly error)) bundle = _
  cases place library bundle.modules <;> rfl

/-- Modules that are bound after their imports never miss one of them: the module where binding
stops for a missing one does not import it. -/
theorem bindModules_notFound
    (stage : Stage)
    {registry : List (String × Table Export)}
    {arena : Arena}
    {modules : List Module}
    (ordered : OrderedAfter (registry.map Prod.fst) modules)
    {path origin : String}
    {span : Span}
    (failed : (bindModules stage registry arena modules).2.2 =
      some (.assembly (.notFound path origin span))) :
    ∃ early module late, modules = early ++ module :: late ∧
      (bindModules stage registry arena early).2.2 = none ∧
      (bindModules stage registry arena (early ++ [module])).2.2 =
        some (.assembly (.notFound path origin span)) ∧
      module.path = origin ∧ ¬module.Imports path := by
  induction modules generalizing registry arena with
  | nil => simp [bindModules] at failed
  | cons module rest ih =>
      unfold bindModules at failed
      dsimp only at failed
      split at failed
      · next diagnostic recorded =>
          cases failed
          have stops : (bindModules stage registry arena [module]).2.2 =
              some (.assembly (.notFound path origin span)) := by
            simp [bindModules, recorded]
          have fails := Binding.records_bindBlock
            { stage := stage, registry := registry, path := module.path } module.statements
            { arena := arena, scope := Scope.ofGlobals stage.globals }
          have later : (module.bind { stage := stage, registry := registry, path := module.path }
              stage.globals arena).2.failure =
            (Binding.bindBlock { stage := stage, registry := registry, path := module.path }
              module.statements { arena := arena, scope := Scope.ofGlobals stage.globals }).2.failure :=
            rfl
          rw [later] at recorded
          rw [Binding.Records, recorded] at fails
          rcases fails with same | ⟨_, other, same, raised⟩
          · simp at same
          · cases same
            obtain ⟨rfl, absent⟩ := raised.explains path origin span rfl
            refine ⟨[], module, rest, rfl, rfl, stops, rfl, fun imported => ?_⟩
            obtain ⟨entry, mem, same⟩ := List.mem_map.mp (ordered.1 path imported)
            have differs := List.lookup_eq_none_iff.mp absent entry mem
            simp [same] at differs
      · next passed =>
          split at failed
          · simp at failed
          · next isMain =>
              have later (exports : Table Export) :
                  OrderedAfter (((module.path, exports) :: registry).map Prod.fst) rest :=
                ordered.2
              obtain ⟨early, other, late, rfl, succeeded, stops, found⟩ := ih (later _) failed
              refine ⟨module :: early, other, late, rfl, ?_, ?_, found⟩
              · simp [bindModules, passed, isMain, succeeded]
              · simp [bindModules, passed, isMain, stops]

theorem bindModules_of_resolveNames_eq_error
    {bundle after : Bundle}
    {error : Diagnostic}
    (failed : resolveNames bundle = .error error after) :
    (bindModules bundle.stage [] bundle.arena bundle.modules).2.2 = some error := by
  change failWith (bindModules bundle.stage [] bundle.arena bundle.modules).2.2 _ = _ at failed
  cases outcome : (bindModules bundle.stage [] bundle.arena bundle.modules).2.2 with
  | none =>
      rw [outcome] at failed
      cases failed
  | some diagnostic =>
      rw [outcome] at failed
      cases failed
      rfl

/-- What the first step of a build does, and what binding does after it. -/
structure PlacesModules
    (library : Library)
    (bundle : Bundle) : Prop where
  /-- A missing module is reported exactly when an imported path is neither appended nor in the
  library. -/
  missing : (∃ path origin span after, resolveDependencies library bundle =
      .error (.assembly (.notFound path origin span)) after) ↔ Missing library bundle.modules
  /-- Otherwise the program consists of the appended modules and one loaded module for each
  other imported path.  The step succeeds exactly when the program has an order in which every
  module comes after its imports, yields such an order, and reports a circle when there is
  none. -/
  placed : ¬Missing library bundle.modules ->
    ∃ loaded, LoadedFor library bundle.modules loaded ∧
      ((∃ after, resolveDependencies library bundle = .ok () after) ↔
        ∃ order, order.Perm (bundle.modules ++ loaded) ∧ Ordered order) ∧
      (∀ after, resolveDependencies library bundle = .ok () after ->
        after.modules.Perm (bundle.modules ++ loaded) ∧ Ordered after.modules) ∧
      ((¬∃ order, order.Perm (bundle.modules ++ loaded) ∧ Ordered order) ->
        ∃ cycle span after, resolveDependencies library bundle =
          .error (.assembly (.circularDependency cycle span)) after)
  /-- Discovery never runs out of steps. -/
  discovery_ends : ∀ entries extra,
    explore library (entries.length + library.size + extra) (Discovery.start entries) =
      explore library (entries.length + library.size) (Discovery.start entries)
  /-- Neither does placement. -/
  placement_ends : ∀ pending extra,
    placeAll (pending.length + extra) [] pending = placeAll pending.length [] pending
  /-- If binding stops at a placed module for a missing one, no statement of the module imports
  it. -/
  bound : ∀ after, resolveDependencies library bundle = .ok () after ->
    ∀ path origin span failed,
      resolveNames after = .error (.assembly (.notFound path origin span)) failed ->
        ∃ early module late, after.modules = early ++ module :: late ∧
          (bindModules after.stage [] after.arena early).2.2 = none ∧
          (bindModules after.stage [] after.arena (early ++ [module])).2.2 =
            some (.assembly (.notFound path origin span)) ∧
          module.path = origin ∧ ¬module.Imports path

/-- Modules are found and placed as their imports ask for. -/
theorem resolveDependencies_correct
    (library : Library)
    (bundle : Bundle) :
    PlacesModules library bundle := by
  refine ⟨?_, ?_, explore_start_add library,
    fun pending extra => placeAll_add _ extra (Nat.le_refl _), ?_⟩
  all_goals rw [resolveDependencies_apply]
  · rcases place_spec library bundle.modules with
      ⟨⟨path, origin, span, placed⟩, missing⟩ | ⟨loaded, loadedFor, outcome⟩
    · rw [placed]
      exact ⟨fun _ => missing, fun _ => ⟨path, origin, span, _, rfl⟩⟩
    · refine ⟨?_, fun missing => absurd missing loadedFor.not_missing⟩
      rintro ⟨path, origin, span, after, failed⟩
      rcases outcome with ⟨modules, placed, _⟩ | ⟨⟨cycle, circleSpan, placed⟩, _⟩
      · simp [placed] at failed
      · simp [placed] at failed
  · intro mem
    rcases place_spec library bundle.modules with
      ⟨_, missing⟩ | ⟨loaded, loadedFor, ⟨modules, placed, permuted, ordered⟩ |
        ⟨⟨cycle, span, placed⟩, impossible⟩⟩
    · exact absurd missing mem
    · rw [placed]
      refine ⟨loaded, loadedFor, ⟨fun _ => ⟨modules, permuted, ordered⟩, fun _ => ⟨_, rfl⟩⟩,
        ?_, fun none => absurd ⟨modules, permuted, ordered⟩ none⟩
      rintro _ ⟨⟩
      exact ⟨permuted, ordered⟩
    · rw [placed]
      refine ⟨loaded, loadedFor, ⟨?_, fun some => absurd some impossible⟩, ?_,
        fun _ => ⟨cycle, span, _, rfl⟩⟩
      · rintro ⟨_, ⟨⟩⟩
      · rintro _ ⟨⟩
  · intro after succeeded path origin span failed unresolved
    rcases place_spec library bundle.modules with
      ⟨⟨_, _, _, placed⟩, _⟩ | ⟨loaded, _, ⟨modules, placed, _, ordered⟩ |
        ⟨⟨_, _, placed⟩, _⟩⟩
    · simp [placed] at succeeded
    · rw [placed] at succeeded
      cases succeeded
      have start : OrderedAfter (([] : List (String × Table Export)).map Prod.fst) modules :=
        (ordered_iff modules).mp ordered
      exact bindModules_notFound bundle.stage start
        (bindModules_of_resolveNames_eq_error unresolved)
    · simp [placed] at succeeded

end Bundle
end ModularGlsl
