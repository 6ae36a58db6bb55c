import ModularGlsl.Proofs.Naming.Capture
import ModularGlsl.Proofs.Naming.Lockstep

/-!
# What naming leaves alone

Naming changes nothing but names, and only those of declarations that may change.
A name that differs from the one before was chosen, so it is not reserved.  This
holds whether or not every search for a name ends.
-/

namespace ModularGlsl

/-- An arena holds the same variables as another one, with the same records up to
their names. -/
structure Arena.Renames (before after : Arena) : Prop where
  /-- No variable is lost or added. -/
  size_eq : after.size = before.size
  /-- A variable keeps all but its name. -/
  get_eq : ∀ id, after.get id = { before.get id with name := after.name id }

variable {naming : Naming}

namespace Arena

theorem Renames.refl (arena : Arena) : arena.Renames arena :=
  ⟨rfl, fun _ => rfl⟩

/-- A new name keeps everything else. -/
theorem Renames.rename
    {before after : Arena}
    (renames : before.Renames after)
    (var : VarId)
    (name : String) :
    before.Renames (after.rename var name) := by
  refine ⟨by rw [size_rename]; exact renames.size_eq, fun id => ?_⟩
  rw [Arena.name, Arena.rename, get_modify, renames.get_eq id]
  split
  · rfl
  · rfl

/-- A readable name without an underscore is the one that the variable has. -/
def SpellsPlain
    (arena : Arena)
    (naming : Naming)
    (var : VarId)
    (name : String) : Prop :=
  naming = .readable -> '_' ∉ name.toList -> name = arena.name var

theorem SpellsPlain.candidate
    {arena : Arena}
    {var : VarId}
    {name : String}
    (plain : arena.SpellsPlain naming var name)
    (index : Nat) :
    arena.SpellsPlain naming var (candidate naming name index) := by
  rintro rfl unmarked
  cases index with
  | zero => exact plain rfl unmarked
  | succ index => simp [candidate_readable_succ] at unmarked

end Arena

namespace FinalNames

/-- What naming leaves of the names of an arena: those of declarations that may not
change, and any other one unless it was chosen. -/
structure Inherits
    (naming : Naming)
    (fits : Naming -> VarId -> String -> Prop)
    (base : Arena)
    (reserved : List String)
    (sites : List Site)
    (state : State) : Prop where
  /-- The levels hang together. -/
  shaped : state.tree.Shaped
  /-- Candidates are of one kind. -/
  naming_eq : state.tree.naming = naming
  /-- The reserved names stay. -/
  reserved_eq : state.tree.reserved = reserved
  /-- Declarations that keep their names have them claimed at the root. -/
  kept : ∀ site ∈ sites, site.keeps = true ->
    ∃ name, (site.var, name) ∈ (state.tree.level NameTree.root).claims
  /-- Nothing but names changes. -/
  renames : base.Renames state.arena
  /-- Only declarations that may change get other names. -/
  unchanged : ∀ var, (∀ site ∈ sites, site.var = var -> site.keeps = true) ->
    state.arena.name var = base.name var
  /-- Other names are chosen. -/
  chosen : ∀ var, state.arena.name var = base.name var ∨
    fits naming var (state.arena.name var) ∧ state.arena.name var ∉ reserved

section Inherited

variable {fits : Naming -> VarId -> String -> Prop} {base : Arena} {reserved : List String}
variable {sites : List Site} {state : State} {level : LevelId}

section

variable (inherits : Inherits naming fits base reserved sites state)
variable (inside : level < state.tree.levels.size)
include inherits inside

theorem Inherits.addLevel (isFunction : Bool) :
    Inherits naming fits base reserved sites (state.addLevel level isFunction) := by
  refine { inherits with shaped := inherits.shaped.addLevel inside isFunction, kept := ?_ }
  intro site mem keeps
  obtain ⟨name, held⟩ := inherits.kept site mem keeps
  refine ⟨name, ?_⟩
  rw [State.addLevel, NameTree.level_addLevel, if_neg (Nat.ne_of_lt inherits.shaped.root_lt)]
  exact held

/-- A variable that keeps its name has it everywhere. -/
theorem Inherits.hasVar
    {site : Site}
    (mem : site ∈ sites)
    (keeps : site.keeps = true) :
    state.tree.hasVar level site.var = true := by
  obtain ⟨name, held⟩ := inherits.kept site mem keeps
  exact NameTree.hasVar_iff.mpr ⟨name, NameTree.mem_visibleClaims.mpr
    ⟨_, inherits.shaped.root_mem level inside, held⟩⟩

end

section

variable (closed : ∀ naming var name index,
      fits naming var name -> fits naming var (candidate naming name index))
variable (fit : ∀ naming, ∀ site ∈ sites, fits naming site.var (base.name site.var))
variable (inArena : ∀ site ∈ sites, site.var < base.size)
include closed fit inArena

/-- A name is chosen for a declaration. -/
theorem Inherits.assign
    (inherits : Inherits naming fits base reserved sites state)
    (inside : level < state.tree.levels.size)
    {site : Site}
    (mem : site ∈ sites) :
    Inherits naming fits base reserved sites (state.assign level site.var) := by
  rw [State.assign, NameTree.assign]
  split
  · exact inherits
  next unnamed =>
  split
  next name found =>
    obtain ⟨isFree, index, name_eq⟩ := NameTree.freeName?_eq_some found
    rw [inherits.shaped.isFree_iff inside, inherits.reserved_eq] at isFree
    have fitsNow : fits naming site.var (state.arena.name site.var) := by
      rcases inherits.chosen site.var with same | chosen
      · rw [same]
        exact fit naming site mem
      · exact chosen.1
    have home := inherits.shaped.functionLevel_spec inside
    have homeInside := inherits.shaped.functionLevel_lt inside
    have grows := state.tree.grows_claim homeInside site.var name
    have inState : site.var < state.arena.size := by
      rw [inherits.renames.size_eq]
      exact inArena site mem
    refine ⟨inherits.shaped.claim homeInside home.2 _ _, inherits.naming_eq,
      inherits.reserved_eq, ?_, inherits.renames.rename _ _, ?_, ?_⟩
    · intro other isOther keeps
      obtain ⟨claimed, held⟩ := inherits.kept other isOther keeps
      exact ⟨claimed, grows.claims_subset _ inherits.shaped.root_lt _ held⟩
    · intro var stays
      by_cases same : var = site.var
      · have keeps := stays site mem same.symm
        exact absurd (inherits.hasVar inside mem keeps) unnamed
      · rw [Arena.name_rename_of_ne same]
        exact inherits.unchanged var stays
    · intro var
      by_cases same : var = site.var
      · rw [same, Arena.name_rename_self inState]
        refine .inr ⟨?_, isFree.1⟩
        rw [name_eq, inherits.naming_eq]
        exact closed _ _ _ _ fitsNow
      · rw [Arena.name_rename_of_ne same]
        exact inherits.chosen var
  next => exact inherits

/-- Two runs of naming over the same declarations leave the same names alone. -/
theorem lockstep_inherits (other : Naming) :
    Lockstep (fun var => ∃ site ∈ sites, site.var = var) fun first second =>
      (Inherits naming fits base reserved sites first ∧
        Inherits other fits base reserved sites second) ∧
        second.tree.levels.size = first.tree.levels.size where
  size_eq held := held.2
  addLevel isFunction held inside := by
    refine ⟨⟨held.1.1.addLevel inside isFunction, held.1.2.addLevel ?_ isFunction⟩, ?_⟩
    · rw [held.2]
      exact inside
    · simp only [State.addLevel, NameTree.size_addLevel, held.2]
  assign := by
    rintro first second level _ held inside ⟨site, mem, rfl⟩
    refine ⟨⟨held.1.1.assign closed fit inArena inside mem,
      held.1.2.assign closed fit inArena ?_ mem⟩, ?_⟩
    · rw [held.2]
      exact inside
    · rw [State.size_assign, State.size_assign, held.2]

end

/-- Once the kept names are claimed, all names are those of the arena. -/
theorem Preserved.inherits
    {claims : List (VarId × String)}
    (preserved : Preserved naming reserved base sites claims state) :
    Inherits naming fits base reserved sites state := by
  rw [preserved.state_eq]
  refine ⟨NameTree.shaped_ofClaims, rfl, rfl, ?_, .refl base, fun _ _ => rfl, fun _ => .inl rfl⟩
  intro site mem keeps
  exact ⟨_, preserved.kept site mem keeps⟩

end Inherited

end FinalNames

namespace Bundle

theorem preserved_namer (bundle : Bundle) :
    FinalNames.Preserved bundle.naming (reservedWords ++ bundle.stage.globals.map Prod.fst)
      bundle.arena [] [] bundle.namer :=
  ⟨rfl, by simp, by simp, by simp, by simp⟩

/-- Once the names that have to be kept are claimed, all declarations are taken care
of. -/
theorem IsNameable.preserved
    {bundle : Bundle}
    (nameable : bundle.IsNameable)
    {middle : FinalNames.State}
    (run : FinalNames.preserveModules bundle.usage bundle.modules bundle.namer = .ok () middle) :
    ∃ claims, FinalNames.Preserved bundle.naming
      (reservedWords ++ bundle.stage.globals.map Prod.fst) bundle.arena bundle.sites claims
      middle := by
  obtain ⟨claims, preserved⟩ :=
    bundle.preserved_namer.preserveModules nameable.keepsAsDeclared nameable.named run
  exact ⟨claims, preserved⟩

/-- Naming keeps the names of declarations that may not change, and chooses no
reserved name.  Names that are kept differ. -/
theorem IsNameable.inherits
    {bundle unique : Bundle}
    (nameable : bundle.IsNameable)
    (run : uniqueNames bundle = .ok () unique) :
    ∃ state, unique = { bundle with arena := state.arena } ∧
      FinalNames.Inherits bundle.naming bundle.arena.SpellsPlain bundle.arena
        (reservedWords ++ bundle.stage.globals.map Prod.fst) bundle.sites state ∧
      ∀ first ∈ bundle.sites, ∀ second ∈ bundle.sites, first.keeps = true ->
        second.keeps = true -> first.name = second.name -> first.var = second.var := by
  obtain ⟨state, named, rfl⟩ := uniqueNames_eq_ok run
  obtain ⟨_, middle, early, late⟩ := bind_eq_ok.mp named
  obtain ⟨claims, preserved⟩ := nameable.preserved early
  have inherits : FinalNames.Inherits bundle.naming bundle.arena.SpellsPlain bundle.arena
      (reservedWords ++ bundle.stage.globals.map Prod.fst) bundle.sites middle :=
    preserved.inherits
  have agrees := (FinalNames.visits_assignModules bundle.modules).agrees
    (FinalNames.lockstep_inherits (fun _ _ _ index plain => plain.candidate index)
      (fun _ _ _ _ _ => rfl) nameable.inside bundle.naming) Nat.one_pos
    (fun site mem => ⟨site, mem, rfl⟩) middle middle
    ⟨⟨⟨inherits, inherits⟩, rfl⟩, inherits.shaped.root_lt⟩
  rw [late] at agrees
  refine ⟨state, rfl, agrees.of_ok.1.1.1, fun first isFirst second isSecond keeps others same => ?_⟩
  by_contra different
  exact preserved.distinct first isFirst second isSecond keeps others different same

end Bundle

end ModularGlsl
