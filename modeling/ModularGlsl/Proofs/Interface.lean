import Mathlib.Data.List.Perm.Subperm
import ModularGlsl.Proofs.Varyings

/-!
# Interfaces between stages

Two stages are linked if and only if they declare the same varyings: every name that one
of them declares is declared by the other with a type that fits.  The check compares
tables of names and texts of types.  It decides the same because no stage declares a name
twice, and because the types of varyings are provided by the stages, where texts tell
simple types apart.
-/

namespace ModularGlsl

/-! ## Tables -/

namespace Table

variable {α : Type}

/-- A new name is put among the others. -/
theorem insertEntry_perm
    {name : String}
    {entries : List (String × α)}
    (value : α)
    (isNew : name ∉ entries.map Prod.fst) :
    (insertEntry name value entries).Perm ((name, value) :: entries) := by
  induction entries with
  | nil => exact .refl _
  | cons entry rest ih =>
      rw [List.map_cons, List.mem_cons, not_or] at isNew
      rw [insertEntry]
      split
      · exact .refl _
      · rw [if_neg isNew.1]
        exact ((ih isNew.2).cons _).trans (.swap _ _ _)

variable {table : Table α}

/-- Pairs with distinct new names are put among the others. -/
theorem insertAll_perm
    {pairs : List (String × α)}
    (nodup : ((pairs ++ table.entries).map Prod.fst).Nodup) :
    (table.insertAll pairs).entries.Perm (pairs ++ table.entries) := by
  induction pairs generalizing table with
  | nil => exact .refl _
  | cons pair rest ih =>
      have isNew : pair.1 ∉ (rest ++ table.entries).map Prod.fst := (List.nodup_cons.mp nodup).1
      have inserted : (table.insert pair.1 pair.2).entries.Perm (pair :: table.entries) := by
        refine insertEntry_perm pair.2 fun isOld => isNew ?_
        rw [List.map_append]
        exact List.mem_append_right _ isOld
      have moved : (rest ++ (table.insert pair.1 pair.2).entries).Perm
          (pair :: rest ++ table.entries) :=
        (inserted.append_left rest).trans List.perm_middle
      exact (ih ((moved.map Prod.fst).nodup_iff.mpr nodup)).trans moved

theorem get?_eq_some_iff
    (nodup : (table.entries.map Prod.fst).Nodup)
    {name : String}
    {value : α} :
    table.get? name = some value ↔ (name, value) ∈ table.entries := by
  refine ⟨mem_of_get?_eq_some, fun isListed => ?_⟩
  obtain ⟨entries⟩ := table
  simp only [get?] at isListed nodup ⊢
  induction entries with
  | nil => cases isListed
  | cons entry rest ih =>
      obtain ⟨other, held⟩ := entry
      rw [List.map_cons, List.nodup_cons] at nodup
      rcases List.mem_cons.mp isListed with same | isLater
      · cases same
        simp
      · have different : (name == other) = false := by
          rw [beq_eq_false_iff_ne]
          rintro rfl
          exact nodup.1 (List.mem_map.mpr ⟨_, isLater, rfl⟩)
        rw [List.lookup_cons, different]
        exact ih nodup.2 isLater

end Table

/-- An error that reports a difference between the varyings of two stages. -/
def AssemblyError.IsDifference : AssemblyError -> Prop
  | .varyingsDiffer _ _ | .varyingMissing _ _ | .varyingType _ _ => True
  | _ => False

namespace Program

variable {fragment vertex : Table String}

theorem checkVaryings_eq_ok {entries : List (String × String)} :
    checkVaryings fragment entries = .ok () ↔
      ∀ entry ∈ entries, fragment.get? entry.1 = some entry.2 := by
  induction entries with
  | nil => simp [checkVaryings]
  | cons entry rest ih =>
      obtain ⟨name, ty⟩ := entry
      rw [checkVaryings, List.forall_mem_cons]
      cases found : fragment.get? name with
      | none => simp
      | some other =>
          by_cases same : other = ty
          · simp [same, ih]
          · simp [same]

theorem checkInterface_eq_ok
    (vertexNodup : (vertex.entries.map Prod.fst).Nodup)
    (fragmentNodup : (fragment.entries.map Prod.fst).Nodup) :
    checkInterface vertex fragment = .ok () ↔ vertex.entries.Perm fragment.entries := by
  rw [checkInterface]
  split
  next different =>
    constructor
    · rintro ⟨⟩
    · intro permuted
      exact absurd permuted.length_eq different
  next same =>
    have length_eq : vertex.entries.length = fragment.entries.length := not_not.mp same
    rw [checkVaryings_eq_ok]
    constructor
    · intro within
      refine (List.subperm_of_subset vertexNodup.of_map fun entry isListed => ?_).perm_of_length_le
        (Nat.le_of_eq length_eq.symm)
      exact (Table.get?_eq_some_iff fragmentNodup).mp (within entry isListed)
    · intro permuted entry isListed
      exact (Table.get?_eq_some_iff fragmentNodup).mpr (permuted.subset isListed)

variable {error : AssemblyError}

/-- A varying that does not pass differs between the stages. -/
theorem isDifference_of_checkVaryings
    {entries : List (String × String)}
    (failed : checkVaryings fragment entries = .error error) :
    error.IsDifference := by
  induction entries with
  | nil => cases failed
  | cons entry rest ih =>
      rw [checkVaryings] at failed
      split at failed
      · cases failed
        exact trivial
      · split at failed
        · exact ih failed
        · cases failed
          exact trivial

/-- Stages that do not pass differ in their varyings. -/
theorem isDifference_of_checkInterface (failed : checkInterface vertex fragment = .error error) :
    error.IsDifference := by
  rw [checkInterface] at failed
  split at failed
  · cases failed
    exact trivial
  · exact isDifference_of_checkVaryings failed

end Program

/-! ## Varyings with their types -/

theorem Builtin.accepts_iff_name_eq
    {first second : Stage}
    {ty other : Ty}
    (isProvided : .type ty ∈ Builtin.table first)
    (isOther : .type other ∈ Builtin.table second)
    (isSimple : ty.isSimple = true)
    (otherSimple : other.isSimple = true) :
    ty.accepts other = true ↔ ty.name = other.name := by
  have compared : ((Builtin.table first).all fun one => (Builtin.table second).all fun another =>
      match one, another with
      | .type ty, .type other =>
          !(ty.isSimple && other.isSimple) || ty.accepts other == (ty.name == other.name)
      | _, _ => true) = true := by
    cases first <;> cases second <;> decide +kernel
  have own := List.all_eq_true.mp (List.all_eq_true.mp compared _ isProvided) _ isOther
  simp only [isSimple, otherSimple, Bool.and_self, Bool.not_true, Bool.false_or, beq_iff_eq] at own
  rw [own, beq_iff_eq]

variable {bundle : Bundle}

namespace Bundle

/-- A stage declares a varying of a name with a type. -/
def HasVarying
    (bundle : Bundle)
    (name : String)
    (ty : Ty) : Prop :=
  ∃ decl ∈ bundle.varyingDecls, decl.name.name = name ∧
    Typing.declaredType bundle.arena decl.ty decl.length false decl.span = .ok ty

/-- Every varying of one stage is declared by the other one with a type that fits. -/
def VaryingsWithin (bundle other : Bundle) : Prop :=
  ∀ name ty, bundle.HasVarying name ty ->
    ∃ otherTy, other.HasVarying name otherTy ∧ ty.accepts otherTy = true

/-- Two stages declare the same varyings. -/
def SharesVaryings (bundle other : Bundle) : Prop :=
  bundle.VaryingsWithin other ∧ other.VaryingsWithin bundle

/-- A stage declares varyings with distinct names, each with a type that it provides. -/
structure HasInterface (bundle : Bundle) : Prop where
  /-- Varyings have types that the stage provides. -/
  isVarying : ∀ decl ∈ bundle.varyingDecls, ∃ id ty,
    decl.IsVarying bundle.stage bundle.arena id ty
  /-- Varyings have distinct names. -/
  nodup : (bundle.varyingDecls.map fun decl => decl.name.name).Nodup

/-- The varyings of a bundle with the texts of their types. -/
def varyingTexts (bundle : Bundle) : List (String × String) :=
  bundle.varyingDecls.map fun decl => (decl.name.name, Emission.typeText bundle.arena decl.ty)

namespace HasInterface

variable {other : Bundle}

section

variable (interface : bundle.HasInterface)
include interface

theorem varyings_eq :
    (bundle.modules.flatMap fun module => module.varyings bundle.arena) = bundle.varyingTexts := by
  have listed : (bundle.modules.flatMap fun module => module.varyings bundle.arena) =
      bundle.varyingDecls.filterMap fun decl => decl.name.var.map fun var =>
        (bundle.arena.name var, ((bundle.arena.get var).ty.map Ty.name).getD "") := by
    rw [varyingDecls, List.filterMap_flatMap]
    refine List.flatMap_congr fun module _ => ?_
    rw [Module.varyings, Module.collect, List.filterMap_filterMap, List.map_filterMap]
    refine List.filterMap_congr fun stmt _ => ?_
    cases stmt with
    | interface decl =>
        rw [Module.varying?, Stmt.varying?]
        split <;> rfl
    | _ => rfl
  rw [listed, varyingTexts, ← List.filterMap_eq_map]
  refine List.filterMap_congr fun decl isDecl => ?_
  obtain ⟨id, ty, isVarying⟩ := interface.isVarying decl isDecl
  rw [isVarying.var_eq, Option.map_some, isVarying.name_eq, isVarying.ty_eq, Option.map_some,
    Option.getD_some, ← isVarying.typeText_eq]
  rfl

theorem mem_varyingTexts
    {name text : String} :
    (name, text) ∈ bundle.varyingTexts ↔
      ∃ ty, bundle.HasVarying name ty ∧ ty.name = text ∧
        .type ty ∈ Builtin.table bundle.stage ∧ ty.isSimple = true := by
  rw [varyingTexts, List.mem_map]
  constructor
  · rintro ⟨decl, isDecl, same⟩
    cases same
    obtain ⟨id, ty, isVarying⟩ := interface.isVarying decl isDecl
    exact ⟨ty, ⟨decl, isDecl, rfl, isVarying.declared_eq⟩, isVarying.typeText_eq.symm,
      isVarying.isProvided, isVarying.isSimple⟩
  · rintro ⟨ty, ⟨decl, isDecl, rfl, declared⟩, rfl, _⟩
    obtain ⟨id, own, isVarying⟩ := interface.isVarying decl isDecl
    cases declared.symm.trans isVarying.declared_eq
    exact ⟨decl, isDecl, by rw [isVarying.typeText_eq]⟩

/-- A type that a varying is declared with is provided by the stage. -/
theorem isProvided
    {name : String}
    {ty : Ty}
    (declares : bundle.HasVarying name ty) :
    .type ty ∈ Builtin.table bundle.stage ∧ ty.isSimple = true := by
  obtain ⟨decl, isDecl, _, declared⟩ := declares
  obtain ⟨id, own, isVarying⟩ := interface.isVarying decl isDecl
  cases declared.symm.trans isVarying.declared_eq
  exact ⟨isVarying.isProvided, isVarying.isSimple⟩

theorem varyingsWithin_iff (otherInterface : other.HasInterface) :
    bundle.VaryingsWithin other ↔ bundle.varyingTexts ⊆ other.varyingTexts := by
  constructor
  · rintro within ⟨name, text⟩ isListed
    obtain ⟨ty, declares, rfl, isProvided, isSimple⟩ := interface.mem_varyingTexts.mp isListed
    obtain ⟨otherTy, isOther, accepts⟩ := within name ty declares
    obtain ⟨otherProvided, otherSimple⟩ := otherInterface.isProvided isOther
    rw [Builtin.accepts_iff_name_eq isProvided otherProvided isSimple otherSimple] at accepts
    exact otherInterface.mem_varyingTexts.mpr
      ⟨otherTy, isOther, accepts.symm, otherProvided, otherSimple⟩
  · intro subset name ty declares
    obtain ⟨isProvided, isSimple⟩ := interface.isProvided declares
    obtain ⟨otherTy, isOther, same, otherProvided, otherSimple⟩ :=
      otherInterface.mem_varyingTexts.mp
        (subset (interface.mem_varyingTexts.mpr ⟨ty, declares, rfl, isProvided, isSimple⟩))
    refine ⟨otherTy, isOther, ?_⟩
    rw [Builtin.accepts_iff_name_eq isProvided otherProvided isSimple otherSimple, same]

theorem nodup_texts :
    (bundle.varyingTexts.map Prod.fst).Nodup := by
  rw [varyingTexts, List.map_map]
  exact interface.nodup

/-- The table of varyings lists them all. -/
theorem perm_varyings :
    bundle.varyings.entries.Perm bundle.varyingTexts := by
  have nodup :
      ((bundle.varyingTexts ++ (Table.empty (α := String)).entries).map Prod.fst).Nodup := by
    rw [Table.empty, List.append_nil]
    exact interface.nodup_texts
  have listed := Table.insertAll_perm nodup
  rw [Table.empty, List.append_nil] at listed
  rw [varyings, interface.varyings_eq]
  exact listed

theorem checkInterface_iff (otherInterface : other.HasInterface) :
    Program.checkInterface bundle.varyings other.varyings = .ok () ↔
      bundle.SharesVaryings other := by
  have own := interface.perm_varyings
  have others := otherInterface.perm_varyings
  rw [Program.checkInterface_eq_ok ((own.map Prod.fst).nodup_iff.mpr interface.nodup_texts)
      ((others.map Prod.fst).nodup_iff.mpr otherInterface.nodup_texts), own.congr_left,
    others.congr_right, List.perm_ext_iff_of_nodup interface.nodup_texts.of_map
      otherInterface.nodup_texts.of_map, SharesVaryings,
    interface.varyingsWithin_iff otherInterface, otherInterface.varyingsWithin_iff interface]
  exact ⟨fun same => ⟨fun text => (same text).mp, fun text => (same text).mpr⟩,
    fun within text => ⟨fun isOwn => within.1 isOwn, fun isOther => within.2 isOther⟩⟩

end

end HasInterface

/-- Values of constants keep the interface of a stage. -/
theorem hasInterface_of_injects
    {finalized : Bundle}
    (injects : Relation.ReflTransGen Injects finalized bundle)
    {limit : VarId}
    (settled : ∀ module ∈ finalized.modules, module.IsSettled limit finalized.arena)
    (interface : finalized.HasInterface) :
    bundle.HasInterface := by
  have kept : bundle.varyingDecls = finalized.varyingDecls ∧ bundle.stage = finalized.stage := by
    induction injects with
    | refl => exact ⟨rfl, rfl⟩
    | @tail middle after _ step ih =>
        have collected : after.modules.map (Module.collect Stmt.varying?) =
            middle.modules.map (Module.collect Stmt.varying?) :=
          step.collect_eq fun _ _ => rfl
        have stage_eq : after.stage = middle.stage := by
          cases step
          rfl
        rw [varyingDecls, List.flatMap_def, collected, ← List.flatMap_def, stage_eq]
        exact ih
  refine ⟨?_, by rw [kept.1]; exact interface.nodup⟩
  rw [kept.1, kept.2]
  intro decl isDecl
  obtain ⟨id, ty, isVarying⟩ := interface.isVarying decl isDecl
  exact ⟨id, ty, isVarying_of_injects injects settled isVarying⟩

end Bundle

/-! ## Linked programs -/

variable {path : String}

namespace Program

/-- What a stage that is built has to do with the varyings of its source: it declares them
all, with distinct names, and its text declares precisely these. -/
structure DeclaresVaryings
    (library : Library)
    (path : String)
    (bundle : Bundle) : Prop where
  /-- The varyings are those of the modules that the stage is read from. -/
  source : ∃ modules, IsReadFrom library path modules ∧
    bundle.varyingDecls.map InterfaceDecl.unbound =
      (modules.flatMap (Module.collect Stmt.varying?)).map InterfaceDecl.unbound
  /-- Each of them has a type. -/
  typed : ∀ decl ∈ bundle.varyingDecls, ∃ ty, bundle.HasVarying decl.name.name ty
  /-- Their names are distinct. -/
  distinct : (bundle.varyingDecls.map fun decl => decl.name.name).Nodup
  /-- The text of the stage declares precisely these. -/
  written : ∀ spacing text, bundle.write spacing = .ok text ->
    ∃ lines, bundle.WritesVaryings spacing lines text

section Stages

variable {library : Library} {stage : Stage} {naming : Naming} {consts : List (String × ConstValue)}
variable (asRead : ∀ module ∈ library.modules,
  module.MembersSatisfy (fun _ => False) Accessor.IsUnbound)
variable (built : buildStage library stage path naming consts = .ok bundle)
include asRead built

/-- A stage that is built has an interface. -/
theorem hasInterface_of_buildStage : bundle.HasInterface := by
  obtain ⟨entry, finalized, found, run, injects⟩ := buildStage_eq_ok built
  have fresh : Bundle.IsFresh library ((Bundle.empty stage naming).append entry) := by
    refine ⟨rfl, fun module mem => ?_, asRead⟩
    rw [List.mem_singleton.mp mem]
    exact asRead entry (List.mem_of_find?_eq_some found)
  obtain ⟨limit, settled⟩ := fresh.isSettled_finalized run
  exact Bundle.hasInterface_of_injects injects settled
    ⟨fresh.isVarying_finalized run, fresh.nodup_varyings_finalized run⟩

/-- A stage that is built declares and writes its varyings. -/
theorem declaresVaryings_of_buildStage
    (atTop : ∀ modules, IsReadFrom library path modules ->
      ∀ module ∈ modules, module.VaryingsAtTop) :
    DeclaresVaryings library path bundle := by
  have interface := hasInterface_of_buildStage asRead built
  obtain ⟨modules, isRead, kept⟩ :=
    collect_buildStage Stmt.isSourceView_sourceVarying? (fun _ _ => rfl) built
  refine ⟨⟨modules, isRead, ?_⟩, fun decl isDecl => ?_, interface.nodup, fun spacing text => ?_⟩
  · rw [Bundle.varyingDecls, List.map_flatMap, List.map_flatMap]
    simp only [← Module.collect_sourceVarying?]
    exact congrArg List.flatten kept
  · obtain ⟨id, ty, isVarying⟩ := interface.isVarying decl isDecl
    exact ⟨ty, decl, isDecl, rfl, isVarying.declared_eq⟩
  · exact Bundle.writesVaryings_of_write interface.isVarying
      (varyingsAtTop_of_buildStage built atTop)

end Stages

/-- Two stages that are built pass the check of varyings exactly if they declare the same
ones.  Then linking only has to write them; otherwise it reports a difference.  Each stage
declares the varyings of its source with distinct names, and writes precisely these. -/
theorem link_checks_interface
    {library : Library}
    {vertexPath fragmentPath : String}
    {options : LinkOptions}
    {vertex fragment : Bundle}
    (asRead : ∀ module ∈ library.modules,
      module.MembersSatisfy (fun _ => False) Accessor.IsUnbound)
    (vertexTop : ∀ modules, IsReadFrom library vertexPath modules ->
      ∀ module ∈ modules, module.VaryingsAtTop)
    (fragmentTop : ∀ modules, IsReadFrom library fragmentPath modules ->
      ∀ module ∈ modules, module.VaryingsAtTop)
    (vertexBuilt :
      buildStage library .vertex vertexPath options.naming options.vertexConsts = .ok vertex)
    (fragmentBuilt :
      buildStage library .fragment fragmentPath options.naming options.fragmentConsts =
        .ok fragment) :
    (checkInterface vertex.varyings fragment.varyings = .ok () ↔
      vertex.SharesVaryings fragment) ∧
    (vertex.SharesVaryings fragment ->
      link library vertexPath fragmentPath options = do
        let vertexText ← vertex.write options.spacing
        let fragmentText ← fragment.write options.spacing
        return ⟨vertexText, fragmentText⟩) ∧
    (¬vertex.SharesVaryings fragment ->
      ∃ error, error.IsDifference ∧
        link library vertexPath fragmentPath options = .error (.assembly error)) ∧
    DeclaresVaryings library vertexPath vertex ∧
    DeclaresVaryings library fragmentPath fragment := by
  have checked := (hasInterface_of_buildStage asRead vertexBuilt).checkInterface_iff
    (hasInterface_of_buildStage asRead fragmentBuilt)
  refine ⟨checked, fun shares => ?_, fun differs => ?_,
    declaresVaryings_of_buildStage asRead vertexBuilt vertexTop,
    declaresVaryings_of_buildStage asRead fragmentBuilt fragmentTop⟩
  · rw [link, vertexBuilt, fragmentBuilt]
    change ((checkInterface vertex.varyings fragment.varyings).mapError _ >>= _) = _
    rw [checked.mpr shares]
    rfl
  · cases outcome : checkInterface vertex.varyings fragment.varyings with
    | ok done => exact absurd (checked.mp outcome) differs
    | error error =>
        refine ⟨error, isDifference_of_checkInterface outcome, ?_⟩
        rw [link, vertexBuilt, fragmentBuilt]
        change ((checkInterface vertex.varyings fragment.varyings).mapError _ >>= _) = _
        rw [outcome]
        rfl

end Program

namespace Sample

/-- The declaration of a varying. -/
def varying (ty text : String) : Stmt :=
  .interface ⟨.varying, none, name ty, name text, none, {}⟩

/-- A program whose stages share a module with one varying, and declare another one
each. -/
def shading : Library :=
  ⟨[{ path := "/shared"
      statements := [varying "vec2" "uv", .exportName (name "uv") "uv" {}] },
    { path := "/vertex"
      statements :=
        [.importAll (name "shared") "/shared" {}, varying "float" "depth", main []] },
    { path := "/fragment"
      statements :=
        [varying "float" "depth", .importName "uv" (name "position") "/shared" {},
          main
            [.assign (read "gl_FragColor") .assign
              (.call (read "vec4") [read "position", read "depth", read "depth"] {}) {}]] }]⟩

/-- The modules of the program are as they are read. -/
theorem asRead_shading :
    ∀ module ∈ shading.modules, module.MembersSatisfy (fun _ => False) Accessor.IsUnbound := by
  decide +kernel

/-- The varyings of the program stand at the level of modules. -/
theorem varyingsAtTop_shading
    {modules : List Module}
    (isRead : Program.IsReadFrom shading path modules) :
    ∀ module ∈ modules, module.VaryingsAtTop := by
  have all : ∀ module ∈ shading.modules, module.VaryingsAtTop := by
    simp only [shading, List.forall_mem_cons]
    exact ⟨rfl, rfl, rfl, by simp⟩
  intro module mem
  obtain ⟨original, inLibrary, statements_eq⟩ := isRead.exists_of_mem module mem
  rw [Module.VaryingsAtTop, Module.parts, Module.collect, statements_eq]
  exact all original inLibrary

end Sample

namespace Program

/-- The stages of a program with a shared varying pass the check, and both declare its
varyings. -/
theorem link_shading_checks_interface :
    ∃ (options : LinkOptions) (vertex fragment : Bundle),
      buildStage Sample.shading .vertex "/vertex" options.naming options.vertexConsts =
        .ok vertex ∧
      buildStage Sample.shading .fragment "/fragment" options.naming options.fragmentConsts =
        .ok fragment ∧
      vertex.varyingDecls.length = 2 ∧ vertex.SharesVaryings fragment ∧
      DeclaresVaryings Sample.shading "/vertex" vertex ∧
      DeclaresVaryings Sample.shading "/fragment" fragment := by
  have passes : (match buildStage Sample.shading .vertex "/vertex" .readable [],
        buildStage Sample.shading .fragment "/fragment" .readable [] with
      | .ok vertex, .ok fragment =>
          vertex.varyingDecls.length == 2 &&
            (checkInterface vertex.varyings fragment.varyings).toOption.isSome
      | _, _ => false) = true := by
    decide +kernel
  split at passes
  next vertex fragment vertexBuilt fragmentBuilt =>
    rw [Bool.and_eq_true, beq_iff_eq] at passes
    obtain ⟨checked, _, _, declared⟩ := @link_checks_interface _ _ _ {} _ _ Sample.asRead_shading
      (fun _ => Sample.varyingsAtTop_shading) (fun _ => Sample.varyingsAtTop_shading) vertexBuilt
      fragmentBuilt
    refine ⟨{}, vertex, fragment, vertexBuilt, fragmentBuilt, passes.1, checked.mp ?_, declared⟩
    cases outcome : checkInterface vertex.varyings fragment.varyings with
    | ok done => rfl
    | error error =>
        rw [outcome] at passes
        cases passes.2
  next => cases passes

end Program

end ModularGlsl
