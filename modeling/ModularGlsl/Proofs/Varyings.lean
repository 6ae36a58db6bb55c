import Mathlib.Data.List.Flatten
import ModularGlsl.Proofs.Binding.Source
import ModularGlsl.Proofs.Internal
import ModularGlsl.Proofs.Naming.Builtins
import ModularGlsl.Proofs.Typing.Finalized
import ModularGlsl.Proofs.Version

/-!
# Varyings of a stage

A stage that is built declares the varyings of its source, in their order.  Each of them
has one of the simple types that the stage provides, its variable has the name of the
source, and no two of them share a name.  The text of the stage has one line for each of
them.  Values of constants change nothing of this.
-/

namespace ModularGlsl

/-- The varying that a statement declares. -/
def Stmt.varying? : Stmt -> Option InterfaceDecl
  | .interface decl => if decl.kind = .varying then some decl else none
  | _ => none

variable {stmt : Stmt}

theorem Stmt.varying?_eq_some {decl : InterfaceDecl} :
    stmt.varying? = some decl ↔ stmt = .interface decl ∧ decl.kind = .varying := by
  cases stmt with
  | interface own =>
      rw [varying?, Option.ite_none_right_eq_some, Option.some.injEq, Stmt.interface.injEq]
      constructor
      · rintro ⟨isVarying, rfl⟩
        exact ⟨rfl, isVarying⟩
      · rintro ⟨rfl, isVarying⟩
        exact ⟨isVarying, rfl⟩
  | _ => simp [varying?]

/-- The varyings that the modules of a bundle declare at their own level. -/
def Bundle.varyingDecls (bundle : Bundle) : List InterfaceDecl :=
  bundle.modules.flatMap (Module.collect Stmt.varying?)

variable {bundle result : Bundle}

theorem Bundle.mem_varyingDecls {decl : InterfaceDecl} :
    decl ∈ bundle.varyingDecls ↔
      decl.kind = .varying ∧ ∃ module ∈ bundle.modules, .interface decl ∈ module.statements := by
  simp only [varyingDecls, List.mem_flatMap, Module.collect, List.mem_filterMap,
    Stmt.varying?_eq_some]
  constructor
  · rintro ⟨module, mem, _, isStmt, rfl, isVarying⟩
    exact ⟨isVarying, module, mem, isStmt⟩
  · rintro ⟨isVarying, module, mem, isStmt⟩
    exact ⟨module, mem, _, isStmt, rfl, isVarying⟩

/-- A module declares varyings at its own level only. -/
def Module.VaryingsAtTop (module : Module) : Prop :=
  module.parts.filterMap Stmt.varying? = module.collect Stmt.varying?

/-! ## Varyings of the source -/

/-- The varying that a statement declares, as it is read. -/
def Stmt.sourceVarying? (stmt : Stmt) : Option InterfaceDecl :=
  stmt.varying?.map InterfaceDecl.unbound

/-- Neither accessors nor names have a part in the varyings of the source. -/
theorem Stmt.isSourceView_sourceVarying? : Stmt.IsSourceView Stmt.sourceVarying? where
  erase_eq stmt := by cases stmt <;> rfl
  accessor_eq _ := rfl
  unbound_eq stmt := by
    cases stmt with
    | interface decl =>
        cases kind_eq : decl.kind <;>
          simp [sourceVarying?, varying?, unbound, InterfaceDecl.unbound, Ident.unbound, kind_eq]
    | _ => rfl

/-- The varyings of a module, as they are read. -/
theorem Module.collect_sourceVarying? (module : Module) :
    module.collect Stmt.sourceVarying? =
      (module.collect Stmt.varying?).map InterfaceDecl.unbound := by
  rw [collect, collect, List.map_filterMap]
  rfl

/-- The varyings of all parts of a module, as they are read. -/
theorem Module.flatten_collect_sourceVarying? (module : Module) :
    (module.collect (Stmt.within Stmt.sourceVarying?)).flatten =
      (module.parts.filterMap Stmt.varying?).map InterfaceDecl.unbound := by
  rw [flatten_collect_within fun _ => rfl, List.map_filterMap]
  rfl

theorem Module.VaryingsAtTop.congr
    {module original : Module}
    (atTop : original.VaryingsAtTop)
    (own_eq : module.collect Stmt.sourceVarying? = original.collect Stmt.sourceVarying?)
    (parts_eq : module.collect (Stmt.within Stmt.sourceVarying?) =
      original.collect (Stmt.within Stmt.sourceVarying?)) :
    module.VaryingsAtTop := by
  have all_eq := congrArg List.flatten parts_eq
  rw [flatten_collect_sourceVarying?, flatten_collect_sourceVarying?, atTop,
    ← collect_sourceVarying?, ← own_eq, collect_sourceVarying?] at all_eq
  have sublist : (module.collect Stmt.varying?).Sublist
      (module.parts.filterMap Stmt.varying?) := by
    rw [parts, Stmt.partsOfBlock_eq_flatMap]
    exact (Stmt.sublist_flatMap_parts _).filterMap _
  refine (sublist.eq_of_length ?_).symm
  simpa using (congrArg List.length all_eq).symm

variable {library : Library} {stage : Stage} {modules : List Module}

namespace Program

variable {path : String} {naming : Naming} {consts : List (String × ConstValue)}

theorem IsReadFrom.exists_of_mem (isRead : IsReadFrom library path modules) :
    ∀ module ∈ modules, ∃ original ∈ library.modules,
      module.statements = original.statements := by
  obtain ⟨entry, found, placed⟩ := isRead
  intro module mem
  rcases Bundle.mem_of_place placed module mem with isEntry | isLoaded
  · rw [List.mem_singleton.mp isEntry]
    exact ⟨entry, List.mem_of_find?_eq_some found, rfl⟩
  · exact ⟨module, isLoaded, rfl⟩

/-- A stage is read from one list of modules. -/
theorem IsReadFrom.unique
    {others : List Module}
    (isRead : IsReadFrom library path modules)
    (isOther : IsReadFrom library path others) :
    modules = others := by
  obtain ⟨entry, found, placed⟩ := isRead
  obtain ⟨_, same, other⟩ := isOther
  cases found.symm.trans same
  exact Except.ok.inj (placed.symm.trans other)

/-- A stage keeps what the modules that it is read from declare, unless it depends on
names, accessors or values of constants. -/
theorem collect_buildStage
    {β : Type}
    {view : Stmt -> Option β}
    (source : Stmt.IsSourceView view)
    (const_eq : ∀ (decl : ConstDecl) text,
      view (.const { decl with injected := text }) = view (.const decl))
    (built : buildStage library stage path naming consts = .ok bundle) :
    ∃ modules, IsReadFrom library path modules ∧
      bundle.modules.map (Module.collect view) = modules.map (Module.collect view) := by
  obtain ⟨entry, finalized, found, run, injects⟩ := buildStage_eq_ok built
  obtain ⟨modules, placed, kept⟩ := source.collect_finalized run
  refine ⟨modules, ⟨entry, found, placed⟩, ?_⟩
  rw [← kept]
  clear built
  induction injects with
  | refl => rfl
  | tail _ step ih => exact (step.collect_eq const_eq).trans ih

/-- Varyings stand at the level of the modules of a stage if they do in its source. -/
theorem varyingsAtTop_of_buildStage
    (built : buildStage library stage path naming consts = .ok bundle)
    (atTop : ∀ modules, IsReadFrom library path modules ->
      ∀ module ∈ modules, module.VaryingsAtTop) :
    ∀ module ∈ bundle.modules, module.VaryingsAtTop := by
  obtain ⟨modules, isRead, own_eq⟩ :=
    collect_buildStage Stmt.isSourceView_sourceVarying? (fun _ _ => rfl) built
  obtain ⟨others, isOther, parts_eq⟩ :=
    collect_buildStage Stmt.isSourceView_sourceVarying?.within (fun _ _ => rfl) built
  obtain rfl := isRead.unique isOther
  intro module mem
  obtain ⟨index, inside, rfl⟩ := List.getElem_of_mem mem
  have own := List.getElem_of_eq own_eq (i := index) (by simpa using inside)
  have parts := List.getElem_of_eq parts_eq (i := index) (by simpa using inside)
  rw [List.getElem_map, List.getElem_map] at own parts
  exact (atTop modules isRead _ (List.getElem_mem _)).congr own parts

end Program

/-! ## Names -/

/-- Varyings have declarations of the output, which keep their names. -/
theorem Stmt.sublist_varyingSites
    (usage : Usage)
    (main : Option VarId)
    (block : List Stmt) :
    ((block.filterMap Stmt.varying?).flatMap fun decl => decl.name.sites [] true).Sublist
      (block.flatMap (Stmt.sitesInModule usage main)) := by
  induction block with
  | nil => exact .refl _
  | cons stmt rest ih =>
      rw [List.flatMap_cons]
      cases found : stmt.varying? with
      | none =>
          rw [List.filterMap_cons_none found]
          exact ih.trans (List.sublist_append_right _ _)
      | some decl =>
          obtain ⟨rfl, isVarying⟩ := varying?_eq_some.mp found
          have own : (Stmt.interface decl).sitesInModule usage main = decl.name.sites [] true := by
            rw [sitesInModule, isKept, isVarying]
            rfl
          rw [List.filterMap_cons_some found, List.flatMap_cons, own]
          exact ih.append_left _

namespace Bundle

/-- The varyings of a bundle have declarations of the output, which keep their names. -/
theorem sublist_varyingSites (bundle : Bundle) :
    (bundle.varyingDecls.flatMap fun decl => decl.name.sites [] true).Sublist bundle.sites := by
  rw [varyingDecls, sites]
  induction bundle.modules with
  | nil => exact .refl _
  | cons module rest ih =>
      rw [List.flatMap_cons, List.flatMap_cons, List.flatMap_append]
      exact (Stmt.sublist_varyingSites bundle.usage module.main module.statements).append
        ih

/-- Declarations that keep their names have distinct names, and built-ins are as the stage
provides them. -/
structure KeepsNames (bundle : Bundle) : Prop where
  /-- No variable is declared twice. -/
  nodup : (bundle.sites.map Site.var).Nodup
  /-- Names that are kept are those of the source. -/
  kept : ∀ site ∈ bundle.sites, site.keeps = true -> bundle.arena.name site.var = site.name
  /-- Names that are kept differ. -/
  distinct : ∀ first ∈ bundle.sites, ∀ second ∈ bundle.sites, first.keeps = true ->
    second.keeps = true -> first.name = second.name -> first.var = second.var
  /-- Built-ins stay. -/
  builtins : ∀ id < bundle.stage.arena.size, bundle.arena.get id = bundle.stage.arena.get id

/-- A build keeps the names that have to be kept, whether or not every search for a name
ends. -/
theorem IsFresh.keepsNames
    (fresh : IsFresh library bundle)
    (run : finalize library bundle = .ok () result) :
    result.KeepsNames := by
  obtain ⟨placed, named, typed, swept, spliced, unique, _, build, naming, _, rfl⟩ :=
    finalize_eq_ok run
  obtain ⟨stage_eq, _⟩ := build.stage_eq
  have nameable := fresh.isNameable build
  have above := fun site mem => ((fresh.numbered build).range site mem).1
  have arena_eq := build.arena_eq
  obtain ⟨state, rfl, inherits, distinct⟩ := nameable.inherits naming
  refine ⟨nameable.nodup, fun site mem keeps => ?_, distinct, fun id isBuiltin => ?_⟩
  · have unchanged := inherits.unchanged site.var fun other isOther same => by
      rw [List.inj_on_of_nodup_map nameable.nodup isOther mem same]
      exact keeps
    exact unchanged.trans (nameable.named site mem)
  · have isBuiltin : id < bundle.stage.arena.size := stage_eq ▸ isBuiltin
    have inBundle : id < bundle.arena.size := by rw [fresh.arena_eq]; exact isBuiltin
    have name_eq : state.arena.name id = bundle.stage.arena.name id := by
      have unchanged := inherits.unchanged id fun site mem same => by
        have notBelow := above site mem
        rw [same] at notBelow
        exact absurd inBundle (Nat.not_lt_of_le notBelow)
      rw [unchanged, arena_eq]
      exact fresh.name_builtins build.toSwept isBuiltin
    have swept_eq : swept.arena.get id = bundle.stage.arena.get id := by
      obtain ⟨grows, _⟩ := fresh.isInRange.areBound build.toNamed
      have fills := ((fresh.placed build.placing).goes_checkModules build.binding).fills
      obtain ⟨_, rfl, _⟩ := resolveDependencies_eq_ok build.placing
      obtain ⟨arena, checked, rfl⟩ := evalTypes_eq_ok build.typing
      replace fills : named.arena.Fills bundle.arena.size named.arena.size arena := by
        rwa [checked] at fills
      obtain ⟨modules, state, run, rfl⟩ := resolveActivity_eq_ok build.sweeping
      obtain ⟨moves, _⟩ := Liveness.areBound_of_sweepModules _ run
      have inTyped : id < arena.size := by
        rw [fills.retypes.size_eq]
        exact Nat.lt_of_lt_of_le inBundle grows.size_le
      rw [moves.grows.get_eq id inTyped, fills.get_eq id (.inl inBundle),
        grows.get_eq id inBundle, fresh.arena_eq]
    change state.arena.get id = spliced.stage.arena.get id
    rw [inherits.renames.get_eq id, arena_eq, swept_eq, name_eq, stage_eq]
    rfl

end Bundle

/-! ## Types -/

/-- A varying has one of the simple types that the stage provides, under the name of the
built-in, and its variable has the name of the source. -/
structure InterfaceDecl.IsVarying
    (stage : Stage)
    (arena : Arena)
    (decl : InterfaceDecl)
    (id : VarId)
    (ty : Ty) : Prop where
  /-- The declared variable. -/
  var_eq : decl.name.var = some id
  /-- The variable is a varying. -/
  decl_eq : (arena.get id).decl = .varying
  /-- The variable has the name of the source. -/
  name_eq : arena.name id = decl.name.name
  /-- The variable has the type. -/
  ty_eq : (arena.get id).ty = some ty
  /-- The declaration asks for the type. -/
  declared_eq : Typing.declaredType arena decl.ty decl.length false decl.span = .ok ty
  /-- The type is named as the stage names it. -/
  asked : ∃ asked, decl.ty.var = some asked ∧ (arena.get asked).decl = .builtin ∧
    arena.name asked = ty.name
  /-- The varying is no array. -/
  length_eq : decl.length = none
  /-- The stage provides the type. -/
  isProvided : .type ty ∈ Builtin.table stage
  /-- The type is a scalar or a vector. -/
  isSimple : ty.isSimple = true

variable {arena : Arena} {ty : Ty}

/-- A simple type that a declaration asks for is one that the stage provides. -/
theorem Typing.isProvided_of_declaredType
    (suits : ∀ id ty, (arena.get id).ty = some ty -> ∃ base : Arena, ty.Suits base id ∧
      ((base.get id).decl = .builtin -> id < stage.arena.size))
    (builtins : ∀ id < stage.arena.size, arena.get id = stage.arena.get id)
    {ident : Ident}
    {length : Option Nat}
    {allowSampler : Bool}
    {span : Span}
    (declared : declaredType arena ident length allowSampler span = .ok ty)
    (isSimple : ty.isSimple = true) :
    length = none ∧ .type ty ∈ Builtin.table stage ∧
      ∃ asked, ident.var = some asked ∧ (arena.get asked).decl = .builtin ∧
        arena.name asked = ty.name := by
  obtain ⟨asked, descriptor, proto, bound, known, describes, shape⟩ :=
    exists_descriptor_of_declaredType declared
  rcases shape with ⟨noLength, rfl⟩ | ⟨_, _, rfl⟩
  swap
  · cases isSimple
  obtain ⟨_, suits, below⟩ := suits asked descriptor known
  rw [suits.bare_eq] at describes
  subst describes
  have below := below (suits.isBuiltin isSimple)
  obtain ⟨builtin, mem, record_eq⟩ := Bundle.get_builtins stage below
  have record := (builtins asked below).trans record_eq
  rw [record] at known
  have isFormed := List.all_eq_true.mp (Builtin.all_isFormed stage) builtin mem
  cases builtin with
  | type own =>
      cases known
      exact ⟨noLength, mem, asked, bound, congrArg Variable.decl record,
        congrArg Variable.name record⟩
  | function => cases known
  | stageVariable name own writable =>
      cases known
      cases isFormed

variable {decl : InterfaceDecl}

namespace Bundle

theorem stage_finalized (run : finalize library bundle = .ok () result) :
    result.stage = bundle.stage := by
  obtain ⟨placed, named, typed, swept, spliced, unique, _, build, naming, _, rfl⟩ :=
    finalize_eq_ok run
  obtain ⟨stage_eq, _⟩ := build.stage_eq
  obtain ⟨_, _, rfl⟩ := uniqueNames_eq_ok naming
  exact stage_eq

section Finalized

variable (fresh : IsFresh library bundle) (run : finalize library bundle = .ok () result)
include fresh run

/-- The varyings of a finished build. -/
theorem IsFresh.isVarying_finalized :
    ∀ decl ∈ result.varyingDecls, ∃ id ty, decl.IsVarying result.stage result.arena id ty := by
  intro decl isDecl
  have names := fresh.keepsNames run
  obtain ⟨limit, settled⟩ := fresh.isSettled_finalized run
  have suits (id : VarId) (ty : Ty) (found : (result.arena.get id).ty = some ty) :
      ∃ base : Arena, ty.Suits base id ∧
        ((base.get id).decl = .builtin -> id < result.stage.arena.size) := by
    obtain ⟨base, suits, below, _⟩ := fresh.suits_finalized run found
    exact ⟨base, suits, stage_finalized run ▸ below⟩
  obtain ⟨isVarying, module, mem, isStmt⟩ := mem_varyingDecls.mp isDecl
  obtain ⟨⟨_, id, ty, _, hasType⟩, _⟩ := Stmt.everyIn_iff.mp (settled module mem) _ isStmt
  have isSimple := hasType.isSimple (by rw [isVarying]; decide)
  have declared := hasType.declared_eq
  have decl_eq := hasType.decl_eq
  rw [isVarying] at declared decl_eq
  obtain ⟨length_eq, isProvided, asked⟩ :=
    Typing.isProvided_of_declaredType suits names.builtins declared isSimple
  have isSite : ⟨id, decl.name.name, [], true⟩ ∈ result.sites := by
    refine result.sublist_varyingSites.subset (List.mem_flatMap.mpr ⟨decl, isDecl, ?_⟩)
    rw [Ident.sites, hasType.var_eq]
    exact List.mem_cons_self
  exact ⟨id, ty, hasType.var_eq, decl_eq, names.kept _ isSite rfl, hasType.ty_eq, declared, asked,
    length_eq, isProvided, isSimple⟩

/-- The varyings of a finished build have distinct names. -/
theorem IsFresh.nodup_varyings_finalized :
    (result.varyingDecls.map fun decl => decl.name.name).Nodup := by
  have names := fresh.keepsNames run
  have sublist := result.sublist_varyingSites
  have names_eq : (result.varyingDecls.flatMap fun decl => decl.name.sites [] true).map Site.name =
      result.varyingDecls.map fun decl => decl.name.name := by
    rw [List.map_flatMap, List.map_eq_flatMap]
    refine List.flatMap_congr fun decl isDecl => ?_
    obtain ⟨id, ty, isVarying⟩ := fresh.isVarying_finalized run decl isDecl
    rw [Ident.sites, isVarying.var_eq]
    rfl
  have keeps : ∀ site ∈ result.varyingDecls.flatMap fun decl => decl.name.sites [] true,
      site.keeps = true := by
    intro site isSite
    obtain ⟨decl, _, isSite⟩ := List.mem_flatMap.mp isSite
    obtain ⟨_, _, rfl⟩ := List.mem_map.mp isSite
    rfl
  rw [← names_eq]
  refine (sublist.nodup names.nodup.of_map).map_on fun first isFirst second isSecond same => ?_
  have firstSite := sublist.subset isFirst
  have secondSite := sublist.subset isSecond
  exact List.inj_on_of_nodup_map names.nodup firstSite secondSite
    (names.distinct first firstSite second secondSite (keeps first isFirst) (keeps second isSecond)
      same)

end Finalized

/-! ## Values of constants -/

section Injected

variable {limit : VarId} {finalized : Bundle}
variable (injects : Relation.ReflTransGen Injects finalized bundle)
include injects

/-- Values of constants keep varyings. -/
theorem isVarying_of_injects
    (settled : ∀ module ∈ finalized.modules, module.IsSettled limit finalized.arena)
    {id : VarId}
    (isVarying : decl.IsVarying stage finalized.arena id ty) :
    decl.IsVarying stage bundle.arena id ty := by
  obtain ⟨asked, bound, isBuiltin, name_eq⟩ := isVarying.asked
  have own_eq := get_of_injects injects settled id fun exported => by
    rw [isVarying.decl_eq]
    exact DeclKind.noConfusion
  have asked_eq := get_of_injects injects settled asked fun exported => by
    rw [isBuiltin]
    exact DeclKind.noConfusion
  refine { isVarying with
    decl_eq := by rw [own_eq]; exact isVarying.decl_eq
    name_eq := by rw [Arena.name, own_eq]; exact isVarying.name_eq
    ty_eq := by rw [own_eq]; exact isVarying.ty_eq
    declared_eq := Typing.declaredType_of_agrees (fun other isAsked => ?_) isVarying.declared_eq
    asked := ⟨asked, bound, by rw [asked_eq]; exact isBuiltin,
      by rw [Arena.name, asked_eq]; exact name_eq⟩ }
  cases bound.symm.trans isAsked
  exact .of_get_eq asked_eq

end Injected

end Bundle

/-! ## Texts -/

/-- The line that declares a varying under its source name. -/
def InterfaceDecl.varyingLine
    (decl : InterfaceDecl)
    (ty : Ty) : String :=
  "varying " ++ Emission.precisionText decl.precision ++ ty.name ++ " " ++ decl.name.name ++ ";"

namespace InterfaceDecl.IsVarying

variable {id : VarId}

theorem typeText_eq (isVarying : decl.IsVarying stage arena id ty) :
    Emission.typeText arena decl.ty = ty.name := by
  obtain ⟨asked, bound, _, name_eq⟩ := isVarying.asked
  rw [Emission.typeText, bound]
  exact name_eq

/-- A varying is written under its source name. -/
theorem interfaceText
    (isVarying : decl.IsVarying stage arena id ty)
    (kind_eq : decl.kind = .varying) :
    Emission.interfaceText arena decl = .ok (decl.varyingLine ty) := by
  have text_eq : decl.name.text arena = .ok decl.name.name := by
    rw [Ident.text, Ident.bound, isVarying.var_eq, ← isVarying.name_eq]
    rfl
  rw [Emission.interfaceText, Emission.typedName, text_eq, isVarying.typeText_eq,
    isVarying.length_eq, kind_eq, varyingLine]
  simp [bind, Except.bind, pure, Except.pure, InterfaceKind.spelling, Emission.lengthText,
    String.append_assoc]

end InterfaceDecl.IsVarying

variable {usage : Usage}

namespace Emission

/-- Statements with the pieces that are written for them, in order. -/
structure AreWritten
    (arena : Arena)
    (usage : Usage)
    (block : List Stmt)
    (lines : List (Stmt × List Piece)) : Prop where
  /-- The statements stand in the list. -/
  sublist : (lines.map Prod.fst).Sublist block
  /-- The statements are kept. -/
  kept : ∀ line ∈ lines, line.1.isKept usage true = true
  /-- The pieces are those of the statements. -/
  pieces_eq : ∀ line ∈ lines, stmtPieces arena usage 0 line.1 = .ok line.2
  /-- All varyings are written. -/
  varyings_eq : (lines.map Prod.fst).filterMap Stmt.varying? = block.filterMap Stmt.varying?

theorem AreWritten.append
    {first second : List Stmt}
    {firstLines secondLines : List (Stmt × List Piece)}
    (early : AreWritten arena usage first firstLines)
    (late : AreWritten arena usage second secondLines) :
    AreWritten arena usage (first ++ second) (firstLines ++ secondLines) where
  sublist := by
    rw [List.map_append]
    exact early.sublist.append late.sublist
  kept := List.forall_mem_append.mpr ⟨early.kept, late.kept⟩
  pieces_eq := List.forall_mem_append.mpr ⟨early.pieces_eq, late.pieces_eq⟩
  varyings_eq := by
    rw [List.map_append, List.filterMap_append, List.filterMap_append, early.varyings_eq,
      late.varyings_eq]

/-- A statement that declares no varying may be left out. -/
theorem AreWritten.skip
    {rest : List Stmt}
    {lines : List (Stmt × List Piece)}
    (isOther : stmt.varying? = none)
    (written : AreWritten arena usage rest lines) :
    AreWritten arena usage (stmt :: rest) lines where
  sublist := written.sublist.cons stmt
  kept := written.kept
  pieces_eq := written.pieces_eq
  varyings_eq := by rw [List.filterMap_cons_none isOther, written.varyings_eq]

theorem varying?_eq_none_of_stmtPieces
    {pieces : List Piece}
    (found : stmtPieces arena usage 0 stmt = .ok pieces)
    (isEmpty : pieces.isEmpty = true) :
    stmt.varying? = none := by
  cases stmt with
  | interface decl =>
      obtain ⟨text, _, found⟩ := except_bind_eq_ok.mp found
      cases found
      cases isEmpty
  | _ => rfl

/-- The chunks of a module are those of its statements. -/
theorem areWritten_of_moduleChunks
    {block : List Stmt}
    {chunks : List (List Piece)}
    (found : moduleChunks arena usage block = .ok chunks) :
    ∃ lines, chunks = lines.map Prod.snd ∧ AreWritten arena usage block lines := by
  induction block generalizing chunks with
  | nil =>
      cases found
      exact ⟨[], rfl, .refl _, by simp, by simp, rfl⟩
  | cons stmt rest ih =>
      rw [moduleChunks] at found
      split at found
      next isKept =>
        obtain ⟨pieces, own, found⟩ := except_bind_eq_ok.mp found
        obtain ⟨after, later, found⟩ := except_bind_eq_ok.mp found
        cases found
        obtain ⟨lines, rfl, written⟩ := ih later
        split
        next isEmpty =>
          exact ⟨lines, rfl, written.skip (varying?_eq_none_of_stmtPieces own isEmpty)⟩
        next =>
          have single : AreWritten arena usage [stmt] [(stmt, pieces)] :=
            ⟨.refl _, by simpa using isKept, by simpa using own, rfl⟩
          exact ⟨(stmt, pieces) :: lines, rfl, single.append written⟩
      next isLeftOut =>
        obtain ⟨lines, chunks_eq, written⟩ := ih found
        refine ⟨lines, chunks_eq, written.skip ?_⟩
        by_contra declares
        obtain ⟨decl, isVarying⟩ := Option.ne_none_iff_exists'.mp declares
        obtain ⟨rfl, kind_eq⟩ := Stmt.varying?_eq_some.mp isVarying
        rw [Stmt.isKept, kind_eq] at isLeftOut
        exact isLeftOut rfl

end Emission

namespace Bundle

/-- A text declares exactly the varyings of a bundle: it consists of the texts of
statements, one line each, these declare the varyings and have no other ones inside them,
and the line of a varying gives its type and its source name. -/
structure WritesVaryings
    (bundle : Bundle)
    (spacing : Spacing)
    (lines : List (Stmt × List Piece))
    (text : String) : Prop where
  /-- The text consists of the version and the lines. -/
  text_eq : text = versionLine bundle.version ++
    "\n".intercalate (lines.map fun line => render spacing line.2)
  /-- The lines are those of statements of the modules. -/
  written : Emission.AreWritten bundle.arena bundle.usage
    (bundle.modules.flatMap Module.statements) lines
  /-- The lines declare the varyings, in order. -/
  declared_eq : (lines.map Prod.fst).filterMap Stmt.varying? = bundle.varyingDecls
  /-- No varying is declared inside another statement. -/
  parts_eq : ((lines.map Prod.fst).flatMap Stmt.parts).filterMap Stmt.varying? =
    bundle.varyingDecls
  /-- A varying is declared with its type under its source name. -/
  line_eq : ∀ line ∈ lines, ∀ decl, line.1.varying? = some decl ->
    ∃ ty, Typing.declaredType bundle.arena decl.ty decl.length false decl.span = .ok ty ∧
      render spacing line.2 = decl.varyingLine ty

/-- The text of a bundle declares its varyings. -/
theorem writesVaryings_of_write
    (isVarying : ∀ decl ∈ bundle.varyingDecls, ∃ id ty,
      decl.IsVarying bundle.stage bundle.arena id ty)
    (atTop : ∀ module ∈ bundle.modules, module.VaryingsAtTop)
    {spacing : Spacing}
    {text : String}
    (written : bundle.write spacing = .ok text) :
    ∃ lines, bundle.WritesVaryings spacing lines text := by
  obtain ⟨found, outcome, same⟩ := except_bind_eq_ok.mp written
  cases same
  rw [chunks_eq] at outcome
  obtain ⟨lines, rfl, areWritten⟩ := Emission.areWritten_of_moduleChunks outcome
  have declared_eq : (lines.map Prod.fst).filterMap Stmt.varying? = bundle.varyingDecls := by
    rw [areWritten.varyings_eq, varyingDecls, List.filterMap_flatMap]
    rfl
  refine ⟨lines, by rw [List.map_map]; rfl, areWritten, declared_eq, ?_,
    fun line isLine decl isDecl => ?_⟩
  · -- Parts of the lines are parts of the modules, and the lines themselves declare them all.
    refine List.Sublist.antisymm ?_ ?_
    · have inModules := (areWritten.sublist.flatMap Stmt.parts).filterMap Stmt.varying?
      have all_eq : ((bundle.modules.flatMap Module.statements).flatMap Stmt.parts).filterMap
          Stmt.varying? = bundle.varyingDecls := by
        rw [List.flatMap_assoc, List.filterMap_flatMap, varyingDecls]
        refine List.flatMap_congr fun module mem => ?_
        rw [← Stmt.partsOfBlock_eq_flatMap]
        exact atTop module mem
      rwa [all_eq] at inModules
    · have inParts := (Stmt.sublist_flatMap_parts (lines.map Prod.fst)).filterMap Stmt.varying?
      rwa [declared_eq] at inParts
  · obtain ⟨stmt, pieces⟩ := line
    have isOne : decl ∈ bundle.varyingDecls := by
      rw [← declared_eq]
      exact List.mem_filterMap.mpr ⟨stmt, List.mem_map_of_mem isLine, isDecl⟩
    obtain ⟨id, ty, own⟩ := isVarying decl isOne
    obtain ⟨rfl, kind_eq⟩ := Stmt.varying?_eq_some.mp isDecl
    refine ⟨ty, own.declared_eq, ?_⟩
    have pieces_eq := areWritten.pieces_eq _ isLine
    rw [Emission.stmtPieces, own.interfaceText kind_eq] at pieces_eq
    cases pieces_eq
    simp [render, Piece.render]

end Bundle

end ModularGlsl
