import ModularGlsl.Proofs.Stage

/-!
# Versions of programs

A stage takes the first version that each of its modules asks for.  These have to
agree, and the text of the stage begins with their line.  Further pragmas of a module
leave no trace, and the two stages of a program are never compared.
-/

namespace ModularGlsl

/-- The version that a pragma asks for. -/
def Stmt.wantedVersion? (stmt : Stmt) : Option String :=
  (Module.version? stmt).map Prod.fst

/-- The versions that a module asks for, in order. -/
def Module.versions (module : Module) : List String :=
  module.collect Stmt.wantedVersion?

/-- Modules agree on a version: it is the first one that each of them asks for, if it
asks for any, and without one no module does. -/
structure Module.AgreeOn
    (modules : List Module)
    (version : Option String) : Prop where
  /-- What a module asks for first is the version. -/
  asked : ∀ module ∈ modules, ∀ first ∈ module.versions.head?, version = some first
  /-- Some module asks for the version. -/
  met : ∀ wanted ∈ version, ∃ module ∈ modules, module.versions.head? = some wanted

theorem Module.AgreeOn.congr
    {modules others : List Module}
    {version : Option String}
    (agree : Module.AgreeOn modules version)
    (same : modules.map Module.versions = others.map Module.versions) :
    Module.AgreeOn others version where
  asked module mem first isFirst := by
    have listed := List.mem_map_of_mem (f := Module.versions) mem
    rw [← same] at listed
    obtain ⟨original, isOriginal, versions_eq⟩ := List.mem_map.mp listed
    exact agree.asked original isOriginal first (versions_eq ▸ isFirst)
  met wanted isWanted := by
    obtain ⟨original, isOriginal, isFirst⟩ := agree.met wanted isWanted
    have listed := List.mem_map_of_mem (f := Module.versions) isOriginal
    rw [same] at listed
    obtain ⟨module, mem, versions_eq⟩ := List.mem_map.mp listed
    exact ⟨module, mem, versions_eq ▸ isFirst⟩

/-- The version of a module is the first one that it asks for. -/
theorem Module.head?_versions (module : Module) :
    module.versions.head? = module.declaredVersion?.map Prod.fst := by
  rw [versions, collect, List.head?_filterMap, declaredVersion?]
  induction module.statements with
  | nil => rfl
  | cons stmt rest ih =>
      rw [List.findSome?_cons, List.findSome?_cons, Stmt.wantedVersion?]
      cases version? stmt with
      | none => exact ih
      | some declared => rfl

/-! ## Versions stay -/

/-- Neither accessors nor names have a part in versions. -/
theorem Stmt.isSourceView_wantedVersion? : Stmt.IsSourceView Stmt.wantedVersion? where
  erase_eq stmt := by cases stmt <;> rfl
  accessor_eq _ := rfl
  unbound_eq stmt := by cases stmt <;> rfl

variable {bundle : Bundle}

variable {library : Library}

namespace Bundle

variable {found result : Option (String × Span)}

theorem commonVersion_cons_eq_ok
    {module : Module}
    {rest : List Module}
    (common : commonVersion found (module :: rest) = .ok result) :
    module.versions.head? = none ∧ commonVersion found rest = .ok result ∨
      ∃ next, module.versions.head? = some next.1 ∧
        commonVersion (some next) rest = .ok result ∧
          ∀ earlier ∈ found, earlier.1 = next.1 := by
  rw [Module.head?_versions]
  unfold commonVersion at common
  split at common
  next declared => exact .inl ⟨by rw [declared, Option.map_none], common⟩
  next own declared => exact .inr ⟨own, by rw [declared, Option.map_some], common, by simp⟩
  next expected previous version span declared =>
    split at common
    next same =>
      exact .inr ⟨_, by rw [declared, Option.map_some, same], common, by rintro _ ⟨⟩; rfl⟩
    next => cases common

theorem commonVersion_eq_ok
    {modules : List Module}
    (common : commonVersion found modules = .ok result) :
    (∀ earlier ∈ found, result.map Prod.fst = some earlier.1) ∧
      (∀ module ∈ modules, ∀ first ∈ module.versions.head?, result.map Prod.fst = some first) ∧
        ∀ wanted ∈ result, wanted ∈ found ∨
          ∃ module ∈ modules, module.versions.head? = some wanted.1 := by
  induction modules generalizing found with
  | nil =>
      cases common
      refine ⟨fun earlier isFound => ?_, by simp, fun _ => .inl⟩
      rw [isFound, Option.map_some]
  | cons module rest ih =>
      rcases commonVersion_cons_eq_ok common with ⟨asksNone, common⟩ | ⟨next, asks, common, same⟩
      · obtain ⟨kept, asked, met⟩ := ih common
        refine ⟨kept, List.forall_mem_cons.mpr ⟨by simp [asksNone], asked⟩, fun wanted isMet => ?_⟩
        exact (met wanted isMet).imp_right fun ⟨other, mem, isFirst⟩ =>
          ⟨other, List.mem_cons_of_mem _ mem, isFirst⟩
      · obtain ⟨kept, asked, _⟩ := ih common
        have result_eq : result.map Prod.fst = some next.1 := kept next rfl
        refine ⟨fun earlier isFound => by rw [result_eq, same earlier isFound],
          List.forall_mem_cons.mpr ⟨fun first isFirst => ?_, asked⟩, fun wanted isMet => .inr ?_⟩
        · rw [result_eq, ← asks]
          exact isFirst
        · refine ⟨module, List.mem_cons_self, ?_⟩
          rw [asks, ← result_eq, isMet, Option.map_some]

/-- The common version is the one that modules agree on. -/
theorem agreeOn_of_commonVersion
    {found : Option (String × Span)}
    (common : commonVersion none bundle.modules = .ok found) :
    Module.AgreeOn bundle.modules (found.map Prod.fst) := by
  obtain ⟨_, asked, met⟩ := commonVersion_eq_ok common
  refine ⟨asked, fun wanted isWanted => ?_⟩
  obtain ⟨declared, isFound, rfl⟩ := Option.map_eq_some_iff.mp isWanted
  exact (met declared isFound).resolve_left (by rintro ⟨⟩)

/-- A build gives the version that the placed modules agree on, and keeps the versions
that they ask for. -/
theorem agreeOn_of_finalize
    {result : Bundle}
    (run : finalize library bundle = .ok () result) :
    ∃ modules, Placement.place library bundle.modules = .ok modules ∧
      Module.AgreeOn modules result.version := by
  obtain ⟨modules, placed, versions_eq⟩ :=
    Stmt.isSourceView_wantedVersion?.collect_finalized run
  obtain ⟨_, _, _, _, _, _, _, _, _, common, rfl⟩ := finalize_eq_ok run
  exact ⟨modules, placed, (agreeOn_of_commonVersion common).congr versions_eq⟩

end Bundle

/-! ## Texts -/

/-- A module without its version pragmas. -/
def Module.withoutVersions (module : Module) : Module :=
  { module with statements := module.statements.filter fun stmt => stmt.wantedVersion?.isNone }

/-- A bundle without a version, and without version pragmas. -/
def Bundle.withoutVersions (bundle : Bundle) : Bundle :=
  { bundle with modules := bundle.modules.map Module.withoutVersions, version := none }

/-- Version pragmas leave no trace among the statements. -/
theorem Emission.moduleChunks_filter
    (arena : Arena)
    (usage : Usage)
    (block : List Stmt) :
    moduleChunks arena usage (block.filter fun stmt => stmt.wantedVersion?.isNone) =
      moduleChunks arena usage block := by
  induction block with
  | nil => rfl
  | cons stmt rest ih =>
      rw [List.filter_cons]
      split
      · rw [moduleChunks, moduleChunks, ih]
      next asks =>
        have notKept : stmt.isKept usage true = false := by
          cases stmt with
          | version => rfl
          | _ => exact absurd rfl asks
        rw [moduleChunks, ih, notKept]
        rfl

variable {spacing : Spacing} {text : String}

namespace Bundle

/-- Version pragmas leave no trace among the chunks. -/
theorem chunks_withoutVersions
    (arena : Arena)
    (usage : Usage)
    (modules : List Module) :
    chunks arena usage (modules.map Module.withoutVersions) = chunks arena usage modules := by
  induction modules with
  | nil => rfl
  | cons module rest ih =>
      rw [List.map_cons, chunks, chunks, ih, Module.withoutVersions,
        Emission.moduleChunks_filter]

/-- The text of a stage is the line of its version, and what is written of the modules
without their version pragmas. -/
theorem exists_body_of_write (written : bundle.write spacing = .ok text) :
    ∃ body, bundle.withoutVersions.write spacing = .ok body ∧
      text = versionLine bundle.version ++ body := by
  obtain ⟨found, outcome, written⟩ := except_bind_eq_ok.mp written
  cases written
  refine ⟨_, ?_, rfl⟩
  rw [write, withoutVersions, chunks_withoutVersions, outcome]
  exact congrArg Except.ok (String.empty_append ..)

end Bundle

/-! ## Linked programs -/

namespace Program

/-- The modules that a stage consists of, as they are read: its entry module and all
that it imports. -/
def IsReadFrom
    (library : Library)
    (path : String)
    (modules : List Module) : Prop :=
  ∃ entry, library.get? path = some entry ∧
    Placement.place library [{ entry with entry := true }] = .ok modules

/-- The text of a stage begins with the line of the version that its modules agree on,
and their pragmas leave no other trace. -/
structure IsVersioned
    (library : Library)
    (path : String)
    (spacing : Spacing)
    (bundle : Bundle)
    (text : String) : Prop where
  /-- The modules agree on the version. -/
  agree : ∃ modules, IsReadFrom library path modules ∧ Module.AgreeOn modules bundle.version
  /-- The version comes before what is written of the modules without pragmas. -/
  text_eq : ∃ body, bundle.withoutVersions.write spacing = .ok body ∧
    text = Bundle.versionLine bundle.version ++ body

/-- Values of constants keep the version. -/
theorem version_of_injects
    {finalized : Bundle}
    (injects : Relation.ReflTransGen Bundle.Injects finalized bundle) :
    bundle.version = finalized.version := by
  induction injects with
  | refl => rfl
  | tail _ step ih =>
      cases step with
      | const => exact ih

/-- A stage that is built and written begins with its version. -/
theorem isVersioned_of_write
    {stage : Stage}
    {path : String}
    {naming : Naming}
    {consts : List (String × ConstValue)}
    (built : buildStage library stage path naming consts = .ok bundle)
    (written : bundle.write spacing = .ok text) :
    IsVersioned library path spacing bundle text := by
  obtain ⟨entry, finalized, found, run, injects⟩ := buildStage_eq_ok built
  obtain ⟨modules, placed, agree⟩ := Bundle.agreeOn_of_finalize run
  rw [← version_of_injects injects] at agree
  exact ⟨⟨modules, ⟨entry, found, placed⟩, agree⟩, Bundle.exists_body_of_write written⟩

/-- Each text of a linked program begins with the version that the modules of its stage
agree on. -/
theorem link_isVersioned
    {library : Library}
    {vertexPath fragmentPath : String}
    {options : LinkOptions}
    {program : Program}
    (linked : link library vertexPath fragmentPath options = .ok program) :
    ∃ vertex fragment,
      buildStage library .vertex vertexPath options.naming options.vertexConsts = .ok vertex ∧
      buildStage library .fragment fragmentPath options.naming options.fragmentConsts =
        .ok fragment ∧
      IsVersioned library vertexPath options.spacing vertex program.vertex ∧
      IsVersioned library fragmentPath options.spacing fragment program.fragment := by
  obtain ⟨vertex, fragment, vertexBuilt, fragmentBuilt, _, vertexWritten, fragmentWritten⟩ :=
    link_eq_ok linked
  exact ⟨vertex, fragment, vertexBuilt, fragmentBuilt,
    isVersioned_of_write vertexBuilt vertexWritten,
    isVersioned_of_write fragmentBuilt fragmentWritten⟩

end Program

namespace Sample

/-- The version pragma of a number, for embedded systems. -/
def asks (number : Nat) : Stmt :=
  .version number (some "es") {}

/-- A program in which a shared module and one of the stages ask for a version. -/
def versioned : Library :=
  ⟨[{ path := "/shared", statements := [asks 300] },
    { path := "/vertex", statements := [.importAll (name "shared") "/shared" {}, asks 300, main []] },
    { path := "/fragment", statements := [.importAll (name "shared") "/shared" {}, main []] }]⟩

/-- A program whose stages ask for different versions, and whose vertex stage asks for
two of them. -/
def mixed : Library :=
  ⟨[{ path := "/vertex", statements := [asks 100, asks 310, main []] },
    { path := "/fragment", statements := [asks 300, main []] }]⟩

end Sample

namespace Program

/-- The texts of a program whose modules agree on a version. -/
theorem link_versioned_isVersioned :
    ∃ options program, link Sample.versioned "/vertex" "/fragment" options = .ok program ∧
      ∃ vertex fragment,
        buildStage Sample.versioned .vertex "/vertex" options.naming options.vertexConsts =
          .ok vertex ∧
        buildStage Sample.versioned .fragment "/fragment" options.naming options.fragmentConsts =
          .ok fragment ∧
        IsVersioned Sample.versioned "/vertex" options.spacing vertex program.vertex ∧
        IsVersioned Sample.versioned "/fragment" options.spacing fragment program.fragment := by
  have succeeds : (link Sample.versioned "/vertex" "/fragment" {}).toOption.isSome = true := by
    decide +kernel
  cases linked : link Sample.versioned "/vertex" "/fragment" {} with
  | error error =>
      rw [linked] at succeeds
      cases succeeds
  | ok program => exact ⟨{}, program, linked, link_isVersioned linked⟩

/-- Two stages that ask for different versions are linked, and a second pragma of a
module is ignored. -/
theorem link_mixed_versions :
    (link Sample.mixed "/vertex" "/fragment" {}).toOption =
      some ⟨"#version 100 es\nvoid main()\x7b\n\x7d", "#version 300 es\nvoid main()\x7b\n\x7d"⟩ := by
  decide +kernel

end Program

end ModularGlsl
