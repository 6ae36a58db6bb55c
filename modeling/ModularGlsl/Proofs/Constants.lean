import ModularGlsl.Proofs.Constants.Value
import ModularGlsl.Proofs.Declarations

/-!
# Constants that get values late

After a build, exported constants may be given values.  The known integer of such a
constant is the value that is written for it.  Known integers of other constants, and
indices, were computed from initial values, and stay what they are.  They are the values
in the text as long as no constant that they depend on was given another value; where one
was, nothing is checked again.
-/

namespace ModularGlsl

/-! ## Constants have variables of their own -/

/-- The constants among statements are declared by them. -/
theorem ConstDecl.sublist_declares (parts : List Stmt) :
    ((parts.filterMap Stmt.const?).map ConstDecl.name).Sublist (parts.flatMap Stmt.declares) := by
  induction parts with
  | nil => exact .slnil
  | cons part rest ih =>
      cases isConst : part.const? with
      | none =>
          rw [List.filterMap_cons_none isConst]
          exact ih.trans (List.sublist_append_right _ _)
      | some decl =>
          rw [List.filterMap_cons_some isConst, Stmt.const?_eq_some.mp isConst]
          exact ih.cons_cons decl.name

/-- The constants of modules are among their declarations. -/
theorem ConstDecl.sublist_declarations (modules : List Module) :
    ((modules.flatMap fun module => module.parts.filterMap Stmt.const?).map
      ConstDecl.name).Sublist (modules.flatMap Module.declarations) := by
  induction modules with
  | nil => exact .slnil
  | cons module rest ih =>
      rw [List.flatMap_cons, List.flatMap_cons, List.map_append]
      exact (ConstDecl.sublist_declares module.parts).append ih

/-- No variable is declared by two constants. -/
def ConstDecl.AreDistinct (decls : List ConstDecl) : Prop :=
  (ConstDecl.vars decls).Pairwise fun first second => ∀ id ∈ first, id ∉ second

variable {library : Library} {bundle result finalized : Bundle}

/-- After a build, no variable is declared by two constants. -/
theorem Bundle.IsFresh.areDistinct_finalized
    (fresh : IsFresh library bundle)
    (run : finalize library bundle = .ok () result) :
    ConstDecl.AreDistinct result.consts := by
  obtain ⟨placed, named, typed, swept, spliced, build,
    modules_eq, _, _⟩ := fresh.agreesOn_typed run
  obtain ⟨_, bound⟩ := fresh.isInRange.areBound build.toNamed
  have typed_eq : typed.modules = named.modules := by
    obtain ⟨_, _, rfl⟩ := evalTypes_eq_ok build.typing
    rfl
  have consts_eq : ConstDecl.vars result.consts = ConstDecl.vars named.consts := by
    have swept_eq := vars_consts_spliced build.sweeping build.splicing
    rw [consts, consts, typed_eq] at swept_eq
    rw [consts, modules_eq, swept_eq]
    rfl
  have nodup : (ConstDecl.vars named.consts).Nodup := by
    have declared := (bound named.arena (.refl _)).ascend.nodup
    have among := (ConstDecl.sublist_declarations named.modules).map Ident.var
    rw [List.map_map] at among
    exact declared.sublist among
  rw [ConstDecl.AreDistinct, consts_eq]
  exact nodup.imp fun different id isFirst isSecond => different (isFirst.trans isSecond.symm)

/-! ## Initial values -/

/-- The text in place of the initial value of the constant that a statement declares. -/
def Stmt.injected? (stmt : Stmt) : Option (Option String) :=
  stmt.const?.map ConstDecl.injected

/-- Neither accessors nor names have a part in the texts of constants. -/
theorem Stmt.isSourceView_injected? : Stmt.IsSourceView Stmt.injected? where
  erase_eq stmt := by cases stmt <;> rfl
  accessor_eq _ := rfl
  unbound_eq stmt := by cases stmt <;> rfl

/-- The initial values of the constants of a module are written. -/
def Module.WritesInitials (module : Module) : Prop :=
  ∀ decl, .const decl ∈ module.parts -> decl.injected = none

namespace Bundle

/-- A build puts no text in the place of an initial value. -/
theorem injected_finalized
    (own : ∀ module ∈ bundle.modules, module.WritesInitials)
    (others : ∀ module ∈ library.modules, module.WritesInitials)
    (run : finalize library bundle = .ok () finalized) :
    ∀ decl ∈ finalized.consts, decl.injected = none := by
  obtain ⟨modules, placed, kept⟩ := Stmt.isSourceView_injected?.within.collect_finalized run
  intro decl isConst
  obtain ⟨module, mem, isPart⟩ := mem_consts.mp isConst
  have listed := List.mem_map_of_mem (f := Module.collect (Stmt.within Stmt.injected?)) mem
  rw [kept] at listed
  obtain ⟨original, isOriginal, same⟩ := List.mem_map.mp listed
  have texts := congrArg List.flatten same
  rw [Module.flatten_collect_within fun _ => rfl,
    Module.flatten_collect_within fun _ => rfl] at texts
  have isText : decl.injected ∈ original.parts.filterMap Stmt.injected? := by
    rw [texts]
    exact List.mem_filterMap.mpr ⟨_, isPart, rfl⟩
  obtain ⟨part, isPart, part_eq⟩ := List.mem_filterMap.mp isText
  obtain ⟨source, source_eq, injected_eq⟩ := Option.map_eq_some_iff.mp part_eq
  obtain rfl := Stmt.const?_eq_some.mp source_eq
  rw [← injected_eq]
  rcases mem_of_place placed original isOriginal with isOwn | isLoaded
  · exact own original isOwn source isPart
  · exact others original isLoaded source isPart

/-- The constants of a finished build have types. -/
theorem IsFresh.areTyped_finalized
    (fresh : IsFresh library bundle)
    (run : finalize library bundle = .ok () finalized) :
    ConstDecl.AreTyped finalized.arena finalized.consts where
  regular id ty found := by
    obtain ⟨_, suits, _⟩ := fresh.suits_finalized run found
    exact suits.appears
  isConst id value found := by
    obtain ⟨_, suits, _, isConst⟩ := fresh.suits_finalized run found
    obtain ⟨exported, isExported⟩ := suits.exists_const
    exact isConst exported isExported
  hasType decl isConst := by
    obtain ⟨limit, settled⟩ := fresh.isSettled_finalized run
    obtain ⟨module, mem, isPart⟩ := mem_consts.mp isConst
    obtain ⟨⟨_, id, declared, _, hasType⟩, _⟩ :=
      (Stmt.everyIn_iff_parts _).mp (settled module mem) _ isPart
    exact ⟨id, declared, hasType⟩

end Bundle

/-! ## Values given late -/

namespace ConstDecl

/-- A constant with its initial value. -/
def uninjected (decl : ConstDecl) : ConstDecl :=
  { decl with injected := none }

variable {consts others : List ConstDecl}

/-- The variables of constants do not depend on their values. -/
theorem vars_eq_of_uninjected (same : others.map uninjected = consts.map uninjected) :
    vars others = vars consts := by
  have vars_eq (decls : List ConstDecl) : vars (decls.map uninjected) = vars decls := by
    simp [vars, uninjected]
  rw [← vars_eq, same, vars_eq]

/-- The types of constants do not depend on their values. -/
theorem AreTyped.of_uninjected
    {arena : Arena}
    (typed : AreTyped arena consts)
    (same : others.map uninjected = consts.map uninjected) :
    AreTyped arena others where
  regular := typed.regular
  isConst := by
    rw [vars_eq_of_uninjected same]
    exact typed.isConst
  hasType decl isConst := by
    have listed := List.mem_map_of_mem (f := uninjected) isConst
    rw [same] at listed
    obtain ⟨original, isOriginal, same⟩ := List.mem_map.mp listed
    obtain ⟨id, declared, hasType⟩ := typed.hasType original isOriginal
    obtain ⟨text, rfl⟩ : ∃ text, decl = { original with injected := text } := by
      refine ⟨decl.injected, ?_⟩
      cases decl
      cases original
      cases same
      rfl
    exact ⟨id, declared, hasType.var_eq, hasType.decl_eq, hasType.declared_eq, hasType.below,
      hasType.initial, hasType.missing⟩

theorem AreDistinct.var_ne
    {early late : List ConstDecl}
    {decl other : ConstDecl}
    (distinct : AreDistinct (early ++ decl :: late))
    (isOther : other ∈ early ++ late)
    {id : VarId}
    (declares : decl.name.var = some id) :
    other.name.var ≠ some id := by
  intro same
  rw [AreDistinct, vars, List.pairwise_map, List.pairwise_append, List.pairwise_cons] at distinct
  rcases List.mem_append.mp isOther with isEarly | isLate
  · exact distinct.2.2 other isEarly decl List.mem_cons_self id same declares
  · exact distinct.2.1.1 other isLate id declares same

end ConstDecl

namespace Bundle

variable {after : Bundle}

theorem Injects.consts_eq (injects : bundle.Injects after) :
    ∃ early decl late value id, bundle.consts = early ++ decl :: late ∧
      after.consts = early ++ { decl with injected := some value.text } :: late ∧
      injectionTarget bundle.arena decl value = .ok id ∧
      after.arena = injectType bundle.arena id value := by
  cases injects with
  | @const front back module early late decl value id modules_eq statements_eq _ target =>
      refine ⟨(front.flatMap fun module => module.parts.filterMap Stmt.const?) ++
        (Stmt.partsOfBlock early).filterMap Stmt.const?, decl,
        (Stmt.partsOfBlock late).filterMap Stmt.const? ++
          back.flatMap fun module => module.parts.filterMap Stmt.const?,
        value, id, ?_, ?_, target, rfl⟩
      · simp [consts, modules_eq, Module.parts, statements_eq, Stmt.partsOfBlock_eq_flatMap,
          Stmt.parts, Stmt.const?]
      · simp [consts, Module.parts, Stmt.partsOfBlock_eq_flatMap, Stmt.parts, Stmt.const?]

/-- If a constant that got a value is a known integer, this is what is written for it. -/
theorem keepsValue_injected
    {arena : Arena}
    {decl : ConstDecl}
    {value : ConstValue}
    {id : VarId}
    (target : injectionTarget arena decl value = .ok id) :
    ConstDecl.KeepsValue (injectType arena id value)
      { decl with injected := some value.text } := by
  obtain ⟨declares, _, ty, found, kind_eq⟩ := injectionTarget_eq_ok target
  intro text isText own isOwn known ty_eq
  cases isText
  cases declares.symm.trans isOwn
  cases value with
  | int number =>
      have inside : id < arena.size := by
        by_contra outside
        rw [Arena.get_of_size_le (Nat.le_of_not_lt outside)] at found
        cases found
      rw [injectType, Arena.get_setTy_self inside] at ty_eq
      cases ty_eq
      rfl
  | float _ | bool _ =>
      -- The type of a known integer takes integers only.
      cases found.symm.trans ty_eq
      cases kind_eq

/-- What stays of a finished build when its constants get values. -/
structure Tracks (finalized bundle : Bundle) : Prop where
  /-- Constants differ in the texts for their values only. -/
  consts_eq : bundle.consts.map ConstDecl.uninjected = finalized.consts.map ConstDecl.uninjected
  /-- A text is the known integer of its constant. -/
  injected : ∀ decl ∈ bundle.consts, decl.KeepsValue bundle.arena
  /-- Constants without a text have the types that they had. -/
  kept : ∀ decl ∈ bundle.consts, decl.injected = none -> ∀ id ∈ decl.name.var,
    bundle.arena.get id = finalized.arena.get id

/-- A value for a constant leaves the others as they are. -/
theorem Tracks.injects
    (tracks : Tracks finalized bundle)
    (distinct : ConstDecl.AreDistinct finalized.consts)
    (injects : bundle.Injects after) :
    Tracks finalized after := by
  obtain ⟨early, decl, late, value, id, consts_eq, after_eq, target, arena_eq⟩ := injects.consts_eq
  obtain ⟨declares, _⟩ := injectionTarget_eq_ok target
  have distinct : ConstDecl.AreDistinct (early ++ decl :: late) := by
    rw [ConstDecl.AreDistinct, ← consts_eq, ConstDecl.vars_eq_of_uninjected tracks.consts_eq]
    exact distinct
  have isNewOr {other : ConstDecl} (isConst : other ∈ after.consts) :
      other = { decl with injected := some value.text } ∨ other ∈ early ++ late := by
    grind
  have isOld {other : ConstDecl} (isOther : other ∈ early ++ late) : other ∈ bundle.consts := by
    rw [consts_eq]
    exact List.mem_append.mpr ((List.mem_append.mp isOther).imp_right (List.mem_cons_of_mem _))
  have same {other : ConstDecl} (isOther : other ∈ early ++ late) {own : VarId}
      (isOwn : other.name.var = some own) : after.arena.get own = bundle.arena.get own := by
    rw [arena_eq]
    refine get_injectType bundle.arena (fun same => ?_) value
    exact distinct.var_ne isOther declares (same ▸ isOwn)
  refine ⟨?_, fun other isConst => ?_, fun other isConst isKept own isOwn => ?_⟩
  · rw [← tracks.consts_eq, after_eq, consts_eq]
    simp [ConstDecl.uninjected]
  · rcases isNewOr isConst with rfl | isOther
    · rw [arena_eq]
      exact keepsValue_injected target
    · intro text isText own isOwn
      rw [same isOther isOwn]
      exact tracks.injected other (isOld isOther) text isText own isOwn
  · rcases isNewOr isConst with rfl | isOther
    · cases isKept
    · rw [same isOther isOwn]
      exact tracks.kept other (isOld isOther) isKept own isOwn

/-- All that a run of values leaves. -/
theorem tracks_of_injects
    (distinct : ConstDecl.AreDistinct finalized.consts)
    (written : ∀ decl ∈ finalized.consts, decl.injected = none)
    (injects : Relation.ReflTransGen Injects finalized bundle) :
    Tracks finalized bundle := by
  induction injects with
  | refl =>
      refine ⟨rfl, fun decl isConst text isText => ?_, fun _ _ _ _ _ => rfl⟩
      rw [written decl isConst] at isText
      cases isText
  | tail _ step ih => exact ih.injects distinct step

/-! ## Known integers after values were given -/

/-- What is true of known integers and of indices in a build whose constants got values:
they are the values in the text, provided that the constants that they depend on keep
their values. -/
structure KeepsConstants (finalized bundle : Bundle) : Prop where
  /-- The known integer of a constant that got a value is written for it. -/
  injected : ∀ decl ∈ bundle.consts, decl.KeepsValue bundle.arena
  /-- The known integer of another constant is that of its initial value. -/
  initial : ∀ decl ∈ bundle.consts, decl.injected = none -> ∀ id ∈ decl.name.var, ∀ value,
    (bundle.arena.get id).ty = some (.literal value) ->
      ∃ init, decl.init = some init ∧ init.HasValue finalized.arena bundle.consts value
  /-- Containers have elements at the values of constant indices. -/
  indices : ∀ module ∈ bundle.modules, Stmt.EveryIn
    (fun expr => ∀ entry ∈ expr.indices, ∃ value,
      entry.1.HasElement finalized.arena value ∧
        entry.2.HasValue finalized.arena bundle.consts value)
    (fun _ => True) module.statements

/-- Known integers and indices of a finished build are the values in the text, unless
constants that they depend on were given other values. -/
theorem injectAll_keepsConstants
    {values : List (String × ConstValue)}
    (fresh : IsFresh library bundle)
    (own : ∀ module ∈ bundle.modules, module.WritesInitials)
    (others : ∀ module ∈ library.modules, module.WritesInitials)
    (run : finalize library bundle = .ok () finalized)
    (injecting : Program.injectAll values finalized = .ok () result) :
    KeepsConstants finalized result := by
  have injects := injects_of_injectAll injecting
  have tracks := tracks_of_injects (fresh.areDistinct_finalized run)
    (injected_finalized own others run) injects
  have typed := (fresh.areTyped_finalized run).of_uninjected tracks.consts_eq
  obtain ⟨limit, settled⟩ := fresh.isSettled_finalized run
  refine ⟨tracks.injected, fun decl isConst isKept id declares value found => ?_,
    fun module mem => ?_⟩
  · rw [tracks.kept decl isConst isKept id declares] at found
    obtain ⟨init, isInit, isKnown, _⟩ := typed.isKnown_init isConst declares found
    exact ⟨init, isInit, typed.hasValue_of_isKnown isKnown⟩
  · refine (isSettled_of_injects injects settled module mem).mono (fun expr isSettled => ?_)
      fun _ _ => trivial
    obtain ⟨ty, exprTyped⟩ := isSettled.typed
    intro entry isIndex
    obtain ⟨value, hasElement, isKnown⟩ :=
      expr.hasElement_of_mem_indices typed.regular exprTyped entry isIndex
    exact ⟨value, hasElement, typed.hasValue_of_isKnown isKnown⟩

end Bundle

namespace Sample

/-- An integer constant. -/
def constant
    (text : String)
    (init : Expr)
    (exported : Bool) : Stmt :=
  .const
    { ty := name "int"
      name := name text
      length := none
      init := some init
      exported := exported
      span := {} }

/-- A program that reads an array at a constant, which is another constant that may be
given a value. -/
def counted : Bundle :=
  (Bundle.empty .vertex .readable).append
    { path := "/main"
      statements :=
        [constant "N" (.int 1 {}) true,
          constant "M" (read "N") false,
          .var { ty := name "float", name := name "a", length := some 2, init := none, span := {} },
          main
            [.assign (read "gl_PointSize") .assign (.index (read "a") (read "M") {}) {}]] }

/-- The text of the program once its first constant got another value. -/
def countedText : String :=
  "const int N=5;\nconst int M=N;\nfloat a[2];\nvoid main()\x7b\n gl_PointSize=a[M];\n\x7d"

theorem isFresh_counted : Bundle.IsFresh ⟨[]⟩ counted :=
  ⟨rfl, by decide +kernel, by decide +kernel⟩

/-- The initial values of the program are written. -/
theorem writesInitials_counted : ∀ module ∈ counted.modules, module.WritesInitials := by
  intro module mem
  rw [List.mem_singleton.mp mem]
  simp [Module.WritesInitials, Module.parts, Stmt.partsOfBlock, Stmt.parts, constant, main]

/-- Whether the first constant of the program got a value, and the second one is set to the
first one. -/
def givenFive (bundle : Bundle) : Bool :=
  match bundle.consts with
  | [first, second] =>
      first.name.var == some 58 && first.injected == some "5" &&
        second.name.var == some 59 && second.injected.isNone &&
        second.init.any fun init => init.named? == some 58
  | _ => false

/-- The second constant has the value of the first one. -/
theorem denotes_of_givenFive
    (given : givenFive bundle = true)
    {expr : Expr}
    (names : expr.named? = some 59) :
    expr.Denotes bundle.consts 5 := by
  unfold givenFive at given
  split at given
  next first second consts_eq =>
    simp only [Bool.and_eq_true, beq_iff_eq, Option.isNone_iff_eq_none, Option.any_eq_true] at given
    obtain ⟨⟨⟨⟨isFirst, replaced⟩, isSecond⟩, kept⟩, init, isInit, initNames⟩ := given
    rw [consts_eq]
    exact .initial names (by simp) isSecond kept isInit
      (.injected initNames (by simp) isFirst replaced)
  next => cases given

end Sample

namespace Bundle

/-- A constant of a program gets another value. -/
theorem injectAll_counted_keepsConstants :
    ∃ finalized result, finalize ⟨[]⟩ Sample.counted = .ok () finalized ∧
      Program.injectAll [("N", .int 5)] finalized = .ok () result ∧
      result.consts.length = 2 ∧ KeepsConstants finalized result := by
  have passed : passes (fun finalized =>
      passes (fun result => decide (result.consts.length = 2))
        (Program.injectAll [("N", .int 5)] finalized))
      (finalize ⟨[]⟩ Sample.counted) = true := by
    decide +kernel
  obtain ⟨finalized, run, passed⟩ := exists_of_passes passed
  obtain ⟨result, injecting, passed⟩ := exists_of_passes passed
  exact ⟨finalized, result, run, injecting, of_decide_eq_true passed,
    injectAll_keepsConstants Sample.isFresh_counted Sample.writesInitials_counted (by simp) run
      injecting⟩

/-- After a constant got another value, an array of two elements is read at a constant whose
value is five, while the known integer of that constant is still one. -/
theorem injectAll_counted_leavesRange :
    ∃ finalized result, finalize ⟨[]⟩ Sample.counted = .ok () finalized ∧
      Program.injectAll [("N", .int 5)] finalized = .ok () result ∧
      result.write ⟨"\n", " "⟩ = .ok Sample.countedText ∧
      (result.arena.get 59).name = "M" ∧
      (result.arena.get 59).ty.bind Ty.literal? = some 1 ∧
      ∀ expr : Expr, expr.named? = some 59 -> expr.Denotes result.consts 5 := by
  have passed : passes (fun finalized =>
      passes (fun result =>
          decide (result.write ⟨"\n", " "⟩ = .ok Sample.countedText) &&
          decide ((result.arena.get 59).name = "M") &&
          decide ((result.arena.get 59).ty.bind Ty.literal? = some 1) && Sample.givenFive result)
        (Program.injectAll [("N", .int 5)] finalized))
      (finalize ⟨[]⟩ Sample.counted) = true := by
    decide +kernel
  obtain ⟨finalized, run, passed⟩ := exists_of_passes passed
  obtain ⟨result, injecting, passed⟩ := exists_of_passes passed
  simp only [Bool.and_eq_true, decide_eq_true_eq] at passed
  obtain ⟨⟨⟨text_eq, name_eq⟩, known⟩, given⟩ := passed
  exact ⟨finalized, result, run, injecting, text_eq, name_eq, known,
    fun _ => Sample.denotes_of_givenFive given⟩

end Bundle

end ModularGlsl
