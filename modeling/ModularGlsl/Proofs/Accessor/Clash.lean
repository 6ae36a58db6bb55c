import ModularGlsl.Proofs.Accessor.Selection
import ModularGlsl.Proofs.Internal
import ModularGlsl.Proofs.Naming.Unique

/-!
# When accessors clash

Accessors keep the names that they are asked for by, and these spell the elements of the
container.  Elements that are spelled alike need not be the same: structs of different
modules may have one name, and a struct may have the name of a built-in type.  Accessors
over arrays of such elements are different and have to keep one name, so that no names can
be given.  This is the only way in which accessors make naming fail.
-/

namespace ModularGlsl

/-! ## Names of accessors -/

/-- Names that begin like those of accessors. -/
def isAccessorName (name : String) : Bool :=
  [AccessorKind.get, AccessorKind.set].any fun kind =>
    (kind.spelling ++ "_").toList.isPrefixOf name.toList

/-- Accessors are asked for by such names. -/
theorem Accessor.Label.isAccessorName_spelled
    (kind : AccessorKind)
    (label : Label) :
    isAccessorName (label.spelled kind) = true := by
  refine List.any_eq_true.mpr ⟨kind, by cases kind <;> simp, ?_⟩
  rw [List.isPrefixOf_iff_prefix, spelled, String.append_assoc, String.append_assoc]
  exact ⟨_, String.toList_append.symm⟩

variable {arena : Arena} {waiting : Pending}

section Asked

variable {call other : DynamicIndex}

/-- Accessors that were made for indices have one name exactly when the indices are of one
kind and their containers have one type, or are arrays of one length whose elements are
spelled alike. -/
theorem DynamicIndex.Asks.name_eq_iff
    {span otherSpan : Span}
    {ty otherTy : Ty}
    {asked again : Accessor.Request}
    (formed : arena.IsFormed)
    (asks : call.Asks arena span ty asked)
    (asksAgain : other.Asks arena otherSpan otherTy again) :
    asked.name = again.name ↔
      call.kind = other.kind ∧ (ty.bare = otherTy.bare ∨ ∃ element otherElement length,
        ty.bare = .array element length ∧ otherTy.bare = .array otherElement length ∧
          element.name = otherElement.name) :=
  Accessor.name_eq_iff (Expr.isRead_of_typeOf formed _ asks.typed)
    (Expr.isRead_of_typeOf formed _ asksAgain.typed) asks.requested asksAgain.requested

/-- An accessor that was made has the name of one. -/
theorem DynamicIndex.Makes.isAccessorName
    (formed : arena.IsFormed)
    (makes : call.Makes arena waiting) :
    isAccessorName waiting.name = true := by
  obtain ⟨_, span, ty, asked, asks, waiting_eq⟩ := makes
  have isContainer := Accessor.isContainer_of_request
    (Expr.isRead_of_typeOf formed _ asks.typed) asks.requested
  obtain ⟨label, _, name_eq, _⟩ := Accessor.label_of_request isContainer asks.requested
  rw [waiting_eq]
  exact name_eq ▸ label.isAccessorName_spelled call.kind

end Asked

theorem DynamicIndex.Makes.name_eq
    {call : DynamicIndex}
    (makes : call.Makes arena waiting)
    (isAccessor : waiting.IsAccessor arena) :
    arena.name waiting.var = waiting.name := by
  obtain ⟨_, span, ty, asked, asks, waiting_eq⟩ := makes
  obtain ⟨accessor, stmt_eq, declares, _⟩ := isAccessor
  have same : Stmt.accessor accessor =
      .accessor (.ofRequest call.kind asked waiting.var span) := by
    rw [← stmt_eq, waiting_eq]
  cases same
  rw [Arena.name, declares.name_eq, waiting_eq]
  rfl

theorem Stmt.IsBound.decl_ne_accessor
    {stmt : Stmt}
    {first last : Place}
    (bound : stmt.IsBound arena Accessor.IsUnbound first last)
    {ident : Ident}
    (declared : stmt.declared? = some ident)
    {var : VarId}
    (isVar : ident.var = some var) :
    (arena.get var).decl ≠ .accessor := by
  have differs {number : VarId} {kind : DeclKind} (declares : ident.Declares arena number kind)
      (other : kind ≠ .accessor) : (arena.get var).decl ≠ .accessor := by
    obtain rfl : number = var := Option.some.inj (declares.var_eq.symm.trans isVar)
    rw [declares.decl_eq]
    exact other
  cases stmt with
  | interface decl =>
      cases declared
      exact differs bound.2.1 (by cases decl.kind <;> simp [Binding.declKind])
  | const decl =>
      cases declared
      exact differs bound.2.2.1 (by simp)
  | var decl =>
      cases declared
      exact differs bound.2.2.1 (by unfold DeclKind.ofDepth; split <;> simp)
  | struct decl =>
      cases declared
      exact differs bound.2.1 (by simp)
  | function header body =>
      cases declared
      exact differs bound.1 (by simp)
  | accessor decl =>
      cases declared
      rw [bound.1.name_eq] at isVar
      cases isVar
  | _ => cases declared

namespace Bundle

variable {bundle swept spliced : Bundle} {low : VarId}

theorem IsSelected.name_eq
    (selected : bundle.IsSelected)
    (waits : bundle.usage.Waits bundle.arena low)
    (mem : waiting ∈ bundle.usage.pending) :
    bundle.arena.name waiting.var = waiting.name := by
  obtain ⟨call, _, makes⟩ := selected.made waiting mem
  exact makes.name_eq (waits.isAccessor waiting mem)

/-- Elements that are spelled alike are compatible, for all dynamic indices of one kind into
arrays of one length. -/
def SpellsApart (bundle : Bundle) : Prop :=
  ∀ call other, bundle.HoldsIndex call -> bundle.HoldsIndex other -> call.kind = other.kind ->
    ∀ ty otherTy element otherElement length,
      call.container.typeOf bundle.arena = .ok ty ->
        other.container.typeOf bundle.arena = .ok otherTy ->
          ty.bare = .array element length -> otherTy.bare = .array otherElement length ->
            element.name = otherElement.name -> element.accepts otherElement = true

/-- Arrays of one length are compatible if their elements are. -/
theorem accepts_array
    {ty otherTy element otherElement : Ty}
    {length : Nat}
    (isArray : ty.bare = .array element length)
    (otherArray : otherTy.bare = .array otherElement length) :
    ty.accepts otherTy = element.accepts otherElement := by
  rw [← Ty.bare_accepts, ← Ty.accepts_bare, isArray, otherArray]
  simp [Ty.accepts, Ty.bare]

/-- Waiting accessors have different names exactly if elements that are spelled alike are
compatible. -/
theorem IsSelected.nodup_names_iff
    (selected : bundle.IsSelected) :
    (bundle.usage.pending.map Pending.name).Nodup ↔ bundle.SpellsApart := by
  constructor
  · intro nodup call other isCall isOther kinds ty otherTy element otherElement length typed
      otherTyped isArray otherArray spelled
    obtain ⟨waiting, mem, _, _, known, asked, asks, key⟩ := selected.bound call isCall
    obtain ⟨waiting', present', _, _, known', again, asksAgain, key'⟩ :=
      selected.bound other isOther
    obtain rfl : ty = known := Except.ok.inj (typed.symm.trans asks.typed)
    obtain rfl : otherTy = known' := Except.ok.inj (otherTyped.symm.trans asksAgain.typed)
    have names : asked.name = again.name := (asks.name_eq_iff selected.formed asksAgain).mpr
      ⟨kinds, .inr ⟨element, otherElement, length, isArray, otherArray, spelled⟩⟩
    obtain rfl : waiting = waiting' := List.inj_on_of_nodup_map nodup mem present'
      (key.1.trans (names.trans key'.1.symm))
    have types := ((asks.key_eq_iff selected.formed asksAgain).mp
      ⟨names, key.2.symm.trans key'.2⟩).2
    rw [← accepts_array isArray otherArray]
    exact (asks.accepts_iff selected.formed asksAgain).mpr types
  · intro apart
    refine (List.nodup_map_iff_inj_on (List.Nodup.of_map _ selected.keyed)).mpr ?_
    intro waiting mem waiting' present' names
    obtain ⟨call, isCall, _, _, ty, asked, asks, waiting_eq⟩ := selected.made waiting mem
    obtain ⟨other, isOther, _, _, otherTy, again, asksAgain, waiting_eq'⟩ :=
      selected.made waiting' present'
    have askedNames : asked.name = again.name := by
      rw [waiting_eq, waiting_eq'] at names
      exact names
    obtain ⟨kinds, alike⟩ := (asks.name_eq_iff selected.formed asksAgain).mp askedNames
    have types : ty.bare = otherTy.bare := by
      rcases alike with same | ⟨element, otherElement, length, isArray, otherArray, spelled⟩
      · exact same
      · rw [← asks.accepts_iff selected.formed asksAgain, accepts_array isArray otherArray]
        exact apart call other isCall isOther kinds ty otherTy element otherElement length
          asks.typed asksAgain.typed isArray otherArray spelled
    have deps := ((asks.key_eq_iff selected.formed asksAgain).mpr ⟨kinds, types⟩).2
    refine selected.keyed.eq_of_key_eq mem present' ⟨names, ?_⟩
    rw [waiting_eq, waiting_eq']
    exact deps

/-! ## Names that are kept -/

/-- The names that have to be kept, those of accessors apart. -/
def ownKeptNames (bundle : Bundle) : List String :=
  (bundle.sites.filter fun site =>
    site.keeps && (bundle.arena.get site.var).decl != .accessor).map Site.name

/-- The declaration of a waiting accessor. -/
def siteOf
    (arena : Arena)
    (waiting : Pending) : Site :=
  ⟨waiting.var, arena.name waiting.var, [], true⟩

section

variable (waits : swept.usage.Waits swept.arena low)
variable (splicing : finalizeInjected swept = .ok () spliced)
include waits splicing

/-- Once nothing waits any more, the declarations are those from before and those of the
accessors. -/
theorem sites_perm_of_splice :
    spliced.sites.Perm
      (swept.modules.flatMap (Module.sites spliced.usage) ++
        swept.usage.pending.map (siteOf swept.arena)) := by
  obtain ⟨rfl, checked⟩ := finalizeInjected_eq_ok splicing
  obtain ⟨noneLeft, _⟩ := Usage.check_eq_ok checked
  obtain ⟨taken, hands, permuted⟩ := waits.exists_sites_perm swept.modules
    (spliceModules true swept.usage swept.modules).2
  have taken_perm := hands.perm
  rw [noneLeft, List.map_nil, List.append_nil] at taken_perm
  have accessors := (taken_perm.flatMap_right
    (Stmt.sitesInModule (spliceModules true swept.usage swept.modules).2 none)).symm
  rw [waits.sites] at accessors
  exact permuted.trans (accessors.append_left _)

/-- Each waiting accessor is declared in the end. -/
theorem siteOf_mem_sites (mem : waiting ∈ swept.usage.pending) :
    siteOf swept.arena waiting ∈ spliced.sites :=
  (sites_perm_of_splice waits splicing).mem_iff.mpr
    (List.mem_append_right _ (List.mem_map_of_mem mem))

end

theorem decl_ne_accessor_of_mem_sites
    {usage : Usage}
    {modules : List Module}
    {visible : List VarId}
    {next stop : VarId}
    (bound : Module.AreBound arena Accessor.IsUnbound modules visible next stop)
    {site : Site}
    (mem : site ∈ modules.flatMap (Module.sites usage))
    (keeps : site.keeps = true) :
    (arena.get site.var).decl ≠ .accessor := by
  obtain ⟨module, isModule, isSite⟩ := List.mem_flatMap.mp mem
  obtain ⟨stmt, isStmt, isSite⟩ := List.mem_flatMap.mp isSite
  obtain ⟨_, _, _, own⟩ := bound.exists_of_mem isModule
  obtain ⟨first, last, _, stmtBound, _⟩ := own.statements.exists_of_mem isStmt
  rw [Stmt.sitesInModule] at isSite
  split at isSite
  swap
  · cases isSite
  obtain ⟨ident, declared, isSite⟩ := Stmt.declared_of_mem_sites isSite keeps
  obtain ⟨var, isVar, rfl⟩ := List.mem_map.mp isSite
  exact stmtBound.decl_ne_accessor declared (Option.mem_toList.mp isVar)

section Spliced

variable {library : Library} {placed named typed : Bundle}

/-- If the other names that are kept differ from each other and from those of accessors, no
two declarations have to keep one name exactly if no two accessors do. -/
theorem IsFresh.areApart_iff
    (fresh : IsFresh library bundle)
    (build : Spliced library bundle placed named typed swept spliced)
    (distinct : spliced.ownKeptNames.Nodup)
    (plain : ∀ name ∈ spliced.ownKeptNames, isAccessorName name = false) :
    Site.AreApart spliced.sites ↔ (swept.usage.pending.map Pending.name).Nodup := by
  have selected := fresh.isSelected build.toSwept
  obtain ⟨bound, _, waits⟩ := fresh.isInRange.areBound_swept build.toSwept
  have permuted := sites_perm_of_splice waits build.splicing
  have arena_eq := build.arena_eq
  have name_eq (waiting : Pending) (mem : waiting ∈ swept.usage.pending) :
      (siteOf swept.arena waiting).name = waiting.name :=
    selected.name_eq waits mem
  rw [List.nodup_map_iff_inj_on (List.Nodup.of_map _ waits.nodup)]
  constructor
  · intro apart waiting mem waiting' present' names
    refine List.inj_on_of_nodup_map waits.nodup mem present' ?_
    refine apart _ (siteOf_mem_sites waits build.splicing mem) _
      (siteOf_mem_sites waits build.splicing present') rfl rfl ?_
    rw [name_eq waiting mem, name_eq waiting' present', names]
  · intro apart
    have own (site : Site) (mem : site ∈ spliced.sites) (keeps : site.keeps = true) :
        site ∈ spliced.sites.filter (fun site =>
            site.keeps && (spliced.arena.get site.var).decl != .accessor) ∨
          ∃ waiting ∈ swept.usage.pending, site = siteOf swept.arena waiting := by
      rcases List.mem_append.mp (permuted.mem_iff.mp mem) with isOld | isNew
      · refine .inl (List.mem_filter.mpr ⟨mem, ?_⟩)
        rw [keeps, Bool.true_and, bne_iff_ne, arena_eq]
        exact decl_ne_accessor_of_mem_sites bound isOld keeps
      · obtain ⟨waiting, isWaiting, rfl⟩ := List.mem_map.mp isNew
        exact .inr ⟨waiting, isWaiting, rfl⟩
    have isAccessorName_of (waiting : Pending) (mem : waiting ∈ swept.usage.pending) :
        isAccessorName (siteOf swept.arena waiting).name = true := by
      obtain ⟨call, _, makes⟩ := selected.made waiting mem
      rw [name_eq waiting mem]
      exact makes.isAccessorName selected.formed
    -- A name of the program is never one of an accessor, so only equal sorts can clash.
    intro first isFirst second isSecond firstKeeps secondKeeps names
    rcases own first isFirst firstKeeps with firstOwn | ⟨waiting, mem, rfl⟩ <;>
      rcases own second isSecond secondKeeps with secondOwn | ⟨waiting', present', rfl⟩
    · rw [List.inj_on_of_nodup_map distinct firstOwn secondOwn names]
    · have notAccessor := plain _ (List.mem_map_of_mem firstOwn)
      rw [names, isAccessorName_of waiting' present'] at notAccessor
      cases notAccessor
    · have notAccessor := plain _ (List.mem_map_of_mem secondOwn)
      rw [← names, isAccessorName_of waiting mem] at notAccessor
      cases notAccessor
    · rw [name_eq waiting mem, name_eq waiting' present'] at names
      rw [apart waiting mem waiting' present' names]

/-- If the other names that are kept differ from each other and from those of accessors, and
the searches for names end, naming succeeds exactly if elements that are spelled alike are
compatible.  Accessors have different names then, and no other declaration has one of them. -/
theorem uniqueNames_iff_spellsApart
    (isRead : IsRead library bundle)
    (placing : resolveDependencies library bundle = .ok () placed)
    (binding : resolveNames placed = .ok () named)
    (typing : evalTypes named = .ok () typed)
    (sweeping : resolveActivity typed = .ok () swept)
    (splicing : finalizeInjected swept = .ok () spliced)
    (distinct : spliced.ownKeptNames.Nodup)
    (plain : ∀ name ∈ spliced.ownKeptNames, isAccessorName name = false)
    (ends : Site.SearchesEnd spliced.naming spliced.sites) :
    ((∃ unique, uniqueNames spliced = .ok () unique) ↔ swept.SpellsApart) ∧
      ∀ unique, uniqueNames spliced = .ok () unique -> unique.HasDistinctNames ∧
        (swept.usage.pending.map fun waiting => unique.arena.name waiting.var).Nodup := by
  have fresh := isRead.isFresh
  have build : Spliced library bundle placed named typed swept spliced :=
    ⟨⟨⟨⟨placing, binding⟩, typing⟩, sweeping⟩, splicing⟩
  have selected := fresh.isSelected build.toSwept
  obtain ⟨_, _, waits⟩ := fresh.isInRange.areBound_swept build.toSwept
  have nameable := fresh.isNameable build
  have succeeds_iff : (∃ unique, uniqueNames spliced = .ok () unique) ↔
      (swept.usage.pending.map Pending.name).Nodup := by
    rw [nameable.exists_uniqueNames_iff (isRead.eachBound build)]
    exact fresh.areApart_iff build distinct plain
  refine ⟨succeeds_iff.trans selected.nodup_names_iff, fun unique naming => ?_⟩
  have names_eq : (swept.usage.pending.map fun waiting => unique.arena.name waiting.var) =
      swept.usage.pending.map Pending.name := by
    refine List.map_congr_left fun waiting mem => ?_
    have isSite := siteOf_mem_sites waits splicing mem
    obtain ⟨state, rfl, inherits, _⟩ := nameable.inherits naming
    have unchanged := inherits.unchanged waiting.var fun site isOther same => by
      rw [List.inj_on_of_nodup_map nameable.nodup isOther isSite same]
      rfl
    obtain ⟨rfl, _⟩ := finalizeInjected_eq_ok splicing
    exact unchanged.trans (selected.name_eq waits mem)
  refine ⟨nameable.hasDistinctNames ends naming, ?_⟩
  rw [names_eq]
  exact succeeds_iff.mp ⟨unique, naming⟩

end Spliced

end Bundle

namespace Sample

/-- The program with two accessors is as it is read. -/
theorem isRead_indexing : Bundle.IsRead library indexing :=
  ⟨rfl, by decide +kernel, membersSatisfy_library⟩

end Sample

namespace Bundle

/-- Accessors over structs and over numbers keep their names. -/
theorem uniqueNames_indexing_spellsApart :
    ∃ placed named typed swept spliced unique,
      resolveDependencies Sample.library Sample.indexing = .ok () placed ∧
        resolveNames placed = .ok () named ∧ evalTypes named = .ok () typed ∧
          resolveActivity typed = .ok () swept ∧ finalizeInjected swept = .ok () spliced ∧
            uniqueNames spliced = .ok () unique ∧
      spliced.ownKeptNames = ["lights", "weights", "main"] ∧ swept.SpellsApart ∧
        unique.HasDistinctNames ∧
          (swept.usage.pending.map fun waiting => unique.arena.name waiting.var).Nodup := by
  have passed : passes
      (fun spliced => decide (spliced.ownKeptNames = ["lights", "weights", "main"] ∧
          Site.SearchesEnd spliced.naming spliced.sites) &&
        passes (fun _ => true) (uniqueNames spliced))
      ((do
        resolveDependencies Sample.library
        resolveNames
        evalTypes
        resolveActivity
        finalizeInjected) Sample.indexing) = true := by
    decide +kernel
  obtain ⟨spliced, run, checked⟩ := exists_of_passes passed
  obtain ⟨_, placed, placing, run⟩ := bind_eq_ok.mp run
  obtain ⟨_, named, binding, run⟩ := bind_eq_ok.mp run
  obtain ⟨_, typed, typing, run⟩ := bind_eq_ok.mp run
  obtain ⟨_, swept, sweeping, splicing⟩ := bind_eq_ok.mp run
  obtain ⟨kept, succeeds⟩ := Bool.and_eq_true_iff.mp checked
  obtain ⟨kept, ends⟩ := of_decide_eq_true kept
  obtain ⟨unique, naming, _⟩ := exists_of_passes succeeds
  obtain ⟨succeeds_iff, nodup⟩ :=
    uniqueNames_iff_spellsApart Sample.isRead_indexing placing binding typing sweeping splicing
      (by rw [kept]; decide) (by rw [kept]; decide) ends
  exact ⟨placed, named, typed, swept, spliced, unique, placing, binding, typing, sweeping,
    splicing, naming, kept, succeeds_iff.mp ⟨unique, naming⟩, nodup unique naming⟩

/-- The name that is not unique, if a build fails for one. -/
def clash? : EStateM.Result Diagnostic Bundle Unit -> Option String
  | .error (.binding (.notUnique name _ _)) _ => some name
  | _ => none

/-- Accessors over two structs of one name clash, although all other names that are kept
differ and are none of accessors. -/
theorem uniqueNames_lit_clashes :
    ∃ placed named typed swept spliced,
      resolveDependencies ⟨[Sample.lamps]⟩ Sample.lit = .ok () placed ∧
        resolveNames placed = .ok () named ∧ evalTypes named = .ok () typed ∧
          resolveActivity typed = .ok () swept ∧ finalizeInjected swept = .ok () spliced ∧
      spliced.ownKeptNames = ["lamps", "lights", "main"] ∧
        (spliced.ownKeptNames.all fun name => !isAccessorName name) = true ∧
          clash? (uniqueNames spliced) = some "getIndex_Light_2" := by
  have passed : passes
      (fun spliced => decide (spliced.ownKeptNames = ["lamps", "lights", "main"] ∧
        (spliced.ownKeptNames.all fun name => !isAccessorName name) = true ∧
          clash? (uniqueNames spliced) = some "getIndex_Light_2"))
      ((do
        resolveDependencies ⟨[Sample.lamps]⟩
        resolveNames
        evalTypes
        resolveActivity
        finalizeInjected) Sample.lit) = true := by
    decide +kernel
  obtain ⟨spliced, run, checked⟩ := exists_of_passes passed
  obtain ⟨_, placed, placing, run⟩ := bind_eq_ok.mp run
  obtain ⟨_, named, binding, run⟩ := bind_eq_ok.mp run
  obtain ⟨_, typed, typing, run⟩ := bind_eq_ok.mp run
  obtain ⟨_, swept, sweeping, splicing⟩ := bind_eq_ok.mp run
  exact ⟨placed, named, typed, swept, spliced, placing, binding, typing, sweeping, splicing,
    of_decide_eq_true checked⟩

end Bundle
end ModularGlsl
