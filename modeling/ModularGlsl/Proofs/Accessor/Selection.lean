import ModularGlsl.Proofs.Accessor.Key
import ModularGlsl.Proofs.Liveness.Splicing
import ModularGlsl.Proofs.Typing.Finalized
import ModularGlsl.Proofs.Typing.Visits

/-!
# Which accessor a dynamic index gets

The sweep binds every dynamic index of live code to an accessor for the type of its
container.  It makes an accessor only where none waits under the same name and with the
same dependencies.  So indices share an accessor exactly when they are of one kind and
their containers have compatible types, and no accessor is made without an index that
uses it.
-/

namespace ModularGlsl

/-- Waiting accessors differ in their names or in their dependencies. -/
def Usage.IsKeyed (usage : Usage) : Prop :=
  (usage.pending.map fun waiting => (waiting.name, waiting.deps)).Nodup

theorem Usage.IsKeyed.eq_of_key_eq
    {usage : Usage}
    (keyed : usage.IsKeyed)
    {first second : Pending}
    (isFirst : first ∈ usage.pending)
    (isSecond : second ∈ usage.pending)
    (same : first.name = second.name ∧ first.deps = second.deps) :
    first = second :=
  List.inj_on_of_nodup_map keyed isFirst isSecond (Prod.ext same.1 same.2)

namespace Liveness

/-- An accessor is made only where none waits under the same key. -/
theorem State.Step.isKeyed
    {before after : State}
    (step : before.Step after)
    (keyed : before.usage.IsKeyed) :
    after.usage.IsKeyed := by
  unfold Usage.IsKeyed at keyed ⊢
  cases step with
  | mark => rwa [Usage.pending_markUsed]
  | track => rwa [Usage.pending_track]
  | obtain made =>
      rw [Usage.pending_markUsed]
      obtain ⟨asked, _, made⟩ := except_bind_eq_ok.mp made
      split at made
      · cases made
        exact keyed
      next absent =>
        cases made
        have noneWaits := List.find?_eq_none.mp (Option.map_eq_none_iff.mp absent)
        rw [Usage.inject, List.map_append, List.map_singleton]
        refine keyed.append (List.nodup_singleton _) (List.disjoint_singleton.mpr fun isKey => ?_)
        obtain ⟨waiting, mem, same⟩ := List.mem_map.mp isKey
        obtain ⟨names, deps⟩ := Prod.mk.inj same
        exact noneWaits waiting mem (by simp [names, deps])

/-- Waiting accessors stay apart during the sweep. -/
theorem State.Moves.isKeyed
    {before after : State}
    (moves : before.Moves after)
    (keyed : before.usage.IsKeyed) :
    after.usage.IsKeyed := by
  induction moves with
  | refl => exact keyed
  | tail _ step ih => exact step.isKeyed ih

end Liveness

namespace DynamicIndex

variable {arena : Arena} {call other : DynamicIndex} {span otherSpan : Span} {ty otherTy : Ty}
variable {asked again : Accessor.Request}

/-- The structs of an arena are told apart by their variables. -/
theorem eq_of_stores
    (layout other : Layout Ty)
    (isStored : arena.Stores layout)
    (otherStored : arena.Stores other)
    (same : layout.owner = other.owner) :
    layout = other := by
  unfold Arena.Stores at isStored otherStored
  rw [same, otherStored] at isStored
  cases isStored
  rfl

section

variable (formed : arena.IsFormed) (asks : call.Asks arena span ty asked)
variable (asksAgain : other.Asks arena otherSpan otherTy again)
include formed asks asksAgain

/-- Indices ask under one key exactly when they are of one kind and their containers have
one type. -/
theorem Asks.key_eq_iff :
    (asked.name = again.name ∧ asked.deps = again.deps) ↔
      (call.kind = other.kind ∧ ty.bare = otherTy.bare) :=
  Accessor.key_eq_iff eq_of_stores (Expr.isRead_of_typeOf formed _ asks.typed)
    (Expr.isRead_of_typeOf formed _ asksAgain.typed) asks.requested asksAgain.requested

theorem Asks.accepts_iff :
    ty.accepts otherTy = true ↔ ty.bare = otherTy.bare :=
  Accessor.accepts_iff_of_request eq_of_stores (Expr.isRead_of_typeOf formed _ asks.typed)
    (Expr.isRead_of_typeOf formed _ asksAgain.typed) asks.requested asksAgain.requested

end

/-- An accessor that was made for one index is an accessor for every index bound to it. -/
theorem IsBoundTo.exists_accessor
    {waiting : Pending}
    (formed : arena.IsFormed)
    (isBound : call.IsBoundTo arena waiting)
    (makes : other.Makes arena waiting) :
    ∃ ty, call.container.typeOf arena = .ok ty ∧
      ∃ accessor, waiting.stmt = .accessor accessor ∧ accessor.name.var = some waiting.var ∧
        accessor.kind = call.kind ∧ accessor.Indexes ty.bare := by
  obtain ⟨_, span, ty, asked, asks, names, deps⟩ := isBound
  obtain ⟨_, otherSpan, otherTy, again, asksAgain, waiting_eq⟩ := makes
  rw [waiting_eq] at names deps ⊢
  obtain ⟨kinds, types⟩ := (asks.key_eq_iff formed asksAgain).mp ⟨names.symm, deps.symm⟩
  have isContainer := Accessor.isContainer_of_request
    (Expr.isRead_of_typeOf formed _ asksAgain.typed) asksAgain.requested
  obtain ⟨_, _, _, _, indexes⟩ := Accessor.label_of_request isContainer asksAgain.requested
  exact ⟨ty, asks.typed, _, rfl, rfl, kinds.symm, types ▸ indexes waiting.var⟩

end DynamicIndex

namespace Bundle

open Liveness

/-- Live code of a bundle holds a dynamic index. -/
def HoldsIndex
    (bundle : Bundle)
    (call : DynamicIndex) : Prop :=
  IndexedByModules bundle.modules { var | bundle.usage.isUsed var = true } call

/-- What the sweep leaves: dynamic indices that are bound, and accessors that were made for
them. -/
structure IsSelected (bundle : Bundle) : Prop where
  /-- Variables have the types that typing gives. -/
  formed : bundle.arena.IsFormed
  /-- Accessors wait under different keys. -/
  keyed : bundle.usage.IsKeyed
  /-- Indices of live code are bound. -/
  bound : ∀ call, bundle.HoldsIndex call ->
    ∃ waiting ∈ bundle.usage.pending, call.IsBoundTo bundle.arena waiting
  /-- Accessors are made for indices of live code. -/
  made : ∀ waiting ∈ bundle.usage.pending,
    ∃ call, bundle.HoldsIndex call ∧ call.Makes bundle.arena waiting

section Swept

variable {library : Library} {bundle placed named typed swept : Bundle}

section

variable (fresh : IsFresh library bundle)
include fresh

/-- The sweep of a fresh bundle binds the dynamic indices of live code, and makes accessors
for them only. -/
theorem IsFresh.isSelected (build : Swept library bundle placed named typed swept) :
    swept.IsSelected := by
  have formed := fresh.isFormed_typed build.toTyped
  obtain ⟨_, bound⟩ := fresh.isInRange.areBound build.toNamed
  obtain ⟨arena, checked, rfl⟩ := evalTypes_eq_ok build.typing
  obtain ⟨modules, state, run, rfl⟩ := resolveActivity_eq_ok build.sweeping
  have keeps : named.arena.Keeps arena := (Typing.KeepsArena.retypes checked).keeps
  have noneWaits := pending_foldl_markMain named.modules {}
  have sweeps := sweeps_of_sweepModules named.stage (bound arena keeps)
    (fun _ => List.mem_range.mp) keeps.size_le
    ⟨.refl arena, Usage.waits_of_pending_eq_nil noneWaits⟩ run
  have selects := sweeps.selects state.read fun _ _ _ => Iff.rfl
  refine ⟨formed.grows selects.moves.grows, selects.moves.isKeyed ?_, selects.bound, ?_⟩
  · rw [Usage.IsKeyed, noneWaits]
    exact .nil
  · intro waiting mem
    refine (selects.made waiting mem).resolve_left fun earlier => ?_
    rw [noneWaits] at earlier
    cases earlier

end

end Swept

/-- Accessors are chosen exactly: for the types of the containers, one for all indices of
one kind into containers of compatible types, and none that no index uses. -/
structure SelectsAccessors (bundle : Bundle) : Prop where
  /-- A dynamic index of live code is bound to an accessor of its kind, for the type of
  its container. -/
  bound : ∀ call, bundle.HoldsIndex call ->
    ∃ ty, call.container.typeOf bundle.arena = .ok ty ∧
      ∃ waiting ∈ bundle.usage.pending, call.accessor = some waiting.var ∧
        ∃ accessor, waiting.stmt = .accessor accessor ∧ accessor.name.var = some waiting.var ∧
          accessor.kind = call.kind ∧ accessor.Indexes ty.bare
  /-- Two indices share an accessor exactly when they are of one kind and the types of
  their containers are compatible. -/
  shared_iff : ∀ call other ty otherTy, bundle.HoldsIndex call -> bundle.HoldsIndex other ->
    call.container.typeOf bundle.arena = .ok ty ->
      other.container.typeOf bundle.arena = .ok otherTy ->
        (call.accessor = other.accessor ↔ call.kind = other.kind ∧ ty.accepts otherTy = true)
  /-- An index of live code uses each accessor. -/
  needed : ∀ waiting ∈ bundle.usage.pending,
    ∃ call, bundle.HoldsIndex call ∧ call.accessor = some waiting.var

/-- The sweep chooses accessors exactly. -/
theorem resolveActivity_selectsAccessors
    {library : Library}
    {bundle placed named typed swept : Bundle}
    (fresh : IsFresh library bundle)
    (placing : resolveDependencies library bundle = .ok () placed)
    (binding : resolveNames placed = .ok () named)
    (typing : evalTypes named = .ok () typed)
    (sweeping : resolveActivity typed = .ok () swept) :
    swept.SelectsAccessors := by
  have build : Swept library bundle placed named typed swept :=
    ⟨⟨⟨placing, binding⟩, typing⟩, sweeping⟩
  have selected := fresh.isSelected build
  obtain ⟨_, _, waits⟩ := fresh.isInRange.areBound_swept build
  constructor
  · intro call isCall
    obtain ⟨waiting, mem, isBound⟩ := selected.bound call isCall
    obtain ⟨maker, _, makes⟩ := selected.made waiting mem
    obtain ⟨ty, typed, accessor⟩ := isBound.exists_accessor selected.formed makes
    exact ⟨ty, typed, waiting, mem, isBound.1, accessor⟩
  · intro call other ty otherTy isCall isOther typed otherTyped
    obtain ⟨waiting, mem, accessor_eq, _, known, asked, asks, key⟩ :=
      selected.bound call isCall
    obtain ⟨waiting', present', accessor_eq', _, known', again, asksAgain, key'⟩ :=
      selected.bound other isOther
    obtain rfl : ty = known := Except.ok.inj (typed.symm.trans asks.typed)
    obtain rfl : otherTy = known' := Except.ok.inj (otherTyped.symm.trans asksAgain.typed)
    rw [asks.accepts_iff selected.formed asksAgain, ← asks.key_eq_iff selected.formed asksAgain,
      accessor_eq, accessor_eq', Option.some.injEq, ← key.1, ← key.2, ← key'.1, ← key'.2]
    constructor
    · intro same
      rw [List.inj_on_of_nodup_map waits.nodup mem present' same]
      exact ⟨rfl, rfl⟩
    · intro same
      rw [selected.keyed.eq_of_key_eq mem present' same]
  · intro waiting mem
    obtain ⟨call, isCall, accessor_eq, _⟩ := selected.made waiting mem
    exact ⟨call, isCall, accessor_eq⟩

end Bundle

/-! ## Two structs of one name -/

namespace Sample

/-- A struct with a number. -/
def lightStruct : Stmt :=
  .struct ⟨name "Light", [⟨name "float", "power", none, {}⟩], {}⟩

/-- Two lights that are set from outside. -/
def lightArray (text : String) : Stmt :=
  .interface ⟨.uniform, none, name "Light", name text, some 2, {}⟩

/-- The number in a light at a dynamic index. -/
def powerAt (text : String) : Expr :=
  .member (.getIndex (read text) (read "i") none {}) "power" none {}

/-- A module with two lights and a function that reads one of them. -/
def lamps : Module :=
  { path := "/lamps"
    statements :=
      [lightStruct,
        lightArray "lamps",
        .function
          { result := some (name "float")
            name := name "lamp"
            params := [⟨.plain, name "int", name "i", none, {}⟩]
            span := {} }
          [.ret (some (powerAt "lamps")) {}],
        .exportName (name "lamp") "lamp" {}] }

/-- A module with two lights of its own. -/
def lights : Module :=
  { path := "/lights"
    statements :=
      [.importName "lamp" (name "lamp") "/lamps" {},
        lightStruct,
        lightArray "lights",
        main
          [declare "int" "i" (.int 0 {}),
            .assign (read "gl_PointSize") .assign
              (.binary .add (.call (read "lamp") [read "i"] {}) (powerAt "lights") {}) {},
            .assign (read "gl_PointSize") .add (powerAt "lights") {}]] }

/-- A program with two structs of one name. -/
def lit : Bundle :=
  (Bundle.empty .vertex .readable).append lights

theorem isFresh_lit : Bundle.IsFresh ⟨[lamps]⟩ lit :=
  ⟨rfl, by decide +kernel, by decide +kernel⟩

end Sample

namespace Bundle

/-- Three indices into arrays of two structs of one name get two accessors of one name. -/
theorem resolveActivity_lit_selectsAccessors :
    ∃ placed named typed swept,
      resolveDependencies ⟨[Sample.lamps]⟩ Sample.lit = .ok () placed ∧
        resolveNames placed = .ok () named ∧ evalTypes named = .ok () typed ∧
          resolveActivity typed = .ok () swept ∧
      swept.usage.pending.map (fun waiting => (waiting.name, waiting.deps)) =
        [("getIndex_Light_2", [62]), ("getIndex_Light_2", [58])] ∧
      swept.SelectsAccessors := by
  have passed : passes
      (fun swept => decide (swept.usage.pending.map (fun waiting => (waiting.name, waiting.deps)) =
        [("getIndex_Light_2", [62]), ("getIndex_Light_2", [58])]))
      ((do
        resolveDependencies ⟨[Sample.lamps]⟩
        resolveNames
        evalTypes
        resolveActivity) Sample.lit) = true := by
    decide +kernel
  obtain ⟨swept, run, keys⟩ := exists_of_passes passed
  obtain ⟨_, placed, placing, run⟩ := bind_eq_ok.mp run
  obtain ⟨_, named, binding, run⟩ := bind_eq_ok.mp run
  obtain ⟨_, typed, typing, sweeping⟩ := bind_eq_ok.mp run
  exact ⟨placed, named, typed, swept, placing, binding, typing, sweeping, of_decide_eq_true keys,
    resolveActivity_selectsAccessors Sample.isFresh_lit placing binding typing sweeping⟩

end Bundle
end ModularGlsl
