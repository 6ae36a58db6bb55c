import ModularGlsl.Proofs.Accessor.Clash
import ModularGlsl.Proofs.Naming.Builtins

/-!
# Parameters that hide the type of an element

An accessor that stores names its parameters before it names the type of the value a
second time.  The names of the parameters are fixed, so a struct with one of these names is
hidden there.  Built-in types have other names, and readable naming never gives a struct
such a name that was not written with it.
-/

namespace ModularGlsl

/-- The parameters of an accessor that stand before the value to store. -/
def Accessor.earlierParams : List String :=
  ["x", "i"]

/-- No parameter has an underscore in its name. -/
theorem Accessor.unmarked_earlierParams :
    ∀ name ∈ earlierParams, '_' ∉ name.toList := by
  decide

/-- The names of types that are built in are not those of parameters. -/
theorem Ty.name_not_mem_earlierParams
    {ty : Ty}
    (isProto : ty.isProto = true) :
    ty.name ∉ Accessor.earlierParams := by
  cases ty with
  | scalar kind => cases kind <;> decide
  | sampler kind => cases kind <;> decide
  | vector kind arity =>
      obtain ⟨low, high⟩ : 2 ≤ arity ∧ arity ≤ 4 := by simpa [Ty.isProto] using isProto
      obtain rfl | rfl | rfl : arity = 2 ∨ arity = 3 ∨ arity = 4 := by omega
      all_goals cases kind <;> decide
  | _ => cases isProto

namespace Accessor

/-- The element of an accessor is a built-in type, or the struct that the container holds. -/
theorem element_of_request
    {stored : Layout Ty -> Prop}
    {kind : AccessorKind}
    {container : Ty}
    {span : Span}
    {asked : Request}
    (isRead : container.bare.IsRead stored)
    (requested : request kind container span = .ok asked) :
    (asked.element.var = none ∧ asked.element.name ∉ earlierParams) ∨
      ∃ layout, stored layout ∧ asked.element.var = some layout.owner ∧
        asked.element.name = layout.name := by
  have isContainer := isContainer_of_request isRead requested
  unfold request at requested
  cases given : container.bare with
  | array element length =>
      rw [given] at isContainer requested
      cases isContainer with
      | structs isStored =>
          cases requested
          exact .inr ⟨_, isStored, rfl, rfl⟩
      | values isProto =>
          have builtin := Ty.name_not_mem_earlierParams isProto
          cases element with
          | scalar | vector | sampler =>
              cases requested
              exact .inl ⟨rfl, builtin⟩
          | _ => cases isProto
  | vector component arity =>
      rw [given] at requested
      cases requested
      have builtin : (Ty.scalar component).name ∉ earlierParams :=
        Ty.name_not_mem_earlierParams rfl
      exact .inl ⟨rfl, builtin⟩
  | _ =>
      rw [given] at isContainer
      cases isContainer

/-- What the parameters of an accessor leave of the type of the value to store. -/
structure ShowsElement
    (naming : Naming)
    (arena : Arena)
    (accessor : Accessor) : Prop where
  /-- A built-in type is not hidden. -/
  builtin : accessor.element.var = none -> currentName arena accessor.element ∉ earlierParams
  /-- With readable names, a struct is hidden only if it is written with the name of a
  parameter. -/
  readable : naming = .readable -> currentName arena accessor.element ∈ earlierParams ->
    accessor.element.name = currentName arena accessor.element

/-- The type of the elements is seen under names that are inherited from those at the
request. -/
theorem showsElement_ofRequest
    {base : Arena}
    (formed : base.IsFormed)
    {naming : Naming}
    {reserved : List String}
    {sites : List Site}
    {state : FinalNames.State}
    (inherits : FinalNames.Inherits naming base.SpellsPlain base reserved sites state)
    {call : DynamicIndex}
    {span : Span}
    {ty : Ty}
    {asked : Request}
    (asks : call.Asks base span ty asked)
    (var : VarId) :
    (ofRequest call.kind asked var span).ShowsElement naming state.arena := by
  rcases element_of_request (Expr.isRead_of_typeOf formed _ asks.typed) asks.requested with
    ⟨unbound, apart⟩ | ⟨layout, isStored, isBound, name_eq⟩
  · have current : currentName state.arena asked.element = asked.element.name := by
      rw [currentName, unbound]
    exact ⟨fun _ => current ▸ apart, fun _ hidden => absurd (current ▸ hidden) apart⟩
  · have current : currentName state.arena asked.element = state.arena.name layout.owner := by
      rw [currentName, isBound]
    refine ⟨fun unbound => absurd (isBound.symm.trans unbound) (Option.some_ne_none _),
      fun isReadable hidden => ?_⟩
    have written : asked.element.name = base.name layout.owner :=
      name_eq.trans (formed.name_of_stores isStored)
    refine written.trans (Eq.trans ?_ current.symm)
    rcases inherits.chosen layout.owner with same | ⟨plain, _⟩
    · exact same.symm
    · refine (plain isReadable ?_).symm
      have hidden : state.arena.name layout.owner ∈ earlierParams := current ▸ hidden
      exact unmarked_earlierParams _ hidden

end Accessor

namespace Bundle

/-- The accessors of a program. -/
def accessors (bundle : Bundle) : List Accessor :=
  bundle.modules.flatMap fun module => module.statements.filterMap fun
    | .accessor accessor => some accessor
    | _ => none

/-- The accessors of a finished program hide no built-in type, and with readable names only
structs that are written with the name of a parameter. -/
theorem finalize_showsElement
    {library : Library}
    {bundle result : Bundle}
    (isRead : IsRead library bundle)
    (run : finalize library bundle = .ok () result)
    {accessor : Accessor}
    (mem : accessor ∈ result.accessors) :
    accessor.ShowsElement bundle.naming result.arena := by
  obtain ⟨module, isModule, inModule⟩ := List.mem_flatMap.mp mem
  have isStmt : .accessor accessor ∈ module.statements := by
    obtain ⟨stmt, own, stmt_eq⟩ := List.mem_filterMap.mp inModule
    cases stmt <;> cases stmt_eq
    exact own
  obtain ⟨placed, named, typed, swept, spliced, unique, _, build, naming, _, rfl⟩ :=
    finalize_eq_ok run
  have selected := isRead.isFresh.isSelected build.toSwept
  obtain ⟨_, naming_eq⟩ := build.stage_eq
  obtain ⟨state, rfl, inherits, _⟩ := (isRead.isFresh.isNameable build).inherits naming
  rw [naming_eq] at inherits
  obtain ⟨rfl, _⟩ := finalizeInjected_eq_ok build.splicing
  obtain ⟨original, isOriginal, _, holds⟩ := mem_spliceModules true isModule
  rcases holds _ isStmt with isOwn | isWaiting
  · -- No accessor stands in a module that is read.
    obtain ⟨bare, _, _⟩ :=
      (isRead.isInRange fun _ => False).areBound_swept build.toSwept
    obtain ⟨_, _, _, own⟩ := bare.exists_of_mem isOriginal
    obtain ⟨_, _, _, stmtBound, _⟩ := own.statements.exists_of_mem isOwn
    exact stmtBound.1.elim
  · obtain ⟨waiting, isPending, stmt_eq⟩ := List.mem_map.mp isWaiting
    obtain ⟨call, _, _, span, ty, asked, asks, waiting_eq⟩ := selected.made waiting isPending
    rw [waiting_eq] at stmt_eq
    cases stmt_eq
    exact Accessor.showsElement_ofRequest selected.formed inherits asks waiting.var

end Bundle

/-! ## A struct with the name of a parameter -/

namespace Sample

/-- A program that stores a struct with the name of the index. -/
def masked : Bundle :=
  (Bundle.empty .vertex .readable).append
    { path := "/main"
      statements :=
        [.struct ⟨name "i", [⟨name "float", "power", none, {}⟩], {}⟩,
          main
            [.var ⟨name "i", name "lights", some 2, none, {}⟩,
              declare "int" "k" (.int 0 {}),
              .setIndex (read "lights") (read "k") (.index (read "lights") (.int 0 {}) {})
                none {}]] }

theorem isRead_masked : Bundle.IsRead ⟨[]⟩ masked :=
  ⟨rfl, by decide +kernel, by decide +kernel⟩

end Sample

namespace Bundle

/-- The struct is written with the name under which it is hidden. -/
theorem finalize_masked_showsElement :
    ∃ result accessor, finalize ⟨[]⟩ Sample.masked = .ok () result ∧
      accessor ∈ result.accessors ∧ accessor.ShowsElement .readable result.arena := by
  have passed : passes (fun result => !result.accessors.isEmpty)
      (finalize ⟨[]⟩ Sample.masked) = true := by
    decide +kernel
  obtain ⟨result, run, some⟩ := exists_of_passes passed
  obtain ⟨accessor, rest, accessors_eq⟩ := List.exists_cons_of_ne_nil (by simpa using some)
  have mem : accessor ∈ result.accessors := accessors_eq ▸ List.mem_cons_self
  exact ⟨result, accessor, run, mem, finalize_showsElement Sample.isRead_masked run mem⟩

/-- In the head of the accessor, the last parameter has the type of an earlier parameter's
name. -/
theorem finalize_masked_hides :
    ∃ result, finalize ⟨[]⟩ Sample.masked = .ok () result ∧
      result.accessors.map (fun accessor =>
          (accessor.kind, Accessor.currentName result.arena accessor.element,
            accessor.headText result.arena)) =
        [(.set, "i", "void setIndex_i_2(inout i x[2],in int i,in i a)")] := by
  have passed : passes (fun result => decide (result.accessors.map (fun accessor =>
          (accessor.kind, Accessor.currentName result.arena accessor.element,
            accessor.headText result.arena)) =
        [(.set, "i", "void setIndex_i_2(inout i x[2],in int i,in i a)")]))
      (finalize ⟨[]⟩ Sample.masked) = true := by
    decide +kernel
  obtain ⟨result, run, heads⟩ := exists_of_passes passed
  exact ⟨result, run, of_decide_eq_true heads⟩

end Bundle

end ModularGlsl
