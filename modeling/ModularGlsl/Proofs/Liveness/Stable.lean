import ModularGlsl.Proofs.Accessor.Selection
import ModularGlsl.Proofs.Constants.Range
import ModularGlsl.Proofs.Liveness.Faults
import ModularGlsl.Proofs.Typing.OwnParts

/-!
# Types that the sweep asks for again

The check of types asks for the type of a container while types are still missing, in the
order of the source.  The sweep asks again from the end of the last module, while accessors
are added.  Both find the same type, and it holds elements.
-/

namespace ModularGlsl

/-! ## Containers of dynamic indices -/

section Containers

variable {arena : Arena} {call : DynamicIndex}

theorem Expr.isIndexed_of_mem
    (expr : Expr)
    (hasType : expr.HasType arena)
    (isCall : call ∈ expr.dynamicIndices) :
    call.container.IsIndexed arena := by
  obtain ⟨ty, typed⟩ := hasType
  replace typed := expr.typed_of_typeOf typed
  induction typed with
  | int | float | bool | var | path => cases isCall
  | member _ _ object => exact object isCall
  | index _ _ _ _ left right | binary _ _ _ left right =>
      exact (List.mem_append.mp isCall).elim left right
  | getIndex containerTyped _ _ found container position =>
      rw [Expr.dynamicIndices, List.mem_cons, List.mem_append] at isCall
      rcases isCall with rfl | inContainer | inPosition
      · exact ⟨_, containerTyped.typeOf_eq, Ty.isIndexed_of_index found⟩
      · exact container inContainer
      · exact position inPosition
  | call _ _ _ callee args =>
      rcases List.mem_append.mp isCall with inCallee | inArguments
      · exact callee inCallee
      · obtain ⟨argument, mem, inArgument⟩ := Expr.mem_dynamicIndicesOfAll.mp inArguments
        exact args argument mem inArgument
  | unary _ _ operand => exact operand isCall
  | paren _ inner => exact inner isCall

end Containers

/-- The dynamic indices of a module, those that are read first. -/
def Module.dynamicIndices (module : Module) : List DynamicIndex :=
  module.exprs.flatMap Expr.dynamicIndices ++ module.parts.flatMap Stmt.dynamicStores

namespace Bundle

open Liveness

section Typed

variable {library : Library} {bundle named typed : Bundle}

section

variable (fresh : IsFresh library bundle) (binding : resolveNames bundle = .ok () named)
variable (typing : evalTypes named = .ok () typed)
include fresh binding typing

/-- All expressions of a typed program have types. -/
theorem IsFresh.haveTypes :
    ∀ module ∈ typed.modules,
      Stmt.EveryIn (Expr.HasType typed.arena) (fun _ => True) module.statements :=
  fun module mem => (fresh.isSettled_named binding typing module mem).mono
    (fun _ settled => settled.typed) fun _ _ => trivial

/-- The sweep may ask for all that a typed program declares and indexes. -/
theorem IsFresh.maySweep :
    ∀ module ∈ typed.modules, ∀ part ∈ module.parts, part.MaySweep typed.arena := by
  have isPassed {module : Module} (mem : module ∈ typed.modules) :=
    fresh.isPassed binding typing mem
  obtain ⟨_, bound⟩ := fresh.areBound binding
  obtain ⟨arena, checked, rfl⟩ := evalTypes_eq_ok typing
  intro module mem part isPart
  constructor
  · intro ident isDeclared
    obtain ⟨id, var_eq, _⟩ := (bound _ (.refl _)).ascend.range ident
      (List.mem_flatMap.mpr ⟨module, mem, List.mem_flatMap.mpr ⟨part, isPart, isDeclared⟩⟩)
    exact ⟨id, var_eq⟩
  · intro call isStore
    unfold Stmt.dynamicStores at isStore
    split at isStore
    · next container _ _ _ _ =>
        obtain rfl := List.mem_singleton.mp isStore
        obtain ⟨_, _, completed, _, _, _, _, passed⟩ := (isPassed mem _ isPart).declared
        obtain ⟨ty, found, passed⟩ := except_bind_eq_ok.mp (Typing.use_eq_ok.mp passed).1
        obtain ⟨_, _, passed⟩ := except_bind_eq_ok.mp passed
        obtain ⟨_, _, passed⟩ := except_bind_eq_ok.mp passed
        obtain ⟨_, indexed, _⟩ := except_bind_eq_ok.mp (typing_eq_ok.mp passed)
        exact ⟨ty, completed.typeOf_eq_ok (container.typeOf_of_targetType found),
          Ty.isIndexed_of_index indexed⟩
    · cases isStore

theorem IsFresh.resolveActivity_eq_error
    {error : Diagnostic}
    {after : Bundle}
    (failed : resolveActivity typed = .error error after) :
    ∃ span, error = .flow (.unreachable span) := by
  have keeps := keeps_sweepModules typed.stage (fresh.haveTypes binding typing)
    (fresh.maySweep binding typing)
  exact (keeps { arena := typed.arena, usage := typed.modules.foldl markMain {} }
    ⟨.refl _, by rintro _ ⟨⟩⟩).failure error (failWith_eq_error failed)

end

/-- The sweep finds what the check of types found. -/
structure Reevaluates (named typed : Bundle) : Prop where
  /-- The sweep fails only where code follows a return statement. -/
  failure : ∀ error after, resolveActivity typed = .error error after ->
    ∃ span, error = .flow (.unreachable span)
  /-- Wherever the sweep is, the container of a dynamic index has the type that the check of
  types found for it at every point, it is an array or a vector, and the accessor for it is
  found or made. -/
  containers : ∀ module ∈ typed.modules, ∀ call ∈ module.dynamicIndices,
    ∃ ty,
      ((∃ element length, ty.bare = .array element length) ∨
        ∃ kind arity, ty.bare = .vector kind arity) ∧
      (∀ arena ∈ named.arena :: typingVisits named.modules named.arena, ∀ computed,
        call.container.typeOf arena = .ok computed -> computed = ty) ∧
      ∀ state, State.Moves
          { arena := typed.arena, usage := typed.modules.foldl markMain {} } state ->
        call.container.typeOf state.arena = .ok ty ∧
          ∀ span, ∃ made, accessorFor state call.kind call.container span = .ok made

/-- When names and types of a fresh bundle are settled, the sweep finds the same types
again, so that it makes all accessors. -/
theorem resolveActivity_reevaluates
    (fresh : IsFresh library bundle)
    (binding : resolveNames bundle = .ok () named)
    (typing : evalTypes named = .ok () typed) :
    Reevaluates named typed := by
  refine ⟨fun error after => fresh.resolveActivity_eq_error binding typing, ?_⟩
  intro module mem call isCall
  have isIndexed : call.container.IsIndexed typed.arena := by
    rcases List.mem_append.mp isCall with isRead | isStored
    · obtain ⟨expr, isExpr, inExpr⟩ := List.mem_flatMap.mp isRead
      have haveTypes := (fresh.haveTypes binding typing module mem).of_mem_exprs
      exact expr.isIndexed_of_mem (haveTypes expr isExpr) inExpr
    · obtain ⟨part, isPart, isStore⟩ := List.mem_flatMap.mp isStored
      exact (fresh.maySweep binding typing module mem part isPart).indexed call isStore
  obtain ⟨ty, isTyped, indexed⟩ := isIndexed
  refine ⟨ty, indexed, fun arena onWay computed found => ?_, fun state moves => ?_⟩
  · have atEnd := fresh.typeOf_typed binding typing onWay found
    exact Except.ok.inj (atEnd.symm.trans isTyped)
  · have again := Expr.typeOf_of_grows moves.grows isTyped
    refine ⟨again, fun span => ?_⟩
    obtain ⟨made, obtained⟩ := indexed.exists_accessor state.arena state.usage call.kind span
    exact ⟨made, except_bind_eq_ok.mpr ⟨ty, again, typing_eq_ok.mpr obtained⟩⟩

end Typed

end Bundle

namespace Sample

/-- A program that reads an element of an array of structs, at a dynamic index, after a
return statement. -/
def returning : Bundle :=
  (Bundle.empty .vertex .readable).append
    { path := "/main"
      statements :=
        [lightStruct,
          lightArray "lights",
          main
            [declare "int" "i" (.int 0 {}),
              .ret none {},
              .assign (read "gl_PointSize") .assign (powerAt "lights") {}]] }

theorem isFresh_returning : Bundle.IsFresh ⟨[]⟩ returning :=
  ⟨rfl, by decide +kernel, by decide +kernel⟩

end Sample

namespace Bundle

/-- A program with a dynamic index whose sweep fails. -/
theorem resolveActivity_returning_reevaluates :
    ∃ named typed, resolveNames Sample.returning = .ok () named ∧
      evalTypes named = .ok () typed ∧
      (∃ span after, resolveActivity typed = .error (.flow (.unreachable span)) after) ∧
      (typed.modules.flatMap Module.dynamicIndices).length = 1 ∧ Reevaluates named typed := by
  have passed : passes (fun named =>
      passes (fun typed => fails (resolveActivity typed) &&
          decide ((typed.modules.flatMap Module.dynamicIndices).length = 1))
        (evalTypes named)) (resolveNames Sample.returning) = true := by
    decide +kernel
  obtain ⟨named, binding, passed⟩ := exists_of_passes passed
  obtain ⟨typed, typing, passed⟩ := exists_of_passes passed
  have again := resolveActivity_reevaluates Sample.isFresh_returning binding typing
  rw [Bool.and_eq_true] at passed
  refine ⟨named, typed, binding, typing, ?_, of_decide_eq_true passed.2, again⟩
  cases outcome : resolveActivity typed with
  | ok done after =>
      rw [outcome] at passed
      cases passed.1
  | error error after =>
      obtain ⟨span, rfl⟩ := again.failure error after outcome
      exact ⟨span, after, rfl⟩

end Bundle
end ModularGlsl
