import ModularGlsl.Proofs.Typing.Settled

/-!
# Signatures of functions

After typing, a function of the program has one signature, which holds the types of its
parameters and of its result.  The main function of an entry module was checked when
its module was typed, and its type does not change afterwards.
-/

namespace ModularGlsl

/-- A function has one signature, with the types of its parameters and its result. -/
structure FunctionHeader.HasSignature
    (arena : Arena)
    (header : FunctionHeader)
    (id : VarId)
    (signature : Signature Ty) : Prop where
  /-- The type of the function. -/
  ty_eq : ∃ callable, (arena.get id).ty = some (.function callable) ∧
    callable.overloads = [signature]
  /-- The types of the parameters. -/
  params : List.Forall₂ (fun param ty => ∃ id, param.name.var = some id ∧
    (arena.get id).ty = some ty) header.params signature.params
  /-- The type of the result. -/
  result : Typing.resultType arena header = .ok signature.result

section Headers

variable {before after final : Arena} {header : FunctionHeader}

theorem Typing.typed_of_checkParams
    (retypes : before.Retypes final)
    {params : List Param}
    {first start : Place}
    (bound : Param.AreBound final params first start)
    {tys : List Ty}
    (run : checkParams params before = .ok tys after) :
    (∀ id < first.next, after.get id = before.get id) ∧
      List.Forall₂ (fun param ty => ∃ id ≥ first.next, param.name.var = some id ∧
        (after.get id).ty = some ty) params tys := by
  induction params generalizing before first tys with
  | nil =>
      obtain ⟨rfl, rfl⟩ := pure_eq_ok.mp run
      exact ⟨fun _ _ => rfl, .nil⟩
  | cons param rest ih =>
      obtain ⟨_, declares, restBound⟩ := bound
      obtain ⟨ty, _, run⟩ := use_bind_eq_ok.mp run
      obtain ⟨_, between, given, run⟩ := bind_eq_ok.mp run
      obtain ⟨others, _, restRun, run⟩ := bind_eq_ok.mp run
      obtain ⟨rfl, rfl⟩ := pure_eq_ok.mp run
      obtain ⟨id, isOwn, rfl⟩ := setType_eq_ok.mp given
      obtain rfl : first.next = id := Option.some.inj (declares.var_eq.symm.trans isOwn)
      have inside : first.next < before.size := retypes.size_eq ▸ declares.lt_size
      obtain ⟨kept, typed⟩ := ih
        ((before.retypes_setTy _ ty).symm.trans retypes) restBound restRun
      refine ⟨fun id below => ?_, .cons ⟨first.next, le_rfl, isOwn, ?_⟩ ?_⟩
      · rw [kept id (Nat.lt_succ_of_lt below)]
        exact (before.fills_setTy _ ty).get_eq id (.inl below)
      · rw [kept _ (Nat.lt_succ_self _), Arena.get_setTy_self inside]
      · exact typed.imp fun _ _ ⟨id, above, rest⟩ => ⟨id, Nat.le_of_succ_le above, rest⟩

open Typing in
/-- A function that passed has the signature of its header. -/
theorem Stmt.IsPassed.hasSignature
    {body : List Stmt}
    (passed : (Stmt.function header body).IsPassed final) :
    ∃ id signature, header.name.var = some id ∧ header.HasSignature final id signature := by
  obtain ⟨before, after, early, late, run, _⟩ := passed.declared
  obtain ⟨first, _, ⟨declares, _, start, _, paramsBound, _⟩, _⟩ := passed.placed
  obtain ⟨_, _, headerRun, done⟩ := bind_eq_ok.mp run
  obtain ⟨_, rfl⟩ := pure_eq_ok.mp done
  obtain ⟨result, found, headerRun⟩ := use_bind_eq_ok.mp headerRun
  obtain ⟨tys, between, paramsRun, headerRun⟩ := bind_eq_ok.mp headerRun
  obtain ⟨other, _, headerRun⟩ := use_bind_eq_ok.mp headerRun
  obtain ⟨_, _, given, headerRun⟩ := bind_eq_ok.mp headerRun
  obtain ⟨_, rfl⟩ := pure_eq_ok.mp headerRun
  obtain ⟨_, isSame, rfl⟩ := setType_eq_ok.mp given
  obtain rfl := Option.some.inj (isSame.symm.trans declares.var_eq)
  obtain ⟨_, typed⟩ := typed_of_checkParams early.retypes paramsBound paramsRun
  have inside : first.next < between.size :=
    (KeepsArena.retypes paramsRun).size_eq ▸ early.retypes.size_eq ▸ declares.lt_size
  refine ⟨first.next, ⟨tys, result⟩, declares.var_eq, ⟨_, late.remembers _ _ (by rw [Arena.get_setTy_self inside]), rfl⟩,
    typed.imp ?_, ?_⟩
  · rintro param ty ⟨id, above, var_eq, ty_eq⟩
    have apart (given : Ty) := (between.fills_setTy first.next given).get_eq id (.inr above)
    exact ⟨id, var_eq, late.remembers _ _ (by rw [apart, ty_eq])⟩
  · unfold resultType at found ⊢
    cases result_eq : header.result with
    | none => simpa [result_eq] using found
    | some ty =>
        rw [result_eq] at found
        obtain ⟨declared, asked, found⟩ := except_bind_eq_ok.mp found
        exact except_bind_eq_ok.mpr ⟨declared, early.declaredType_eq_ok asked, found⟩

/-- The main function of a module neither takes nor yields values. -/
theorem FunctionHeader.HasSignature.eq_of_isEntryPoint
    {id : VarId}
    {signature : Signature Ty}
    (hasSignature : header.HasSignature final id signature)
    (isEntry : Typing.isEntryPoint (final.get id) = true) :
    header.params = [] ∧ header.result = none := by
  obtain ⟨⟨callable, ty_eq, overloads_eq⟩, params, result⟩ := hasSignature
  simp only [Typing.isEntryPoint, ty_eq, Option.map_some, Ty.bare, overloads_eq,
    Typing.isEntrySignature, Bool.and_eq_true, List.isEmpty_iff,
    Option.isNone_iff_eq_none] at isEntry
  obtain ⟨_, noParams, noResult⟩ := isEntry
  rw [noParams] at params
  refine ⟨List.forall₂_nil_right_iff.mp params, ?_⟩
  rw [noResult, Typing.resultType] at result
  split at result
  · obtain ⟨_, _, result⟩ := except_bind_eq_ok.mp result
    cases result
  · assumption

/-- A main function stays what it is. -/
theorem Arena.CompletedBy.isEntryPoint
    (completed : before.CompletedBy final)
    {main : VarId}
    (isEntry : Typing.isEntryPoint (before.get main) = true) :
    Typing.isEntryPoint (final.get main) = true := by
  cases found : (before.get main).ty with
  | none => simp [Typing.isEntryPoint, found] at isEntry
  | some ty =>
      have agrees := completed.agreesOn found
      rw [Typing.isEntryPoint, agrees.ty_eq, agrees.decl_eq]
      exact isEntry

end Headers

namespace Bundle

/-- Every module is checked for its main function on the way. -/
theorem exists_checkEntry
    {modules : List Module}
    {before after : Arena}
    (checked : checkModules modules before = .ok () after) :
    ∀ module ∈ modules, ∃ arena ∈ before :: typingVisits modules before,
      checkEntry arena module = .ok () := by
  induction modules generalizing before with
  | nil => simp
  | cons module rest ih =>
      obtain ⟨_, between, early, checked⟩ := bind_eq_ok.mp checked
      obtain ⟨_, _, entry, late⟩ := bind_eq_ok.mp checked
      obtain ⟨passed, rfl⟩ := Typing.use_eq_ok.mp entry
      have comes := (Typing.walks_checkBlock none module.statements early).toComes
      rw [typingVisits, early, Typing.following, entry, Typing.following]
      refine List.forall_mem_cons.mpr
        ⟨⟨between, comes.visited List.mem_cons_self, passed⟩, fun other isOther => ?_⟩
      obtain ⟨arena, visited, passed⟩ := ih late other isOther
      exact ⟨arena, comes.visited visited, passed⟩

/-- After typing, the main functions of entry modules neither take nor yield values. -/
theorem IsFresh.isEntryPoint_main
    {library : Library}
    {bundle named typed : Bundle}
    (fresh : IsFresh library bundle)
    (binding : resolveNames bundle = .ok () named)
    (typing : evalTypes named = .ok () typed)
    {module : Module}
    (mem : module ∈ typed.modules)
    (isEntry : module.entry = true)
    {main : VarId}
    (isMain : module.main = some main) :
    Typing.isEntryPoint (typed.arena.get main) = true := by
  have completed := fresh.completedBy binding typing
  obtain ⟨_, checked, rfl⟩ := evalTypes_eq_ok typing
  obtain ⟨arena, visited, passed⟩ := exists_checkEntry checked module mem
  refine (completed arena visited).isEntryPoint ?_
  rw [checkEntry, isEntry, isMain] at passed
  unfold Typing.checkMain at passed
  dsimp only at passed
  split at passed
  · assumption
  · cases passed

end Bundle
end ModularGlsl
