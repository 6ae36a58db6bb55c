import ModularGlsl.Proofs.Closed.Output

/-!
# Where accessors are spliced in

Splicing walks over all modules and takes accessors from one queue.  Its result
has a closed form: the accessors over no struct stand before the code of the first
module, those over a struct right after its declaration, and those over a struct
that no module declares still wait.  The closed form rests on two facts.  An
accessor waits for one struct at most, and a bound program declares no struct
twice.
-/

namespace ModularGlsl

/-! ## The queue -/

/-- The variable of the accessor that a statement defines. -/
def Stmt.accessorVar? : Stmt -> Option VarId
  | .accessor decl => decl.name.var
  | _ => none

/-- Whether a waiting statement only waits for the given structs. -/
def Pending.isReleased
    (structs : List VarId)
    (waiting : Pending) : Bool :=
  waiting.deps.all structs.contains

/-- The structs that a list of statements declares. -/
def Stmt.structs (block : List Stmt) : List VarId :=
  block.filterMap Module.struct?

namespace Usage

/-- The accessors over a struct, or over none, in the order of their requests. -/
def accessorsOver
    (usage : Usage)
    (element : Option VarId) : List Stmt :=
  (usage.pending.filter fun waiting => waiting.deps == element.toList).map Pending.stmt

/-- Whether a statement defines a waiting accessor. -/
def defines
    (usage : Usage)
    (stmt : Stmt) : Bool :=
  usage.pending.any fun waiting => stmt.accessorVar? == some waiting.var

/-- The usage once all that waits for the given structs is placed. -/
def without
    (usage : Usage)
    (structs : List VarId) : Usage :=
  { usage with pending := usage.pending.filter fun waiting => !waiting.isReleased structs }

/-- The accessors that a statement brings with it. -/
def following
    (usage : Usage)
    (stmt : Stmt) : List Stmt :=
  match Module.struct? stmt with
  | some var => usage.accessorsOver (some var)
  | none => []

/-- Statements, each with the accessors that it brings with it. -/
def spread
    (usage : Usage)
    (block : List Stmt) : List Stmt :=
  block.flatMap fun stmt => stmt :: usage.following stmt

/-- Statements like these that also bring the accessors over no struct, before
the first one that is no prologue. -/
def lead
    (usage : Usage)
    (block : List Stmt) : List Stmt :=
  block.takeWhile Stmt.isPrologue ++
    (usage.accessorsOver none ++ usage.spread (block.dropWhile Stmt.isPrologue))

end Usage

variable {modules : List Module} {struct : VarId} {stmt : Stmt} {accessors : Accessor -> Prop}
variable {visible : List VarId} {next stop : VarId} {arena : Arena} {usage : Usage}
variable {waiting : Pending}

theorem Pending.isReady_release_eq
    (dep : Option VarId)
    (waiting : Pending) :
    (waiting.release dep).isReady = waiting.isReleased dep.toList := by
  rw [Bool.eq_iff_iff, isReady_release, isReleased, List.all_eq_true]
  refine forall₂_congr fun id _ => ?_
  rw [List.contains_iff_mem, Option.mem_toList]

/-- An accessor waits for one struct at most, so that it is released by one of two
lists if it is released by both together. -/
theorem Pending.IsAccessor.isReleased_append
    (isAccessor : waiting.IsAccessor arena)
    (left right : List VarId) :
    waiting.isReleased (left ++ right) = (waiting.isReleased left || waiting.isReleased right) := by
  obtain ⟨accessor, _, _, deps_eq⟩ := isAccessor
  unfold isReleased
  rw [deps_eq]
  cases accessor.element.var with
  | none => rfl
  | some struct => simp

theorem Pending.isReleased_of_deps_eq
    (deps_eq : waiting.deps = [struct])
    (structs : List VarId) :
    waiting.isReleased structs = structs.contains struct := by
  rw [isReleased, deps_eq, List.all_cons, List.all_nil, Bool.and_true]

theorem Pending.IsAccessor.exists_deps_eq
    (isAccessor : waiting.IsAccessor arena)
    (blocked : waiting.deps ≠ []) :
    ∃ struct, waiting.deps = [struct] := by
  obtain ⟨accessor, _, _, deps_eq⟩ := isAccessor
  rw [deps_eq] at blocked ⊢
  cases found : accessor.element.var with
  | none => exact absurd (by rw [found]; rfl) blocked
  | some struct => exact ⟨struct, rfl⟩

namespace Usage

/-- A queue of accessors. -/
def HoldsAccessors
    (arena : Arena)
    (usage : Usage) : Prop :=
  ∀ waiting ∈ usage.pending, waiting.IsAccessor arena

theorem HoldsAccessors.without
    (holds : usage.HoldsAccessors arena)
    (structs : List VarId) :
    (usage.without structs).HoldsAccessors arena :=
  fun waiting mem => holds waiting (List.mem_of_mem_filter mem)

/-- What still waits does so for a struct. -/
theorem deps_ne_nil_of_without
    {structs : List VarId}
    (mem : waiting ∈ (usage.without structs).pending) :
    waiting.deps ≠ [] := by
  intro none_left
  have left := (List.mem_filter.mp mem).2
  rw [Pending.isReleased, none_left] at left
  cases left

theorem HoldsAccessors.without_without
    (holds : usage.HoldsAccessors arena)
    (first second : List VarId) :
    (usage.without first).without second = usage.without (first ++ second) := by
  refine congrArg (fun pending => { usage with pending := pending }) ?_
  refine (List.filter_filter ..).trans (List.filter_congr fun waiting mem => ?_)
  rw [(holds waiting mem).isReleased_append, Bool.not_or, Bool.and_comm]

/-- Taking accessors over some structs leaves those over the others. -/
theorem accessorsOver_without
    {structs : List VarId}
    (other : struct ∉ structs) :
    (usage.without structs).accessorsOver (some struct) = usage.accessorsOver (some struct) := by
  refine congrArg (List.map Pending.stmt) ((List.filter_filter ..).trans ?_)
  refine List.filter_congr fun waiting _ => ?_
  cases same : waiting.deps == (some struct).toList with
  | false => rfl
  | true =>
      have blocked : waiting.isReleased structs = false := by
        rw [Pending.isReleased_of_deps_eq (eq_of_beq same), List.contains_eq_mem]
        exact decide_eq_false other
      rw [blocked]
      rfl

/-- What a struct releases once the accessors over no struct and those over other
structs are taken. -/
theorem pop_without
    (holds : usage.HoldsAccessors arena)
    {structs : List VarId}
    (other : struct ∉ structs) :
    (usage.without structs).pop (some struct) =
      (usage.accessorsOver (some struct), usage.without (structs ++ [struct])) := by
  rw [pop_eq (holds.without structs), ← accessorsOver_without other, ← holds.without_without]
  simp only [Pending.isReady_release_eq]
  refine Prod.ext (congrArg (List.map Pending.stmt) ?_) rfl
  refine List.filter_congr fun waiting mem => ?_
  obtain ⟨dep, deps_eq⟩ :=
    (holds.without structs waiting mem).exists_deps_eq (deps_ne_nil_of_without mem)
  rw [Pending.isReleased_of_deps_eq deps_eq, deps_eq]
  exact Bool.eq_iff_iff.mpr (by simp)

/-- What waits for nothing is taken without a struct. -/
theorem pop_none (holds : usage.HoldsAccessors arena) :
    usage.pop none = (usage.accessorsOver none, usage.without []) := by
  rw [pop_eq holds]
  simp only [Pending.isReady_release_eq]
  refine Prod.ext (congrArg (List.map Pending.stmt) ?_) rfl
  refine List.filter_congr fun waiting _ => ?_
  unfold Pending.isReleased
  cases waiting.deps <;> rfl

end Usage

/-! ## Closed form -/

namespace Usage

theorem spread_append (left right : List Stmt) :
    usage.spread (left ++ right) = usage.spread left ++ usage.spread right :=
  List.flatMap_append

/-- A struct comes with its accessors. -/
theorem spread_cons_struct
    (isStruct : Module.struct? stmt = some struct)
    (rest : List Stmt) :
    usage.spread (stmt :: rest) =
      stmt :: (usage.accessorsOver (some struct) ++ usage.spread rest) := by
  rw [spread, List.flatMap_cons, following, isStruct]
  rfl

/-- A statement that declares no struct comes alone. -/
theorem spread_cons_of_none
    (noStruct : Module.struct? stmt = none)
    (rest : List Stmt) :
    usage.spread (stmt :: rest) = stmt :: usage.spread rest := by
  rw [spread, List.flatMap_cons, following, noStruct]
  rfl

/-- Statements come before what they bring with them. -/
theorem head?_spread (block : List Stmt) : (usage.spread block).head? = block.head? := by
  cases block <;> rfl

end Usage

theorem Module.isPrologue_of_struct? (isStruct : struct? stmt = some struct) :
    stmt.isPrologue = false := by
  cases stmt with
  | struct decl => rfl
  | _ => cases isStruct

theorem Module.struct?_of_isPrologue (isPrologue : stmt.isPrologue = true) :
    struct? stmt = none := by
  cases stmt with
  | struct decl => cases isPrologue
  | _ => rfl

theorem Usage.lead_append_cons
    (usage : Usage)
    (front : List Stmt)
    (isCode : stmt.isPrologue = false)
    (back : List Stmt) :
    usage.lead (front ++ stmt :: back) = usage.lead front ++ usage.spread (stmt :: back) := by
  unfold lead
  induction front with
  | nil =>
      rw [List.nil_append, List.takeWhile_cons_of_neg (by simp [isCode]),
        List.dropWhile_cons_of_neg (by simp [isCode])]
      simp [spread]
  | cons head rest ih =>
      rw [List.cons_append]
      cases isHead : head.isPrologue with
      | true =>
          rw [List.takeWhile_cons_of_pos isHead, List.dropWhile_cons_of_pos isHead,
            List.takeWhile_cons_of_pos isHead, List.dropWhile_cons_of_pos isHead, List.cons_append,
            ih, List.cons_append, List.cons_append]
      | false =>
          rw [List.takeWhile_cons_of_neg (by simp [isHead]),
            List.dropWhile_cons_of_neg (by simp [isHead]),
            List.takeWhile_cons_of_neg (by simp [isHead]),
            List.dropWhile_cons_of_neg (by simp [isHead]), ← List.cons_append, spread_append]
          simp only [List.nil_append, List.append_assoc]

variable {early : List VarId} {block : List Stmt}

namespace Module

/-- Where the accessors over no struct are placed, each struct brings its own. -/
theorem splice_true
    (holds : usage.HoldsAccessors arena)
    (nodup : (early ++ Stmt.structs block).Nodup) :
    splice true (usage.without early) block =
      (usage.spread block, usage.without (early ++ Stmt.structs block)) := by
  induction block generalizing early with
  | nil => exact Prod.ext rfl (congrArg usage.without (List.append_nil early).symm)
  | cons stmt rest ih =>
      rw [splice_cons]
      cases isStruct : struct? stmt with
      | none =>
          have structs_eq : Stmt.structs (stmt :: rest) = Stmt.structs rest :=
            List.filterMap_cons_none isStruct
          rw [structs_eq] at nodup ⊢
          simp only [general, release, isStruct, Bool.true_or, Bool.not_true, Bool.false_and,
            Bool.false_eq_true, if_false, ih nodup,
            Usage.spread_cons_of_none isStruct, List.nil_append]
      | some struct =>
          have structs_eq : early ++ Stmt.structs (stmt :: rest) =
              (early ++ [struct]) ++ Stmt.structs rest := by
            rw [Stmt.structs, List.filterMap_cons_some isStruct, List.append_cons]
            rfl
          rw [structs_eq] at nodup ⊢
          have isNew : struct ∉ early := fun mem =>
            (List.nodup_append.mp (List.nodup_append.mp nodup).1).2.2 struct mem struct
              (List.mem_singleton_self struct) rfl
          simp only [general, release, isStruct, Bool.true_or, Bool.not_true, Bool.false_and,
            Bool.false_eq_true, if_false, Usage.pop_without holds isNew, ih nodup,
            Usage.spread_cons_struct isStruct, List.nil_append]

/-- In the first module the accessors over no struct are placed too. -/
theorem splice_false
    (holds : usage.HoldsAccessors arena)
    (nodup : (Stmt.structs block).Nodup) :
    splice false usage block = (usage.lead block, usage.without (Stmt.structs block)) := by
  induction block with
  | nil =>
      refine (Usage.pop_none holds).trans (Prod.ext ?_ rfl)
      exact (List.append_nil _).symm
  | cons stmt rest ih =>
      cases isPrologue : stmt.isPrologue with
      | true =>
          have noStruct := struct?_of_isPrologue isPrologue
          have structs_eq : Stmt.structs (stmt :: rest) = Stmt.structs rest :=
            List.filterMap_cons_none noStruct
          rw [structs_eq] at nodup ⊢
          rw [splice_cons]
          simp only [general, release, noStruct, isPrologue, Bool.false_or, Bool.not_true,
            Bool.and_false, Bool.false_eq_true, if_false, ih nodup, Usage.lead,
            List.takeWhile_cons_of_pos isPrologue, List.dropWhile_cons_of_pos isPrologue,
            List.nil_append, List.cons_append]
      | false =>
          -- The accessors over no struct are taken here, and then the walk goes on
          -- as if they had been placed before.
          have opens : splice false usage (stmt :: rest) =
              ((usage.pop none).1 ++ (splice true (usage.pop none).2 (stmt :: rest)).1,
                (splice true (usage.pop none).2 (stmt :: rest)).2) := by
            rw [splice_cons, splice_cons]
            simp only [general, isPrologue, Bool.not_false, Bool.not_true, Bool.and_true,
              Bool.false_eq_true, if_true, if_false, Bool.false_or, Bool.true_or,
              List.nil_append]
          have later : splice true (usage.without []) (stmt :: rest) =
              (usage.spread (stmt :: rest), usage.without (Stmt.structs (stmt :: rest))) :=
            splice_true holds nodup
          rw [opens, Usage.pop_none holds, later]
          refine Prod.ext ?_ rfl
          refine Eq.trans ?_ (usage.lead_append_cons [] isPrologue rest).symm
          exact congrArg (· ++ usage.spread (stmt :: rest)) (List.append_nil _).symm

end Module

/-! ## All modules -/

variable {first last : Place}

theorem Module.next_lt_of_struct?
    (bound : stmt.IsBound arena accessors first last)
    (isStruct : struct? stmt = some struct) :
    first.next < last.next := by
  cases stmt with
  | struct decl =>
      obtain ⟨_, _, rfl⟩ := bound
      exact Nat.lt_succ_self _
  | _ => cases isStruct

theorem Stmt.AreBound.structs
    (bound : Stmt.AreBound arena accessors block first last) :
    (Stmt.structs block).Pairwise (· < ·) ∧
      ∀ struct ∈ Stmt.structs block, first.next ≤ struct ∧ struct < last.next := by
  induction block generalizing first with
  | nil => exact ⟨.nil, fun _ mem => by cases mem⟩
  | cons stmt rest ih =>
      obtain ⟨middle, stmtBound, restBound⟩ := bound
      obtain ⟨ordered, range⟩ := ih restBound
      have step := stmtBound.leads.next_le
      have later : ∀ struct ∈ Stmt.structs rest, first.next ≤ struct ∧ struct < last.next :=
        fun struct mem => ⟨Nat.le_trans step (range struct mem).1, (range struct mem).2⟩
      cases isStruct : Module.struct? stmt with
      | none =>
          rw [Stmt.structs, List.filterMap_cons_none isStruct]
          exact ⟨ordered, later⟩
      | some struct =>
          have next_eq := Module.eq_next_of_struct? stmtBound isStruct
          have below := Module.next_lt_of_struct? stmtBound isStruct
          rw [Stmt.structs, List.filterMap_cons_some isStruct]
          refine ⟨List.pairwise_cons.mpr ⟨fun other mem => ?_, ordered⟩, ?_⟩
          · exact next_eq ▸ Nat.lt_of_lt_of_le below (range other mem).1
          · refine List.forall_mem_cons.mpr ⟨⟨Nat.le_of_eq next_eq.symm, ?_⟩, later⟩
            exact next_eq ▸ Nat.lt_of_lt_of_le below restBound.leads.next_le

variable {module : Module}

namespace Bundle

/-- The structs that modules declare. -/
def structs (modules : List Module) : List VarId :=
  modules.flatMap fun module => Stmt.structs module.statements

/-- Structs of later modules have larger numbers. -/
theorem structs_of_areBound
    (bound : Module.AreBound arena accessors modules visible next stop) :
    (structs modules).Pairwise (· < ·) ∧ ∀ struct ∈ structs modules, next ≤ struct := by
  induction modules generalizing visible next with
  | nil => exact ⟨.nil, fun _ mem => by cases mem⟩
  | cons module rest ih =>
      obtain ⟨last, moduleBound, restBound⟩ := bound
      obtain ⟨ordered, range⟩ := moduleBound.statements.structs
      obtain ⟨restOrdered, above⟩ := ih restBound
      have step : next ≤ last.next := moduleBound.statements.leads.next_le
      refine ⟨List.pairwise_append.mpr ⟨ordered, restOrdered, ?_⟩, ?_⟩
      · intro early isEarly late isLate
        exact Nat.lt_of_lt_of_le (range early isEarly).2 (above late isLate)
      · refine List.forall_mem_append.mpr ⟨fun struct mem => (range struct mem).1, ?_⟩
        exact fun struct mem => Nat.le_trans step (above struct mem)

/-- After the first module, each struct brings its own accessors. -/
theorem spliceModules_false
    (holds : usage.HoldsAccessors arena)
    (nodup : (early ++ structs modules).Nodup) :
    spliceModules false (usage.without early) modules =
      (modules.map fun module => { module with statements := usage.spread module.statements },
        usage.without (early ++ structs modules)) := by
  induction modules generalizing early with
  | nil => exact Prod.ext rfl (congrArg usage.without (List.append_nil early).symm)
  | cons module rest ih =>
      rw [structs, List.flatMap_cons, ← List.append_assoc] at nodup ⊢
      rw [spliceModules]
      simp only [Bool.not_false, Module.splice_true holds (List.nodup_append.mp nodup).1,
        ih nodup, List.map_cons]
      rfl

/-- The first module also brings the accessors over no struct. -/
theorem spliceModules_true
    (holds : usage.HoldsAccessors arena)
    {rest : List Module}
    (nodup : (structs (module :: rest)).Nodup) :
    spliceModules true usage (module :: rest) =
      ({ module with statements := usage.lead module.statements } ::
          rest.map fun module => { module with statements := usage.spread module.statements },
        usage.without (structs (module :: rest))) := by
  rw [spliceModules]
  simp only [Bool.not_true, Module.splice_false holds (List.nodup_append.mp nodup).1,
    spliceModules_false holds nodup]
  rfl

end Bundle

/-! ## What splicing does -/

/-- What splicing makes of a module. -/
structure Module.IsSplicedFrom
    (usage : Usage)
    (isFirst : Bool)
    (original module : Module) : Prop where
  /-- Nothing but the statements changes. -/
  eq_original : module = { original with statements := module.statements }
  /-- Without the accessors, the statements are those from before. -/
  restored : (module.statements.filter fun stmt => !usage.defines stmt) = original.statements
  /-- The accessors over no struct stand in the first module, together, in the
  order of their requests, and right before the first statement that is no
  prologue. -/
  general : isFirst = true -> ∃ code,
    module.statements =
        original.statements.takeWhile Stmt.isPrologue ++ (usage.accessorsOver none ++ code) ∧
      code.head? = (original.statements.dropWhile Stmt.isPrologue).head?
  /-- The accessors over a struct stand right after its declaration, together and
  in the order of their requests. -/
  own : ∀ front stmt back struct,
    original.statements = front ++ stmt :: back -> struct? stmt = some struct ->
      ∃ before after,
        module.statements = before ++ stmt :: (usage.accessorsOver (some struct) ++ after) ∧
          (before.filter fun stmt => !usage.defines stmt) = front ∧
            (after.filter fun stmt => !usage.defines stmt) = back ∧ after.head? = back.head?

/-- What splicing makes of modules and a queue. -/
structure Bundle.IsSplicedFrom
    (usage : Usage)
    (original modules : List Module)
    (left : Usage) : Prop where
  /-- All that waits is an accessor, and it waits for its struct. -/
  accessors : ∀ waiting ∈ usage.pending, ∃ accessor,
    waiting.stmt = .accessor accessor ∧ accessor.name.var = some waiting.var ∧
      waiting.deps = accessor.element.var.toList
  /-- No module is added or lost. -/
  length_eq : modules.length = original.length
  /-- Each module gets its accessors. -/
  spliced : ∀ index module, original[index]? = some module -> ∃ result,
    modules[index]? = some result ∧ Module.IsSplicedFrom usage (index == 0) module result
  /-- An accessor over no struct or over a struct of a module is placed once, and
  the others are placed nowhere. -/
  once : ∀ waiting ∈ usage.pending,
    ((modules.flatMap Module.statements).countP fun stmt =>
        stmt.accessorVar? == some waiting.var) =
      if waiting.isReleased (structs original) then 1 else 0
  /-- Those that are not placed still wait. -/
  left_eq : left = usage.without (structs original)

section

variable (holds : usage.HoldsAccessors arena)
include holds

theorem Usage.defines_of_accessorsOver {element : Option VarId} :
    ∀ stmt ∈ usage.accessorsOver element, usage.defines stmt = true := by
  intro stmt mem
  obtain ⟨waiting, isWaiting, rfl⟩ := List.mem_map.mp mem
  have isWaiting := List.mem_of_mem_filter isWaiting
  obtain ⟨accessor, stmt_eq, declares, _⟩ := holds waiting isWaiting
  refine List.any_eq_true.mpr ⟨waiting, isWaiting, ?_⟩
  rw [stmt_eq, Stmt.accessorVar?, declares.var_eq]
  exact beq_self_eq_true _

/-- Without the accessors, no accessor over a struct is left. -/
theorem Usage.filter_accessorsOver
    (element : Option VarId) :
    (usage.accessorsOver element).filter (fun stmt => !usage.defines stmt) = [] := by
  refine List.filter_eq_nil_iff.mpr fun stmt mem => ?_
  rw [defines_of_accessorsOver holds stmt mem]
  exact Bool.false_ne_true

/-- Without the accessors, statements come without what they bring. -/
theorem Usage.filter_spread
    (undefined : ∀ stmt ∈ block, usage.defines stmt = false) :
    (usage.spread block).filter (fun stmt => !usage.defines stmt) = block := by
  induction block with
  | nil => rfl
  | cons stmt rest ih =>
      obtain ⟨undefined, restUndefined⟩ := List.forall_mem_cons.mp undefined
      have none_follow : (usage.following stmt).filter (fun stmt => !usage.defines stmt) = [] := by
        unfold following
        split
        · exact filter_accessorsOver holds _
        · rfl
      rw [spread, List.flatMap_cons, List.cons_append,
        List.filter_cons_of_pos (by simp [undefined]), List.filter_append, none_follow]
      exact congrArg (stmt :: ·) (ih restUndefined)

/-- Without the accessors, the statements of the first module are as before. -/
theorem Usage.filter_lead
    (undefined : ∀ stmt ∈ block, usage.defines stmt = false) :
    (usage.lead block).filter (fun stmt => !usage.defines stmt) = block := by
  have early : ∀ stmt ∈ block.takeWhile Stmt.isPrologue, usage.defines stmt = false :=
    fun stmt mem => undefined stmt (List.takeWhile_subset _ mem)
  have late : ∀ stmt ∈ block.dropWhile Stmt.isPrologue, usage.defines stmt = false :=
    fun stmt mem => undefined stmt (List.dropWhile_subset _ mem)
  rw [lead, List.filter_append, List.filter_append, filter_accessorsOver holds,
    filter_spread holds late,
    List.filter_eq_self.mpr fun stmt mem => by simp [early stmt mem]]
  exact List.takeWhile_append_dropWhile

end

namespace Module

section

variable (holds : usage.HoldsAccessors arena)
variable (undefined : ∀ stmt ∈ module.statements, usage.defines stmt = false)
include holds undefined

/-- Splicing in a module other than the first. -/
theorem isSplicedFrom_spread :
    IsSplicedFrom usage false module
      { module with statements := usage.spread module.statements } where
  eq_original := rfl
  restored := Usage.filter_spread holds undefined
  general isFirst := by cases isFirst
  own front stmt back struct split isStruct := by
    rw [split, List.forall_mem_append, List.forall_mem_cons] at undefined
    refine ⟨usage.spread front, usage.spread back, ?_, Usage.filter_spread holds undefined.1,
      Usage.filter_spread holds undefined.2.2, Usage.head?_spread back⟩
    rw [split, Usage.spread_append, Usage.spread_cons_struct isStruct]

theorem isSplicedFrom_lead :
    IsSplicedFrom usage true module
      { module with statements := usage.lead module.statements } where
  eq_original := rfl
  restored := Usage.filter_lead holds undefined
  general _ := ⟨_, rfl, Usage.head?_spread _⟩
  own front stmt back struct split isStruct := by
    rw [split, List.forall_mem_append, List.forall_mem_cons] at undefined
    refine ⟨usage.lead front, usage.spread back, ?_, Usage.filter_lead holds undefined.1,
      Usage.filter_spread holds undefined.2.2, Usage.head?_spread back⟩
    rw [split, usage.lead_append_cons front (isPrologue_of_struct? isStruct),
      Usage.spread_cons_struct isStruct]

end

end Module

variable {low : VarId}

/-- Waiting accessors have different variables. -/
theorem Usage.Waits.nodup
    (waits : usage.Waits arena low) :
    (usage.pending.map Pending.var).Nodup :=
  List.pairwise_map.mpr (waits.ordered.imp Nat.ne_of_lt)

namespace Bundle

/-- Accessors are told apart by their variables. -/
theorem countP_accessorVar?
    (holds : usage.HoldsAccessors arena)
    (var : VarId) :
    ((usage.pending.map Pending.stmt).countP fun stmt => stmt.accessorVar? == some var) =
      (usage.pending.map Pending.var).count var := by
  rw [List.count, List.countP_map, List.countP_map]
  refine List.countP_congr fun waiting mem => ?_
  obtain ⟨accessor, stmt_eq, declares, _⟩ := holds waiting mem
  rw [Function.comp_apply, Function.comp_apply, stmt_eq, Stmt.accessorVar?, declares.var_eq]
  rfl

/-- An accessor stands once in the queue, until it is taken. -/
theorem count_without
    (waits : usage.Waits arena low)
    (mem : waiting ∈ usage.pending)
    (structs : List VarId) :
    ((usage.without structs).pending.map Pending.var).count waiting.var =
      if waiting.isReleased structs then 0 else 1 := by
  have nodup := waits.nodup
  split
  · next isReleased =>
      refine List.count_eq_zero.mpr fun isLeft => ?_
      obtain ⟨other, isLeft, same⟩ := List.mem_map.mp isLeft
      obtain ⟨isOther, blocked⟩ := List.mem_filter.mp isLeft
      rw [List.inj_on_of_nodup_map nodup isOther mem same, isReleased] at blocked
      cases blocked
  · next blocked =>
      refine List.count_eq_one_of_mem (nodup.sublist (List.filter_sublist.map _)) ?_
      exact List.mem_map_of_mem (List.mem_filter.mpr ⟨mem, by simpa using blocked⟩)

theorem defines_eq_false
    (bound : Module.AreBound arena Accessor.IsUnbound modules visible next stop)
    (usage : Usage) :
    ∀ module ∈ modules, ∀ stmt ∈ module.statements,
      stmt.accessorVar? = none ∧ usage.defines stmt = false := by
  intro module isModule stmt mem
  obtain ⟨_, _, _, own⟩ := bound.exists_of_mem isModule
  obtain ⟨_, _, _, stmtBound, _⟩ := own.statements.exists_of_mem mem
  have undefined : stmt.accessorVar? = none := by
    cases stmt with
    | accessor decl => exact stmtBound.1.name_eq
    | _ => rfl
  refine ⟨undefined, List.any_eq_false.mpr fun waiting _ => ?_⟩
  rw [undefined]
  exact Bool.false_ne_true

/-- Splicing places each accessor that it takes once. -/
theorem countP_spliceModules
    (waits : usage.Waits arena low)
    (undefined : ∀ module ∈ modules, ∀ stmt ∈ module.statements, stmt.accessorVar? = none)
    {structs : List VarId}
    (left_eq : (spliceModules true usage modules).2 = usage.without structs)
    (mem : waiting ∈ usage.pending) :
    (((spliceModules true usage modules).1.flatMap Module.statements).countP fun stmt =>
        stmt.accessorVar? == some waiting.var) =
      if waiting.isReleased structs then 1 else 0 := by
  obtain ⟨taken, hands, permuted⟩ := spliceModules_perm (fun _ stmt => [stmt]) (fun stmt => [stmt])
    true modules fun _ (_ : _ ∈ usage.pending.map Pending.stmt) _ => rfl
  simp only [List.flatMap_singleton', left_eq] at permuted hands
  have none_before : ((modules.flatMap Module.statements).countP fun stmt =>
      stmt.accessorVar? == some waiting.var) = 0 := by
    refine List.countP_eq_zero.mpr fun stmt isStmt => ?_
    obtain ⟨module, isModule, isStmt⟩ := List.mem_flatMap.mp isStmt
    rw [undefined module isModule stmt isStmt]
    exact Bool.false_ne_true
  have shared := hands.perm.countP_eq fun stmt => stmt.accessorVar? == some waiting.var
  have holds : usage.HoldsAccessors arena := waits.isAccessor
  rw [List.countP_append, countP_accessorVar? holds, countP_accessorVar? (holds.without structs),
    count_without waits mem, List.count_eq_one_of_mem waits.nodup (List.mem_map_of_mem mem)]
    at shared
  have all := permuted.countP_eq fun stmt => stmt.accessorVar? == some waiting.var
  rw [List.countP_append, none_before] at all
  refine all.trans ?_
  split at shared
  · next isReleased =>
      rw [if_pos isReleased]
      omega
  · next blocked =>
      rw [if_neg blocked]
      omega

theorem isSplicedFrom_spliceModules
    (bound : Module.AreBound arena Accessor.IsUnbound modules visible next stop)
    (waits : usage.Waits arena low)
    (none_waits : modules = [] -> usage.pending = []) :
    IsSplicedFrom usage modules (spliceModules true usage modules).1
      (spliceModules true usage modules).2 := by
  have holds : usage.HoldsAccessors arena := waits.isAccessor
  have undefined := defines_eq_false bound usage
  have nodup : (structs modules).Nodup := (structs_of_areBound bound).1.imp Nat.ne_of_lt
  have left_eq : (spliceModules true usage modules).2 = usage.without (structs modules) := by
    cases modules with
    | nil =>
        refine congrArg (fun pending => { usage with pending := pending }) ?_
        rw [none_waits rfl]
        rfl
    | cons module rest => rw [spliceModules_true holds nodup]
  refine ⟨fun waiting mem => ?_, ?_, fun index module isModule => ?_, fun waiting mem => ?_,
    left_eq⟩
  · obtain ⟨accessor, stmt_eq, declares, deps_eq⟩ := holds waiting mem
    exact ⟨accessor, stmt_eq, declares.var_eq, deps_eq⟩
  · cases modules with
    | nil => rfl
    | cons module rest => simp [spliceModules_true holds nodup]
  · have own := fun stmt mem =>
      (undefined module (List.mem_of_getElem? isModule) stmt mem).2
    cases modules with
    | nil => cases isModule
    | cons head rest =>
        rw [spliceModules_true holds nodup]
        cases index with
        | zero =>
            obtain rfl : head = module := Option.some.inj isModule
            exact ⟨_, rfl, Module.isSplicedFrom_lead holds own⟩
        | succ index =>
            have isLater : rest[index]? = some module := isModule
            refine ⟨_, ?_, Module.isSplicedFrom_spread holds own⟩
            rw [List.getElem?_cons_succ, List.getElem?_map, isLater]
            rfl
  · exact countP_spliceModules waits
      (fun module isModule stmt isStmt => (undefined module isModule stmt isStmt).1) left_eq mem

theorem pending_eq_nil
    {typed swept : Bundle}
    (sweeping : resolveActivity typed = .ok () swept)
    (empty : swept.modules = []) :
    swept.usage.pending = [] := by
  obtain ⟨modules, state, run, rfl⟩ := resolveActivity_eq_ok sweeping
  obtain rfl : modules = [] := empty
  cases isEmpty : typed.modules with
  | nil =>
      rw [isEmpty] at run
      obtain ⟨_, rfl, _⟩ := runs_pure.mp run
      rfl
  | cons module rest =>
      rw [isEmpty, Liveness.sweepModules] at run
      cases (runs_pure.mp run).1

/-- Splicing is exact: it places each accessor once and where it belongs, changes
nothing else, and leaves those waiting whose struct no module declares. -/
theorem resolveActivity_isSplicedFrom
    {library : Library}
    {bundle placed named typed swept : Bundle}
    (fresh : IsFresh library bundle)
    (placing : resolveDependencies library bundle = .ok () placed)
    (binding : resolveNames placed = .ok () named)
    (typing : evalTypes named = .ok () typed)
    (sweeping : resolveActivity typed = .ok () swept) :
    IsSplicedFrom swept.usage swept.modules (spliceModules true swept.usage swept.modules).1
      (spliceModules true swept.usage swept.modules).2 := by
  obtain ⟨bound, _, waits⟩ :=
    fresh.isInRange.areBound_swept ⟨⟨⟨placing, binding⟩, typing⟩, sweeping⟩
  exact isSplicedFrom_spliceModules bound waits (pending_eq_nil sweeping)

end Bundle

namespace Sample

/-- A program with a prologue that reads an array of structs and one of numbers at
a dynamic index. -/
def indexing : Bundle :=
  (Bundle.empty .vertex .readable).append
    { path := "/main"
      statements :=
        [.version 300 "es" {},
          .struct ⟨name "Light", [⟨name "float", "power", none, {}⟩], {}⟩,
          .interface ⟨.uniform, none, name "Light", name "lights", some 2, {}⟩,
          .interface ⟨.uniform, none, name "float", name "weights", some 2, {}⟩,
          main
            [.loop (declare "int" "i" (.int 0 {})) (.binary .less (read "i") (.int 2 {}) {})
              (.update (read "i") .increment {})
              [.assign (read "gl_PointSize") .add
                (.binary .mul
                  (.member (.getIndex (read "lights") (read "i") none {}) "power" none {})
                  (.getIndex (read "weights") (read "i") none {}) {}) {}] {}]] }

end Sample

namespace Bundle

/-- An accessor over a struct follows the struct, and one over numbers follows the
prologue. -/
theorem resolveActivity_indexing_isSplicedFrom :
    ∃ placed named typed swept,
      resolveDependencies Sample.library Sample.indexing = .ok () placed ∧
        resolveNames placed = .ok () named ∧ evalTypes named = .ok () typed ∧
          resolveActivity typed = .ok () swept ∧
      ((spliceModules true swept.usage swept.modules).1.map fun module =>
        module.statements.map Stmt.accessorVar?) =
          [[none, some 63, none, some 64, none, none, none]] ∧
      IsSplicedFrom swept.usage swept.modules (spliceModules true swept.usage swept.modules).1
        (spliceModules true swept.usage swept.modules).2 := by
  have passed : passes
      (fun swept => decide
        (((spliceModules true swept.usage swept.modules).1.map fun module =>
          module.statements.map Stmt.accessorVar?) =
            [[none, some 63, none, some 64, none, none, none]]))
      ((do
        resolveDependencies Sample.library
        resolveNames
        evalTypes
        resolveActivity) Sample.indexing) = true := by
    decide +kernel
  have fresh : IsFresh Sample.library Sample.indexing :=
    ⟨rfl, by decide +kernel, Sample.isFresh_bundle.library⟩
  obtain ⟨swept, run, placedAt⟩ := exists_of_passes passed
  obtain ⟨_, placed, placing, run⟩ := bind_eq_ok.mp run
  obtain ⟨_, named, binding, run⟩ := bind_eq_ok.mp run
  obtain ⟨_, typed, typing, sweeping⟩ := bind_eq_ok.mp run
  refine ⟨placed, named, typed, swept, placing, binding, typing, sweeping,
    of_decide_eq_true placedAt, ?_⟩
  exact resolveActivity_isSplicedFrom fresh placing binding typing sweeping

end Bundle
end ModularGlsl
