import Mathlib.Logic.Relation
import ModularGlsl.FinalNames
import ModularGlsl.Proofs.Binding.Place
import ModularGlsl.Proofs.Naming.Tree

/-!
# Claims over runs of operations

Levels are opened, names are kept and names are given in any order and at any levels of the
tree.  At every level names and variables stay in correspondence, because a claim is only made
for a variable and a name that are new on the chain of the level.  Claims are never withdrawn.
-/

namespace ModularGlsl

/-- The name that a variable claims at a level. -/
def Level.nameOf?
    (level : Level)
    (var : VarId) : Option String :=
  level.claims.lookup var

/-- The variable that claims a name at a level. -/
def Level.varOf?
    (level : Level)
    (name : String) : Option VarId :=
  (level.claims.map Prod.swap).lookup name

theorem lookup_eq_some_iff_mem
    {α β : Type}
    [BEq α] [LawfulBEq α]
    {entries : List (α × β)}
    (nodup : (entries.map Prod.fst).Nodup)
    {key : α}
    {value : β} :
    entries.lookup key = some value ↔ (key, value) ∈ entries := by
  induction entries with
  | nil => simp
  | cons entry rest ih =>
      obtain ⟨isNew, others⟩ := List.nodup_cons.mp nodup
      rw [List.lookup_cons, List.mem_cons]
      by_cases same : key = entry.1
      · subst same
        have absent : (entry.1, value) ∉ rest := fun held =>
          isNew (List.mem_map.mpr ⟨_, held, rfl⟩)
        simp [absent, Prod.ext_iff, eq_comm]
      · have different : (key == entry.1) = false := by simpa using same
        simp [different, ih others, Prod.ext_iff, same]

namespace NameTree

variable {tree : NameTree} {id home : LevelId} {var : VarId} {name : String}

/-! ## Claims of a level -/

/-- Every level has different variables and different names. -/
structure Sound (tree : NameTree) : Prop extends tree.Linked where
  /-- No variable has two names at a level. -/
  vars_nodup : ∀ id, ((tree.level id).claims.map Prod.fst).Nodup
  /-- No name has two variables at a level. -/
  names_nodup : ∀ id, ((tree.level id).claims.map Prod.snd).Nodup

theorem Sound.nameOf?_eq_some
    (sound : tree.Sound) :
    (tree.level id).nameOf? var = some name ↔ (var, name) ∈ (tree.level id).claims :=
  lookup_eq_some_iff_mem (sound.vars_nodup id)

theorem Sound.varOf?_eq_some
    (sound : tree.Sound) :
    (tree.level id).varOf? name = some var ↔ (var, name) ∈ (tree.level id).claims := by
  have nodup : (((tree.level id).claims.map Prod.swap).map Prod.fst).Nodup := by
    rw [List.map_map]
    exact sound.names_nodup id
  rw [Level.varOf?, lookup_eq_some_iff_mem nodup]
  simp

theorem Sound.addLevel
    (sound : tree.Sound)
    {parent : LevelId}
    (inside : parent < tree.levels.size)
    (isFunction : Bool) :
    (tree.addLevel parent isFunction).Sound := by
  refine ⟨sound.toLinked.addLevel inside, fun id => ?_, fun id => ?_⟩
  all_goals rw [level_addLevel]; split
  · exact List.nodup_nil
  · exact sound.vars_nodup id
  · exact List.nodup_nil
  · exact sound.names_nodup id

theorem Sound.claim
    (sound : tree.Sound)
    (inside : home < tree.levels.size)
    (newVar : (tree.level home).nameOf? var = none)
    (newName : (tree.level home).varOf? name = none) :
    (tree.claim home var name).Sound := by
  simp only [Option.eq_none_iff_forall_ne_some, Ne, sound.nameOf?_eq_some,
    sound.varOf?_eq_some] at newVar newName
  refine ⟨sound.toLinked.claim inside var name, fun id => ?_, fun id => ?_⟩
  all_goals rw [level_claim tree var name inside]; split
  · next same =>
      subst same
      refine List.nodup_cons.mpr ⟨?_, sound.vars_nodup id⟩
      simpa using newVar
  · exact sound.vars_nodup id
  · next same =>
      subst same
      refine List.nodup_cons.mpr ⟨?_, sound.names_nodup id⟩
      simpa using newName
  · exact sound.names_nodup id

/-! ## Claims along a chain -/

/-- No level from a given one to the root has a name for a variable. -/
def Lacks
    (tree : NameTree)
    (id : LevelId)
    (var : VarId) : Prop :=
  ∀ other ∈ (tree.level id).chain, (tree.level other).nameOf? var = none

/-- A name may be chosen: it is not reserved, does not begin like those of the stages, and no
level from a given one to the root holds it. -/
def IsOpen
    (tree : NameTree)
    (id : LevelId)
    (name : String) : Prop :=
  name ∉ tree.reserved ∧ isStageName name = false ∧
    ∀ other ∈ (tree.level id).chain, (tree.level other).varOf? name = none

instance : Decidable (tree.IsOpen id name) :=
  inferInstanceAs (Decidable (_ ∧ _ ∧ _))

theorem Sound.lacks_iff (sound : tree.Sound) :
    tree.Lacks id var ↔ ∀ name, (var, name) ∉ tree.visibleClaims id := by
  simp only [Lacks, Option.eq_none_iff_forall_ne_some, Ne, sound.nameOf?_eq_some,
    mem_visibleClaims, not_exists, not_and]
  exact ⟨fun lacks name other mem => lacks other mem name,
    fun lacks other mem name => lacks name other mem⟩

theorem Sound.hasVar_eq_false (sound : tree.Sound) :
    tree.hasVar id var = false ↔ tree.Lacks id var := by
  rw [sound.lacks_iff, ← Bool.not_eq_true, hasVar_iff, not_exists]

theorem Sound.isFree_iff_isOpen
    (sound : tree.Sound)
    (inside : id < tree.levels.size) :
    tree.isFree id name = true ↔ tree.IsOpen id name := by
  rw [sound.toLinked.isFree_iff inside, IsOpen]
  simp only [Option.eq_none_iff_forall_ne_some, Ne, sound.varOf?_eq_some, mem_visibleClaims,
    not_exists, not_and]
  exact and_congr_right fun _ => and_congr_right fun _ =>
    ⟨fun free other mem var => free var other mem,
      fun free var other mem => free other mem var⟩

variable {base : String}

/-- A candidate with a number begins like the names of the stages if the name does, or if it
is the word before the underscore. -/
theorem isStageName_candidate_succ
    (begins : isStageName base = true ∨ base = "gl")
    (index : Nat) :
    isStageName (candidate .readable base (index + 1)) = true := by
  rw [candidate_readable_succ, isStageName, List.isPrefixOf_iff_prefix, String.toList_append,
    String.toList_append]
  rcases begins with begins | rfl
  · rw [isStageName, List.isPrefixOf_iff_prefix] at begins
    exact (begins.trans (List.prefix_append _ _)).trans (List.prefix_append _ _)
  · exact List.prefix_append _ _

variable {index : Nat}

/-- Only a name itself can be free where its candidates begin like the names of the stages. -/
theorem Linked.plain_or_eq_zero
    (linked : tree.Linked)
    (inside : id < tree.levels.size)
    (isFree : tree.isFree id (candidate tree.naming base index) = true) :
    (∀ other, isStageName (candidate tree.naming base other) = false) ∨ index = 0 := by
  by_cases plain : tree.naming = .readable -> isStageName base = false ∧ base ≠ "gl"
  · exact .inl fun _ => isStageName_candidate plain
  · rw [Classical.not_imp, not_and_or, Bool.not_eq_false, not_not] at plain
    have noStage := ((linked.isFree_iff inside).mp isFree).2.1
    cases index with
    | zero => exact .inr rfl
    | succ index =>
        rw [plain.1, isStageName_candidate_succ plain.2] at noStage
        cases noStage

/-- A search finds a name as soon as some candidate is free. -/
theorem Linked.freeName?_of_isFree
    (linked : tree.Linked)
    (inside : id < tree.levels.size)
    (isFree : tree.isFree id (candidate tree.naming base index) = true) :
    tree.freeName? id base ≠ none := by
  rcases linked.plain_or_eq_zero inside isFree with plain | rfl
  · exact linked.freeName?_ne_none inside plain
  · intro failed
    rw [freeName?_eq_none failed 0 (Nat.zero_le _)] at isFree
    cases isFree

/-- Some candidate for the name of a variable may be chosen. -/
def Names
    (tree : NameTree)
    (arena : Arena)
    (id : LevelId)
    (var : VarId) : Prop :=
  ∃ index, tree.IsOpen id (candidate tree.naming (arena.name var) index)

/-- A level is the nearest function on the way to the root, or else the root. -/
def IsFunctionOf
    (tree : NameTree)
    (id home : LevelId) : Prop :=
  (∃ inside outside, (tree.level id).chain = inside ++ home :: outside ∧
      (tree.level home).isFunction = true ∧
      ∀ other ∈ inside, (tree.level other).isFunction = false) ∨
    home = root ∧ ∀ other ∈ (tree.level id).chain, (tree.level other).isFunction = false

theorem isFunctionOf_functionLevel
    (tree : NameTree)
    (id : LevelId) :
    tree.IsFunctionOf id (tree.functionLevel id) := by
  unfold functionLevel
  cases found : (tree.level id).chain.find? fun other => (tree.level other).isFunction with
  | none => exact .inr ⟨rfl, by simpa using found⟩
  | some home =>
      obtain ⟨isFunction, inside, outside, chain_eq, blocks⟩ :=
        List.find?_eq_some_iff_append.mp found
      exact .inl ⟨inside, outside, chain_eq, isFunction, by simpa using blocks⟩

/-- A level has a new name for a variable; all other answers, and the levels, are as before. -/
structure HasClaimed
    (before after : NameTree)
    (home : LevelId)
    (var : VarId)
    (name : String) : Prop where
  /-- The variable has the name at the level. -/
  nameOf?_eq : ∀ id other, (after.level id).nameOf? other =
    if id = home ∧ other = var then some name else (before.level id).nameOf? other
  /-- The name belongs to the variable at the level. -/
  varOf?_eq : ∀ id other, (after.level id).varOf? other =
    if id = home ∧ other = name then some var else (before.level id).varOf? other
  /-- Functions and blocks are nested as before. -/
  chain_eq : ∀ id, (after.level id).chain = (before.level id).chain ∧
    (after.level id).isFunction = (before.level id).isFunction
  /-- No level is added or lost. -/
  size_eq : after.levels.size = before.levels.size

theorem hasClaimed_claim
    (inside : home < tree.levels.size)
    (var : VarId)
    (name : String) :
    tree.HasClaimed (tree.claim home var name) home var name := by
  refine ⟨fun id other => ?_, fun id other => ?_, fun id => ?_, by simp⟩
  all_goals rw [level_claim tree var name inside]
  · by_cases here : id = home <;> by_cases same : other = var <;>
      simp [here, same, Level.nameOf?, List.lookup_cons, beq_eq_decide]
  · by_cases here : id = home <;> by_cases same : other = name <;>
      simp [here, same, Level.varOf?, List.lookup_cons, beq_eq_decide]
  · split <;> exact ⟨rfl, rfl⟩

/-- A variable gets the first candidate that may be chosen, claimed for its function. -/
def AssignsFirst
    (tree : NameTree)
    (arena : Arena)
    (id : LevelId)
    (var : VarId) : Prop :=
  ∃ index name home, name = candidate tree.naming (arena.name var) index ∧ tree.IsOpen id name ∧
    (∀ earlier < index, ¬tree.IsOpen id (candidate tree.naming (arena.name var) earlier)) ∧
    tree.IsFunctionOf id home ∧ tree.HasClaimed (tree.assign arena id var).1 home var name ∧
    ∀ other, (tree.assign arena id var).2.get other =
      if other = var then { arena.get var with name := name } else arena.get other

section

variable (sound : tree.Sound) (inside : id < tree.levels.size) (arena : Arena)
variable (lacks : tree.Lacks id var) (ends : tree.Names arena id var)
include sound inside lacks ends

theorem Sound.assign_of_lacks :
    ∃ index name, name = candidate tree.naming (arena.name var) index ∧ tree.IsOpen id name ∧
      (∀ earlier < index, ¬tree.IsOpen id (candidate tree.naming (arena.name var) earlier)) ∧
      tree.assign arena id var =
        (tree.claim (tree.functionLevel id) var name, arena.rename var name) := by
  obtain ⟨_, isOpen⟩ := ends
  have ends := sound.toLinked.freeName?_of_isFree inside
    ((sound.isFree_iff_isOpen inside).mpr isOpen)
  obtain ⟨name, found⟩ := Option.ne_none_iff_exists'.mp ends
  obtain ⟨index, _, name_eq, isFree, refused⟩ := first_of_freeName? found
  refine ⟨index, name, name_eq, (sound.isFree_iff_isOpen inside).mp isFree,
    fun earlier isEarlier => ?_, ?_⟩
  · rw [← sound.isFree_iff_isOpen inside, refused earlier isEarlier]
    exact Bool.false_ne_true
  · simp [assign, sound.hasVar_eq_false.mpr lacks, found]

theorem Sound.assignsFirst (inArena : var < arena.size) :
    tree.AssignsFirst arena id var := by
  obtain ⟨index, name, name_eq, isOpen, refused, assigned⟩ :=
    sound.assign_of_lacks inside arena lacks ends
  refine ⟨index, name, _, name_eq, isOpen, refused, tree.isFunctionOf_functionLevel id, ?_⟩
  rw [assigned]
  refine ⟨hasClaimed_claim (sound.functionLevel_lt inside) var name, fun other => ?_⟩
  rw [Arena.rename, Arena.get_modify]
  by_cases same : other = var
  · subst same
    simp [inArena]
  · simp [same, Ne.symm same]

end

section

variable (sound : tree.Sound) (arena : Arena)
include sound arena

/-- The name of a variable without one is claimed, unless another variable has it. -/
theorem Sound.preserve_of_lacks
    (lacks : tree.Lacks id var) :
    (∃ other ≠ var, ∃ level ∈ (tree.level id).chain,
        (tree.level level).varOf? (arena.name var) = some other ∧
          ∃ error, tree.preserve arena id var = .error error) ∨
      (∀ level ∈ (tree.level id).chain, (tree.level level).varOf? (arena.name var) = none) ∧
        tree.preserve arena id var = .ok (tree.claim id var (arena.name var)) := by
  have unnamed := sound.hasVar_eq_false.mpr lacks
  cases owned : tree.owner? id (arena.get var).name with
  | some other =>
      have visible := mem_of_owner? owned
      obtain ⟨level, onChain, held⟩ := mem_visibleClaims.mp visible
      refine .inl ⟨other, ?_, level, onChain, sound.varOf?_eq_some.mpr held, ?_⟩
      · rintro rfl
        exact sound.lacks_iff.mp lacks _ visible
      · simp [preserve, unnamed, owned]
  | none =>
      refine .inr ⟨fun level onChain => Option.eq_none_iff_forall_ne_some.mpr ?_, ?_⟩
      · intro other held
        have taken : tree.hasName id (arena.name var) = true := hasName_iff.mpr
          ⟨other, mem_visibleClaims.mpr ⟨level, onChain, sound.varOf?_eq_some.mp held⟩⟩
        rw [hasName, Arena.name, owned] at taken
        cases taken
      · simp [preserve, unnamed, owned, Arena.name]

theorem Sound.preserve_of_not_lacks (known : ¬tree.Lacks id var) :
    tree.preserve arena id var = .ok tree := by
  rw [← sound.hasVar_eq_false, Bool.not_eq_false] at known
  simp [preserve, known]

theorem Sound.assign_of_not_lacks (known : ¬tree.Lacks id var) :
    tree.assign arena id var = (tree, arena) := by
  rw [← sound.hasVar_eq_false, Bool.not_eq_false] at known
  simp [assign, known]

end

end NameTree

/-! ## Operations -/

/-- An operation on the names claimed so far. -/
inductive NameOp
  /-- A function or a block is opened. -/
  | addLevel (parent : LevelId) (isFunction : Bool)
  /-- A name is kept. -/
  | preserve (level : LevelId) (var : VarId)
  /-- A name is given. -/
  | assign (level : LevelId) (var : VarId)

namespace NameOp

open FinalNames (State)

variable {state before after : State}

/-- The names after an operation.  Nothing changes where a name cannot be kept. -/
def run (state : State) : NameOp -> State
  | addLevel parent isFunction => { state with tree := state.tree.addLevel parent isFunction }
  | preserve level var =>
      match state.tree.preserve state.arena level var with
      | .ok tree => { state with tree := tree }
      | .error _ => state
  | assign level var =>
      let (tree, arena) := state.tree.assign state.arena level var
      { tree := tree, arena := arena }

/-- An operation is on a level of the tree, and a search for a name ends. -/
def Applies (state : State) : NameOp -> Prop
  | addLevel level _ | preserve level _ => level < state.tree.levels.size
  | assign level var =>
      level < state.tree.levels.size ∧
        (state.tree.Lacks level var -> state.tree.Names state.arena level var)

/-- One operation is carried out. -/
def Step (before after : State) : Prop :=
  ∃ op : NameOp, op.Applies before ∧ op.run before = after

/-- What an operation does: it opens a level, claims a new name for a new variable, or changes
nothing. -/
theorem step_cases
    (sound : before.tree.Sound)
    (step : Step before after) :
    (∃ parent isFunction, parent < before.tree.levels.size ∧
        after.tree = before.tree.addLevel parent isFunction) ∨
      (∃ home var name, home < before.tree.levels.size ∧
        (before.tree.level home).nameOf? var = none ∧
        (before.tree.level home).varOf? name = none ∧
        after.tree = before.tree.claim home var name) ∨
      after.tree = before.tree := by
  obtain ⟨op, applies, rfl⟩ := step
  cases op with
  | addLevel parent isFunction => exact .inl ⟨parent, isFunction, applies, rfl⟩
  | preserve id var =>
      by_cases lacks : before.tree.Lacks id var
      · rcases sound.preserve_of_lacks before.arena lacks with
          ⟨_, _, _, _, _, _, failed⟩ | ⟨isNew, kept⟩
        · simp [run, failed]
        · have isSelf := sound.self_mem id applies
          exact .inr (.inl ⟨id, var, _, applies, lacks id isSelf, isNew id isSelf,
            by simp [run, kept]⟩)
      · simp [run, sound.preserve_of_not_lacks before.arena lacks]
  | assign id var =>
      by_cases lacks : before.tree.Lacks id var
      · obtain ⟨_, name, _, ⟨_, _, isNew⟩, _, assigned⟩ :=
          sound.assign_of_lacks applies.1 before.arena lacks (applies.2 lacks)
        have onChain := (sound.functionLevel_spec applies.1).1
        exact .inr (.inl ⟨_, var, name, sound.functionLevel_lt applies.1, lacks _ onChain,
          isNew _ onChain, by simp [run, assigned]⟩)
      · simp [run, sound.assign_of_not_lacks before.arena lacks]

theorem Step.sound
    (sound : before.tree.Sound)
    (step : Step before after) :
    after.tree.Sound := by
  rcases step_cases sound step with
    ⟨parent, isFunction, inside, tree_eq⟩ | ⟨home, var, name, inside, newVar, newName, tree_eq⟩ |
      tree_eq
  all_goals rw [tree_eq]
  · exact sound.addLevel inside isFunction
  · exact sound.claim inside newVar newName
  · exact sound

/-- Levels keep their claims. -/
def Extends (before after : NameTree) : Prop :=
  before.levels.size ≤ after.levels.size ∧
    ∀ id < before.levels.size, (before.level id).claims <:+ (after.level id).claims

theorem Step.extends
    (sound : before.tree.Sound)
    (step : Step before after) :
    Extends before.tree after.tree := by
  rcases step_cases sound step with
    ⟨parent, isFunction, _, tree_eq⟩ | ⟨home, var, name, inside, _, _, tree_eq⟩ | tree_eq
  all_goals rw [tree_eq]
  · exact ⟨by simp, fun id known => by simp [NameTree.level_addLevel_of_lt known]⟩
  · refine ⟨by simp, fun id known => ?_⟩
    rw [NameTree.level_claim _ var name inside]
    split <;> simp
  · exact ⟨Nat.le_refl _, fun _ _ => List.suffix_refl _⟩

/-- A run keeps the correspondence of names and variables, and every claim. -/
theorem sound_and_extends_of_run
    (sound : before.tree.Sound)
    (run : Relation.ReflTransGen Step before after) :
    after.tree.Sound ∧ Extends before.tree after.tree := by
  induction run with
  | refl => exact ⟨sound, Nat.le_refl _, fun _ _ => List.suffix_refl _⟩
  | tail _ step ih =>
      obtain ⟨middleSound, size_le, kept⟩ := ih
      obtain ⟨later_le, laterKept⟩ := step.extends middleSound
      exact ⟨step.sound middleSound, Nat.le_trans size_le later_le, fun id known =>
        (kept id known).trans (laterKept id (Nat.lt_of_lt_of_le known size_le))⟩

/-- Names and variables correspond after every run from a tree without claims. -/
theorem sound_of_run
    {naming : Naming}
    {builtins : List String}
    {arena : Arena}
    (run : Relation.ReflTransGen Step ⟨NameTree.ofBuiltins naming builtins, arena⟩ state) :
    state.tree.Sound := by
  have shaped : (NameTree.ofBuiltins naming builtins).Shaped := NameTree.shaped_ofClaims
  have claims_eq (id : LevelId) :
      ((NameTree.ofBuiltins naming builtins).level id).claims = [] := by
    cases id <;> rfl
  have start : (NameTree.ofBuiltins naming builtins).Sound :=
    ⟨shaped.toLinked, fun id => by simp [claims_eq], fun id => by simp [claims_eq]⟩
  exact (sound_and_extends_of_run start run).1

/-! ## Runs -/

/-- How a tree of names answers after any run. -/
structure KeepsClaims (state : State) : Prop where
  /-- At every level names and variables correspond. -/
  inverse : ∀ id var name, (state.tree.level id).nameOf? var = some name ↔
    (state.tree.level id).varOf? name = some var
  /-- No claim is withdrawn or changed later. -/
  kept : ∀ later, Relation.ReflTransGen Step state later ->
    ∀ id < state.tree.levels.size, ∀ var name,
      (state.tree.level id).nameOf? var = some name ->
        (later.tree.level id).nameOf? var = some name
  /-- A variable without a name gets the first candidate that may be chosen, for its
  function. -/
  assigned : ∀ id < state.tree.levels.size, ∀ var < state.arena.size,
    state.tree.Lacks id var -> state.tree.Names state.arena id var ->
      state.tree.AssignsFirst state.arena id var
  /-- A variable with a name stays as it is. -/
  claimed : ∀ id var, ¬state.tree.Lacks id var ->
    state.tree.preserve state.arena id var = .ok state.tree ∧
      state.tree.assign state.arena id var = (state.tree, state.arena)
  /-- The name of a variable without one cannot be kept exactly if another variable on the
  chain has it, and then nothing changes. -/
  refused : ∀ id var, state.tree.Lacks id var ->
    ((∃ error, state.tree.preserve state.arena id var = .error error) ↔
      ∃ other ≠ var, ∃ level ∈ (state.tree.level id).chain,
        (state.tree.level level).varOf? (state.arena.name var) = some other) ∧
    ∀ error, state.tree.preserve state.arena id var = .error error ->
      (preserve id var).run state = state
  /-- A name that is kept is claimed at the level. -/
  preserved : ∀ id < state.tree.levels.size, ∀ var tree, state.tree.Lacks id var ->
    state.tree.preserve state.arena id var = .ok tree ->
      state.tree.HasClaimed tree id var (state.arena.name var)
  /-- A new level has no claims and stands below its parent, and other levels stay. -/
  opened : ∀ parent isFunction id, ((addLevel parent isFunction).run state).tree.level id =
    if id = state.tree.levels.size then
      { isFunction := isFunction,
        chain := state.tree.levels.size :: (state.tree.level parent).chain }
    else state.tree.level id

/-- Names stay in correspondence with variables over every run of operations, in whatever way
names are chosen. -/
theorem run_keepsClaims
    (naming : Naming)
    (builtins : List String)
    (arena : Arena)
    (run : Relation.ReflTransGen Step ⟨NameTree.ofBuiltins naming builtins, arena⟩ state) :
    KeepsClaims state := by
  have sound := sound_of_run run
  constructor
  case inverse =>
    intro id var name
    rw [sound.nameOf?_eq_some, sound.varOf?_eq_some]
  case kept =>
    intro later onward id known var name named
    obtain ⟨laterSound, _, kept⟩ := sound_and_extends_of_run sound onward
    exact laterSound.nameOf?_eq_some.mpr ((kept id known).subset (sound.nameOf?_eq_some.mp named))
  case assigned =>
    exact fun id inside var inArena lacks ends =>
      sound.assignsFirst inside state.arena lacks ends inArena
  case claimed =>
    exact fun id var known => ⟨sound.preserve_of_not_lacks state.arena known,
      sound.assign_of_not_lacks state.arena known⟩
  case refused =>
    intro id var lacks
    refine ⟨?_, fun error failed => by simp [NameOp.run, failed]⟩
    rcases sound.preserve_of_lacks state.arena lacks with
      ⟨other, different, level, onChain, held, failed⟩ | ⟨isNew, kept⟩
    · exact iff_of_true failed ⟨other, different, level, onChain, held⟩
    · refine iff_of_false (by simp [kept]) ?_
      rintro ⟨other, _, level, onChain, held⟩
      simp [isNew level onChain] at held
  case preserved =>
    intro id inside var tree lacks kept
    rcases sound.preserve_of_lacks state.arena lacks with
      ⟨_, _, _, _, _, _, failed⟩ | ⟨_, claimed⟩
    · simp [failed] at kept
    · cases claimed.symm.trans kept
      exact NameTree.hasClaimed_claim inside var _
  case opened =>
    exact fun parent isFunction id => state.tree.level_addLevel parent id isFunction

/-- Two variables of one name in two blocks of a function, and a third whose name cannot be kept
in the second block. -/
theorem run_siblings_keepsClaims :
    ∃ start state : State,
      start = ⟨.ofBuiltins .readable [], ⟨#[{ name := "x" }, { name := "x" }, { name := "x_1" }]⟩⟩ ∧
      state = [addLevel 0 true, addLevel 1 false, addLevel 1 false, assign 2 0, assign 3 1,
        preserve 3 2].foldl NameOp.run start ∧
      (state.tree.level 1).claims = [(1, "x_1"), (0, "x")] ∧ (state.tree.level 3).claims = [] ∧
      state.arena.name 0 = "x" ∧ state.arena.name 1 = "x_1" ∧
      Relation.ReflTransGen Step start state ∧ KeepsClaims state := by
  refine ⟨_, _, rfl, rfl, by decide +kernel, by decide +kernel, by decide +kernel,
    by decide +kernel, ?_⟩
  refine (fun run => ⟨run, run_keepsClaims .readable [] _ run⟩) ?_
  refine .tail (.tail (.tail (.tail (.tail (.tail .refl ⟨addLevel 0 true, ?_, rfl⟩)
    ⟨addLevel 1 false, ?_, rfl⟩) ⟨addLevel 1 false, ?_, rfl⟩)
    ⟨assign 2 0, ⟨?_, fun _ => ⟨0, ?_⟩⟩, rfl⟩) ⟨assign 3 1, ⟨?_, fun _ => ⟨1, ?_⟩⟩, rfl⟩)
    ⟨preserve 3 2, ?_, rfl⟩
  all_goals first | decide +kernel | (unfold Applies; decide +kernel)

end NameOp
end ModularGlsl
