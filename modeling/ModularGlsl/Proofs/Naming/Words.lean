import ModularGlsl.Proofs.Build
import ModularGlsl.Proofs.Emission
import ModularGlsl.Proofs.Naming.Candidate

/-!
# Names that are words

The variables of a program whose declared names are identifiers have names that
begin with a letter or an underscore, from binding to naming and whatever
candidates are chosen.  The names of accessors begin so by themselves.
-/

namespace ModularGlsl

/-- Whether a name is an identifier of the language. -/
def isIdentifier (name : String) : Bool :=
  startsWord name && name.toList.all fun letter => letter.isAlphanum || letter == '_'

/-! ## Candidates -/

theorem startsWord_append
    {name : String}
    (starts : startsWord name = true)
    (rest : String) :
    startsWord (name ++ rest) = true := by
  obtain ⟨letter, found, isWord⟩ := (Option.any_eq_true _ _).mp starts
  rw [startsWord, String.toList_append, List.head?_append, found]
  exact isWord

/-- Short names begin with letters. -/
theorem startsWord_shortName (index : Nat) : startsWord (shortName index) = true := by
  have areLetters : (shortLetters.all fun letter => letter.isAlpha || letter == '_') = true := by
    decide
  have nonempty : shortNameFrom index index [] ≠ [] := by
    intro isEmpty
    have value := shortValue_shortNameFrom [] (Nat.le_refl index)
    rw [isEmpty] at value
    exact absurd value (Nat.succ_ne_zero index).symm
  obtain ⟨letter, rest, letters_eq⟩ := List.exists_cons_of_ne_nil nonempty
  have mem : letter ∈ shortNameFrom index index [] := letters_eq ▸ List.mem_cons_self
  rw [startsWord, shortName, String.toList_ofList, letters_eq]
  exact List.all_eq_true.mp areLetters letter
    (mem_shortLetters_of_mem_shortNameFrom (by simp) mem)

/-- The candidates of a name begin with letters if the name does. -/
theorem startsWord_candidate
    (naming : Naming)
    {name : String}
    (starts : startsWord name = true)
    (index : Nat) :
    startsWord (candidate naming name index) = true := by
  cases naming with
  | minify => exact startsWord_shortName index
  | readable =>
      unfold candidate
      dsimp only
      split
      · exact starts
      · exact startsWord_append (startsWord_append starts _) _

/-! ## Arenas -/

/-- All variables have names that begin with letters. -/
def Arena.NamesWords (arena : Arena) : Prop :=
  ∀ var < arena.size, startsWord (arena.name var) = true

section Arenas

variable {arena : Arena}

theorem Arena.NamesWords.alloc
    (words : arena.NamesWords)
    {record : Variable}
    (starts : startsWord record.name = true) :
    (arena.alloc record).NamesWords := by
  intro var inside
  rcases Nat.lt_or_eq_of_le (Nat.le_of_lt_succ (size_alloc arena record ▸ inside)) with old | rfl
  · rw [Arena.name, Arena.get_alloc_of_lt _ old]
    exact words var old
  · rw [Arena.name, Arena.get_alloc_size]
    exact starts

theorem Arena.NamesWords.retypes
    (words : arena.NamesWords)
    {after : Arena}
    (retypes : arena.Retypes after) :
    after.NamesWords := by
  intro var inside
  rw [retypes.name_eq var]
  exact words var (retypes.size_eq ▸ inside)

theorem namesWords_builtins (stage : Stage) : stage.arena.NamesWords := by
  intro var inside
  obtain ⟨builtin, mem, record_eq⟩ := Bundle.get_builtins stage inside
  have all : ∀ builtin ∈ Builtin.table stage, startsWord builtin.name = true := by
    cases stage <;> decide +kernel
  rw [Arena.name, record_eq]
  exact all builtin mem

end Arenas

/-! ## Steps of a build -/

namespace Binding

/-- Binding adds variables with the names that are declared. -/
theorem admits_namesWords (context : Context) :
    Admits context (fun name => startsWord name = true) fun before after =>
      before.arena.NamesWords -> after.arena.NamesWords where
  refl _ := id
  trans early late := late ∘ early
  fail _ _ _ _ := id
  frames _ _ := id
  declare _ _ _ _ _ _ := id
  alloc _ _ starts _ words := words.alloc starts
  publish _ _ := id

end Binding

/-- The names of accessors begin with letters. -/
theorem startsWord_request
    {kind : AccessorKind}
    {container : Ty}
    {span : Span}
    {request : Accessor.Request}
    (asked : Accessor.request kind container span = .ok request) :
    startsWord request.name = true := by
  have spelled (first second third fourth : String) :
      startsWord (kind.spelling ++ first ++ second ++ third ++ fourth) = true := by
    refine startsWord_append (startsWord_append (startsWord_append (startsWord_append ?_ _) _) _) _
    cases kind <;> decide
  unfold Accessor.request at asked
  split at asked
  · cases asked
    exact spelled _ _ _ _
  · cases asked
    exact spelled _ _ _ _
  · cases asked

theorem Liveness.State.Moves.namesWords
    {before after : State}
    (moves : before.Moves after)
    (words : before.arena.NamesWords) :
    after.arena.NamesWords := by
  induction moves with
  | refl => exact words
  | tail _ step ih =>
      cases step with
      | mark => exact ih
      | track => exact ih
      | obtain made =>
          obtain ⟨request, asked, ⟨_, rfl, _⟩ | ⟨_, rfl, _⟩⟩ := obtainFor_eq_ok made
          · exact ih
          · exact ih.alloc (startsWord_request asked)

namespace Bundle

/-- The names that a bundle and a library declare are identifiers. -/
def DeclaresIdentifiers
    (library : Library)
    (bundle : Bundle) : Prop :=
  ∀ module, module ∈ bundle.modules ∨ module ∈ library.modules ->
    ∀ name ∈ Stmt.declaredNamesOfBlock module.statements, isIdentifier name = true

/-- Before names are given, the variables of a program that declares identifiers have
names that begin with letters. -/
theorem IsFresh.namesWords
    {library : Library}
    {bundle placed named typed swept : Bundle}
    (fresh : IsFresh library bundle)
    (identifiers : DeclaresIdentifiers library bundle)
    (build : Swept library bundle placed named typed swept) :
    swept.arena.NamesWords := by
  obtain ⟨modules, rfl, origin⟩ := resolveDependencies_eq_ok build.placing
  obtain ⟨succeeded, rfl⟩ := resolveNames_eq_ok build.binding
  obtain ⟨arena, checked, rfl⟩ := evalTypes_eq_ok build.typing
  obtain ⟨_, state, run, rfl⟩ := resolveActivity_eq_ok build.sweeping
  obtain ⟨moves, _⟩ := Liveness.areBound_of_sweepModules _ run
  have retypes := Typing.KeepsArena.retypes checked
  refine moves.namesWords (Arena.NamesWords.retypes ?_ retypes)
  refine holds_bindModules (fun _ _ => Binding.admits_namesWords _)
    (fun module mem name isDeclared => ?_) ?_ succeeded
  · have isIdentifier := identifiers module (origin module mem) name isDeclared
    exact (Bool.and_eq_true_iff.mp isIdentifier).1
  · rw [fresh.arena_eq]
    exact namesWords_builtins bundle.stage

end Bundle
end ModularGlsl
