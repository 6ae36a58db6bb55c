import ModularGlsl.Proofs.Binding.Contents
import ModularGlsl.Proofs.Constants
import ModularGlsl.Proofs.Typing.Visits

/-!
# Constant indices are in range

While a program is typed, sums, differences and products of known integers are folded as
long as they fit into a word.  Whatever becomes known in this way is the value of its
expression in exact arithmetic, which follows the initial values of constants through
imports and packages.  Since an index is checked against its container, every constant
index of a typed program has an exact value that is in range.
-/

namespace ModularGlsl

/-! ## Known integers are words -/

/-- The integers that an expression is written with are words. -/
def Expr.IntegersFit (whole : Expr) : Prop :=
  ∀ value span, whole.Contains (.int value span) -> FitsWord value

/-- So are those that a part of it is written with. -/
theorem Expr.IntegersFit.of_contains
    {whole part : Expr}
    (fit : whole.IntegersFit)
    (contains : whole.Contains part) :
    part.IntegersFit :=
  fun value span inside => fit value span (contains.trans inside)

variable {value : Int} {span : Span}

namespace Ty

variable {result : Ty}

/-- A known integer that a binary operation yields is a word. -/
theorem fitsWord_of_binary
    {op : BinaryOp}
    {left right : Ty}
    (typed : binary op left right span = .ok result)
    (literal : result.literal? = some value) :
    FitsWord value := by
  rcases isValue_or_of_binary typed with isValue | ⟨first, second, folding, _, _, folded, rfl⟩
  · rw [isValue.literal?_eq] at literal
    cases literal
  · cases literal
    have filtered := (Option.filter_eq_some_iff.mp folded).2
    exact of_decide_eq_true filtered

/-- A known integer that a unary operation yields is a word or the operand. -/
theorem fitsWord_or_of_unary
    {op : UnaryOp}
    {operand : Ty}
    (typed : unary op operand span = .ok result)
    (literal : result.literal? = some value) :
    FitsWord value ∨ op = .pos ∧ operand.literal? = some value := by
  have bare_eq : operand.bare.literal? = operand.literal? := by
    rw [literal?, literal?, bare_bare]
  unfold unary at typed
  cases op with
  | not =>
      dsimp only at typed
      split at typed
      · cases typed
        cases literal
      · cases typed
  | neg =>
      dsimp only at typed
      split at typed
      · split at typed
        · cases typed
        · cases typed
          unfold signed at literal
          split at literal
          next =>
            split at literal
            next fits =>
              cases literal
              exact .inl fits
            next => cases literal
          next isPlain =>
            rw [bare_eq] at literal
            exact (isPlain value rfl literal).elim
      · cases typed
  | pos =>
      dsimp only at typed
      split at typed
      · split at typed
        · cases typed
        · cases typed
          rw [signed, bare_eq] at literal
          · exact .inr ⟨rfl, literal⟩
          · simp
      · cases typed

end Ty

variable {expr : Expr}

/-- An expression that is a known integer is a word, if the integers that it is written
with and those that it reads are. -/
theorem Expr.fitsWord_of_typeOf
    {arena : Arena}
    (regular : arena.IsRegular)
    (fit : expr.IntegersFit)
    (areWords : ∀ id ∈ expr.reads, ∀ value, (arena.get id).ty = some (.literal value) ->
      FitsWord value)
    {ty : Ty}
    (typed : expr.typeOf arena = .ok ty)
    (literal : ty.literal? = some value) :
    FitsWord value := by
  have isKnown := expr.isKnown_of_typeOf regular typed literal
  replace typed := expr.typed_of_typeOf typed
  induction isKnown generalizing ty with
  | int value span => exact fit value span (.self _)
  | named names found => exact areWords _ (mem_reads_of_named? names) _ found
  | paren _ span ih =>
      cases typed with
      | paren inner =>
          exact ih (fit.of_contains (.inner (.self _) span)) areWords literal inner
  | unary _ value_eq span ih =>
      cases typed with
      | unary operand found =>
          rcases Ty.fitsWord_or_of_unary found literal with fits | ⟨rfl, isOperand⟩
          · exact fits
          · cases value_eq
            exact ih (fit.of_contains (.operand (.self _) _ span)) areWords
              isOperand operand
  | binary => cases typed with | binary _ _ found => exact Ty.fitsWord_of_binary found literal

variable {consts : List ConstDecl}

/-- The known integers of constants are words, if their initial values are written with
words. -/
theorem ConstDecl.AreTyped.fitsWord
    {arena : Arena}
    (typed : AreTyped arena consts)
    (initials : ∀ decl ∈ consts, ∀ init ∈ decl.init, init.IntegersFit)
    (id : VarId)
    (found : (arena.get id).ty = some (.literal value)) :
    FitsWord value := by
  -- The initial value of a constant reads smaller numbers only.
  induction id using Nat.strong_induction_on generalizing value with
  | _ id ih =>
      obtain ⟨decl, mem, declares⟩ := List.mem_map.mp (typed.isConst id value found)
      obtain ⟨init, ty, isInit, initTyped, literal, below⟩ :=
        typed.typeOf_init mem declares found
      exact init.fitsWord_of_typeOf typed.regular (initials decl mem init isInit)
        (fun other isRead _ found => ih other (below other isRead) found)
        initTyped literal

/-! ## Values and indices of a typed program -/

/-- An index stands among the indices of an expression with paths before the members of
packages. -/
theorem Expr.mem_indices_of_contains
    {whole container position : Expr}
    (paths : whole.HasPaths)
    (contains : whole.Contains (.index container position span)) :
    (container, position) ∈ whole.indices := by
  refine paths.ascend (motive := fun whole => (container, position) ∈ whole.indices) contains
    (fun isPath => isPath) List.mem_cons_self fun whole operand isOperand inOperand => ?_
  cases whole with
  | int | float | bool | var => cases isOperand
  | member _ _ packageMember =>
      cases packageMember with
      | some => cases isOperand
      | none => exact List.mem_singleton.mp isOperand ▸ inOperand
  | unary | paren => exact List.mem_singleton.mp isOperand ▸ inOperand
  | index | getIndex | binary =>
      rcases List.mem_pair.mp isOperand with rfl | rfl <;> simp [indices, inOperand]
  | call =>
      rcases List.mem_cons.mp isOperand with rfl | mem
      · exact List.mem_append_left _ inOperand
      · exact List.mem_append_right _ (mem_indicesOfAll.mpr ⟨operand, mem, inOperand⟩)

/-- What the value of an expression depends on is a constant. -/
theorem Expr.Needs.mem
    {decl : ConstDecl}
    (needs : expr.Needs consts decl) :
    decl ∈ consts := by
  induction needs with
  | read _ isConst => exact isConst
  | through _ _ _ _ _ ih => exact ih

/-- The one value that an expression has in exact arithmetic. -/
def Expr.HasExactValue
    (consts : List ConstDecl)
    (expr : Expr)
    (value : Int) : Prop :=
  ∀ found, expr.Denotes consts found ↔ found = value

namespace Bundle

/-- The constants of a bundle with their initial values. -/
def initials (bundle : Bundle) : List ConstDecl :=
  bundle.consts.map ConstDecl.uninjected

/-- The known integers and the constant indices of a program that was typed by way of some
arenas. -/
structure IsExact
    (arenas : List Arena)
    (typed : Bundle) : Prop where
  /-- The program is typed at the end. -/
  last_eq : arenas.getLast? = some typed.arena
  /-- An expression that is a known integer at any point has this value in exact
  arithmetic, and the value is a word. -/
  known : ∀ whole ∈ typed.exprs, ∀ expr, whole.Contains expr ->
    ∀ arena ∈ arenas, ∀ ty value, expr.typeOf arena = .ok ty -> ty.literal? = some value ->
      expr.HasExactValue typed.initials value ∧ FitsWord value
  /-- A constant index, read or stored to, has an exact value, and its container has an
  element there. -/
  index : ∀ whole ∈ typed.exprs, ∀ container position span,
    whole.Contains (.index container position span) ->
      ∃ value, position.HasExactValue typed.initials value ∧
        container.HasElement typed.arena value

section Typed

variable {library : Library} {bundle placed named typed : Bundle}

/-- The constants of a typed program with their initial values have types. -/
theorem IsFresh.areTyped_initials
    (fresh : IsFresh library bundle)
    (build : Typed library bundle placed named typed) :
    ConstDecl.AreTyped typed.arena typed.initials := by
  have areTyped : ConstDecl.AreTyped typed.arena typed.consts := by
    have suits := (fresh.isFormed_typed build).suits
    refine ⟨fun id ty found => (suits id ty found).appears, fun id value found => ?_,
      fun decl isConst => ?_⟩
    · obtain ⟨exported, isConst⟩ := (suits id _ found).exists_const
      exact (fresh.declared_typed build found).2 exported isConst
    obtain ⟨module, mem, isPart⟩ := mem_consts.mp isConst
    have settled := fresh.isSettled build module mem
    obtain ⟨⟨_, id, declared, _, hasType⟩, _⟩ := (Stmt.everyIn_iff_parts _).mp settled _ isPart
    exact ⟨id, declared, hasType⟩
  refine areTyped.of_uninjected ?_
  rw [initials, List.map_map]
  rfl

/-- The integers of a bound program are words if those of the modules that were read
are. -/
theorem IsFresh.integersFit_of_mem_exprs
    (fresh : IsFresh library bundle)
    (own : ∀ module ∈ bundle.modules, ∀ expr ∈ module.exprs, expr.IntegersFit)
    (others : ∀ module ∈ library.modules, ∀ expr ∈ module.exprs, expr.IntegersFit)
    (build : Named library bundle placed named)
    (mem : expr ∈ named.exprs) :
    expr.IntegersFit := by
  obtain ⟨module, isModule, source, isSource, same⟩ := fresh.exists_of_mem_exprs build mem
  intro value span contains
  have fits := isModule.elim (own module) (others module) source isSource
  exact fits value span (Expr.contains_int_of_unbound same contains)

/-- A known integer of a typed program is the exact value of its expression. -/
theorem hasExactValue_of_isKnown
    (areTyped : ConstDecl.AreTyped typed.arena typed.initials)
    (isKnown : expr.IsKnown typed.arena value) :
    expr.HasExactValue typed.initials value := by
  refine areTyped.hasValue_of_isKnown isKnown fun decl needs text isText => ?_
  obtain ⟨original, _, rfl⟩ := List.mem_map.mp needs.mem
  cases isText

/-- If a fresh program whose integers are words is typed, then its known integers are
exact, and its constant indices are in range. -/
theorem evalTypes_isExact
    (fresh : IsFresh library bundle)
    (own : ∀ module ∈ bundle.modules, ∀ expr ∈ module.exprs, expr.IntegersFit)
    (others : ∀ module ∈ library.modules, ∀ expr ∈ module.exprs, expr.IntegersFit)
    (placing : resolveDependencies library bundle = .ok () placed)
    (binding : resolveNames placed = .ok () named)
    (typing : evalTypes named = .ok () typed) :
    typed.IsExact (named.arena :: typingVisits named.modules named.arena) := by
  have areTyped := fresh.areTyped_initials ⟨⟨placing, binding⟩, typing⟩
  have exprs_eq : typed.exprs = named.exprs := by
    obtain ⟨_, _, rfl⟩ := evalTypes_eq_ok typing
    rfl
  have fit {expr : Expr} (mem : expr ∈ typed.exprs) : expr.IntegersFit :=
    fresh.integersFit_of_mem_exprs own others ⟨placing, binding⟩ (exprs_eq ▸ mem)
  have initialsFit : ∀ decl ∈ typed.initials, ∀ init ∈ decl.init, init.IntegersFit := by
    intro decl isConst init isInit
    obtain ⟨original, isOriginal, rfl⟩ := List.mem_map.mp isConst
    obtain ⟨module, mem, isPart⟩ := mem_consts.mp isOriginal
    have isExpr : init ∈ module.exprs :=
      List.mem_flatMap.mpr ⟨_, isPart, Option.mem_toList.mpr isInit⟩
    exact fit (List.mem_flatMap.mpr ⟨module, mem, isExpr⟩)
  refine ⟨?_, fun whole mem expr contains arena visited ty value exprTyped literal => ?_,
    fun whole mem container position span contains => ?_⟩
  · rw [List.getLast?_eq_some_getLast (List.cons_ne_nil _ _),
      (fresh.placed placing).getLast_visits binding typing]
  · have typedLast := (fresh.placed placing).typeOf_typed binding typing visited exprTyped
    have isKnown := expr.isKnown_of_typeOf areTyped.regular typedLast literal
    refine ⟨hasExactValue_of_isKnown areTyped isKnown, ?_⟩
    exact expr.fitsWord_of_typeOf areTyped.regular ((fit mem).of_contains contains)
      (fun id _ _ found => areTyped.fitsWord initialsFit id found) typedLast literal
  · have paths := fresh.hasPaths_of_mem_exprs ⟨placing, binding⟩ (exprs_eq ▸ mem)
    obtain ⟨module, isModule, isExpr⟩ := List.mem_flatMap.mp mem
    have settled := fresh.isSettled ⟨⟨placing, binding⟩, typing⟩ module isModule
    obtain ⟨ty, wholeTyped⟩ := (Stmt.EveryIn.of_mem_exprs settled whole isExpr).typed
    obtain ⟨value, hasElement, isKnown⟩ := whole.hasElement_of_mem_indices areTyped.regular
      wholeTyped _ (Expr.mem_indices_of_contains paths contains)
    exact ⟨value, hasExactValue_of_isKnown areTyped isKnown, hasElement⟩

end Typed

end Bundle

namespace Sample

/-- A module with an exported constant. -/
def sizes : Module :=
  { path := "/sizes"
    statements := [constant "N" (.int 2 {}) true] }

/-- A program with an array that it reads at a constant, which is computed from one of
another module, and that it stores to at an integer with two signs. -/
def shifted : Bundle :=
  (Bundle.empty .vertex .readable).append
    { path := "/main"
      statements :=
        [.importAll (name "sizes") "/sizes" {},
          constant "M"
            (.binary .sub
              (.paren (.binary .mul (.member (read "sizes") "N" none {}) (.int 2 {}) {}) {})
              (.int 1 {}) {})
            false,
          .var { ty := name "float", name := name "a", length := some 4, init := none, span := {} },
          main
            [.assign (.index (read "a") (.unary .neg (.unary .neg (.int 1 {}) {}) {}) {}) .assign
              (.index (read "a") (read "M") {}) {}]] }

theorem isFresh_shifted : Bundle.IsFresh ⟨[sizes]⟩ shifted :=
  ⟨rfl, by decide +kernel, by decide +kernel⟩

/-- The integers of the program are words. -/
theorem integersFit_shifted :
    ∀ module ∈ shifted.modules, ∀ expr ∈ module.exprs, expr.IntegersFit := by
  intro module mem expr isExpr value span contains
  rw [List.mem_singleton.mp mem] at isExpr
  simp only [Module.exprs, Module.parts, Stmt.partsOfBlock, Stmt.parts, Stmt.exprs, constant, main,
    List.nil_append, List.append_nil, List.flatMap_cons, List.flatMap_nil, List.cons_append,
    Option.toList_some, Option.toList_none, List.mem_cons, List.not_mem_nil, or_false] at isExpr
  rcases isExpr with rfl | rfl | rfl
  · cases contains with
    | left inside =>
        cases inside with
        | inner inside =>
            cases inside with
            | left inside =>
                cases inside with
                | object inside => cases inside
            | right inside =>
                cases inside
                decide
    | right inside =>
        cases inside
        decide
  · cases contains with
    | container inside => cases inside
    | position inside =>
        cases inside with
        | operand inside =>
            cases inside with
            | operand inside =>
                cases inside
                decide
  · cases contains with
    | container inside | position inside => cases inside

/-- So are those of the other module. -/
theorem integersFit_sizes : ∀ expr ∈ sizes.exprs, expr.IntegersFit := by
  intro expr isExpr value span contains
  cases List.mem_singleton.mp isExpr
  cases contains
  decide

end Sample

namespace Bundle

/-- A program whose constants come from two modules. -/
theorem evalTypes_shifted_isExact :
    ∃ placed named typed, resolveDependencies ⟨[Sample.sizes]⟩ Sample.shifted = .ok () placed ∧
      resolveNames placed = .ok () named ∧ evalTypes named = .ok () typed ∧
      typed.exprs.length = 4 ∧ (typed.arena.get 60).name = "M" ∧
      (typed.arena.get 60).ty.bind Ty.literal? = some 3 ∧
      typed.IsExact (named.arena :: typingVisits named.modules named.arena) := by
  have passed : passes (fun placed =>
      passes (fun named =>
        passes (fun typed =>
            decide (typed.exprs.length = 4) && decide ((typed.arena.get 60).name = "M") &&
              decide ((typed.arena.get 60).ty.bind Ty.literal? = some 3))
          (evalTypes named))
        (resolveNames placed))
      (resolveDependencies ⟨[Sample.sizes]⟩ Sample.shifted) = true := by
    decide +kernel
  obtain ⟨placed, placing, passed⟩ := exists_of_passes passed
  obtain ⟨named, binding, passed⟩ := exists_of_passes passed
  obtain ⟨typed, typing, passed⟩ := exists_of_passes passed
  simp only [Bool.and_eq_true, decide_eq_true_eq] at passed
  obtain ⟨⟨length_eq, name_eq⟩, known⟩ := passed
  exact ⟨placed, named, typed, placing, binding, typing, length_eq, name_eq, known,
    evalTypes_isExact Sample.isFresh_shifted Sample.integersFit_shifted
      (List.forall_mem_singleton.mpr Sample.integersFit_sizes) placing binding typing⟩

end Bundle

end ModularGlsl
