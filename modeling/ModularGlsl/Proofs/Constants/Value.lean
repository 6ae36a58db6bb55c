import ModularGlsl.Proofs.Naming.Candidate
import ModularGlsl.Proofs.Typing.Finalized

/-!
# Values of constants

An expression has a value in exact integer arithmetic if it is made of integers and of
constants that have values: the text that is written for a constant, or else the value of
its initial value.  A known integer among the types of an arena is the value of its
constant, provided that the texts for the constants that it depends on are their known
integers.  Therefore an index that passed the check falls within its container.
-/

namespace ModularGlsl

/-! ## Exact integer arithmetic -/

/-- The result of an operation on two integers, without a bound. -/
def BinaryOp.exact? : BinaryOp -> Int -> Int -> Option Int
  | .add, left, right => some (left + right)
  | .sub, left, right => some (left - right)
  | .mul, left, right => some (left * right)
  | _, _, _ => none

/-- The result of a sign in front of an integer, without a bound. -/
def UnaryOp.exact? : UnaryOp -> Int -> Option Int
  | .pos, operand => some operand
  | .neg, operand => some (-operand)
  | _, _ => none

/-- The variable that an expression names, also as a member of a package. -/
def Expr.named? : Expr -> Option VarId
  | .var ident => ident.var
  | .member _ _ packageMember _ => packageMember
  | _ => none

/-- The value of an expression, where a constant has the value that is written for it. -/
inductive Expr.Denotes (consts : List ConstDecl) : Expr -> Int -> Prop
  | int
      (value : Int)
      (span : Span) :
      Denotes consts (.int value span) value
  | injected
      {expr : Expr}
      {id : VarId}
      {decl : ConstDecl}
      {value : Int}
      (names : expr.named? = some id)
      (isConst : decl ∈ consts)
      (declares : decl.name.var = some id)
      (replaced : decl.injected = some (toString value)) :
      Denotes consts expr value
  | initial
      {expr init : Expr}
      {id : VarId}
      {decl : ConstDecl}
      {value : Int}
      (names : expr.named? = some id)
      (isConst : decl ∈ consts)
      (declares : decl.name.var = some id)
      (kept : decl.injected = none)
      (isInit : decl.init = some init)
      (denotes : Denotes consts init value) :
      Denotes consts expr value
  | paren
      {inner : Expr}
      {value : Int}
      (denotes : Denotes consts inner value)
      (span : Span) :
      Denotes consts (.paren inner span) value
  | unary
      {op : UnaryOp}
      {operand : Expr}
      {inner value : Int}
      (denotes : Denotes consts operand inner)
      (value_eq : op.exact? inner = some value)
      (span : Span) :
      Denotes consts (.unary op operand span) value
  | binary
      {op : BinaryOp}
      {left right : Expr}
      {first second value : Int}
      (isFirst : Denotes consts left first)
      (isSecond : Denotes consts right second)
      (value_eq : op.exact? first second = some value)
      (span : Span) :
      Denotes consts (.binary op left right span) value

/-- The value of an expression depends on a constant, directly or through the initial
value of another one. -/
inductive Expr.Needs (consts : List ConstDecl) : Expr -> ConstDecl -> Prop
  | read
      {expr : Expr}
      {id : VarId}
      {decl : ConstDecl}
      (isRead : id ∈ expr.reads)
      (isConst : decl ∈ consts)
      (declares : decl.name.var = some id) :
      Needs consts expr decl
  | through
      {expr init : Expr}
      {id : VarId}
      {decl other : ConstDecl}
      (isRead : id ∈ expr.reads)
      (isConst : decl ∈ consts)
      (declares : decl.name.var = some id)
      (isInit : decl.init = some init)
      (needs : Needs consts init other) :
      Needs consts expr other

variable {value : Int} {decl : ConstDecl} {consts : List ConstDecl} {expr part : Expr} {id : VarId}

namespace Expr

theorem mem_reads_of_named? (names : expr.named? = some id) :
    id ∈ expr.reads := by
  cases expr with
  | var ident =>
      rw [reads, Option.mem_toList]
      exact names
  | member object key packageMember span =>
      cases names
      exact List.mem_singleton_self id
  | _ => cases names

theorem Needs.mono
    (needs : part.Needs consts decl)
    (subset : part.reads ⊆ expr.reads) :
    expr.Needs consts decl := by
  cases needs with
  | read isRead isConst declares => exact .read (subset isRead) isConst declares
  | through isRead isConst declares isInit needs =>
      exact .through (subset isRead) isConst declares isInit needs

end Expr

/-! ## Known integers -/

namespace Ty

theorem exact?_of_fold?
    {op : BinaryOp}
    {left right : Int}
    (folded : fold? op left right = some value) :
    op.exact? left right = some value := by
  have isExact := (Option.filter_eq_some_iff.mp folded).1
  cases op <;> exact isExact

end Ty

/-- An expression whose value follows from the known integers of an arena. -/
inductive Expr.IsKnown (arena : Arena) : Expr -> Int -> Prop
  | int
      (value : Int)
      (span : Span) :
      IsKnown arena (.int value span) value
  | named
      {expr : Expr}
      {id : VarId}
      {value : Int}
      (names : expr.named? = some id)
      (found : (arena.get id).ty = some (.literal value)) :
      IsKnown arena expr value
  | paren
      {inner : Expr}
      {value : Int}
      (isKnown : IsKnown arena inner value)
      (span : Span) :
      IsKnown arena (.paren inner span) value
  | unary
      {op : UnaryOp}
      {operand : Expr}
      {inner value : Int}
      (isKnown : IsKnown arena operand inner)
      (value_eq : op.exact? inner = some value)
      (span : Span) :
      IsKnown arena (.unary op operand span) value
  | binary
      {op : BinaryOp}
      {left right : Expr}
      {first second value : Int}
      (isFirst : IsKnown arena left first)
      (isSecond : IsKnown arena right second)
      (value_eq : op.exact? first second = some value)
      (span : Span) :
      IsKnown arena (.binary op left right span) value

variable {arena : Arena}

/-- An expression of the type of a known integer has its value. -/
theorem Expr.isKnown_of_typeOf
    (regular : arena.IsRegular)
    (expr : Expr)
    {ty : Ty}
    (typed : expr.typeOf arena = .ok ty)
    (literal : ty.literal? = some value) :
    expr.IsKnown arena value := by
  have notValue {ty : Ty} (isValue : ty.IsValue) (value : Int) : ty.literal? ≠ some value := by
    simp [isValue.literal?_eq]
  replace typed := expr.typed_of_typeOf typed
  induction typed generalizing value with
  | int _ span =>
      cases literal
      exact .int _ span
  | paren _ inner => exact .paren (inner literal) _
  | float | bool => exact absurd literal (notValue (.scalar _) _)
  | var found =>
      obtain ⟨id, known, declares, isKnown, rfl⟩ := Ident.typeOf_eq_ok found
      have bare_eq := Ty.literal?_eq_some.mp literal
      rw [Ty.bare_locate, (regular id known isKnown).bare_eq] at bare_eq
      exact .named declares (bare_eq ▸ isKnown)
  | path found =>
      have bare_eq := Ty.literal?_eq_some.mp literal
      rw [(regular _ _ found).bare_eq] at bare_eq
      exact .named rfl (bare_eq ▸ found)
  | member objectTyped found =>
      have appears := Expr.appears_of_typeOf regular _ objectTyped.typeOf_eq
      exact absurd literal (notValue (appears.member found) _)
  | index containerTyped _ _ found | getIndex containerTyped _ _ found =>
      have appears := Expr.appears_of_typeOf regular _ containerTyped.typeOf_eq
      exact absurd literal (notValue (appears.index found).1 _)
  | call calleeTyped _ found =>
      have appears := Expr.appears_of_typeOf regular _ calleeTyped.typeOf_eq
      exact absurd literal (notValue (appears.call found) _)
  | binary _ _ found left right =>
      rcases Ty.isValue_or_of_binary found with
        isValue | ⟨first, second, _, isFirst, isSecond, folded, rfl⟩
      · exact absurd literal (notValue isValue _)
      · cases literal
        exact .binary (left isFirst) (right isSecond) (Ty.exact?_of_fold? folded) _
  | unary _ found operand =>
      rcases Ty.isValue_or_of_unary found with
        isValue | ⟨rfl, isPlain⟩ | ⟨inner, rfl, isInner, rfl⟩
      · exact absurd literal (notValue isValue _)
      · have bare_eq := Ty.literal?_eq_some.mp literal
        rw [Ty.bare_bare] at bare_eq
        have isInner := Ty.literal?_eq_some.mpr bare_eq
        have isPos := isPlain.resolve_right (by simp [isInner])
        subst isPos
        exact .unary (operand isInner) rfl _
      · cases literal
        exact .unary (operand isInner) rfl _

/-- An expression whose value follows from known integers has this value, provided that
those that it reads are values. -/
theorem Expr.IsKnown.denotes
    (isKnown : expr.IsKnown arena value)
    (areValues : ∀ id ∈ expr.reads, ∀ value, (arena.get id).ty = some (.literal value) ->
      ∀ named : Expr, named.named? = some id -> named.Denotes consts value) :
    expr.Denotes consts value := by
  induction isKnown with
  | int value span => exact .int value span
  | named names found => exact areValues _ (mem_reads_of_named? names) _ found _ names
  | paren _ span ih => exact .paren (ih areValues) span
  | unary _ value_eq span ih =>
      exact .unary (ih areValues) value_eq span
  | binary _ _ value_eq span inLeft inRight =>
      refine .binary (inLeft fun id isRead => areValues id ?_)
        (inRight fun id isRead => areValues id ?_) value_eq span
      · exact List.mem_append_left _ isRead
      · exact List.mem_append_right _ isRead

/-! ## Known integers are values -/

/-- Integers are written in different ways. -/
theorem intText_injective : Function.Injective (toString : Int -> String) := by
  have sign {first second : Nat} : first.repr ≠ "-" ++ second.repr := by
    intro same
    have digits := congrArg String.toList same
    rw [String.toList_append, Nat.repr_eq_ofList_toDigits, String.toList_ofList] at digits
    have isFirst : '-' ∈ Nat.toDigits 10 first := by
      rw [digits]
      exact List.mem_append_left _ (by decide)
    have isDigit := Nat.isDigit_of_mem_toDigits (by decide) (by decide) isFirst
    revert isDigit
    decide
  intro first second same
  match first, second with
  | .ofNat first, .ofNat second => exact congrArg Int.ofNat (toString_injective same)
  | .ofNat first, .negSucc second => exact absurd same sign
  | .negSucc first, .ofNat second => exact absurd same.symm sign
  | .negSucc first, .negSucc second =>
      have numbers : first + 1 = second + 1 :=
        toString_injective ((String.append_right_inj _).mp same)
      exact congrArg Int.negSucc (Nat.succ.inj numbers)

/-- The text in place of the initial value of a constant is its known integer. -/
def ConstDecl.KeepsValue
    (arena : Arena)
    (decl : ConstDecl) : Prop :=
  ∀ text ∈ decl.injected, ∀ id ∈ decl.name.var, ∀ value,
    (arena.get id).ty = some (.literal value) -> text = toString value

/-- The constants that the value of an expression depends on keep their known integers. -/
def Expr.IsKept
    (arena : Arena)
    (consts : List ConstDecl)
    (expr : Expr) : Prop :=
  ∀ decl, expr.Needs consts decl -> decl.KeepsValue arena

/-- The one value of an expression, provided that the constants that it depends on keep
their known integers. -/
def Expr.HasValue
    (arena : Arena)
    (consts : List ConstDecl)
    (expr : Expr)
    (value : Int) : Prop :=
  expr.IsKept arena consts -> ∀ found, expr.Denotes consts found ↔ found = value

theorem Expr.IsKept.mono
    (kept : expr.IsKept arena consts)
    (subset : part.reads ⊆ expr.reads) :
    part.IsKept arena consts :=
  fun decl needs => kept decl (needs.mono subset)

/-- The constants of an arena have types. -/
structure ConstDecl.AreTyped
    (arena : Arena)
    (consts : List ConstDecl) : Prop where
  /-- No integer inside a type is known. -/
  regular : arena.IsRegular
  /-- Only constants are known integers. -/
  isConst : ∀ id value, (arena.get id).ty = some (.literal value) ->
    some id ∈ ConstDecl.vars consts
  /-- Constants have types. -/
  hasType : ∀ decl ∈ consts, ∃ id declared, decl.HasType arena id declared

namespace ConstDecl.AreTyped

variable (typed : AreTyped arena consts)
include typed

section

variable (isConst : decl ∈ consts) (declares : decl.name.var = some id)
variable (found : (arena.get id).ty = some (.literal value))
include isConst declares found

/-- The initial value of a constant that is a known integer has the same type. -/
theorem typeOf_init :
    ∃ init ty, decl.init = some init ∧ init.typeOf arena = .ok ty ∧ ty.literal? = some value ∧
      ∀ other ∈ init.reads, other < id := by
  obtain ⟨own, declared, hasType⟩ := typed.hasType decl isConst
  cases declares.symm.trans hasType.var_eq
  have isValue := Typing.isValue_of_declaredType typed.regular hasType.declared_eq
  cases init_eq : decl.init with
  | none =>
      cases found.symm.trans (hasType.missing init_eq)
      cases isValue
  | some init =>
      obtain ⟨ty, known, ty_eq⟩ := hasType.initial init init_eq
      refine ⟨init, ty, rfl, known, ?_, hasType.below init init_eq⟩
      rw [found, Option.some.injEq] at ty_eq
      unfold Typing.constType at ty_eq
      split at ty_eq
      next literal =>
        cases ty_eq
        exact literal
      next =>
        subst ty_eq
        cases isValue

/-- The initial value of a constant that is a known integer is the same one. -/
theorem isKnown_init :
    ∃ init, decl.init = some init ∧ init.IsKnown arena value ∧
      ∀ other ∈ init.reads, other < id := by
  obtain ⟨init, ty, isInit, known, literal, below⟩ := typed.typeOf_init isConst declares found
  exact ⟨init, isInit, init.isKnown_of_typeOf typed.regular known literal, below⟩

end

/-- A known integer that an expression reads is the value of its variable. -/
theorem denotes_of_named?
    (id : VarId)
    {whole : Expr}
    (kept : whole.IsKept arena consts)
    (isRead : id ∈ whole.reads)
    (found : (arena.get id).ty = some (.literal value))
    (names : expr.named? = some id) :
    expr.Denotes consts value := by
  -- The initial value of a constant reads smaller numbers only.
  induction id using Nat.strong_induction_on generalizing whole value expr with
  | _ id ih =>
      obtain ⟨decl, mem, declares⟩ := List.mem_map.mp (typed.isConst id value found)
      cases injected_eq : decl.injected with
      | none =>
          obtain ⟨init, isInit, isKnown, below⟩ := typed.isKnown_init mem declares found
          have initKept : init.IsKept arena consts := fun other needs =>
            kept other (.through isRead mem declares isInit needs)
          refine .initial names mem declares injected_eq isInit
            (isKnown.denotes fun other isRead value found named isNamed => ?_)
          exact ih other (below other isRead) initKept isRead found isNamed
      | some text =>
          have text_eq := kept decl (.read isRead mem declares) text injected_eq id declares
            value found
          exact .injected names mem declares (text_eq ▸ injected_eq)

/-- The value of an expression that is a known integer is no other one. -/
theorem eq_of_denotes
    (kept : expr.IsKept arena consts)
    {found : Int}
    (denotes : expr.Denotes consts found)
    (isKnown : expr.IsKnown arena value) :
    found = value := by
  induction denotes generalizing value with
  | int own span =>
      cases isKnown with
      | int => rfl
      | named names => cases names
  | injected names isConst declares replaced =>
      cases isKnown with
      | named otherNames ty_eq =>
          cases names.symm.trans otherNames
          have needed := Expr.Needs.read (Expr.mem_reads_of_named? names) isConst declares
          exact intText_injective (kept _ needed _ replaced _ declares _ ty_eq)
      | _ => cases names
  | initial names isConst declares _ isInit _ ih =>
      cases isKnown with
      | named otherNames ty_eq =>
          cases names.symm.trans otherNames
          obtain ⟨init, same, initKnown, _⟩ := typed.isKnown_init isConst declares ty_eq
          cases isInit.symm.trans same
          have isRead := Expr.mem_reads_of_named? names
          refine ih (fun other needs => kept other ?_) initKnown
          exact .through isRead isConst declares isInit needs
      | _ => cases names
  | paren _ span ih =>
      cases isKnown with
      | named names => cases names
      | paren innerKnown => exact ih (kept.mono (List.Subset.refl _)) innerKnown
  | unary _ value_eq span ih =>
      cases isKnown with
      | named names => cases names
      | unary innerKnown other_eq =>
          cases ih (kept.mono (List.Subset.refl _)) innerKnown
          exact Option.some.inj (value_eq.symm.trans other_eq)
  | binary _ _ value_eq span inLeft inRight =>
      cases isKnown with
      | named names => cases names
      | binary isFirst isSecond other_eq =>
          cases inLeft (kept.mono (List.subset_append_left _ _)) isFirst
          cases inRight (kept.mono (List.subset_append_right _ _)) isSecond
          exact Option.some.inj (value_eq.symm.trans other_eq)

/-- A known integer is the value of its expression. -/
theorem hasValue_of_isKnown (isKnown : expr.IsKnown arena value) :
    expr.HasValue arena consts value := by
  intro kept found
  constructor
  · intro denotes
    exact typed.eq_of_denotes kept denotes isKnown
  · rintro rfl
    exact isKnown.denotes fun id isRead _ found _ names =>
      typed.denotes_of_named? id kept isRead found names

end ConstDecl.AreTyped

/-! ## Indices -/

mutual

/-- The constant indices in an expression, each with its container.  What stands before a
member of a package is not written. -/
def Expr.indices : Expr -> List (Expr × Expr)
  | .int _ _ | .float _ _ | .bool _ _ | .var _ | .member _ _ (some _) _ => []
  | .member object _ none _ => object.indices
  | .index container position _ =>
      (container, position) :: (container.indices ++ position.indices)
  | .getIndex container position _ _ => container.indices ++ position.indices
  | .call callee args _ => callee.indices ++ Expr.indicesOfAll args
  | .binary _ left right _ => left.indices ++ right.indices
  | .unary _ operand _ => operand.indices
  | .paren inner _ => inner.indices

/-- The constant indices in a list of expressions. -/
def Expr.indicesOfAll : List Expr -> List (Expr × Expr)
  | [] => []
  | expr :: rest => expr.indices ++ Expr.indicesOfAll rest

end

/-- A container has an element at an index. -/
def Expr.HasElement
    (arena : Arena)
    (container : Expr)
    (index : Int) : Prop :=
  ∃ ty length, container.typeOf arena = .ok ty ∧ ty.length? = some length ∧
    0 ≤ index ∧ index < length

section Indices

theorem Expr.mem_indicesOfAll
    {exprs : List Expr}
    {entry : Expr × Expr} :
    entry ∈ Expr.indicesOfAll exprs ↔ ∃ expr ∈ exprs, entry ∈ expr.indices := by
  induction exprs with
  | nil => simp [indicesOfAll]
  | cons expr rest ih => simp [indicesOfAll, ih]

/-- The constant indices in an expression that has a type are known, and their containers
have elements there. -/
theorem Expr.hasElement_of_mem_indices
    (regular : arena.IsRegular)
    (expr : Expr)
    {ty : Ty}
    (typed : expr.typeOf arena = .ok ty) :
    ∀ entry ∈ expr.indices, ∃ value, entry.1.HasElement arena value ∧
      entry.2.IsKnown arena value := by
  replace typed := expr.typed_of_typeOf typed
  induction typed with
  | int | float | bool | var | path => simp [Expr.indices]
  | member _ _ object => exact object
  | index containerTyped positionTyped known found container position =>
      have appears := Expr.appears_of_typeOf regular _ containerTyped.typeOf_eq
      obtain ⟨_, length, length_eq, isInside⟩ := appears.index found
      rw [Expr.indices, List.forall_mem_cons, List.forall_mem_append]
      exact ⟨⟨_, ⟨_, length, containerTyped.typeOf_eq, length_eq, isInside⟩,
        Expr.isKnown_of_typeOf regular _ positionTyped.typeOf_eq known⟩, container, position⟩
  | getIndex _ _ _ _ left right | binary _ _ _ left right =>
      exact List.forall_mem_append.mpr ⟨left, right⟩
  | call _ _ _ callee args =>
      refine List.forall_mem_append.mpr ⟨callee, fun entry isIndex => ?_⟩
      obtain ⟨argument, mem, isIndex⟩ := Expr.mem_indicesOfAll.mp isIndex
      exact args argument mem entry isIndex
  | unary _ _ operand => exact operand
  | paren _ inner => exact inner

end Indices

end ModularGlsl
