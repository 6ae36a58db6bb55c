import ModularGlsl.Proofs.Typing.Compatibility

/-!
# Compatibility is a congruence of typing

No rule of typing looks further than compatibility.  Where compatible operands take the
place of each other, an operation fails on both or succeeds on both, and then with
compatible results.  The value of a known integer and the place where a type was read
therefore never decide whether an operation is typed; only the range of a constant index
depends on a value.
-/

namespace ModularGlsl

/-! ## Replacement -/

/-- Two results of typing are in step: both are failures, or both are values that are
related. -/
inductive InStep
    {α : Type}
    (related : α -> α -> Prop) : Except TypingError α -> Except TypingError α -> Prop
  | ok
      {first second : α}
      (isRelated : related first second) :
      InStep related (.ok first) (.ok second)
  | error (first second : TypingError) : InStep related (.error first) (.error second)

theorem InStep.bind
    {α β : Type}
    {related : α -> α -> Prop}
    {relatedNext : β -> β -> Prop}
    {first second : Except TypingError α}
    {firstNext secondNext : α -> Except TypingError β}
    (early : InStep related first second)
    (late : ∀ value other, related value other ->
      InStep relatedNext (firstNext value) (secondNext other)) :
    InStep relatedNext (first >>= firstNext) (second >>= secondNext) := by
  cases early with
  | ok isRelated => exact late _ _ isRelated
  | error first second => exact .error first second

/-- Results that depend on one condition are in step. -/
theorem InStep.ite
    {α : Type}
    {related : α -> α -> Prop}
    {value other : α}
    (isRelated : related value other)
    (condition : Prop)
    [Decidable condition]
    (first second : TypingError) :
    InStep related (if condition then .ok value else .error first)
      (if condition then .ok other else .error second) := by
  split
  · exact .ok isRelated
  · exact .error first second

namespace Ty

theorem Holds.trans
    {outer middle inner : Ty}
    (early : outer.Holds middle)
    (late : middle.Holds inner) :
    outer.Holds inner := by
  induction early with
  | self => exact late
  | element _ length ih => exact .element (ih late) length
  | field mem _ ih => exact .field mem (ih late)
  | param isOwn mem _ ih =>
      exact .param isOwn mem (ih late)
  | result isOwn mem _ ih =>
      exact .result isOwn mem (ih late)
  | proto _ ih => exact .proto (ih late)
  | located _ span ih => exact .located (ih late) span

/-- The functions in a type have the origins of their numbers, and its structs the layouts
of their variables. -/
structure IsDetermined
    (origins : Nat -> Option VarId)
    (layouts : VarId -> Layout Ty)
    (ty : Ty) : Prop where
  /-- Functions have the origins of their numbers. -/
  numbered : ty.IsNumbered origins
  /-- Structs have the layouts of their variables. -/
  laidOut : ∀ layout, ty.Holds (.struct layout) -> layout = layouts layout.owner

/-- Two types that are compatible and determined, so that one may take the place of the
other. -/
structure Replaces
    (origins : Nat -> Option VarId)
    (layouts : VarId -> Layout Ty)
    (first second : Ty) : Prop where
  /-- The types are compatible. -/
  accepts : first.accepts second = true
  /-- The first type is determined. -/
  isFirst : first.IsDetermined origins layouts
  /-- The second type is determined. -/
  isSecond : second.IsDetermined origins layouts

variable {origins : Nat -> Option VarId} {layouts : VarId -> Layout Ty} {span otherSpan : Span}

section Replacement

variable {first second third : Ty}

section

variable (determined : first.IsDetermined origins layouts)
include determined

theorem IsDetermined.of_holds (holds : first.Holds second) :
    second.IsDetermined origins layouts where
  numbered callable inside := determined.numbered callable (holds.trans inside)
  laidOut layout inside := determined.laidOut layout (holds.trans inside)

/-- A type without its attributions. -/
theorem IsDetermined.bare :
    first.bare.IsDetermined origins layouts :=
  determined.of_holds (Holds.of_bare (.self _))

theorem IsDetermined.located
    (span : Span) :
    (first.located span).IsDetermined origins layouts := by
  constructor
  · intro callable holds
    cases holds with
    | located holds => exact determined.numbered callable holds
  · intro layout holds
    cases holds with
    | located holds => exact determined.laidOut layout holds

theorem Replaces.refl :
    first.Replaces origins layouts first :=
  ⟨accepts_refl first, determined, determined⟩

end

/-- Optional types may take their own places. -/
theorem Replaces.refl_option
    {found : Option Ty}
    (determined : ∀ ty ∈ found, ty.IsDetermined origins layouts) :
    Option.Rel (Replaces origins layouts) found found := by
  cases found with
  | none => exact .none
  | some ty => exact .some (.refl (determined ty rfl))

/-- Checks of types that take the place of each other are in step. -/
theorem Replaces.check_inStep
    {expected expectedOther got gotOther : Ty}
    (expectedSame : expected.Replaces origins layouts expectedOther)
    (gotSame : got.Replaces origins layouts gotOther) :
    InStep Eq (expected.check got span) (expectedOther.check gotOther otherSpan) := by
  unfold check
  rw [accepts_congr expectedSame.isFirst.numbered expectedSame.isSecond.numbered
    gotSame.isFirst.numbered gotSame.isSecond.numbered expectedSame.accepts gotSame.accepts]
  exact .ite rfl _ _ _

/-- Compatible types have the same shape. -/
theorem shape?_eq_of_accepts (accepted : first.accepts second = true) :
    first.shape? = second.shape? := by
  have compatible := accepts_iff_compatible.mp accepted
  unfold shape?
  generalize first.bare = form at compatible ⊢
  generalize second.bare = otherForm at compatible ⊢
  cases compatible <;> rfl

/-- Compatible types are scalars of the same kind. -/
theorem scalarKind?_eq_of_accepts (accepted : first.accepts second = true) :
    first.scalarKind? = second.scalarKind? := by
  rw [scalarKind?, scalarKind?, shape?_eq_of_accepts accepted]

/-- Numbers hold no function and no struct. -/
theorem isDetermined_of_shape?
    (ty : Ty)
    (isSimple : ty.shape?.isSome = true) :
    ty.IsDetermined origins layouts := by
  cases ty with
  | scalar _ | literal _ | vector _ _ =>
      constructor
      all_goals
        intro _ holds
        cases holds
  | located ty span => exact (isDetermined_of_shape? ty isSimple).located span
  | _ => cases isSimple

/-- Numbers that are compatible with a third one may take the place of each other. -/
theorem replaces_of_shape?
    (isSimple : third.shape?.isSome = true)
    (early : first.accepts third = true)
    (late : second.accepts third = true) :
    first.Replaces origins layouts second := by
  have isFirst : first.IsDetermined origins layouts :=
    isDetermined_of_shape? first (by rwa [shape?_eq_of_accepts early])
  have isSecond : second.IsDetermined origins layouts :=
    isDetermined_of_shape? second (by rwa [shape?_eq_of_accepts late])
  have isThird : third.IsDetermined origins layouts := isDetermined_of_shape? third isSimple
  exact ⟨accepts_trans isFirst.numbered isThird.numbered isSecond.numbered early
    (accepts_symm late), isFirst, isSecond⟩

end Replacement

/-! ## Operators -/

section Operators

variable {left leftOther right rightOther operand other : Ty}

/-- A known integer has the shape of an integer. -/
theorem shape?_of_literal?
    {value : Int}
    (known : operand.literal? = some value) :
    operand.shape? = some (.int, 1) := by
  rw [shape?, literal?_eq_some.mp known]

/-- The type of an arithmetic operation by the shapes of its operands, where no integer is
known. -/
def plainArithmetic?
    (op : BinaryOp)
    (left right : Option (ScalarKind × Nat)) : Option Ty := do
  let (kind, leftArity) ← left
  let (rightKind, rightArity) ← right
  if kind ≠ rightKind ∨ kind = .bool ∨ (op = .div ∧ kind ≠ .float) then
    none
  else
    ofShapes? kind leftArity rightArity

/-- The type of an operation by the shapes of its operands is a number. -/
theorem isSome_shape?_of_ofShapes?
    {kind : ScalarKind}
    {leftArity rightArity : Nat}
    {result : Ty}
    (found : ofShapes? kind leftArity rightArity = some result) :
    result.shape?.isSome = true := by
  unfold ofShapes? at found
  split at found
  · cases found
    split <;> rfl
  · cases found

/-- An arithmetic operation succeeds by the shapes of its operands alone, and known
integers change its type to a compatible one. -/
theorem arithmetic?_rel_plainArithmetic?
    (op : BinaryOp)
    (left right : Ty) :
    Option.Rel (fun first second => first.accepts second = true ∧ second.shape?.isSome = true)
      (arithmetic? op left right) (plainArithmetic? op left.shape? right.shape?) := by
  have plain {kind : ScalarKind} {leftArity rightArity : Nat} :
      Option.Rel (fun first second => first.accepts second = true ∧ second.shape?.isSome = true)
        (ofShapes? kind leftArity rightArity) (ofShapes? kind leftArity rightArity) := by
    cases found : ofShapes? kind leftArity rightArity with
    | none => exact .none
    | some result => exact .some ⟨accepts_refl result, isSome_shape?_of_ofShapes? found⟩
  unfold arithmetic? plainArithmetic?
  cases leftShape : left.shape? with
  | none => exact .none
  | some leftForm =>
      cases rightShape : right.shape? with
      | none => exact .none
      | some rightForm =>
          dsimp only [bind, Option.bind]
          split
          · exact .none
          · split
            next isFirst isSecond =>
              split
              next value _ =>
                -- Both operands are single integers.
                rw [shape?_of_literal? isFirst] at leftShape
                rw [shape?_of_literal? isSecond] at rightShape
                cases leftShape
                cases rightShape
                exact .some ⟨rfl, rfl⟩
              next => exact plain
            next => exact plain

/-- Arithmetic operations on operands of the same shapes have results that may take the
place of each other. -/
theorem arithmetic?_rel
    (leftSame : left.shape? = leftOther.shape?)
    (rightSame : right.shape? = rightOther.shape?)
    (op : BinaryOp) :
    Option.Rel (Replaces origins layouts)
      (arithmetic? op left right) (arithmetic? op leftOther rightOther) := by
  have early := arithmetic?_rel_plainArithmetic? op left right
  have late := arithmetic?_rel_plainArithmetic? op leftOther rightOther
  rw [leftSame, rightSame] at early
  generalize plainArithmetic? op leftOther.shape? rightOther.shape? = plain at early late
  generalize arithmetic? op left right = first at early ⊢
  generalize arithmetic? op leftOther rightOther = second at late ⊢
  cases early with
  | none =>
      cases late
      exact .none
  | some isEarly =>
      cases late with
      | some isLate => exact .some (replaces_of_shape? isEarly.2 isEarly.1 isLate.1)

/-- Truth values may take the place of each other. -/
theorem replaces_bool : bool.Replaces origins layouts bool :=
  .refl (isDetermined_of_shape? bool rfl)

theorem binary_inStep
    (leftSame : left.Replaces origins layouts leftOther)
    (rightSame : right.Replaces origins layouts rightOther)
    (op : BinaryOp) :
    InStep (Replaces origins layouts)
      (binary op left right span) (binary op leftOther rightOther otherSpan) := by
  have leftKind := scalarKind?_eq_of_accepts leftSame.accepts
  have rightKind := scalarKind?_eq_of_accepts rightSame.accepts
  have results : Option.Rel (Replaces origins layouts)
      (arithmetic? op left right) (arithmetic? op leftOther rightOther) :=
    arithmetic?_rel (shape?_eq_of_accepts leftSame.accepts)
      (shape?_eq_of_accepts rightSame.accepts) op
  cases op with
  | and | or | xor =>
      have same : (left.isBool && right.isBool) = (leftOther.isBool && rightOther.isBool) := by
        rw [isBool, isBool, isBool, isBool, leftKind, rightKind]
      unfold binary
      rw [same]
      exact .ite replaces_bool _ _ _
  | less | lessEqual | greater | greaterEqual =>
      have same : left.isOrdered right = leftOther.isOrdered rightOther := by
        rw [isOrdered, isOrdered, leftKind, rightKind]
      unfold binary
      rw [same]
      exact .ite replaces_bool _ _ _
  | equal | notEqual =>
      exact (leftSame.check_inStep rightSame).bind fun _ _ _ => .ok replaces_bool
  | add | sub | mul | div =>
      unfold binary
      generalize arithmetic? _ left right = result at results ⊢
      generalize arithmetic? _ leftOther rightOther = otherResult at results ⊢
      cases results with
      | none => exact .error _ _
      | some same => exact .ok same

/-- A sign in front of a number yields a compatible type. -/
theorem signed_accepts
    (op : UnaryOp)
    (operand : Ty) :
    (operand.signed op).accepts operand = true := by
  unfold signed
  split
  next value known =>
    rw [← accepts_bare, literal?_eq_some.mp known]
    split <;> rfl
  next => rw [bare_accepts, accepts_refl]

theorem unary_inStep
    (same : operand.Replaces origins layouts other)
    (op : UnaryOp) :
    InStep (Replaces origins layouts)
      (unary op operand span) (unary op other otherSpan) := by
  have shape_eq := shape?_eq_of_accepts same.accepts
  have signs
      {shape : ScalarKind × Nat}
      (known : other.shape? = some shape)
      (op : UnaryOp) :
      (operand.signed op).Replaces origins layouts (other.signed op) := by
    have isSimple : other.shape?.isSome = true := by rw [known, Option.isSome_some]
    have isOperand : operand.shape?.isSome = true := by rwa [shape_eq]
    have early : (operand.signed op).Replaces origins layouts other :=
      replaces_of_shape? isOperand (signed_accepts op operand) (accepts_symm same.accepts)
    exact replaces_of_shape? isSimple early.accepts (signed_accepts op other)
  cases op with
  | not =>
      have isBool_eq : operand.isBool = other.isBool := by
        rw [isBool, isBool, scalarKind?_eq_of_accepts same.accepts]
      unfold unary
      rw [isBool_eq]
      exact .ite replaces_bool _ _ _
  | neg | pos =>
      unfold unary
      dsimp only
      rw [shape_eq]
      split
      next known =>
        split
        · exact .error _ _
        · exact .ok (signs known _)
      next => exact .error _ _

/-- Increments and decrements are in step. -/
theorem update_inStep
    (same : operand.Replaces origins layouts other)
    (op : UpdateOp) :
    InStep Eq (update op operand span) (update op other otherSpan) := by
  have isInt_eq : operand.isInt = other.isInt := by
    rw [isInt, isInt, scalarKind?_eq_of_accepts same.accepts]
  unfold update
  rw [isInt_eq]
  exact .ite rfl _ _ _

end Operators

/-! ## Members and elements -/

section Access

variable {object objectOther value valueOther : Ty}

theorem member_inStep
    (same : object.Replaces origins layouts objectOther)
    (key : String) :
    InStep (Replaces origins layouts)
      (object.member key span) (objectOther.member key otherSpan) := by
  have compatible := accepts_iff_compatible.mp same.accepts
  have isFirst := same.isFirst.bare
  have isSecond := same.isSecond.bare
  unfold member
  generalize object.bare = form at compatible isFirst ⊢
  generalize objectOther.bare = otherForm at compatible isSecond ⊢
  cases compatible with
  | vector kind arity =>
      dsimp only
      split
      next length _ => exact .ok (.refl (isDetermined_of_shape? _ (by split <;> rfl)))
      next => exact .error _ _
  | @struct layout layoutOther owner_eq =>
      have layout_eq : layout = layoutOther := by
        rw [isFirst.laidOut _ (.self _), isSecond.laidOut _ (.self _), owner_eq]
      subst layout_eq
      dsimp only
      split
      next field found =>
        have mem : field ∈ layout.fields := List.mem_of_find?_eq_some found
        exact .ok (.refl (isFirst.of_holds (.field mem (.self _))))
      next => exact .error _ _
  | scalar | literals | forget | know | array | function | sampler | descriptor =>
      exact .error _ _

theorem repeatsComponent_eq_of_accepts
    (accepted : object.accepts objectOther = true)
    (key : String) :
    object.repeatsComponent key = objectOther.repeatsComponent key := by
  have compatible := accepts_iff_compatible.mp accepted
  unfold repeatsComponent
  generalize object.bare = form at compatible ⊢
  generalize objectOther.bare = otherForm at compatible ⊢
  cases compatible <;> rfl

section

variable (same : object.Replaces origins layouts objectOther)
include same

theorem setMember_inStep
    (valueSame : value.Replaces origins layouts valueOther)
    (key : String) :
    InStep Eq (object.setMember key value span)
      (objectOther.setMember key valueOther otherSpan) := by
  refine (member_inStep same key).bind fun target targetOther targetSame => ?_
  rw [repeatsComponent_eq_of_accepts same.accepts]
  split
  · exact .error _ _
  · exact targetSame.check_inStep valueSame

/-- Containers have equally many elements, which may take the place of each other. -/
theorem elements?_rel :
    Option.Rel (fun first second => first.1.Replaces origins layouts second.1 ∧
      first.2 = second.2) object.elements? objectOther.elements? := by
  have compatible := accepts_iff_compatible.mp same.accepts
  have isFirst := same.isFirst.bare
  have isSecond := same.isSecond.bare
  unfold elements?
  generalize object.bare = form at compatible isFirst ⊢
  generalize objectOther.bare = otherForm at compatible isSecond ⊢
  cases compatible with
  | vector kind arity => exact .some ⟨.refl (isDetermined_of_shape? _ rfl), rfl⟩
  | array elements length =>
      have isElement := isFirst.of_holds (.element (.self _) length)
      have isOtherElement := isSecond.of_holds (.element (.self _) length)
      exact .some ⟨⟨accepts_iff_compatible.mpr elements, isElement, isOtherElement⟩, rfl⟩
  | scalar | literals | forget | know | struct | function | sampler | descriptor => exact .none

/-- Reads of an element are in step. -/
theorem index_inStep
    (position : Int) :
    InStep (Replaces origins layouts)
      (object.index position span) (objectOther.index position otherSpan) := by
  have elements := elements?_rel same
  unfold index
  generalize object.elements? = found at elements ⊢
  generalize objectOther.elements? = otherFound at elements ⊢
  cases elements with
  | none => exact .error _ _
  | @some first second isRelated =>
      obtain ⟨elementSame, length_eq⟩ := isRelated
      dsimp only at elementSame length_eq ⊢
      rw [length_eq]
      exact .ite elementSame _ _ _

/-- Stores to an element are in step. -/
theorem setIndex_inStep
    (valueSame : value.Replaces origins layouts valueOther)
    (position : Int) :
    InStep Eq (object.setIndex position value span)
      (objectOther.setIndex position valueOther otherSpan) :=
  (index_inStep same position).bind fun _ _ elementSame =>
    elementSame.check_inStep valueSame

end

end Access

/-! ## Calls -/

section Calls

/-- Components of an argument are counted in step. -/
theorem expectShape_inStep
    {argument other : Ty}
    (same : argument.Replaces origins layouts other) :
    InStep Eq (argument.expectShape span) (other.expectShape otherSpan) := by
  unfold expectShape
  rw [shape?_eq_of_accepts same.accepts]
  split
  next => exact .ok rfl
  next => exact .error _ _

variable {args others : List Ty} (same : List.Forall₂ (Replaces origins layouts) args others)
include same

theorem checkAll_inStep
    {expecteds : List Ty}
    (determined : ∀ expected ∈ expecteds, expected.IsDetermined origins layouts) :
    InStep Eq (checkAll span expecteds args) (checkAll otherSpan expecteds others) := by
  induction same generalizing expecteds with
  | nil => cases expecteds <;> exact .ok rfl
  | cons gotSame _ ih =>
      cases expecteds with
      | nil => exact .ok rfl
      | cons expected expecteds =>
          rw [List.forall_mem_cons] at determined
          exact ((Replaces.refl determined.1).check_inStep gotSame).bind
            fun _ _ _ => ih determined.2

theorem applySignature_inStep
    {signature : Signature Ty}
    (params : ∀ param ∈ signature.params, param.IsDetermined origins layouts)
    (result : ∀ ty ∈ signature.result, ty.IsDetermined origins layouts) :
    InStep (Option.Rel (Replaces origins layouts))
      (applySignature signature args span) (applySignature signature others otherSpan) := by
  unfold applySignature
  rw [same.length_eq]
  split
  · exact .error _ _
  · exact (checkAll_inStep same params).bind
      fun _ _ _ => .ok (Replaces.refl_option result)

/-- The first signature that takes the arguments takes those in their place. -/
theorem firstResult?_rel
    {signatures : List (Signature Ty)}
    (params : ∀ signature ∈ signatures, ∀ param ∈ signature.params,
      param.IsDetermined origins layouts)
    (result : ∀ signature ∈ signatures, ∀ ty ∈ signature.result,
      ty.IsDetermined origins layouts) :
    Option.Rel (Option.Rel (Replaces origins layouts))
      (firstResult? args span signatures) (firstResult? others otherSpan signatures) := by
  induction signatures with
  | nil => exact .none
  | cons signature signatures ih =>
      rw [List.forall_mem_cons] at params result
      have head : InStep _ (applySignature signature args span)
          (applySignature signature others otherSpan) :=
        applySignature_inStep same params.1 result.1
      unfold firstResult?
      generalize applySignature signature args span = early at head ⊢
      generalize applySignature signature others otherSpan = late at head ⊢
      cases head with
      | ok isRelated => exact .some isRelated
      | error => exact ih params.2 result.2

theorem applyFunction_inStep
    {callable : FunctionType Ty}
    (determined : (Ty.function callable).IsDetermined origins layouts) :
    InStep (Option.Rel (Replaces origins layouts))
      (applyFunction callable args span) (applyFunction callable others otherSpan) := by
  have params : ∀ signature ∈ callable.overloads, ∀ param ∈ signature.params,
      param.IsDetermined origins layouts :=
    fun signature isOwn param mem => determined.of_holds (.param isOwn mem (.self _))
  have result : ∀ signature ∈ callable.overloads, ∀ ty ∈ signature.result,
      ty.IsDetermined origins layouts :=
    fun signature isOwn ty mem => determined.of_holds (.result isOwn mem (.self _))
  unfold applyFunction
  generalize callable.overloads = signatures at params result ⊢
  split
  next signature =>
    rw [List.forall_mem_singleton] at params result
    exact applySignature_inStep same params result
  next =>
    have found : Option.Rel _ (firstResult? args span signatures)
        (firstResult? others otherSpan signatures) := firstResult?_rel same params result
    generalize firstResult? args span signatures = early at found ⊢
    generalize firstResult? others otherSpan signatures = late at found ⊢
    cases found with
    | none => exact .error _ _
    | some isRelated => exact .ok isRelated

theorem componentCount_inStep :
    InStep Eq (componentCount span args) (componentCount otherSpan others) := by
  induction same with
  | nil => exact .ok rfl
  | cons argumentSame _ ih =>
      refine (expectShape_inStep argumentSame).bind fun shape _ shape_eq => ?_
      subst shape_eq
      refine ih.bind fun count _ count_eq => ?_
      subst count_eq
      exact .ok rfl

theorem construct_inStep
    {proto : Ty}
    (determined : proto.IsDetermined origins layouts) :
    InStep (Replaces origins layouts)
      (construct proto args span) (construct proto others otherSpan) := by
  cases proto with
  | scalar kind =>
      match same with
      | .nil => exact .error _ _
      | .cons argumentSame .nil =>
          exact (expectShape_inStep argumentSame).bind
            fun _ _ _ => .ok (.refl determined)
      | .cons _ (.cons _ _) => exact .error _ _
  | vector kind arity =>
      refine (componentCount_inStep same).bind fun components _ components_eq => ?_
      subst components_eq
      dsimp only
      rw [same.length_eq]
      split
      · exact .error _ _
      · exact .ok (.refl determined)
  | struct layout =>
      have fields : ∀ expected ∈ layout.fields.map (·.ty),
          expected.IsDetermined origins layouts := by
        rw [List.forall_mem_map]
        exact fun field mem => determined.of_holds (.field mem (.self _))
      unfold construct
      dsimp only
      rw [same.length_eq]
      split
      · exact .error _ _
      · exact (checkAll_inStep same fields).bind
          fun _ _ _ => .ok (.refl determined)
  | literal | array | function | sampler | descriptor | located => exact .error _ _

theorem call_inStep
    {callee : Ty}
    (determined : callee.IsDetermined origins layouts) :
    InStep (Option.Rel (Replaces origins layouts))
      (callee.call args span) (callee.call others otherSpan) := by
  have isBare := determined.bare
  unfold call
  generalize callee.bare = form at isBare ⊢
  cases form with
  | function callable => exact applyFunction_inStep same isBare
  | descriptor proto =>
      have isProto := isBare.of_holds (.proto (.self proto))
      exact (construct_inStep same isProto).bind
        fun _ _ built => .ok (.some built)
  | scalar | literal | vector | array | struct | sampler | located => exact .error _ _

end Calls

/-! ## The congruence -/

/-- Compatibility is an equivalence that operations respect, among types whose functions
and structs are determined. -/
structure IsCongruence
    (origins : Nat -> Option VarId)
    (layouts : VarId -> Layout Ty) : Prop where
  /-- Checks succeed on compatible types, with any span. -/
  check : ∀ (expected got : Ty) (span : Span),
    expected.check got span = .ok () ↔ expected.accepts got = true
  /-- Compatibility is reflexive. -/
  refl : ∀ ty : Ty, ty.accepts ty = true
  /-- Compatibility is symmetric. -/
  symm : ∀ first second : Ty, first.accepts second = second.accepts first
  /-- Compatibility is transitive. -/
  trans : ∀ first second third : Ty,
    first.IsNumbered origins -> second.IsNumbered origins -> third.IsNumbered origins ->
    first.accepts second = true -> second.accepts third = true -> first.accepts third = true
  /-- Compatibility does not depend on attributions at any depth. -/
  places : ∀ first firstOther second secondOther : Ty,
    DifferInPlaces first firstOther -> DifferInPlaces second secondOther ->
    first.accepts second = firstOther.accepts secondOther
  /-- An integer may be known or not. -/
  known : ∀ value, (literal value).Replaces origins layouts int
  /-- A type may be attributed or not. -/
  attributed : ∀ (ty : Ty) (span : Span), ty.IsDetermined origins layouts ->
    (ty.located span).Replaces origins layouts ty
  /-- Binary operations respect compatibility. -/
  binary : ∀ op left leftOther right rightOther span otherSpan,
    left.Replaces origins layouts leftOther -> right.Replaces origins layouts rightOther ->
    InStep (Replaces origins layouts)
      (binary op left right span) (binary op leftOther rightOther otherSpan)
  /-- Unary operations respect compatibility. -/
  unary : ∀ op operand other span otherSpan, operand.Replaces origins layouts other ->
    InStep (Replaces origins layouts) (unary op operand span) (unary op other otherSpan)
  /-- Increments and decrements respect compatibility. -/
  update : ∀ op target other span otherSpan, target.Replaces origins layouts other ->
    InStep Eq (update op target span) (update op other otherSpan)
  /-- Calls respect compatibility of the arguments. -/
  call : ∀ callee args others span otherSpan, callee.IsDetermined origins layouts ->
    List.Forall₂ (Replaces origins layouts) args others ->
    InStep (Option.Rel (Replaces origins layouts))
      (call callee args span) (call callee others otherSpan)
  /-- Reads of members respect compatibility. -/
  member : ∀ object other key span otherSpan, object.Replaces origins layouts other ->
    InStep (Replaces origins layouts) (member object key span) (member other key otherSpan)
  /-- Stores to members respect compatibility. -/
  setMember : ∀ object other key value valueOther span otherSpan,
    object.Replaces origins layouts other -> value.Replaces origins layouts valueOther ->
    InStep Eq (setMember object key value span) (setMember other key valueOther otherSpan)
  /-- Reads of elements respect compatibility. -/
  index : ∀ container other position span otherSpan,
    container.Replaces origins layouts other ->
    InStep (Replaces origins layouts)
      (index container position span) (index other position otherSpan)
  /-- Stores to elements respect compatibility. -/
  setIndex : ∀ container other position value valueOther span otherSpan,
    container.Replaces origins layouts other -> value.Replaces origins layouts valueOther ->
    InStep Eq
      (setIndex container position value span) (setIndex other position valueOther otherSpan)

/-- Whatever variables declare the functions and structs of a program, compatibility is a
congruence of its typing: whether an operation is typed depends on its operands up to
compatibility only. -/
theorem isCongruence
    (origins : Nat -> Option VarId)
    (layouts : VarId -> Layout Ty) :
    IsCongruence origins layouts where
  check _ _ _ := check_eq_ok_iff
  refl := accepts_refl
  symm := accepts_comm
  trans _ _ _ isFirst isSecond isThird := accepts_trans isFirst isSecond isThird
  places _ _ _ _ firstSame secondSame := firstSame.accepts_eq secondSame
  known _ := replaces_of_shape? (show int.shape?.isSome = true from rfl) rfl rfl
  attributed ty span determined := ⟨accepts_refl ty, determined.located span, determined⟩
  binary op _ _ _ _ _ _ leftSame rightSame := binary_inStep leftSame rightSame op
  unary op _ _ _ _ same := unary_inStep same op
  update op _ _ _ _ same := update_inStep same op
  call _ _ _ _ _ determined same := call_inStep same determined
  member _ _ key _ _ same := member_inStep same key
  setMember _ _ key _ _ _ _ same valueSame := setMember_inStep same valueSame key
  index _ _ position _ _ same := index_inStep same position
  setIndex _ _ position _ _ _ _ same valueSame := setIndex_inStep same valueSame position

end Ty

namespace Sample

/-- A struct of the variable 40. -/
def lampLayout : Layout Ty :=
  ⟨40, "Lamp", [⟨"level", .int, {}⟩, ⟨"tint", .vector .float 3, {}⟩]⟩

theorem isDetermined_lampLayout :
    (Ty.struct lampLayout).IsDetermined (fun _ => none) (fun _ => lampLayout) := by
  have parts {part : Ty} (holds : (Ty.struct lampLayout).Holds part) :
      part = .struct lampLayout ∨ part = .int ∨ part = .vector .float 3 := by
    cases holds with
    | self => exact .inl rfl
    | field mem inside =>
        simp only [lampLayout, List.mem_cons, List.not_mem_nil, or_false] at mem
        rcases mem with rfl | rfl
        · cases inside
          exact .inr (.inl rfl)
        · cases inside
          exact .inr (.inr rfl)
  constructor
  · intro callable holds
    rcases parts holds with equal | equal | equal <;> cases equal
  · intro layout holds
    rcases parts holds with equal | equal | equal <;> cases equal
    rfl

end Sample

/-- A known integer is stored to a field of a lamp that was read somewhere, as an integer
is to that of a lamp, while a truth value is not. -/
theorem Ty.setMember_lamp_inStep :
    (Ty.struct Sample.lampLayout).IsDetermined (fun _ => none) (fun _ => Sample.lampLayout) ∧
      setMember (.located (.struct Sample.lampLayout) ⟨0, 4, 2, 1⟩) "level" (.literal 3) {} =
        .ok () ∧
      InStep Eq
        (setMember (.located (.struct Sample.lampLayout) ⟨0, 4, 2, 1⟩) "level" (.literal 3) {})
        (setMember (.struct Sample.lampLayout) "level" .int ⟨0, 5, 1, 1⟩) ∧
      setMember (.struct Sample.lampLayout) "level" .bool ⟨0, 5, 1, 1⟩ ≠ .ok () := by
  have congruence := isCongruence (fun _ => none) fun _ => Sample.lampLayout
  refine ⟨Sample.isDetermined_lampLayout, rfl, ?_, by rintro ⟨⟩⟩
  exact congruence.setMember _ _ _ _ _ _ _
    (congruence.attributed _ _ Sample.isDetermined_lampLayout) (congruence.known 3)

end ModularGlsl
