import ModularGlsl.Proofs.Typing.Rules

/-!
# Structs in types

A type refers to structs: those of its instances, of the fields of these, and of
the results of functions.  The structs in the type of an expression come from the
types of the variables that the expression reads, so they have smaller numbers
than whatever follows the declarations of these variables.
-/

namespace ModularGlsl

/-! ## Operations -/

variable {ty left right result : Ty} {span : Span} {op : BinaryOp}

namespace Ty

/-- What a binary operation may yield: a scalar, a vector, or a known integer from two known
ones. -/
inductive Yields
    (op : BinaryOp)
    (left right : Ty) : Ty -> Prop
  | scalar (kind : ScalarKind) : Yields op left right (.scalar kind)
  | vector
      (kind : ScalarKind)
      (arity : Nat)
      (many : right.scalarKind? = none) :
      Yields op left right (.vector kind arity)
  | literal
      {first second value : Int}
      (isFirst : left.literal? = some first)
      (isSecond : right.literal? = some second)
      (folded : fold? op first second = some value) :
      Yields op left right (.literal value)

/-- The type of an operation on numbers. -/
theorem yields_of_ofShapes
    {kind rightKind : ScalarKind}
    {leftArity rightArity : Nat}
    (shape : right.shape? = some (rightKind, rightArity))
    (typed : ofShapes? kind leftArity rightArity = some result) :
    Yields op left right result := by
  unfold ofShapes? at typed
  split at typed
  next same =>
    cases typed
    split
    next => exact .scalar kind
    next many =>
      refine .vector kind _ ?_
      rw [scalarKind?, shape]
      split
      next single =>
        cases single
        exact (many same).elim
      next => rfl
  next => cases typed

/-- The type of an arithmetic operation. -/
theorem yields_of_arithmetic (typed : arithmetic? op left right = some result) :
    Yields op left right result := by
  obtain ⟨_, _, typed⟩ := Option.bind_eq_some_iff.mp typed
  obtain ⟨_, shape, typed⟩ := Option.bind_eq_some_iff.mp typed
  dsimp only at typed
  split at typed
  · cases typed
  · split at typed
    next isFirst isSecond =>
      split at typed
      next folded =>
        cases typed
        exact .literal isFirst isSecond folded
      next => exact yields_of_ofShapes shape typed
    next => exact yields_of_ofShapes shape typed

/-- The type of a binary operation. -/
theorem yields_of_binary (typed : Ty.binary op left right span = .ok result) :
    Yields op left right result := by
  cases op with
  | and | or | xor | less | lessEqual | greater | greaterEqual =>
      unfold Ty.binary at typed
      dsimp only at typed
      split at typed
      · cases typed
        exact .scalar .bool
      · cases typed
  | equal | notEqual =>
      obtain ⟨_, _, typed⟩ := except_bind_eq_ok.mp typed
      cases typed
      exact .scalar .bool
  | add | sub | mul | div =>
      unfold Ty.binary at typed
      dsimp only at typed
      split at typed
      next found =>
        cases typed
        exact yields_of_arithmetic found
      next => cases typed

end Ty

/-! ## Structs in a type -/

/-- All structs that values of a type can hold have smaller numbers. -/
inductive Ty.StructsBelow (limit : VarId) : Ty -> Prop
  | scalar (kind : ScalarKind) : StructsBelow limit (.scalar kind)
  | literal (value : Int) : StructsBelow limit (.literal value)
  | vector (kind : ScalarKind) (arity : Nat) : StructsBelow limit (.vector kind arity)
  | sampler (kind : SamplerKind) : StructsBelow limit (.sampler kind)
  | array
      {element : Ty}
      (inElement : StructsBelow limit element)
      (length : Nat) :
      StructsBelow limit (.array element length)
  | struct
      {layout : Layout Ty}
      (own : layout.owner < limit)
      (inFields : ∀ field ∈ layout.fields, StructsBelow limit field.ty) :
      StructsBelow limit (.struct layout)
  | function
      {callable : FunctionType Ty}
      (inResults : ∀ signature ∈ callable.overloads, ∀ result ∈ signature.result,
        StructsBelow limit result) :
      StructsBelow limit (.function callable)
  | descriptor
      {proto : Ty}
      (inProto : StructsBelow limit proto) :
      StructsBelow limit (.descriptor proto)
  | located
      {ty : Ty}
      (inner : StructsBelow limit ty)
      (span : Span) :
      StructsBelow limit (.located ty span)

variable {limit : VarId}

namespace Ty.StructsBelow

theorem mono
    (below : ty.StructsBelow limit)
    {higher : VarId}
    (limit_le : limit ≤ higher) :
    ty.StructsBelow higher := by
  induction below with
  | scalar kind => exact .scalar kind
  | literal value => exact .literal value
  | vector kind arity => exact .vector kind arity
  | sampler kind => exact .sampler kind
  | array _ length ih => exact .array ih length
  | struct own _ ih =>
      exact .struct (Nat.lt_of_lt_of_le own limit_le) ih
  | function _ ih => exact .function ih
  | descriptor _ ih => exact .descriptor ih
  | located _ span ih => exact .located ih span

theorem bare (below : ty.StructsBelow limit) :
    ty.bare.StructsBelow limit := by
  induction below with
  | located _ _ ih => exact ih
  | scalar kind => exact .scalar kind
  | literal value => exact .literal value
  | vector kind arity => exact .vector kind arity
  | sampler kind => exact .sampler kind
  | array inElement length => exact .array inElement length
  | struct own inFields => exact .struct own inFields
  | function inResults => exact .function inResults
  | descriptor inProto => exact .descriptor inProto

theorem locate
    (below : ty.StructsBelow limit)
    (span : Span) :
    (ty.locate span).StructsBelow limit := by
  cases below with
  | located inner => exact .located inner span
  | scalar kind => exact .located (.scalar kind) span
  | literal value => exact .located (.literal value) span
  | vector kind arity => exact .located (.vector kind arity) span
  | sampler kind => exact .located (.sampler kind) span
  | array inElement length => exact .located (.array inElement length) span
  | struct own inFields => exact .located (.struct own inFields) span
  | function inResults => exact .located (.function inResults) span
  | descriptor inProto => exact .located (.descriptor inProto) span

theorem member
    {object : Ty}
    (below : object.StructsBelow limit)
    {key : String}
    (typed : object.member key span = .ok result) :
    result.StructsBelow limit := by
  have bareBelow := below.bare
  unfold Ty.member at typed
  split at typed
  next kind arity isVector =>
    split at typed
    · cases typed
      split
      · exact .scalar kind
      · exact .vector kind _
    · cases typed
  next layout isStruct =>
    rw [isStruct] at bareBelow
    split at typed
    next field isField =>
      cases typed
      cases bareBelow with
      | struct _ inFields => exact inFields field (List.mem_of_find?_eq_some isField)
    next => cases typed
  next => cases typed

theorem index
    {container : Ty}
    (below : container.StructsBelow limit)
    {position : Int}
    (typed : container.index position span = .ok result) :
    result.StructsBelow limit := by
  have bareBelow := below.bare
  unfold Ty.index Ty.elements? at typed
  split at typed
  next element length isIndexed =>
    split at typed
    · cases typed
      split at isIndexed
      next isArray =>
        cases isIndexed
        rw [isArray] at bareBelow
        cases bareBelow with
        | array inElement _ => exact inElement
      next kind arity isVector =>
        cases isIndexed
        exact .scalar kind
      next => cases isIndexed
    · cases typed
  next => cases typed

end Ty.StructsBelow

namespace Ty

variable {args : List Ty}

/-- The type of a constructed value is the one that it is built for. -/
theorem eq_of_construct
    {proto : Ty}
    (typed : proto.construct args span = .ok result) :
    result = proto := by
  unfold Ty.construct at typed
  split at typed
  next kind =>
    split at typed
    · obtain ⟨_, _, typed⟩ := except_bind_eq_ok.mp typed
      cases typed
      rfl
    · cases typed
  next kind arity =>
    obtain ⟨_, _, typed⟩ := except_bind_eq_ok.mp typed
    dsimp only at typed
    split at typed
    · cases typed
    · cases typed
      rfl
  next layout =>
    split at typed
    · cases typed
    · obtain ⟨_, _, typed⟩ := except_bind_eq_ok.mp typed
      cases typed
      rfl
  next => cases typed

/-- The result of a signature that takes the arguments. -/
theorem eq_of_applySignature
    {signature : Signature Ty}
    {result : Option Ty}
    (typed : applySignature signature args span = .ok result) :
    result = signature.result := by
  unfold applySignature at typed
  split at typed
  · cases typed
  · obtain ⟨_, _, typed⟩ := except_bind_eq_ok.mp typed
    cases typed
    rfl

/-- The result of the first signature that takes the arguments is one of their
results. -/
theorem mem_of_firstResult?
    {signatures : List (Signature Ty)}
    {result : Option Ty}
    (found : firstResult? args span signatures = some result) :
    ∃ signature ∈ signatures, result = signature.result := by
  induction signatures with
  | nil => cases found
  | cons signature rest ih =>
      rw [firstResult?] at found
      split at found
      next own applied =>
        cases found
        exact ⟨signature, List.mem_cons_self, eq_of_applySignature applied⟩
      next =>
        obtain ⟨other, mem, result_eq⟩ := ih found
        exact ⟨other, List.mem_cons_of_mem _ mem, result_eq⟩

theorem mem_of_applyFunction
    {callable : FunctionType Ty}
    {result : Option Ty}
    (typed : applyFunction callable args span = .ok result) :
    ∃ signature ∈ callable.overloads, result = signature.result := by
  unfold applyFunction at typed
  split at typed
  next signature only =>
    rw [only]
    exact ⟨signature, List.mem_cons_self, eq_of_applySignature typed⟩
  next =>
    split at typed
    next found =>
      cases typed
      exact mem_of_firstResult? found
    next => cases typed

namespace StructsBelow

/-- The type of the result of a call. -/
theorem call
    {callee : Ty}
    (below : callee.StructsBelow limit)
    (typed : callee.call args span = .ok (some result)) :
    result.StructsBelow limit := by
  have bareBelow := below.bare
  unfold Ty.call at typed
  split at typed
  next callable isFunction =>
    rw [isFunction] at bareBelow
    obtain ⟨signature, mem, result_eq⟩ := mem_of_applyFunction typed
    cases bareBelow with
    | function inResults => exact inResults signature mem result result_eq.symm
  next proto isDescriptor =>
    rw [isDescriptor] at bareBelow
    obtain ⟨built, constructed, typed⟩ := except_bind_eq_ok.mp typed
    cases typed
    rw [eq_of_construct constructed]
    cases bareBelow with
    | descriptor inProto => exact inProto
  next => cases typed

/-- The type of a binary operation. -/
theorem binary (typed : Ty.binary op left right span = .ok result) :
    result.StructsBelow limit := by
  cases yields_of_binary typed with
  | scalar kind => exact .scalar kind
  | vector kind arity _ => exact .vector kind arity
  | literal => exact .literal _

theorem unary
    {op : UnaryOp}
    {operand : Ty}
    (below : operand.StructsBelow limit)
    (typed : Ty.unary op operand span = .ok result) :
    result.StructsBelow limit := by
  unfold Ty.unary at typed
  split at typed
  · split at typed
    · cases typed
      exact .scalar .bool
    · cases typed
  all_goals
    split at typed
    · split at typed
      · cases typed
      · cases typed
        unfold Ty.signed
        split
        · split
          · exact .literal _
          · exact .scalar .int
        · exact below.bare
    · cases typed

end StructsBelow

end Ty

/-! ## Expressions -/

variable {arena : Arena}

theorem Expr.exists_ty_of_typeOf
    (expr : Expr)
    (typed : expr.typeOf arena = .ok ty) :
    ∀ id ∈ expr.reads, ∃ known, (arena.get id).ty = some known := by
  replace typed := expr.typed_of_typeOf typed
  induction typed with
  | int | float | bool => simp [Expr.reads]
  | var found =>
      obtain ⟨id, known, bound, found, _⟩ := Ident.typeOf_eq_ok found
      simpa [Expr.reads, bound] using ⟨known, found⟩
  | path found => simpa [Expr.reads] using ⟨_, found⟩
  | member _ _ object => exact object
  | index _ _ _ _ left right | getIndex _ _ _ _ left right | binary _ _ _ left right =>
      exact List.forall_mem_append.mpr ⟨left, right⟩
  | call _ _ _ callee args =>
      refine List.forall_mem_append.mpr ⟨callee, fun id isRead => ?_⟩
      obtain ⟨argument, mem, isRead⟩ := Expr.mem_readsOfAll.mp isRead
      exact args argument mem id isRead
  | unary _ _ operand => exact operand
  | paren _ inner => exact inner

/-- The variables that a list of expressions with types reads have types. -/
theorem Expr.exists_ty_of_typesOf
    (exprs : List Expr)
    {tys : List Ty}
    (typed : Expr.typesOf arena exprs = .ok tys) :
    ∀ id ∈ Expr.readsOfAll exprs, ∃ known, (arena.get id).ty = some known := by
  intro id isRead
  obtain ⟨expr, mem, isRead⟩ := Expr.mem_readsOfAll.mp isRead
  exact expr.exists_ty_of_typeOf ((Expr.of_typesOf typed).1 expr mem) id isRead

/-- The structs in the type of an expression come from the types of the variables
that it reads. -/
theorem Expr.structsBelow_of_typeOf
    (expr : Expr)
    (below : ∀ id ∈ expr.reads, ∀ known, (arena.get id).ty = some known ->
      known.StructsBelow limit)
    (typed : expr.typeOf arena = .ok ty) :
    ty.StructsBelow limit := by
  replace typed := expr.typed_of_typeOf typed
  induction typed with
  | int value => exact .literal value
  | float => exact .scalar .float
  | bool => exact .scalar .bool
  | var found =>
      obtain ⟨id, known, bound, isKnown, rfl⟩ := Ident.typeOf_eq_ok found
      exact (below id (by simp [Expr.reads, bound]) known isKnown).locate _
  | path found => exact below _ (by simp [Expr.reads]) _ found
  | member _ found object => exact (object below).member found
  | index _ _ _ found container _ | getIndex _ _ _ found container _ =>
      exact (container fun id mem => below id (List.mem_append_left _ mem)).index found
  | call _ _ found callee _ =>
      exact (callee fun id mem => below id (List.mem_append_left _ mem)).call found
  | binary _ _ found => exact .binary found
  | unary _ found operand => exact (operand below).unary found
  | paren _ inner => exact inner below

end ModularGlsl
