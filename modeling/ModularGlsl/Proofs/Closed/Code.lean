import ModularGlsl.Proofs.Closed.Tree

/-!
# Closed code

Live code reads variables that are written, and its dynamic indices are bound to
accessors that wait for structs declared before.  So a statement is closed wherever its
place provides what is visible there, and the accessors over the structs declared so far.
-/

namespace ModularGlsl

namespace Liveness

/-! ## Accessors -/

/-- The accessors over structs with smaller numbers are declared. -/
def Covers
    (pending : List Pending)
    (limit : VarId)
    (declared : List VarId) : Prop :=
  ∀ waiting ∈ pending, (∀ dep ∈ waiting.deps, dep < limit) -> waiting.var ∈ declared

variable {pending : List Pending} {limit : VarId} {declared : List VarId}

theorem Covers.append
    (covers : Covers pending limit declared)
    (more : List VarId) :
    Covers pending limit (more ++ declared) :=
  fun waiting mem below => List.mem_append_right _ (covers waiting mem below)

variable {span : Span}

theorem lt_of_mem_deps
    {kind : AccessorKind}
    {container : Ty}
    {request : Accessor.Request}
    (asked : Accessor.request kind container span = .ok request)
    (below : container.StructsBelow limit) :
    ∀ dep ∈ request.deps, dep < limit := by
  have bareBelow := below.bare
  unfold Accessor.request at asked
  split at asked
  next element length isArray =>
    cases asked
    rw [isArray] at bareBelow
    cases bareBelow with
    | array inElement _ =>
        have elementBelow := inElement.bare
        split
        next layout isStruct =>
          rw [isStruct] at elementBelow
          cases elementBelow with
          | struct own _ => simpa using own
        next => simp
  next =>
    cases asked
    simp
  next => cases asked

/-! ## Expressions -/

/-- A variable may be read: it is declared, and its type holds only structs with
smaller numbers. -/
structure IsReadable
    (arena : Arena)
    (declared : List VarId)
    (limit : VarId)
    (var : VarId) : Prop where
  /-- The variable exists. -/
  lt_size : var < arena.size
  /-- The variable is declared. -/
  isDeclared : var ∈ declared
  /-- The structs in its type have smaller numbers. -/
  below : ∀ ty, (arena.get var).ty = some ty -> ty.StructsBelow limit

/-- Reads and dynamic indices of live code: what is read is used, and the indices are bound
to accessors that wait. -/
structure Answers
    (usage : Usage)
    (pending : List Pending)
    (grown : Arena)
    (reads : VarId -> Prop)
    (calls : DynamicIndex -> Prop) : Prop where
  /-- What is read is used. -/
  isUsed : ∀ var, reads var -> usage.isUsed var = true
  /-- Dynamic indices are bound. -/
  isBound : ∀ call, calls call -> ∃ waiting ∈ pending, call.IsBoundTo grown waiting

variable {usage : Usage} {grown arena : Arena}

theorem Answers.mono
    {reads fewerReads : VarId -> Prop}
    {calls fewerCalls : DynamicIndex -> Prop}
    (answers : Answers usage pending grown reads calls)
    (isRead : ∀ var, fewerReads var -> reads var)
    (isCall : ∀ call, fewerCalls call -> calls call) :
    Answers usage pending grown fewerReads fewerCalls :=
  ⟨fun var own => answers.isUsed var (isRead var own),
    fun call own => answers.isBound call (isCall call own)⟩

variable {place : Place}

/-- The accessor of a container of readable variables is declared. -/
theorem isDeclared_of_isBoundTo
    (covers : Covers pending limit declared)
    (grows : arena.Grows grown)
    {call : DynamicIndex}
    (readable : ∀ var ∈ call.container.reads, IsReadable arena declared limit var)
    (isBound : ∃ waiting ∈ pending, call.IsBoundTo grown waiting) :
    ∃ var ∈ declared, call.accessor = some var := by
  obtain ⟨waiting, isWaiting, accessor_eq, _, ty, _, asks, _, deps_eq⟩ := isBound
  have below : ty.StructsBelow limit := by
    refine call.container.structsBelow_of_typeOf (fun id mem known found => ?_) asks.typed
    rw [grows.get_eq id (readable id mem).lt_size] at found
    exact (readable id mem).below known found
  refine ⟨waiting.var, covers waiting isWaiting ?_, accessor_eq⟩
  rw [deps_eq]
  exact lt_of_mem_deps asks.requested below

mutual

/-- A bound expression of readable variables is closed. -/
theorem isClosed_of_isReadable
    (covers : Covers pending limit declared)
    (grows : arena.Grows grown)
    (expr : Expr)
    (bound : expr.IsBound place)
    (readable : ∀ var ∈ expr.reads, IsReadable arena declared limit var)
    (isBound : ∀ call ∈ expr.dynamicIndices, ∃ waiting ∈ pending, call.IsBoundTo grown waiting) :
    expr.IsClosed declared := by
  match expr with
  | .int _ _ | .float _ _ | .bool _ _ => trivial
  | .var ident =>
      obtain ⟨var, _, var_eq⟩ := bound
      exact ⟨var, (readable var (by simp [Expr.reads, var_eq])).isDeclared, var_eq⟩
  | .member _ _ (some id) _ => exact (readable id (by simp [Expr.reads])).isDeclared
  | .member object _ none _ =>
      exact isClosed_of_isReadable covers grows object bound.1 readable isBound
  | .index left right _ | .binary _ left right _ =>
      rw [Expr.reads, List.forall_mem_append] at readable
      rw [Expr.dynamicIndices, List.forall_mem_append] at isBound
      exact ⟨isClosed_of_isReadable covers grows left bound.1 readable.1 isBound.1,
        isClosed_of_isReadable covers grows right bound.2 readable.2 isBound.2⟩
  | .getIndex container position _ _ =>
      rw [Expr.reads, List.forall_mem_append] at readable
      rw [Expr.dynamicIndices, List.forall_mem_cons, List.forall_mem_append] at isBound
      exact ⟨isDeclared_of_isBoundTo covers grows readable.1 isBound.1,
        isClosed_of_isReadable covers grows container bound.1 readable.1 isBound.2.1,
        isClosed_of_isReadable covers grows position bound.2 readable.2 isBound.2.2⟩
  | .call callee args _ =>
      rw [Expr.reads, List.forall_mem_append] at readable
      rw [Expr.dynamicIndices, List.forall_mem_append] at isBound
      exact ⟨isClosed_of_isReadable covers grows callee bound.1 readable.1 isBound.1,
        areClosed_of_isReadable covers grows args bound.2 readable.2 isBound.2⟩
  | .unary _ operand _ | .paren operand _ =>
      exact isClosed_of_isReadable covers grows operand bound readable isBound

/-- Bound expressions of readable variables are closed. -/
theorem areClosed_of_isReadable
    (covers : Covers pending limit declared)
    (grows : arena.Grows grown)
    (exprs : List Expr)
    (bound : Expr.AreBound place exprs)
    (readable : ∀ var ∈ Expr.readsOfAll exprs, IsReadable arena declared limit var)
    (isBound : ∀ call ∈ Expr.dynamicIndicesOfAll exprs,
      ∃ waiting ∈ pending, call.IsBoundTo grown waiting) :
    Expr.AreClosed declared exprs := by
  match exprs with
  | [] => trivial
  | expr :: rest =>
      rw [Expr.readsOfAll, List.forall_mem_append] at readable
      rw [Expr.dynamicIndicesOfAll, List.forall_mem_append] at isBound
      exact ⟨isClosed_of_isReadable covers grows expr bound.1 readable.1 isBound.1,
        areClosed_of_isReadable covers grows rest bound.2 readable.2 isBound.2⟩

end

/-! ## Places -/

/-- A place supplies what code there may mention: its written variables, and the
accessors over structs with smaller numbers. -/
structure Supplies
    (arena : Arena)
    (usage : Usage)
    (pending : List Pending)
    (limit : VarId)
    (place : Place)
    (declared : List VarId) : Prop where
  /-- What is visible has a number. -/
  inRange : place.InRange
  /-- Written variables are declared. -/
  provides : place.Provides arena usage declared
  /-- Accessors are declared. -/
  covers : Covers pending limit declared

/-- What does not change from place to place: the arena is well-formed, the sweep only adds
variables to it, and a number bounds those that code declares. -/
structure Setting
    (arena grown : Arena)
    (limit : VarId) : Prop where
  /-- Types are well-formed. -/
  formed : arena.IsFormed
  /-- Variables are only added. -/
  grows : arena.Grows grown
  /-- Declared variables exist. -/
  limit_le : limit ≤ arena.size

section Code

/-- A place after a statement supplies what it declares. -/
theorem Supplies.after
    {first last : Place}
    (supplies : Supplies arena usage pending limit first declared)
    {accessors : Accessor -> Prop}
    {stmt : Stmt}
    (bound : stmt.IsBound arena accessors first last) :
    Supplies arena usage pending limit last (stmt.writes usage false ++ declared) where
  inRange := bound.leads.inRange supplies.inRange
  provides := bound.provides supplies.provides fun decl same => by rw [same]; rfl
  covers := supplies.covers.append _

section

variable (supplies : Supplies arena usage pending limit place declared)
include supplies

/-- The start of a block supplies what the place before it does. -/
theorem Supplies.enter :
    Supplies arena usage pending limit place.enter declared :=
  ⟨supplies.inRange.enter, supplies.provides, supplies.covers⟩

/-- The place after a block supplies what the place before it does. -/
theorem Supplies.leave
    {inner : Place}
    (leads : place.enter.Leads inner) :
    Supplies arena usage pending limit (place.leave inner) declared :=
  ⟨leads.leave.inRange supplies.inRange, supplies.provides, supplies.covers⟩

/-- The start of the body of a function supplies its name and its parameters, too. -/
theorem Supplies.body
    {header : FunctionHeader}
    (declares : header.name.Declares arena place.next .function)
    {start : Place}
    (bound : Param.AreBound arena header.params place.declare.enter start) :
    Supplies arena usage pending limit start (header.writes ++ declared) := by
  have own : place.next ∈ header.name.var.toList := by simp [declares.var_eq]
  have provides := bound.provides (supplies.provides.declare fun _ => own)
  rw [← List.append_assoc] at provides
  have startRange := bound.leads.inRange (place.leads_declare.inRange supplies.inRange).enter
  exact ⟨startRange, provides, supplies.covers.append _⟩

theorem Supplies.isReadable
    (setting : Setting arena grown limit)
    (next_le : place.next ≤ limit)
    {var : VarId}
    (isVisible : var ∈ place.visible)
    (members_eq : (arena.get var).members = none)
    (used : usage.isUsed var = true) :
    IsReadable arena declared limit var := by
  have below := Nat.lt_of_lt_of_le (supplies.inRange.visible var isVisible) next_le
  refine ⟨Nat.lt_of_lt_of_le below setting.limit_le, ?_, fun ty found => ?_⟩
  · exact supplies.provides var isVisible ⟨members_eq, fun _ _ => used⟩
  · exact (setting.formed.suits var ty found).structsBelow.mono below

end

variable (setting : Setting arena grown limit)
include setting

section

variable (supplies : Supplies arena usage pending limit place declared)
variable (next_le : place.next ≤ limit)
include supplies next_le

theorem Supplies.isClosed
    {expr : Expr}
    (bound : expr.IsBound place)
    (typed : expr.IsTyped arena)
    (answers : Answers usage pending grown (· ∈ expr.reads) (· ∈ expr.dynamicIndices)) :
    expr.IsClosed declared :=
  isClosed_of_isReadable supplies.covers setting.grows expr bound
    (fun var mem => supplies.isReadable setting next_le (bound.mem_visible mem)
      (typed var mem) (answers.isUsed var mem))
    answers.isBound

theorem Supplies.areClosed
    {exprs : List Expr}
    (bound : Expr.AreBound place exprs)
    (typed : ∀ expr ∈ exprs, expr.IsTyped arena)
    (answers : Answers usage pending grown (· ∈ Expr.readsOfAll exprs)
      (· ∈ Expr.dynamicIndicesOfAll exprs)) :
    Expr.AreClosed declared exprs := by
  refine areClosed_of_isReadable supplies.covers setting.grows exprs bound (fun var mem => ?_)
    answers.isBound
  obtain ⟨expr, isIn, isRead⟩ := Expr.mem_readsOfAll.mp mem
  exact supplies.isReadable setting next_le (bound.mem_visible mem)
    (typed expr isIn var isRead) (answers.isUsed var mem)

/-- A live expression is closed, if there is one. -/
theorem Supplies.isClosedIfAny
    {expr : Option Expr}
    (bound : Expr.IsBoundIfAny place expr)
    (typed : ∀ value ∈ expr, value.IsTyped arena)
    (answers : Answers usage pending grown (· ∈ Expr.readsIfAny expr)
      (· ∈ Expr.dynamicIndicesIfAny expr)) :
    Expr.IsClosedIfAny declared expr := by
  rintro value ⟨⟩
  exact supplies.isClosed setting next_le (bound value rfl) (typed value rfl) answers

theorem Supplies.isClosed_target
    {target : Expr}
    (bound : target.IsBound place)
    (typed : target.IsTyped arena)
    (storable : ∀ ident, target = .var ident ->
      ∃ id, ident.var = some id ∧ (arena.get id).constant = false)
    (answers : Answers usage pending grown (· ∈ target.targetReads) (· ∈ target.dynamicIndices)) :
    target.IsClosed declared := by
  by_cases isVariable : ∃ ident, target = .var ident
  · obtain ⟨ident, rfl⟩ := isVariable
    obtain ⟨var, isVisible, isBound⟩ := bound
    obtain ⟨id, same, changes⟩ := storable ident rfl
    obtain rfl : id = var := Option.some.inj (same.symm.trans isBound)
    have members_eq := typed id (by simp [Expr.reads, isBound])
    refine ⟨id, supplies.provides id isVisible ⟨members_eq, fun constant => ?_⟩, isBound⟩
    rw [changes] at constant
    cases constant
  · rw [Expr.targetReads_eq fun ident same => isVariable ⟨ident, same⟩] at answers
    exact supplies.isClosed setting next_le bound typed answers

/-- A store through an accessor. -/
theorem Supplies.isClosed_setIndex
    {container position value : Expr}
    {own : Option VarId}
    (bound : container.IsBound place ∧ position.IsBound place ∧ value.IsBound place)
    (typed : container.IsTyped arena ∧ position.IsTyped arena ∧ value.IsTyped arena)
    {live : Set VarId}
    {outside : Bool}
    (answers : Answers usage pending grown
      ((Stmt.setIndex container position value own span).ReadsLive live · outside)
      ((Stmt.setIndex container position value own span).IndexesLive live · outside)) :
    (Stmt.setIndex container position value own span).IsClosed usage declared := by
  obtain ⟨containerBound, positionBound, valueBound⟩ := bound
  obtain ⟨containerTyped, positionTyped, valueTyped⟩ := typed
  have readable : ∀ var ∈ container.reads, IsReadable arena declared limit var :=
    fun var mem => supplies.isReadable setting next_le (containerBound.mem_visible mem)
      (containerTyped var mem) (answers.isUsed var (.inl mem))
  have isBound := answers.isBound ⟨.set, container, own⟩ (.inr (.inr (.inr rfl)))
  exact ⟨isDeclared_of_isBoundTo supplies.covers setting.grows readable isBound,
    supplies.isClosed setting next_le containerBound containerTyped
      (answers.mono (fun _ => .inl) fun _ => .inl),
    supplies.isClosed setting next_le positionBound positionTyped
      (answers.mono (fun _ => .inr ∘ .inl) fun _ => .inr ∘ .inl),
    supplies.isClosed setting next_le valueBound valueTyped
      (answers.mono (fun _ => .inr ∘ .inr) fun _ => .inr ∘ .inr ∘ .inl)⟩

end

end Code

/-! ## Statements -/

/-- Statements that hold expressions. -/
def holdsCode : Stmt -> Bool
  | .const _ | .var _ | .function _ _ | .assign _ _ _ _ | .cond _ _ | .loop _ _ _ _ _
  | .ret _ _ | .call _ _ _ | .update _ _ _ | .setIndex _ _ _ _ _ => true
  | _ => false

theorem isLive_of_reads
    {ident : Ident}
    {number : VarId}
    {kind : DeclKind}
    (declares : ident.Declares arena number kind)
    (isRead : usage.reads ident = true) :
    ident.IsLive { id | usage.isUsed id = true } :=
  ⟨number, declares.var_eq, declares.reads_eq.symm.trans isRead⟩

/-- A kept statement is closed where its names are visible and its questions answered. -/
def ClosesStmt
    (arena grown : Arena)
    (usage : Usage)
    (pending : List Pending)
    (limit : VarId)
    (stmt : Stmt) : Prop :=
  ∀ {first last declared outside}, stmt.IsBound arena Accessor.IsUnbound first last ->
    stmt.Every (Expr.IsTyped arena) (Stmt.HasTypes arena) -> first.InRange ->
      first.Provides arena usage declared -> isOutside first = outside -> last.next ≤ limit ->
        Answers usage pending grown (stmt.ReadsLive { id | usage.isUsed id = true } · outside)
            (stmt.IndexesLive { id | usage.isUsed id = true } · outside) ->
          (holdsCode stmt = true -> Covers pending limit declared) ->
            stmt.isKept usage outside = true -> stmt.IsClosed usage declared

/-- The kept statements of a block inside a function are closed. -/
def ClosesBlock
    (arena grown : Arena)
    (usage : Usage)
    (pending : List Pending)
    (limit : VarId)
    (block : List Stmt) : Prop :=
  ∀ {first last declared}, Stmt.AreBound arena Accessor.IsUnbound block first last ->
    Stmt.EveryIn (Expr.IsTyped arena) (Stmt.HasTypes arena) block ->
      Supplies arena usage pending limit first declared -> isOutside first = false ->
        last.next ≤ limit ->
          Answers usage pending grown
              (Stmt.ReadsLiveIn { id | usage.isUsed id = true } · block false)
              (Stmt.IndexesLiveIn { id | usage.isUsed id = true } · block false) ->
            Stmt.AreClosed usage false block declared

section Forms

variable {body : List Stmt} (closesBody : ClosesBlock arena grown usage pending limit body)

include closesBody

theorem closes_function (header : FunctionHeader) :
    ClosesStmt arena grown usage pending limit (.function header body) := by
  intro _ _ _ _ bound typed inRange provides _ last_le answers covers kept
  obtain ⟨declares, resultBound, start, inner, paramsBound, bodyBound, rfl⟩ := bound
  obtain ⟨⟨resultTypes, paramTypes⟩, bodyTyped⟩ := typed
  have live := isLive_of_reads declares kept
  have types := provides.types.declare declares id
  have supplies : Supplies arena usage pending limit _ _ := ⟨inRange, provides, covers rfl⟩
  refine ⟨fun ty mem => types.isDeclared (resultBound ty mem) (resultTypes ty mem),
    paramsBound.isDeclared types paramTypes, ?_⟩
  exact closesBody bodyBound bodyTyped (supplies.body declares paramsBound)
    (isOutside_eq_false paramsBound.leads) last_le
    (answers.mono (fun _ isRead => ⟨live, isRead⟩) fun _ isCall => ⟨live, isCall⟩)

theorem closes_loop
    (setting : Setting arena grown limit)
    {init step : Stmt}
    (closesInit : ClosesStmt arena grown usage pending limit init)
    (closesStep : ClosesStmt arena grown usage pending limit step)
    (condition : Expr)
    (span : Span) :
    ClosesStmt arena grown usage pending limit (.loop init condition step body span) := by
  intro _ _ _ _ bound typed inRange provides _ last_le answers covers _
  obtain ⟨start, middle, inner, initBound, conditionBound, stepBound, bodyBound, rfl⟩ := bound
  obtain ⟨_, initTyped, conditionTyped, stepTyped, bodyTyped⟩ := typed
  have middle_le : middle.next ≤ limit := Nat.le_trans bodyBound.leads.next_le last_le
  have start_le := Nat.le_trans stepBound.leads.next_le middle_le
  have supplies : Supplies arena usage pending limit _ _ := ⟨inRange, provides, covers rfl⟩
  have atCondition := supplies.enter.after initBound
  refine ⟨fun keptInit => ?_, ?_, fun keptStep => ?_, ?_⟩
  · exact closesInit initBound initTyped inRange.enter provides rfl start_le
      (answers.mono (fun _ => .inl) fun _ => .inl) (fun _ => covers rfl) keptInit
  · exact atCondition.isClosed setting start_le conditionBound conditionTyped
      (answers.mono (fun _ => .inr ∘ .inl) fun _ => .inr ∘ .inl)
  · exact closesStep stepBound stepTyped atCondition.inRange atCondition.provides
      (isOutside_eq_false initBound.leads) middle_le
      (answers.mono (fun _ => .inr ∘ .inr ∘ .inl) fun _ => .inr ∘ .inr ∘ .inl)
      (fun _ => atCondition.covers) keptStep
  · exact closesBody bodyBound bodyTyped (atCondition.after stepBound)
      (isOutside_eq_false (initBound.leads.trans stepBound.leads)) last_le
      (answers.mono (fun _ => .inr ∘ .inr ∘ .inr) fun _ => .inr ∘ .inr ∘ .inr)

end Forms

mutual

theorem isClosed_of_isBound
    (setting : Setting arena grown limit)
    (stmt : Stmt) :
    ClosesStmt arena grown usage pending limit stmt := by
  intro first last declared outside bound typed inRange provides _ last_le answers covers kept
  have first_le := Nat.le_trans bound.leads.next_le last_le
  have supplies (isCode : holdsCode stmt = true) :
      Supplies arena usage pending limit first declared := ⟨inRange, provides, covers isCode⟩
  cases stmt with
  | precision _ _ _ | interface _ => exact provides.types.isDeclared bound.1 typed.1
  | struct decl =>
      exact fun member mem =>
        provides.types.isDeclared (bound.1 member mem) (typed.1 member mem)
  | accessor decl =>
      have unbound : decl.element.var = none := bound.1.element_eq
      rw [Stmt.IsClosed, unbound]
      rintro _ ⟨⟩
  | const decl =>
      obtain ⟨tyBound, initBound, declares, rfl⟩ := bound
      have live : decl.exported = true ∨ decl.name.IsLive { id | usage.isUsed id = true } :=
        ((Bool.or_eq_true _ _).mp kept).imp_right (isLive_of_reads declares)
      exact ⟨provides.types.isDeclared tyBound typed.1,
        (supplies rfl).isClosedIfAny setting first_le initBound typed.2
          (answers.mono (fun _ mem => ⟨live, mem⟩) fun _ mem => ⟨live, mem⟩)⟩
  | var decl =>
      obtain ⟨tyBound, initBound, declares, rfl⟩ := bound
      have live : outside = false ∨ decl.name.IsLive { id | usage.isUsed id = true } :=
        ((Bool.or_eq_true _ _).mp kept).imp Bool.eq_false_of_not_eq_true' (isLive_of_reads declares)
      exact ⟨provides.types.isDeclared tyBound typed.1,
        (supplies rfl).isClosedIfAny setting first_le initBound typed.2
          (answers.mono (fun _ mem => ⟨live, mem⟩) fun _ mem => ⟨live, mem⟩)⟩
  | function header body =>
      exact closes_function (areClosed_of_areBound setting body) header bound typed inRange provides
        rfl last_le answers covers kept
  | assign target _ value _ =>
      obtain ⟨targetBound, valueBound, rfl⟩ := bound
      obtain ⟨storable, targetTyped, valueTyped⟩ := typed
      exact ⟨(supplies rfl).isClosed_target setting first_le targetBound targetTyped storable
          (answers.mono (fun _ => .inl) fun _ => .inl),
        (supplies rfl).isClosed setting first_le valueBound valueTyped
          (answers.mono (fun _ => .inr) fun _ => .inr)⟩
  | cond branches _ =>
      exact branchesClosed_of_branchesBound setting branches bound typed.2 (supplies rfl) last_le
        answers
  | loop init condition step body span =>
      exact closes_loop (areClosed_of_areBound setting body) setting
        (isClosed_of_isBound setting init) (isClosed_of_isBound setting step) condition span bound
        typed inRange provides rfl last_le answers covers kept
  | ret value _ =>
      obtain ⟨valueBound, rfl⟩ := bound
      exact (supplies rfl).isClosedIfAny setting first_le valueBound typed.2 answers
  | call callee args _ =>
      obtain ⟨calleeBound, argumentsBound, rfl⟩ := bound
      obtain ⟨_, calleeTyped, argumentsTyped⟩ := typed
      exact ⟨(supplies rfl).isClosed setting first_le calleeBound calleeTyped
          (answers.mono (fun _ => .inl) fun _ => .inr),
        (supplies rfl).areClosed setting first_le argumentsBound argumentsTyped
          (answers.mono (fun _ => .inr) fun _ => .inl)⟩
  | update target _ _ =>
      obtain ⟨targetBound, rfl⟩ := bound
      exact (supplies rfl).isClosed setting first_le targetBound typed.2 answers
  | setIndex container position value own _ =>
      obtain ⟨containerBound, positionBound, valueBound, rfl⟩ := bound
      exact (supplies rfl).isClosed_setIndex setting first_le
        ⟨containerBound, positionBound, valueBound⟩ typed.2 answers
  | _ => trivial

theorem areClosed_of_areBound
    (setting : Setting arena grown limit)
    (block : List Stmt) :
    ClosesBlock arena grown usage pending limit block := by
  intro first last declared bound typed supplies nested last_le answers
  match block with
  | [] => trivial
  | stmt :: rest =>
      obtain ⟨middle, stmtBound, restBound⟩ := bound
      have middle_le := Nat.le_trans restBound.leads.next_le last_le
      have nestedRest : isOutside middle = false := by
        rw [isOutside, stmtBound.leads.depth_eq]
        exact nested
      refine ⟨fun kept => ?_, ?_⟩
      · exact isClosed_of_isBound setting stmt stmtBound typed.1 supplies.inRange supplies.provides
          nested middle_le (answers.mono (fun _ => .inl) fun _ => .inl)
          (fun _ => supplies.covers) kept
      · exact areClosed_of_areBound setting rest restBound typed.2 (supplies.after stmtBound)
          nestedRest last_le (answers.mono (fun _ => .inr) fun _ => .inr)

theorem branchesClosed_of_branchesBound
    (setting : Setting arena grown limit)
    (branches : List (Branch Stmt))
    {first last : Place}
    {declared : List VarId}
    (bound : Stmt.BranchesBound arena Accessor.IsUnbound branches first last)
    (typed : Stmt.EveryInBranches (Expr.IsTyped arena) (Stmt.HasTypes arena) branches)
    (supplies : Supplies arena usage pending limit first declared)
    (last_le : last.next ≤ limit)
    (answers : Answers usage pending grown
      (Stmt.ReadsLiveInBranches { id | usage.isUsed id = true } · branches)
      (Stmt.IndexesLiveInBranches { id | usage.isUsed id = true } · branches)) :
    Stmt.BranchesClosed usage branches declared := by
  match branches with
  | [] => trivial
  | ⟨condition, body, _⟩ :: rest =>
      obtain ⟨conditionBound, inner, bodyBound, restBound⟩ := bound
      obtain ⟨conditionTyped, bodyTyped, restTyped⟩ := typed
      have inner_le : inner.next ≤ limit := Nat.le_trans restBound.leads.next_le last_le
      have first_le : first.next ≤ limit := Nat.le_trans bodyBound.leads.next_le inner_le
      refine ⟨?_, ?_, ?_⟩
      · exact supplies.isClosedIfAny setting first_le conditionBound conditionTyped
          (answers.mono (fun _ => .inl) fun _ => .inl)
      · exact areClosed_of_areBound setting body bodyBound bodyTyped supplies.enter rfl inner_le
          (answers.mono (fun _ => .inr ∘ .inl) fun _ => .inr ∘ .inl)
      · exact branchesClosed_of_branchesBound setting rest restBound restTyped
          (supplies.leave bodyBound.leads) last_le
          (answers.mono (fun _ => .inr ∘ .inr) fun _ => .inr ∘ .inr)

end

end Liveness

end ModularGlsl
