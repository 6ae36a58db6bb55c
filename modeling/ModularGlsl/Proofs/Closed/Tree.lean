import ModularGlsl.Liveness.Kept
import ModularGlsl.Proofs.Liveness.Least
import ModularGlsl.Proofs.Typing.Declared

/-!
# Closed output

The output is read from the first statement to the last.  Each statement that is
kept mentions only variables that are declared by then, in the block that it
stands in or in one around it.  A member of a package stands for itself, since
the package in front of it is not written, and a dynamic index mentions the
accessor that it is bound to.

Written variables are those whose declarations are kept.  A place provides its
written variables if all that are visible there are declared.
-/

namespace ModularGlsl

/-! ## Expressions -/

/-- An identifier denotes a declared variable. -/
def Ident.IsDeclared
    (declared : List VarId)
    (ident : Ident) : Prop :=
  ∃ var ∈ declared, ident.var = some var

mutual

/-- All variables in an expression are declared. -/
def Expr.IsClosed (declared : List VarId) : Expr -> Prop
  | .int _ _ | .float _ _ | .bool _ _ => True
  | .var ident => ident.IsDeclared declared
  | .member _ _ (some id) _ => id ∈ declared
  | .member object _ none _ => object.IsClosed declared
  | .index container position _ => container.IsClosed declared ∧ position.IsClosed declared
  | .getIndex container position accessor _ =>
      (∃ var ∈ declared, accessor = some var) ∧ container.IsClosed declared ∧
        position.IsClosed declared
  | .call callee args _ => callee.IsClosed declared ∧ Expr.AreClosed declared args
  | .binary _ left right _ => left.IsClosed declared ∧ right.IsClosed declared
  | .unary _ operand _ => operand.IsClosed declared
  | .paren inner _ => inner.IsClosed declared

/-- All variables in a list of expressions are declared. -/
def Expr.AreClosed (declared : List VarId) : List Expr -> Prop
  | [] => True
  | expr :: rest => expr.IsClosed declared ∧ Expr.AreClosed declared rest

end

/-- All variables in an expression are declared, if there is one. -/
def Expr.IsClosedIfAny
    (declared : List VarId)
    (expr : Option Expr) : Prop :=
  ∀ value ∈ expr, value.IsClosed declared

/-! ## Statements -/

/-- The variables that a statement declares for those after it, if it is kept. -/
def Stmt.writes
    (usage : Usage)
    (atTop : Bool)
    (stmt : Stmt) : List VarId :=
  if stmt.isKept usage atTop then
    (stmt.declared?.bind Ident.var).toList
  else
    []

/-- The variables that a function declares for its body: itself and its
parameters. -/
def FunctionHeader.writes (header : FunctionHeader) : List VarId :=
  header.params.flatMap (fun param => param.name.var.toList) ++ header.name.var.toList

mutual

/-- All variables in a statement that is kept are declared before they occur. -/
def Stmt.IsClosed (usage : Usage) : Stmt -> List VarId -> Prop
  | .version _ _ _, _
  | .extension _ _ _, _
  | .importName _ _ _ _, _
  | .importAll _ _ _, _
  | .reexport _ _ _ _, _
  | .exportName _ _ _, _ => True
  | .precision _ ty _, declared => ty.IsDeclared declared
  | .interface decl, declared => decl.ty.IsDeclared declared
  | .const decl, declared =>
      decl.ty.IsDeclared declared ∧ Expr.IsClosedIfAny declared decl.init
  | .var decl, declared =>
      decl.ty.IsDeclared declared ∧ Expr.IsClosedIfAny declared decl.init
  | .struct decl, declared => ∀ member ∈ decl.members, member.ty.IsDeclared declared
  | .function header body, declared =>
      (∀ ty ∈ header.result, ty.IsDeclared declared) ∧
        (∀ param ∈ header.params, param.ty.IsDeclared declared) ∧
          Stmt.AreClosed usage false body (header.writes ++ declared)
  | .assign target _ value _, declared => target.IsClosed declared ∧ value.IsClosed declared
  | .cond branches _, declared => Stmt.BranchesClosed usage branches declared
  | .loop init condition step body _, declared =>
      let atCondition := init.writes usage false ++ declared
      let atBody := step.writes usage false ++ atCondition
      (init.isKept usage false = true -> init.IsClosed usage declared) ∧
        condition.IsClosed atCondition ∧
          (step.isKept usage false = true -> step.IsClosed usage atCondition) ∧
            Stmt.AreClosed usage false body atBody
  | .ret value _, declared => Expr.IsClosedIfAny declared value
  | .call callee args _, declared =>
      callee.IsClosed declared ∧ Expr.AreClosed declared args
  | .update target _ _, declared => target.IsClosed declared
  | .setIndex container position value own _, declared =>
      (∃ var ∈ declared, own = some var) ∧ container.IsClosed declared ∧
        position.IsClosed declared ∧ value.IsClosed declared
  | .accessor decl, declared => ∀ var ∈ decl.element.var, var ∈ declared

/-- All variables in those statements of a list that are kept are declared before
they occur. -/
def Stmt.AreClosed
    (usage : Usage)
    (atTop : Bool) : List Stmt -> List VarId -> Prop
  | [], _ => True
  | stmt :: rest, declared =>
      (stmt.isKept usage atTop = true -> stmt.IsClosed usage declared) ∧
        Stmt.AreClosed usage atTop rest (stmt.writes usage atTop ++ declared)

/-- All variables in the arms of a chain of conditions are declared before they
occur. -/
def Stmt.BranchesClosed (usage : Usage) : List (Branch Stmt) -> List VarId -> Prop
  | [], _ => True
  | ⟨condition, body, _⟩ :: rest, declared =>
      Expr.IsClosedIfAny declared condition ∧ Stmt.AreClosed usage false body declared ∧
        Stmt.BranchesClosed usage rest declared

end

/-! ## Types -/

/-- Places for accessors do not matter for the types of a tree. -/
theorem Stmt.arePlain_hasTypes (arena : Arena) :
    Stmt.ArePlain (Expr.IsTyped arena) (Stmt.HasTypes arena) where
  expr_iff expr := by rw [Expr.IsTyped, Expr.IsTyped, expr.reads_erase]
  stmt_iff stmt := by
    cases stmt with
    | assign target =>
        cases target with
        | var => rfl
        | _ => simp [Stmt.erase, Expr.erase, Stmt.HasTypes]
    | _ => rfl
  accessor _ := trivial

/-! ## Written variables -/

/-- Kinds of declarations that are left out if nothing reads them.  Variables of
modules are not among them, because they have to be read. -/
def DeclKind.mayBeDropped : DeclKind -> Bool
  | function | const false | uniform | vertexAttribute => true
  | _ => false

variable {kind : DeclKind} {ident : Ident}

theorem DeclKind.NamesType.mayBeDropped_eq (namesType : kind.NamesType) :
    kind.mayBeDropped = false := by
  cases kind with
  | builtin | struct => rfl
  | _ => exact namesType.elim

theorem DeclKind.IsStorable.mayBeDropped_eq (storable : kind.IsStorable) :
    kind.mayBeDropped = false := by
  cases kind with
  | builtin | param | localVariable | globalVariable | varying => rfl
  | _ => exact storable.elim

/-- The declaration of a variable is kept.  Only constants may be dropped. -/
structure Arena.IsWritten
    (arena : Arena)
    (usage : Usage)
    (var : VarId) : Prop where
  /-- Packages are never written. -/
  members_eq : (arena.get var).members = none
  /-- A declaration that may be dropped is read. -/
  isUsed : (arena.get var).constant = true -> (arena.get var).decl.mayBeDropped = true ->
    usage.isUsed var = true

variable {arena : Arena} {usage : Usage} {number : VarId}

/-- A written declaration that may be dropped is read. -/
theorem Ident.Declares.isUsed_of_isWritten
    (declares : ident.Declares arena number kind)
    (isWritten : arena.IsWritten usage number)
    (dropped : kind.mayBeDropped = true) :
    usage.isUsed number = true := by
  refine isWritten.isUsed ?_ (by rw [declares.decl_eq, dropped])
  rw [← Bool.not_eq_false]
  intro changes
  rw [(declares.storable changes).mayBeDropped_eq] at dropped
  cases dropped

/-- All written variables that are visible at a place are declared. -/
def Place.Provides
    (arena : Arena)
    (usage : Usage)
    (place : Place)
    (declared : List VarId) : Prop :=
  ∀ var ∈ place.visible, arena.IsWritten usage var -> var ∈ declared

/-- All visible variables that stand for types are declared. -/
def Place.ProvidesTypes
    (arena : Arena)
    (place : Place)
    (declared : List VarId) : Prop :=
  ∀ var ∈ place.visible, (arena.get var).members = none -> (arena.get var).decl.NamesType ->
    var ∈ declared

section Provides

variable {place : Place} {declared : List VarId}

/-- What stands for a type is written. -/
theorem Place.Provides.types (provides : place.Provides arena usage declared) :
    place.ProvidesTypes arena declared := by
  intro var isVisible members_eq namesType
  refine provides var isVisible ⟨members_eq, fun _ dropped => ?_⟩
  rw [namesType.mayBeDropped_eq] at dropped
  cases dropped

theorem Place.ProvidesTypes.isDeclared
    (provides : place.ProvidesTypes arena declared)
    (bound : ident.IsBound place)
    (isType : ident.IsType arena) :
    ident.IsDeclared declared := by
  obtain ⟨var, isVisible, isBound⟩ := bound
  obtain ⟨id, same, members_eq, namesType⟩ := isType
  obtain rfl : id = var := Option.some.inj (same.symm.trans isBound)
  exact ⟨id, provides id isVisible members_eq namesType, isBound⟩

/-- A declaration of something else than a type adds no type. -/
theorem Place.ProvidesTypes.declare
    (provides : place.ProvidesTypes arena declared)
    (declares : ident.Declares arena place.next kind)
    (noType : ¬kind.NamesType) :
    place.declare.ProvidesTypes arena declared := by
  intro var isVisible members_eq namesType
  rcases List.mem_cons.mp isVisible with rfl | earlier
  · rw [declares.decl_eq] at namesType
    exact absurd namesType noType
  · exact provides var earlier members_eq namesType

variable {first last : Place} {params : List Param}

/-- The types of parameters are declared before their function. -/
theorem Param.AreBound.isDeclared
    (bound : Param.AreBound arena params first last)
    (provides : first.ProvidesTypes arena declared)
    (areTypes : ∀ param ∈ params, param.ty.IsType arena) :
    ∀ param ∈ params, param.ty.IsDeclared declared := by
  induction params generalizing first with
  | nil => simp
  | cons param rest ih =>
      obtain ⟨tyBound, declares, restBound⟩ := bound
      obtain ⟨isType, restTypes⟩ := List.forall_mem_cons.mp areTypes
      exact List.forall_mem_cons.mpr ⟨provides.isDeclared tyBound isType,
        ih restBound (provides.declare declares id) restTypes⟩

theorem Place.Provides.append
    (provides : place.Provides arena usage declared)
    (more : List VarId) :
    place.Provides arena usage (more ++ declared) :=
  fun var isVisible isWritten => List.mem_append_right _ (provides var isVisible isWritten)

/-- A declaration adds its variable, if it is written. -/
theorem Place.Provides.declare
    (provides : place.Provides arena usage declared)
    {more : List VarId}
    (own : arena.IsWritten usage place.next -> place.next ∈ more) :
    place.declare.Provides arena usage (more ++ declared) := by
  intro var isVisible isWritten
  rcases List.mem_cons.mp isVisible with rfl | earlier
  · exact List.mem_append_left _ (own isWritten)
  · exact provides.append more var earlier isWritten

variable {atTop : Bool}

theorem Ident.Declares.mem_writes
    (declares : ident.Declares arena number kind)
    {stmt : Stmt}
    (declared : stmt.declared? = some ident)
    (kept : stmt.isKept usage atTop = true) :
    number ∈ stmt.writes usage atTop := by
  rw [Stmt.writes, if_pos kept, declared]
  simp [declares.var_eq]

theorem Ident.Declares.reads_eq (declares : ident.Declares arena number kind) :
    usage.reads ident = usage.isUsed number := by
  rw [Usage.reads, declares.var_eq]

/-- Parameters are declared for the body of their function. -/
theorem Param.AreBound.provides
    (bound : Param.AreBound arena params first last)
    (provides : first.Provides arena usage declared) :
    last.Provides arena usage
      (params.flatMap (fun param => param.name.var.toList) ++ declared) := by
  induction params generalizing first declared with
  | nil =>
      obtain rfl : last = first := bound
      exact provides
  | cons param rest ih =>
      obtain ⟨_, declares, restBound⟩ := bound
      have own : first.next ∈ param.name.var.toList := by simp [declares.var_eq]
      have inRest := ih restBound (provides.declare fun _ => own)
      intro var isVisible isWritten
      have mem := inRest var isVisible isWritten
      simp only [List.flatMap_cons, List.mem_append] at mem ⊢
      tauto

variable {accessors : Accessor -> Prop}

theorem Stmt.BranchesBound.visible_eq
    {branches : List (Branch Stmt)}
    (bound : Stmt.BranchesBound arena accessors branches first last) :
    last.visible = first.visible := by
  induction branches generalizing first with
  | nil =>
      obtain rfl : last = first := bound
      rfl
  | cons branch rest ih =>
      obtain ⟨_, inner, _, restBound⟩ := bound
      have inRest : last.visible = (first.leave inner).visible := ih restBound
      exact inRest

/-- What is declared after a statement.  A variable of a module has to be
read. -/
theorem Stmt.IsBound.provides
    {stmt : Stmt}
    (bound : stmt.IsBound arena accessors first last)
    (provides : first.Provides arena usage declared)
    (stored : ∀ decl, stmt = .var decl -> stmt.isKept usage atTop = true) :
    last.Provides arena usage (stmt.writes usage atTop ++ declared) := by
  cases stmt with
  | version _ _ _ | extension _ _ _ =>
      obtain rfl : last = first := bound
      exact provides.append _
  | importAll _ _ _ =>
      obtain ⟨declares, rfl⟩ := bound
      exact provides.declare fun isWritten => absurd isWritten.members_eq declares.members_ne
  | reexport _ _ _ _ | assign _ _ _ _ | call _ _ _ =>
      obtain ⟨_, _, rfl⟩ := bound
      exact provides.append _
  | exportName _ _ _ | setIndex _ _ _ _ _ =>
      obtain ⟨_, _, _, rfl⟩ := bound
      exact provides.append _
  | interface decl =>
      obtain ⟨_, declares, rfl⟩ := bound
      refine provides.declare fun isWritten => declares.mem_writes rfl ?_
      rw [Stmt.isKept, declares.reads_eq, Bool.or_eq_true, beq_iff_eq]
      cases kind : decl.kind with
      | varying => exact .inl rfl
      | uniform | vertexAttribute =>
          refine .inr (declares.isUsed_of_isWritten isWritten ?_)
          rw [kind]
          rfl
  | const decl =>
      obtain ⟨_, _, declares, rfl⟩ := bound
      have visible_eq : (first.afterConst decl.exported).visible = first.declare.visible := by
        rw [Place.afterConst]
        split <;> rfl
      intro var isVisible
      rw [visible_eq] at isVisible
      refine provides.declare (fun isWritten => declares.mem_writes rfl ?_) var isVisible
      rw [Stmt.isKept, declares.reads_eq, Bool.or_eq_true]
      cases exported : decl.exported with
      | true => exact .inl rfl
      | false =>
          refine .inr (declares.isUsed_of_isWritten isWritten ?_)
          rw [exported]
          rfl
  | var decl =>
      obtain ⟨_, _, declares, rfl⟩ := bound
      exact provides.declare fun _ => declares.mem_writes rfl (stored decl rfl)
  | struct decl =>
      obtain ⟨_, declares, rfl⟩ := bound
      exact provides.declare fun _ => declares.mem_writes rfl rfl
  | function header body =>
      obtain ⟨declares, _, start, inner, _, _, rfl⟩ := bound
      have kept (isWritten : arena.IsWritten usage first.next) :
          (Stmt.function header body).isKept usage atTop = true := by
        rw [Stmt.isKept, declares.reads_eq]
        exact declares.isUsed_of_isWritten isWritten rfl
      have own := provides.declare fun isWritten => declares.mem_writes rfl (kept isWritten)
      exact own
  | cond branches _ =>
      have branchesBound : Stmt.BranchesBound arena accessors branches first last := bound
      intro var isVisible
      rw [branchesBound.visible_eq] at isVisible
      exact provides.append _ var isVisible
  | loop _ _ _ _ _ =>
      obtain ⟨_, _, _, _, _, _, _, rfl⟩ := bound
      exact provides.append _
  | _ =>
      obtain ⟨_, rfl⟩ := bound
      exact provides.append _

end Provides

end ModularGlsl
