import ModularGlsl.Binding.Stmt

/-!
# Places of a bound program

Binding numbers the declarations of a program in the order of its source.  At
every place there is a next number, a nesting depth, a list of variables that
are visible and a list of those that are exported.  This module describes a
bound tree by the places before and after each of its parts, without the steps
that bind it: every name denotes a visible variable, every declaration takes the
next number, and a block gives back what was visible before it.

The arena in these descriptions may be any later one, since names, kinds and
members of variables stay as they are until names are made final.
-/

namespace ModularGlsl

/-! ## Later arenas -/

/-- An arena holds at least the variables of another one, with the same records
up to their types. -/
structure Arena.Keeps (before after : Arena) : Prop where
  /-- No variable is lost. -/
  size_le : before.size ≤ after.size
  /-- A variable keeps all but its type. -/
  get_eq : ∀ id, id < before.size -> ∃ ty, after.get id = { before.get id with ty := ty }

variable {arena final : Arena}

namespace Arena

theorem Keeps.refl (arena : Arena) : arena.Keeps arena :=
  ⟨Nat.le_refl _, fun _ _ => ⟨_, rfl⟩⟩

variable {before middle after : Arena}

theorem Keeps.trans
    (early : before.Keeps middle)
    (late : middle.Keeps after) :
    before.Keeps after := by
  refine ⟨Nat.le_trans early.size_le late.size_le, fun id known => ?_⟩
  obtain ⟨_, first⟩ := early.get_eq id known
  obtain ⟨ty, second⟩ := late.get_eq id (Nat.lt_of_lt_of_le known early.size_le)
  exact ⟨ty, by rw [second, first]⟩

theorem keeps_alloc
    (arena : Arena)
    (record : Variable) :
    arena.Keeps (arena.alloc record) :=
  ⟨by simp, fun _ known => ⟨_, get_alloc_of_lt record known⟩⟩

theorem get_of_size_le
    {id : VarId}
    (unknown : arena.size ≤ id) :
    arena.get id = default := by
  have absent : arena.variables.size ≤ id := unknown
  simp [get, absent]

theorem get_modify
    (arena : Arena)
    (id other : VarId)
    (change : Variable -> Variable) :
    (arena.modify id change).get other =
      if id = other ∧ other < arena.size then change (arena.get other) else arena.get other := by
  simp only [modify, get, size, Array.getD_eq_getD_getElem?, Array.getElem?_modify]
  by_cases inside : other < arena.variables.size
  · by_cases same : id = other <;> simp [inside, same]
  · by_cases same : id = other <;> simp [inside, same]

/-- An arena holds the variables of another one as they are, and new ones whose
types are not known. -/
structure Grows (before after : Arena) : Prop where
  /-- No variable is lost. -/
  size_le : before.size ≤ after.size
  /-- A variable keeps its record. -/
  get_eq : ∀ id, id < before.size -> after.get id = before.get id
  /-- New variables have no type. -/
  untyped : ∀ id, before.size ≤ id -> (after.get id).ty = none

theorem Grows.refl (arena : Arena) : arena.Grows arena :=
  ⟨Nat.le_refl _, fun _ _ => rfl, fun _ unknown => by rw [get_of_size_le unknown]; rfl⟩

theorem Grows.trans
    (early : before.Grows middle)
    (late : middle.Grows after) :
    before.Grows after where
  size_le := Nat.le_trans early.size_le late.size_le
  get_eq id known :=
    (late.get_eq id (Nat.lt_of_lt_of_le known early.size_le)).trans (early.get_eq id known)
  untyped id isNew := by
    rcases Nat.lt_or_ge id middle.size with known | unknown
    · rw [late.get_eq id known]
      exact early.untyped id isNew
    · exact late.untyped id unknown

/-- Variables that stay as they are are kept. -/
theorem Grows.keeps (grows : before.Grows after) :
    before.Keeps after :=
  ⟨grows.size_le, fun id known => ⟨_, grows.get_eq id known⟩⟩

theorem grows_alloc
    (arena : Arena)
    {record : Variable}
    (untyped : record.ty = none) :
    arena.Grows (arena.alloc record) where
  size_le := by simp
  get_eq _ known := get_alloc_of_lt record known
  untyped id isNew := by
    rcases Nat.eq_or_lt_of_le isNew with rfl | above
    · rw [get_alloc_size]
      exact untyped
    · rw [get_of_size_le (by rw [size_alloc]; exact above)]
      rfl

section Kept

variable {id : VarId}

section

variable (keeps : before.Keeps after) (known : id < before.size)
include keeps known

theorem Keeps.name_eq :
    (after.get id).name = (before.get id).name := by
  obtain ⟨ty, same⟩ := keeps.get_eq id known
  rw [same]

theorem Keeps.decl_eq :
    (after.get id).decl = (before.get id).decl := by
  obtain ⟨ty, same⟩ := keeps.get_eq id known
  rw [same]

theorem Keeps.constant_eq :
    (after.get id).constant = (before.get id).constant := by
  obtain ⟨ty, same⟩ := keeps.get_eq id known
  rw [same]

theorem Keeps.members_eq :
    (after.get id).members = (before.get id).members := by
  obtain ⟨ty, same⟩ := keeps.get_eq id known
  rw [same]

end

end Kept

end Arena

/-! ## Places -/

/-- What is known at a place of a program while it is bound. -/
structure Place where
  /-- The variables that names may denote. -/
  visible : List VarId
  /-- The variables that the module exports. -/
  exported : List VarId
  /-- The number of the next variable. -/
  next : VarId
  /-- The number of open functions and blocks. -/
  depth : Nat

namespace Place

/-- The place after a declaration. -/
def declare (place : Place) : Place :=
  { place with visible := place.next :: place.visible, next := place.next + 1 }

/-- The place after an export. -/
def publish
    (place : Place)
    (var : VarId) : Place :=
  { place with exported := var :: place.exported }

/-- The place at the start of a function or block. -/
def enter (place : Place) : Place :=
  { place with depth := place.depth + 1 }

/-- The place after a function or block that ends at an inner place. -/
def leave (outer inner : Place) : Place :=
  { inner with visible := outer.visible, depth := outer.depth }

end Place

/-! ## Names and declarations -/

/-- An identifier denotes a visible variable. -/
def Ident.IsBound
    (place : Place)
    (ident : Ident) : Prop :=
  ∃ var ∈ place.visible, ident.var = some var

/-- Kinds of declarations whose variables may be stored to. -/
def DeclKind.IsStorable : DeclKind -> Prop
  | builtin | param | localVariable | globalVariable | varying => True
  | _ => False

/-- An identifier declares the variable with a given number. -/
structure Ident.Declares
    (arena : Arena)
    (ident : Ident)
    (var : VarId)
    (decl : DeclKind) : Prop where
  /-- The identifier is bound to the variable. -/
  var_eq : ident.var = some var
  /-- The variable exists. -/
  lt_size : var < arena.size
  /-- The variable has the name of the identifier. -/
  name_eq : (arena.get var).name = ident.name
  /-- The variable is declared by a declaration of the given kind. -/
  decl_eq : (arena.get var).decl = decl
  /-- The variable is no package. -/
  members_eq : (arena.get var).members = none
  /-- Only some kinds of variables may be stored to. -/
  storable : (arena.get var).constant = false -> decl.IsStorable

/-- A declaration stays when variables are added. -/
theorem Ident.Declares.keeps
    {ident : Ident}
    {var : VarId}
    {decl : DeclKind}
    (declares : ident.Declares arena var decl)
    (kept : arena.Keeps final) :
    ident.Declares final var decl where
  var_eq := declares.var_eq
  lt_size := Nat.lt_of_lt_of_le declares.lt_size kept.size_le
  name_eq := (kept.name_eq declares.lt_size).trans declares.name_eq
  decl_eq := (kept.decl_eq declares.lt_size).trans declares.decl_eq
  members_eq := (kept.members_eq declares.lt_size).trans declares.members_eq
  storable changes := declares.storable ((kept.constant_eq declares.lt_size).symm.trans changes)

/-- An identifier declares a package of visible variables with a given
number. -/
structure Ident.DeclaresPackage
    (arena : Arena)
    (place : Place)
    (ident : Ident) : Prop where
  /-- The identifier is bound to the next variable. -/
  var_eq : ident.var = some place.next
  /-- The variable exists. -/
  lt_size : place.next < arena.size
  /-- The variable is declared by an import. -/
  decl_eq : (arena.get place.next).decl = .package
  /-- The variable has members. -/
  members_ne : (arena.get place.next).members ≠ none
  /-- Packages are not stored to. -/
  constant_eq : (arena.get place.next).constant = true

/-- A package stays when variables are added. -/
theorem Ident.DeclaresPackage.keeps
    {place : Place}
    {ident : Ident}
    (declares : ident.DeclaresPackage arena place)
    (kept : arena.Keeps final) :
    ident.DeclaresPackage final place where
  var_eq := declares.var_eq
  lt_size := Nat.lt_of_lt_of_le declares.lt_size kept.size_le
  decl_eq := (kept.decl_eq declares.lt_size).trans declares.decl_eq
  members_ne := by
    rw [kept.members_eq declares.lt_size]
    exact declares.members_ne
  constant_eq := (kept.constant_eq declares.lt_size).trans declares.constant_eq

/-! ## Expressions -/

mutual

/-- All names of an expression denote visible variables. -/
def Expr.IsBound (place : Place) : Expr -> Prop
  | .int _ _ | .float _ _ | .bool _ _ => True
  | .var ident => ident.IsBound place
  | .member object _ packageMember _ =>
      object.IsBound place ∧ ∀ var ∈ packageMember, var ∈ place.visible
  | .index container position _
  | .getIndex container position _ _ => container.IsBound place ∧ position.IsBound place
  | .call callee args _ => callee.IsBound place ∧ Expr.AreBound place args
  | .binary _ left right _ => left.IsBound place ∧ right.IsBound place
  | .unary _ operand _ => operand.IsBound place
  | .paren inner _ => inner.IsBound place

/-- All names of a list of expressions denote visible variables. -/
def Expr.AreBound (place : Place) : List Expr -> Prop
  | [] => True
  | expr :: rest => expr.IsBound place ∧ Expr.AreBound place rest

end

/-- All names of an expression denote visible variables, if there is one. -/
def Expr.IsBoundIfAny
    (place : Place)
    (expr : Option Expr) : Prop :=
  ∀ value ∈ expr, value.IsBound place

/-! ## Statements -/

/-- The parameters of a function lead from one place to another. -/
def Param.AreBound (arena : Arena) : List Param -> Place -> Place -> Prop
  | [], before, after => after = before
  | param :: rest, before, after =>
      param.ty.IsBound before ∧ param.name.Declares arena before.next .param ∧
        Param.AreBound arena rest before.declare after

/-- The place after the declaration of a constant. -/
def Place.afterConst
    (place : Place)
    (exported : Bool) : Place :=
  if exported then place.declare.publish place.next else place.declare

theorem Place.next_afterConst
    (place : Place)
    (exported : Bool) :
    (place.afterConst exported).next = place.next + 1 := by
  cases exported <;> rfl

/-- What declares a variable at a depth. -/
def DeclKind.ofDepth (depth : Nat) : DeclKind :=
  if depth = 0 then .globalVariable else .localVariable

mutual

/-- A statement leads from one place to another.  Which accessors may stand
among the statements is left open. -/
def Stmt.IsBound
    (arena : Arena)
    (accessors : Accessor -> Prop) : Stmt -> Place -> Place -> Prop
  | .version _ _ _, before, after
  | .extension _ _ _, before, after => after = before
  | .accessor decl, before, after => accessors decl ∧ after = before
  | .precision _ ty _, before, after => ty.IsBound before ∧ after = before
  | .importName _ newName _ _, before, after => newName.IsBound before ∧ after = before
  | .importAll newName _ _, before, after =>
      newName.DeclaresPackage arena before ∧ after = before.declare
  | .reexport _ _ _ _, before, after =>
      ∃ var ∈ before.visible, after = before.publish var
  | .exportName target _ _, before, after =>
      ∃ var ∈ before.visible, target.var = some var ∧ after = before.publish var
  | .interface decl, before, after =>
      decl.ty.IsBound before ∧
        decl.name.Declares arena before.next (Binding.declKind decl.kind) ∧
          after = before.declare
  | .const decl, before, after =>
      decl.ty.IsBound before ∧ Expr.IsBoundIfAny before decl.init ∧
        decl.name.Declares arena before.next (.const decl.exported) ∧
          after = before.afterConst decl.exported
  | .var decl, before, after =>
      decl.ty.IsBound before ∧ Expr.IsBoundIfAny before decl.init ∧
        decl.name.Declares arena before.next (.ofDepth before.depth) ∧
          after = before.declare
  | .struct decl, before, after =>
      (∀ member ∈ decl.members, member.ty.IsBound before) ∧
        decl.name.Declares arena before.next .struct ∧ after = before.declare
  | .function header body, before, after =>
      header.name.Declares arena before.next .function ∧
        (∀ ty ∈ header.result, ty.IsBound before.declare) ∧
          ∃ start inner,
            Param.AreBound arena header.params before.declare.enter start ∧
              Stmt.AreBound arena accessors body start inner ∧ after = before.declare.leave inner
  | .assign target _ value _, before, after =>
      target.IsBound before ∧ value.IsBound before ∧ after = before
  | .cond branches _, before, after => Stmt.BranchesBound arena accessors branches before after
  | .loop init condition step body _, before, after =>
      ∃ start middle inner,
        init.IsBound arena accessors before.enter start ∧ condition.IsBound start ∧
          step.IsBound arena accessors start middle ∧ Stmt.AreBound arena accessors body middle inner ∧
            after = before.leave inner
  | .ret value _, before, after => Expr.IsBoundIfAny before value ∧ after = before
  | .call callee args _, before, after =>
      callee.IsBound before ∧ Expr.AreBound before args ∧ after = before
  | .update target _ _, before, after => target.IsBound before ∧ after = before
  | .setIndex container position value _ _, before, after =>
      container.IsBound before ∧ position.IsBound before ∧ value.IsBound before ∧
        after = before

/-- A list of statements leads from one place to another. -/
def Stmt.AreBound
    (arena : Arena)
    (accessors : Accessor -> Prop) : List Stmt -> Place -> Place -> Prop
  | [], before, after => after = before
  | stmt :: rest, before, after =>
      ∃ middle, stmt.IsBound arena accessors before middle ∧ Stmt.AreBound arena accessors rest middle after

/-- The arms of a chain of conditions lead from one place to another. -/
def Stmt.BranchesBound
    (arena : Arena)
    (accessors : Accessor -> Prop) : List (Branch Stmt) -> Place -> Place -> Prop
  | [], before, after => after = before
  | ⟨condition, body, _⟩ :: rest, before, after =>
      Expr.IsBoundIfAny before condition ∧
        ∃ inner, Stmt.AreBound arena accessors body before.enter inner ∧
          Stmt.BranchesBound arena accessors rest (before.leave inner) after

end

end ModularGlsl
