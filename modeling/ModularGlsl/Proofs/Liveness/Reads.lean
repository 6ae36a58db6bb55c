import Mathlib.Data.Set.Basic
import ModularGlsl.Proofs.Binding.Program
import ModularGlsl.Proofs.Liveness.Erasure

/-!
# What live code reads

The reads of live code, given which declarations are live.  The initial value of
a constant counts if the constant is exported or live, that of a variable of a
module if the variable is live, and the body of a function if the function is
live; everything else counts where it stands.

In a bound statement the declarations that matter have numbers of the statement
itself, and all that it reads has a number by its end.
-/

namespace ModularGlsl

/-- An identifier denotes a live variable. -/
def Ident.IsLive
    (live : Set VarId)
    (ident : Ident) : Prop :=
  ∃ id ∈ ident.var, id ∈ live

mutual

/-- A statement reads a variable, given which declarations are live. -/
def Stmt.ReadsLive
    (live : Set VarId)
    (var : VarId) : Stmt -> Bool -> Prop
  | .const decl, _ =>
      (decl.exported = true ∨ decl.name.IsLive live) ∧ var ∈ Expr.readsIfAny decl.init
  | .var decl, atTop =>
      (atTop = false ∨ decl.name.IsLive live) ∧ var ∈ Expr.readsIfAny decl.init
  | .function header body, _ => header.name.IsLive live ∧ Stmt.ReadsLiveIn live var body false
  | .assign target _ value _, _ => var ∈ target.targetReads ∨ var ∈ value.reads
  | .cond branches _, _ => Stmt.ReadsLiveInBranches live var branches
  | .loop init condition step body _, _ =>
      init.ReadsLive live var false ∨ var ∈ condition.reads ∨ step.ReadsLive live var false ∨
        Stmt.ReadsLiveIn live var body false
  | .ret value _, _ => var ∈ Expr.readsIfAny value
  | .call callee args _, _ => var ∈ callee.reads ∨ var ∈ Expr.readsOfAll args
  | .update target _ _, _ => var ∈ target.reads
  | .setIndex container position value _ _, _ =>
      var ∈ container.reads ∨ var ∈ position.reads ∨ var ∈ value.reads
  | _, _ => False

/-- A list of statements reads a variable, given which declarations are live. -/
def Stmt.ReadsLiveIn
    (live : Set VarId)
    (var : VarId) : List Stmt -> Bool -> Prop
  | [], _ => False
  | stmt :: rest, atTop =>
      stmt.ReadsLive live var atTop ∨ Stmt.ReadsLiveIn live var rest atTop

/-- The arms of a chain of conditions read a variable, given which declarations
are live. -/
def Stmt.ReadsLiveInBranches
    (live : Set VarId)
    (var : VarId) : List (Branch Stmt) -> Prop
  | [] => False
  | ⟨condition, body, _⟩ :: rest =>
      var ∈ Expr.readsIfAny condition ∨ Stmt.ReadsLiveIn live var body false ∨
        Stmt.ReadsLiveInBranches live var rest

end

/-! ## Reads without accessors -/

section Erased

variable (live : Set VarId) (var : VarId)

/-- Places for accessors do not matter for what an expression reads, if there is one. -/
theorem Expr.readsIfAny_erase (expr : Option Expr) :
    Expr.readsIfAny (expr.map Expr.erase) = Expr.readsIfAny expr := by
  cases expr with
  | none => rfl
  | some expr => exact expr.reads_erase

/-- Places for accessors do not matter for what a target reads. -/
theorem Expr.targetReads_erase (target : Expr) :
    target.erase.targetReads = target.targetReads := by
  cases target with
  | var ident => rfl
  | _ => exact Expr.reads_erase _

mutual

/-- Places for accessors do not matter for what a statement reads. -/
theorem Stmt.readsLive_erase
    (stmt : Stmt)
    (atTop : Bool) :
    stmt.erase.ReadsLive live var atTop ↔ stmt.ReadsLive live var atTop := by
  cases stmt with
  | const _ | var _ | ret _ _ =>
      simp only [Stmt.erase, Stmt.ReadsLive, Expr.readsIfAny_erase]
  | assign _ _ _ _ | update _ _ _ | setIndex _ _ _ _ _ =>
      simp only [Stmt.erase, Stmt.ReadsLive, Expr.targetReads_erase, Expr.reads_erase]
  | call _ _ _ =>
      simp only [Stmt.erase, Stmt.ReadsLive, Expr.reads_erase, Expr.readsOfAll_eraseAll]
  | function _ body => simp only [Stmt.erase, Stmt.ReadsLive, Stmt.readsLiveIn_eraseBlock body]
  | cond branches _ =>
      simp only [Stmt.erase, Stmt.ReadsLive, Stmt.readsLiveInBranches_erase branches]
  | loop init _ step body _ =>
      simp only [Stmt.erase, Stmt.ReadsLive, Expr.reads_erase, init.readsLive_erase,
        step.readsLive_erase, Stmt.readsLiveIn_eraseBlock body]
  | _ => rfl

theorem Stmt.readsLiveIn_eraseBlock
    (block : List Stmt)
    (atTop : Bool) :
    Stmt.ReadsLiveIn live var (Stmt.eraseBlock block) atTop ↔
      Stmt.ReadsLiveIn live var block atTop := by
  match block with
  | [] => rfl
  | stmt :: rest =>
      simp only [Stmt.eraseBlock, Stmt.ReadsLiveIn, stmt.readsLive_erase,
        Stmt.readsLiveIn_eraseBlock rest]

/-- Places for accessors do not matter for what the arms of a chain of conditions read. -/
theorem Stmt.readsLiveInBranches_erase (branches : List (Branch Stmt)) :
    Stmt.ReadsLiveInBranches live var (Stmt.eraseBranches branches) ↔
      Stmt.ReadsLiveInBranches live var branches := by
  match branches with
  | [] => rfl
  | ⟨_, body, _⟩ :: rest =>
      simp only [Stmt.eraseBranches, Stmt.ReadsLiveInBranches, Expr.readsIfAny_erase,
        Stmt.readsLiveIn_eraseBlock body, Stmt.readsLiveInBranches_erase rest]

end

end Erased

/-! ## Reads of bound expressions -/

section Visible

variable {place : Place} {var : VarId}

mutual

theorem Expr.IsBound.mem_visible
    {expr : Expr}
    (bound : expr.IsBound place)
    (mem : var ∈ expr.reads) :
    var ∈ place.visible := by
  match expr with
  | .int _ _ | .float _ _ | .bool _ _ => cases mem
  | .var ident =>
      obtain ⟨id, isVisible, isBound⟩ := bound
      rw [Expr.reads, isBound, Option.toList_some] at mem
      rw [List.mem_singleton.mp mem]
      exact isVisible
  | .member _ _ (some id) _ =>
      rw [List.mem_singleton.mp mem]
      exact bound.2 id rfl
  | .member object _ none _ => exact bound.1.mem_visible mem
  | .index _ _ _ | .getIndex _ _ _ _ | .binary _ _ _ _ =>
      rcases List.mem_append.mp mem with first | second
      · exact bound.1.mem_visible first
      · exact bound.2.mem_visible second
  | .call _ _ _ =>
      rcases List.mem_append.mp mem with inCallee | inArguments
      · exact bound.1.mem_visible inCallee
      · exact Expr.AreBound.mem_visible bound.2 inArguments
  | .unary _ operand _ | .paren operand _ =>
      have operandBound : operand.IsBound place := bound
      exact operandBound.mem_visible mem

theorem Expr.AreBound.mem_visible
    {exprs : List Expr}
    (bound : Expr.AreBound place exprs)
    (mem : var ∈ Expr.readsOfAll exprs) :
    var ∈ place.visible := by
  match exprs with
  | [] => cases mem
  | expr :: rest =>
      rcases List.mem_append.mp mem with first | later
      · exact bound.1.mem_visible first
      · exact Expr.AreBound.mem_visible bound.2 later

end

theorem Expr.IsBoundIfAny.mem_visible
    {expr : Option Expr}
    (bound : Expr.IsBoundIfAny place expr)
    (mem : var ∈ Expr.readsIfAny expr) :
    var ∈ place.visible := by
  cases expr with
  | none => cases mem
  | some expr => exact (bound expr rfl).mem_visible mem

theorem Expr.IsBound.mem_visible_of_target
    {target : Expr}
    (bound : target.IsBound place)
    (mem : var ∈ target.targetReads) :
    var ∈ place.visible := by
  unfold Expr.targetReads at mem
  split at mem
  · cases mem
  · exact bound.mem_visible mem

end Visible

/-! ## Numbers of bound statements -/

/-- The reads of code whose declarations have the numbers of a range: what is read has
a number by its end, and only the declarations in it matter. -/
structure ReadsWithin
    (first last : VarId)
    (reads : Set VarId -> VarId -> Prop) : Prop where
  /-- The range is one. -/
  le : first ≤ last
  /-- What is read has a number. -/
  lt : ∀ {live var}, reads live var -> var < last
  /-- Other declarations do not matter. -/
  mono : ∀ {live other : Set VarId},
    (∀ id ∈ live, first ≤ id -> id < last -> id ∈ other) ->
      ∀ {var}, reads live var -> reads other var

namespace ReadsWithin

variable {first middle last : VarId} {reads others : Set VarId -> VarId -> Prop}

/-- Code without reads. -/
theorem empty (le : first ≤ last) :
    ReadsWithin first last fun _ _ => False :=
  ⟨le, False.elim, fun _ => False.elim⟩

/-- Code stands before other code. -/
theorem append
    (early : ReadsWithin first middle reads)
    (late : ReadsWithin middle last others) :
    ReadsWithin first last fun live var => reads live var ∨ others live var where
  le := Nat.le_trans early.le late.le
  lt isRead := by
    rcases isRead with inEarly | inLate
    · exact Nat.lt_of_lt_of_le (early.lt inEarly) late.le
    · exact late.lt inLate
  mono agree := by
    refine Or.imp (early.mono fun id held above below => ?_)
      (late.mono fun id held above below => ?_)
    · exact agree id held above (Nat.lt_of_lt_of_le below late.le)
    · exact agree id held (Nat.le_trans early.le above) below

/-- Code that counts if the declaration before it does. -/
theorem guard
    {counts : Set VarId -> Prop}
    (within : ReadsWithin (first + 1) last reads)
    (depends : ∀ {live other : Set VarId}, (first ∈ live -> first ∈ other) ->
      counts live -> counts other) :
    ReadsWithin first last fun live var => counts live ∧ reads live var where
  le := Nat.le_of_succ_le within.le
  lt isRead := within.lt isRead.2
  mono agree := by
    refine And.imp (depends fun held => ?_) (within.mono fun id held above below => ?_)
    · exact agree first held (Nat.le_refl _) within.le
    · exact agree id held (Nat.le_of_succ_le above) below

end ReadsWithin

section Numbers

variable {arena : Arena} {accessors : Accessor -> Prop}

theorem Place.InRange.readsWithin
    {place : Place}
    (inRange : place.InRange)
    {vars : List VarId}
    (visible : ∀ {var}, var ∈ vars -> var ∈ place.visible)
    {last : VarId}
    (le : place.next ≤ last) :
    ReadsWithin last last fun _ var => var ∈ vars :=
  ⟨Nat.le_refl _, fun mem => Nat.lt_of_lt_of_le (inRange.visible _ (visible mem)) le,
    fun _ _ => id⟩

theorem Ident.Declares.isLive
    {ident : Ident}
    {number : VarId}
    {decl : DeclKind}
    (declares : ident.Declares arena number decl)
    {live other : Set VarId}
    (agree : number ∈ live -> number ∈ other)
    (isLive : ident.IsLive live) :
    ident.IsLive other := by
  obtain ⟨id, isBound, held⟩ := isLive
  rw [Option.mem_def, declares.var_eq] at isBound
  cases isBound
  exact ⟨number, declares.var_eq, agree held⟩

mutual

theorem Stmt.IsBound.readsWithin
    {stmt : Stmt}
    {before after : Place}
    (bound : stmt.IsBound arena accessors before after)
    (inRange : before.InRange)
    (atTop : Bool) :
    ReadsWithin before.next after.next fun live var => stmt.ReadsLive live var atTop := by
  have visible {vars : List VarId} (mem : ∀ {var}, var ∈ vars -> var ∈ before.visible) :=
    inRange.readsWithin mem (Nat.le_refl _)
  cases stmt with
  | const _ =>
      obtain ⟨_, initBound, declares, rfl⟩ := bound
      rw [Place.next_afterConst]
      exact (inRange.readsWithin initBound.mem_visible (Nat.le_succ _)).guard
        fun agree => Or.imp_right (declares.isLive agree)
  | var _ =>
      obtain ⟨_, initBound, declares, rfl⟩ := bound
      exact (inRange.readsWithin initBound.mem_visible (Nat.le_succ _)).guard
        fun agree => Or.imp_right (declares.isLive agree)
  | function header body =>
      obtain ⟨declares, _, start, inner, paramsBound, bodyBound, rfl⟩ := bound
      have inFunction := (before.leads_declare.inRange inRange).enter
      have params : ReadsWithin (before.next + 1) start.next fun _ _ => False :=
        .empty paramsBound.leads.next_le
      have inBody := params.append
        (Stmt.AreBound.readsWithin bodyBound (paramsBound.leads.inRange inFunction) false)
      simp only [false_or] at inBody
      exact inBody.guard declares.isLive
  | assign _ _ _ _ =>
      obtain ⟨targetBound, valueBound, rfl⟩ := bound
      exact (visible targetBound.mem_visible_of_target).append (visible valueBound.mem_visible)
  | cond branches _ => exact Stmt.BranchesBound.readsWithin bound inRange
  | loop init condition step body _ =>
      obtain ⟨start, middle, inner, initBound, conditionBound, stepBound, bodyBound, rfl⟩ := bound
      have initRange := initBound.leads.inRange inRange.enter
      have stepRange := stepBound.leads.inRange initRange
      have inCondition := initRange.readsWithin conditionBound.mem_visible (Nat.le_refl _)
      have inBody := Stmt.AreBound.readsWithin bodyBound stepRange false
      have inStep := (stepBound.readsWithin initRange false).append inBody
      exact (initBound.readsWithin inRange.enter false).append (inCondition.append inStep)
  | ret _ _ =>
      obtain ⟨valueBound, rfl⟩ := bound
      exact visible valueBound.mem_visible
  | call _ _ _ =>
      obtain ⟨calleeBound, argumentsBound, rfl⟩ := bound
      exact (visible calleeBound.mem_visible).append (visible argumentsBound.mem_visible)
  | update _ _ _ =>
      obtain ⟨targetBound, rfl⟩ := bound
      exact visible targetBound.mem_visible
  | setIndex _ _ _ _ _ =>
      obtain ⟨containerBound, positionBound, valueBound, rfl⟩ := bound
      exact (visible containerBound.mem_visible).append
        ((visible positionBound.mem_visible).append (visible valueBound.mem_visible))
  | _ => exact .empty bound.leads.next_le

theorem Stmt.AreBound.readsWithin
    {block : List Stmt}
    {before after : Place}
    (bound : Stmt.AreBound arena accessors block before after)
    (inRange : before.InRange)
    (atTop : Bool) :
    ReadsWithin before.next after.next fun live var =>
      Stmt.ReadsLiveIn live var block atTop := by
  match block with
  | [] => exact .empty bound.leads.next_le
  | stmt :: rest =>
      obtain ⟨middle, stmtBound, restBound⟩ := bound
      have restRange := stmtBound.leads.inRange inRange
      exact (stmtBound.readsWithin inRange atTop).append
        (Stmt.AreBound.readsWithin restBound restRange atTop)

theorem Stmt.BranchesBound.readsWithin
    {branches : List (Branch Stmt)}
    {before after : Place}
    (bound : Stmt.BranchesBound arena accessors branches before after)
    (inRange : before.InRange) :
    ReadsWithin before.next after.next fun live var =>
      Stmt.ReadsLiveInBranches live var branches := by
  match branches with
  | [] => exact .empty bound.leads.next_le
  | ⟨_, body, _⟩ :: rest =>
      obtain ⟨conditionBound, inner, bodyBound, restBound⟩ := bound
      have restRange := bodyBound.leads.leave.inRange inRange
      have inCondition := inRange.readsWithin conditionBound.mem_visible (Nat.le_refl _)
      have inBody := Stmt.AreBound.readsWithin bodyBound inRange.enter false
      have inRest := Stmt.BranchesBound.readsWithin restBound restRange
      exact inCondition.append (inBody.append inRest)

end

end Numbers

end ModularGlsl
