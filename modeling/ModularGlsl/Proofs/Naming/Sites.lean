import ModularGlsl.FinalNames
import ModularGlsl.Proofs.Declarations

/-!
# Declarations of the output

The declarations of the output in their order: of every statement that is
written, the identifier it declares, the parameters of a function, and the
declarations in its body, its arms or its loop.  Each comes with the functions
around it and with whether it has to keep its name.  The step of a loop holds no
declarations of the output; a loop whose step is more than an assignment or an
update cannot be written.
-/

namespace ModularGlsl

/-- A declaration of the output. -/
structure Site where
  /-- The declared variable. -/
  var : VarId
  /-- The name in the source. -/
  name : String
  /-- The functions around the declaration, outermost first. -/
  functions : List VarId
  /-- Whether the name has to be kept. -/
  keeps : Bool
  deriving DecidableEq, Repr

/-- The declaration of a bound identifier. -/
def Ident.sites
    (ident : Ident)
    (functions : List VarId)
    (keeps : Bool) : List Site :=
  ident.var.toList.map fun var => ⟨var, ident.name, functions, keeps⟩

/-- The functions around the body of a function. -/
def FunctionHeader.inside
    (header : FunctionHeader)
    (functions : List VarId) : List VarId :=
  functions ++ header.name.var.toList

/-- The declarations of the parameters of a function. -/
def Param.sites
    (functions : List VarId)
    (params : List Param) : List Site :=
  params.flatMap fun param => param.name.sites functions false

mutual

/-- The declarations of a statement inside given functions. -/
def Stmt.sites (usage : Usage) : Stmt -> List VarId -> Bool -> List Site
  | .function header body, functions, keeps =>
      header.name.sites functions keeps ++
        (Param.sites (header.inside functions) header.params ++
          Stmt.sitesOfBlock usage body (header.inside functions))
  | .cond branches _, functions, _ => Stmt.sitesOfBranches usage branches functions
  | .loop init _ _ body _, functions, _ =>
      init.sites usage functions false ++ Stmt.sitesOfBlock usage body functions
  | .interface decl, functions, keeps => decl.name.sites functions keeps
  | .const decl, functions, keeps => decl.name.sites functions keeps
  | .var decl, functions, keeps => decl.name.sites functions keeps
  | .struct decl, functions, keeps => decl.name.sites functions keeps
  | .accessor decl, functions, keeps => decl.name.sites functions keeps
  | _, _, _ => []

/-- The declarations of a block inside given functions. -/
def Stmt.sitesOfBlock (usage : Usage) : List Stmt -> List VarId -> List Site
  | [], _ => []
  | stmt :: rest, functions =>
      (if stmt.isKept usage false then stmt.sites usage functions false else []) ++
        Stmt.sitesOfBlock usage rest functions

/-- The declarations in the arms of a chain of conditions. -/
def Stmt.sitesOfBranches (usage : Usage) : List (Branch Stmt) -> List VarId -> List Site
  | [], _ => []
  | ⟨_, body, _⟩ :: rest, functions =>
      Stmt.sitesOfBlock usage body functions ++ Stmt.sitesOfBranches usage rest functions

end

/-- Whether a statement of a module keeps the name it declares: variables of the
interface, exported constants, accessors and the main function do. -/
def Stmt.mustKeep (main : Option VarId) : Stmt -> Bool
  | .interface _ | .accessor _ => true
  | .const decl => decl.exported
  | .function header _ => header.name.var.isSome && header.name.var == main
  | _ => false

/-- The declarations of a statement of a module. -/
def Stmt.sitesInModule
    (usage : Usage)
    (main : Option VarId)
    (stmt : Stmt) : List Site :=
  if stmt.isKept usage true then stmt.sites usage [] (stmt.mustKeep main) else []

/-- The declarations of a module. -/
def Module.sites
    (usage : Usage)
    (module : Module) : List Site :=
  module.statements.flatMap (Stmt.sitesInModule usage module.main)

/-- The declarations of the output of a bundle. -/
def Bundle.sites (bundle : Bundle) : List Site :=
  bundle.modules.flatMap (Module.sites bundle.usage)

/-! ## Numbers of declarations -/

/-- The identifiers that a statement itself declares. -/
def Stmt.declaredIdents : Stmt -> List Ident
  | .function header _ => header.name :: header.params.map Param.name
  | stmt => stmt.declared?.toList

/-- The variable of an identifier, with the name that it stands under. -/
def Ident.binding (ident : Ident) : List (VarId × String) :=
  ident.var.toList.map fun var => (var, ident.name)

theorem Ident.mem_binding
    {ident : Ident}
    {var : VarId}
    {name : String} :
    (var, name) ∈ ident.binding ↔ ident.var = some var ∧ ident.name = name := by
  simp [binding]

/-- Declarations of the output are among those of statements, in the same order. -/
def Site.Among
    (sites : List Site)
    (parts : List Stmt) : Prop :=
  (sites.map fun site => (site.var, site.name)).Sublist
    ((parts.flatMap Stmt.declaredIdents).flatMap Ident.binding)

namespace Site.Among

variable {first second : List Site} {early late : List Stmt}

theorem nil : Among [] early :=
  List.nil_sublist _

theorem append
    (isEarly : Among first early)
    (isLate : Among second late) :
    Among (first ++ second) (early ++ late) := by
  rw [Among, List.map_append, List.flatMap_append, List.flatMap_append]
  exact List.Sublist.append isEarly isLate

theorem skip
    (others : List Stmt)
    (isLate : Among second late) :
    Among second (others ++ late) :=
  nil.append isLate

theorem flatMap
    {α : Type}
    {sites : α -> List Site}
    {parts : α -> List Stmt}
    (each : ∀ value, Among (sites value) (parts value))
    (values : List α) :
    Among (values.flatMap sites) (values.flatMap parts) := by
  induction values with
  | nil => exact .nil
  | cons value rest ih => exact (each value).append ih

end Site.Among

theorem Ident.map_sites
    (ident : Ident)
    (functions : List VarId)
    (keeps : Bool) :
    ((ident.sites functions keeps).map fun site => (site.var, site.name)) = ident.binding :=
  List.map_map

mutual

theorem Stmt.among_parts
    (usage : Usage)
    (stmt : Stmt)
    (functions : List VarId)
    (keeps : Bool) :
    Site.Among (stmt.sites usage functions keeps) stmt.parts := by
  cases stmt with
  | interface _ | const _ | var _ | struct _ | accessor _ =>
      simp [Site.Among, Stmt.sites, Stmt.parts, Stmt.declaredIdents, Stmt.declared?, Ident.map_sites]
  | function header body =>
      have own : Site.Among (header.name.sites functions keeps ++
          Param.sites (header.inside functions) header.params) [.function header body] := by
        simp [Site.Among, Param.sites, Stmt.declaredIdents, Ident.map_sites, List.map_flatMap,
          List.flatMap_map]
      rw [Stmt.sites, ← List.append_assoc]
      exact own.append (Stmt.among_partsOfBlock usage body (header.inside functions))
  | cond branches _ =>
      exact (Stmt.among_partsOfBranches usage branches functions).skip [_]
  | loop init _ step body _ =>
      have inBody := (Stmt.among_partsOfBlock usage body functions).skip step.parts
      exact ((init.among_parts usage functions false).append inBody).skip [_]
  | _ => exact .nil

theorem Stmt.among_partsOfBlock
    (usage : Usage)
    (block : List Stmt)
    (functions : List VarId) :
    Site.Among (Stmt.sitesOfBlock usage block functions) (Stmt.partsOfBlock block) := by
  match block with
  | [] => exact .nil
  | stmt :: rest =>
      refine Site.Among.append ?_ (Stmt.among_partsOfBlock usage rest functions)
      split
      · exact stmt.among_parts usage functions false
      · exact .nil

theorem Stmt.among_partsOfBranches
    (usage : Usage)
    (branches : List (Branch Stmt))
    (functions : List VarId) :
    Site.Among (Stmt.sitesOfBranches usage branches functions)
      (Stmt.partsOfBranches branches) := by
  match branches with
  | [] => exact .nil
  | ⟨_, body, _⟩ :: rest =>
      exact (Stmt.among_partsOfBlock usage body functions).append
        (Stmt.among_partsOfBranches usage rest functions)

end

/-- The declarations of modules are among those of their statements. -/
theorem Module.among_parts
    (usage : Usage)
    (modules : List Module) :
    Site.Among (modules.flatMap (Module.sites usage)) (modules.flatMap Module.parts) := by
  refine Site.Among.flatMap (fun module => ?_) modules
  rw [Module.parts, Stmt.partsOfBlock_eq_flatMap]
  refine Site.Among.flatMap (fun stmt => ?_) module.statements
  rw [Stmt.sitesInModule]
  split
  · exact stmt.among_parts usage [] _
  · exact .nil

/-! ## Names of declarations -/

section Bound

variable {arena : Arena} {ident : Ident} {stmt : Stmt}

/-- The variables that a statement declares satisfy a condition with the names that they
are declared under. -/
def Stmt.DeclaredSatisfy
    (condition : VarId -> String -> Prop)
    (stmt : Stmt) : Prop :=
  ∀ ident ∈ stmt.declaredIdents, ∀ var ∈ ident.var, condition var ident.name

theorem Ident.Declares.name_eq_of_mem
    {number var : VarId}
    {decl : DeclKind}
    (declares : ident.Declares arena number decl)
    (bound : var ∈ ident.var) :
    arena.name var = ident.name := by
  obtain rfl : number = var := Option.some.inj (declares.var_eq.symm.trans bound)
  exact declares.name_eq

/-- The variables that a bound statement declares have the names that they are declared
under, those in the steps of loops included. -/
theorem Stmt.IsPlaced.named (placed : stmt.IsPlaced arena Accessor.IsUnbound) :
    stmt.DeclaredSatisfy fun var name => arena.name var = name := by
  intro ident mem var isVar
  cases stmt with
  | accessor decl =>
      obtain ⟨_, _, bound, _⟩ := placed
      obtain rfl := List.mem_singleton.mp mem
      rw [bound.1.name_eq] at isVar
      cases isVar
  | _ =>
      obtain ⟨_, _, declares, _⟩ := placed.declares ident mem
      exact declares.name_eq_of_mem isVar

/-- Accessors of bound modules declare nothing yet. -/
theorem Stmt.IsPlaced.binding_eq (placed : stmt.IsPlaced arena Accessor.IsUnbound) :
    stmt.declaredIdents.flatMap Ident.binding = stmt.declares.flatMap Ident.binding := by
  obtain ⟨_, _, bound, _⟩ := placed
  cases stmt with
  | accessor decl =>
      change [decl.name].flatMap Ident.binding = []
      rw [List.flatMap_singleton, Ident.binding, bound.1.name_eq]
      rfl
  | _ => rfl

/-- Declarations are of different variables in a range, and have the names of these. -/
structure Site.Numbered
    (arena : Arena)
    (low high : VarId)
    (sites : List Site) : Prop where
  /-- No variable is declared twice. -/
  nodup : (sites.map Site.var).Nodup
  /-- The numbers lie between the given ones. -/
  range : ∀ site ∈ sites, low ≤ site.var ∧ site.var < high
  /-- The variables have the names of their declarations. -/
  name_eq : ∀ site ∈ sites, arena.name site.var = site.name

theorem Site.Numbered.append
    {low middle high : VarId}
    {first second : List Site}
    (early : Numbered arena low middle first)
    (late : Numbered arena middle high second)
    (low_le : low ≤ middle)
    (le_high : middle ≤ high) :
    Numbered arena low high (first ++ second) where
  nodup := by
    rw [List.map_append]
    refine List.nodup_append.mpr ⟨early.nodup, late.nodup, ?_⟩
    intro _ isFirst _ isSecond same
    obtain ⟨one, isOne, rfl⟩ := List.mem_map.mp isFirst
    obtain ⟨other, isOther, rfl⟩ := List.mem_map.mp isSecond
    have below := (early.range one isOne).2
    rw [same] at below
    exact Nat.not_lt_of_le (late.range other isOther).1 below
  range := List.forall_mem_append.mpr
    ⟨fun site mem => (early.range site mem).imp_right (Nat.lt_of_lt_of_le · le_high),
      fun site mem => (late.range site mem).imp_left (Nat.le_trans low_le)⟩
  name_eq := List.forall_mem_append.mpr ⟨early.name_eq, late.name_eq⟩

theorem Site.Numbered.perm
    {low high : VarId}
    {first second : List Site}
    (numbered : Numbered arena low high first)
    (permuted : first.Perm second) :
    Numbered arena low high second where
  nodup := (permuted.map Site.var).nodup_iff.mp numbered.nodup
  range site mem := numbered.range site (permuted.symm.subset mem)
  name_eq site mem := numbered.name_eq site (permuted.symm.subset mem)

/-- The variables of bound modules are declared in the order of their numbers. -/
theorem Module.AreBound.numbered
    (usage : Usage)
    {modules : List Module}
    {visible : List VarId}
    {next stop : VarId}
    (bound : Module.AreBound arena Accessor.IsUnbound modules visible next stop)
    (below : ∀ var ∈ visible, var < next) :
    Site.Numbered arena next stop (modules.flatMap (Module.sites usage)) := by
  have placed : ∀ part ∈ modules.flatMap Module.parts, part.IsPlaced arena Accessor.IsUnbound := by
    intro part mem
    obtain ⟨module, isModule, isPart⟩ := List.mem_flatMap.mp mem
    exact bound.of_mem_parts below module isModule part isPart
  have among := Module.among_parts usage modules
  have ascend := bound.ascend
  have declared := among
  rw [Site.Among, List.flatMap_assoc, List.flatMap_congr fun part mem =>
    (placed part mem).binding_eq, ← List.flatMap_assoc] at declared
  rw [show modules.flatMap Module.declarations = (modules.flatMap Module.parts).flatMap
    Stmt.declares from List.flatMap_assoc.symm] at ascend
  refine ⟨?_, fun site mem => ?_, fun site mem => ?_⟩
  · have ordered := List.Pairwise.sublist (R := fun first second => first.1 < second.1) declared ?_
    · exact List.pairwise_map.mpr ((List.pairwise_map.mp ordered).imp Nat.ne_of_lt)
    · refine List.pairwise_flatMap.mpr ⟨fun ident _ => ?_, ascend.ordered.imp ?_⟩
      · rw [Ident.binding]
        cases ident.var <;> simp
      · intro first second less one isOne other isOther
        exact less _ (Ident.mem_binding.mp isOne).1 _ (Ident.mem_binding.mp isOther).1
  · obtain ⟨ident, isIdent, isBinding⟩ :=
      List.mem_flatMap.mp (declared.subset (List.mem_map_of_mem mem))
    obtain ⟨id, var_eq, range⟩ := ascend.range ident isIdent
    cases var_eq.symm.trans (Ident.mem_binding.mp isBinding).1
    exact range
  · obtain ⟨ident, isIdent, isBinding⟩ :=
      List.mem_flatMap.mp (among.subset (List.mem_map_of_mem mem))
    obtain ⟨part, isPart, isDeclared⟩ := List.mem_flatMap.mp isIdent
    obtain ⟨var_eq, name_eq⟩ := Ident.mem_binding.mp isBinding
    exact ((placed part isPart).named ident isDeclared _ var_eq).trans name_eq

end Bound

end ModularGlsl
