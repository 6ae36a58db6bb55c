import Mathlib.Data.List.Chain
import ModularGlsl.Proofs.Typing.Formed
import ModularGlsl.Proofs.Typing.Known
import ModularGlsl.Proofs.Typing.OwnParts

/-!
# What typing goes through

Typing changes the arena one type at a time, and the types given before a failure
stay.  Whether it succeeds or fails, every one of the arenas that typing goes through is
well formed, and a type is only given to a variable that has none.  After it succeeds, all
declared variables have types, and so has all that can be named while it goes on: a type is
missing only where the name of one denotes a package or what is being declared, or where a
package is read as a member.
-/

namespace ModularGlsl

/-! ## Single types -/

/-- A variable without a type gets one. -/
def Arena.Gains (before after : Arena) : Prop :=
  ∃ id ty, id < before.size ∧ (before.get id).ty = none ∧ after = before.setTy id ty

/-- Variables from a number on have no types. -/
def Arena.UntypedFrom
    (limit : VarId)
    (arena : Arena) : Prop :=
  ∀ id, limit ≤ id -> (arena.get id).ty = none

/-- Types that are known stay. -/
def Arena.Remembers (before after : Arena) : Prop :=
  ∀ id ty, (before.get id).ty = some ty -> (after.get id).ty = some ty

variable {before final : Arena}

namespace Arena

variable {between after : Arena} {id low middle high limit : VarId}

/-- A new type leaves the others alone. -/
theorem Gains.remembers (gains : before.Gains after) :
    before.Remembers after := by
  obtain ⟨id, ty, _, untyped, rfl⟩ := gains
  intro other known found
  rw [setTy, get_modify, if_neg]
  · exact found
  · rintro ⟨rfl, _⟩
    rw [untyped] at found
    cases found

theorem Remembers.trans
    (early : before.Remembers between)
    (late : between.Remembers after) :
    before.Remembers after :=
  fun id ty found => late id ty (early id ty found)

/-- Along single types, all that is known stays. -/
theorem pairwise_of_gains
    {arenas : List Arena}
    (gains : arenas.IsChain Gains) :
    arenas.Pairwise Remembers := by
  have remembers : arenas.IsChain Remembers := gains.imp fun _ _ => Gains.remembers
  have : Trans Remembers Remembers Remembers := ⟨Remembers.trans⟩
  exact List.isChain_iff_pairwise.mp remembers

end Arena

/-! ## Arenas that are filled -/

/-- Types are given to variables of a range of numbers only. -/
structure Arena.Fills
    (low high : VarId)
    (before after : Arena) : Prop where
  /-- Nothing but types changes. -/
  retypes : before.Retypes after
  /-- Variables outside the range keep their types. -/
  get_eq : ∀ id, id < low ∨ high ≤ id -> after.get id = before.get id

namespace Arena

variable {arena between after : Arena} {id low middle high limit : VarId}

theorem Fills.refl (arena : Arena) : arena.Fills low high arena :=
  ⟨.refl arena, fun _ _ => rfl⟩

/-- A range is filled by steps that fill it. -/
theorem Fills.trans
    (early : before.Fills low high between)
    (late : between.Fills low high after) :
    before.Fills low high after :=
  ⟨early.retypes.trans late.retypes, fun id outside =>
    (late.get_eq id outside).trans (early.get_eq id outside)⟩

theorem Fills.mono
    (fills : before.Fills middle high after)
    {wider : VarId}
    (low_le : low ≤ middle)
    (le_wider : high ≤ wider) :
    before.Fills low wider after :=
  ⟨fills.retypes, fun id outside => fills.get_eq id
    (outside.imp (fun below => Nat.lt_of_lt_of_le below low_le) (Nat.le_trans le_wider))⟩

theorem fills_setTy
    (arena : Arena)
    (id : VarId)
    (ty : Ty) :
    arena.Fills id (id + 1) (arena.setTy id ty) := by
  refine ⟨arena.retypes_setTy id ty, fun other outside => ?_⟩
  rw [setTy, get_modify, if_neg]
  rintro ⟨rfl, _⟩
  exact outside.elim (Nat.lt_irrefl _) (Nat.not_succ_le_self _)

/-- Variables outside a range stay without types while it is filled. -/
theorem UntypedFrom.fills
    (untyped : before.UntypedFrom limit)
    (fills : before.Fills low high after)
    (le_high : limit ≤ high) :
    after.UntypedFrom high := by
  intro id above
  rw [fills.get_eq id (.inr above)]
  exact untyped id (Nat.le_trans le_high above)

theorem get_setTy_self
    (inside : id < arena.size)
    (ty : Ty) :
    (arena.setTy id ty).get id = { arena.get id with ty := some ty } := by
  rw [setTy, get_modify, if_pos ⟨rfl, inside⟩]

/-- A variable is known once it has a type. -/
theorem knownBelow_setTy
    {own : Option VarId}
    (known : ∀ other < limit, id ≠ other -> own ≠ some other -> (final.get other).members = none ->
      ∃ ty, (arena.get other).ty = some ty)
    (inside : id < arena.size)
    (ty : Ty) :
    (arena.setTy id ty).KnownBelow limit own final := by
  intro other below notOwn isValue
  by_cases same : id = other
  · subst same
    exact ⟨ty, by rw [get_setTy_self inside]⟩
  · rw [setTy, get_modify, if_neg fun both => same both.1]
    exact known other below same notOwn isValue

end Arena

/-- The state that a step leaves, whether it succeeds or fails. -/
def leftBy {ε σ α : Type} : EStateM.Result ε σ α -> σ
  | .ok _ state | .error _ state => state

variable {accessors : Accessor -> Prop}

namespace Typing

/-! ## Steps -/

/-- A step succeeds with a result of some kind, or fails with an internal error only
where a condition does not hold. -/
def Ends
    {α : Type}
    (proper : Prop)
    (post : α -> Arena -> Prop) : EStateM.Result Diagnostic Arena α -> Prop
  | .ok value after => post value after
  | .error error _ => error.Blames proper

/-- A step goes through arenas in which the types are those that their variables may
have, one type at a time, and gives types to variables of a range of numbers only. -/
structure Goes
    {α : Type}
    (proper : Prop)
    (post : α -> Arena -> Prop)
    (low high : VarId)
    (before : Arena)
    (visits : List Arena)
    (outcome : EStateM.Result Diagnostic Arena α) : Prop where
  /-- One variable gets its type at a time. -/
  gains : (before :: visits).IsChain Arena.Gains
  /-- All types are those that their variables may have. -/
  formed : ∀ arena ∈ before :: visits, arena.IsFormed
  /-- The last arena is the one that the step leaves. -/
  last_eq : (before :: visits).getLast (List.cons_ne_nil _ _) = leftBy outcome
  /-- Variables outside the range keep their types. -/
  fills : before.Fills low high (leftBy outcome)
  /-- The step ends as it should. -/
  ends : Ends proper post outcome

variable {α β : Type} {proper stronger : Prop} {post : α -> Arena -> Prop}
variable {goal : β -> Arena -> Prop}

variable {next : α -> Check β} {later : α -> Arena -> List Arena}

section Steps

variable {low high : VarId} {visits : List Arena} {outcome : EStateM.Result Diagnostic Arena α}

/-- A step that leaves the arena as it is. -/
theorem Goes.stay
    (formed : before.IsFormed)
    (left_eq : leftBy outcome = before)
    (ends : Ends proper post outcome) :
    Goes proper post low high before [] outcome where
  gains := .singleton _
  formed := by simpa using formed
  last_eq := left_eq.symm
  fills := by
    rw [left_eq]
    exact .refl before
  ends := ends

section

variable (goes : Goes proper post low high before visits outcome)
include goes

theorem Goes.mono (weaken : stronger -> proper) :
    Goes stronger post low high before visits outcome :=
  { goes with
    ends := by
      have ends := goes.ends
      cases outcome with
      | ok => exact ends
      | error => exact Diagnostic.Blames.mono ends weaken }

theorem Goes.widen
    {lower higher : VarId}
    (lower_le : lower ≤ low)
    (le_higher : high ≤ higher) :
    Goes proper post lower higher before visits outcome :=
  { goes with fills := goes.fills.mono lower_le le_higher }

theorem Goes.formed_leftBy :
    (leftBy outcome).IsFormed :=
  goes.formed _ (goes.last_eq ▸ List.getLast_mem _)

/-- Types that are known stay. -/
theorem Goes.remembers : before.Remembers (leftBy outcome) := by
  have isLast : leftBy outcome ∈ before :: visits := goes.last_eq ▸ List.getLast_mem _
  rcases List.mem_cons.mp isLast with same | isVisit
  · rw [same]
    exact fun _ _ found => found
  · exact List.rel_of_pairwise_cons (Arena.pairwise_of_gains goes.gains) isVisit

end

variable {first : Check α}

theorem Goes.bind
    {lowFirst highFirst : VarId}
    (early : Goes proper post lowFirst highFirst before visits (first before))
    (low_le : low ≤ lowFirst)
    (le_high : highFirst ≤ high)
    (late : ∀ value between, post value between -> before.Remembers between ->
      before.Fills lowFirst highFirst between -> between.IsFormed ->
        Goes proper goal low high between (later value between) (next value between)) :
    Goes proper goal low high before (visits ++ following (first before) later)
      ((first >>= next) before) := by
  have widened := early.widen low_le le_high
  change Goes proper goal low high before _ (EStateM.bind first next before)
  unfold EStateM.bind
  cases run : first before with
  | error error between =>
      -- Nothing is visited any more, and what was given before the failure stays.
      rw [run] at widened
      rw [following, List.append_nil]
      exact ⟨widened.gains, widened.formed, widened.last_eq, widened.fills, widened.ends⟩
  | ok value between =>
      rw [run] at early widened
      have goes := late value between early.ends early.remembers early.fills early.formed_leftBy
      have last_eq : (before :: visits).getLast (List.cons_ne_nil _ _) = between := early.last_eq
      obtain ⟨first_gains, later_gains⟩ := List.isChain_cons.mp goes.gains
      constructor
      case gains =>
        rw [following, ← List.cons_append, List.isChain_append]
        refine ⟨early.gains, later_gains, fun _ isLast => ?_⟩
        rw [List.getLast?_eq_some_getLast (List.cons_ne_nil _ _), last_eq] at isLast
        cases isLast
        exact first_gains
      case formed =>
        rw [following, ← List.cons_append]
        intro arena mem
        rcases List.mem_append.mp mem with isEarly | isLate
        · exact early.formed arena isEarly
        · exact goes.formed arena (List.mem_cons_of_mem _ isLate)
      case last_eq =>
        refine Eq.trans ?_ goes.last_eq
        cases visited : later value between with
        | nil => simpa [following, visited] using last_eq
        | cons next rest => simp [following, visited, List.getLast_cons]
      case fills => exact widened.fills.trans goes.fills
      case ends => exact goes.ends

/-- A step after which nothing changes. -/
theorem Goes.last
    (early : Goes proper post low high before visits (first before))
    (keeps : ∀ value between, leftBy (next value between) = between)
    (ends : ∀ value between, before.Remembers between -> post value between ->
      Ends proper goal (next value between)) :
    Goes proper goal low high before visits ((first >>= next) before) := by
  have goes := early.bind (Nat.le_refl low) (Nat.le_refl high)
    fun value between held remembers _ formed =>
      Goes.stay formed (keeps value between) (ends value between remembers held)
  have nothing : following (first before) (fun _ _ => []) = [] := by
    cases first before <;> rfl
  rwa [nothing, List.append_nil] at goes

theorem following_bind
    (first : Check α)
    (next : α -> Check β)
    (later : β -> Arena -> List Arena)
    (arena : Arena) :
    following ((first >>= next) arena) later =
      following (first arena) fun value middle => following (next value middle) later := by
  change following (EStateM.bind first next arena) later = _
  unfold EStateM.bind
  cases first arena <;> rfl

section Use

variable {result : Arena -> Except Diagnostic α}

theorem leftBy_use
    (result : Arena -> Except Diagnostic α)
    (arena : Arena) :
    leftBy (use result arena) = arena := by
  unfold use
  rw [get_bind_apply]
  cases result arena <;> rfl

theorem use_bind
    {value : α}
    (found : result before = .ok value) :
    (use result >>= next) before = next value before := by
  change EStateM.bind (use result) next before = _
  rw [EStateM.bind, use_eq_ok.mpr ⟨found, rfl⟩]

theorem ends_use
    (faults : Faults proper (result before))
    (held : ∀ value, result before = .ok value -> post value before) :
    Ends proper post (use result before) := by
  unfold use
  rw [get_bind_apply]
  cases outcome : result before with
  | ok value => exact held value outcome
  | error error => exact faults error outcome

/-- A step after a use of the arena. -/
theorem Goes.use
    (formed : before.IsFormed)
    (faults : Faults proper (result before))
    (late : ∀ value, result before = .ok value ->
      Goes proper goal low high before (later value before) (next value before)) :
    Goes proper goal low high before (following (Typing.use result before) later)
      ((Typing.use result >>= next) before) := by
  have used : Goes proper (fun value after => before = after ∧ result before = .ok value) low high
      before [] (Typing.use result before) :=
    .stay formed (leftBy_use _ _) (ends_use faults fun _ found => ⟨rfl, found⟩)
  refine used.bind (Nat.le_refl _) (Nat.le_refl _) ?_
  rintro value _ ⟨rfl, found⟩ _ _ _
  exact late value found

/-- A declaration after a use of the arena. -/
theorem Goes.declaration
    (formed : before.IsFormed)
    (faults : Faults proper (result before))
    (late : ∀ value, result before = .ok value ->
      Goes proper goal low high before (declarationVisits (next value before))
        (next value before)) :
    Goes proper goal low high before (declarationVisits ((Typing.use result >>= next) before))
      ((Typing.use result >>= next) before) := by
  rw [declarationVisits, following_bind]
  exact .use formed faults late

end Use

end Steps

/-! ## Declarations -/

/-- Typing is ready for what stands at a place: all that can be named there is known, and
what is declared there or later has no type. -/
structure Ready
    (own : Option VarId)
    (final : Arena)
    (place : Place)
    (arena : Arena) : Prop extends Knows own final place arena where
  /-- All types are those that their variables may have. -/
  formed : arena.IsFormed
  /-- Later variables have no types. -/
  untyped : arena.UntypedFrom place.next

variable {own : Option VarId} {first start : Place} {ident : Ident} {kind : DeclKind}
variable {ty declared : Ty}

section Declarations

/-- A declared variable gets a type that it may have. -/
theorem goes_setType
    (formed : before.IsFormed)
    (retypes : before.Retypes final)
    {id limit : VarId}
    (unset : (before.get id).ty = none)
    (declares : ident.Declares final id kind)
    (suits : ty.Suits (before.setTy id ty) id)
    (known : ∀ other < limit, id ≠ other -> own ≠ some other ->
      (final.get other).members = none -> ∃ ty, (before.get other).ty = some ty) :
    Goes proper (fun _ after => after.KnownBelow limit own final) id (id + 1) before
      (declarationVisits (setType ident ty before)) (setType ident ty before) := by
  have inside : id < before.size := retypes.size_eq ▸ declares.lt_size
  have members_eq := (retypes.members_eq _).symm.trans declares.members_eq
  have run : setType ident ty before = .ok () (before.setTy id ty) :=
    setType_eq_ok.mpr ⟨id, declares.var_eq, rfl⟩
  rw [run]
  exact
    { gains := .cons_cons ⟨id, ty, inside, unset, rfl⟩ (.singleton _)
      formed := by
        refine List.forall_mem_cons.mpr ⟨formed, ?_⟩
        exact List.forall_mem_singleton.mpr (formed.setTy members_eq unset suits)
      last_eq := rfl
      fills := before.fills_setTy id ty
      ends := Arena.knownBelow_setTy known inside ty }

section Ready

variable (ready : Ready own final first before)
include ready

theorem Ready.enter : Ready own final first.enter before :=
  { ready with inRange := ready.inRange.enter }

theorem Ready.unset : (before.get first.next).ty = none :=
  ready.untyped _ (Nat.le_refl _)

theorem Ready.decl_eq
    (declares : ident.Declares final first.next kind) :
    (before.get first.next).decl = kind :=
  (ready.retypes.decl_eq _).symm.trans declares.decl_eq

/-- The next variable gets a type that it may have. -/
theorem Ready.setType
    (declares : ident.Declares final first.next kind)
    (suits : ty.Suits (before.setTy first.next ty) first.next) :
    Goes proper (fun _ after => after.KnownBelow (first.next + 1) own final) first.next
      (first.next + 1) before (declarationVisits (setType ident ty before))
      (setType ident ty before) := by
  refine goes_setType ready.formed ready.retypes ready.unset declares suits ?_
  exact fun other below different =>
    ready.known other (Nat.lt_of_le_of_ne (Nat.le_of_lt_succ below) different.symm)

/-- The type that a declaration asks for may be passed in, and stored where samplers are
not allowed. -/
theorem Ready.isInput
    {ty : Ident}
    (bound : ty.IsBound first)
    {length : Option Nat}
    {allowSampler : Bool}
    {span : Span}
    (found : declaredType before ty length allowSampler span = .ok declared) :
    declared.IsInput (before.StoresBelow first.next) ∧
      (allowSampler = false -> declared.IsPlain (before.StoresBelow first.next)) := by
  obtain ⟨id, descriptor, proto, var_eq, known, describes, allowed, shape⟩ :=
    exists_proto_of_declaredType found
  obtain ⟨asked, isVisible, isAsked⟩ := bound
  obtain rfl : id = asked := Option.some.inj (var_eq.symm.trans isAsked)
  have suits := ready.formed.suits id descriptor known
  rw [suits.bare_eq] at describes
  subst describes
  obtain ⟨isInput, isElement⟩ := suits.proto
  replace isInput : proto.IsInput (before.StoresBelow first.next) :=
    isInput.mono fun _ held =>
      ⟨held.1, Nat.lt_of_lt_of_le held.2 (ready.inRange.visible id isVisible)⟩
  rw [isInput.bare_eq] at shape
  cases isInput with
  | plain isPlain =>
      have declaredPlain : declared.IsPlain (before.StoresBelow first.next) := by
        rcases shape with ⟨_, rfl⟩ | ⟨count, _, low, rfl⟩
        · exact isPlain
        · exact .array isElement isPlain low
      exact ⟨.plain declaredPlain, fun _ => declaredPlain⟩
  | sampler kind =>
      refine ⟨?_, fun refused => absurd (allowed rfl) (by simp [refused])⟩
      rcases shape with ⟨_, rfl⟩ | ⟨count, _, low, rfl⟩
      · exact .sampler kind
      · exact .samplers kind low
  | samplers => cases isElement

/-- A struct stays known when the next variable gets its type. -/
theorem Ready.storesBelow
    {layout : Layout Ty}
    (held : before.StoresBelow first.next layout)
    (given : Ty) :
    (before.setTy first.next given).StoresBelow (first.next + 1) layout :=
  ⟨held.1.setTy ready.unset given, Nat.lt_succ_of_lt held.2⟩

/-- A type that may be stored suits every variable. -/
theorem Ready.suits_of_isPlain
    (isPlain : ty.IsPlain (before.StoresBelow first.next))
    (given : Ty) :
    ty.Suits (before.setTy first.next given) first.next :=
  .plain (isPlain.mono fun _ held => ready.storesBelow held given)

/-- A type that may be passed in suits uniforms and parameters. -/
theorem Ready.suits_of_isInput
    (isInput : (before.get first.next).decl = .uniform ∨ (before.get first.next).decl = .param)
    (fits : ty.IsInput (before.StoresBelow first.next))
    (given : Ty) :
    ty.Suits (before.setTy first.next given) first.next := by
  refine .input ?_ (fits.mono fun _ held => ready.storesBelow held given)
  rw [(before.retypes_setTy first.next given).decl_eq]
  exact isInput

end Ready

/-- A step that leads from one place to another gives types to what is declared between
them. -/
abbrev Settles
    (proper : Prop)
    (final : Arena)
    (first last : Place)
    (before : Arena)
    (visits : List Arena)
    (outcome : EStateM.Result Diagnostic Arena α) : Prop :=
  Goes proper (fun _ after => after.KnownBelow last.next none final) first.next last.next before
    visits outcome

section Declarations

variable (ready : Ready none final first before)
include ready

theorem settles_checkInterface
    {decl : InterfaceDecl}
    (bound : decl.ty.IsBound first)
    (declares : decl.name.Declares final first.next (Binding.declKind decl.kind)) :
    Settles (decl.ty.MayNameType final none) final first first.declare before
      (declarationVisits (checkInterface decl before)) (checkInterface decl before) := by
  refine .declaration ready.formed (faults_declaredType ready.toKnows bound _ _ _)
    fun ty found => ?_
  obtain ⟨isInput, isPlain⟩ := ready.isInput bound found
  split
  · exact .stay ready.formed rfl (by rintro _ ⟨⟩)
  · refine ready.setType declares ?_
    cases isUniform : decl.kind == .uniform with
    | false => exact ready.suits_of_isPlain (isPlain isUniform) ty
    | true =>
        refine ready.suits_of_isInput (.inl ?_) isInput ty
        rw [ready.decl_eq declares, eq_of_beq isUniform]
        rfl

theorem suits_constType
    {exported : Bool}
    (declares : ident.Declares final first.next (.const exported))
    (isPlain : declared.IsPlain (before.StoresBelow first.next))
    (ty given : Ty) :
    (constType declared ty).Suits (before.setTy first.next given) first.next := by
  unfold constType
  split
  · exact .known (((before.retypes_setTy _ _).decl_eq _).trans (ready.decl_eq declares)) _
  · exact ready.suits_of_isPlain isPlain given

/-- The initial value of a declared variable. -/
theorem faults_initialType
    {init : Expr}
    (bound : init.IsBound first)
    (declared : Ty) :
    Faults (init.ReadsValues final) (initialType before declared init) :=
  .bind (Expr.faults_typeOf ready.toKnows init bound) fun _ _ => .bind (.typing _) fun _ _ => .ok _

theorem settles_checkConst
    {decl : ConstDecl}
    (bound : decl.ty.IsBound first)
    (initBound : Expr.IsBoundIfAny first decl.init)
    (declares : decl.name.Declares final first.next (.const decl.exported)) :
    Settles (decl.ty.MayNameType final none ∧ ∀ init ∈ decl.init, init.ReadsValues final) final
      first first.declare before (declarationVisits (checkConst decl before))
      (checkConst decl before) := by
  refine .declaration ready.formed
    ((faults_declaredType ready.toKnows bound _ _ _).mono And.left) fun declared found => ?_
  have isPlain := (ready.isInput bound found).2 rfl
  cases isInit : decl.init with
  | none => exact ready.setType declares (ready.suits_of_isPlain isPlain declared)
  | some init =>
      refine .declaration ready.formed
        ((faults_initialType ready (initBound init isInit) declared).mono fun proper =>
          proper.2 init rfl) fun ty _ => ?_
      exact ready.setType declares (suits_constType ready declares isPlain ty _)

theorem settles_checkVar
    {decl : VarDecl}
    (bound : decl.ty.IsBound first)
    (initBound : Expr.IsBoundIfAny first decl.init)
    (declares : decl.name.Declares final first.next kind) :
    Settles (decl.ty.MayNameType final none ∧ ∀ init ∈ decl.init, init.ReadsValues final) final
      first first.declare before (declarationVisits (checkVar decl before))
      (checkVar decl before) := by
  refine .declaration ready.formed
    ((faults_declaredType ready.toKnows bound _ _ _).mono And.left) fun declared found => ?_
  have suits := ready.suits_of_isPlain ((ready.isInput bound found).2 rfl) declared
  cases isInit : decl.init with
  | none => exact ready.setType declares suits
  | some init =>
      refine .declaration ready.formed
        ((faults_initialType ready (initBound init isInit) declared).mono fun proper =>
          proper.2 init rfl) fun _ _ => ?_
      exact ready.setType declares suits

/-- The fields of a struct may be stored. -/
theorem isPlain_of_fieldsOf
    {members : List StructMember}
    (bound : ∀ member ∈ members, member.ty.IsBound first)
    {fields : List (Field Ty)}
    (found : fieldsOf before members = .ok fields) :
    ∀ field ∈ fields, field.ty.IsPlain (before.StoresBelow first.next) := by
  induction members generalizing fields with
  | nil =>
      cases found
      simp
  | cons member rest ih =>
      obtain ⟨ty, declared, found⟩ := except_bind_eq_ok.mp found
      obtain ⟨others, othersFound, found⟩ := except_bind_eq_ok.mp found
      cases found
      obtain ⟨ownBound, restBound⟩ := List.forall_mem_cons.mp bound
      exact List.forall_mem_cons.mpr
        ⟨(ready.isInput ownBound declared).2 rfl, ih restBound othersFound⟩

omit ready in
theorem nodup_of_repeated
    {τ : Type}
    {earlier fields : List (Field τ)}
    (unique : Layout.repeated? earlier fields = none) :
    (fields.map Field.name).Nodup ∧
      ∀ field ∈ fields, ∀ other ∈ earlier, other.name ≠ field.name := by
  induction fields generalizing earlier with
  | nil => simp
  | cons field rest ih =>
      unfold Layout.repeated? at unique
      split at unique
      · cases unique
      · next absent =>
          obtain ⟨nodup, apart⟩ := ih unique
          have isNew (other : Field τ) (mem : other ∈ earlier) : other.name ≠ field.name := by
            simpa using List.find?_eq_none.mp absent other mem
          refine ⟨List.nodup_cons.mpr ⟨?_, nodup⟩, List.forall_mem_cons.mpr ⟨isNew, ?_⟩⟩
          · intro mem
            obtain ⟨other, isLater, same⟩ := List.mem_map.mp mem
            exact apart other isLater field List.mem_cons_self same.symm
          · exact fun later isLater other mem =>
              apart later isLater other (List.mem_cons_of_mem _ mem)

theorem settles_checkStruct
    {decl : StructDecl}
    (bound : ∀ member ∈ decl.members, member.ty.IsBound first)
    (declares : decl.name.Declares final first.next .struct) :
    Settles (∀ ty ∈ decl.members.map (·.ty), ty.MayNameType final none) final first first.declare
      before (declarationVisits (checkStruct decl before)) (checkStruct decl before) := by
  refine .declaration ready.formed (.bind (faults_fieldsOf ready.toKnows bound) fun _ _ => ?_)
    fun layout found => ready.setType declares ?_
  · rw [Ident.bound_eq_ok.mpr declares.var_eq]
    exact .bind (.ok _) fun _ _ => .typing _
  obtain ⟨fields, fieldsFound, found⟩ := except_bind_eq_ok.mp found
  obtain ⟨owner, isOwner, found⟩ := except_bind_eq_ok.mp found
  obtain rfl : first.next = owner :=
    Option.some.inj (declares.var_eq.symm.trans (Ident.bound_eq_ok.mp isOwner))
  unfold Layout.ofFields at found
  split at found
  · cases found
  · next unique =>
      cases found
      have retypes (ty : Ty) := (before.retypes_setTy first.next ty).symm.trans ready.retypes
      refine .struct (((retypes _).decl_eq _).symm.trans declares.decl_eq) rfl
        (declares.name_eq.symm.trans ((retypes _).name_eq _))
        (.struct ⟨⟨?_, Nat.lt_succ_self _⟩, (nodup_of_repeated unique).1⟩ fun field mem => ?_)
      · rw [Arena.Stores, Arena.get_setTy_self (ready.retypes.size_eq ▸ declares.lt_size)]
      · exact (isPlain_of_fieldsOf ready bound fieldsFound field mem).mono
          fun _ held => ready.storesBelow held _

end Declarations

theorem checkParams_cons
    (param : Param)
    (rest : List Param) :
    checkParams (param :: rest) = do
      let tys ← checkParams [param]
      let others ← checkParams rest
      return tys ++ others := by
  simp [checkParams]

/-- A parameter has a type that may be passed in. -/
theorem goes_checkParam
    (ready : Ready own final first before)
    {param : Param}
    (bound : param.ty.IsBound first)
    (declares : param.name.Declares final first.next .param) :
    Goes (param.ty.MayNameType final own)
      (fun tys after => after.KnownBelow (first.next + 1) own final ∧
        ∀ ty ∈ tys, ty.IsInput after.Stores)
      first.next (first.next + 1) before (declarationVisits (checkParams [param] before))
      (checkParams [param] before) := by
  have shape : checkParams [param] =
      use (declaredType · param.ty param.length true param.span) >>= fun ty =>
        setType param.name ty >>= fun _ => pure [ty] := by
    simp [checkParams]
  refine .declaration ready.formed (faults_declaredType ready.toKnows bound _ _ _)
    fun ty found => ?_
  have fits := (ready.isInput bound found).1
  have suits := ready.suits_of_isInput (.inr (ready.decl_eq declares)) fits ty
  rw [declarationVisits, following_bind]
  refine (ready.setType declares suits).last (fun _ _ => rfl)
    fun _ _ remembers known => ⟨known, ?_⟩
  rw [List.forall_mem_singleton]
  exact fits.mono fun _ held => remembers _ _ held.1

theorem goes_checkParams
    {params : List Param}
    (ready : Ready own final first before)
    (bound : Param.AreBound final params first start) :
    Goes (∀ ty ∈ params.map (·.ty), ty.MayNameType final own)
      (fun tys after => after.KnownBelow start.next own final ∧ ∀ ty ∈ tys, ty.IsInput after.Stores)
      first.next start.next before (paramVisits params before) (checkParams params before) := by
  induction params generalizing before first with
  | nil =>
      obtain rfl : start = first := bound
      exact .stay ready.formed rfl ⟨ready.known, by simp⟩
  | cons param rest ih =>
      obtain ⟨tyBound, declares, restBound⟩ := bound
      rw [checkParams_cons]
      refine ((goes_checkParam ready tyBound declares).mono ?_).bind (Nat.le_refl _)
        restBound.leads.next_le ?_
      · exact fun mayName => mayName _ List.mem_cons_self
      rintro tys between ⟨known, fits⟩ _ fills formed
      have next : Ready own final first.declare between :=
        { inRange := first.leads_declare.inRange ready.inRange
          known
          retypes := fills.retypes.symm.trans ready.retypes
          formed
          untyped := ready.untyped.fills fills (Nat.le_succ _) }
      refine (((ih next restBound).mono ?_).widen (Nat.le_succ _) (Nat.le_refl _)).last
        (fun _ _ => rfl) ?_
      · exact fun mayName ty mem => mayName ty (List.mem_cons_of_mem _ mem)
      rintro others after remembers ⟨known, othersFit⟩
      refine ⟨known, List.forall_mem_append.mpr ⟨fun ty mem => ?_, othersFit⟩⟩
      exact (fits ty mem).mono fun _ stores => remembers _ _ stores

variable {header : FunctionHeader}

/-- The header of a function is declared after its parameters. -/
theorem settles_checkHeader
    (ready : Ready none final first before)
    (declares : header.name.Declares final first.next .function)
    (resultBound : ∀ ty ∈ header.result, ty.IsBound first.declare)
    (bound : Param.AreBound final header.params first.declare.enter start) :
    Settles
      (∀ ty ∈ header.result.toList ++ header.params.map (·.ty),
        ty.MayNameType final (some first.next))
      final first start before (headerVisits header before) (checkHeader header before) := by
  have start_le : first.next + 1 ≤ start.next := bound.leads.next_le
  -- The function itself is not yet known, but it can be named.
  have declared : Ready (some first.next) final first.declare before :=
    { ready with
      inRange := first.leads_declare.inRange ready.inRange
      known := fun id below other => ready.known id
        (Nat.lt_of_le_of_ne (Nat.le_of_lt_succ below) fun same => other (same ▸ rfl)) (by simp)
      untyped := fun id above => ready.untyped id (Nat.le_of_succ_le above) }
  refine .use ready.formed ((faults_resultType declared.toKnows resultBound).mono ?_)
    fun result found => ?_
  · exact fun mayName ty isResult =>
      mayName ty (List.mem_append_left _ (Option.mem_toList.mpr isResult))
  have resultPlain : ∀ ty ∈ result, ty.IsPlain (before.StoresBelow (first.next + 1)) := by
    unfold resultType at found
    split at found
    · next ident isResult =>
        obtain ⟨ty, asked, found⟩ := except_bind_eq_ok.mp found
        cases found
        rintro _ ⟨⟩
        exact (declared.isInput (resultBound ident isResult) asked).2 rfl
    · cases found
      simp
  have visits_eq := following_bind (checkParams header.params)
    (fun params => do
      let id ← use fun _ => header.name.bound
      setType header.name (.function ⟨id, header.name.name, some id, [⟨params, result⟩]⟩)
      return result) (fun _ after => [after]) before
  rw [declarationVisits, checkHeader, use_bind found, visits_eq]
  refine ((goes_checkParams declared.enter bound).mono ?_).bind (Nat.le_succ _) (Nat.le_refl _) ?_
  · exact fun mayName ty mem => mayName ty (List.mem_append_right _ mem)
  rintro tys between ⟨known, fits⟩ remembers fills formed
  have retypes := fills.retypes.symm.trans ready.retypes
  have unset : (between.get first.next).ty = none := by
    rw [fills.get_eq _ (.inl (Nat.lt_succ_self _))]
    exact ready.unset
  rw [Ident.bound_eq_ok.mpr declares.var_eq]
  refine .declaration formed (.ok _) ?_
  rintro _ ⟨⟩
  have given (ty : Ty) := (between.retypes_setTy first.next ty).symm.trans retypes
  rw [declarationVisits, following_bind]
  refine ((goes_setType formed retypes unset declares ?_ fun other below different _ isValue => ?_
    ).widen (Nat.le_refl _) start_le).last (fun _ _ => rfl) fun _ _ _ known => known
  · refine .function (((given _).decl_eq _).symm.trans declares.decl_eq) rfl rfl
      (fun param mem => ?_) fun ty mem => ?_
    · exact (fits param mem).mono fun _ stores => stores.setTy unset _
    · exact (resultPlain ty mem).mono fun _ held =>
        ⟨Arena.Stores.setTy (remembers _ _ held.1) unset _, held.2⟩
  · exact known other below (fun same => different (Option.some.inj same)) isValue

end Declarations

/-! ## Statements -/

/-- A statement that declares nothing is only checked. -/
theorem settles_use
    (ready : Ready none final first before)
    {result : Arena -> Except Diagnostic α}
    (faults : Faults proper (result before)) :
    Settles proper final first first before [] (use result before) :=
  .stay ready.formed (leftBy_use _ _) (ends_use faults fun _ _ => ready.known)

/-- Parts in turn settle their variables. -/
theorem Ready.step
    (ready : Ready none final first before)
    {middle stop : Place}
    {visits : List Arena}
    {step : Check α}
    (early : Settles proper final first middle before visits (step before))
    (inRange : middle.InRange)
    (le_middle : first.next ≤ middle.next)
    (le_stop : middle.next ≤ stop.next)
    (late : ∀ value between, Ready none final middle between ->
      Settles proper final middle stop between (later value between) (next value between)) :
    Settles proper final first stop before (visits ++ following (step before) later)
      ((step >>= next) before) := by
  refine early.bind (Nat.le_refl _) le_stop fun value between known _ fills formed => ?_
  refine (late value between ?_).widen le_middle (Nat.le_refl _)
  exact
    { inRange
      known
      retypes := fills.retypes.symm.trans ready.retypes
      formed
      untyped := ready.untyped.fills fills le_middle }

/-- Typing a statement goes through well-formed arenas and settles the variables that it
declares.  It fails with an internal error only where the statement names a package or itself
as a type, or reads a package as a member. -/
def SettlesStmt
    (final : Arena)
    (accessors : Accessor -> Prop)
    (result : Option Ty)
    (stmt : Stmt) : Prop :=
  ∀ {before first last}, Ready none final first before ->
    stmt.IsBound final accessors first last ->
      Settles (stmt.Every (Expr.ReadsValues final) (Stmt.NamesTypes final)) final first last before
        (stmtVisits result stmt before) (checkStmt result stmt before)

/-- Typing statements settles the variables that they declare. -/
def SettlesBlock
    (final : Arena)
    (accessors : Accessor -> Prop)
    (result : Option Ty)
    (block : List Stmt) : Prop :=
  ∀ {before first last}, Ready none final first before ->
    Stmt.AreBound final accessors block first last ->
      Settles (Stmt.EveryIn (Expr.ReadsValues final) (Stmt.NamesTypes final) block) final first
        last before (blockVisits result block before) (checkBlock result block before)

section Forms

variable {body : List Stmt}

theorem settles_function
    (settlesBody : ∀ own, SettlesBlock final accessors own body)
    (result : Option Ty)
    (header : FunctionHeader) :
    SettlesStmt final accessors result (.function header body) := by
  intro before first _ ready bound
  obtain ⟨declares, resultBound, start, inner, paramsBound, bodyBound, rfl⟩ := bound
  have start_le : first.next + 1 ≤ start.next := paramsBound.leads.next_le
  have own_eq : (Stmt.function header body).declared?.bind Ident.var = some first.next :=
    declares.var_eq
  refine ready.step ((settles_checkHeader ready declares resultBound paramsBound).mono ?_)
    (paramsBound.leads.inRange (first.leads_declare.inRange ready.inRange).enter)
    (Nat.le_of_succ_le start_le) bodyBound.leads.next_le fun own between given => ?_
  · exact fun proper ty mem => own_eq ▸ proper.1 ty mem
  · refine ((settlesBody own given bodyBound).mono And.right).last (fun _ _ => leftBy_use _ _)
      fun _ after _ known => ?_
    exact ends_use (faults_checkCoverage own header body) fun _ _ => known

theorem settles_loop
    {result : Option Ty}
    {init step : Stmt}
    (settlesInit : SettlesStmt final accessors result init)
    (settlesStep : SettlesStmt final accessors result step)
    (settlesBody : SettlesBlock final accessors result body)
    (condition : Expr)
    (span : Span) :
    SettlesStmt final accessors result (.loop init condition step body span) := by
  intro before first _ ready bound
  obtain ⟨start, middle, inner, initBound, conditionBound, stepBound, bodyBound, rfl⟩ := bound
  have startRange := initBound.leads.inRange ready.inRange.enter
  refine ready.enter.step ((settlesInit ready.enter initBound).mono fun proper => proper.2.1)
    startRange initBound.leads.next_le (stepBound.leads.trans bodyBound.leads).next_le
    fun _ afterInit initReady => ?_
  refine .use initReady.formed
    ((faults_checkCondition initReady.toKnows conditionBound).mono fun proper => proper.2.2.1)
    fun _ _ => ?_
  refine initReady.step ((settlesStep initReady stepBound).mono fun proper => proper.2.2.2.1)
    (stepBound.leads.inRange startRange) stepBound.leads.next_le bodyBound.leads.next_le
    fun _ afterStep stepReady => ?_
  exact (settlesBody stepReady bodyBound).mono fun proper => proper.2.2.2.2

end Forms

mutual

theorem settles_checkStmt
    (result : Option Ty)
    (stmt : Stmt) :
    SettlesStmt final accessors result stmt := by
  intro before first last ready bound
  have mayName {ty : Ident} (proper : stmt.NamesTypes final) (mem : ty ∈ stmt.typeNames) :
      ty.MayNameType final none :=
    fun id isBound => ⟨(proper ty mem id isBound).1, by simp⟩
  cases stmt with
  | version _ _ _ | extension _ _ _ =>
      obtain rfl : last = first := bound
      exact .stay ready.formed rfl ready.known
  | accessor _ | importName _ _ _ _ =>
      obtain ⟨_, rfl⟩ := bound
      exact .stay ready.formed rfl ready.known
  | reexport _ _ _ _ =>
      obtain ⟨_, _, rfl⟩ := bound
      exact .stay ready.formed rfl ready.known
  | exportName _ _ _ =>
      obtain ⟨_, _, _, rfl⟩ := bound
      exact .stay ready.formed rfl ready.known
  | importAll _ _ _ =>
      obtain ⟨declares, rfl⟩ := bound
      refine .stay ready.formed rfl fun id below other isValue => ready.known id ?_ other isValue
      refine Nat.lt_of_le_of_ne (Nat.le_of_lt_succ below) fun same => ?_
      exact declares.members_ne (same ▸ isValue)
  | precision _ ty span =>
      obtain ⟨tyBound, rfl⟩ := bound
      exact settles_use ready ((faults_checkPrecision ready.toKnows tyBound span).mono fun proper =>
        mayName proper.1 List.mem_cons_self)
  | interface decl =>
      obtain ⟨tyBound, declares, rfl⟩ := bound
      exact (settles_checkInterface ready tyBound declares).mono fun proper =>
        mayName proper.1 List.mem_cons_self
  | const decl =>
      obtain ⟨tyBound, initBound, declares, rfl⟩ := bound
      rw [Settles, Place.next_afterConst]
      exact (settles_checkConst ready tyBound initBound declares).mono fun proper =>
        ⟨mayName proper.1 List.mem_cons_self, proper.2⟩
  | var decl =>
      obtain ⟨tyBound, initBound, declares, rfl⟩ := bound
      exact (settles_checkVar ready tyBound initBound declares).mono fun proper =>
        ⟨mayName proper.1 List.mem_cons_self, proper.2⟩
  | struct decl =>
      obtain ⟨membersBound, declares, rfl⟩ := bound
      exact (settles_checkStruct ready membersBound declares).mono fun proper _ mem =>
        mayName proper.1 mem
  | function header body =>
      exact settles_function (settles_checkBlock · body) result header ready bound
  | assign target op value span =>
      obtain ⟨targetBound, valueBound, rfl⟩ := bound
      exact settles_use ready
        ((faults_checkAssign ready.toKnows targetBound valueBound op span).mono And.right)
  | cond branches _ =>
      exact (settles_checkBranches result branches ready bound).mono And.right
  | loop init condition step body span =>
      exact settles_loop (settles_checkStmt result init) (settles_checkStmt result step)
        (settles_checkBlock result body) condition span ready bound
  | ret value span =>
      obtain ⟨valueBound, rfl⟩ := bound
      exact settles_use ready
        ((faults_checkReturn ready.toKnows valueBound result span).mono And.right)
  | call callee args span =>
      obtain ⟨calleeBound, argumentsBound, rfl⟩ := bound
      exact settles_use ready
        ((faults_checkCall ready.toKnows calleeBound argumentsBound span).mono And.right)
  | update target op span =>
      obtain ⟨targetBound, rfl⟩ := bound
      refine settles_use ready (.bind ?_ fun _ _ => .typing _)
      exact (Expr.faults_targetType ready.toKnows target targetBound).mono And.right
  | setIndex container position value _ span =>
      obtain ⟨containerBound, positionBound, valueBound, rfl⟩ := bound
      exact settles_use ready ((faults_checkSetIndex ready.toKnows containerBound positionBound
        valueBound span).mono And.right)

theorem settles_checkBlock
    (result : Option Ty)
    (block : List Stmt) :
    SettlesBlock final accessors result block := by
  intro before first last ready bound
  match block with
  | [] =>
      obtain rfl : last = first := bound
      rw [checkBlock, blockVisits]
      exact .stay ready.formed rfl ready.known
  | stmt :: rest =>
      obtain ⟨middle, stmtBound, restBound⟩ := bound
      rw [checkBlock, blockVisits]
      refine ready.step ((settles_checkStmt result stmt ready stmtBound).mono And.left)
        (stmtBound.leads.inRange ready.inRange) stmtBound.leads.next_le restBound.leads.next_le ?_
      exact fun _ _ given => (settles_checkBlock result rest given restBound).mono And.right

theorem settles_checkBranches
    (result : Option Ty)
    (branches : List (Branch Stmt))
    {before : Arena}
    {first last : Place}
    (ready : Ready none final first before)
    (bound : Stmt.BranchesBound final accessors branches first last) :
    Settles (Stmt.EveryInBranches (Expr.ReadsValues final) (Stmt.NamesTypes final) branches) final
      first last before (branchVisits result branches before)
      (checkBranches result branches before) := by
  match branches with
  | [] =>
      obtain rfl : last = first := bound
      rw [checkBranches, branchVisits]
      exact .stay ready.formed rfl ready.known
  | ⟨_, body, _⟩ :: rest =>
      obtain ⟨condBound, inner, bodyBound, restBound⟩ := bound
      rw [checkBranches, branchVisits]
      refine .use ready.formed
        ((faults_checkOptionalCondition ready.toKnows condBound).mono And.left) fun _ _ => ?_
      have leaves := bodyBound.leads.leave
      refine ready.step ?_ (leaves.inRange ready.inRange) leaves.next_le restBound.leads.next_le
        fun _ _ given => ?_
      · exact (settles_checkBlock result body ready.enter bodyBound).mono fun proper => proper.2.1
      · exact (settles_checkBranches result rest given restBound).mono fun proper => proper.2.2

end

end Typing

/-! ## Modules -/

namespace Bundle

open Typing

/-- Typing modules goes through well-formed arenas, and fails with an internal error only where
a module is improper. -/
theorem settles_checkModules
    {modules : List Module}
    {visible : List VarId}
    {next stop : VarId}
    (ready : Ready none final (Place.ofModule visible next) before)
    (bound : Module.AreBound final accessors modules visible next stop) :
    Goes (∀ module ∈ modules, module.IsProper final)
      (fun _ after => after.KnownBelow stop none final) next stop before
      (typingVisits modules before) (checkModules modules before) := by
  induction modules generalizing before visible next with
  | nil =>
      obtain rfl : stop = next := bound
      exact .stay ready.formed rfl ready.known
  | cons module rest ih =>
      obtain ⟨last, own, others⟩ := bound
      have leads := own.statements.leads
      have block := settles_checkBlock none module.statements ready own.statements
      change Settles _ final (Place.ofModule visible next) (Place.ofModule last.handOver stop) _ _ _
      refine ready.step (block.mono fun proper => proper module List.mem_cons_self)
        (leads.inRange ready.inRange) leads.next_le others.le fun _ _ given => ?_
      refine .use given.formed (faults_checkEntry _ _) fun _ _ => ?_
      have start := { given with inRange := Place.inRange_ofModule (Place.handOver_lt given.inRange) }
      exact (ih start others).mono fun proper other mem =>
        proper other (List.mem_cons_of_mem _ mem)

variable {library : Library} {bundle named : Bundle}

/-- The types of a fresh bundle are those that its variables may have once names are
bound, and no other variable has a type. -/
theorem IsFresh.ready
    (fresh : IsFresh library bundle)
    (grows : bundle.arena.Grows named.arena) :
    Ready none named.arena (Place.ofModule (List.range bundle.arena.size) bundle.arena.size)
      named.arena where
  inRange := Place.inRange_ofModule fun _ => List.mem_range.mp
  known := fresh.knownBelow grows
  retypes := .refl _
  formed := (fresh.arena_eq ▸ bundle.stage.isFormed_arena).grows grows
  untyped := grows.untyped

/-- Typing a fresh bundle goes through well-formed arenas. -/
theorem IsFresh.goes_checkModules
    (fresh : IsFresh library bundle)
    (binding : resolveNames bundle = .ok () named) :
    Goes (∀ module ∈ named.modules, module.IsProper named.arena)
      (fun _ after => after.KnownBelow named.arena.size none named.arena) bundle.arena.size
      named.arena.size named.arena (typingVisits named.modules named.arena)
      (checkModules named.modules named.arena) := by
  obtain ⟨grows, bound⟩ := fresh.areBound binding
  exact settles_checkModules (fresh.ready grows) (bound _ (.refl _))

/-- Arenas that arise from each other by single types, all of them well formed. -/
structure AreTypedInTurn (arenas : List Arena) : Prop where
  /-- All arenas are well formed. -/
  isWellFormed : ∀ arena ∈ arenas, arena.IsWellFormed
  /-- Each arena gives one variable a type that has none in the arena before. -/
  gains : arenas.IsChain Arena.Gains
  /-- No type is ever changed. -/
  remembers : arenas.Pairwise Arena.Remembers

/-- What evaluation of types leaves, whether it succeeds or fails. -/
theorem leftBy_evalTypes (bundle : Bundle) :
    (leftBy (evalTypes bundle)).arena = leftBy (checkModules bundle.modules bundle.arena) := by
  rw [evalTypes, get_bind_apply]
  cases checkModules bundle.modules bundle.arena <;> rfl

/-- While the types of a fresh bundle are evaluated, the arena is well formed at every
point, and no variable is given a type twice, whether evaluation succeeds or fails. -/
theorem evalTypes_areTypedInTurn
    {library : Library}
    {bundle named : Bundle}
    (fresh : IsFresh library bundle)
    (binding : resolveNames bundle = .ok () named) :
    AreTypedInTurn (named.arena :: typingVisits named.modules named.arena) ∧
      (named.arena :: typingVisits named.modules named.arena).getLast (List.cons_ne_nil _ _) =
        (leftBy (evalTypes named)).arena := by
  have goes := fresh.goes_checkModules binding
  refine ⟨⟨?_, goes.gains, Arena.pairwise_of_gains goes.gains⟩, ?_⟩
  · exact fun arena mem => (goes.formed arena mem).isWellFormed
  · rw [leftBy_evalTypes]
    exact goes.last_eq

/-- Whether a step fails. -/
def fails : EStateM.Result Diagnostic Bundle Unit -> Bool
  | .ok _ _ => false
  | .error _ _ => true

end Bundle

namespace Sample

/-- A program with a struct, a function of it and a constant, whose main function
stores a truth value in an integer. -/
def mistyped : Bundle :=
  (Bundle.empty .vertex .readable).append
    { path := "/main"
      statements :=
        [.struct ⟨name "Light", [⟨name "float", "power", none, {}⟩], {}⟩,
          .interface ⟨.uniform, none, name "Light", name "lights", some 2, {}⟩,
          .const
            { ty := name "int"
              name := name "count"
              length := none
              init := some (.int 2 {})
              exported := false
              span := {} },
          .function
            { result := some (name "float")
              name := name "powerOf"
              params := [⟨.plain, name "Light", name "light", none, {}⟩]
              span := {} }
            [.ret (some (.member (read "light") "power" none {})) {}],
          main
            [declare "float" "first"
                (.call (read "powerOf") [.index (read "lights") (.int 0 {}) {}] {}),
              declare "int" "wrong" (.bool true {}),
              declare "int" "missing" (.int 0 {})]] }

theorem isFresh_mistyped : Bundle.IsFresh library mistyped :=
  ⟨rfl, by decide +kernel, isFresh_bundle.library⟩

end Sample

namespace Bundle

/-- Evaluation of types goes through well-formed arenas before it fails. -/
theorem evalTypes_mistyped_areTypedInTurn :
    ∃ named, resolveNames Sample.mistyped = .ok () named ∧ fails (evalTypes named) = true ∧
      (typingVisits named.modules named.arena).length = 7 ∧
        AreTypedInTurn (named.arena :: typingVisits named.modules named.arena) ∧
          (named.arena :: typingVisits named.modules named.arena).getLast (List.cons_ne_nil _ _) =
            (leftBy (evalTypes named)).arena := by
  have run : passes (fun named => fails (evalTypes named) &&
      (typingVisits named.modules named.arena).length == 7)
        (resolveNames Sample.mistyped) = true := by
    decide +kernel
  obtain ⟨named, binding, checked⟩ := exists_of_passes run
  simp only [Bool.and_eq_true, beq_iff_eq] at checked
  exact ⟨named, binding, checked.1, checked.2,
    evalTypes_areTypedInTurn Sample.isFresh_mistyped binding⟩

end Bundle
end ModularGlsl
