import ModularGlsl.Proofs.Binding.Changes

/-!
# Failures of binding

Binding fails with errors of its own and with modules that are not available.
The latter arise only for paths that are not registered when the module is
bound; every step leaves a failure that is recorded already.
-/

namespace ModularGlsl
namespace Binding

/-- A module is reported as not available only by the module that is bound, and
only if its path is not registered. -/
def Context.Explains
    (context : Context)
    (diagnostic : Diagnostic) : Prop :=
  ∀ path origin span, diagnostic = .assembly (.notFound path origin span) ->
    origin = context.path ∧ context.registry.lookup path = none

variable {context : Context}

variable {diagnostic : Diagnostic}

/-- The failures of binding are explained. -/
theorem Context.Raises.explains (raised : context.Raises diagnostic) :
    context.Explains diagnostic := by
  cases raised with
  | binding error => rintro _ _ _ ⟨⟩
  | notFound absent span =>
      rintro _ _ _ ⟨⟩
      exact ⟨rfl, absent⟩

/-- No failure of binding is an internal one. -/
theorem Context.Raises.ne_internal
    (raised : context.Raises diagnostic)
    (error : InternalError) :
    diagnostic ≠ .internal error := by
  cases raised <;> rintro ⟨⟩

/-- A step leaves a failure alone, or records one that binding can raise. -/
def Records
    (context : Context)
    (before after : State) : Prop :=
  after.failure = before.failure ∨
    before.failure = none ∧
      ∃ diagnostic, after.failure = some diagnostic ∧ context.Raises diagnostic

/-- The single steps of binding record no other failures. -/
instance admits_records (context : Context) : Admits context (fun _ => True) (Records context) where
  refl _ := .inl rfl
  trans := by
    rintro before middle after (early | ⟨clear, diagnostic, failed, raised⟩) late
    · rw [Records, early] at late
      exact late
    · refine .inr ⟨clear, diagnostic, ?_, raised⟩
      rcases late with same | ⟨clearLater, _⟩
      · rw [same, failed]
      · rw [failed] at clearLater
        cases clearLater
  fail _ diagnostic raised clear := .inr ⟨clear, diagnostic, rfl, raised⟩
  frames _ _ := .inl rfl
  declare _ _ _ _ _ _ := .inl rfl
  alloc _ _ _ _ := .inl rfl
  publish _ _ := .inl rfl

theorem records_bindBlock
    (context : Context)
    (block : List Stmt)
    (state : State) :
    Records context state (bindBlock context block state).2 :=
  (follows_bindBlock (admits_records context) block fun _ _ => trivial).leads state

/-- A step that records failures never takes one back. -/
theorem Follows.sticky
    {α : Type}
    {step : Bind α}
    (follows : Follows (Records context) step) :
    Sticky step where
  clear_of_step state clear := by
    rcases follows.leads state with same | ⟨before, _⟩
    · exact same.symm.trans clear
    · exact before

/-- Of the steps that look at no other module, nothing depends on the context. -/
instance (priority := low)
    {α : Type}
    (step : Bind α)
    [follows : Follows (Records ⟨.vertex, [], ""⟩) step] :
    Sticky step :=
  follows.sticky

end Binding
end ModularGlsl
