import ModularGlsl.Proofs.Text.Numeral
import ModularGlsl.Proofs.Typing.Structs

/-!
# Tokens of expressions

The text of an expression stands for the tokens of its tree in order.  A point would go on with
a number, but what has members is no number, and an operation whose last operand is a number
yields one.
-/

namespace ModularGlsl

/-! ## Tokens of trees -/

namespace Token

/-- Whether a word is an identifier. -/
def isSpelled : Token -> Bool
  | word letters => isIdentifier (String.ofList letters)
  | number _ | symbol _ | directive _ => true

/-- The token of a name that is given. -/
def ofName? (name : Option String) : List Token :=
  (name.map fun name => word name.toList).toList

/-- Tokens in parentheses. -/
def enclose (tokens : List Token) : List Token :=
  symbol ['('] :: (tokens ++ [symbol [')']])

end Token

open Token in
mutual

/-- The tokens of the tree of an expression. -/
def Expr.tokens (arena : Arena) : Expr -> List Token
  | .int value _ => ofInt value
  | .float value _ => ofFloat value
  | .bool value _ => [word (boolText value).toList]
  | .var ident => ofName? (ident.var.map arena.name)
  | .member _ _ (some id) _ => [word (arena.name id).toList]
  | .member object key none _ => object.tokens arena ++ [symbol ['.'], word key.toList]
  | .index container position _ =>
      container.tokens arena ++ symbol ['['] :: (position.tokens arena ++ [symbol [']']])
  | .getIndex container position accessor _ =>
      ofName? (accessor.map arena.name) ++
        enclose (container.tokens arena ++ symbol [','] :: position.tokens arena)
  | .call callee args _ =>
      callee.tokens arena ++
        enclose ([symbol [',']].intercalate (Expr.tokensOfAll arena args))
  | .binary op left right _ =>
      left.tokens arena ++ symbol op.spelling.toList :: right.tokens arena
  | .unary op operand _ => symbol op.spelling.toList :: operand.tokens arena
  | .paren inner _ => enclose (inner.tokens arena)

/-- The tokens of each expression of a list. -/
def Expr.tokensOfAll (arena : Arena) : List Expr -> List (List Token)
  | [] => []
  | expr :: rest => expr.tokens arena :: Expr.tokensOfAll arena rest

end

/-! ## Single values -/

namespace Ty

/-- A number or a truth value. -/
def isSingle (ty : Ty) : Bool :=
  match ty.bare with
  | scalar _ | literal _ => true
  | _ => false

variable {left right operand result : Ty} {span : Span}

theorem isSingle_eq_false_of_member
    {key : String}
    (found : operand.member key span = .ok result) :
    operand.isSingle = false := by
  unfold member at found
  unfold isSingle
  split at found
  next bare => rw [bare]
  next bare => rw [bare]
  next => cases found

/-- An operation whose right operand is single yields a single value. -/
theorem isSingle_of_binary
    {op : BinaryOp}
    (found : Ty.binary op left right span = .ok result)
    (single : right.isSingle = true) :
    result.isSingle = true := by
  cases yields_of_binary found with
  | scalar kind => rfl
  | literal => rfl
  | vector kind arity many =>
      unfold isSingle at single
      unfold scalarKind? shape? at many
      split at single <;> simp_all

/-- A sign keeps single values. -/
theorem isSingle_of_unary
    {op : UnaryOp}
    (found : Ty.unary op operand span = .ok result)
    (single : operand.isSingle = true) :
    result.isSingle = true := by
  have signedSingle (op : UnaryOp) : (operand.signed op).isSingle = true := by
    unfold signed
    split
    · split <;> rfl
    · rwa [isSingle, bare_bare]
  cases op with
  | not =>
      unfold Ty.unary at found
      dsimp only at found
      split at found
      · cases found
        rfl
      · cases found
  | neg | pos =>
      unfold Ty.unary at found
      dsimp only at found
      split at found
      · split at found
        · cases found
        · cases found
          exact signedSingle _
      · cases found

end Ty

/-! ## Texts of trees -/

section Texts

variable {arena : Arena} {ty : Ty} {expr : Expr} {exprs : List Expr} {text : String}
variable {texts : List String}

open Token

/-- What is written is good, unless the accessor of a dynamic index is missing. -/
def Writes
    {α : Type}
    (good : α -> Prop) : Except Diagnostic α -> Prop
  | .ok value => good value
  | .error error => ∃ span, error = .internal (.unresolved AccessorKind.get.spelling span)

theorem Writes.pure
    {α : Type}
    {good : α -> Prop}
    {value : α}
    (isGood : good value) :
    Writes good (pure value) :=
  isGood

theorem Writes.bind
    {α β : Type}
    {good : α -> Prop}
    {goodNext : β -> Prop}
    {outcome : Except Diagnostic α}
    {next : α -> Except Diagnostic β}
    (early : Writes good outcome)
    (late : ∀ value, good value -> Writes goodNext (next value)) :
    Writes goodNext (outcome >>= next) := by
  cases outcome with
  | ok value => exact late value early
  | error error => exact early

/-- The text of an expression stands for the tokens of its tree, provided that its names are
identifiers. -/
def Expr.KeepsTokens
    (arena : Arena)
    (isNumber : Bool)
    (expr : Expr) : Prop :=
  (∀ token ∈ expr.tokens arena, token.isSpelled = true) ->
    Writes (fun text => Operand isNumber text.toList (expr.tokens arena)) (expr.text arena)

theorem operand_name
    {name : String}
    (spelled : (word name.toList).isSpelled = true) :
    Operand false name.toList [word name.toList] :=
  operand_word (by rwa [isSpelled, String.ofList_toList] at spelled)

/-- The texts of expressions with commas between them. -/
theorem Expr.writes_texts
    (kept : ∀ expr ∈ exprs, ∃ isNumber, expr.KeepsTokens arena isNumber)
    (spelled : ∀ token ∈ [symbol [',']].intercalate (tokensOfAll arena exprs),
      token.isSpelled = true)
    (nonempty : exprs ≠ []) :
    Writes (fun texts => texts ≠ [] ∧ ∃ isNumber,
      Operand isNumber ([','].intercalate (texts.map String.toList))
        ([symbol [',']].intercalate (tokensOfAll arena exprs))) (Expr.texts arena exprs) := by
  induction exprs with
  | nil => exact (nonempty rfl).elim
  | cons expr rest ih =>
      obtain ⟨⟨isNumber, headKept⟩, tailKept⟩ := List.forall_mem_cons.mp kept
      cases rest with
      | nil =>
          simp only [tokensOfAll, List.intercalate_singleton] at spelled ⊢
          refine (headKept spelled).bind fun text head => ⟨List.cons_ne_nil _ _, isNumber, ?_⟩
          simpa using head
      | cons next rest =>
          simp only [tokensOfAll, List.intercalate_cons_cons, List.append_assoc,
            List.singleton_append] at spelled ih ⊢
          obtain ⟨headSpelled, tailSpelled⟩ := List.forall_mem_append.mp spelled
          obtain ⟨_, tailSpelled⟩ := List.forall_mem_cons.mp tailSpelled
          refine (headKept headSpelled).bind fun text head => ?_
          refine (ih tailKept tailSpelled (List.cons_ne_nil _ _)).bind ?_
          rintro texts ⟨isCons, other, tail⟩
          refine ⟨List.cons_ne_nil _ _, other, ?_⟩
          obtain ⟨nextText, more, rfl⟩ := List.exists_cons_of_ne_nil isCons
          simpa using head.comma tail

/-- The text of an expression that has a type stands for the tokens of its tree.  Where it ends
in a number its type is single. -/
theorem Expr.keepsTokens (typed : expr.Typed arena ty) :
    expr.KeepsTokens arena ty.isSingle := by
  intro spelled
  induction typed with
  | int value span => exact operand_int value
  | float value span => exact operand_float value
  | bool value span => cases value <;> exact (operand_word (by decide)).weaken nofun
  | @var ident ty found =>
      obtain ⟨id, _, bound, _⟩ := Ident.typeOf_eq_ok found
      rw [tokens, bound] at spelled ⊢
      rw [text, Ident.text, Ident.bound, bound]
      exact (operand_name (spelled _ List.mem_cons_self)).weaken nofun
  | path found => exact (operand_name (spelled _ List.mem_cons_self)).weaken nofun
  | member objectTyped found objectKept =>
      obtain ⟨objectSpelled, keySpelled⟩ := List.forall_mem_append.mp spelled
      have isKey := keySpelled _ (List.mem_cons_of_mem _ List.mem_cons_self)
      refine (objectKept objectSpelled).bind fun object operand => ?_
      rw [Ty.isSingle_eq_false_of_member found] at operand
      refine .pure ?_
      simpa [toString, tokens] using (operand.member isKey).weaken nofun
  | index containerTyped positionTyped known found containerKept positionKept =>
      obtain ⟨containerSpelled, restSpelled⟩ := List.forall_mem_append.mp spelled
      obtain ⟨_, restSpelled⟩ := List.forall_mem_cons.mp restSpelled
      obtain ⟨positionSpelled, _⟩ := List.forall_mem_append.mp restSpelled
      refine (containerKept containerSpelled).bind fun container first => ?_
      refine (positionKept positionSpelled).bind fun position second => ?_
      refine .pure ?_
      simpa [toString, tokens] using (first.index second).weaken nofun
  | @getIndex container containerTy position positionTy span ty accessor containerTyped
      positionTyped isInt found containerKept positionKept =>
      cases accessor with
      | none => exact ⟨span, rfl⟩
      | some id =>
          obtain ⟨nameSpelled, restSpelled⟩ := List.forall_mem_append.mp spelled
          obtain ⟨innerSpelled, _⟩ :=
            List.forall_mem_append.mp (List.forall_mem_cons.mp restSpelled).2
          obtain ⟨containerSpelled, restSpelled⟩ := List.forall_mem_append.mp innerSpelled
          obtain ⟨_, positionSpelled⟩ := List.forall_mem_cons.mp restSpelled
          have name := operand_name (nameSpelled _ List.mem_cons_self)
          refine (containerKept containerSpelled).bind fun container first => ?_
          refine (positionKept positionSpelled).bind fun position second => ?_
          refine .pure ?_
          simpa [toString, tokens, enclose, ofName?] using
            (name.call (first.comma second)).weaken nofun
  | @call callee calleeTy args types span ty calleeTyped argumentsTyped found calleeKept
      argumentsKept =>
      obtain ⟨calleeSpelled, restSpelled⟩ := List.forall_mem_append.mp spelled
      obtain ⟨listSpelled, _⟩ :=
        List.forall_mem_append.mp (List.forall_mem_cons.mp restSpelled).2
      cases args with
      | nil =>
          refine (calleeKept calleeSpelled).bind fun callee operand => ?_
          refine .pure ?_
          simpa [toString, tokens, tokensOfAll, enclose] using
            operand.emptyCall.weaken nofun
      | cons argument rest =>
          refine (writes_texts (fun argument mem => ⟨_, argumentsKept argument mem⟩)
            listSpelled (List.cons_ne_nil _ _)).bind ?_
          rintro texts ⟨_, isNumber, list⟩
          refine (calleeKept calleeSpelled).bind fun callee operand => ?_
          refine .pure ?_
          simpa [toString, tokens, enclose] using (operand.call list).weaken nofun
  | binary leftTyped rightTyped found leftKept rightKept =>
      obtain ⟨leftSpelled, rightSpelled⟩ := List.forall_mem_append.mp spelled
      obtain ⟨_, rightSpelled⟩ := List.forall_mem_cons.mp rightSpelled
      refine (leftKept leftSpelled).bind fun left isLeft => ?_
      refine (rightKept rightSpelled).bind fun right isRight => ?_
      exact (isLeft.binary (BinaryOp.isOperator _) isRight).weaken (Ty.isSingle_of_binary found)
  | @unary operand operandTy op ty span operandTyped found operandKept =>
      obtain ⟨_, operandSpelled⟩ := List.forall_mem_cons.mp spelled
      refine (operandKept operandSpelled).bind fun operand isOperand => ?_
      refine Operand.weaken ?_ (Ty.isSingle_of_unary found)
      exact isOperand.unary (UnaryOp.isOperator op) (by cases op <;> rintro _ ⟨⟩ <;> rfl)
  | paren innerTyped innerKept =>
      obtain ⟨_, restSpelled⟩ := List.forall_mem_cons.mp spelled
      obtain ⟨innerSpelled, _⟩ := List.forall_mem_append.mp restSpelled
      refine (innerKept innerSpelled).bind fun inner operand => ?_
      refine .pure ?_
      simpa [toString, tokens, enclose] using operand.paren.weaken nofun

/-- The text of an expression that has a type and whose names are identifiers is read as the
tokens of its tree in order.  There is a text unless the accessor of a dynamic index is
missing. -/
theorem Expr.lex_text
    (typed : expr.typeOf arena = .ok ty)
    (spelled : ∀ token ∈ expr.tokens arena, token.isSpelled = true) :
    (∃ text, expr.text arena = .ok text ∧ lex text = expr.tokens arena) ∨
      ∃ span, expr.text arena =
        .error (.internal (.unresolved AccessorKind.get.spelling span)) := by
  have kept := expr.keepsTokens (expr.typed_of_typeOf typed) spelled
  cases written : expr.text arena with
  | ok text =>
      rw [written] at kept
      exact .inl ⟨text, rfl, kept.spells.lex_eq⟩
  | error error =>
      rw [written] at kept
      obtain ⟨span, rfl⟩ := kept
      exact .inr ⟨span, rfl⟩

end Texts

namespace Sample

/-- An arena with one vector of two components. -/
def pair : Arena :=
  ({} : Arena).alloc { name := "v", ty := some (.vector .float 2) }

/-- The double negative of a component minus a product of negative numbers. -/
def signs : Expr :=
  let component := Expr.member (.var { name := "v", var := some 0 }) "x" none {}
  let half := Expr.float ⟨0xbfe0000000000000⟩ {}
  let small := Expr.float ⟨0xbe45798ee2308c3a⟩ {}
  .binary .sub (.unary .neg (.unary .neg component {}) {})
    (.binary .mul half (.unary .neg small {}) {}) {}

end Sample

/-- No sign fuses with the one after it. -/
theorem Expr.lex_signs :
    Sample.signs.typeOf Sample.pair = .ok .float ∧
      (∀ token ∈ Sample.signs.tokens Sample.pair, token.isSpelled = true) ∧
      Sample.signs.text Sample.pair = .ok "- -v.x- -0.5*- -1e-8" ∧
      Token.lex "- -v.x- -0.5*- -1e-8" = Sample.signs.tokens Sample.pair := by
  have typed : Sample.signs.typeOf Sample.pair = .ok .float := rfl
  have spelled : ∀ token ∈ Sample.signs.tokens Sample.pair, token.isSpelled = true := by
    decide
  have text_eq : Sample.signs.text Sample.pair = .ok "- -v.x- -0.5*- -1e-8" := rfl
  refine ⟨typed, spelled, text_eq, ?_⟩
  rcases Expr.lex_text typed spelled with ⟨text, written, lexed⟩ | ⟨span, failed⟩
  · rw [text_eq] at written
    cases written
    exact lexed
  · rw [text_eq] at failed
    cases failed

end ModularGlsl
