import ModularGlsl.Bundle

/-!
# Texts under other names

The text of a program mentions variables, under their current names, and words of
its author, such as the members of structs.  Everything else in it is numbers and
fixed text of the language.  What is mentioned can be read off the tree, so that
under two arenas with other names the texts are the same up to the names of the
variables at these places.  The one decision that looks at a text is whether an
operator fuses with its operand; it comes out the same as long as no name begins
like an operator.
-/

namespace ModularGlsl

/-! ## Outcomes -/

section Outcomes

variable {ε α β : Type}

/-- Two outcomes are alike: related results, or the same failure. -/
inductive Alike (related : α -> α -> Prop) : Except ε α -> Except ε α -> Prop
  /-- Both succeed. -/
  | ok
      {first second : α}
      (held : related first second) :
      Alike related (.ok first) (.ok second)
  /-- Both fail. -/
  | error (error : ε) : Alike related (.error error) (.error error)

variable {related : α -> α -> Prop} {relatedNext : β -> β -> Prop} {first second : Except ε α}

theorem Alike.bind
    {next other : α -> Except ε β}
    (early : Alike related first second)
    (late : ∀ value result, related value result -> Alike relatedNext (next value) (other result)) :
    Alike relatedNext (first >>= next) (second >>= other) := by
  cases early with
  | ok held => exact late _ _ held
  | error error => exact .error error

theorem Alike.map
    {next other : α -> β}
    (early : Alike related first second)
    (late : ∀ value result, related value result -> relatedNext (next value) (other result)) :
    Alike relatedNext (first >>= fun value => pure (next value))
      (second >>= fun value => pure (other value)) :=
  early.bind fun value result held => .ok (late value result held)

end Outcomes

/-! ## Mentions -/

/-- What stands in a text besides numbers and the fixed text of the language. -/
inductive Mention
  /-- A variable, under its name. -/
  | name (var : VarId)
  /-- A text of the author. -/
  | word (content : String)
  deriving DecidableEq

/-- A bound identifier mentions its variable. -/
def Ident.mentions (ident : Ident) : List Mention :=
  ident.var.toList.map .name

mutual

/-- What an expression mentions.  A member of a package is a variable. -/
def Expr.mentions : Expr -> List Mention
  | .int _ _ | .float _ _ | .bool _ _ => []
  | .var ident => ident.mentions
  | .member _ _ (some id) _ => [.name id]
  | .member object key none _ => object.mentions ++ [.word key]
  | .index container position _ => container.mentions ++ position.mentions
  | .getIndex container position accessor _ =>
      accessor.toList.map .name ++ container.mentions ++ position.mentions
  | .call callee args _ => callee.mentions ++ Expr.mentionsOfAll args
  | .binary _ left right _ => left.mentions ++ right.mentions
  | .unary _ operand _ => operand.mentions
  | .paren inner _ => inner.mentions

/-- What a list of expressions mentions. -/
def Expr.mentionsOfAll : List Expr -> List Mention
  | [] => []
  | expr :: rest => expr.mentions ++ Expr.mentionsOfAll rest

end

/-- What an expression that may be missing mentions. -/
def Expr.mentionsIfAny : Option Expr -> List Mention
  | some expr => expr.mentions
  | none => []

/-- What a constant mentions: a text that was injected stands in place of its initial value. -/
def ConstDecl.mentions (decl : ConstDecl) : List Mention :=
  decl.ty.mentions ++ decl.name.mentions ++
    match decl.injected with
    | some text => [.word text]
    | none => Expr.mentionsIfAny decl.init

/-- What parameters mention. -/
def Param.mentions : List Param -> List Mention
  | [] => []
  | param :: rest => param.ty.mentions ++ param.name.mentions ++ Param.mentions rest

/-- What the head of a function mentions. -/
def FunctionHeader.mentions (header : FunctionHeader) : List Mention :=
  header.result.toList.flatMap Ident.mentions ++ header.name.mentions ++
    Param.mentions header.params

/-- What the members of a struct mention. -/
def StructMember.mentions : List StructMember -> List Mention
  | [] => []
  | member :: rest => member.ty.mentions ++ [.word member.name] ++ StructMember.mentions rest

namespace Accessor

/-- An identifier of an accessor mentions its own name if it is not bound. -/
def identMentions (ident : Ident) : List Mention :=
  match ident.var with
  | some id => [.name id]
  | none => [.word ident.name]

/-- What the first parameter of an accessor mentions. -/
def containerMentions (accessor : Accessor) : List Mention :=
  match accessor.container with
  | .array _ => identMentions accessor.element
  | .vector ty _ => [.word ty]

/-- What an accessor mentions. -/
def mentions (accessor : Accessor) : List Mention :=
  match accessor.kind with
  | .get =>
      identMentions accessor.element ++ identMentions accessor.name ++ accessor.containerMentions
  | .set =>
      identMentions accessor.name ++ accessor.containerMentions ++ identMentions accessor.element

end Accessor

mutual

/-- What a statement mentions.  Statements inside of it count if they are kept, and a pragma is
mentioned as a whole. -/
def Stmt.mentions (usage : Usage) : Stmt -> List Mention
  | .version _ _ _
  | .importName _ _ _ _
  | .importAll _ _ _
  | .reexport _ _ _ _
  | .exportName _ _ _ => []
  | .extension name behavior _ => [.word s!"#extension {name} : {behavior}"]
  | .precision _ ty _ => ty.mentions
  | .interface decl => decl.ty.mentions ++ decl.name.mentions
  | .const decl => decl.mentions
  | .var decl => decl.ty.mentions ++ decl.name.mentions ++ Expr.mentionsIfAny decl.init
  | .assign target _ value _ => target.mentions ++ value.mentions
  | .update target _ _ => target.mentions
  | .struct decl => decl.name.mentions ++ StructMember.mentions decl.members
  | .function header body => header.mentions ++ Stmt.mentionsOfBlock usage body
  | .cond branches _ => Stmt.mentionsOfBranches usage branches
  | .loop init condition step body _ =>
      init.mentions usage ++ condition.mentions ++ step.mentions usage ++
        Stmt.mentionsOfBlock usage body
  | .ret value _ => Expr.mentionsIfAny value
  | .call callee args _ => callee.mentions ++ Expr.mentionsOfAll args
  | .setIndex container position value helper _ =>
      helper.toList.map .name ++ container.mentions ++ position.mentions ++ value.mentions
  | .accessor decl => decl.mentions

/-- What the kept statements of a block mention. -/
def Stmt.mentionsOfBlock (usage : Usage) : List Stmt -> List Mention
  | [] => []
  | stmt :: rest =>
      if stmt.isKept usage false then
        stmt.mentions usage ++ Stmt.mentionsOfBlock usage rest
      else
        Stmt.mentionsOfBlock usage rest

/-- What the arms of a chain of conditions mention. -/
def Stmt.mentionsOfBranches (usage : Usage) : List (Branch Stmt) -> List Mention
  | [] => []
  | ⟨condition, body, _⟩ :: rest =>
      Expr.mentionsIfAny condition ++ Stmt.mentionsOfBlock usage body ++
        Stmt.mentionsOfBranches usage rest

end

/-- What the text of a bundle mentions. -/
def Bundle.mentions (bundle : Bundle) : List Mention :=
  bundle.modules.flatMap fun module =>
    (module.statements.filter (·.isKept bundle.usage true)).flatMap (Stmt.mentions bundle.usage)

/-! ## Respelled texts -/

/-- The texts that are written whatever variables are called: signs, words of the language and
the parameters of accessors.  A single word among them is a reserved one. -/
def fixedTexts : List String :=
  ["", " ", ";", ",", "(", ")", "[", "]", ".", "\x7b", "\x7d", "\x7d;", "=", "+=", "-=", "*=", "/=",
    "++", "--", "+", "-", "*", "/", "!", "||", "^^", "&&", "==", "!=", "<", "<=", ">", ">=",
    "true", "false", "lowp", "mediump", "highp", "attribute", "uniform", "varying", "const ",
    "in ", "out ", "inout ", "void", "void ", "struct ", "precision ",
    "return", "return ", "for(", "if(", "else if(", "else", "(in ", "(inout ", " x", " x[",
    ",in int i)", ",in int i,in ", " a)", "if(i<", ")\x7b", "\x7delse\x7b", "return x[", "];", "x[",
    "]=a;"]

/-- Two texts are the same up to the names that variables have in two arenas, and mention the
same.  No name stands in them but where one is mentioned. -/
inductive Respelled (first second : Arena) : List Mention -> String -> String -> Prop
  /-- Fixed text of the language. -/
  | fixed
      (content : String)
      (listed : fixedTexts.contains content = true) :
      Respelled first second [] content content
  /-- An integer. -/
  | int (value : Int) : Respelled first second [] (toString value) (toString value)
  /-- A float. -/
  | float (value : Decimal.Binary64) :
      Respelled first second [] (floatFormat.text value) (floatFormat.text value)
  /-- A text of the author. -/
  | word (content : String) : Respelled first second [.word content] content content
  /-- The name of a variable. -/
  | name (var : VarId) :
      Respelled first second [.name var] (first.name var) (second.name var)
  /-- One text after the other. -/
  | append
      {mentions others : List Mention}
      {left right leftOther rightOther : String}
      (early : Respelled first second mentions left leftOther)
      (late : Respelled first second others right rightOther) :
      Respelled first second (mentions ++ others) (left ++ right)
        (leftOther ++ rightOther)

/-- Whether a name begins with a letter or an underscore. -/
def startsWord (name : String) : Bool :=
  name.toList.head?.any fun letter => letter.isAlpha || letter == '_'

/-- Variables have the same names in two arenas, or names that begin with letters. -/
def Arena.SameStarts (first second : Arena) : Prop :=
  ∀ var, first.name var = second.name var ∨
    startsWord (first.name var) = true ∧ startsWord (second.name var) = true

/-- What a text begins with: nothing, a sign or something else. -/
def opening (text : String) : Option (Option Char) :=
  text.toList.head?.map fun letter => if letter = '+' ∨ letter = '-' then some letter else none

theorem opening_append (left right : String) :
    opening (left ++ right) = (opening left).or (opening right) := by
  rw [opening, String.toList_append, List.head?_append, Option.map_or]
  rfl

theorem opening_of_startsWord
    {name : String}
    (starts : startsWord name = true) :
    opening name = some none := by
  obtain ⟨letter, found, isWord⟩ := (Option.any_eq_true _ _).mp starts
  have noSign : ¬(letter = '+' ∨ letter = '-') := by
    rintro (rfl | rfl) <;> revert isWord <;> decide
  rw [opening, found, Option.map_some, if_neg noSign]

/-- A text opens with a sign if the sign stands first. -/
theorem opening_eq_sign
    {text : String}
    {sign : Char}
    (isSign : sign = '+' ∨ sign = '-') :
    opening text = some (some sign) ↔ [sign] <+: text.toList := by
  unfold opening
  cases text.toList with
  | nil => simp
  | cons letter rest =>
      simp only [List.head?_cons, Option.map_some, Option.some.injEq, List.prefix_cons_iff]
      constructor
      · intro found
        split at found
        · cases found
          simp
        · cases found
      · grind

theorem fuses_iff {op operand : String} :
    fuses op operand = true ↔ (op = "+" ∨ op = "-") ∧ op.toList <+: operand.toList := by
  simp [fuses]

/-- Whether an operator fuses is up to what the operand begins with. -/
theorem fuses_eq_of_opening
    {op left right : String}
    (same : opening left = opening right) :
    fuses op left = fuses op right := by
  rw [Bool.eq_iff_iff, fuses_iff, fuses_iff]
  refine and_congr_right fun isSign => ?_
  rcases isSign with rfl | rfl
  · exact (opening_eq_sign (.inl rfl)).symm.trans (same ▸ opening_eq_sign (.inl rfl))
  · exact (opening_eq_sign (.inr rfl)).symm.trans (same ▸ opening_eq_sign (.inr rfl))

variable {first second : Arena} {mentions : List Mention} {left right : String}

namespace Respelled

theorem opening_eq
    (starts : first.SameStarts second)
    (respelled : Respelled first second mentions left right) :
    opening left = opening right := by
  induction respelled with
  | fixed | int | float | word => rfl
  | name var =>
      rcases starts var with same | ⟨isWord, isOther⟩
      · rw [same]
      · rw [opening_of_startsWord isWord, opening_of_startsWord isOther]
  | append _ _ early late => rw [opening_append, opening_append, early, late]

theorem nat (value : Nat) :
    Respelled first second [] (toString value) (toString value) :=
  .int value

/-- A text after fixed text. -/
theorem after
    (late : Respelled first second mentions left right)
    (content : String)
    (listed : fixedTexts.contains content = true) :
    Respelled first second mentions (content ++ left) (content ++ right) :=
  .append (.fixed content listed) late

/-- A text before another one that mentions nothing. -/
theorem before
    {content : String}
    (early : Respelled first second mentions left right)
    (late : Respelled first second [] content content) :
    Respelled first second mentions (left ++ content) (right ++ content) := by
  have appended := early.append late
  rwa [List.append_nil] at appended

/-- A text before fixed text. -/
theorem ending
    (early : Respelled first second mentions left right)
    (content : String)
    (listed : fixedTexts.contains content = true) :
    Respelled first second mentions (left ++ content) (right ++ content) :=
  early.before (.fixed content listed)

theorem operatorThen
    (starts : first.SameStarts second)
    (respelled : Respelled first second mentions left right)
    {op : String}
    (listed : fixedTexts.contains op = true) :
    Respelled first second mentions (operatorThen op left) (operatorThen op right) := by
  unfold ModularGlsl.operatorThen
  rw [fuses_eq_of_opening (respelled.opening_eq starts)]
  split
  · exact .append (.append (.fixed op listed) (.fixed " " rfl)) respelled
  · exact respelled.after op listed

end Respelled

/-! ## Lists -/

/-- Members of two lists are related one by one, and mention one after the other. -/
inductive Each
    {α : Type}
    (related : List Mention -> α -> α -> Prop) : List Mention -> List α -> List α -> Prop
  /-- No members. -/
  | nil : Each related [] [] []
  /-- One more member. -/
  | cons
      {mentions others : List Mention}
      {head other : α}
      {tail rest : List α}
      (first : related mentions head other)
      (later : Each related others tail rest) :
      Each related (mentions ++ others) (head :: tail) (other :: rest)

section Each

variable {α : Type} {related : List Mention -> α -> α -> Prop} {members others : List α}

theorem Each.eq
    (each : Each related mentions members others)
    (same : ∀ mentions member other, related mentions member other -> other = member) :
    others = members := by
  induction each with
  | nil => rfl
  | cons head _ ih => rw [same _ _ _ head, ih]

end Each

/-- Respelled texts with fixed text between them. -/
theorem Each.intercalate
    {texts others : List String}
    (each : Each (Respelled first second) mentions texts others)
    (separator : String)
    (listed : fixedTexts.contains separator = true) :
    Respelled first second mentions (separator.intercalate texts)
      (separator.intercalate others) := by
  induction each with
  | nil => exact .fixed "" rfl
  | cons head tail ih =>
      cases tail with
      | nil => exact (List.append_nil _).symm ▸ head
      | cons next rest =>
          rw [String.intercalate_cons_cons, String.intercalate_cons_cons]
          exact .append (head.ending separator listed) ih

/-- Whether a line may end with a text: no token goes on with its last mark. -/
def endsLine (text : String) : Bool :=
  text.toList.getLast?.any (";\x7b\x7d".toList.contains ·)

theorem endsLine_append
    (text : String)
    {mark : String}
    (ends : endsLine mark = true) :
    endsLine (text ++ mark) = true := by
  obtain ⟨last, found, isMark⟩ := (Option.any_eq_true _ _).mp ends
  rw [endsLine, String.toList_append, List.getLast?_append, found]
  exact isMark

/-- Pieces are the same up to names, and mention the same.  Lines break where no token goes on,
or after a pragma. -/
inductive Laid (first second : Arena) : List Mention -> List Piece -> List Piece -> Prop
  /-- No pieces. -/
  | nil : Laid first second [] [] []
  /-- A line. -/
  | line
      {mentions : List Mention}
      {left right : String}
      (respelled : Respelled first second mentions left right)
      (ends : endsLine left = true) :
      Laid first second mentions [.text left] [.text right]
  /-- What stands before a body in braces. -/
  | head
      {mentions : List Mention}
      {left right : String}
      (respelled : Respelled first second mentions left right) :
      Laid first second mentions [.text left, .text "\x7b"] [.text right, .text "\x7b"]
  /-- A pragma. -/
  | pragma
      (content : String)
      (marked : '#' ∈ content.toList) :
      Laid first second [.word content] [.text content] [.text content]
  /-- A line break or the indentation of a line. -/
  | gap
      (piece : Piece)
      (noText : ∀ content, piece ≠ .text content) :
      Laid first second [] [piece] [piece]
  /-- Some pieces after others. -/
  | append
      {mentions others : List Mention}
      {pieces laid rest later : List Piece}
      (early : Laid first second mentions pieces laid)
      (late : Laid first second others rest later) :
      Laid first second (mentions ++ others) (pieces ++ rest) (laid ++ later)

namespace Laid

variable {pieces laid rest later : List Piece}

/-- Pieces before others that mention nothing. -/
theorem before
    (early : Laid first second mentions pieces laid)
    (late : Laid first second [] rest later) :
    Laid first second mentions (pieces ++ rest) (laid ++ later) := by
  have appended := early.append late
  rwa [List.append_nil] at appended

theorem eq_nil (related : Laid first second mentions pieces laid) :
    (pieces = [] ↔ laid = []) ∧ (pieces = [] -> mentions = []) := by
  induction related with
  | nil | line | head | pragma | gap => simp
  | append _ _ early late =>
      simp only [List.append_eq_nil_iff]
      exact ⟨and_congr early.1 late.1, fun both => ⟨early.2 both.1, late.2 both.2⟩⟩

theorem newline (late : Laid first second mentions pieces laid) :
    Laid first second mentions (.newline :: pieces) (.newline :: laid) :=
  .append (.gap .newline nofun) late

theorem indent
    (nesting : Nat)
    (late : Laid first second mentions pieces laid) :
    Laid first second mentions (.indent nesting :: pieces) (.indent nesting :: laid) :=
  .append (.gap (.indent nesting) nofun) late

/-- A text with a mark at its end. -/
theorem ending
    (respelled : Respelled first second mentions left right)
    (mark : String)
    (listed : fixedTexts.contains mark = true)
    (ends : endsLine mark = true) :
    Laid first second mentions [.text (left ++ mark)] [.text (right ++ mark)] :=
  .line (respelled.ending mark listed) (endsLine_append left ends)

theorem terminated (respelled : Respelled first second mentions left right) :
    Laid first second mentions (Emission.terminated left) (Emission.terminated right) :=
  ending respelled ";" rfl rfl

/-- Pieces on a line of their own. -/
theorem alone
    (nesting : Nat)
    (line : Laid first second mentions pieces laid) :
    Laid first second mentions (.indent nesting :: (pieces ++ [.newline]))
      (.indent nesting :: (laid ++ [.newline])) :=
  .indent nesting (line.before (.newline .nil))

/-- A body in braces after its head. -/
theorem braced
    {others : List Mention}
    (nesting : Nat)
    (head : Respelled first second mentions left right)
    (body : Laid first second others pieces laid) :
    Laid first second (mentions ++ others)
      (.text left :: Emission.braced nesting pieces)
      (.text right :: Emission.braced nesting laid) :=
  .append (.head head) (.newline (body.before (.indent nesting (.line (.fixed "\x7d" rfl) rfl))))

end Laid

/-! ## Expressions -/

/-- An identifier under its current name. -/
theorem Ident.alike_text (ident : Ident) :
    Alike (Respelled first second ident.mentions) (ident.text first)
      (ident.text second) := by
  unfold Ident.text Ident.bound Ident.mentions
  cases ident.var with
  | none => exact .error _
  | some id => exact .ok (.name id)

/-- An accessor under its current name. -/
theorem alike_accessorText
    (kind : AccessorKind)
    (accessor : Option VarId)
    (span : Span) :
    Alike (Respelled first second (accessor.toList.map .name))
      (accessorText first kind accessor span) (accessorText second kind accessor span) := by
  cases accessor with
  | none => exact .error _
  | some id => exact .ok (.name id)

mutual

/-- An expression under the current names. -/
theorem Expr.alike_text
    (starts : first.SameStarts second)
    (expr : Expr) :
    Alike (Respelled first second expr.mentions) (expr.text first) (expr.text second) := by
  match expr with
  | .int value _ => exact .ok (.int value)
  | .float value _ => exact .ok (.float value)
  | .bool value _ => cases value <;> exact .ok (.fixed _ rfl)
  | .var ident => exact ident.alike_text
  | .member _ _ (some id) _ => exact .ok (.name id)
  | .member object key none _ =>
      refine .map (Expr.alike_text starts object) fun _ _ objects => ?_
      exact .append (objects.ending "." rfl) (.word key)
  | .index container position _ =>
      refine .bind (Expr.alike_text starts container) fun _ _ containers => ?_
      refine .map (Expr.alike_text starts position) fun _ _ positions => ?_
      exact .ending (.append (containers.ending "[" rfl) positions) "]" rfl
  | .getIndex container position accessor span =>
      refine .bind (alike_accessorText .get accessor span) fun _ _ accessors => ?_
      refine .bind (Expr.alike_text starts container) fun _ _ containers => ?_
      refine .map (Expr.alike_text starts position) fun _ _ positions => ?_
      have container := ((accessors.ending "(" rfl).append containers).ending "," rfl
      exact .ending (.append container positions) ")" rfl
  | .call callee args _ =>
      refine .bind (Expr.alike_texts starts args) fun _ _ lists => ?_
      refine .map (Expr.alike_text starts callee) fun _ _ callees => ?_
      exact .ending (.append (callees.ending "(" rfl) (lists.intercalate "," rfl)) ")" rfl
  | .binary op left right _ =>
      refine .bind (Expr.alike_text starts left) fun _ _ lefts => ?_
      refine .map (Expr.alike_text starts right) fun _ _ rights => ?_
      exact .append lefts (rights.operatorThen starts (by cases op <;> rfl))
  | .unary op operand _ =>
      refine .map (Expr.alike_text starts operand) fun _ _ operands => ?_
      exact operands.operatorThen starts (by cases op <;> rfl)
  | .paren inner _ =>
      refine .map (Expr.alike_text starts inner) fun _ _ inners => ?_
      exact (inners.after "(" rfl).ending ")" rfl

theorem Expr.alike_texts
    (starts : first.SameStarts second)
    (exprs : List Expr) :
    Alike (Each (Respelled first second) (Expr.mentionsOfAll exprs))
      (Expr.texts first exprs) (Expr.texts second exprs) := by
  match exprs with
  | [] => exact .ok .nil
  | expr :: rest =>
      refine .bind (Expr.alike_text starts expr) fun _ _ head => ?_
      refine .map (Expr.alike_texts starts rest) fun _ _ tail => ?_
      exact .cons head tail

end

/-! ## Declarations -/

namespace Emission

theorem respelled_typeText (ident : Ident) :
    Respelled first second ident.mentions (typeText first ident) (typeText second ident) := by
  unfold typeText Ident.mentions
  cases ident.var with
  | none => exact .fixed "" rfl
  | some id => exact .name id

theorem respelled_lengthText (length : Option Nat) :
    Respelled first second [] (lengthText length) (lengthText length) := by
  cases length with
  | none => exact .fixed "" rfl
  | some length => exact (Respelled.after (.nat length) "[" rfl).ending "]" rfl

theorem alike_typedName
    (ty name : Ident)
    (length : Option Nat) :
    Alike (Respelled first second (ty.mentions ++ name.mentions)) (typedName first ty name length)
      (typedName second ty name length) := by
  refine .map name.alike_text fun _ _ names => ?_
  have typed := ((respelled_typeText ty).ending " " rfl).append names
  exact typed.before (respelled_lengthText length)

theorem alike_interfaceText (decl : InterfaceDecl) :
    Alike
      (fun left right => Laid first second (decl.ty.mentions ++ decl.name.mentions)
        [.text left] [.text right])
      (interfaceText first decl) (interfaceText second decl) := by
  refine .map (alike_typedName ..) fun _ _ typed => ?_
  have precision : Respelled first second [] (precisionText decl.precision)
      (precisionText decl.precision) := by
    cases decl.precision with
    | none => exact .fixed "" rfl
    | some precision => exact .ending (.fixed _ (by cases precision <;> rfl)) " " rfl
  have kind : Respelled first second [] decl.kind.spelling _ :=
    .fixed _ (by cases decl.kind <;> rfl)
  exact .ending (.append ((kind.ending " " rfl).before precision) typed) ";" rfl rfl

theorem alike_paramTexts (params : List Param) :
    Alike (Each (Respelled first second) (Param.mentions params)) (paramTexts first params)
      (paramTexts second params) := by
  induction params with
  | nil => exact .ok .nil
  | cons param rest ih =>
      have head : Alike (Respelled first second (param.ty.mentions ++ param.name.mentions))
          (paramText first param) (paramText second param) :=
        .map (alike_typedName ..) fun _ _ typed =>
          typed.after _ (by cases param.direction <;> rfl)
      refine .bind head fun _ _ head => ?_
      exact .map ih fun _ _ tail => .cons head tail

theorem alike_headerText (header : FunctionHeader) :
    Alike (Respelled first second header.mentions) (headerText first header)
      (headerText second header) := by
  refine .bind (alike_paramTexts header.params) fun _ _ params => ?_
  refine .map header.name.alike_text fun _ _ names => ?_
  refine .ending (.append (.ending (.append (.ending ?_ " " rfl) names) "(" rfl)
    (params.intercalate "," rfl)) ")" rfl
  cases header.result with
  | none => exact .fixed "void" rfl
  | some ty =>
      rw [Option.toList_some, List.flatMap_singleton]
      exact respelled_typeText ty

/-! ## Pieces -/

theorem respelled_memberPieces
    (nesting : Nat)
    (members : List StructMember) :
    Laid first second (StructMember.mentions members)
      (members.flatMap (memberPieces first nesting))
      (members.flatMap (memberPieces second nesting)) := by
  induction members with
  | nil => exact .nil
  | cons member rest ih =>
      refine .append (.alone nesting (.ending (.before ?_ (respelled_lengthText _)) ";" rfl rfl)) ih
      exact .append ((respelled_typeText member.ty).ending " " rfl) (.word member.name)

theorem alike_structPieces
    (nesting : Nat)
    (decl : StructDecl) :
    Alike (Laid first second (decl.name.mentions ++ StructMember.mentions decl.members))
      (structPieces first nesting decl) (structPieces second nesting decl) := by
  refine .map decl.name.alike_text fun _ _ names => ?_
  have opened := (Laid.ending (names.after "struct " rfl) "\x7b" rfl rfl).before (.newline .nil)
  exact .before (opened.append (respelled_memberPieces _ _)) (.line (.fixed "\x7d;" rfl) rfl)

/-- The tests of an accessor mention nothing. -/
theorem respelled_bisection
    (kind : AccessorKind)
    (nesting : Nat)
    (tree : Bisection) :
    Laid first second [] (tree.pieces kind nesting) (tree.pieces kind nesting) := by
  induction tree generalizing nesting with
  | leaf element =>
      cases kind with
      | get => exact .alone nesting (.ending (.after (.nat element) "return x[" rfl) "];" rfl rfl)
      | set => exact .alone nesting (.ending (.after (.nat element) "x[" rfl) "]=a;" rfl rfl)
  | test bound below above inBelow inAbove =>
      refine .before (.before (.before (.before ?_ (inBelow _)) ?_) (inAbove _)) ?_
      · exact .alone nesting (.ending (.after (.nat bound) "if(i<" rfl) ")\x7b" rfl rfl)
      · exact .alone nesting (.line (.fixed "\x7delse\x7b" rfl) rfl)
      · exact .alone nesting (.line (.fixed "\x7d" rfl) rfl)

theorem respelled_accessorPieces (accessor : Accessor) :
    Laid first second accessor.mentions (accessor.pieces first) (accessor.pieces second) := by
  have current (ident : Ident) : Respelled first second (Accessor.identMentions ident)
      (Accessor.currentName first ident) (Accessor.currentName second ident) := by
    unfold Accessor.currentName Accessor.identMentions
    cases ident.var with
    | none => exact .word ident.name
    | some id => exact .name id
  have container : Respelled first second accessor.containerMentions
      (Accessor.containerText (Accessor.currentName first accessor.element) accessor.container)
      (Accessor.containerText (Accessor.currentName second accessor.element)
        accessor.container) := by
    unfold Accessor.containerText Accessor.containerMentions
    cases accessor.container with
    | array length => exact .ending (.before ((current _).ending " x[" rfl) (.nat length)) "]" rfl
    | vector ty length => exact .ending (.word ty) " x" rfl
  have head : Respelled first second accessor.mentions (accessor.headText first)
      (accessor.headText second) := by
    unfold Accessor.headText Accessor.mentions
    cases accessor.kind with
    | get =>
        have named := ((current accessor.element).ending " " rfl).append (current accessor.name)
        exact .ending (.append (named.ending "(in " rfl) container) ",in int i)" rfl
    | set =>
        have named := (current accessor.name).after "void " rfl
        have stored := (named.ending "(inout " rfl).append container
        exact .ending (.append (stored.ending ",in int i,in " rfl) (current _)) " a)" rfl
  have opened := (Laid.ending head "\x7b" rfl rfl).before (.newline .nil)
  exact .before (opened.before (respelled_bisection accessor.kind 1 _))
    (.line (.fixed "\x7d" rfl) rfl)

/-! ## Statements -/

section

variable (starts : first.SameStarts second) (usage : Usage)
include starts

theorem alike_initText (init : Option Expr) :
    Alike (Respelled first second (Expr.mentionsIfAny init)) (initText first init)
      (initText second init) := by
  cases init with
  | none => exact .ok (.fixed "" rfl)
  | some init => exact .map (init.alike_text starts) fun _ _ inits => inits.after "=" rfl

theorem alike_constText (decl : ConstDecl) :
    Alike (fun left right => Laid first second decl.mentions [.text left] [.text right])
      (constText first decl) (constText second decl) := by
  refine .bind (alike_typedName ..) fun _ _ typed => ?_
  unfold constInitText ConstDecl.mentions
  cases decl.injected with
  | some text =>
      have given := (typed.after "const " rfl).append (.after (.word text) "=" rfl)
      exact .ok (.ending given ";" rfl rfl)
  | none =>
      refine .map (alike_initText starts decl.init) fun _ _ inits => ?_
      exact .ending (.append (typed.after "const " rfl) inits) ";" rfl rfl

/-- A statement in the head of a loop. -/
theorem alike_clauseText (stmt : Stmt) :
    Alike (Respelled first second (stmt.mentions usage)) (clauseText first stmt)
      (clauseText second stmt) := by
  cases stmt with
  | var decl =>
      refine .bind (alike_typedName ..) fun _ _ typed => ?_
      exact .map (alike_initText starts _) fun _ _ inits => .append typed inits
  | assign target op value _ =>
      refine .bind (target.alike_text starts) fun _ _ targets => ?_
      refine .map (value.alike_text starts) fun _ _ values => ?_
      exact .append (targets.ending _ (by cases op <;> rfl)) values
  | update target op _ =>
      refine .map (target.alike_text starts) fun _ _ targets => ?_
      exact targets.ending _ (by cases op <;> rfl)
  | _ => exact .error _

theorem alike_returnText (value : Option Expr) :
    Alike (Respelled first second (Expr.mentionsIfAny value)) (returnText first value)
      (returnText second value) := by
  cases value with
  | none => exact .ok (.fixed "return" rfl)
  | some value => exact .map (value.alike_text starts) fun _ _ values => values.after "return " rfl

/-- The text of a store through an accessor. -/
theorem alike_setIndexText
    (container position value : Expr)
    (accessor : Option VarId)
    (span : Span) :
    Alike
      (Respelled first second
        (accessor.toList.map .name ++ container.mentions ++ position.mentions ++ value.mentions))
      (setIndexText first container position value accessor span)
      (setIndexText second container position value accessor span) := by
  refine .bind (alike_accessorText .set accessor span) fun _ _ accessors => ?_
  refine .bind (container.alike_text starts) fun _ _ containers => ?_
  refine .bind (position.alike_text starts) fun _ _ positions => ?_
  refine .map (value.alike_text starts) fun _ _ values => ?_
  have place := (((accessors.ending "(" rfl).append containers).ending "," rfl).append positions
  exact .ending (.append (place.ending "," rfl) values) ")" rfl

theorem alike_loopHead
    (init : Stmt)
    (cond : Expr)
    (step : Stmt) :
    Alike
      (Respelled first second (init.mentions usage ++ cond.mentions ++ step.mentions usage))
      (loopHead first init cond step) (loopHead second init cond step) := by
  refine .bind (alike_clauseText starts usage init) fun _ _ inits => ?_
  refine .bind (cond.alike_text starts) fun _ _ conds => ?_
  refine .map (alike_clauseText starts usage step) fun _ _ steps => ?_
  have tested := ((inits.after "for(" rfl).ending ";" rfl).append conds
  exact .ending (.append (tested.ending ";" rfl) steps) ")" rfl

/-- What stands before the body of an arm. -/
theorem alike_armHead
    (isFirst : Bool)
    (cond : Option Expr) :
    Alike (Respelled first second (Expr.mentionsIfAny cond)) (armHead first isFirst cond)
      (armHead second isFirst cond) := by
  cases cond with
  | none => cases isFirst <;> exact .ok (.fixed _ rfl)
  | some cond =>
      refine .map (cond.alike_text starts) fun _ _ conds => ?_
      exact (conds.after _ (by cases isFirst <;> rfl)).ending ")" rfl

end

variable (usage : Usage)

mutual

/-- A statement under the current names. -/
theorem alike_stmtPieces
    (starts : first.SameStarts second)
    (nesting : Nat)
    (stmt : Stmt) :
    Alike (Laid first second (stmt.mentions usage))
      (stmtPieces first usage nesting stmt) (stmtPieces second usage nesting stmt) := by
  cases stmt with
  | extension name behavior _ =>
      have marked : '#' ∈ s!"#extension {name} : {behavior}".toList := by simp [toString]
      exact .ok (.pragma _ marked)
  | precision precision ty _ =>
      have qualifier : Respelled first second [] precision.spelling _ :=
        .fixed _ (by cases precision <;> rfl)
      have qualified := (qualifier.after "precision " rfl).ending " " rfl
      exact .ok (.terminated (qualified.append (respelled_typeText ty)))
  | interface decl => exact .map (alike_interfaceText decl) fun _ _ line => line
  | const decl => exact .map (alike_constText starts decl) fun _ _ line => line
  | var decl =>
      exact .map (alike_clauseText starts usage (.var decl)) fun _ _ texts => .terminated texts
  | assign target op value span =>
      exact .map (alike_clauseText starts usage (.assign target op value span)) fun _ _ texts =>
        .terminated texts
  | update target op span =>
      exact .map (alike_clauseText starts usage (.update target op span)) fun _ _ texts =>
        .terminated texts
  | struct decl => exact alike_structPieces nesting decl
  | function header body =>
      refine .bind (alike_headerText header) fun _ _ heads => ?_
      refine .map (alike_blockPieces starts (nesting + 1) body) fun _ _ bodies => ?_
      exact .braced nesting heads bodies
  | cond branches _ => exact alike_branchPieces starts nesting true branches
  | loop init cond step body _ =>
      refine .bind (alike_loopHead starts usage init cond step) fun _ _ heads => ?_
      refine .map (alike_blockPieces starts (nesting + 1) body) fun _ _ bodies => ?_
      exact .braced nesting heads bodies
  | ret value _ => exact .map (alike_returnText starts value) fun _ _ texts => .terminated texts
  | call callee args span =>
      exact .map (Expr.alike_text starts (.call callee args span)) fun _ _ texts =>
        .terminated texts
  | setIndex container position value accessor span =>
      exact .map (alike_setIndexText starts container position value accessor span)
        fun _ _ texts => .terminated texts
  | accessor decl => exact .ok (respelled_accessorPieces decl)
  | _ => exact .ok .nil

/-- Statements of a block under the current names. -/
theorem alike_blockPieces
    (starts : first.SameStarts second)
    (nesting : Nat)
    (block : List Stmt) :
    Alike (Laid first second (Stmt.mentionsOfBlock usage block))
      (blockPieces first usage nesting block) (blockPieces second usage nesting block) := by
  match block with
  | [] => exact .ok .nil
  | stmt :: rest =>
      rw [blockPieces, blockPieces, Stmt.mentionsOfBlock]
      split
      · refine .bind (alike_stmtPieces starts nesting stmt) fun _ _ pieces => ?_
        refine .map (alike_blockPieces starts nesting rest) fun _ _ after => ?_
        exact .indent nesting (pieces.append (.newline after))
      · exact alike_blockPieces starts nesting rest

theorem alike_branchPieces
    (starts : first.SameStarts second)
    (nesting : Nat)
    (isFirst : Bool)
    (branches : List (Branch Stmt)) :
    Alike (Laid first second (Stmt.mentionsOfBranches usage branches))
      (branchPieces first usage nesting isFirst branches)
      (branchPieces second usage nesting isFirst branches) := by
  match branches with
  | [] => exact .ok .nil
  | ⟨cond, body, _⟩ :: rest =>
      refine .bind (alike_armHead starts isFirst cond) fun _ _ heads => ?_
      refine .bind (alike_blockPieces starts (nesting + 1) body) fun _ _ bodies => ?_
      refine .map (alike_branchPieces starts nesting false rest) fun _ _ after => ?_
      exact .append (.braced nesting heads bodies) after

end

/-- The statements of a module under the current names. -/
theorem alike_moduleChunks
    (starts : first.SameStarts second)
    (block : List Stmt) :
    Alike
      (Each (Laid first second)
        ((block.filter (·.isKept usage true)).flatMap (Stmt.mentions usage)))
      (moduleChunks first usage block) (moduleChunks second usage block) := by
  induction block with
  | nil => exact .ok .nil
  | cons stmt rest ih =>
      rw [moduleChunks, moduleChunks, List.filter_cons]
      split
      · refine .bind (alike_stmtPieces usage starts 0 stmt) fun left right pieces => ?_
        refine .map ih fun _ _ after => ?_
        obtain ⟨sameEmpty, noMentions⟩ := pieces.eq_nil
        simp only [List.isEmpty_iff, ← sameEmpty, List.flatMap_cons]
        split
        next isEmpty =>
          rw [noMentions isEmpty]
          exact after
        next => exact .cons pieces after
      · exact ih

/-- Statements are written one after the other. -/
theorem moduleChunks_append
    (arena : Arena)
    (early late : List Stmt) :
    moduleChunks arena usage (early ++ late) = (do
      let first ← moduleChunks arena usage early
      let second ← moduleChunks arena usage late
      return first ++ second) := by
  induction early with
  | nil => exact (bind_pure _).symm
  | cons stmt rest ih =>
      rw [List.cons_append, moduleChunks, moduleChunks, ih]
      split
      · simp only [bind_assoc, pure_bind]
        refine bind_congr fun pieces => bind_congr fun first => bind_congr fun second => ?_
        split <;> rfl
      · rfl

end Emission

namespace Bundle

/-- The statements of all modules are written one after the other. -/
theorem chunks_eq
    (arena : Arena)
    (usage : Usage)
    (modules : List Module) :
    chunks arena usage modules =
      Emission.moduleChunks arena usage (modules.flatMap Module.statements) := by
  induction modules with
  | nil => rfl
  | cons module rest ih => rw [chunks, ih, List.flatMap_cons, Emission.moduleChunks_append]

/-- Two texts are those of a bundle under two arenas: their pieces are the same up to the names
of the variables that the bundle mentions. -/
def Respells
    (bundle : Bundle)
    (first second : Arena)
    (spacing : Spacing)
    (left right : String) : Prop :=
  ∃ chunks others,
    Each (Laid first second) bundle.mentions chunks others ∧
      left = versionLine bundle.version ++ "\n".intercalate (chunks.map (render spacing)) ∧
      right = versionLine bundle.version ++ "\n".intercalate (others.map (render spacing))

/-- Under other names, the text of a bundle is the same up to them. -/
theorem alike_write
    (bundle : Bundle)
    {arena : Arena}
    (starts : bundle.arena.SameStarts arena)
    (spacing : Spacing) :
    Alike (bundle.Respells bundle.arena arena spacing) (bundle.write spacing)
      ({ bundle with arena := arena }.write spacing) := by
  rw [write, write, chunks_eq, chunks_eq]
  refine .map (Emission.alike_moduleChunks bundle.usage starts _) fun _ _ chunks => ?_
  rw [List.filter_flatMap, List.flatMap_assoc] at chunks
  exact ⟨_, _, chunks, rfl, rfl⟩

end Bundle

end ModularGlsl
