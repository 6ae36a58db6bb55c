import ModularGlsl.Proofs.Text.Numeral
import ModularGlsl.Proofs.Varyings

/-!
# Texts under other spacing

A line that is written breaks where no token goes on, or after a pragma, which has a line of
its own.  So the characters for line breaks and indentation have no part in the tokens: the
shortest text and the most readable one are the same program.
-/

namespace ModularGlsl

namespace Token

/-! ## Ends of lines -/

/-- Whether a token is a directive. -/
def isDirective : Token -> Bool
  | directive _ => true
  | _ => false

variable {token longer : Token} {char mark : Char}

theorem isDirective_start (noHash : char ≠ '#') :
    (start char).isDirective = false := by
  grind [start, isDirective]

theorem isDirective_extend? (grows : token.extend? char = some longer) :
    longer.isDirective = token.isDirective := by
  unfold extend? at grows
  split at grows <;> split at grows <;> grind [isDirective]

/-- Line breaks end every token, and other marks at the end of a line all but directives. -/
theorem extend?_lineEnd
    (isMark : mark ∈ "\n;\x7b\x7d".toList)
    (ends : token.isDirective = true -> mark = '\n') :
    token.extend? mark = none := by
  have notLong : longSymbols.all (·.getLast?.all (!"\n;\x7b\x7d".toList.contains ·)) = true := by
    decide
  have isOneOf : mark = '\n' ∨ mark = ';' ∨ mark = '\x7b' ∨ mark = '\x7d' := by simpa using isMark
  cases token with
  | symbol marks =>
      refine extend?_symbol (fun isLong => ?_) fun _ => ?_
      · have noMark := List.all_eq_true.mp notLong _ isLong
        rw [List.getLast?_concat, Option.all_some, List.contains_iff_mem.mpr isMark] at noMark
        cases noMark
      · rcases isOneOf with rfl | rfl | rfl | rfl <;> rfl
  | word | number => rcases isOneOf with rfl | rfl | rfl | rfl <;> rfl
  | directive => rw [extend?, if_pos (ends rfl)]

/-- What follows the end of a line is read on its own. -/
theorem lexFrom_lineEnd
    {rest other : List Char}
    (isMark : mark ∈ "\n;\x7b\x7d".toList)
    (same : lexFrom none rest = lexFrom none other)
    (text : List Char)
    (before : Option Token)
    (ends : mark = '\n' ∨ '#' ∉ text ∧ ∀ token ∈ before, token.isDirective = false) :
    lexFrom before (text ++ mark :: rest) = lexFrom before (text ++ mark :: other) := by
  -- Without hashes, the token that is being read never becomes a directive.
  induction text generalizing before with
  | nil =>
      have ended : before.bind (·.extend? mark) = none :=
        Option.bind_eq_none_iff.mpr fun token isToken => extend?_lineEnd isMark fun isDirective =>
          ends.resolve_right fun calm => by simp [calm.2 token isToken] at isDirective
      have isOneOf : mark = '\n' ∨ mark = ';' ∨ mark = '\x7b' ∨ mark = '\x7d' := by
        simpa using isMark
      rw [List.nil_append, List.nil_append, lexFrom, lexFrom, ended]
      refine congrArg (before.toList ++ ·) ?_
      rcases isOneOf with rfl | isOneOf
      · exact same
      · have closed : ∀ char, (symbol [mark]).extend? char = none := by
          rcases isOneOf with rfl | rfl | rfl <;> exact extend?_mark (by decide) (by decide)
        have alone (rest : List Char) : lexFrom (some (symbol [mark])) rest = _ :=
          reads_nil closed rest
        have begins : (if isBlank mark then none else some (start mark)) = some (symbol [mark]) := by
          rcases isOneOf with rfl | rfl | rfl <;> rfl
        rw [begins, alone, alone, same]
  | cons char text ih =>
      rw [List.cons_append, List.cons_append, lexFrom, lexFrom]
      cases grows : before.bind (·.extend? char) with
      | some longer =>
          refine ih _ (ends.imp_right fun calm => ⟨fun mem => calm.1 (.tail _ mem), ?_⟩)
          rintro _ ⟨⟩
          obtain ⟨token, isToken, grows⟩ := Option.bind_eq_some_iff.mp grows
          rw [isDirective_extend? grows, calm.2 token isToken]
      | none =>
          refine congrArg (before.toList ++ ·) (ih _ (ends.imp_right fun calm => ?_))
          refine ⟨fun mem => calm.1 (.tail _ mem), fun token isToken => ?_⟩
          split at isToken
          · cases isToken
          · cases isToken
            exact isDirective_start (List.ne_of_not_mem_cons calm.1).symm

end Token

open Token

/-! ## Pieces -/

variable {first second : Spacing}

/-- Under two spacings, pieces stand for the same tokens before texts that do. -/
def SameTokens
    (first second : Spacing)
    (pieces : List Piece) : Prop :=
  ∀ rest other, lexFrom none rest = lexFrom none other ->
    lexFrom none ((render first pieces).toList ++ rest) =
      lexFrom none ((render second pieces).toList ++ other)

theorem sameTokens_line
    {content : String}
    (noHash : '#' ∉ content.toList)
    (ends : endsLine content = true) :
    SameTokens first second [.text content] := by
  obtain ⟨mark, isLast, isMark⟩ := (Option.any_eq_true _ _).mp ends
  obtain ⟨early, content_eq⟩ := List.getLast?_eq_some_iff.mp isLast
  intro rest other same
  have noEarly : '#' ∉ early := fun mem => noHash (by simp [content_eq, mem])
  have lines := lexFrom_lineEnd (.tail _ (List.contains_iff_mem.mp isMark)) same early none
    (.inr ⟨noEarly, nofun⟩)
  simpa [render, Piece.render, content_eq] using lines

/-! ## Hashes -/

/-- The text of what is mentioned. -/
def Mention.text (arena : Arena) : Mention -> String
  | name var => arena.name var
  | word content => content

theorem hash_not_mem_int (value : Int) : '#' ∉ (toString value).toList := by
  rw [toList_intText]
  split <;> simp [(isNumeral_toDigits _).noHash]

theorem hash_not_mem_float (value : Decimal.Binary64) :
    '#' ∉ (floatFormat.text value).toList := by
  have sign : '#' ∉ (if value.isNegative then "-" else "").toList := by split <;> decide
  unfold Decimal.Format.text
  dsimp only
  split
  · split <;> simp [floatFormat, sign]
  · split
    · simp [sign]
    next nonzero =>
      simp [sign, (isNumeral_magnitude (Bool.eq_false_iff.mpr nonzero)).noHash]

section Pieces

variable {arena : Arena} {mentions : List Mention}

theorem Respelled.hash_not_mem
    {left right : String}
    (respelled : Respelled arena arena mentions left right)
    (noHash : ∀ mention ∈ mentions, '#' ∉ (mention.text arena).toList) :
    '#' ∉ left.toList := by
  induction respelled with
  | fixed content listed =>
      have plain : ∀ content ∈ fixedTexts, '#' ∉ content.toList := by decide
      exact plain content (List.contains_iff_mem.mp listed)
  | int value => exact hash_not_mem_int value
  | float value => exact hash_not_mem_float value
  | word | name => exact noHash _ (List.mem_singleton_self _)
  | append _ _ early late =>
      obtain ⟨own, others⟩ := List.forall_mem_append.mp noHash
      simp [early own, late others]

/-- Pieces without hashes stand for the same tokens. -/
theorem Laid.sameTokens
    {pieces laid : List Piece}
    (related : Laid arena arena mentions pieces laid)
    (noHash : ∀ mention ∈ mentions, '#' ∉ (mention.text arena).toList)
    (blank : first.IsBlank)
    (otherBlank : second.IsBlank) :
    SameTokens first second pieces := by
  induction related with
  | nil => exact fun _ _ same => same
  | line respelled ends => exact sameTokens_line (respelled.hash_not_mem noHash) ends
  | @head _ left _ respelled =>
      have noHash : '#' ∉ (left ++ "\x7b").toList := by simp [respelled.hash_not_mem noHash]
      have line : SameTokens first second _ := sameTokens_line noHash (endsLine_append left rfl)
      simpa [SameTokens, render, Piece.render] using line
  | pragma content marked => exact absurd marked (noHash _ (List.mem_singleton_self _))
  | gap piece noText =>
      intro rest other same
      have skips := reads_blanks (blank.isBlank piece noText) rest
      have skipsOther := reads_blanks (otherBlank.isBlank piece noText) other
      simpa [render, skips, skipsOther] using same
  | append _ _ early late =>
      obtain ⟨own, others⟩ := List.forall_mem_append.mp noHash
      intro rest other same
      simpa using early own _ _ (late others _ _ same)

/-- Pragmas. -/
def Stmt.isPragma : Stmt -> Bool
  | .extension _ _ _ => true
  | _ => false

/-- A statement without hashes stands for the same tokens, and a pragma is a single text. -/
theorem Stmt.sameTokens
    {usage : Usage}
    {stmt : Stmt}
    {pieces : List Piece}
    (pieces_eq : Emission.stmtPieces arena usage 0 stmt = .ok pieces)
    (noHash : stmt.isPragma = false ->
      ∀ mention ∈ stmt.mentions usage, '#' ∉ (mention.text arena).toList)
    (blank : first.IsBlank)
    (otherBlank : second.IsBlank) :
    SameTokens first second pieces ∨ ∃ content, pieces = [.text content] := by
  cases isPragma : stmt.isPragma with
  | true =>
      cases stmt with
      | extension =>
          cases pieces_eq
          exact .inr ⟨_, rfl⟩
      | _ => cases isPragma
  | false =>
      have alike : Alike (Laid arena arena _) _ _ :=
        Emission.alike_stmtPieces usage (fun _ => .inl rfl) 0 stmt
      rw [pieces_eq] at alike
      cases alike with
      | ok laid => exact .inl (laid.sameTokens (noHash isPragma) blank otherBlank)

end Pieces

/-! ## Bundles -/

/-- Chunks that stand for the same tokens or are single texts, on lines of their own. -/
theorem lexFrom_intercalate
    {chunks : List (List Piece)}
    (each : ∀ chunk ∈ chunks, SameTokens first second chunk ∨ ∃ content, chunk = [.text content]) :
    lexFrom none ("\n".intercalate (chunks.map (render first))).toList =
      lexFrom none ("\n".intercalate (chunks.map (render second))).toList := by
  induction chunks with
  | nil => rfl
  | cons chunk rest ih =>
      obtain ⟨own, others⟩ := List.forall_mem_cons.mp each
      cases rest with
      | nil =>
          rcases own with agree | ⟨content, rfl⟩
          · simpa using agree [] [] rfl
          · rfl
      | cons next rest =>
          have same := ih others
          rcases own with agree | ⟨content, rfl⟩
          · simpa using agree ('\n' :: _) ('\n' :: _) same
          · simpa [render, Piece.render] using
              lexFrom_lineEnd (by decide) same content.toList none (.inl rfl)

namespace Bundle

/-- Whether pragmas stand at module level only and no other text that is written has a hash, as
identifiers have none. -/
def separatesPragmas (bundle : Bundle) : Bool :=
  bundle.modules.all fun module =>
    (module.statements.filter (·.isKept bundle.usage true)).all fun stmt =>
      stmt.isPragma || (stmt.mentions bundle.usage).all fun mention =>
        !(mention.text bundle.arena).toList.contains '#'

/-- Under any two blank spacings, a bundle is written or fails in the same way, and the texts
stand for the same tokens. -/
theorem write_respaced
    (bundle : Bundle)
    (separates : bundle.separatesPragmas = true)
    (blank : first.IsBlank)
    (otherBlank : second.IsBlank) :
    Alike (fun text other => lex text = lex other) (bundle.write first)
      (bundle.write second) := by
  rw [write, write, chunks_eq]
  cases outcome : Emission.moduleChunks bundle.arena bundle.usage
    (bundle.modules.flatMap Module.statements) with
  | error error => exact .error error
  | ok found =>
      obtain ⟨lines, rfl, written⟩ := Emission.areWritten_of_moduleChunks outcome
      have each (chunk : List Piece) (mem : chunk ∈ lines.map Prod.snd) :
          SameTokens first second chunk ∨ ∃ content, chunk = [.text content] := by
        obtain ⟨⟨stmt, pieces⟩, isLine, rfl⟩ := List.mem_map.mp mem
        obtain ⟨module, isModule, isStmt⟩ :=
          List.mem_flatMap.mp (written.sublist.subset (List.mem_map_of_mem isLine))
        refine Stmt.sameTokens (written.pieces_eq _ isLine) (fun isOther => ?_) blank otherBlank
        have isKept := List.mem_filter.mpr ⟨isStmt, written.kept _ isLine⟩
        have plain := List.all_eq_true.mp (List.all_eq_true.mp separates module isModule) _ isKept
        rw [isOther, Bool.false_or, List.all_eq_true] at plain
        simpa using plain
      have same := lexFrom_intercalate each
      refine .ok ?_
      cases bundle.version with
      | none => simpa [lex, versionLine] using same
      | some version =>
          simpa [lex, versionLine, toString] using
            lexFrom_lineEnd (by decide) same s!"#version {version}".toList none (.inl rfl)

end Bundle

/-- The program after a pragma. -/
def Sample.extended : Bundle :=
  (Bundle.empty .vertex .readable).append { program with
    statements := .extension "GL_OES_texture_3D" "enable" {} :: program.statements }

namespace Bundle

/-- A program with a pragma, on as few lines as there can be and on many. -/
theorem write_extended_respaced :
    ∃ result, finalize Sample.library Sample.extended = .ok () result ∧
      result.separatesPragmas = true ∧
      Alike (fun text other => lex text = lex other) (result.write ⟨"", ""⟩)
        (result.write ⟨"\n", "\t"⟩) := by
  have passed : passes separatesPragmas (finalize Sample.library Sample.extended) = true := by
    decide +kernel
  obtain ⟨result, run, separates⟩ := exists_of_passes passed
  exact ⟨result, run, separates, result.write_respaced separates ⟨rfl, rfl⟩ ⟨rfl, rfl⟩⟩

end Bundle

end ModularGlsl
