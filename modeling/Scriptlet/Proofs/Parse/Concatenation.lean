import Scriptlet.Proofs.Parse.Completeness
import Scriptlet.Proofs.Parse.LargerBound
import Scriptlet.Proofs.Token.Coverage

/-!
# Sources one after another

A source that ends with a semicolon outside of every brace can be followed by any other source: the
two together are read as the first one's statements followed by whatever is read from the second one
alone, problems included.

Three things could go wrong.  The last token of the first source might go on in the second one, but
a semicolon does not.  A statement of the first source might go on, but it stops at its semicolon or
at the statement after it.  And a block might not be closed at the end of the first source, which it
need not be; but then more braces are opened than closed.
-/

namespace Scriptlet

/-! ## Scanning -/

namespace Token

theorem Lexeme.append {token : Token} {text rest : List Char} (lexeme : Lexeme token text rest)
    (apart : rest ≠ [] ∨ token = .symbol .semicolon) (more : List Char) :
    Lexeme token text (rest ++ more) := by
  cases rest with
  | nil =>
      rcases apart with nonempty | rfl
      · exact absurd rfl nonempty
      · cases lexeme with
        | symbol maximal =>
            refine .symbol ?_
            intro c _ other
            cases other <;> simp [Symbol.spelling]
  | cons c rest =>
      cases lexeme with
      | integer nonempty inClass maximal => exact .integer nonempty inClass maximal
      | keyword maximal => exact .keyword maximal
      | identifier nonempty inClass notReserved maximal =>
          exact .identifier nonempty inClass notReserved maximal
      | closed noQuote => exact .closed noQuote
      | symbol maximal => exact .symbol maximal
      | illegal notSeparator notDigit notWordChar notQuote notSymbol =>
          exact .illegal notSeparator notDigit notWordChar notQuote notSymbol

theorem Covers.separators {gap : List Char} {tokens : List Token} {rest : List Char}
    (separators : gap.all Char.isWhitespace = true) (covers : Covers tokens rest) :
    Covers tokens (gap ++ rest) := by
  rw [covers_iff_scan_eq] at covers ⊢
  rw [scan_separators separators, covers]

theorem Covers.append {tokens others : List Token} {text more : List Char}
    (covers : Covers tokens text) (ends : tokens.getLast? = some (.symbol .semicolon))
    (follows : Covers others more) : Covers (tokens ++ others) (text ++ more) := by
  induction covers with
  | finished separators => cases ends
  | @token gap token text tokens rest separators lexeme covers ih =>
      simp only [List.append_assoc, List.cons_append]
      cases tokens with
      | nil =>
          cases ends
          cases covers with
          | finished trailing =>
              exact .token separators (lexeme.append (.inr rfl) more)
                (follows.separators trailing)
      | cons next tokens =>
          have nonempty : rest ≠ [] := by
            rintro rfl
            rw [covers_iff_scan_eq, scan] at covers
            cases covers
          rw [List.getLast?_cons_cons] at ends
          exact .token separators (lexeme.append (.inl nonempty) more) (ih ends)

/-- What follows a semicolon is scanned by itself. -/
theorem scan_append {text : List Char} (ends : (scan text).getLast? = some (.symbol .semicolon))
    (more : List Char) : scan (text ++ more) = scan text ++ scan more :=
  covers_iff_scan_eq.1 ((covers_scan text).append ends (covers_scan more))

/-! ## Braces -/

/-- How many more braces are opened than closed. -/
def unclosed (tokens : List Token) : Int :=
  tokens.count (.symbol .leftBrace) - tokens.count (.symbol .rightBrace)

@[simp] theorem unclosed_append (front back : List Token) :
    unclosed (front ++ back) = unclosed front + unclosed back := by
  simp only [unclosed, List.count_append]
  omega

theorem unclosed_cons (token : Token) (tokens : List Token) :
    unclosed (token :: tokens) = unclosed [token] + unclosed tokens :=
  unclosed_append [token] tokens

end Token

namespace Spelling

open Grammar Reader Token

/-- Tokens close a number of braces more than they open, and do not end with a semicolon; or fewer,
but then they reach to the end of the input. -/
def Closes (level : Int) (tokens rest : List Token) : Prop :=
  ∃ front, tokens = front ++ rest ∧
    (unclosed front = -level ∧ (∃ last, front.getLast? = some last ∧ last ≠ .symbol .semicolon) ∨
      rest = [] ∧ -level < unclosed front)

namespace Closes

variable {level : Int} {tokens middle rest : List Token} {token : Token}

theorem single (ends : token ≠ .symbol .semicolon) :
    Closes (-unclosed [token]) (token :: rest) rest :=
  ⟨[token], rfl, .inl ⟨(Int.neg_neg _).symm, token, rfl, ends⟩⟩

theorem cons (token : Token) (closes : Closes level tokens rest) :
    Closes (level - unclosed [token]) (token :: tokens) rest := by
  obtain ⟨front, rfl, closed⟩ := closes
  refine ⟨token :: front, rfl, ?_⟩
  rw [unclosed_cons token front]
  rcases closed with ⟨balanced, last, found, ends⟩ | ⟨rfl, opened⟩
  · refine .inl ⟨by omega, last, ?_, ends⟩
    rw [List.getLast?_cons, found]
    rfl
  · exact .inr ⟨rfl, by omega⟩

theorem trans (first : Closes 0 tokens middle) (second : Closes level middle rest) :
    Closes level tokens rest := by
  obtain ⟨front, rfl, closed⟩ := first
  obtain ⟨back, rfl, ended⟩ := second
  refine ⟨front ++ back, (List.append_assoc _ _ _).symm, ?_⟩
  rw [unclosed_append]
  rcases ended with ⟨balanced, last, found, ends⟩ | ⟨rfl, opened⟩
  · rcases closed with ⟨frontBalanced, _⟩ | ⟨atEnd, _⟩
    · refine .inl ⟨by omega, last, ?_, ends⟩
      rw [List.getLast?_append, found]
      rfl
    · -- The first part has reached the end, so nothing is left for the second one.
      obtain ⟨rfl, _⟩ := List.append_eq_nil_iff.1 atEnd
      cases found
  · refine .inr ⟨rfl, ?_⟩
    rcases closed with ⟨frontBalanced, _⟩ | ⟨_, frontOpened⟩ <;> omega

/-- An opening brace and what closes it. -/
theorem brace (closes : Closes 1 tokens rest) : Closes 0 (.symbol .leftBrace :: tokens) rest :=
  closes.cons _

/-- Any token but a brace leaves the level as it is. -/
theorem after (token : Token) (closes : Closes level tokens rest)
    (noBrace : unclosed [token] = 0 := by rfl) : Closes level (token :: tokens) rest := by
  have after := closes.cons token
  rwa [noBrace, Int.sub_zero] at after

end Closes

theorem Parameters.closes {names : List String} {tokens rest : List Token}
    (spelled : Parameters names tokens rest) : Closes 0 tokens rest := by
  induction spelled with
  | none => exact .single (by decide)
  | last => exact (Closes.single (by decide)).after _
  | more spelled ih => exact (ih.after _).after _

theorem Closes.closing {close : Symbol} {rest : List Token} (closes : closesElements close = true) :
    Closes 0 (.symbol close :: rest) rest := by
  cases close <;> first | exact .single (by decide) | exact absurd closes (by decide)

mutual

theorem Placed.closes {slot : Slot} {expr : Expr} {tokens rest : List Token} :
    Placed slot expr tokens rest → Closes 0 tokens rest
  | .bare _ spelled => spelled.closes
  | .grouped inner => (inner.closes.trans (.closing rfl)).after _

theorem Bare.closes {expr : Expr} {tokens rest : List Token} :
    Bare expr tokens rest → Closes 0 tokens rest
  | .identifier => .single nofun
  | .integer _ => .single nofun
  | .string => .single nofun
  | .truth => .single nofun
  | .falsity => .single nofun
  | .array spelled => (spelled.closes rfl).after _
  | .dictionary spelled => spelled.closes.brace
  | @Bare.unary op _ _ _ spelled => spelled.closes.after _ (by cases op <;> rfl)
  | @Bare.binary _ op _ _ _ _ spelledLeft spelledRight =>
      spelledLeft.closes.trans (spelledRight.closes.after _ (by cases op <;> rfl))
  | .conditional spelledCondition spelledConsequence _ =>
      have consequence := (spelledConsequence.closes rfl).brace.after (.symbol .rightParen)
      ((spelledCondition.closes.trans consequence).after _).after _
  | .alternative spelledCondition spelledConsequence spelledAlternative =>
      have alternative := (spelledAlternative.closes rfl).brace.after (.keyword .elseWord)
      have consequence := ((spelledConsequence.closes rfl).brace.trans alternative).after
        (.symbol .rightParen)
      ((spelledCondition.closes.trans consequence).after _).after _
  | .function spelledParameters spelledBody =>
      ((spelledParameters.closes.trans (spelledBody.closes rfl).brace).after _).after _
  | .call spelledCallee spelledArguments =>
      spelledCallee.closes.trans ((spelledArguments.closes rfl).after _)
  | .index spelledCollection spelledPosition =>
      have position := (spelledPosition.closes.trans (.closing rfl)).after (.symbol .leftBracket)
      spelledCollection.closes.trans position

theorem Elements.closes {close : Symbol} {exprs : List Expr} {tokens rest : List Token} :
    Elements close exprs tokens rest → closesElements close = true → Closes 0 tokens rest
  | .none, closes => .closing closes
  | .last spelled, closes => spelled.closes.trans (.closing closes)
  | .more spelled spelledOthers, closes =>
      spelled.closes.trans ((spelledOthers.closes closes).after _)

theorem Pairs.closes {pairs : List (Expr × Expr)} {tokens rest : List Token} :
    Pairs pairs tokens rest → Closes 1 tokens rest
  | .none => .single (by decide)
  | .last spelledKey spelledValue =>
      have value := spelledValue.closes.trans (.single (by decide))
      spelledKey.closes.trans (value.after (.symbol .colon))
  | .more spelledKey spelledValue spelledOthers =>
      have value := spelledValue.closes.trans (spelledOthers.closes.after (.symbol .comma))
      spelledKey.closes.trans (value.after (.symbol .colon))

theorem Statement.closes {stmt : Stmt} {tokens rest : List Token} :
    Statement stmt tokens rest → Closes 0 tokens rest
  | .bind spelled => ((spelled.closes.after _).after _).after _
  | .returns spelled => spelled.closes.after _
  | .expression spelled => spelled.closes

theorem Statements.closes {inBlock : Bool} {stmts : List Stmt} {tokens rest : List Token} :
    Statements inBlock stmts tokens rest → inBlock = true → Closes 1 tokens rest
  | .closed, _ => .single (by decide)
  | .finished, _ => ⟨[], rfl, .inr ⟨rfl, by decide⟩⟩
  | .terminated spelled spelledOthers, block =>
      spelled.closes.trans ((spelledOthers.closes block).after _)
  | .detached spelled _ spelledOthers, block => spelled.closes.trans (spelledOthers.closes block)

end

/-! ## More tokens behind -/

theorem frontKind_append {tokens : List Token} (nonempty : tokens ≠ []) (more : List Token) :
    frontKind (tokens ++ more) = frontKind tokens := by
  cases tokens with
  | nil => exact absurd rfl nonempty
  | cons token tokens => rfl

theorem Detached.append {rest : List Token} (detached : Detached rest) (nonempty : rest ≠ [])
    (more : List Token) : Detached (rest ++ more) := by
  constructor
  · rw [frontKind_append nonempty]
    exact detached.continuesNothing
  · rw [frontKind_append nonempty]
    exact detached.noSemicolon

theorem Parameters.append {names : List String} {tokens rest : List Token}
    (spelled : Parameters names tokens rest) (more : List Token) :
    Parameters names (tokens ++ more) (rest ++ more) := by
  induction spelled with
  | none => exact .none
  | last => exact .last
  | more spelled ih => exact .more ih

theorem Statements.ne_nil {inBlock : Bool} {stmts : List Stmt} {tokens rest : List Token}
    (spelled : Statements inBlock stmts tokens rest) (nonempty : rest ≠ []) : tokens ≠ [] := by
  have consumed := spelled.length_le
  have positive := List.length_pos_iff.2 nonempty
  exact List.length_pos_iff.1 (Nat.lt_of_lt_of_le positive consumed)

-- A spelling that leaves something over has closed its last block, so its end does not move.
mutual

theorem Placed.append {slot : Slot} {expr : Expr} {tokens rest : List Token} (more : List Token) :
    Placed slot expr tokens rest → rest ≠ [] → Placed slot expr (tokens ++ more) (rest ++ more)
  | .bare admitted spelled, nonempty => .bare admitted (spelled.append more nonempty)
  | .grouped inner, _ => .grouped (inner.append more nofun)

theorem Bare.append {expr : Expr} {tokens rest : List Token} (more : List Token) :
    Bare expr tokens rest → rest ≠ [] → Bare expr (tokens ++ more) (rest ++ more)
  | .identifier, _ => .identifier
  | .integer fits, _ => .integer fits
  | .string, _ => .string
  | .truth, _ => .truth
  | .falsity, _ => .falsity
  | .array spelled, nonempty => .array (spelled.append more nonempty)
  | .dictionary spelled, nonempty => .dictionary (spelled.append more nonempty)
  | .unary spelled, nonempty => .unary (spelled.append more nonempty)
  | .binary spelledLeft spelledRight, nonempty =>
      .binary (spelledLeft.append more nofun) (spelledRight.append more nonempty)
  | .conditional spelledCondition spelledConsequence noElse, nonempty =>
      .conditional (spelledCondition.append more nofun) (spelledConsequence.append more nonempty)
        (by rwa [frontKind_append nonempty])
  | .alternative spelledCondition spelledConsequence spelledAlternative, nonempty =>
      .alternative (spelledCondition.append more nofun) (spelledConsequence.append more nofun)
        (spelledAlternative.append more nonempty)
  | .function spelledParameters spelledBody, nonempty =>
      .function (spelledParameters.append more) (spelledBody.append more nonempty)
  | .call spelledCallee spelledArguments, nonempty =>
      .call (spelledCallee.append more nofun) (spelledArguments.append more nonempty)
  | .index spelledCollection spelledPosition, _ =>
      .index (spelledCollection.append more nofun) (spelledPosition.append more nofun)

theorem Elements.append {close : Symbol} {exprs : List Expr} {tokens rest : List Token}
    (more : List Token) :
    Elements close exprs tokens rest → rest ≠ [] →
      Elements close exprs (tokens ++ more) (rest ++ more)
  | .none, _ => .none
  | .last spelled, _ => .last (spelled.append more nofun)
  | .more spelled spelledOthers, nonempty =>
      .more (spelled.append more nofun) (spelledOthers.append more nonempty)

theorem Pairs.append {pairs : List (Expr × Expr)} {tokens rest : List Token}
    (more : List Token) :
    Pairs pairs tokens rest → rest ≠ [] → Pairs pairs (tokens ++ more) (rest ++ more)
  | .none, _ => .none
  | .last spelledKey spelledValue, _ =>
      .last (spelledKey.append more nofun) (spelledValue.append more nofun)
  | .more spelledKey spelledValue spelledOthers, nonempty =>
      .more (spelledKey.append more nofun) (spelledValue.append more nofun)
        (spelledOthers.append more nonempty)

theorem Statement.append {stmt : Stmt} {tokens rest : List Token} (more : List Token) :
    Statement stmt tokens rest → rest ≠ [] → Statement stmt (tokens ++ more) (rest ++ more)
  | .bind spelled, nonempty => .bind (spelled.append more nonempty)
  | .returns spelled, nonempty => .returns (spelled.append more nonempty)
  | .expression spelled, nonempty => .expression (spelled.append more nonempty)

theorem Statements.append {inBlock : Bool} {stmts : List Stmt} {tokens rest : List Token}
    (more : List Token) :
    Statements inBlock stmts tokens rest → rest ≠ [] →
      Statements inBlock stmts (tokens ++ more) (rest ++ more)
  | .closed, _ => .closed
  | .finished, nonempty => absurd rfl nonempty
  | .terminated spelled spelledOthers, nonempty =>
      .terminated (spelled.append more nofun) (spelledOthers.append more nonempty)
  | .detached spelled detached spelledOthers, nonempty =>
      have middleNonempty := spelledOthers.ne_nil nonempty
      .detached (spelled.append more middleNonempty) (detached.append middleNonempty more)
        (spelledOthers.append more nonempty)

end

/-! ## Reading on -/

/-- Tokens that whatever follows them cannot change: the last statement has its semicolon, and no
block is open. -/
structure Separate (tokens : List Token) : Prop where
  ends : ∀ last ∈ tokens.getLast?, last = .symbol .semicolon
  balanced : unclosed tokens = 0

theorem Separate.of_append {front back : List Token} (separate : Separate (front ++ back))
    (balanced : unclosed front = 0) : Separate back := by
  constructor
  · intro last found
    apply separate.ends
    simp_all [List.getLast?_append]
  · have whole := separate.balanced
    rw [unclosed_append, balanced, Int.zero_add] at whole
    exact whole

/-- The first statement of separate tokens is read with its semicolon, if it has one, and no
further. -/
theorem Complete.first_append {limit : Nat} {reader : ExprReader} (complete : Complete limit reader)
    {stmt : Stmt} {others : List Stmt} {tokens more : List Token}
    (spelled : Statements false (stmt :: others) tokens []) (separate : Separate tokens)
    (short : (tokens ++ more).length < limit) :
    ∃ after, Grammar.statement reader (tokens ++ more) = .done (some stmt) (after ++ more) [] ∧
      after.length < tokens.length ∧ Statements false others after [] ∧ Separate after := by
  cases spelled with
  | @terminated _ _ _ _ after _ spelled spelledOthers =>
      obtain ⟨front, rfl, ⟨balanced, _⟩ | ⟨impossible, _⟩⟩ := spelled.closes
      · have semicolon : accept .semicolon (.symbol .semicolon :: after ++ more) =
            .done true (after ++ more) [] := accept_true_iff.2 rfl
        have read := statement_complete complete (spelled.append more nofun) rfl semicolon
          (Nat.lt_add_right _ short)
        have behind : Separate ([.symbol .semicolon] ++ after) := separate.of_append balanced
        refine ⟨after, read, ?_, spelledOthers, behind.of_append rfl⟩
        simp only [List.length_append, List.length_cons]
        omega
      · cases impossible
  | @detached _ _ _ _ after _ spelled detached spelledOthers =>
      have consumed := spelled.length_lt
      obtain ⟨front, rfl, closed⟩ := spelled.closes
      have nonempty : after ≠ [] := by
        rintro rfl
        rw [List.append_nil] at separate
        rcases closed with ⟨_, last, found, different⟩ | ⟨_, opened⟩
        · exact different (separate.ends last found)
        · rw [separate.balanced] at opened
          exact absurd opened (by decide)
      rcases closed with ⟨balanced, _⟩ | ⟨impossible, _⟩
      · have detached := detached.append nonempty more
        have semicolon := accept_false_iff.2 ⟨detached.noSemicolon, rfl⟩
        have read := statement_complete complete (spelled.append more nonempty)
          detached.continuesNothing semicolon (Nat.lt_add_right _ short)
        exact ⟨after, read, consumed, spelledOthers, separate.of_append balanced⟩
      · exact absurd impossible nonempty

end Spelling

/-- Changes the value of a reply. -/
def Reply.map {α β : Type} (f : α → β) : Reply α → Reply β
  | done value rest issues => .done (f value) rest issues
  | stopped reason issues => .stopped reason issues

theorem Reader.bind_pure_eq_map {α β : Type} (first : Reader α) (f : α → β) (tokens : List Token) :
    (first >>= fun value => Pure.pure (f value)) tokens = (first tokens).map f := by
  change Reader.bind first _ tokens = _
  unfold Reader.bind
  cases first tokens with
  | done value rest issues =>
      change Reply.done (f value) rest (issues ++ []) = _
      rw [List.append_nil]
      rfl
  | stopped reason issues => rfl

/-- After separate tokens, reading starts anew. -/
theorem Grammar.statements_append {stmts : List Stmt} {tokens more : List Token} {limit bound : Nat}
    (spelled : Spelling.Statements false stmts tokens []) (separate : Spelling.Separate tokens)
    (short : (tokens ++ more).length < limit) (shortLoop : (tokens ++ more).length < bound) :
    Grammar.statements (Grammar.expression limit) bound (tokens ++ more) =
      (Grammar.program (more.length + 1) more).map (stmts ++ ·) := by
  induction stmts generalizing tokens bound with
  | nil =>
      cases spelled
      rw [List.nil_append] at short shortLoop ⊢
      rw [statements_of_le short shortLoop]
      cases Grammar.program (more.length + 1) more <;> rfl
  | cons stmt others ih =>
      obtain ⟨after, firstRead, shorter, spelledOthers, separateAfter⟩ :=
        (Spelling.complete_expression limit).first_append spelled separate short
      rw [List.length_append] at short shortLoop
      cases bound with
      | zero => exact absurd shortLoop (Nat.not_lt_zero _)
      | succ bound =>
          have othersRead := @ih after bound spelledOthers separateAfter
            (by rw [List.length_append]; omega) (by rw [List.length_append]; omega)
          unfold Grammar.statements
          split
          · next empty =>
              rw [(List.append_eq_nil_iff.1 empty).1] at shorter
              exact absurd shorter (Nat.not_lt_zero _)
          · rw [Reader.bind_of_done firstRead, Reader.bind_pure_eq_map, othersRead]
            cases Grammar.program (more.length + 1) more <;> rfl

theorem parseTokens_append {program : Program} {tokens : List Token}
    (spelled : program.SpelledBy tokens) (separate : Spelling.Separate tokens) (more : List Token) :
    (parseTokens (tokens ++ more)).errors = (parseTokens more).errors ∧
      ((∀ error ∈ (parseTokens more).errors, error.isFatal = false) →
        (parseTokens (tokens ++ more)).program.statements =
          program.statements ++ (parseTokens more).program.statements) := by
  have read : Grammar.program ((tokens ++ more).length + 1) (tokens ++ more) = _ :=
    Grammar.statements_append spelled separate (Nat.lt_succ_self _) (Nat.lt_succ_self _)
  have leaves := Grammar.leaves_program more
  unfold parseTokens
  rw [read]
  cases ended : Grammar.program (more.length + 1) more with
  | done stmts rest issues => exact ⟨rfl, fun _ => rfl⟩
  | stopped reason issues =>
      rw [ended] at leaves
      cases reason with
      | unexpected expected found =>
          refine ⟨rfl, ?_⟩
          intro noFatal
          have harmless := noFatal (.unexpectedToken expected found)
            (List.mem_append_right _ (List.mem_singleton_self _))
          cases harmless
      | boundSpent => exact absurd rfl leaves

/-- A source without errors whose last token is a semicolon and that closes every brace it opens
leaves to the source after it all problems and, unless they end the reading, all other statements. -/
theorem parse_append {first second : String} {tokens : List Token} {front : ParseResult}
    (scanned : Token.ofSource first = .ok tokens) (parsed : parse first = .ok front)
    (noErrors : front.errors = []) (ends : tokens.getLast? = some (.symbol .semicolon))
    (balanced : tokens.count (.symbol .leftBrace) = tokens.count (.symbol .rightBrace))
    (visible : Text.allBlank second.toList = false) :
    ∃ back whole, parse second = .ok back ∧ parse (first ++ second) = .ok whole ∧
      whole.errors = back.errors ∧
      ((∀ error ∈ back.errors, error.isFatal = false) →
        whole.program.statements = front.program.statements ++ back.program.statements) := by
  obtain ⟨_, found, rfl⟩ := tokens_of_parse parsed
  rw [scanned] at found
  cases found
  have secondScanned : Token.ofSource second = .ok (Token.scan second.toList) := by
    rw [Token.ofSource, visible]
    rfl
  have wholeScanned : Token.ofSource (first ++ second) =
      .ok (tokens ++ Token.scan second.toList) := by
    rw [Token.scan_of_ofSource scanned] at ends ⊢
    have visibleWhole : Text.allBlank (first ++ second).toList = false := by
      simp_all [Text.allBlank]
    rw [Token.ofSource, visibleWhole, String.toList_append, Token.scan_append ends]
    rfl
  have separate : Spelling.Separate tokens := by
    constructor
    · simp_all
    · rw [Token.unclosed, balanced, Int.sub_self]
  refine ⟨parseTokens (Token.scan second.toList), parseTokens (tokens ++ Token.scan second.toList),
    ?_, ?_, parseTokens_append (spelledBy_of_parseTokens noErrors) separate _⟩
  · rw [parse, secondScanned]
    rfl
  · rw [parse, wholeScanned]
    rfl

end Scriptlet
