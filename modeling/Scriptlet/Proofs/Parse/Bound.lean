import Scriptlet.Proofs.Parse.Reading

/-!
# The bound of reading is never spent

Every round of a loop and every level of nesting consumes a token before the next one starts, so
more rounds and levels than tokens are never needed: on fewer tokens than its bound allows, a reader
ends or stops at an unexpected token.  Each lemma here says how many tokens a reader leaves at most.
-/

namespace Scriptlet

/-- A reply that leaves no more than a number of tokens, unless a token was unexpected. -/
def Reply.Leaves {α : Type} (limit : Nat) : Reply α → Prop
  | done _ rest _ => rest.length ≤ limit
  | stopped reason _ => reason ≠ .boundSpent

theorem Reply.Leaves.mono {α : Type} {reply : Reply α} {smaller limit : Nat}
    (leaves : reply.Leaves smaller) (le : smaller ≤ limit) : reply.Leaves limit := by
  cases reply with
  | done value rest issues => exact Nat.le_trans leaves le
  | stopped reason issues => exact leaves

namespace Reader

variable {α β : Type} {tokens : List Token} {limit : Nat}

theorem leaves_bind {first : Reader α} {next : α → Reader β} {middle : Nat}
    (firstLeaves : (first tokens).Leaves middle)
    (nextLeaves : ∀ value rest, rest.length ≤ middle → (next value rest).Leaves limit) :
    ((first >>= next) tokens).Leaves limit := by
  change (Reader.bind first next tokens).Leaves limit
  unfold Reader.bind
  cases ended : first tokens with
  | stopped reason issues =>
      rw [ended] at firstLeaves
      exact firstLeaves
  | done value rest issues =>
      rw [ended] at firstLeaves
      have continued := nextLeaves value rest firstLeaves
      change ((next value rest).after issues).Leaves limit
      cases continuation : next value rest with
      | stopped reason later | done result last later =>
          rw [continuation] at continued
          exact continued

theorem leaves_pure {value : α} (short : tokens.length ≤ limit) :
    ((pure value : Reader α) tokens).Leaves limit := short

/-- A required symbol that is there leaves fewer tokens. -/
theorem leaves_expect_bind {mark : Symbol} {next : Unit → Reader α}
    (nextLeaves : ∀ rest, rest.length < tokens.length → (next () rest).Leaves limit) :
    ((expect mark >>= next) tokens).Leaves limit := by
  by_cases front : frontKind tokens = .symbol mark
  · obtain ⟨rest, rfl⟩ := frontKind_symbol_iff.1 front
    rw [expect_bind]
    exact nextLeaves rest (Nat.lt_succ_self _)
  · have stopped : ∃ kind, expect mark tokens = .stopped (.unexpected (.symbol mark) kind) [] := by
      unfold expect
      split
      · split
        · next equal => exact absurd (by rw [equal]; rfl) front
        · exact ⟨_, rfl⟩
      · exact ⟨_, rfl⟩
    obtain ⟨kind, stopped⟩ := stopped
    change (Reader.bind (expect mark) next tokens).Leaves limit
    unfold Reader.bind
    rw [stopped]
    simp [Reply.Leaves]

theorem leaves_expectIdentifier_bind {next : String → Reader α}
    (nextLeaves : ∀ name rest, rest.length < tokens.length → (next name rest).Leaves limit) :
    ((expectIdentifier >>= next) tokens).Leaves limit := by
  change (Reader.bind expectIdentifier next tokens).Leaves limit
  unfold Reader.bind expectIdentifier
  split
  · next ended =>
      split at ended
      · cases ended
        rw [after_nil]
        exact nextLeaves _ _ (Nat.lt_succ_self _)
      · cases ended
  · next ended =>
      split at ended
      · cases ended
      · cases ended
        simp [Reply.Leaves]

theorem accept_cases (mark : Symbol) (tokens : List Token) :
    (∃ rest, tokens = .symbol mark :: rest ∧ accept mark tokens = .done true rest []) ∨
      accept mark tokens = .done false tokens [] := by
  by_cases front : frontKind tokens = .symbol mark
  · obtain ⟨rest, rfl⟩ := frontKind_symbol_iff.1 front
    exact .inl ⟨rest, rfl, accept_true_iff.2 rfl⟩
  · exact .inr (accept_false_iff.2 ⟨front, rfl⟩)

theorem leaves_accept (mark : Symbol) : (accept mark tokens).Leaves tokens.length := by
  rcases accept_cases mark tokens with ⟨rest, rfl, accepted⟩ | refused
  · rw [accepted]
    exact Nat.le_succ _
  · rw [refused]
    exact Nat.le_refl _

theorem leaves_acceptKeyword (word : Keyword) :
    (acceptKeyword word tokens).Leaves tokens.length := by
  unfold acceptKeyword
  split
  · split
    · exact Nat.le_succ _
    · exact Nat.le_refl _
  · exact Nat.le_refl _

end Reader

namespace Grammar

open Reader

variable {reader : ExprReader} {limit bound : Nat} {tokens : List Token}

/-- A reader of expressions that consumes a token of any list shorter than the limit. -/
def Settling (limit : Nat) (reader : ExprReader) : Prop :=
  ∀ context tokens, tokens.length < limit → (reader context tokens).Leaves (tokens.length - 1)

theorem Settling.statementEnd (settling : Settling limit reader) (short : tokens.length < limit)
    (build : Expr → Stmt) :
    ((do
      let value ← reader .lowest
      let _ ← accept .semicolon
      return value.map build : Reader (Option Stmt)) tokens).Leaves (tokens.length - 1) := by
  apply leaves_bind (settling .lowest tokens short)
  intro value rest restShort
  apply leaves_bind (leaves_accept .semicolon)
  intro accepted last lastShort
  exact leaves_pure (Nat.le_trans lastShort restShort)

theorem Settling.statement (settling : Settling limit reader) (short : tokens.length < limit) :
    (Grammar.statement reader tokens).Leaves (tokens.length - 1) := by
  unfold Grammar.statement
  split
  · next rest =>
      have short : rest.length + 1 < limit := short
      apply leaves_expectIdentifier_bind
      intro name afterName nameShort
      apply leaves_expect_bind
      intro afterAssign assignShort
      apply Reply.Leaves.mono (settling.statementEnd (by omega) (.bind name))
      rw [List.length_cons]
      omega
  · next rest =>
      have short : rest.length + 1 < limit := short
      apply Reply.Leaves.mono (settling.statementEnd (by omega) .returns)
      rw [List.length_cons]
      omega
  · exact settling.statementEnd short .expression

/-- One round of the loops over statements. -/
theorem Settling.statements_cons (settling : Settling limit reader) {loop : Reader (List Stmt)}
    (loopLeaves : ∀ tokens, tokens.length < bound → tokens.length < limit →
      (loop tokens).Leaves tokens.length)
    (nonempty : tokens ≠ []) (inBound : tokens.length < bound + 1) (short : tokens.length < limit) :
    ((do
      let first ← Grammar.statement reader
      let others ← loop
      return first.toList ++ others : Reader (List Stmt)) tokens).Leaves tokens.length := by
  have positive := List.length_pos_iff.2 nonempty
  apply leaves_bind (settling.statement short)
  intro first rest restShort
  apply leaves_bind (loopLeaves rest (by omega) (by omega))
  intro others last lastShort
  exact leaves_pure (by omega)

theorem Settling.block (settling : Settling limit reader) :
    ∀ tokens, tokens.length < bound → tokens.length < limit →
      (Grammar.block reader bound tokens).Leaves tokens.length := by
  induction bound with
  | zero =>
      intro tokens inBound _
      exact absurd inBound (Nat.not_lt_zero _)
  | succ bound ih =>
      intro tokens inBound short
      unfold Grammar.block
      split
      · exact Nat.le_refl _
      · exact Nat.le_succ _
      · next nonempty _ => exact settling.statements_cons ih nonempty inBound short

theorem Settling.statements (settling : Settling limit reader) :
    ∀ tokens, tokens.length < bound → tokens.length < limit →
      (Grammar.statements reader bound tokens).Leaves tokens.length := by
  induction bound with
  | zero =>
      intro tokens inBound _
      exact absurd inBound (Nat.not_lt_zero _)
  | succ bound ih =>
      intro tokens inBound short
      unfold Grammar.statements
      split
      · exact Nat.le_refl _
      · next nonempty => exact settling.statements_cons ih nonempty inBound short

theorem Settling.moreElements (settling : Settling limit reader) (close : Symbol) :
    ∀ tokens, tokens.length < bound → tokens.length < limit →
      (Grammar.moreElements reader close bound tokens).Leaves tokens.length := by
  induction bound with
  | zero =>
      intro tokens inBound _
      exact absurd inBound (Nat.not_lt_zero _)
  | succ bound ih =>
      intro tokens inBound short
      unfold Grammar.moreElements
      rcases accept_cases .comma tokens with ⟨rest, rfl, accepted⟩ | refused
      · rw [List.length_cons] at inBound short ⊢
        rw [bind_of_done accepted]
        apply leaves_bind (settling .lowest rest (by omega))
        intro next middle middleShort
        apply leaves_bind (ih middle (by omega) (by omega))
        intro others last lastShort
        exact leaves_pure (by omega)
      · rw [bind_of_done refused]
        apply leaves_expect_bind
        intro rest restShort
        exact leaves_pure (by omega)

theorem Settling.elements (settling : Settling limit reader) (close : Symbol)
    (inBound : tokens.length < bound) (short : tokens.length < limit) :
    (Grammar.elements reader close bound tokens).Leaves tokens.length := by
  unfold Grammar.elements
  rcases accept_cases close tokens with ⟨rest, rfl, accepted⟩ | refused
  · rw [bind_of_done accepted]
    exact leaves_pure (Nat.le_succ _)
  · rw [bind_of_done refused]
    apply leaves_bind (settling .lowest tokens short)
    intro first middle middleShort
    apply leaves_bind (settling.moreElements close middle (by omega) (by omega))
    intro others last lastShort
    exact leaves_pure (by omega)

theorem leaves_expect (mark : Symbol) : (expect mark tokens).Leaves tokens.length := by
  unfold expect
  split
  · split
    · exact Nat.le_succ _
    · simp [Reply.Leaves]
  · simp [Reply.Leaves]

theorem leaves_pairEnd : (pairEnd tokens).Leaves tokens.length := by
  have seen : sees .rightBrace tokens =
      .done (frontKind tokens == .symbol .rightBrace) tokens [] := rfl
  unfold pairEnd
  rw [bind_of_done seen]
  split
  · exact leaves_pure (Nat.le_refl _)
  · exact leaves_expect .comma

theorem Settling.pairs (settling : Settling limit reader) :
    ∀ tokens, tokens.length < bound → tokens.length < limit →
      (Grammar.pairs reader bound tokens).Leaves tokens.length := by
  induction bound with
  | zero =>
      intro tokens inBound _
      exact absurd inBound (Nat.not_lt_zero _)
  | succ bound ih =>
      intro tokens inBound short
      unfold Grammar.pairs
      rcases accept_cases .rightBrace tokens with ⟨rest, rfl, accepted⟩ | refused
      · rw [bind_of_done accepted]
        exact leaves_pure (Nat.le_succ _)
      · rw [bind_of_done refused]
        apply leaves_bind (settling .lowest tokens short)
        intro key afterKey keyShort
        apply leaves_expect_bind
        intro afterColon colonShort
        apply leaves_bind (settling .lowest afterColon (by omega))
        intro value afterValue valueShort
        apply leaves_bind leaves_pairEnd
        intro _ afterPair pairShort
        apply leaves_bind (ih afterPair (by omega) (by omega))
        intro others last lastShort
        have concluded : last.length ≤ tokens.length := by omega
        cases key <;> cases value <;> exact concluded

theorem leaves_moreParameters : ∀ tokens, tokens.length < bound →
    (moreParameters bound tokens).Leaves tokens.length := by
  induction bound with
  | zero =>
      intro tokens inBound
      exact absurd inBound (Nat.not_lt_zero _)
  | succ bound ih =>
      intro tokens inBound
      unfold moreParameters
      apply leaves_expectIdentifier_bind
      intro name afterName nameShort
      rcases accept_cases .comma afterName with ⟨rest, rfl, accepted⟩ | refused
      · rw [List.length_cons] at nameShort
        rw [bind_of_done accepted]
        apply leaves_bind (ih rest (by omega))
        intro others last lastShort
        exact leaves_pure (by omega)
      · rw [bind_of_done refused]
        apply leaves_expect_bind
        intro rest restShort
        exact leaves_pure (by omega)

theorem leaves_parameters (inBound : tokens.length < bound) :
    (parameters bound tokens).Leaves tokens.length := by
  unfold parameters
  rcases accept_cases .rightParen tokens with ⟨rest, rfl, accepted⟩ | refused
  · rw [bind_of_done accepted]
    exact leaves_pure (Nat.le_succ _)
  · rw [bind_of_done refused]
    exact leaves_moreParameters tokens inBound

theorem Settling.conditional (settling : Settling limit reader)
    (inBound : tokens.length < bound) (short : tokens.length < limit) :
    (Grammar.conditional reader bound tokens).Leaves tokens.length := by
  unfold Grammar.conditional
  apply leaves_expect_bind
  intro afterOpen openShort
  apply leaves_bind (settling .lowest afterOpen (by omega))
  intro condition afterCondition conditionShort
  apply leaves_expect_bind
  intro afterClose closeShort
  apply leaves_expect_bind
  intro afterBrace braceShort
  apply leaves_bind (settling.block afterBrace (by omega) (by omega))
  intro consequence afterBlock blockShort
  apply leaves_bind (leaves_acceptKeyword .elseWord)
  intro accepted afterElse elseShort
  split
  · apply leaves_expect_bind
    intro afterElseBrace elseBraceShort
    apply leaves_bind (settling.block afterElseBrace (by omega) (by omega))
    intro alternative last lastShort
    exact leaves_pure (by omega)
  · exact leaves_pure (by omega)

theorem Settling.function (settling : Settling limit reader)
    (inBound : tokens.length < bound) (short : tokens.length < limit) :
    (Grammar.function reader bound tokens).Leaves tokens.length := by
  unfold Grammar.function
  apply leaves_expect_bind
  intro afterOpen openShort
  apply leaves_bind (leaves_parameters (by omega))
  intro names afterNames namesShort
  apply leaves_expect_bind
  intro afterBrace braceShort
  apply leaves_bind (settling.block afterBrace (by omega) (by omega))
  intro body last lastShort
  exact leaves_pure (by omega)

theorem leaves_integer (numeral : String) :
    (Grammar.integer numeral tokens).Leaves tokens.length := by
  unfold Grammar.integer
  split <;> exact Nat.le_refl _

theorem Settling.unary (settling : Settling limit reader) (op : UnaryOp)
    (short : tokens.length < limit) : (Grammar.unary reader op tokens).Leaves tokens.length := by
  apply leaves_bind (settling .operand tokens short)
  intro operand rest restShort
  exact leaves_pure (by omega)

theorem Settling.grouped (settling : Settling limit reader) (short : tokens.length < limit) :
    (Grammar.grouped reader tokens).Leaves tokens.length := by
  apply leaves_bind (settling .lowest tokens short)
  intro inner rest restShort
  apply leaves_expect_bind
  intro last lastShort
  exact leaves_pure (by omega)

theorem Settling.primary (settling : Settling limit reader)
    (inBound : tokens.length < bound + 1) (short : tokens.length < limit + 1) :
    (Grammar.primary reader bound tokens).Leaves (tokens.length - 1) := by
  unfold Grammar.primary
  -- Every form but the empty one has consumed its first token before anything inside it is read.
  split
  · exact Nat.le_refl _
  all_goals
    rw [List.length_cons] at inBound short
    rw [List.length_cons, Nat.add_sub_cancel]
  · exact Nat.le_refl _
  · exact leaves_integer _
  · exact Nat.le_refl _
  · exact Nat.le_refl _
  · exact Nat.le_refl _
  · exact settling.conditional (by omega) (by omega)
  · exact settling.function (by omega) (by omega)
  · exact settling.unary .not (by omega)
  · exact settling.unary .negate (by omega)
  · exact settling.grouped (by omega)
  · apply leaves_bind (settling.elements .rightBracket (by omega) (by omega))
    intro elements rest restShort
    exact leaves_pure restShort
  · apply leaves_bind (settling.pairs _ (by omega) (by omega))
    intro found rest restShort
    exact leaves_pure restShort
  · exact Nat.le_refl _

theorem Settling.continued (settling : Settling limit reader) {context : Precedence} {steps : Nat} :
    ∀ left tokens, tokens.length < steps → tokens.length < bound + 1 → tokens.length < limit + 1 →
      (Grammar.continued reader context bound steps left tokens).Leaves tokens.length := by
  induction steps with
  | zero =>
      intro left tokens inSteps
      exact absurd inSteps (Nat.not_lt_zero _)
  | succ steps ih =>
      intro left tokens inSteps inBound short
      unfold Grammar.continued
      split
      · split
        · rw [List.length_cons] at inSteps inBound short ⊢
          apply leaves_bind (settling.elements .rightParen (by omega) (by omega))
          intro arguments middle middleShort
          exact Reply.Leaves.mono (ih _ middle (by omega) (by omega) (by omega)) (by omega)
        · rw [List.length_cons] at inSteps inBound short ⊢
          apply leaves_bind (settling .lowest _ (by omega))
          intro position afterPosition positionShort
          apply leaves_expect_bind
          intro middle middleShort
          split
          · exact leaves_pure (by omega)
          · exact Reply.Leaves.mono (ih _ middle (by omega) (by omega) (by omega)) (by omega)
        · split
          · next op _ =>
              rw [List.length_cons] at inSteps inBound short ⊢
              apply leaves_bind (settling op.precedence _ (by omega))
              intro right middle middleShort
              split
              · exact leaves_pure (by omega)
              · exact Reply.Leaves.mono (ih _ middle (by omega) (by omega) (by omega)) (by omega)
          · exact Nat.le_refl _
        · exact Nat.le_refl _
      · exact Nat.le_refl _

theorem settling_expression (bound : Nat) : Settling bound (Grammar.expression bound) := by
  induction bound with
  | zero =>
      intro context tokens short
      exact absurd short (Nat.not_lt_zero _)
  | succ bound ih =>
      intro context tokens short
      have primaryLeaves := ih.primary short short
      unfold Grammar.expression
      cases tokens with
      | nil => exact Nat.le_refl _
      | cons token others =>
          rw [List.length_cons] at short
          rw [List.length_cons, Nat.add_sub_cancel] at primaryLeaves ⊢
          apply leaves_bind primaryLeaves
          intro left rest restShort
          split
          · exact leaves_pure restShort
          · exact Reply.Leaves.mono (ih.continued _ rest (by omega) (by omega) (by omega)) restShort

/-- A program is read to its end or to an unexpected token. -/
theorem leaves_program (tokens : List Token) :
    (Grammar.program (tokens.length + 1) tokens).Leaves tokens.length :=
  (settling_expression (tokens.length + 1)).statements tokens (Nat.lt_succ_self _)
    (Nat.lt_succ_self _)

end Grammar

end Scriptlet
