import Scriptlet.Proofs.Parse.Soundness

/-!
# Reading is complete

Every spelling of a tree is read as that tree, so that the grammar and the readers agree exactly.
A chain of operators, calls and indexings is read from its left end: the reading of a primary and of
some continuations of it arrives at the whole chain, because each operator on the way binds more
strongly than the context and each operand ends where its place says.

A spelling consumes at least one token for each level and each list element in it, which is why a
bound above the number of tokens consumed is enough.
-/

namespace Scriptlet

namespace Spelling

open Grammar Reader

variable {expr : Expr} {stmt : Stmt} {exprs : List Expr} {stmts : List Stmt}
variable {context : Precedence} {close : Symbol} {inBlock : Bool} {tokens rest : List Token}

/-! ## Places and contexts -/

theorem precedence_lt_call (op : BinaryOp) : op.precedence < .call := by
  cases op <;> decide

theorem lowest_lt_precedence (op : BinaryOp) : .lowest < op.precedence := by
  cases op <;> decide

/-- In a context, what follows an expression holds its last part less strongly still. -/
theorem not_strength_lt {following : Precedence} (weakContext : context < .call)
    (above : Above context expr) (weak : ¬ context < following) : ¬ strength expr < following := by
  rw [Precedence.lt_iff_rank_lt] at weakContext weak ⊢
  cases expr with
  | binary left op right =>
      have above : context.rank < op.precedence.rank := above
      change ¬ op.precedence.rank < following.rank
      omega
  | unary op operand =>
      have weakContext : context.rank < 6 := weakContext
      change ¬ 5 < following.rank
      omega
  | _ => exact not_index_lt following

namespace Placed

theorem chain_whole (placed : Placed .whole expr tokens rest)
    (weak : ¬ Precedence.lowest < Precedence.ofKind (frontKind rest)) :
    Chain .lowest expr tokens rest := by
  cases placed with
  | grouped inner => exact .grouped inner
  | bare admitted spelled =>
      have above : Above .lowest expr := by
        cases expr with
        | binary left op right => exact lowest_lt_precedence op
        | _ => exact True.intro
      exact .bare spelled above (not_strength_lt (by decide) above weak)

theorem chain_rightOf {op : BinaryOp} (placed : Placed (.rightOf op) expr tokens rest)
    (weak : ¬ op.precedence < Precedence.ofKind (frontKind rest)) :
    Chain op.precedence expr tokens rest := by
  cases placed with
  | grouped inner => exact .grouped inner
  | bare admitted spelled =>
      have above : Above op.precedence expr := by
        cases expr with
        | binary left inner right =>
            change op.precedence < inner.precedence
            exact of_decide_eq_true admitted
        | _ => exact True.intro
      exact .bare spelled above (not_strength_lt (precedence_lt_call op) above weak)

theorem chain_operand (placed : Placed .operand expr tokens rest)
    (weak : ¬ Precedence.operand < Precedence.ofKind (frontKind rest)) :
    Chain .operand expr tokens rest := by
  cases placed with
  | grouped inner => exact .grouped inner
  | bare admitted spelled =>
      have above : Above .operand expr := by
        cases expr with
        | binary left inner right => exact Bool.noConfusion admitted
        | _ => exact True.intro
      exact .bare spelled above (not_strength_lt (by decide) above weak)

theorem chain_leftOf {op : BinaryOp} (strong : context < op.precedence)
    (placed : Placed (.leftOf op) expr tokens (.symbol op.symbol :: rest)) :
    Chain context expr tokens (.symbol op.symbol :: rest) := by
  cases placed with
  | grouped inner => exact .grouped inner
  | bare admitted spelled =>
      cases expr with
      | binary left inner right =>
          have notWeaker : ¬ inner.precedence < op.precedence := by
            simpa [Slot.admits] using admitted
          refine .bare spelled ?_ notWeaker
          change context < inner.precedence
          rw [Precedence.lt_iff_rank_lt] at strong notWeaker ⊢
          omega
      | unary inner operand =>
          refine .bare spelled True.intro ?_
          exact Nat.lt_asymm (precedence_lt_operand op)
      | _ => exact .bare spelled True.intro (not_index_lt _)

theorem chain_head (placed : Placed .head expr tokens rest) : Chain context expr tokens rest := by
  cases placed with
  | grouped inner => exact .grouped inner
  | bare admitted spelled =>
      cases expr with
      | binary left op right => exact Bool.noConfusion admitted
      | unary op operand => exact Bool.noConfusion admitted
      | _ => exact .bare spelled True.intro (not_index_lt _)

end Placed

/-! ## Readers of parts -/

/-- A reader of expressions that finds every expression spelled by fewer tokens than a limit, up to
the place where nothing binds it more strongly than the context. -/
def Complete (limit : Nat) (reader : ExprReader) : Prop :=
  ∀ context expr tokens rest, context < .call → Chain context expr tokens rest →
    ¬ context < Precedence.ofKind (frontKind rest) → tokens.length < limit + rest.length →
      reader context tokens = .done (some expr) rest []

variable {reader : ExprReader} {limit bound : Nat}

theorem Complete.whole (complete : Complete limit reader) (placed : Placed .whole expr tokens rest)
    (weak : Precedence.ofKind (frontKind rest) = .lowest)
    (short : tokens.length < limit + rest.length) :
    reader .lowest tokens = .done (some expr) rest [] := by
  have weak : ¬ Precedence.lowest < Precedence.ofKind (frontKind rest) := by
    rw [weak]
    decide
  exact complete _ _ _ _ (by decide) (placed.chain_whole weak) weak short

theorem Complete.statementEnd (complete : Complete limit reader) {value : Expr}
    {build : Expr → Stmt} {middle : List Token} {accepted : Bool}
    (placed : Placed .whole value tokens middle)
    (weak : Precedence.ofKind (frontKind middle) = .lowest)
    (semicolon : accept .semicolon middle = .done accepted rest [])
    (short : tokens.length < limit + middle.length) :
    (do
      let value ← reader .lowest
      let _ ← accept .semicolon
      return value.map build : Reader (Option Stmt)) tokens =
        .done (some (build value)) rest [] := by
  rw [bind_of_done (complete.whole placed weak short), bind_of_done semicolon]
  rfl

theorem statement_complete (complete : Complete limit reader) {middle : List Token}
    {accepted : Bool} (spelled : Statement stmt tokens middle)
    (weak : Precedence.ofKind (frontKind middle) = .lowest)
    (semicolon : accept .semicolon middle = .done accepted rest [])
    (short : tokens.length < limit + middle.length) :
    Grammar.statement reader tokens = .done (some stmt) rest [] := by
  cases spelled with
  | @bind name value others _ placed =>
      have short : others.length < limit + middle.length := by
        simp only [List.length_cons] at short
        omega
      change binding reader _ = _
      unfold binding
      rw [expectIdentifier_bind, expect_bind]
      exact complete.statementEnd placed weak semicolon short
  | returns placed =>
      exact complete.statementEnd placed weak semicolon (Nat.lt_of_succ_lt short)
  | expression placed =>
      unfold Grammar.statement
      split
      · exact absurd placed.opens Bool.false_ne_true
      · exact absurd placed.opens Bool.false_ne_true
      · exact complete.statementEnd placed weak semicolon short

/-- A first statement is read with its semicolon, if it has one. -/
theorem Complete.first (complete : Complete limit reader) {others : List Stmt}
    (spelled : Statements inBlock (stmt :: others) tokens rest)
    (short : tokens.length < limit + rest.length) :
    ∃ after, Grammar.statement reader tokens = .done (some stmt) after [] ∧
      after.length < tokens.length ∧ Statements inBlock others after rest := by
  cases spelled with
  | @terminated _ _ _ _ after _ spelled spelledOthers =>
      have consumed := spelled.length_lt
      have consumedOthers := spelledOthers.length_le
      simp only [List.length_cons] at consumed
      have semicolon : accept .semicolon (.symbol .semicolon :: after) = .done true after [] :=
        accept_true_iff.2 rfl
      have read := statement_complete complete spelled rfl semicolon
        (by simp only [List.length_cons]; omega)
      exact ⟨after, read, by omega, spelledOthers⟩
  | @detached _ _ _ _ after _ spelled detached spelledOthers =>
      have consumed := spelled.length_lt
      have consumedOthers := spelledOthers.length_le
      have semicolon : accept .semicolon after = .done false after [] :=
        accept_false_iff.2 ⟨detached.noSemicolon, rfl⟩
      have read := statement_complete complete spelled detached.continuesNothing semicolon
        (by omega)
      exact ⟨after, read, consumed, spelledOthers⟩

/-- One round of the loops over statements. -/
theorem statements_cons_complete {loop : Reader (List Stmt)} {others : List Stmt}
    {after : List Token} (firstRead : Grammar.statement reader tokens = .done (some stmt) after [])
    (othersRead : loop after = .done others rest []) :
    (do
      let first ← Grammar.statement reader
      let others ← loop
      return first.toList ++ others : Reader (List Stmt)) tokens =
        .done (stmt :: others) rest [] := by
  rw [bind_of_done firstRead, bind_of_done othersRead]
  rfl

theorem block_complete (complete : Complete limit reader)
    (spelled : Statements true stmts tokens rest) (short : tokens.length < limit + rest.length)
    (shortLoop : tokens.length < bound + rest.length) :
    Grammar.block reader bound tokens = .done stmts rest [] := by
  induction stmts generalizing tokens bound with
  | nil =>
      cases bound with
      | zero => exact absurd spelled.length_le (by omega)
      | succ bound =>
          cases spelled with
          | closed => rfl
          | finished => rfl
  | cons stmt others ih =>
      obtain ⟨after, firstRead, afterLt, spelledOthers⟩ := complete.first spelled short
      have consumedOthers := spelledOthers.length_le
      cases bound with
      | zero => omega
      | succ bound =>
          have othersRead : Grammar.block reader bound after = .done others rest [] :=
            ih spelledOthers (by omega) (by omega)
          unfold Grammar.block
          split
          · exact absurd rfl (spelled.frontKind_ne nofun nofun rfl)
          · exact absurd rfl (spelled.frontKind_ne nofun nofun rfl)
          · exact statements_cons_complete firstRead othersRead

theorem statements_complete (complete : Complete limit reader)
    (spelled : Statements false stmts tokens rest) (short : tokens.length < limit + rest.length)
    (shortLoop : tokens.length < bound + rest.length) :
    Grammar.statements reader bound tokens = .done stmts rest [] := by
  induction stmts generalizing tokens bound with
  | nil =>
      cases bound with
      | zero => exact absurd spelled.length_le (by omega)
      | succ bound =>
          cases spelled
          rfl
  | cons stmt others ih =>
      obtain ⟨after, firstRead, afterLt, spelledOthers⟩ := complete.first spelled short
      have consumedOthers := spelledOthers.length_le
      cases bound with
      | zero => omega
      | succ bound =>
          have othersRead : Grammar.statements reader bound after = .done others rest [] :=
            ih spelledOthers (by omega) (by omega)
          unfold Grammar.statements
          split
          · exact absurd rfl (spelled.frontKind_ne nofun nofun rfl)
          · exact statements_cons_complete firstRead othersRead

/-- The symbols that close a list of expressions. -/
def closesElements (close : Symbol) : Bool := close ∈ [.rightParen, .rightBracket]

theorem weak_of_closesElements (closes : closesElements close = true) :
    Precedence.ofKind (frontKind (.symbol close :: rest)) = .lowest := by
  cases close with
  | rightParen => rfl
  | rightBracket => rfl
  | _ => exact absurd closes (by decide)

theorem notOpening_of_closesElements (closes : closesElements close = true) :
    opensExpression (.symbol close) = false := by
  cases close with
  | rightParen => rfl
  | rightBracket => rfl
  | _ => exact absurd closes (by decide)

theorem moreElements_complete (complete : Complete limit reader)
    (closes : closesElements close = true) {others : List Expr}
    (spelled : Elements close (expr :: others) tokens rest)
    (short : tokens.length < limit + rest.length) :
    ∃ middle, reader .lowest tokens = .done (some expr) middle [] ∧ middle.length < tokens.length ∧
      ∀ bound, middle.length < bound + rest.length →
        moreElements reader close bound middle = .done others rest [] := by
  induction others generalizing expr tokens with
  | nil =>
      cases spelled with
      | last placed =>
          have exprRead := complete.whole placed (weak_of_closesElements closes)
            (by simp only [List.length_cons]; omega)
          refine ⟨_, exprRead, placed.length_lt, ?_⟩
          intro bound shortLoop
          cases bound with
          | zero => simp only [List.length_cons] at shortLoop; omega
          | succ bound =>
              have notComma : frontKind (.symbol close :: rest) ≠ .symbol .comma := by
                rintro ⟨⟩
                exact absurd closes (by decide)
              unfold moreElements
              rw [accept_bind_of_ne notComma]
              exact expect_bind
  | cons next others ih =>
      cases spelled with
      | @more _ _ _ _ _ middle _ placed spelledOthers =>
          have consumed := placed.length_lt
          have consumedOthers := spelledOthers.length_lt
          simp only [List.length_cons] at consumed
          obtain ⟨last, nextRead, lastLt, othersRead⟩ := ih spelledOthers (by omega)
          have exprRead := complete.whole placed rfl (by simp only [List.length_cons]; omega)
          refine ⟨_, exprRead, placed.length_lt, ?_⟩
          intro bound shortLoop
          simp only [List.length_cons] at shortLoop
          cases bound with
          | zero => omega
          | succ bound =>
              unfold moreElements
              rw [accept_bind]
              change (reader .lowest >>= _) middle = _
              rw [bind_of_done nextRead, bind_of_done (othersRead bound (by omega))]
              rfl

theorem elements_complete (complete : Complete limit reader) (closes : closesElements close = true)
    (spelled : Elements close exprs tokens rest) (short : tokens.length < limit + rest.length)
    (shortLoop : tokens.length < bound + rest.length) :
    elements reader close bound tokens = .done exprs rest [] := by
  unfold elements
  cases exprs with
  | nil =>
      cases spelled
      exact accept_bind
  | cons expr others =>
      obtain ⟨middle, exprRead, middleLt, othersRead⟩ :=
        moreElements_complete complete closes spelled short
      have notClosed : frontKind tokens ≠ .symbol close :=
        frontKind_ne_of_opens spelled.opens (notOpening_of_closesElements closes)
      rw [accept_bind_of_ne notClosed]
      change (reader .lowest >>= _) tokens = _
      rw [bind_of_done exprRead, bind_of_done (othersRead bound (by omega))]
      rfl

theorem pairs_cons_complete {key value : Expr} {others : List (Expr × Expr)}
    {middle afterValue next : List Token}
    (opens : opensExpression (frontKind tokens) = true)
    (keyRead : reader .lowest tokens = .done (some key) (.symbol .colon :: middle) [])
    (valueRead : reader .lowest middle = .done (some value) afterValue [])
    (pairEnded : pairEnd afterValue = .done () next [])
    (othersRead : pairs reader bound next = .done others rest []) :
    pairs reader (bound + 1) tokens = .done ((key, value) :: others) rest [] := by
  have notClosed : frontKind tokens ≠ .symbol .rightBrace := frontKind_ne_of_opens opens rfl
  unfold pairs
  rw [accept_bind_of_ne notClosed]
  change (reader .lowest >>= _) tokens = _
  rw [bind_of_done keyRead, expect_bind, bind_of_done valueRead, bind_of_done pairEnded,
    bind_of_done othersRead]
  rfl

theorem pairs_complete (complete : Complete limit reader) {found : List (Expr × Expr)}
    (spelled : Pairs found tokens rest) (short : tokens.length < limit + rest.length)
    (shortLoop : tokens.length < bound + rest.length) :
    pairs reader bound tokens = .done found rest [] := by
  induction found generalizing tokens bound with
  | nil =>
      cases spelled
      cases bound with
      | zero => simp only [List.length_cons] at shortLoop; omega
      | succ bound =>
          exact accept_bind
  | cons pair others ih =>
      cases spelled with
      | @last key value _ middle _ placedKey placedValue =>
          have consumedKey := placedKey.length_lt
          have consumedValue := placedValue.length_lt
          simp only [List.length_cons] at consumedKey consumedValue
          have keyRead := complete.whole placedKey rfl (by simp only [List.length_cons]; omega)
          have valueRead := complete.whole placedValue rfl (by simp only [List.length_cons]; omega)
          have pairEnded : pairEnd (.symbol .rightBrace :: rest) =
              .done () (.symbol .rightBrace :: rest) [] := rfl
          cases bound with
          | zero => omega
          | succ bound =>
              have othersRead : pairs reader bound (.symbol .rightBrace :: rest) =
                  .done [] rest [] :=
                ih .none (by simp only [List.length_cons]; omega)
                  (by simp only [List.length_cons]; omega)
              exact pairs_cons_complete placedKey.opens keyRead valueRead pairEnded othersRead
      | @more key value _ _ middle next _ placedKey placedValue spelledOthers =>
          have consumedKey := placedKey.length_lt
          have consumedValue := placedValue.length_lt
          have consumedOthers := spelledOthers.length_lt
          simp only [List.length_cons] at consumedKey consumedValue
          have keyRead := complete.whole placedKey rfl (by simp only [List.length_cons]; omega)
          have valueRead := complete.whole placedValue rfl (by simp only [List.length_cons]; omega)
          have pairEnded : pairEnd (.symbol .comma :: next) = .done () next [] := rfl
          cases bound with
          | zero => omega
          | succ bound =>
              have othersRead : pairs reader bound next = .done others rest [] :=
                ih spelledOthers (by omega) (by omega)
              exact pairs_cons_complete placedKey.opens keyRead valueRead pairEnded othersRead

theorem moreParameters_complete {name : String} {others : List String}
    (spelled : Parameters (name :: others) tokens rest)
    (shortLoop : tokens.length < bound + rest.length) :
    moreParameters bound tokens = .done (name :: others) rest [] := by
  induction others generalizing name tokens bound with
  | nil =>
      cases spelled
      cases bound with
      | zero => simp only [List.length_cons] at shortLoop; omega
      | succ bound => rfl
  | cons next others ih =>
      cases spelled with
      | @more _ _ _ remaining _ spelled =>
          cases bound with
          | zero =>
              have consumed := spelled.length_lt
              simp only [List.length_cons] at shortLoop
              omega
          | succ bound =>
              have othersRead : moreParameters bound remaining = .done (next :: others) rest [] :=
                ih spelled (by simp only [List.length_cons] at shortLoop; omega)
              unfold moreParameters
              rw [expectIdentifier_bind, accept_bind]
              change (moreParameters bound >>= _) remaining = _
              rw [bind_of_done othersRead]
              rfl

theorem parameters_complete {names : List String} (spelled : Parameters names tokens rest)
    (shortLoop : tokens.length < bound + rest.length) :
    parameters bound tokens = .done names rest [] := by
  have notClosed (name : String) (others : List Token) :
      frontKind (.identifier name :: others) ≠ .symbol .rightParen := nofun
  unfold parameters
  cases spelled with
  | none => exact accept_bind
  | last =>
      rw [accept_bind_of_ne (notClosed _ _)]
      exact moreParameters_complete .last shortLoop
  | more spelled =>
      rw [accept_bind_of_ne (notClosed _ _)]
      exact moreParameters_complete (.more spelled) shortLoop

/-! ## Primaries -/

theorem conditional_complete (complete : Complete bound reader) {condition : Expr}
    {consequence : List Stmt} {alternative : Option (List Stmt)}
    (spelled : Bare (.conditional condition consequence alternative)
      (.keyword .ifWord :: tokens) rest)
    (short : tokens.length < bound + rest.length) :
    Grammar.conditional reader bound tokens =
      .done (some (.conditional condition consequence alternative)) rest [] := by
  unfold Grammar.conditional
  cases spelled with
  | @conditional _ _ tokens middle _ placedCondition spelledConsequence noElse =>
      have consumedCondition := placedCondition.length_lt
      have consumedConsequence := spelledConsequence.length_le
      simp only [List.length_cons] at consumedCondition short
      have conditionRead := complete.whole placedCondition rfl
        (by simp only [List.length_cons]; omega)
      have consequenceRead : Grammar.block reader bound middle = .done consequence rest [] :=
        block_complete complete spelledConsequence (by omega) (by omega)
      rw [expect_bind, bind_of_done conditionRead, expect_bind, expect_bind,
        bind_of_done consequenceRead, acceptKeyword_bind_of_ne noElse]
      rfl
  | @alternative _ _ other tokens middle last _ placedCondition spelledConsequence
      spelledAlternative =>
      have consumedCondition := placedCondition.length_lt
      have consumedConsequence := spelledConsequence.length_le
      have consumedAlternative := spelledAlternative.length_le
      simp only [List.length_cons] at consumedCondition consumedConsequence short
      have conditionRead := complete.whole placedCondition rfl
        (by simp only [List.length_cons]; omega)
      have consequenceRead : Grammar.block reader bound middle =
          .done consequence (.keyword .elseWord :: .symbol .leftBrace :: last) [] :=
        block_complete complete spelledConsequence (by simp only [List.length_cons]; omega)
          (by simp only [List.length_cons]; omega)
      have alternativeRead : Grammar.block reader bound last = .done other rest [] :=
        block_complete complete spelledAlternative (by omega) (by omega)
      rw [expect_bind, bind_of_done conditionRead, expect_bind, expect_bind,
        bind_of_done consequenceRead, acceptKeyword_bind]
      change (expect .leftBrace >>= _) (.symbol .leftBrace :: last) = _
      rw [expect_bind, bind_of_done alternativeRead]
      rfl

theorem function_complete (complete : Complete bound reader) {names : List String}
    {body : List Stmt}
    (spelled : Bare (.function names body) (.keyword .functionWord :: tokens) rest)
    (short : tokens.length < bound + rest.length) :
    Grammar.function reader bound tokens = .done (some (.function names body)) rest [] := by
  unfold Grammar.function
  cases spelled with
  | @function _ _ tokens middle _ spelledParameters spelledBody =>
      have consumedParameters := spelledParameters.length_lt
      have consumedBody := spelledBody.length_le
      simp only [List.length_cons] at consumedParameters short
      have namesRead : parameters bound tokens = .done names (.symbol .leftBrace :: middle) [] :=
        parameters_complete spelledParameters (by simp only [List.length_cons]; omega)
      have bodyRead : Grammar.block reader bound middle = .done body rest [] :=
        block_complete complete spelledBody (by omega) (by omega)
      rw [expect_bind, bind_of_done namesRead, expect_bind, bind_of_done bodyRead]
      rfl

theorem unary_complete (complete : Complete bound reader) {op : UnaryOp} {operand : Expr}
    (placed : Placed .operand operand tokens rest)
    (weak : ¬ Precedence.operand < Precedence.ofKind (frontKind rest))
    (short : tokens.length < bound + rest.length) :
    primary reader bound (.symbol op.symbol :: tokens) =
      .done (some (.unary op operand)) rest [] := by
  have operandRead : reader .operand tokens = .done (some operand) rest [] :=
    complete _ _ _ _ (by decide) (placed.chain_operand weak) weak short
  have read : Grammar.unary reader op tokens = .done (some (.unary op operand)) rest [] := by
    unfold Grammar.unary
    rw [bind_of_done operandRead]
    rfl
  cases op with
  | not => exact read
  | negate => exact read

theorem grouped_complete (complete : Complete bound reader)
    (inner : Placed .whole expr tokens (.symbol .rightParen :: rest))
    (short : tokens.length ≤ bound + rest.length) :
    primary reader bound (.symbol .leftParen :: tokens) = .done (some expr) rest [] := by
  have innerRead := complete.whole inner rfl (by simp only [List.length_cons]; omega)
  change Grammar.grouped reader tokens = _
  unfold Grammar.grouped
  rw [bind_of_done innerRead, expect_bind]
  rfl

theorem array_complete (complete : Complete bound reader)
    (spelled : Elements .rightBracket exprs tokens rest)
    (short : tokens.length < bound + rest.length) :
    primary reader bound (.symbol .leftBracket :: tokens) =
      .done (some (.array exprs)) rest [] := by
  exact bind_of_done (elements_complete complete rfl spelled short short)

theorem dictionary_complete (complete : Complete bound reader) {found : List (Expr × Expr)}
    (spelled : Pairs found tokens rest) (short : tokens.length < bound + rest.length) :
    primary reader bound (.symbol .leftBrace :: tokens) =
      .done (some (.dictionary found)) rest [] := by
  exact bind_of_done (pairs_complete complete spelled short short)

theorem integer_complete {numeral : String}
    (fits : Text.numeralValue numeral < Text.literalBound) :
    primary reader bound (.integer numeral :: rest) = .done (some (.integer numeral)) rest [] := by
  change Grammar.integer numeral rest = _
  unfold Grammar.integer
  rw [if_pos fits]
  rfl

/-! ## Chains -/

/-- Reading a primary and some continuations of it arrives at an expression. -/
def Arrives (reader : ExprReader) (context : Precedence) (bound : Nat) (expr : Expr)
    (tokens rest : List Token) : Prop :=
  ∃ left middle rounds, primary reader bound tokens = .done (some left) middle [] ∧
    rounds + rest.length < tokens.length ∧
    ∀ steps, continued reader context bound (steps + rounds) left middle =
      continued reader context bound steps expr rest

theorem Arrives.of_primary (read : primary reader bound tokens = .done (some expr) rest [])
    (consumed : rest.length < tokens.length) : Arrives reader context bound expr tokens rest := by
  refine ⟨expr, rest, 0, read, ?_, ?_⟩
  · rw [Nat.zero_add]
    exact consumed
  · intro steps
    rfl

theorem Arrives.round {next : Expr} {middle : List Token}
    (arrives : Arrives reader context bound expr tokens middle)
    (consumed : rest.length < middle.length)
    (round : ∀ steps, continued reader context bound (steps + 1) expr middle =
      continued reader context bound steps next rest) :
    Arrives reader context bound next tokens rest := by
  obtain ⟨left, start, rounds, read, consumedBefore, continues⟩ := arrives
  refine ⟨left, start, rounds + 1, read, ?_, ?_⟩
  · omega
  · intro steps
    calc continued reader context bound (steps + (rounds + 1)) left start
        = continued reader context bound (steps + 1 + rounds) left start := by
          rw [Nat.add_right_comm, Nat.add_assoc]
      _ = continued reader context bound (steps + 1) expr middle := continues (steps + 1)
      _ = continued reader context bound steps next rest := round steps

theorem continued_binary (complete : Complete bound reader) {left right : Expr} {op : BinaryOp}
    {middle : List Token} (strong : context < op.precedence)
    (placed : Placed (.rightOf op) right middle rest)
    (weak : ¬ op.precedence < Precedence.ofKind (frontKind rest))
    (short : middle.length < bound + rest.length) (steps : Nat) :
    continued reader context bound (steps + 1) left (.symbol op.symbol :: middle) =
      continued reader context bound steps (.binary left op right) rest := by
  have rightRead : reader op.precedence middle = .done (some right) rest [] :=
    complete _ _ _ _ (precedence_lt_call op) (placed.chain_rightOf weak) weak short
  have front : context < Precedence.ofKind (frontKind (.symbol op.symbol :: middle)) := strong
  refine Eq.trans (if_pos front) ?_
  cases op <;> exact bind_of_done rightRead

theorem continued_call (complete : Complete bound reader) {callee : Expr} {middle : List Token}
    (weakContext : context < .call) (spelled : Elements .rightParen exprs middle rest)
    (short : middle.length < bound + rest.length) (steps : Nat) :
    continued reader context bound (steps + 1) callee (.symbol .leftParen :: middle) =
      continued reader context bound steps (.call callee exprs) rest := by
  have front : context < Precedence.ofKind (frontKind (.symbol .leftParen :: middle)) := weakContext
  refine Eq.trans (if_pos front) ?_
  exact bind_of_done (elements_complete complete rfl spelled short short)

theorem continued_index (complete : Complete bound reader) {collection position : Expr}
    {middle : List Token} (weakContext : context < .call)
    (placed : Placed .whole position middle (.symbol .rightBracket :: rest))
    (short : middle.length < bound + rest.length) (steps : Nat) :
    continued reader context bound (steps + 1) collection (.symbol .leftBracket :: middle) =
      continued reader context bound steps (.index collection position) rest := by
  have positionRead := complete.whole placed rfl (by simp only [List.length_cons]; omega)
  have front : context < Precedence.ofKind (frontKind (.symbol .leftBracket :: middle)) :=
    Nat.lt_succ_of_lt weakContext
  refine Eq.trans (if_pos front) ?_
  rw [bind_of_done positionRead, expect_bind]

/-- A chain is read from its left end, round by round. -/
theorem Chain.arrives (complete : Complete bound reader) (weakContext : context < .call) :
    ∀ {expr tokens rest}, Chain context expr tokens rest → tokens.length ≤ bound + rest.length →
      Arrives reader context bound expr tokens rest := by
  intro expr tokens rest chain short
  cases chain with
  | grouped inner =>
      have consumed := inner.length_lt
      simp only [List.length_cons] at consumed short
      refine .of_primary (grouped_complete complete inner (by omega)) ?_
      simp only [List.length_cons]
      omega
  | bare spelled above held =>
      have consumed := spelled.length_lt
      cases spelled with
      | identifier => exact .of_primary rfl consumed
      | integer fits => exact .of_primary (integer_complete fits) consumed
      | string => exact .of_primary rfl consumed
      | truth => exact .of_primary rfl consumed
      | falsity => exact .of_primary rfl consumed
      | array spelled => exact .of_primary (array_complete complete spelled short) consumed
      | dictionary spelled =>
          exact .of_primary (dictionary_complete complete spelled short) consumed
      | unary placed => exact .of_primary (unary_complete complete placed held short) consumed
      | conditional placedCondition spelledConsequence noElse =>
          have spelled := Bare.conditional placedCondition spelledConsequence noElse
          exact .of_primary (conditional_complete complete spelled short) consumed
      | alternative placedCondition spelledConsequence spelledAlternative =>
          have spelled :=
            Bare.alternative placedCondition spelledConsequence spelledAlternative
          exact .of_primary (conditional_complete complete spelled short) consumed
      | function spelledParameters spelledBody =>
          have spelled := Bare.function spelledParameters spelledBody
          exact .of_primary (function_complete complete spelled short) consumed
      -- In the last three cases the left end is a chain of its own, read in the same context.
      | @binary left op right _ middle _ placedLeft placedRight =>
          have consumedLeft := placedLeft.length_lt
          have consumedRight := placedRight.length_lt
          simp only [List.length_cons] at consumedLeft
          have arrives := Chain.arrives complete weakContext (placedLeft.chain_leftOf above)
            (by simp only [List.length_cons]; omega)
          exact arrives.round (Nat.lt_succ_of_lt consumedRight)
            (continued_binary complete above placedRight held (by omega))
      | @call callee arguments _ middle _ placedCallee spelledArguments =>
          have consumedCallee := placedCallee.length_lt
          have consumedArguments := spelledArguments.length_lt
          simp only [List.length_cons] at consumedCallee
          have arrives := Chain.arrives complete weakContext placedCallee.chain_head
            (by simp only [List.length_cons]; omega)
          exact arrives.round (Nat.lt_succ_of_lt consumedArguments)
            (continued_call complete weakContext spelledArguments (by omega))
      | @index collection position _ middle _ placedCollection placedPosition =>
          have consumedCollection := placedCollection.length_lt
          have consumedPosition := placedPosition.length_lt
          simp only [List.length_cons] at consumedCollection consumedPosition
          have arrives := Chain.arrives complete weakContext placedCollection.chain_head
            (by simp only [List.length_cons]; omega)
          exact arrives.round (by simp only [List.length_cons]; omega)
            (continued_index complete weakContext placedPosition (by omega))
  termination_by expr => sizeOf expr

theorem complete_expression (bound : Nat) : Complete bound (Grammar.expression bound) := by
  induction bound with
  | zero =>
      intro context expr tokens rest _ chain _ short
      have consumed := chain.placed_whole.length_lt
      omega
  | succ bound ih =>
      intro context expr tokens rest weakContext chain weak short
      obtain ⟨left, middle, rounds, read, consumed, continues⟩ :=
        chain.arrives ih weakContext (by omega)
      -- Enough rounds are left for the last one, which finds nothing to continue with.
      have roundsLt : rounds < bound := by omega
      obtain ⟨spare, enough⟩ := Nat.exists_eq_add_of_lt roundsLt
      have boundEq : bound = spare + 1 + rounds := by omega
      have ended : continued (Grammar.expression bound) context bound bound left middle =
          .done (some expr) rest [] := by
        have arrived := continues (spare + 1)
        rw [← boundEq] at arrived
        exact arrived.trans (if_neg weak)
      unfold Grammar.expression
      rw [bind_of_done read]
      exact ended

end Spelling

/-- Every spelling of a program is read as that program, without an error. -/
theorem parseTokens_of_spelledBy {program : Program} {tokens : List Token}
    (spelled : program.SpelledBy tokens) : parseTokens tokens = ⟨program, []⟩ := by
  have ended : Grammar.program (tokens.length + 1) tokens = .done program.statements [] [] :=
    Spelling.statements_complete (Spelling.complete_expression _) spelled (Nat.lt_succ_self _)
      (Nat.lt_succ_self _)
  unfold parseTokens
  rw [ended]
  rfl

/-- The readers accept exactly the spellings of the grammar. -/
theorem parseTokens_eq_iff {program : Program} {tokens : List Token} :
    parseTokens tokens = ⟨program, []⟩ ↔ program.SpelledBy tokens := by
  constructor
  · intro parsed
    have noErrors : (parseTokens tokens).errors = [] := by rw [parsed]
    have spelled := spelledBy_of_parseTokens noErrors
    rw [parsed] at spelled
    exact spelled
  · intro spelled
    exact parseTokens_of_spelledBy spelled

end Scriptlet
