import Scriptlet.Proofs.Parse.Bound
import Scriptlet.Proofs.Parse.Reading
import Scriptlet.Proofs.Parse.Spelling
import Scriptlet.Proofs.Token.Layout

/-!
# Reading is sound

What is read without an issue is spelled by the tokens consumed.  Reading an expression carries an
invariant through its chain of operators, calls and indexings: what has been read so far either
stood in parentheses, or binds at least as strongly as the token in front, because the reading of
its last part would have taken that token otherwise.  This is what makes every bare operand one that
its place admits.
-/

namespace Scriptlet

namespace Spelling

open Grammar Reader

/-- How strongly the last part of a bare expression is bound to it. -/
def strength : Expr → Precedence
  | .binary _ op _ => op.precedence
  | .unary .. => .operand
  | _ => .index

/-- A context that a bare expression may be read in: one weaker than its operator. -/
def Above (context : Precedence) : Expr → Prop
  | .binary _ op _ => context < op.precedence
  | _ => True

/-- The invariant of a chain that is read in a context. -/
inductive Chain (context : Precedence) (expr : Expr) : List Token → List Token → Prop
  | bare {tokens rest} (spelled : Bare expr tokens rest) (above : Above context expr)
      (held : ¬ strength expr < Precedence.ofKind (frontKind rest)) : Chain context expr tokens rest
  | grouped {tokens rest} (inner : Placed .whole expr tokens (.symbol .rightParen :: rest)) :
      Chain context expr (.symbol .leftParen :: tokens) rest

variable {context : Precedence} {expr : Expr} {tokens rest : List Token}

/-! ## Precedence -/

theorem precedence_lt_operand (op : BinaryOp) : op.precedence < .operand := by
  cases op <;> decide

theorem not_index_lt (precedence : Precedence) : ¬ Precedence.index < precedence := by
  cases precedence <;> decide

theorem eq_lowest_of_not_lt {precedence : Precedence}
    (notAbove : ¬ Precedence.lowest < precedence) : precedence = .lowest := by
  cases precedence with
  | lowest => rfl
  | _ => exact absurd (by decide) notAbove

namespace Chain

theorem placed_whole (chain : Chain context expr tokens rest) : Placed .whole expr tokens rest := by
  cases chain with
  | bare spelled above held => exact .bare rfl spelled
  | grouped inner => exact .grouped inner

theorem placed_rightOf {op : BinaryOp} (chain : Chain op.precedence expr tokens rest) :
    Placed (.rightOf op) expr tokens rest := by
  cases chain with
  | bare spelled above held =>
      refine .bare ?_ spelled
      cases expr with
      | binary left inner right => exact decide_eq_true above
      | _ => rfl
  | grouped inner => exact .grouped inner

theorem placed_operand (chain : Chain .operand expr tokens rest) :
    Placed .operand expr tokens rest := by
  cases chain with
  | bare spelled above held =>
      refine .bare ?_ spelled
      cases expr with
      | binary left inner right =>
          have below := precedence_lt_operand inner
          rw [Precedence.lt_iff_rank_lt] at below
          exact absurd above (Nat.lt_asymm below)
      | _ => rfl
  | grouped inner => exact .grouped inner

theorem placed_leftOf {op : BinaryOp}
    (chain : Chain context expr tokens (.symbol op.symbol :: rest)) :
    Placed (.leftOf op) expr tokens (.symbol op.symbol :: rest) := by
  cases chain with
  | bare spelled above held =>
      refine .bare ?_ spelled
      cases expr with
      | binary left inner right =>
          have notWeaker : ¬ inner.precedence < op.precedence := held
          simpa [Slot.admits] using notWeaker
      | _ => rfl
  | grouped inner => exact .grouped inner

/-- Before arguments or an index nothing can stand bare that holds its last part less strongly. -/
theorem placed_head {mark : Symbol} (strong : Precedence.operand < Precedence.ofSymbol mark)
    (chain : Chain context expr tokens (.symbol mark :: rest)) :
    Placed .head expr tokens (.symbol mark :: rest) := by
  cases chain with
  | bare spelled above held =>
      refine .bare ?_ spelled
      have held : ¬ strength expr < Precedence.ofSymbol mark := held
      cases expr with
      | binary left inner right =>
          exact absurd (Nat.lt_trans (precedence_lt_operand inner) strong) held
      | unary op operand => exact absurd strong held
      | _ => rfl
  | grouped inner => exact .grouped inner

end Chain

/-! ## Readers of parts -/

/-- A reader of expressions that finds an expression whenever it ends without an issue, spelled by
what it consumed, and leaves nothing in front that would bind it more strongly than the context. -/
def Reads (reader : ExprReader) : Prop :=
  ∀ context tokens result rest, reader context tokens = .done result rest [] →
    ∃ expr, result = some expr ∧ Chain context expr tokens rest ∧
      ¬ context < Precedence.ofKind (frontKind rest)

variable {reader : ExprReader} {bound : Nat}

theorem Reads.placed_whole (reads : Reads reader) {result : Option Expr}
    (ended : reader context tokens = .done result rest []) :
    ∃ expr, result = some expr ∧ Placed .whole expr tokens rest := by
  obtain ⟨expr, rfl, chain, _⟩ := reads context tokens result rest ended
  exact ⟨expr, rfl, chain.placed_whole⟩

/-- The end that all statements share: an expression and an optional semicolon. -/
theorem Reads.statementEnd (reads : Reads reader) {build : Expr → Stmt} {result : Option Stmt}
    (ended : (do
      let value ← reader .lowest
      let _ ← accept .semicolon
      return value.map build : Reader (Option Stmt)) tokens = .done result rest []) :
    ∃ value, result = some (build value) ∧
      (Placed .whole value tokens (.symbol .semicolon :: rest) ∨
        Placed .whole value tokens rest ∧ Detached rest) := by
  obtain ⟨found, middle, valueRead, continued⟩ := bind_eq_done.1 ended
  obtain ⟨accepted, last, semicolon, concluded⟩ := bind_eq_done.1 continued
  obtain ⟨rfl, rfl⟩ := pure_eq_done.1 concluded
  obtain ⟨value, rfl, chain, weak⟩ := reads _ _ _ _ valueRead
  refine ⟨value, rfl, ?_⟩
  cases accepted with
  | true =>
      rw [accept_true_iff] at semicolon
      subst semicolon
      exact .inl chain.placed_whole
  | false =>
      obtain ⟨noSemicolon, rfl⟩ := accept_false_iff.1 semicolon
      exact .inr ⟨chain.placed_whole, eq_lowest_of_not_lt weak, noSemicolon⟩

theorem statement_sound (reads : Reads reader) {result : Option Stmt}
    (ended : Grammar.statement reader tokens = .done result rest []) :
    ∃ stmt, result = some stmt ∧
      (Statement stmt tokens (.symbol .semicolon :: rest) ∨
        Statement stmt tokens rest ∧ Detached rest) := by
  unfold Grammar.statement at ended
  split at ended
  · obtain ⟨name, afterName, nameRead, nameContinued⟩ := bind_eq_done.1 ended
    obtain ⟨_, afterAssign, assignRead, assignContinued⟩ := bind_eq_done.1 nameContinued
    rw [expectIdentifier_eq_done] at nameRead
    rw [expect_eq_done] at assignRead
    subst nameRead assignRead
    obtain ⟨value, rfl, spelled | ⟨spelled, detached⟩⟩ := reads.statementEnd assignContinued
    · exact ⟨_, rfl, .inl (.bind spelled)⟩
    · exact ⟨_, rfl, .inr ⟨.bind spelled, detached⟩⟩
  · obtain ⟨value, rfl, spelled | ⟨spelled, detached⟩⟩ := reads.statementEnd ended
    · exact ⟨_, rfl, .inl (.returns spelled)⟩
    · exact ⟨_, rfl, .inr ⟨.returns spelled, detached⟩⟩
  · obtain ⟨value, rfl, spelled | ⟨spelled, detached⟩⟩ := reads.statementEnd ended
    · exact ⟨_, rfl, .inl (.expression spelled)⟩
    · exact ⟨_, rfl, .inr ⟨.expression spelled, detached⟩⟩

/-- One round of the loops over statements. -/
theorem statements_cons_sound (reads : Reads reader) {loop : Reader (List Stmt)} {inBlock : Bool}
    (loopSound : ∀ tokens stmts rest, loop tokens = .done stmts rest [] →
      Statements inBlock stmts tokens rest)
    {stmts : List Stmt}
    (ended : (do
      let first ← Grammar.statement reader
      let others ← loop
      return first.toList ++ others : Reader (List Stmt)) tokens = .done stmts rest []) :
    Statements inBlock stmts tokens rest := by
  obtain ⟨first, middle, firstRead, continued⟩ := bind_eq_done.1 ended
  obtain ⟨others, last, othersRead, concluded⟩ := bind_eq_done.1 continued
  obtain ⟨rfl, rfl⟩ := pure_eq_done.1 concluded
  have spelledOthers := loopSound _ _ _ othersRead
  obtain ⟨stmt, rfl, spelled | ⟨spelled, detached⟩⟩ := statement_sound reads firstRead
  · exact .terminated spelled spelledOthers
  · exact .detached spelled detached spelledOthers

theorem block_sound (reads : Reads reader) : ∀ tokens stmts rest,
    Grammar.block reader bound tokens = .done stmts rest [] →
      Statements true stmts tokens rest := by
  induction bound with
  | zero =>
      intro tokens stmts rest ended
      exact absurd ended stop_ne_done
  | succ bound ih =>
      intro tokens stmts rest ended
      unfold Grammar.block at ended
      split at ended
      · cases ended
        exact .finished
      · cases ended
        exact .closed
      · exact statements_cons_sound reads ih ended

theorem statements_sound (reads : Reads reader) : ∀ tokens stmts rest,
    Grammar.statements reader bound tokens = .done stmts rest [] →
      Statements false stmts tokens rest := by
  induction bound with
  | zero =>
      intro tokens stmts rest ended
      exact absurd ended stop_ne_done
  | succ bound ih =>
      intro tokens stmts rest ended
      unfold Grammar.statements at ended
      split at ended
      · cases ended
        exact .finished
      · exact statements_cons_sound reads ih ended

theorem moreElements_sound (reads : Reads reader) {close : Symbol} :
    ∀ tokens others rest, moreElements reader close bound tokens = .done others rest [] →
      ∀ expr start, Placed .whole expr start tokens →
        Elements close (expr :: others) start rest := by
  induction bound with
  | zero =>
      intro tokens others rest ended
      exact absurd ended stop_ne_done
  | succ bound ih =>
      intro tokens others rest ended expr start spelled
      unfold moreElements at ended
      obtain ⟨accepted, middle, comma, continued⟩ := bind_eq_done.1 ended
      cases accepted with
      | true =>
          rw [accept_true_iff] at comma
          subst comma
          obtain ⟨found, last, nextRead, nextContinued⟩ := bind_eq_done.1 continued
          obtain ⟨more, final, moreRead, concluded⟩ := bind_eq_done.1 nextContinued
          obtain ⟨rfl, rfl⟩ := pure_eq_done.1 concluded
          obtain ⟨next, rfl, spelledNext⟩ := reads.placed_whole nextRead
          exact .more spelled (ih _ _ _ moreRead next _ spelledNext)
      | false =>
          obtain ⟨_, rfl⟩ := accept_false_iff.1 comma
          obtain ⟨_, last, closed, concluded⟩ := bind_eq_done.1 continued
          obtain ⟨rfl, rfl⟩ := pure_eq_done.1 concluded
          rw [expect_eq_done] at closed
          subst closed
          exact .last spelled

theorem elements_sound (reads : Reads reader) {close : Symbol} {exprs : List Expr}
    (ended : elements reader close bound tokens = .done exprs rest []) :
    Elements close exprs tokens rest := by
  unfold elements at ended
  obtain ⟨accepted, middle, closed, continued⟩ := bind_eq_done.1 ended
  cases accepted with
  | true =>
      rw [accept_true_iff] at closed
      subst closed
      obtain ⟨rfl, rfl⟩ := pure_eq_done.1 continued
      exact .none
  | false =>
      obtain ⟨_, rfl⟩ := accept_false_iff.1 closed
      obtain ⟨found, last, firstRead, firstContinued⟩ := bind_eq_done.1 continued
      obtain ⟨others, final, othersRead, concluded⟩ := bind_eq_done.1 firstContinued
      obtain ⟨rfl, rfl⟩ := pure_eq_done.1 concluded
      obtain ⟨first, rfl, spelled⟩ := reads.placed_whole firstRead
      exact moreElements_sound reads _ _ _ othersRead first _ spelled

theorem pairEnd_sound {value : Unit} (ended : pairEnd tokens = .done value rest []) :
    tokens = .symbol .comma :: rest ∨
      tokens = rest ∧ ∃ others, rest = .symbol .rightBrace :: others := by
  obtain ⟨seen, middle, looked, continued⟩ := bind_eq_done.1 ended
  cases looked
  split at continued
  · next brace =>
      obtain ⟨_, rfl⟩ := pure_eq_done.1 continued
      exact .inr ⟨rfl, frontKind_symbol_iff.1 (eq_of_beq brace)⟩
  · exact .inl (expect_eq_done.1 continued)

theorem pairs_rightBrace {found : List (Expr × Expr)}
    (ended : pairs reader bound (.symbol .rightBrace :: tokens) = .done found rest []) :
    found = [] ∧ tokens = rest := by
  cases bound with
  | zero => exact absurd ended stop_ne_done
  | succ bound =>
      unfold pairs at ended
      rw [accept_bind] at ended
      obtain ⟨rfl, rfl⟩ := pure_eq_done.1 ended
      exact ⟨rfl, rfl⟩

theorem pairs_sound (reads : Reads reader) : ∀ tokens found rest,
    pairs reader bound tokens = .done found rest [] → Pairs found tokens rest := by
  induction bound with
  | zero =>
      intro tokens found rest ended
      exact absurd ended stop_ne_done
  | succ bound ih =>
      intro tokens found rest ended
      unfold pairs at ended
      obtain ⟨accepted, middle, closed, continued⟩ := bind_eq_done.1 ended
      cases accepted with
      | true =>
          rw [accept_true_iff] at closed
          subst closed
          obtain ⟨rfl, rfl⟩ := pure_eq_done.1 continued
          exact .none
      | false =>
          obtain ⟨_, rfl⟩ := accept_false_iff.1 closed
          obtain ⟨keyFound, afterKey, keyRead, keyContinued⟩ := bind_eq_done.1 continued
          obtain ⟨_, afterColon, colon, colonContinued⟩ := bind_eq_done.1 keyContinued
          obtain ⟨valueFound, afterValue, valueRead, valueContinued⟩ :=
            bind_eq_done.1 colonContinued
          obtain ⟨_, afterPair, pairEnded, pairContinued⟩ := bind_eq_done.1 valueContinued
          obtain ⟨others, last, othersRead, concluded⟩ := bind_eq_done.1 pairContinued
          obtain ⟨key, rfl, spelledKey⟩ := reads.placed_whole keyRead
          obtain ⟨value, rfl, spelledValue⟩ := reads.placed_whole valueRead
          obtain ⟨rfl, rfl⟩ := pure_eq_done.1 concluded
          rw [expect_eq_done] at colon
          subst colon
          rcases pairEnd_sound pairEnded with rfl | ⟨rfl, remaining, rfl⟩
          · exact .more spelledKey spelledValue (ih _ _ _ othersRead)
          · obtain ⟨rfl, rfl⟩ := pairs_rightBrace othersRead
            exact .last spelledKey spelledValue

theorem moreParameters_sound : ∀ tokens names rest,
    moreParameters bound tokens = .done names rest [] →
      ∃ name others, names = name :: others ∧ Parameters names tokens rest := by
  induction bound with
  | zero =>
      intro tokens names rest ended
      exact absurd ended stop_ne_done
  | succ bound ih =>
      intro tokens names rest ended
      unfold moreParameters at ended
      obtain ⟨name, afterName, nameRead, nameContinued⟩ := bind_eq_done.1 ended
      obtain ⟨accepted, middle, comma, continued⟩ := bind_eq_done.1 nameContinued
      rw [expectIdentifier_eq_done] at nameRead
      subst nameRead
      cases accepted with
      | true =>
          obtain ⟨others, last, othersRead, concluded⟩ := bind_eq_done.1 continued
          obtain ⟨rfl, rfl⟩ := pure_eq_done.1 concluded
          rw [accept_true_iff] at comma
          subst comma
          obtain ⟨next, more, rfl, spelled⟩ := ih _ _ _ othersRead
          exact ⟨name, _, rfl, .more spelled⟩
      | false =>
          obtain ⟨_, last, closed, concluded⟩ := bind_eq_done.1 continued
          obtain ⟨rfl, rfl⟩ := pure_eq_done.1 concluded
          obtain ⟨_, rfl⟩ := accept_false_iff.1 comma
          rw [expect_eq_done] at closed
          subst closed
          exact ⟨name, [], rfl, .last⟩

theorem parameters_sound {names : List String}
    (ended : parameters bound tokens = .done names rest []) : Parameters names tokens rest := by
  unfold parameters at ended
  obtain ⟨accepted, middle, closed, continued⟩ := bind_eq_done.1 ended
  cases accepted with
  | true =>
      rw [accept_true_iff] at closed
      subst closed
      obtain ⟨rfl, rfl⟩ := pure_eq_done.1 continued
      exact .none
  | false =>
      obtain ⟨_, rfl⟩ := accept_false_iff.1 closed
      obtain ⟨_, _, _, spelled⟩ := moreParameters_sound _ _ _ continued
      exact spelled

/-! ## Primaries -/

theorem integer_sound {numeral : String} {result : Option Expr}
    (ended : Grammar.integer numeral tokens = .done result rest []) :
    result = some (.integer numeral) ∧ tokens = rest ∧
      Text.numeralValue numeral < Text.literalBound := by
  unfold Grammar.integer at ended
  split at ended
  · next fits =>
      obtain ⟨rfl, rfl⟩ := pure_eq_done.1 ended
      exact ⟨rfl, rfl, fits⟩
  · obtain ⟨_, _, noted, _⟩ := bind_eq_done.1 ended
    exact absurd noted note_ne_done

theorem missing_ne_done {kind : TokenKind} {result : Option Expr} :
    missing kind tokens ≠ .done result rest [] := by
  intro ended
  obtain ⟨_, _, noted, _⟩ := bind_eq_done.1 ended
  exact note_ne_done noted

theorem conditional_sound (reads : Reads reader) {result : Option Expr}
    (ended : Grammar.conditional reader bound tokens = .done result rest []) :
    ∃ condition consequence alternative,
      result = some (.conditional condition consequence alternative) ∧
        Bare (.conditional condition consequence alternative)
          (.keyword .ifWord :: tokens) rest := by
  unfold Grammar.conditional at ended
  obtain ⟨_, afterOpen, opened, openContinued⟩ := bind_eq_done.1 ended
  obtain ⟨found, afterCondition, conditionRead, conditionContinued⟩ := bind_eq_done.1 openContinued
  obtain ⟨_, afterClose, closed, closeContinued⟩ := bind_eq_done.1 conditionContinued
  obtain ⟨_, afterBrace, brace, braceContinued⟩ := bind_eq_done.1 closeContinued
  obtain ⟨consequence, middle, blockRead, blockContinued⟩ := bind_eq_done.1 braceContinued
  obtain ⟨accepted, afterElse, elseRead, continued⟩ := bind_eq_done.1 blockContinued
  obtain ⟨condition, rfl, spelledCondition⟩ := reads.placed_whole conditionRead
  rw [expect_eq_done] at opened closed brace
  subst opened closed brace
  have spelledConsequence := block_sound reads _ _ _ blockRead
  cases accepted with
  | true =>
      obtain ⟨_, afterElseBrace, elseBrace, elseContinued⟩ := bind_eq_done.1 continued
      obtain ⟨alternative, last, alternativeRead, concluded⟩ := bind_eq_done.1 elseContinued
      obtain ⟨rfl, rfl⟩ := pure_eq_done.1 concluded
      rw [acceptKeyword_true_iff] at elseRead
      rw [expect_eq_done] at elseBrace
      subst elseRead elseBrace
      exact ⟨condition, consequence, some alternative, rfl,
        .alternative spelledCondition spelledConsequence (block_sound reads _ _ _ alternativeRead)⟩
  | false =>
      obtain ⟨noElse, rfl⟩ := acceptKeyword_false_iff.1 elseRead
      obtain ⟨rfl, rfl⟩ := pure_eq_done.1 continued
      exact ⟨condition, consequence, none, rfl,
        .conditional spelledCondition spelledConsequence noElse⟩

theorem function_sound (reads : Reads reader) {result : Option Expr}
    (ended : Grammar.function reader bound tokens = .done result rest []) :
    ∃ names body, result = some (.function names body) ∧
      Bare (.function names body) (.keyword .functionWord :: tokens) rest := by
  unfold Grammar.function at ended
  obtain ⟨_, afterOpen, opened, openContinued⟩ := bind_eq_done.1 ended
  obtain ⟨names, afterNames, namesRead, namesContinued⟩ := bind_eq_done.1 openContinued
  obtain ⟨_, afterBrace, brace, braceContinued⟩ := bind_eq_done.1 namesContinued
  obtain ⟨body, last, bodyRead, concluded⟩ := bind_eq_done.1 braceContinued
  obtain ⟨rfl, rfl⟩ := pure_eq_done.1 concluded
  rw [expect_eq_done] at opened brace
  subst opened brace
  exact ⟨names, body, rfl,
    .function (parameters_sound namesRead) (block_sound reads _ _ _ bodyRead)⟩

theorem unary_sound (reads : Reads reader) {op : UnaryOp} {result : Option Expr}
    (ended : Grammar.unary reader op tokens = .done result rest []) :
    ∃ operand, result = some (.unary op operand) ∧
      Chain context (.unary op operand) (.symbol op.symbol :: tokens) rest := by
  obtain ⟨found, middle, operandRead, concluded⟩ := bind_eq_done.1 ended
  obtain ⟨rfl, rfl⟩ := pure_eq_done.1 concluded
  obtain ⟨operand, rfl, chain, weak⟩ := reads _ _ _ _ operandRead
  exact ⟨operand, rfl, .bare (.unary chain.placed_operand) True.intro weak⟩

theorem grouped_sound (reads : Reads reader) {result : Option Expr}
    (ended : Grammar.grouped reader tokens = .done result rest []) :
    ∃ expr, result = some expr ∧ Chain context expr (.symbol .leftParen :: tokens) rest := by
  obtain ⟨found, middle, innerRead, innerContinued⟩ := bind_eq_done.1 ended
  obtain ⟨_, last, closed, concluded⟩ := bind_eq_done.1 innerContinued
  obtain ⟨rfl, rfl⟩ := pure_eq_done.1 concluded
  obtain ⟨expr, rfl, spelled⟩ := reads.placed_whole innerRead
  rw [expect_eq_done] at closed
  subst closed
  exact ⟨expr, rfl, .grouped spelled⟩

theorem primary_sound (reads : Reads reader) {result : Option Expr}
    (ended : primary reader bound tokens = .done result rest []) :
    ∃ expr, result = some expr ∧ Chain context expr tokens rest := by
  unfold primary at ended
  split at ended
  · exact absurd ended missing_ne_done
  · cases ended
    exact ⟨_, rfl, .bare .identifier True.intro (not_index_lt _)⟩
  · obtain ⟨rfl, rfl, fits⟩ := integer_sound ended
    exact ⟨_, rfl, .bare (.integer fits) True.intro (not_index_lt _)⟩
  · cases ended
    exact ⟨_, rfl, .bare .string True.intro (not_index_lt _)⟩
  · cases ended
    exact ⟨_, rfl, .bare .truth True.intro (not_index_lt _)⟩
  · cases ended
    exact ⟨_, rfl, .bare .falsity True.intro (not_index_lt _)⟩
  · obtain ⟨_, _, _, rfl, spelled⟩ := conditional_sound reads ended
    exact ⟨_, rfl, .bare spelled True.intro (not_index_lt _)⟩
  · obtain ⟨_, _, rfl, spelled⟩ := function_sound reads ended
    exact ⟨_, rfl, .bare spelled True.intro (not_index_lt _)⟩
  · obtain ⟨_, rfl, chain⟩ := unary_sound reads ended
    exact ⟨_, rfl, chain⟩
  · obtain ⟨_, rfl, chain⟩ := unary_sound reads ended
    exact ⟨_, rfl, chain⟩
  · exact grouped_sound reads ended
  · obtain ⟨exprs, middle, read, concluded⟩ := bind_eq_done.1 ended
    obtain ⟨rfl, rfl⟩ := pure_eq_done.1 concluded
    exact ⟨_, rfl, .bare (.array (elements_sound reads read)) True.intro (not_index_lt _)⟩
  · obtain ⟨found, middle, read, concluded⟩ := bind_eq_done.1 ended
    obtain ⟨rfl, rfl⟩ := pure_eq_done.1 concluded
    exact ⟨_, rfl, .bare (.dictionary (pairs_sound reads _ _ _ read)) True.intro (not_index_lt _)⟩
  · exact absurd ended missing_ne_done

/-! ## Chains -/

/-- A token that binds more strongly than a context opens arguments or an index, or is an
operator. -/
theorem operator_of_lt {mark : Symbol} (strong : context < Precedence.ofSymbol mark)
    (notParen : mark ≠ .leftParen) (notBracket : mark ≠ .leftBracket) :
    ∃ op, BinaryOp.ofSymbol? mark = some op := by
  cases mark with
  | leftParen => exact absurd rfl notParen
  | leftBracket => exact absurd rfl notBracket
  | plus | minus | asterisk | slash | less | greater | equal | notEqual => exact ⟨_, rfl⟩
  | _ => exact absurd strong (Nat.not_lt_zero _)

theorem continued_sound (reads : Reads reader) {start : List Token} {steps : Nat} :
    ∀ left tokens result rest, Chain context left start tokens →
      continued reader context bound steps left tokens = .done result rest [] →
        ∃ expr, result = some expr ∧ Chain context expr start rest ∧
          ¬ context < Precedence.ofKind (frontKind rest) := by
  induction steps with
  | zero =>
      intro left tokens result rest _ ended
      exact absurd ended stop_ne_done
  | succ steps ih =>
      intro left tokens result rest chain ended
      unfold continued at ended
      split at ended
      · next strong =>
          split at ended
          -- The chain so far did not take the token in front, so its place admits it bare.
          · next middle =>
              obtain ⟨arguments, last, argumentsRead, continuation⟩ := bind_eq_done.1 ended
              have spelled := Bare.call (chain.placed_head (by decide))
                (elements_sound reads argumentsRead)
              exact ih _ _ _ _ (.bare spelled True.intro (not_index_lt _)) continuation
          · next middle =>
              obtain ⟨found, afterPosition, positionRead, positionContinued⟩ :=
                bind_eq_done.1 ended
              obtain ⟨_, last, closed, continuation⟩ := bind_eq_done.1 positionContinued
              obtain ⟨position, rfl, spelled⟩ := reads.placed_whole positionRead
              rw [expect_eq_done] at closed
              subst closed
              have spelledIndex := Bare.index (chain.placed_head (by decide)) spelled
              exact ih _ _ _ _ (.bare spelledIndex True.intro (not_index_lt _)) continuation
          · next mark middle notParen notBracket =>
              have strong : context < Precedence.ofSymbol mark := strong
              obtain ⟨op, found⟩ := operator_of_lt strong notParen notBracket
              have symbolEq := BinaryOp.symbol_of_ofSymbol? found
              subst symbolEq
              rw [found] at ended
              obtain ⟨rightFound, last, rightRead, continuation⟩ := bind_eq_done.1 ended
              obtain ⟨right, rfl, rightChain, weak⟩ := reads _ _ _ _ rightRead
              have spelled := Bare.binary chain.placed_leftOf rightChain.placed_rightOf
              exact ih _ _ _ _ (.bare spelled strong weak) continuation
          · next notParen notBracket notSymbol =>
              refine absurd strong ?_
              cases tokens with
              | nil => exact Nat.not_lt_zero _
              | cons token others =>
                  cases token with
                  | symbol mark => exact absurd rfl (notSymbol mark others)
                  | _ => exact Nat.not_lt_zero _
      · next weak =>
          cases ended
          exact ⟨left, rfl, chain, weak⟩

theorem reads_expression (bound : Nat) : Reads (Grammar.expression bound) := by
  induction bound with
  | zero =>
      intro context tokens result rest ended
      exact absurd ended stop_ne_done
  | succ bound ih =>
      intro context tokens result rest ended
      obtain ⟨found, middle, primaryRead, continuation⟩ := bind_eq_done.1 ended
      obtain ⟨left, rfl, chain⟩ := primary_sound ih primaryRead
      exact continued_sound ih left middle result rest chain continuation

/-! ## Programs -/

theorem rest_eq_nil {stmts : List Stmt} (spelled : Statements false stmts tokens rest) :
    rest = [] := by
  induction stmts generalizing tokens with
  | nil =>
      cases spelled
      rfl
  | cons stmt others ih =>
      cases spelled with
      | terminated spelled spelledOthers => exact ih spelledOthers
      | detached spelled detached spelledOthers => exact ih spelledOthers

end Spelling

/-- Without an issue the reader of programs consumes all tokens, as a spelling of what it finds. -/
theorem spelledBy_of_parseTokens {tokens : List Token}
    (noErrors : (parseTokens tokens).errors = []) :
    (parseTokens tokens).program.SpelledBy tokens := by
  unfold parseTokens at noErrors ⊢
  have leaves := Grammar.leaves_program tokens
  cases ended : Grammar.program (tokens.length + 1) tokens with
  | done stmts rest issues =>
      rw [ended] at noErrors
      have noIssues : issues = [] := noErrors
      subst noIssues
      have spelled := Spelling.statements_sound (Spelling.reads_expression _) _ _ _ ended
      have consumed := Spelling.rest_eq_nil spelled
      subst consumed
      exact spelled
  | stopped reason issues =>
      rw [ended] at noErrors leaves
      cases reason with
      | unexpected expected found =>
          exact absurd noErrors (List.append_ne_nil_of_right_ne_nil _ (List.cons_ne_nil _ _))
      | boundSpent => exact absurd rfl leaves

theorem tokens_of_parse {source : String} {result : ParseResult}
    (parsed : parse source = .ok result) :
    ∃ tokens, Token.ofSource source = .ok tokens ∧ result = parseTokens tokens := by
  unfold parse at parsed
  cases scanned : Token.ofSource source with
  | error failure => simp [scanned, bind, Except.bind] at parsed
  | ok tokens =>
      rw [scanned] at parsed
      cases parsed
      exact ⟨tokens, rfl, rfl⟩

/-- A source without errors is, token by token, a spelling of the program found in it, and that
program has a statement. -/
theorem spelledBy_of_parse {source : String} {result : ParseResult}
    (parsed : parse source = .ok result) (noErrors : result.errors = []) :
    result.program.statements ≠ [] ∧
      ∃ tokens, Token.ofSource source = .ok tokens ∧ result.program.SpelledBy tokens := by
  obtain ⟨tokens, scanned, rfl⟩ := tokens_of_parse parsed
  have spelled := spelledBy_of_parseTokens noErrors
  refine ⟨?_, tokens, scanned, spelled⟩
  intro empty
  unfold Program.SpelledBy at spelled
  rw [empty] at spelled
  cases spelled
  exact Token.ofSource_ne_nil scanned rfl

theorem spelledBy_of_parse_with_open_block :
    ∃ result, parse "let f = fn(x) \x7b ((x) - 1) * -f(x)[0]; \x7b1: 2,\x7d" = .ok result ∧
      result.errors = [] ∧ result.program.statements ≠ [] ∧
      ∃ tokens, Token.ofSource "let f = fn(x) \x7b ((x) - 1) * -f(x)[0]; \x7b1: 2,\x7d" =
        .ok tokens ∧ result.program.SpelledBy tokens := by
  let source := "let f = fn(x) \x7b ((x) - 1) * -f(x)[0]; \x7b1: 2,\x7d"
  have accepted : (parse source).toOption.map (·.errors) = some [] := by decide +kernel
  cases parsed : parse source with
  | error failure => simp [parsed, Except.toOption] at accepted
  | ok result =>
      have noErrors : result.errors = [] := by simpa [parsed, Except.toOption] using accepted
      exact ⟨result, rfl, noErrors, spelledBy_of_parse parsed noErrors⟩

end Scriptlet
