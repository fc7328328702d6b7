import Scriptlet.Proofs.Parse.Bound

/-!
# A larger bound changes nothing

A reader with a bound does what the same reader does with a larger one, until its bound is spent.
Since a bound above the number of tokens is never spent, the replies under all such bounds are one
and the same, whatever problems they report.
-/

namespace Scriptlet

/-- A reply that is the same as another one unless it has spent its bound. -/
def Reply.Approximates {α : Type} (first second : Reply α) : Prop :=
  first = second ∨ ∃ issues, first = .stopped .boundSpent issues

/-- A reader that replies the same as another one unless it spends its bound. -/
def Reader.Approximates {α : Type} (first second : Reader α) : Prop :=
  ∀ tokens, (first tokens).Approximates (second tokens)

theorem Reply.Leaves.eq_of_approximates {α : Type} {first second : Reply α} {limit : Nat}
    (leaves : first.Leaves limit) (approximates : first.Approximates second) : first = second := by
  rcases approximates with same | ⟨issues, spent⟩
  · exact same
  · rw [spent] at leaves
    exact absurd rfl leaves

namespace Reader

variable {α β : Type}

theorem Approximates.refl (reader : Reader α) : reader.Approximates reader :=
  fun _ => .inl rfl

theorem approximates_stop (reader : Reader α) : (stop .boundSpent : Reader α).Approximates reader :=
  fun _ => .inr ⟨[], rfl⟩

theorem Approximates.bind {first second : Reader α} {next other : α → Reader β}
    (approximates : first.Approximates second)
    (nextApproximates : ∀ value, (next value).Approximates (other value)) :
    (first >>= next).Approximates (second >>= other) := by
  intro tokens
  change (Reader.bind first next tokens).Approximates (Reader.bind second other tokens)
  rcases approximates tokens with same | ⟨issues, spent⟩
  · simp only [Reader.bind, same]
    cases second tokens with
    | stopped reason issues => exact .inl rfl
    | done value rest issues =>
        rcases nextApproximates value rest with nextSame | ⟨later, nextSpent⟩
        · exact .inl (by simp only [nextSame])
        · exact .inr ⟨issues ++ later, by simp only [nextSpent, Reply.after]⟩
  · exact .inr ⟨issues, by simp only [Reader.bind, spent]⟩

theorem Approximates.bind_same {first : Reader α} {next other : α → Reader β}
    (nextApproximates : ∀ value, (next value).Approximates (other value)) :
    (first >>= next).Approximates (first >>= other) :=
  (Approximates.refl first).bind nextApproximates

theorem Approximates.bind_left {first second : Reader α} (approximates : first.Approximates second)
    (next : α → Reader β) : (first >>= next).Approximates (second >>= next) :=
  approximates.bind fun value => .refl (next value)

end Reader

namespace Grammar

open Reader

/-- A reader of expressions that approximates another one in every context. -/
def Approximates (reader larger : ExprReader) : Prop :=
  ∀ context, (reader context).Approximates (larger context)

section Parts

variable {reader larger : ExprReader} {bound more : Nat}

theorem Approximates.statementEnd (approximates : Approximates reader larger)
    (build : Expr → Stmt) :
    (do
      let value ← reader .lowest
      let _ ← accept .semicolon
      return value.map build : Reader (Option Stmt)).Approximates (do
        let value ← larger .lowest
        let _ ← accept .semicolon
        return value.map build) :=
  (approximates .lowest).bind_left _

theorem Approximates.statement (approximates : Approximates reader larger) :
    (Grammar.statement reader).Approximates (Grammar.statement larger) := by
  intro tokens
  unfold Grammar.statement
  split
  · next rest =>
      have binding : (Grammar.binding reader).Approximates (Grammar.binding larger) :=
        .bind_same fun name => .bind_same fun _ => approximates.statementEnd (.bind name)
      exact binding rest
  · next rest => exact approximates.statementEnd .returns rest
  · exact approximates.statementEnd .expression tokens

/-- One round of the loops over statements. -/
theorem Approximates.statements_cons (approximates : Approximates reader larger)
    {loop largerLoop : Reader (List Stmt)} (loops : loop.Approximates largerLoop) :
    (do
      let first ← Grammar.statement reader
      let others ← loop
      return first.toList ++ others : Reader (List Stmt)).Approximates (do
        let first ← Grammar.statement larger
        let others ← largerLoop
        return first.toList ++ others) :=
  approximates.statement.bind fun _ => loops.bind_left _

theorem Approximates.statements (approximates : Approximates reader larger) (le : bound ≤ more) :
    (Grammar.statements reader bound).Approximates (Grammar.statements larger more) := by
  induction bound generalizing more with
  | zero => exact approximates_stop _
  | succ bound ih =>
      cases more with
      | zero => exact absurd le (Nat.not_succ_le_zero bound)
      | succ more =>
          intro tokens
          unfold Grammar.statements
          split
          · exact .inl rfl
          · exact approximates.statements_cons (ih (Nat.le_of_succ_le_succ le)) tokens

theorem Approximates.block (approximates : Approximates reader larger) (le : bound ≤ more) :
    (Grammar.block reader bound).Approximates (Grammar.block larger more) := by
  induction bound generalizing more with
  | zero => exact approximates_stop _
  | succ bound ih =>
      cases more with
      | zero => exact absurd le (Nat.not_succ_le_zero bound)
      | succ more =>
          intro tokens
          unfold Grammar.block
          split
          · exact .inl rfl
          · exact .inl rfl
          · exact approximates.statements_cons (ih (Nat.le_of_succ_le_succ le)) tokens

theorem Approximates.moreElements (approximates : Approximates reader larger) (close : Symbol)
    (le : bound ≤ more) :
    (Grammar.moreElements reader close bound).Approximates
      (Grammar.moreElements larger close more) := by
  induction bound generalizing more with
  | zero => exact approximates_stop _
  | succ bound ih =>
      cases more with
      | zero => exact absurd le (Nat.not_succ_le_zero bound)
      | succ more =>
          refine .bind_same ?_
          intro accepted
          cases accepted with
          | false => exact .refl _
          | true =>
              refine (approximates .lowest).bind ?_
              intro next
              exact (ih (Nat.le_of_succ_le_succ le)).bind_left _

theorem Approximates.elements (approximates : Approximates reader larger) (close : Symbol)
    (le : bound ≤ more) :
    (Grammar.elements reader close bound).Approximates (Grammar.elements larger close more) := by
  refine .bind_same ?_
  intro accepted
  cases accepted with
  | true => exact .refl _
  | false =>
      refine (approximates .lowest).bind ?_
      intro first
      exact (approximates.moreElements close le).bind_left _

theorem Approximates.pairs (approximates : Approximates reader larger) (le : bound ≤ more) :
    (Grammar.pairs reader bound).Approximates (Grammar.pairs larger more) := by
  induction bound generalizing more with
  | zero => exact approximates_stop _
  | succ bound ih =>
      cases more with
      | zero => exact absurd le (Nat.not_succ_le_zero bound)
      | succ more =>
          refine .bind_same ?_
          intro accepted
          cases accepted with
          | true => exact .refl _
          | false =>
              refine (approximates .lowest).bind ?_
              intro key
              refine .bind_same ?_
              intro _
              refine (approximates .lowest).bind ?_
              intro value
              refine .bind_same ?_
              intro _
              exact (ih (Nat.le_of_succ_le_succ le)).bind_left _

theorem approximates_moreParameters (le : bound ≤ more) :
    (moreParameters bound).Approximates (moreParameters more) := by
  induction bound generalizing more with
  | zero => exact approximates_stop _
  | succ bound ih =>
      cases more with
      | zero => exact absurd le (Nat.not_succ_le_zero bound)
      | succ more =>
          refine .bind_same ?_
          intro name
          refine .bind_same ?_
          intro accepted
          cases accepted with
          | false => exact .refl _
          | true => exact (ih (Nat.le_of_succ_le_succ le)).bind_left _

theorem approximates_parameters (le : bound ≤ more) :
    (parameters bound).Approximates (parameters more) := by
  refine .bind_same ?_
  intro accepted
  cases accepted with
  | true => exact .refl _
  | false => exact approximates_moreParameters le

theorem Approximates.conditional (approximates : Approximates reader larger) (le : bound ≤ more) :
    (Grammar.conditional reader bound).Approximates (Grammar.conditional larger more) := by
  refine .bind_same ?_
  intro _
  refine (approximates .lowest).bind ?_
  intro condition
  refine .bind_same ?_
  intro _
  refine .bind_same ?_
  intro _
  refine (approximates.block le).bind ?_
  intro consequence
  refine .bind_same ?_
  intro accepted
  cases accepted with
  | false => exact .refl _
  | true =>
      refine .bind_same ?_
      intro _
      exact (approximates.block le).bind_left _

theorem Approximates.function (approximates : Approximates reader larger) (le : bound ≤ more) :
    (Grammar.function reader bound).Approximates (Grammar.function larger more) := by
  refine .bind_same ?_
  intro _
  refine (approximates_parameters le).bind ?_
  intro names
  refine .bind_same ?_
  intro _
  exact (approximates.block le).bind_left _

theorem Approximates.primary (approximates : Approximates reader larger) (le : bound ≤ more) :
    (Grammar.primary reader bound).Approximates (Grammar.primary larger more) := by
  intro tokens
  unfold Grammar.primary
  split
  · exact .inl rfl
  · exact .inl rfl
  · exact .inl rfl
  · exact .inl rfl
  · exact .inl rfl
  · exact .inl rfl
  · next rest => exact approximates.conditional le rest
  · next rest => exact approximates.function le rest
  · next rest => exact (approximates .operand).bind_left _ rest
  · next rest => exact (approximates .operand).bind_left _ rest
  · next rest => exact (approximates .lowest).bind_left _ rest
  · next rest => exact (approximates.elements .rightBracket le).bind_left _ rest
  · next rest => exact (approximates.pairs le).bind_left _ rest
  · exact .inl rfl

theorem Approximates.continued (approximates : Approximates reader larger) (le : bound ≤ more)
    {context : Precedence} {steps moreSteps : Nat} (stepsLe : steps ≤ moreSteps) (left : Expr) :
    (Grammar.continued reader context bound steps left).Approximates
      (Grammar.continued larger context more moreSteps left) := by
  induction steps generalizing moreSteps left with
  | zero => exact approximates_stop _
  | succ steps ih =>
      cases moreSteps with
      | zero => exact absurd stepsLe (Nat.not_succ_le_zero steps)
      | succ moreSteps =>
          have goesOn := ih (Nat.le_of_succ_le_succ stepsLe)
          intro tokens
          unfold Grammar.continued
          split
          · split
            · next rest _ =>
                refine (approximates.elements .rightParen le).bind ?_ rest
                intro arguments
                exact goesOn _
            · next rest _ =>
                refine (approximates .lowest).bind ?_ rest
                intro position
                refine .bind_same ?_
                intro _
                cases position with
                | none => exact .refl _
                | some position => exact goesOn _
            · next mark rest _ _ _ =>
                cases BinaryOp.ofSymbol? mark with
                | none => exact .inl rfl
                | some op =>
                    refine (approximates op.precedence).bind ?_ rest
                    intro right
                    cases right with
                    | none => exact .refl _
                    | some right => exact goesOn _
            · exact .inl rfl
          · exact .inl rfl

end Parts

theorem approximates_expression {bound more : Nat} (le : bound ≤ more) :
    Approximates (Grammar.expression bound) (Grammar.expression more) := by
  induction bound generalizing more with
  | zero => exact fun _ => approximates_stop _
  | succ bound ih =>
      cases more with
      | zero => exact absurd le (Nat.not_succ_le_zero bound)
      | succ more =>
          have le := Nat.le_of_succ_le_succ le
          intro context
          refine ((ih le).primary le).bind ?_
          intro left
          cases left with
          | none => exact .refl _
          | some left => exact (ih le).continued le le left

/-- Above the number of tokens all bounds are the same. -/
theorem statements_of_le {tokens : List Token} {bound steps : Nat} (inBound : tokens.length < bound)
    (inSteps : tokens.length < steps) :
    Grammar.statements (Grammar.expression bound) steps tokens =
      Grammar.program (tokens.length + 1) tokens :=
  (Reply.Leaves.eq_of_approximates (leaves_program tokens)
    ((approximates_expression inBound).statements inSteps tokens)).symm

end Grammar

end Scriptlet
