import Scriptlet.Proofs.Evaluate.Sequence
import Scriptlet.Session

/-!
# A larger bound on calls changes nothing

The bound on the nesting of calls decides only whether an evaluation ends, not how.  What is
evaluated with an applier that ends less often ends less often itself, and otherwise alike; so a
program has at most one end, whatever the bound under which it is reached.
-/

namespace Scriptlet

/-- A computation that ends like another one, where it ends at all. -/
def Run.Below {α : Type} (first second : Run α) : Prop :=
  ∀ before step, first before = some step → second before = some step

namespace Run.Below

variable {α β : Type}

theorem refl (run : Run α) : run.Below run := fun _ _ ended => ended

theorem unfinished (run : Run α) : Run.unfinished.Below run := by
  intro before step ended
  cases ended

theorem bind {first second : Run α} {next other : α → Run β} (below : first.Below second)
    (nextBelow : ∀ value, (next value).Below (other value)) :
    (first >>= next).Below (second >>= other) := by
  intro before step ended
  obtain ⟨value, middle, firstEnded, nextEnded⟩ := bind_eq_some.1 ended
  exact bind_eq_some.2 ⟨value, middle, below before _ firstEnded, nextBelow value middle _ nextEnded⟩

theorem andThen {first second : Run Value} {next other : Value → Run Value}
    (below : first.Below second) (nextBelow : ∀ value, (next value).Below (other value)) :
    (first.andThen next).Below (second.andThen other) := by
  apply below.bind
  intro value
  split
  · exact refl _
  · exact nextBelow value

end Run.Below

namespace Evaluate

/-- An applier whose applications end like those of another one, where they end at all. -/
def Applier.Below (apply larger : Applier) : Prop :=
  ∀ callee arguments, (apply callee arguments).Below (larger callee arguments)

variable {library : Library} {apply larger : Applier} {scope : FrameId}

mutual

theorem below_expression (below : Applier.Below apply larger) :
    ∀ expr : Expr,
      (expression library apply scope expr).Below (expression library larger scope expr)
  | .identifier _ | .integer _ | .boolean _ | .string _ | .function .. => .refl _
  | .array elements => by
      apply (below_expressions below elements).bind
      intro outcome
      exact .refl _
  | .dictionary pairs => by
      apply (below_entries below pairs []).bind
      intro outcome
      exact .refl _
  | .unary op operand => by
      apply (below_expression below operand).andThen
      intro value
      exact .refl _
  | .binary left op right => by
      apply (below_expression below left).andThen
      intro a
      apply (below_expression below right).andThen
      intro b
      exact .refl _
  | .conditional condition consequence none => by
      apply (below_expression below condition).andThen
      intro value
      split
      · exact below_block below .null consequence
      · exact .refl _
  | .conditional condition consequence (some alternative) => by
      apply (below_expression below condition).andThen
      intro value
      split
      · exact below_block below .null consequence
      · exact below_block below .null alternative
  | .call callee arguments => by
      apply (below_expression below callee).andThen
      intro function
      apply (below_expressions below arguments).bind
      rintro (interruption | values)
      · exact .refl _
      · exact below function values
  | .index collection position => by
      apply (below_expression below collection).andThen
      intro value
      apply (below_expression below position).andThen
      intro index
      exact .refl _

theorem below_expressions (below : Applier.Below apply larger) :
    ∀ exprs : List Expr,
      (expressions library apply scope exprs).Below (expressions library larger scope exprs)
  | [] => .refl _
  | expr :: rest => by
      apply (below_expression below expr).bind
      intro value
      split
      · exact .refl _
      · apply (below_expressions below rest).bind
        intro outcome
        exact .refl _

theorem below_entries (below : Applier.Below apply larger) :
    ∀ (pairs : List (Expr × Expr)) (found : Entries Value),
      (entries library apply scope pairs found).Below (entries library larger scope pairs found)
  | [], found => .refl _
  | (keyExpr, valueExpr) :: rest, found => by
      apply (below_expression below keyExpr).bind
      intro index
      split
      · exact .refl _
      · apply (below_expression below valueExpr).bind
        intro value
        split
        · exact .refl _
        · split
          · exact .refl _
          · exact below_entries below rest _

theorem below_statement (below : Applier.Below apply larger) :
    ∀ stmt : Stmt,
      (statement library apply scope stmt).Below (statement library larger scope stmt)
  | .bind name value => by
      apply (below_expression below value).andThen
      intro bound
      exact .refl _
  | .returns value => by
      apply (below_expression below value).andThen
      intro result
      exact .refl _
  | .expression value => below_expression below value

theorem below_block (below : Applier.Below apply larger) :
    ∀ (start : Value) (stmts : List Stmt),
      (block library apply scope start stmts).Below (block library larger scope start stmts)
  | start, [] => .refl _
  | start, stmt :: rest => by
      apply (below_statement below stmt).andThen
      intro value
      exact below_block below value rest

end

theorem below_invoke (below : Applier.Below apply larger) (closure : Closure)
    (arguments : List Value) :
    (invoke library apply closure arguments).Below (invoke library larger closure arguments) := by
  apply (Run.Below.refl _).bind
  intro scope
  apply (below_block below .null closure.body).bind
  intro result
  exact .refl _

theorem below_applyWith {run more : Closure → List Value → Run Value}
    (below : ∀ closure arguments, (run closure arguments).Below (more closure arguments)) :
    Applier.Below (applyWith run) (applyWith more) := by
  intro callee arguments
  cases callee with
  | function identity closure =>
      change (if closure.parameters.length = arguments.length then run closure arguments
        else pure _ : Run Value).Below
          (if closure.parameters.length = arguments.length then more closure arguments else pure _)
      split
      · exact below closure arguments
      · exact .refl _
  | _ => exact .refl _

theorem below_applyWithin (library : Library) {depth more : Nat} (le : depth ≤ more) :
    Applier.Below (applyWithin library depth) (applyWithin library more) := by
  induction depth generalizing more with
  | zero =>
      cases more with
      | zero => exact fun callee arguments => .refl _
      | succ more => exact below_applyWith fun closure arguments => .unfinished _
  | succ depth ih =>
      cases more with
      | zero => exact absurd le (Nat.not_succ_le_zero depth)
      | succ more => exact below_applyWith (below_invoke (ih (Nat.le_of_succ_le_succ le)))

theorem below_program (library : Library) {depth more : Nat} (le : depth ≤ more) (scope : FrameId)
    (tree : Program) :
    (program library depth scope tree).Below (program library more scope tree) := by
  apply (below_block (below_applyWithin library le) .null tree.statements).bind
  intro result
  exact .refl _

end Evaluate

namespace Session

variable {session next other : Session} {program : Program} {value result : Value}

/-- A program that is run in a session ends with a value and leaves the session in some state, given
enough room for its calls. -/
def Ends (session : Session) (program : Program) (value : Value) (next : Session) : Prop :=
  ∃ depth, session.runProgram depth program = some (value, next)

theorem runProgram_of_le {depth more : Nat} (le : depth ≤ more)
    (ended : session.runProgram depth program = some (value, next)) :
    session.runProgram more program = some (value, next) := by
  obtain ⟨step, ran, reached⟩ := Option.map_eq_some_iff.1 ended
  exact Option.map_eq_some_iff.2
    ⟨step, Evaluate.below_program session.library le session.root program _ _ ran, reached⟩

/-- A program has at most one end. -/
theorem Ends.unique (ends : session.Ends program value next)
    (endsToo : session.Ends program result other) : value = result ∧ next = other := by
  obtain ⟨depth, ended⟩ := ends
  obtain ⟨otherDepth, otherEnded⟩ := endsToo
  have first := runProgram_of_le (Nat.le_max_left depth otherDepth) ended
  have second := runProgram_of_le (Nat.le_max_right depth otherDepth) otherEnded
  rw [first, Option.some.injEq, Prod.mk.injEq] at second
  exact second

end Session

end Scriptlet
