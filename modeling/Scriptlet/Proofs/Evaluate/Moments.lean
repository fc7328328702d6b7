import Scriptlet.Proofs.Evaluate.Interruption

/-!
# The moments of an evaluation

An evaluation is followed from its start to its end by looking at the store, and at the values in
hand, whenever a piece of work in its call tree starts or ends.  `Activation.moments` lists these
moments in their order.  It is a list also when the evaluation does not end within its bound: then
the pieces of work that are still under way have no last moment.
-/

namespace Scriptlet

namespace Evaluate

/-- The start of a piece of work, or its end with a result and the store it leaves. -/
inductive Moment where
  | started (activation : Activation)
  | ended (activation : Activation) (result : Value) (after : Store)

/-- The values that a task is given. -/
def Task.operands : Task → List Value
  | application callee arguments => callee :: arguments
  | _ => []

namespace Moment

/-- The store at a moment. -/
def store : Moment → Store
  | started activation => activation.store
  | ended _ _ after => after

/-- The values in hand at a moment. -/
def values : Moment → List Value
  | started activation => activation.task.operands
  | ended _ result _ => [result]

end Moment

namespace Activation

variable {library : Library} {activation child parent : Activation}

/-- The last moment of an activation, if it ends. -/
def ending (library : Library) (activation : Activation) : List Moment :=
  match activation.run library with
  | some (result, after) => [.ended activation result after]
  | none => []

/-- How much of the program text an activation has before it; a call has none. -/
noncomputable def size (activation : Activation) : Nat :=
  match activation.task with
  | .expression _ expr => sizeOf expr
  | .statement _ stmt => sizeOf stmt
  | .block _ stmts => sizeOf stmts
  | .application .. => 0
  | .program _ tree => sizeOf tree.statements

theorem sizeOf_lt_append {α : Type} [SizeOf α] (front : List α) (item : α) (back : List α) :
    sizeOf item < sizeOf (front ++ item :: back) :=
  List.sizeOf_lt_of_mem (by simp)

/-- What is started is smaller, or has less depth left. -/
theorem Calls.smaller (calls : Calls library parent child) :
    Prod.Lex (· < ·) (· < ·) (child.depth, child.size) (parent.depth, parent.size) := by
  cases calls with
  | body fits created => exact .left _ _ (Nat.lt_succ_self _)
  | @element _ _ _ front expr back _ _ evaluated =>
      have smaller := sizeOf_lt_append front expr back
      exact .right _ (by simp only [size, Expr.array.sizeOf_spec]; omega)
  | @key _ _ _ front keyExpr valueExpr back _ _ inserted =>
      have smaller := sizeOf_lt_append front (keyExpr, valueExpr) back
      rw [Prod.mk.sizeOf_spec] at smaller
      exact .right _ (by simp only [size, Expr.dictionary.sizeOf_spec]; omega)
  | @entryValue _ _ _ front keyExpr valueExpr back _ _ _ _ inserted passed =>
      have smaller := sizeOf_lt_append front (keyExpr, valueExpr) back
      rw [Prod.mk.sizeOf_spec] at smaller
      exact .right _ (by simp only [size, Expr.dictionary.sizeOf_spec]; omega)
  | @argument _ _ _ callee front expr back _ _ _ _ passed evaluated =>
      have smaller := sizeOf_lt_append front expr back
      exact .right _ (by simp only [size, Expr.call.sizeOf_spec]; omega)
  | @statement _ _ _ front stmt back _ _ passed | @topLevel _ _ _ front stmt back _ _ passed =>
      exact .right _ (sizeOf_lt_append front stmt back)
  | operand | left | right | condition | consequence | alternative | callee | application
  | collection | position | bound | returned | evaluated =>
      apply Prod.Lex.right
      simp only [size, Expr.unary.sizeOf_spec, Expr.binary.sizeOf_spec,
        Expr.conditional.sizeOf_spec, Expr.call.sizeOf_spec, Expr.index.sizeOf_spec,
        Stmt.bind.sizeOf_spec, Stmt.returns.sizeOf_spec, Stmt.expression.sizeOf_spec,
        Option.some.sizeOf_spec]
      omega

/-- The moments of an activation and of all that it starts, in their order. -/
def moments (library : Library) (activation : Activation) : List Moment :=
  .started activation :: ((activation.started library).attach.flatMap
    (fun ⟨child, _⟩ => child.moments library) ++ activation.ending library)
  termination_by (activation.depth, activation.size)
  decreasing_by exact (calls_of_mem_started ‹_›).smaller

theorem moments_eq (library : Library) (activation : Activation) :
    activation.moments library =
      .started activation :: ((activation.started library).flatMap (moments library) ++
        activation.ending library) := by
  rw [moments]
  congr 2
  rw [List.flatMap_subtype (g := moments library) fun _ _ => rfl, List.unattach_attach]

theorem mem_ending_iff {moment : Moment} :
    moment ∈ activation.ending library ↔ ∃ result after,
      activation.run library = some (result, after) ∧ moment = .ended activation result after := by
  unfold ending
  cases activation.run library with
  | none => simp
  | some step =>
      obtain ⟨result, after⟩ := step
      simp [and_assoc]

theorem mem_moments_of_calls {moment : Moment} (calls : Calls library parent child)
    (member : moment ∈ child.moments library) : moment ∈ parent.moments library := by
  rw [moments_eq]
  refine List.mem_cons_of_mem _ (List.mem_append_left _ ?_)
  exact List.mem_flatMap.2 ⟨child, mem_started_of_calls calls, member⟩

/-- The moments of an activation are the starts and the ends of the activations in its call tree. -/
theorem mem_moments_iff {moment : Moment} :
    moment ∈ activation.moments library ↔ ∃ inner, inner.Within library activation ∧
      (moment = .started inner ∨ moment ∈ inner.ending library) := by
  constructor
  · intro member
    induction activation using moments.induct library with
    | case1 activation ih =>
        rw [moments_eq, List.mem_cons, List.mem_append, List.mem_flatMap] at member
        rcases member with start | ⟨child, childStarted, member⟩ | finish
        · exact ⟨activation, .refl, .inl start⟩
        · obtain ⟨inner, within, shown⟩ := ih child childStarted member
          exact ⟨inner, .head (calls_of_mem_started childStarted) within, shown⟩
        · exact ⟨activation, .refl, .inr finish⟩
  · rintro ⟨inner, within, shown⟩
    induction within using Relation.ReflTransGen.head_induction_on with
    | refl =>
        rw [moments_eq, List.mem_cons, List.mem_append]
        exact shown.imp_right .inr
    | head calls _ ih => exact mem_moments_of_calls calls ih

end Activation

end Evaluate

end Scriptlet
