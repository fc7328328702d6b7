import Mathlib.Logic.Relation
import Scriptlet.Proofs.Evaluate.Sequence

/-!
# The call tree of an evaluation

Evaluating a program starts the evaluation of its statements, these start the evaluation of
expressions, and so on through every function that is called.  An *activation* is one such piece of
work together with the store it starts on.  `Activation.Calls` says which activations one activation
starts directly, with the store that the parts before have left; `Activation.Within` says which it
starts at any depth.  What operators, indexing and calls are applied to is `Activation.Performs`.

None of these relations presupposes that the evaluation ends: a part that is reached is in the tree
even when it or something after it does not end.
-/

namespace Scriptlet

namespace Evaluate

/-- What can be evaluated, and where. -/
inductive Task where
  | expression (scope : FrameId) (expr : Expr)
  | statement (scope : FrameId) (stmt : Stmt)
  | block (scope : FrameId) (stmts : Block)
  | application (callee : Value) (arguments : List Value)
  | program (scope : FrameId) (tree : Program)

/-- The evaluation of a task with a bound on the nesting of calls. -/
def Task.run (library : Library) (depth : Nat) : Task → Run Value
  | expression scope expr => Evaluate.expression library (applyWithin library depth) scope expr
  | statement scope stmt => Evaluate.statement library (applyWithin library depth) scope stmt
  | block scope stmts => Evaluate.block library (applyWithin library depth) scope .null stmts
  | application callee arguments => applyWithin library depth callee arguments
  | program scope tree => Evaluate.program library depth scope tree

/-- What a task makes of an interruption: calls and programs answer a pending return, all others
hand it on. -/
def Task.answer : Task → Value → Value
  | application .. | program .. => Value.settled
  | _ => id

/-- A task at its start: the nesting of calls still allowed and the store it starts on. -/
structure Activation where
  task : Task
  depth : Nat
  store : Store

namespace Activation

/-- The value of an activation and the store it leaves, if it ends. -/
def run (library : Library) (activation : Activation) : Option (Value × Store) :=
  activation.task.run library activation.depth activation.store

/-- An activation ends with a value that is handed on to what comes next. -/
def Passes (library : Library) (activation : Activation) (value : Value) (after : Store) : Prop :=
  activation.run library = some (value, after) ∧ value.interrupts = false

/-- The activations that one activation starts directly, one constructor a position. -/
inductive Calls (library : Library) : Activation → Activation → Prop
  | element {scope depth store front expr back values middle}
      (evaluated : expressions library (applyWithin library depth) scope front store =
        some (.ok values, middle)) :
      Calls library ⟨.expression scope (.array (front ++ expr :: back)), depth, store⟩
        ⟨.expression scope expr, depth, middle⟩
  | key {scope depth store front keyExpr valueExpr back found middle}
      (inserted : entries library (applyWithin library depth) scope front [] store =
        some (.ok found, middle)) :
      Calls library
        ⟨.expression scope (.dictionary (front ++ (keyExpr, valueExpr) :: back)), depth, store⟩
        ⟨.expression scope keyExpr, depth, middle⟩
  | entryValue {scope depth store front keyExpr valueExpr back found middle index last}
      (inserted : entries library (applyWithin library depth) scope front [] store =
        some (.ok found, middle))
      (passed : Passes library ⟨.expression scope keyExpr, depth, middle⟩ index last) :
      Calls library
        ⟨.expression scope (.dictionary (front ++ (keyExpr, valueExpr) :: back)), depth, store⟩
        ⟨.expression scope valueExpr, depth, last⟩
  | operand {scope depth store op operand} :
      Calls library ⟨.expression scope (.unary op operand), depth, store⟩
        ⟨.expression scope operand, depth, store⟩
  | left {scope depth store left op right} :
      Calls library ⟨.expression scope (.binary left op right), depth, store⟩
        ⟨.expression scope left, depth, store⟩
  | right {scope depth store left op right value middle}
      (passed : Passes library ⟨.expression scope left, depth, store⟩ value middle) :
      Calls library ⟨.expression scope (.binary left op right), depth, store⟩
        ⟨.expression scope right, depth, middle⟩
  | condition {scope depth store condition consequence alternative} :
      Calls library
        ⟨.expression scope (.conditional condition consequence alternative), depth, store⟩
        ⟨.expression scope condition, depth, store⟩
  | consequence {scope depth store condition consequence alternative value middle}
      (passed : Passes library ⟨.expression scope condition, depth, store⟩ value middle)
      (holds : value.isTruthy = true) :
      Calls library
        ⟨.expression scope (.conditional condition consequence alternative), depth, store⟩
        ⟨.block scope consequence, depth, middle⟩
  | alternative {scope depth store condition consequence alternative value middle}
      (passed : Passes library ⟨.expression scope condition, depth, store⟩ value middle)
      (fails : value.isTruthy = false) :
      Calls library
        ⟨.expression scope (.conditional condition consequence (some alternative)), depth, store⟩
        ⟨.block scope alternative, depth, middle⟩
  | callee {scope depth store callee arguments} :
      Calls library ⟨.expression scope (.call callee arguments), depth, store⟩
        ⟨.expression scope callee, depth, store⟩
  | argument {scope depth store callee front expr back function middle values last}
      (passed : Passes library ⟨.expression scope callee, depth, store⟩ function middle)
      (evaluated : expressions library (applyWithin library depth) scope front middle =
        some (.ok values, last)) :
      Calls library ⟨.expression scope (.call callee (front ++ expr :: back)), depth, store⟩
        ⟨.expression scope expr, depth, last⟩
  | application {scope depth store callee arguments function middle values last}
      (passed : Passes library ⟨.expression scope callee, depth, store⟩ function middle)
      (evaluated : expressions library (applyWithin library depth) scope arguments middle =
        some (.ok values, last)) :
      Calls library ⟨.expression scope (.call callee arguments), depth, store⟩
        ⟨.application function values, depth, last⟩
  | collection {scope depth store collection position} :
      Calls library ⟨.expression scope (.index collection position), depth, store⟩
        ⟨.expression scope collection, depth, store⟩
  | position {scope depth store collection position value middle}
      (passed : Passes library ⟨.expression scope collection, depth, store⟩ value middle) :
      Calls library ⟨.expression scope (.index collection position), depth, store⟩
        ⟨.expression scope position, depth, middle⟩
  | bound {scope depth store name value} :
      Calls library ⟨.statement scope (.bind name value), depth, store⟩
        ⟨.expression scope value, depth, store⟩
  | returned {scope depth store value} :
      Calls library ⟨.statement scope (.returns value), depth, store⟩
        ⟨.expression scope value, depth, store⟩
  | evaluated {scope depth store value} :
      Calls library ⟨.statement scope (.expression value), depth, store⟩
        ⟨.expression scope value, depth, store⟩
  | statement {scope depth store front stmt back value middle}
      (passed : Passes library ⟨.block scope front, depth, store⟩ value middle) :
      Calls library ⟨.block scope (front ++ stmt :: back), depth, store⟩
        ⟨.statement scope stmt, depth, middle⟩
  | body {depth store identity closure arguments scope entered}
      (fits : closure.parameters.length = arguments.length)
      (created : store.addFrame (closure.parameters.zip arguments).reverse (some closure.scope) =
        (scope, entered)) :
      Calls library ⟨.application (.function identity closure) arguments, depth + 1, store⟩
        ⟨.block scope closure.body, depth, entered⟩
  | topLevel {scope depth store front stmt back value middle}
      (passed : Passes library ⟨.block scope front, depth, store⟩ value middle) :
      Calls library ⟨.program scope ⟨front ++ stmt :: back⟩, depth, store⟩
        ⟨.statement scope stmt, depth, middle⟩

/-- An activation waits for what it calls, and an interruption of that ends it with its answer. -/
theorem Calls.awaits {library : Library} {parent child : Activation}
    (calls : Calls library parent child) :
    Run.Awaits (child.run library) parent.task.answer (parent.run library) := by
  cases calls with
  | element evaluated =>
      apply (awaits_expressions evaluated).bind
      intro value store interrupts
      rfl
  | key inserted =>
      apply (awaits_key inserted).bind
      intro value store interrupts
      rfl
  | entryValue inserted passed =>
      apply (awaits_entryValue inserted passed.1 passed.2).bind
      intro value store interrupts
      rfl
  | operand | left | callee | collection | bound | returned => exact (Run.Awaits.refl _).andThen
  | @condition _ _ _ _ _ alternative =>
      cases alternative <;> exact (Run.Awaits.refl _).andThen
  | right passed | position passed =>
      exact .of_passed passed.1 passed.2 (Run.Awaits.refl _).andThen
  | @consequence _ _ _ _ _ alternative _ _ passed holds =>
      cases alternative with
      | none | some =>
          apply Run.Awaits.of_passed passed.1 passed.2
          rw [if_pos holds]
          exact .refl _
  | alternative passed fails =>
      apply Run.Awaits.of_passed passed.1 passed.2
      rw [fails]
      exact .refl _
  | argument passed evaluated =>
      apply Run.Awaits.of_passed passed.1 passed.2
      apply (awaits_expressions evaluated).bind
      intro value store interrupts
      rfl
  | application passed evaluated =>
      apply Run.Awaits.of_passed passed.1 passed.2
      exact .of_ended evaluated (.refl _)
  | evaluated => exact .refl _
  | statement passed => exact awaits_statement passed.1 passed.2
  | @body depth store identity closure arguments scope entered fits created =>
      have settles : Run.Awaits
          (block library (applyWithin library depth) scope .null closure.body entered) Value.settled
          (invoke library (applyWithin library depth) closure arguments store) := by
        apply Run.Awaits.of_ended (congrArg some created)
        apply (Run.Awaits.refl _).bind
        intro value last interrupts
        rfl
      change Run.Awaits _ Value.settled ((if closure.parameters.length = arguments.length then
        invoke library (applyWithin library depth) closure arguments else pure _ : Run Value) store)
      rw [if_pos fits]
      exact settles
  | topLevel passed =>
      apply (awaits_statement passed.1 passed.2).bind
      intro value store interrupts
      rfl

/-- The activations of a call tree, its root included. -/
def Within (library : Library) (activation root : Activation) : Prop :=
  Relation.ReflTransGen (Calls library) root activation

/-- When an evaluation ends, so does everything in its call tree. -/
theorem Within.ends {library : Library} {activation root : Activation}
    (within : activation.Within library root) (ended : (root.run library).isSome = true) :
    (activation.run library).isSome = true := by
  induction within with
  | refl => exact ended
  | tail _ calls ih => exact calls.awaits.ends ih

end Activation

/-! ## Operations -/

/-- What is done with values: an operator, indexing, a call, or the call of a builtin. -/
inductive Operation where
  | unary (op : UnaryOp) (operand : Value)
  | binary (op : BinaryOp) (left right : Value)
  | index (collection position : Value)
  | call (callee : Value) (arguments : List Value)
  | builtin (operation : Builtin) (arguments : List Value)

/-- The values that an operation is applied to. -/
def Operation.operands : Operation → List Value
  | unary _ operand => [operand]
  | binary _ left right => [left, right]
  | index collection position => [collection, position]
  | call callee arguments => callee :: arguments
  | builtin _ arguments => arguments

/-- The operations that an activation itself performs. -/
inductive Activation.Performs (library : Library) : Activation → Operation → Prop
  | unary {scope depth store op operand value after}
      (passed : Passes library ⟨.expression scope operand, depth, store⟩ value after) :
      Performs library ⟨.expression scope (.unary op operand), depth, store⟩ (.unary op value)
  | binary {scope depth store left op right a middle b after}
      (passedLeft : Passes library ⟨.expression scope left, depth, store⟩ a middle)
      (passedRight : Passes library ⟨.expression scope right, depth, middle⟩ b after) :
      Performs library ⟨.expression scope (.binary left op right), depth, store⟩ (.binary op a b)
  | index {scope depth store collection position value middle index after}
      (passedLeft : Passes library ⟨.expression scope collection, depth, store⟩ value middle)
      (passedRight : Passes library ⟨.expression scope position, depth, middle⟩ index after) :
      Performs library ⟨.expression scope (.index collection position), depth, store⟩
        (.index value index)
  | call {callee arguments depth store} :
      Performs library ⟨.application callee arguments, depth, store⟩ (.call callee arguments)
  | builtin {name operation arguments depth store} :
      Performs library ⟨.application (.builtin name operation) arguments, depth, store⟩
        (.builtin operation arguments)

/-- What an operation yields. -/
def Operation.perform (library : Library) (depth : Nat) : Operation → Run Value
  | unary op operand => return op.apply operand
  | binary op left right => return op.apply left right
  | index collection position => return collection.atIndex position
  | call callee arguments => applyWithin library depth callee arguments
  | builtin operation arguments => operation.call arguments

/-- Whether a task is there for an operation: to apply an operator, an index or a callee. -/
def Task.isOperation : Task → Bool
  | expression _ (.unary ..) | expression _ (.binary ..) | expression _ (.index ..) => true
  | application .. => true
  | _ => false

namespace Activation

variable {library : Library} {activation : Activation}

/-- An activation that performs an operation ends with what the operation yields. -/
theorem Performs.run_eq {operation : Operation} (performs : activation.Performs library operation) :
    ∃ store, activation.run library = operation.perform library activation.depth store := by
  cases performs with
  | unary passed => exact ⟨_, Run.andThen_of_passed passed.1 passed.2⟩
  | @binary _ _ _ _ _ _ _ _ _ after passedLeft passedRight =>
      refine ⟨after, (Run.andThen_of_passed passedLeft.1 passedLeft.2).trans ?_⟩
      exact Run.andThen_of_passed passedRight.1 passedRight.2
  | @index _ _ _ _ _ _ _ _ after passedLeft passedRight =>
      refine ⟨after, (Run.andThen_of_passed passedLeft.1 passedLeft.2).trans ?_⟩
      exact Run.andThen_of_passed passedRight.1 passedRight.2
  | call => exact ⟨_, rfl⟩
  | @builtin _ _ _ depth store =>
      refine ⟨store, ?_⟩
      cases depth <;> rfl

/-- An operation takes place unless a part interrupts. -/
theorem interrupted_or_performs (isOperation : activation.task.isOperation = true)
    {result : Value} {after : Store} (ended : activation.run library = some (result, after)) :
    (result.interrupts = true ∧
        ∃ child, Calls library activation child ∧ child.run library = some (result, after)) ∨
      ∃ operation, activation.Performs library operation := by
  obtain ⟨task, depth, store⟩ := activation
  cases task with
  | application callee arguments => exact .inr ⟨_, .call⟩
  | expression scope expr =>
      cases expr with
      | unary op operand =>
          obtain ⟨value, middle, first, next⟩ := Run.andThen_eq_some.1 ended
          rcases next with ⟨interrupts, rfl, rfl⟩ | ⟨passed, _⟩
          · exact .inl ⟨interrupts, _, .operand, first⟩
          · exact .inr ⟨_, .unary ⟨first, passed⟩⟩
      | binary left op right =>
          obtain ⟨value, middle, first, next⟩ := Run.andThen_eq_some.1 ended
          rcases next with ⟨interrupts, rfl, rfl⟩ | ⟨passed, next⟩
          · exact .inl ⟨interrupts, _, .left, first⟩
          · obtain ⟨other, last, second, final⟩ := Run.andThen_eq_some.1 next
            rcases final with ⟨interrupts, rfl, rfl⟩ | ⟨otherPassed, _⟩
            · exact .inl ⟨interrupts, _, .right ⟨first, passed⟩, second⟩
            · exact .inr ⟨_, .binary ⟨first, passed⟩ ⟨second, otherPassed⟩⟩
      | index collection position =>
          obtain ⟨value, middle, first, next⟩ := Run.andThen_eq_some.1 ended
          rcases next with ⟨interrupts, rfl, rfl⟩ | ⟨passed, next⟩
          · exact .inl ⟨interrupts, _, .collection, first⟩
          · obtain ⟨other, last, second, final⟩ := Run.andThen_eq_some.1 next
            rcases final with ⟨interrupts, rfl, rfl⟩ | ⟨otherPassed, _⟩
            · exact .inl ⟨interrupts, _, .position ⟨first, passed⟩, second⟩
            · exact .inr ⟨_, .index ⟨first, passed⟩ ⟨second, otherPassed⟩⟩
      | _ => exact Bool.noConfusion isOperation
  | _ => exact Bool.noConfusion isOperation

end Activation

end Evaluate

end Scriptlet
