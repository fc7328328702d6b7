import Scriptlet.Builtin
import Scriptlet.Evaluate.Operators
import Scriptlet.Text.Numeral

/-!
# Evaluation

Evaluation of trees in a scope. Parts are evaluated from left to right; the first value that
interrupts, an error or a pending return, is the result, and nothing after it is evaluated.
Conditional blocks share the scope around them; a call gets a scope of its own inside the scope of
its function.

Evaluation follows the tree, and calls are handed to an `Applier`. `Evaluate.applyWithin` ties the
knot: its bound limits how deeply calls are nested, so a program without calls needs none.
-/

namespace Scriptlet

namespace Evaluate

/-- How a callee is applied to arguments. -/
abbrev Applier := Value → List Value → Run Value

/-- The value of an identifier: its binding, else the builtin of that name. -/
def identifier (library : Library) (scope : FrameId) (name : String) : Run Value := do
  match ← Run.lookup scope name with
  | some value => return value
  | none =>
      match library.find? name with
      | some builtin => return .builtin name builtin
      | none => return (RuntimeError.identifierNotFound name).toValue

/-- The value of an integer literal. -/
def integer (numeral : String) : Value := .integer (Int64.ofNat (Text.numeralValue numeral))

mutual

/-- The value of an expression. -/
def expression (library : Library) (apply : Applier) (scope : FrameId) : Expr → Run Value
  | .identifier name => identifier library scope name
  | .integer numeral => return integer numeral
  | .boolean value => return .boolean value
  | .string text => return .string text
  | .array elements => do
      match ← expressions library apply scope elements with
      | .error interruption => return interruption
      | .ok values => Run.newArray values
  | .dictionary pairs => do
      match ← entries library apply scope pairs [] with
      | .error interruption => return interruption
      | .ok found => Run.newDictionary found
  | .unary op operand =>
      (expression library apply scope operand).andThen fun value => return op.apply value
  | .binary left op right =>
      (expression library apply scope left).andThen fun a =>
        (expression library apply scope right).andThen fun b => return op.apply a b
  | .conditional condition consequence none =>
      (expression library apply scope condition).andThen fun value =>
        if value.isTruthy then block library apply scope .null consequence else return .null
  | .conditional condition consequence (some alternative) =>
      (expression library apply scope condition).andThen fun value =>
        if value.isTruthy then block library apply scope .null consequence
        else block library apply scope .null alternative
  | .function parameters body => Run.newFunction ⟨parameters, body, scope⟩
  | .call callee arguments =>
      (expression library apply scope callee).andThen fun function => do
        match ← expressions library apply scope arguments with
        | .error interruption => return interruption
        | .ok values => apply function values
  | .index collection position =>
      (expression library apply scope collection).andThen fun value =>
        (expression library apply scope position).andThen fun index => return value.atIndex index
  termination_by structural expr => expr

/-- The values of expressions from left to right, or the first interruption. -/
def expressions (library : Library) (apply : Applier) (scope : FrameId) :
    List Expr → Run (Except Value (List Value))
  | [] => return .ok []
  | expr :: rest => do
      let value ← expression library apply scope expr
      if value.interrupts then
        return .error value
      else
        match ← expressions library apply scope rest with
        | .error interruption => return .error interruption
        | .ok values => return .ok (value :: values)
  termination_by structural exprs => exprs

/-- Inserts the pairs of a dictionary literal from left to right, or yields the first interruption.
A key is checked after the value of its pair is known. -/
def entries (library : Library) (apply : Applier) (scope : FrameId) :
    List (Expr × Expr) → Entries Value → Run (Except Value (Entries Value))
  | [], found => return .ok found
  | (keyExpr, valueExpr) :: rest, found => do
      let index ← expression library apply scope keyExpr
      if index.interrupts then
        return .error index
      else
        let value ← expression library apply scope valueExpr
        if value.interrupts then
          return .error value
        else
          match index.key? with
          | none => return .error (RuntimeError.unusableKey index.type).toValue
          | some key => entries library apply scope rest (found.insert key value)
  termination_by structural pairs => pairs

/-- The result of a statement: null for a binding, a pending return, or the expression's value. -/
def statement (library : Library) (apply : Applier) (scope : FrameId) : Stmt → Run Value
  | .bind name value =>
      (expression library apply scope value).andThen fun bound => do
        Run.bindName scope name bound
        return .null
  | .returns value =>
      (expression library apply scope value).andThen fun result => return .returned result
  | .expression value => expression library apply scope value
  termination_by structural stmt => stmt

/-- The result of the last statement, or the first interruption; `result` if there are none. -/
def block (library : Library) (apply : Applier) (scope : FrameId) (result : Value) :
    List Stmt → Run Value
  | [] => return result
  | stmt :: rest =>
      (statement library apply scope stmt).andThen fun value =>
        block library apply scope value rest
  termination_by structural stmts => stmts

end

/-- Runs the body of a function in a new scope that binds its parameters, later ones over earlier
ones of the same name. -/
def invoke (library : Library) (apply : Applier) (closure : Closure) (arguments : List Value) :
    Run Value := do
  let scope ← Run.newFrame (closure.parameters.zip arguments).reverse (some closure.scope)
  let result ← block library apply scope .null closure.body
  return result.settled

/-- Applies a callee, with `run` for the functions of the language. -/
def applyWith (run : Closure → List Value → Run Value) : Applier
  | .function _ closure, arguments =>
      if closure.parameters.length = arguments.length then
        run closure arguments
      else
        return (RuntimeError.wrongArgumentCount closure.parameters.length arguments.length).toValue
  | .builtin _ operation, arguments => operation.call arguments
  | callee, _ => return (RuntimeError.notAFunction callee.type).toValue

/-- Application with a bound on the nesting of calls. -/
def applyWithin (library : Library) : Nat → Applier
  | 0 => applyWith fun _ _ => Run.unfinished
  | depth + 1 => applyWith (invoke library (applyWithin library depth))

/-- The result of a program: a pending return is answered by the program. -/
def program (library : Library) (depth : Nat) (scope : FrameId) (tree : Program) : Run Value := do
  let result ← block library (applyWithin library depth) scope .null tree.statements
  return result.settled

end Evaluate

end Scriptlet
