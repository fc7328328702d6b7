import Scriptlet.Value

/-!
# Runtime errors

The causes of the errors that evaluation produces, and their wording.
-/

namespace Scriptlet

/-- The name of a builtin. -/
def Builtin.name : Builtin → String
  | len => "len"
  | first => "first"
  | last => "last"
  | tail => "tail"
  | push => "push"

/-- Causes of runtime errors. -/
inductive RuntimeError where
  | typeMismatch (left : ValueType) (op : BinaryOp) (right : ValueType)
  | unknownBinary (left : ValueType) (op : BinaryOp) (right : ValueType)
  | unknownUnary (op : UnaryOp) (operand : ValueType)
  | identifierNotFound (name : String)
  | notAFunction (callee : ValueType)
  | wrongArgumentCount (expected got : Nat)
  | unsupportedArgument (builtin : Builtin) (got : ValueType)
  | wrongArgumentType (builtin : Builtin) (expected got : ValueType)
  | wrongFirstArgumentType (builtin : Builtin) (expected got : ValueType)
  | indexNotSupported (collection : ValueType)
  | unusableKey (key : ValueType)
  | divisionByZero
  deriving DecidableEq, Repr

namespace RuntimeError

/-- The wording of a runtime error. -/
def message : RuntimeError → String
  | typeMismatch left op right =>
      "Type mismatch: " ++ left.name ++ " " ++ op.text ++ " " ++ right.name
  | unknownBinary left op right =>
      "Unknown operator: " ++ left.name ++ " " ++ op.text ++ " " ++ right.name
  | unknownUnary op operand => "Unknown operator: " ++ op.text ++ operand.name
  | identifierNotFound name => "Identifier not found: " ++ name
  | notAFunction callee => "Not a function: " ++ callee.name
  | wrongArgumentCount expected got =>
      "Wrong number of arguments. Expected " ++ toString expected ++ ", but got " ++ toString got
  | unsupportedArgument builtin got =>
      "Argument to '" ++ builtin.name ++ "' not supported, got " ++ got.name
  | wrongArgumentType builtin expected got =>
      "Argument to '" ++ builtin.name ++ "' must be " ++ expected.name ++ ", but got " ++ got.name
  | wrongFirstArgumentType builtin expected got =>
      "First argument to '" ++ builtin.name ++ "' must be " ++ expected.name ++ ", but got " ++
        got.name
  | indexNotSupported collection => "Index operator is not supported for: " ++ collection.name
  | unusableKey key => "Unusable as dictionary key: " ++ key.name
  | divisionByZero => "Division by zero"

/-- The error as a value. -/
def toValue (cause : RuntimeError) : Value := .error cause.message

end RuntimeError

end Scriptlet
