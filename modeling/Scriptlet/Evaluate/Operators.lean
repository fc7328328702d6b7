import Scriptlet.RuntimeError

/-!
# Operators

What operators and indexing make of operands that do not interrupt. Integer arithmetic is on signed
64-bit words and wraps; division goes toward zero.
-/

namespace Scriptlet

namespace UnaryOp

/-- Negation of truth is defined everywhere, negation of numbers on integers. -/
def apply : UnaryOp → Value → Value
  | not, .boolean value => .boolean (!value)
  | not, .null => .boolean true
  | not, _ => .boolean false
  | negate, .integer value => .integer (-value)
  | negate, operand => (RuntimeError.unknownUnary negate operand.type).toValue

end UnaryOp

namespace BinaryOp

/-- Arithmetic and comparison of integers. -/
def applyIntegers (op : BinaryOp) (a b : Int64) : Value :=
  match op with
  | add => .integer (a + b)
  | subtract => .integer (a - b)
  | multiply => .integer (a * b)
  | divide => if b = 0 then RuntimeError.divisionByZero.toValue else .integer (a / b)
  | less => .boolean (decide (a < b))
  | greater => .boolean (decide (a > b))
  | equal => .boolean (a == b)
  | notEqual => .boolean (a != b)

/-- Strings can be concatenated and nothing else. -/
def applyStrings (op : BinaryOp) (a b : String) : Value :=
  match op with
  | add => .string (a ++ b)
  | _ => (RuntimeError.unknownBinary .string op .string).toValue

/-- Operands other than two integers or two strings can only be compared, by identity, with one of
the same type. -/
def applyOthers (op : BinaryOp) (left right : Value) : Value :=
  if left.type = right.type then
    match op with
    | equal => .boolean (left.isIdentical right)
    | notEqual => .boolean (!left.isIdentical right)
    | _ => (RuntimeError.unknownBinary left.type op right.type).toValue
  else
    (RuntimeError.typeMismatch left.type op right.type).toValue

/-- The result of a binary operator. -/
def apply (op : BinaryOp) : Value → Value → Value
  | .integer a, .integer b => op.applyIntegers a b
  | .string a, .string b => op.applyStrings a b
  | left, right => op.applyOthers left right

end BinaryOp

namespace Value

/-- The element at a position, or null when there is none. -/
def elementAt (elements : List Value) (position : Int64) : Value :=
  if position < 0 then null else elements[position.toInt.toNat]?.getD null

/-- Indexing: arrays by integers, dictionaries by keys. -/
def atIndex : Value → Value → Value
  | array _ elements, integer position => elementAt elements position
  | dictionary identity entries, index =>
      match index.key? with
      | some key => (Entries.find? entries key).getD null
      | none => (RuntimeError.indexNotSupported (dictionary identity entries).type).toValue
  | collection, _ => (RuntimeError.indexNotSupported collection.type).toValue

end Value

end Scriptlet
