import Scriptlet.Token

/-!
# Syntax trees

Expressions and statements. A tree keeps the one part of its spelling that its meaning does not
fix, the digits of an integer literal; every other token of a node follows from the node itself,
and `Expr.token` and `Stmt.token` recover it.
-/

namespace Scriptlet

/-- Operators that stand before their operand. -/
inductive UnaryOp where
  | not
  | negate
  deriving DecidableEq, Repr

/-- Operators that stand between their operands. -/
inductive BinaryOp where
  | add
  | subtract
  | multiply
  | divide
  | less
  | greater
  | equal
  | notEqual
  deriving DecidableEq, Repr

namespace UnaryOp

/-- The symbol of an operator. -/
def symbol : UnaryOp → Symbol
  | not => .bang
  | negate => .minus

/-- The operator that a symbol denotes before an operand. -/
def ofSymbol? : Symbol → Option UnaryOp
  | .bang => some not
  | .minus => some negate
  | _ => none

/-- The spelling of an operator. -/
def text (op : UnaryOp) : String := op.symbol.text

end UnaryOp

namespace BinaryOp

/-- The symbol of an operator. -/
def symbol : BinaryOp → Symbol
  | add => .plus
  | subtract => .minus
  | multiply => .asterisk
  | divide => .slash
  | less => .less
  | greater => .greater
  | equal => .equal
  | notEqual => .notEqual

/-- The operator that a symbol denotes between operands. -/
def ofSymbol? : Symbol → Option BinaryOp
  | .plus => some add
  | .minus => some subtract
  | .asterisk => some multiply
  | .slash => some divide
  | .less => some less
  | .greater => some greater
  | .equal => some equal
  | .notEqual => some notEqual
  | _ => none

/-- The spelling of an operator. -/
def text (op : BinaryOp) : String := op.symbol.text

/-- Only an operator's own symbol denotes it. -/
theorem symbol_of_ofSymbol? {mark : Symbol} {op : BinaryOp} (found : ofSymbol? mark = some op) :
    op.symbol = mark := by
  cases mark <;> simp [ofSymbol?] at found <;> subst found <;> rfl

end BinaryOp

mutual

/-- Expressions. Blocks are the statement lists inside them. -/
inductive Expr where
  | identifier (name : String)
  | integer (numeral : String)
  | boolean (value : Bool)
  | string (text : String)
  | array (elements : List Expr)
  | dictionary (pairs : List (Expr × Expr))
  | unary (op : UnaryOp) (operand : Expr)
  | binary (left : Expr) (op : BinaryOp) (right : Expr)
  | conditional (condition : Expr) (consequence : List Stmt) (alternative : Option (List Stmt))
  | function (parameters : List String) (body : List Stmt)
  | call (callee : Expr) (arguments : List Expr)
  | index (collection : Expr) (position : Expr)

/-- Statements: a binding, the return of a value, or an expression. -/
inductive Stmt where
  | bind (name : String) (value : Expr)
  | returns (value : Expr)
  | expression (value : Expr)

end

instance : Inhabited Expr := ⟨.boolean false⟩

instance : Inhabited Stmt := ⟨.expression default⟩

/-- A block is a list of statements. -/
abbrev Block := List Stmt

/-- A program: the statements at the top level. -/
structure Program where
  statements : List Stmt
  deriving Inhabited

namespace Expr

/-- The token that an expression is known by: its operator, opening delimiter, keyword or text. -/
def token : Expr → Token
  | identifier name => .identifier name
  | integer numeral => .integer numeral
  | boolean true => .keyword .trueWord
  | boolean false => .keyword .falseWord
  | string text => .string text
  | array _ => .symbol .leftBracket
  | dictionary _ => .symbol .leftBrace
  | unary op _ => .symbol op.symbol
  | binary _ op _ => .symbol op.symbol
  | conditional .. => .keyword .ifWord
  | function .. => .keyword .functionWord
  | call .. => .symbol .leftParen
  | index .. => .symbol .leftBracket

end Expr

namespace Stmt

/-- The keyword of a statement, or the token of the expression that stands for it. -/
def token : Stmt → Token
  | bind .. => .keyword .letWord
  | returns _ => .keyword .returnWord
  | expression value => value.token

/-- The expression whose value a statement uses. -/
def value : Stmt → Expr
  | bind _ value => value
  | returns value => value
  | expression value => value

end Stmt

namespace Block

/-- The token that opens a block. -/
def token : Token := .symbol .leftBrace

end Block

end Scriptlet
