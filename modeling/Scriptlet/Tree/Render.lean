import Scriptlet.Tree

/-!
# Canonical text

The text of a tree with every operator in parentheses. The statements of a program stand on lines
of their own, those of a block follow each other directly, and the braces of blocks are left out,
so the text of a program with conditionals or functions need not read back as that program.
-/

namespace Scriptlet

mutual

/-- The canonical text of an expression. -/
def Expr.render : Expr → String
  | .identifier name => name
  | .integer numeral => numeral
  | .boolean true => "true"
  | .boolean false => "false"
  | .string text => "\"" ++ text ++ "\""
  | .array elements => "[" ++ String.intercalate ", " (Expr.renderAll elements) ++ "]"
  | .dictionary pairs => "\x7b" ++ String.intercalate ", " (Expr.renderPairs pairs) ++ "\x7d"
  | .unary op operand => "(" ++ op.text ++ operand.render ++ ")"
  | .binary left op right => "(" ++ left.render ++ " " ++ op.text ++ " " ++ right.render ++ ")"
  | .conditional condition consequence none =>
      "if " ++ condition.render ++ " " ++ Block.render consequence
  | .conditional condition consequence (some alternative) =>
      "if " ++ condition.render ++ " " ++ Block.render consequence ++ " else " ++
        Block.render alternative
  | .function parameters body =>
      "fn(" ++ String.intercalate ", " parameters ++ ") " ++ Block.render body
  | .call callee arguments =>
      callee.render ++ "(" ++ String.intercalate ", " (Expr.renderAll arguments) ++ ")"
  | .index collection position => "(" ++ collection.render ++ "[" ++ position.render ++ "])"

/-- The canonical texts of several expressions. -/
def Expr.renderAll : List Expr → List String
  | [] => []
  | expr :: rest => expr.render :: Expr.renderAll rest

/-- The canonical texts of the pairs of a dictionary literal. -/
def Expr.renderPairs : List (Expr × Expr) → List String
  | [] => []
  | (key, value) :: rest => (key.render ++ ": " ++ value.render) :: Expr.renderPairs rest

/-- The canonical text of a statement; an expression statement has no semicolon. -/
def Stmt.render : Stmt → String
  | .bind name value => "let " ++ name ++ " = " ++ value.render ++ ";"
  | .returns value => "return " ++ value.render ++ ";"
  | .expression value => value.render

/-- The canonical text of a block: its statements without anything between them. -/
def Block.render : List Stmt → String
  | [] => ""
  | stmt :: rest => stmt.render ++ Block.render rest

end

/-- The canonical text of a program, one statement a line. -/
def Program.render (program : Program) : String :=
  String.intercalate "\n" (program.statements.map Stmt.render)

end Scriptlet
