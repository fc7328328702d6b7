import Scriptlet.Parse.Reader
import Scriptlet.Text.Numeral
import Scriptlet.Token.Scan
import Scriptlet.Tree.Precedence

/-!
# Parsing

The grammar of the language as readers of tokens. An expression is a primary followed by operators,
calls and indexings as long as they bind more strongly than the context. A position at which no
expression starts, or whose integer is too large, is noted and left empty; a missing delimiter or
identifier stops the reading.

Readers of compound forms take the reader of their sub-expressions as an argument.
`Grammar.expression` ties the knot: its bound limits the nesting depth and the length of each list,
and a bound above the number of tokens is always enough, since an expression consumes its first
token before anything inside it is read.
-/

namespace Scriptlet

namespace Grammar

open Reader

/-- A reader of expressions in a context of a given strength; `none` is an empty position. -/
abbrev ExprReader := Precedence → Reader (Option Expr)

/-- A binding, after its keyword. -/
def binding (expr : ExprReader) : Reader (Option Stmt) := do
  let name ← expectIdentifier
  expect .assign
  let value ← expr .lowest
  let _ ← accept .semicolon
  return value.map (.bind name)

/-- The return of a value, after its keyword. -/
def returning (expr : ExprReader) : Reader (Option Stmt) := do
  let value ← expr .lowest
  let _ ← accept .semicolon
  return value.map .returns

/-- An expression that stands as a statement. -/
def expressionStatement (expr : ExprReader) : Reader (Option Stmt) := do
  let value ← expr .lowest
  let _ ← accept .semicolon
  return value.map .expression

/-- A statement, its optional semicolon included. -/
def statement (expr : ExprReader) : Reader (Option Stmt) := fun tokens =>
  match tokens with
  | .keyword .letWord :: rest => binding expr rest
  | .keyword .returnWord :: rest => returning expr rest
  | _ => expressionStatement expr tokens

/-- Statements up to the end of the input. -/
def statements (expr : ExprReader) : Nat → Reader (List Stmt)
  | 0 => stop .boundSpent
  | bound + 1 => fun tokens =>
      match tokens with
      | [] => .done [] [] []
      | _ =>
          (do
            let first ← statement expr
            let others ← statements expr bound
            return first.toList ++ others : Reader (List Stmt)) tokens

/-- The statements of a block after its opening brace, up to the closing brace, which is consumed,
or the end of the input. -/
def block (expr : ExprReader) : Nat → Reader (List Stmt)
  | 0 => stop .boundSpent
  | bound + 1 => fun tokens =>
      match tokens with
      | [] => .done [] [] []
      | .symbol .rightBrace :: rest => .done [] rest []
      | _ =>
          (do
            let first ← statement expr
            let others ← block expr bound
            return first.toList ++ others : Reader (List Stmt)) tokens

/-- The elements of a list after the first one, each after a comma, and the closing symbol. -/
def moreElements (expr : ExprReader) (close : Symbol) : Nat → Reader (List Expr)
  | 0 => stop .boundSpent
  | bound + 1 => do
      if ← accept .comma then
        let next ← expr .lowest
        let others ← moreElements expr close bound
        return next.toList ++ others
      else
        expect close
        return []

/-- The elements of a list after its opening symbol, up to and including the closing symbol. -/
def elements (expr : ExprReader) (close : Symbol) (bound : Nat) : Reader (List Expr) := do
  if ← accept close then
    return []
  else
    let first ← expr .lowest
    let others ← moreElements expr close bound
    return first.toList ++ others

/-- What must follow a pair of a dictionary: a comma, or a closing brace, which is not consumed. -/
def pairEnd : Reader Unit := do
  if ← sees .rightBrace then return () else expect .comma

/-- The pairs of a dictionary after its opening brace, up to and including the closing brace. A
comma separates pairs and may follow the last one. -/
def pairs (expr : ExprReader) : Nat → Reader (List (Expr × Expr))
  | 0 => stop .boundSpent
  | bound + 1 => do
      if ← accept .rightBrace then
        return []
      else
        let key ← expr .lowest
        expect .colon
        let value ← expr .lowest
        pairEnd
        let others ← pairs expr bound
        match key, value with
        | some key, some value => return (key, value) :: others
        | _, _ => return others

/-- The first parameter and the ones after it, up to and including the closing parenthesis. -/
def moreParameters : Nat → Reader (List String)
  | 0 => stop .boundSpent
  | bound + 1 => do
      let name ← expectIdentifier
      if ← accept .comma then
        let others ← moreParameters bound
        return name :: others
      else
        expect .rightParen
        return [name]

/-- The parameters of a function after the opening parenthesis. -/
def parameters (bound : Nat) : Reader (List String) := do
  if ← accept .rightParen then return [] else moreParameters bound

/-- An integer literal. -/
def integer (numeral : String) : Reader (Option Expr) :=
  if Text.numeralValue numeral < Text.literalBound then
    return some (.integer numeral)
  else do
    note (.invalidInteger numeral)
    return none

/-- An operator and its operand, after the operator. -/
def unary (expr : ExprReader) (op : UnaryOp) : Reader (Option Expr) := do
  let operand ← expr .operand
  return operand.map (.unary op)

/-- An expression in parentheses, after the opening one. -/
def grouped (expr : ExprReader) : Reader (Option Expr) := do
  let inner ← expr .lowest
  expect .rightParen
  return inner

/-- A conditional, after its keyword. -/
def conditional (expr : ExprReader) (bound : Nat) : Reader (Option Expr) := do
  expect .leftParen
  let condition ← expr .lowest
  expect .rightParen
  expect .leftBrace
  let consequence ← block expr bound
  if ← acceptKeyword .elseWord then
    expect .leftBrace
    let alternative ← block expr bound
    return condition.map (.conditional · consequence (some alternative))
  else
    return condition.map (.conditional · consequence none)

/-- A function literal, after its keyword. -/
def function (expr : ExprReader) (bound : Nat) : Reader (Option Expr) := do
  expect .leftParen
  let names ← parameters bound
  expect .leftBrace
  let body ← block expr bound
  return some (.function names body)

/-- A position at which no expression starts: the token there is consumed. -/
def missing (found : TokenKind) : Reader (Option Expr) := do
  note (.noExpression found)
  return none

/-- An expression without the operators, calls and indexings that may follow it. -/
def primary (expr : ExprReader) (bound : Nat) : Reader (Option Expr) := fun tokens =>
  match tokens with
  | [] => missing .endOfInput []
  | .identifier name :: rest => .done (some (.identifier name)) rest []
  | .integer numeral :: rest => integer numeral rest
  | .string text :: rest => .done (some (.string text)) rest []
  | .keyword .trueWord :: rest => .done (some (.boolean true)) rest []
  | .keyword .falseWord :: rest => .done (some (.boolean false)) rest []
  | .keyword .ifWord :: rest => conditional expr bound rest
  | .keyword .functionWord :: rest => function expr bound rest
  | .symbol .bang :: rest => unary expr .not rest
  | .symbol .minus :: rest => unary expr .negate rest
  | .symbol .leftParen :: rest => grouped expr rest
  | .symbol .leftBracket :: rest =>
      (do return some (.array (← elements expr .rightBracket bound)) : Reader (Option Expr)) rest
  | .symbol .leftBrace :: rest =>
      (do return some (.dictionary (← pairs expr bound)) : Reader (Option Expr)) rest
  | token :: rest => missing token.kind rest

/-- Continues a complete expression with all that binds it more strongly than the context does. -/
def continued (expr : ExprReader) (context : Precedence) (bound : Nat) :
    Nat → Expr → Reader (Option Expr)
  | 0, _ => stop .boundSpent
  | steps + 1, left => fun tokens =>
      if context < Precedence.ofKind (frontKind tokens) then
        match tokens with
        | .symbol .leftParen :: rest =>
            (do
              let arguments ← elements expr .rightParen bound
              continued expr context bound steps (.call left arguments) :
                Reader (Option Expr)) rest
        | .symbol .leftBracket :: rest =>
            (do
              let position ← expr .lowest
              expect .rightBracket
              match position with
              | none => return none
              | some position => continued expr context bound steps (.index left position) :
                Reader (Option Expr)) rest
        | .symbol mark :: rest =>
            match BinaryOp.ofSymbol? mark with
            | some op =>
                (do
                  match ← expr op.precedence with
                  | none => return none
                  | some right => continued expr context bound steps (.binary left op right) :
                    Reader (Option Expr)) rest
            | none => .done (some left) tokens []
        | _ => .done (some left) tokens []
      else
        .done (some left) tokens []

/-- An expression in a context of a given strength. -/
def expression : Nat → ExprReader
  | 0, _ => stop .boundSpent
  | bound + 1, context => do
      match ← primary (expression bound) bound with
      | none => return none
      | some left => continued (expression bound) context bound bound left

/-- A whole program. -/
def program (bound : Nat) : Reader (List Stmt) := statements (expression bound) bound

end Grammar

/-- A program as far as it could be read, and the problems found, in the order of their finding. -/
structure ParseResult where
  program : Program
  errors : List ParseError

namespace ParseResult

/-- Whether no problem was found. -/
def isOk (result : ParseResult) : Bool := result.errors.isEmpty

/-- The result that a reply of the program reader stands for: after a stop there is no program. -/
def ofReply : Reply (List Stmt) → ParseResult
  | .done statements _ issues => ⟨⟨statements⟩, issues⟩
  | .stopped (.unexpected expected found) issues =>
      ⟨⟨[]⟩, issues ++ [.unexpectedToken expected found]⟩
  | .stopped .boundSpent issues => ⟨⟨[]⟩, issues⟩

end ParseResult

/-- Parses a list of tokens. -/
def parseTokens (tokens : List Token) : ParseResult :=
  .ofReply (Grammar.program (tokens.length + 1) tokens)

/-- Parses a source text. -/
def parse (source : String) : Except ScanError ParseResult := do
  let tokens ← Token.ofSource source
  return parseTokens tokens

end Scriptlet
