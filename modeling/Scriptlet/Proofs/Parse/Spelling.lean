import Scriptlet.Parse

/-!
# Spellings

The grammar of the language as relations between trees and tokens.  Every relation speaks of a list
of tokens and of the part of it that is left over: the tokens in between, all of them and in their
order, are a spelling of the tree.

A tree can be spelled in several ways, and these are all the freedoms there are: an expression may
stand in parentheses, and must where its place does not admit it bare; a statement may be followed
by a semicolon, and must be where what follows would continue it; the last pair of a dictionary may
be followed by a comma; and a block may lack its closing brace at the end of the input.

Every spelling of an expression has at least one token, and its first token tells it from whatever
else may stand there.
-/

namespace Scriptlet

/-- Where an expression stands. -/
inductive Slot where
  | whole
  | leftOf (op : BinaryOp)
  | rightOf (op : BinaryOp)
  | operand
  | head
  deriving DecidableEq, Repr

/-- Whether an expression may stand at a place without parentheses: to the left of an operator no
weaker operator, to its right none that is weaker or equal, after a unary operator no binary one,
and before arguments or an index neither of them. -/
def Slot.admits : Slot → Expr → Bool
  | leftOf op, .binary _ inner _ => !decide (inner.precedence < op.precedence)
  | rightOf op, .binary _ inner _ => decide (op.precedence < inner.precedence)
  | operand, .binary .. => false
  | head, .binary .. => false
  | head, .unary .. => false
  | _, _ => true

namespace Spelling

open Reader (frontKind)

/-- What follows a statement without a semicolon: neither a semicolon nor anything that would
continue the statement's expression. -/
structure Detached (rest : List Token) : Prop where
  continuesNothing : Precedence.ofKind (frontKind rest) = .lowest
  noSemicolon : frontKind rest ≠ .symbol .semicolon

/-- Names separated by commas, and the closing parenthesis. -/
inductive Parameters : List String → List Token → List Token → Prop
  | none {rest} : Parameters [] (.symbol .rightParen :: rest) rest
  | last {name rest} :
      Parameters [name] (.identifier name :: .symbol .rightParen :: rest) rest
  | more {name next others tokens rest} (spelled : Parameters (next :: others) tokens rest) :
      Parameters (name :: next :: others) (.identifier name :: .symbol .comma :: tokens) rest

mutual

/-- An expression at a place: bare where the place admits it, and in parentheses anywhere. -/
inductive Placed : Slot → Expr → List Token → List Token → Prop
  | bare {slot expr tokens rest} (admitted : slot.admits expr = true)
      (spelled : Bare expr tokens rest) : Placed slot expr tokens rest
  | grouped {slot expr tokens rest}
      (inner : Placed .whole expr tokens (.symbol .rightParen :: rest)) :
      Placed slot expr (.symbol .leftParen :: tokens) rest

/-- An expression without parentheses around it. -/
inductive Bare : Expr → List Token → List Token → Prop
  | identifier {name rest} : Bare (.identifier name) (.identifier name :: rest) rest
  | integer {numeral rest} (fits : Text.numeralValue numeral < Text.literalBound) :
      Bare (.integer numeral) (.integer numeral :: rest) rest
  | string {text rest} : Bare (.string text) (.string text :: rest) rest
  | truth {rest} : Bare (.boolean true) (.keyword .trueWord :: rest) rest
  | falsity {rest} : Bare (.boolean false) (.keyword .falseWord :: rest) rest
  | array {elements tokens rest} (spelled : Elements .rightBracket elements tokens rest) :
      Bare (.array elements) (.symbol .leftBracket :: tokens) rest
  | dictionary {pairs tokens rest} (spelled : Pairs pairs tokens rest) :
      Bare (.dictionary pairs) (.symbol .leftBrace :: tokens) rest
  | unary {op operand tokens rest} (spelled : Placed .operand operand tokens rest) :
      Bare (.unary op operand) (.symbol op.symbol :: tokens) rest
  | binary {left op right tokens middle rest}
      (spelledLeft : Placed (.leftOf op) left tokens (.symbol op.symbol :: middle))
      (spelledRight : Placed (.rightOf op) right middle rest) :
      Bare (.binary left op right) tokens rest
  | conditional {condition consequence tokens middle rest}
      (spelledCondition : Placed .whole condition tokens
        (.symbol .rightParen :: .symbol .leftBrace :: middle))
      (spelledConsequence : Statements true consequence middle rest)
      (noElse : frontKind rest ≠ .keyword .elseWord) :
      Bare (.conditional condition consequence none)
        (.keyword .ifWord :: .symbol .leftParen :: tokens) rest
  | alternative {condition consequence alternative tokens middle last rest}
      (spelledCondition : Placed .whole condition tokens
        (.symbol .rightParen :: .symbol .leftBrace :: middle))
      (spelledConsequence : Statements true consequence middle
        (.keyword .elseWord :: .symbol .leftBrace :: last))
      (spelledAlternative : Statements true alternative last rest) :
      Bare (.conditional condition consequence (some alternative))
        (.keyword .ifWord :: .symbol .leftParen :: tokens) rest
  | function {parameters body tokens middle rest}
      (spelledParameters : Parameters parameters tokens (.symbol .leftBrace :: middle))
      (spelledBody : Statements true body middle rest) :
      Bare (.function parameters body)
        (.keyword .functionWord :: .symbol .leftParen :: tokens) rest
  | call {callee arguments tokens middle rest}
      (spelledCallee : Placed .head callee tokens (.symbol .leftParen :: middle))
      (spelledArguments : Elements .rightParen arguments middle rest) :
      Bare (.call callee arguments) tokens rest
  | index {collection position tokens middle rest}
      (spelledCollection : Placed .head collection tokens (.symbol .leftBracket :: middle))
      (spelledPosition : Placed .whole position middle (.symbol .rightBracket :: rest)) :
      Bare (.index collection position) tokens rest

/-- Expressions separated by commas, and the closing symbol. -/
inductive Elements : Symbol → List Expr → List Token → List Token → Prop
  | none {close rest} : Elements close [] (.symbol close :: rest) rest
  | last {close expr tokens rest} (spelled : Placed .whole expr tokens (.symbol close :: rest)) :
      Elements close [expr] tokens rest
  | more {close expr next others tokens middle rest}
      (spelled : Placed .whole expr tokens (.symbol .comma :: middle))
      (spelledOthers : Elements close (next :: others) middle rest) :
      Elements close (expr :: next :: others) tokens rest

/-- Pairs, each but the last one followed by a comma, and the closing brace. -/
inductive Pairs : List (Expr × Expr) → List Token → List Token → Prop
  | none {rest} : Pairs [] (.symbol .rightBrace :: rest) rest
  | last {key value tokens middle rest}
      (spelledKey : Placed .whole key tokens (.symbol .colon :: middle))
      (spelledValue : Placed .whole value middle (.symbol .rightBrace :: rest)) :
      Pairs [(key, value)] tokens rest
  | more {key value others tokens middle next rest}
      (spelledKey : Placed .whole key tokens (.symbol .colon :: middle))
      (spelledValue : Placed .whole value middle (.symbol .comma :: next))
      (spelledOthers : Pairs others next rest) :
      Pairs ((key, value) :: others) tokens rest

/-- A statement without a semicolon. -/
inductive Statement : Stmt → List Token → List Token → Prop
  | bind {name value tokens rest} (spelled : Placed .whole value tokens rest) :
      Statement (.bind name value)
        (.keyword .letWord :: .identifier name :: .symbol .assign :: tokens) rest
  | returns {value tokens rest} (spelled : Placed .whole value tokens rest) :
      Statement (.returns value) (.keyword .returnWord :: tokens) rest
  | expression {value tokens rest} (spelled : Placed .whole value tokens rest) :
      Statement (.expression value) tokens rest

/-- Statements up to the end of the input or, in a block, the closing brace. -/
inductive Statements : Bool → List Stmt → List Token → List Token → Prop
  | closed {rest} : Statements true [] (.symbol .rightBrace :: rest) rest
  | finished {inBlock} : Statements inBlock [] [] []
  | terminated {inBlock stmt others tokens middle rest}
      (spelled : Statement stmt tokens (.symbol .semicolon :: middle))
      (spelledOthers : Statements inBlock others middle rest) :
      Statements inBlock (stmt :: others) tokens rest
  | detached {inBlock stmt others tokens middle rest}
      (spelled : Statement stmt tokens middle) (detached : Detached middle)
      (spelledOthers : Statements inBlock others middle rest) :
      Statements inBlock (stmt :: others) tokens rest

end

variable {expr : Expr} {stmt : Stmt} {exprs : List Expr} {close : Symbol} {tokens rest : List Token}

/-! ## Consumed tokens -/

theorem Parameters.length_lt {names : List String} (spelled : Parameters names tokens rest) :
    rest.length < tokens.length := by
  induction spelled with
  | none => exact Nat.lt_succ_self _
  | last => exact Nat.lt_succ_of_lt (Nat.lt_succ_self _)
  | more spelled ih => exact Nat.lt_succ_of_lt (Nat.lt_succ_of_lt ih)

mutual

theorem Placed.length_lt {slot : Slot} {expr : Expr} {tokens rest : List Token} :
    Placed slot expr tokens rest → rest.length < tokens.length
  | .bare _ spelled => spelled.length_lt
  | .grouped inner => by
      have consumed := inner.length_lt
      simp only [List.length_cons] at consumed ⊢
      omega

theorem Bare.length_lt {expr : Expr} {tokens rest : List Token} :
    Bare expr tokens rest → rest.length < tokens.length
  | .identifier | .integer _ | .string | .truth | .falsity => Nat.lt_succ_self _
  | .array spelled => Nat.lt_succ_of_lt spelled.length_lt
  | .dictionary spelled => Nat.lt_succ_of_lt spelled.length_lt
  | .unary spelled => Nat.lt_succ_of_lt spelled.length_lt
  | .binary spelledLeft spelledRight => by
      have consumedLeft := spelledLeft.length_lt
      have consumedRight := spelledRight.length_lt
      simp only [List.length_cons] at consumedLeft
      omega
  | .conditional spelledCondition spelledConsequence _ => by
      have consumedCondition := spelledCondition.length_lt
      have consumedConsequence := spelledConsequence.length_le
      simp only [List.length_cons] at consumedCondition ⊢
      omega
  | .alternative spelledCondition spelledConsequence spelledAlternative => by
      have consumedCondition := spelledCondition.length_lt
      have consumedConsequence := spelledConsequence.length_le
      have consumedAlternative := spelledAlternative.length_le
      simp only [List.length_cons] at consumedCondition consumedConsequence ⊢
      omega
  | .function spelledParameters spelledBody => by
      have consumedParameters := spelledParameters.length_lt
      have consumedBody := spelledBody.length_le
      simp only [List.length_cons] at consumedParameters ⊢
      omega
  | .call spelledCallee spelledArguments => by
      have consumedCallee := spelledCallee.length_lt
      have consumedArguments := spelledArguments.length_lt
      simp only [List.length_cons] at consumedCallee
      omega
  | .index spelledCollection spelledPosition => by
      have consumedCollection := spelledCollection.length_lt
      have consumedPosition := spelledPosition.length_lt
      simp only [List.length_cons] at consumedCollection consumedPosition
      omega

theorem Elements.length_lt {close : Symbol} {exprs : List Expr} {tokens rest : List Token} :
    Elements close exprs tokens rest → rest.length < tokens.length
  | .none => Nat.lt_succ_self _
  | .last spelled => by
      have consumed := spelled.length_lt
      simp only [List.length_cons] at consumed
      omega
  | .more spelled spelledOthers => by
      have consumed := spelled.length_lt
      have consumedOthers := spelledOthers.length_lt
      simp only [List.length_cons] at consumed
      omega

theorem Pairs.length_lt {pairs : List (Expr × Expr)} {tokens rest : List Token} :
    Pairs pairs tokens rest → rest.length < tokens.length
  | .none => Nat.lt_succ_self _
  | .last spelledKey spelledValue => by
      have consumedKey := spelledKey.length_lt
      have consumedValue := spelledValue.length_lt
      simp only [List.length_cons] at consumedKey consumedValue
      omega
  | .more spelledKey spelledValue spelledOthers => by
      have consumedKey := spelledKey.length_lt
      have consumedValue := spelledValue.length_lt
      have consumedOthers := spelledOthers.length_lt
      simp only [List.length_cons] at consumedKey consumedValue
      omega

theorem Statement.length_lt {stmt : Stmt} {tokens rest : List Token} :
    Statement stmt tokens rest → rest.length < tokens.length
  | .bind spelled => by
      have consumed := spelled.length_lt
      simp only [List.length_cons]
      omega
  | .returns spelled => Nat.lt_succ_of_lt spelled.length_lt
  | .expression spelled => spelled.length_lt

theorem Statements.length_le {inBlock : Bool} {stmts : List Stmt} {tokens rest : List Token} :
    Statements inBlock stmts tokens rest → rest.length ≤ tokens.length
  | .closed => Nat.le_succ _
  | .finished => Nat.le_refl _
  | .terminated spelled spelledOthers => by
      have consumed := spelled.length_lt
      have consumedOthers := spelledOthers.length_le
      simp only [List.length_cons] at consumed
      omega
  | .detached spelled _ spelledOthers => by
      have consumed := spelled.length_lt
      have consumedOthers := spelledOthers.length_le
      omega

end

/-! ## First tokens -/

/-- Whether an expression can start with a token of a kind. -/
def opensExpression : TokenKind → Bool
  | .identifier | .integer | .string => true
  | .keyword .trueWord | .keyword .falseWord | .keyword .ifWord | .keyword .functionWord => true
  | .symbol .bang | .symbol .minus | .symbol .leftParen | .symbol .leftBracket
  | .symbol .leftBrace => true
  | _ => false

mutual

theorem Placed.opens {slot : Slot} {expr : Expr} {tokens rest : List Token} :
    Placed slot expr tokens rest → opensExpression (frontKind tokens) = true
  | .bare _ spelled => spelled.opens
  | .grouped _ => rfl

theorem Bare.opens {expr : Expr} {tokens rest : List Token} :
    Bare expr tokens rest → opensExpression (frontKind tokens) = true
  | .binary spelledLeft _ => spelledLeft.opens
  | .call spelledCallee _ => spelledCallee.opens
  | .index spelledCollection _ => spelledCollection.opens
  | @Bare.unary op _ _ _ _ => by cases op <;> rfl
  | .identifier | .integer _ | .string | .truth | .falsity | .array _ | .dictionary _
  | .conditional .. | .alternative .. | .function .. => rfl

end

theorem frontKind_ne_of_opens {kind : TokenKind} (opens : opensExpression (frontKind tokens) = true)
    (other : opensExpression kind = false) : frontKind tokens ≠ kind := by
  rintro rfl
  rw [other] at opens
  exact Bool.noConfusion opens

theorem Elements.opens (spelled : Elements close (expr :: exprs) tokens rest) :
    opensExpression (frontKind tokens) = true := by
  cases spelled with
  | last placed => exact placed.opens
  | more placed spelledOthers => exact placed.opens

/-- A statement starts with its keyword or with an expression. -/
theorem Statement.opens (spelled : Statement stmt tokens rest) :
    frontKind tokens = .keyword .letWord ∨ frontKind tokens = .keyword .returnWord ∨
      opensExpression (frontKind tokens) = true := by
  cases spelled with
  | bind placed => exact .inl rfl
  | returns placed => exact .inr (.inl rfl)
  | expression placed => exact .inr (.inr placed.opens)

theorem Statement.frontKind_ne (spelled : Statement stmt tokens rest) {kind : TokenKind}
    (notLet : kind ≠ .keyword .letWord) (notReturn : kind ≠ .keyword .returnWord)
    (other : opensExpression kind = false) : frontKind tokens ≠ kind := by
  rcases spelled.opens with front | front | opens
  · rw [front]
    exact notLet.symm
  · rw [front]
    exact notReturn.symm
  · exact frontKind_ne_of_opens opens other

theorem Statements.frontKind_ne {inBlock : Bool} {others : List Stmt}
    (spelled : Statements inBlock (stmt :: others) tokens rest) {kind : TokenKind}
    (notLet : kind ≠ .keyword .letWord) (notReturn : kind ≠ .keyword .returnWord)
    (other : opensExpression kind = false) : frontKind tokens ≠ kind := by
  cases spelled with
  | terminated spelled spelledOthers => exact spelled.frontKind_ne notLet notReturn other
  | detached spelled detached spelledOthers => exact spelled.frontKind_ne notLet notReturn other

end Spelling

/-- A list of tokens is a spelling of a program. -/
def Program.SpelledBy (program : Program) (tokens : List Token) : Prop :=
  Spelling.Statements false program.statements tokens []

end Scriptlet
