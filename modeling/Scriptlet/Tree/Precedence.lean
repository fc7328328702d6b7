import Scriptlet.Tree

/-!
# Precedence

How strongly a token binds the expression on its left. Tokens that continue no expression bind
with the lowest strength.
-/

namespace Scriptlet

/-- Binding strengths, weakest first. -/
inductive Precedence where
  | lowest
  | equality
  | comparison
  | sum
  | product
  | operand
  | call
  | index
  deriving DecidableEq, Repr

namespace Precedence

/-- The place of a strength in the order. -/
def rank : Precedence → Nat
  | lowest => 0
  | equality => 1
  | comparison => 2
  | sum => 3
  | product => 4
  | operand => 5
  | call => 6
  | index => 7

instance : LT Precedence := ⟨fun weaker stronger => weaker.rank < stronger.rank⟩

instance (weaker stronger : Precedence) : Decidable (weaker < stronger) :=
  inferInstanceAs (Decidable (weaker.rank < stronger.rank))

theorem lt_iff_rank_lt {weaker stronger : Precedence} :
    weaker < stronger ↔ weaker.rank < stronger.rank := Iff.rfl

/-- The strength with which a symbol binds the expression on its left. -/
def ofSymbol : Symbol → Precedence
  | .equal | .notEqual => equality
  | .less | .greater => comparison
  | .plus | .minus => sum
  | .asterisk | .slash => product
  | .leftParen => call
  | .leftBracket => index
  | _ => lowest

/-- The strength with which a token of a kind binds the expression on its left. -/
def ofKind : TokenKind → Precedence
  | .symbol mark => ofSymbol mark
  | _ => lowest

end Precedence

/-- The strength of a binary operator. -/
def BinaryOp.precedence (op : BinaryOp) : Precedence := Precedence.ofSymbol op.symbol

end Scriptlet
