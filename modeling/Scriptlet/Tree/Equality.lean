import Scriptlet.Tree

/-!
# Equality of trees

A decision procedure for equality of expressions, statements and programs, spellings of integer
literals included. The comparison is written out by hand, and two lemmas say that it is equality.
-/

namespace Scriptlet

mutual

/-- Whether two expressions are the same tree. -/
def Expr.same : Expr → Expr → Bool
  | .identifier name, .identifier other => name == other
  | .integer numeral, .integer other => numeral == other
  | .boolean value, .boolean other => value == other
  | .string text, .string other => text == other
  | .array elements, .array others => Expr.sameAll elements others
  | .dictionary pairs, .dictionary others => Expr.samePairs pairs others
  | .unary op operand, .unary op' operand' => op == op' && operand.same operand'
  | .binary left op right, .binary left' op' right' =>
      left.same left' && op == op' && right.same right'
  | .conditional condition consequence none, .conditional condition' consequence' none =>
      condition.same condition' && Block.same consequence consequence'
  | .conditional condition consequence (some alternative),
      .conditional condition' consequence' (some alternative') =>
      condition.same condition' && Block.same consequence consequence' &&
        Block.same alternative alternative'
  | .function parameters body, .function parameters' body' =>
      parameters == parameters' && Block.same body body'
  | .call callee arguments, .call callee' arguments' =>
      callee.same callee' && Expr.sameAll arguments arguments'
  | .index collection position, .index collection' position' =>
      collection.same collection' && position.same position'
  | _, _ => false
  termination_by structural tree => tree

/-- Whether two lists hold the same expressions in the same order. -/
def Expr.sameAll : List Expr → List Expr → Bool
  | [], [] => true
  | expr :: rest, other :: others => expr.same other && Expr.sameAll rest others
  | _, _ => false
  termination_by structural tree => tree

/-- Whether two lists hold the same pairs in the same order. -/
def Expr.samePairs : List (Expr × Expr) → List (Expr × Expr) → Bool
  | [], [] => true
  | (key, value) :: rest, (key', value') :: others =>
      key.same key' && value.same value' && Expr.samePairs rest others
  | _, _ => false
  termination_by structural tree => tree

/-- Whether two statements are the same tree. -/
def Stmt.same : Stmt → Stmt → Bool
  | .bind name value, .bind name' value' => name == name' && value.same value'
  | .returns value, .returns value' => value.same value'
  | .expression value, .expression value' => value.same value'
  | _, _ => false
  termination_by structural tree => tree

/-- Whether two blocks hold the same statements in the same order. -/
def Block.same : List Stmt → List Stmt → Bool
  | [], [] => true
  | stmt :: rest, stmt' :: rest' => stmt.same stmt' && Block.same rest rest'
  | _, _ => false
  termination_by structural tree => tree

end

mutual

/-- Trees that pass the comparison are equal. -/
theorem Expr.eq_of_same : ∀ {expr other : Expr}, expr.same other = true → expr = other
  | .identifier _, other, equal => by cases other <;> simp_all [Expr.same]
  | .integer _, other, equal => by cases other <;> simp_all [Expr.same]
  | .boolean _, other, equal => by cases other <;> simp_all [Expr.same]
  | .string _, other, equal => by cases other <;> simp_all [Expr.same]
  | .array elements, other, equal => by
      cases other <;> simp only [Expr.same, Bool.false_eq_true] at equal
      rw [Expr.eq_of_sameAll equal]
  | .dictionary pairs, other, equal => by
      cases other <;> simp only [Expr.same, Bool.false_eq_true] at equal
      rw [Expr.eq_of_samePairs equal]
  | .unary op operand, other, equal => by
      cases other <;>
        simp only [Expr.same, Bool.and_eq_true, beq_iff_eq, Bool.false_eq_true] at equal
      rw [equal.1, Expr.eq_of_same equal.2]
  | .binary left op right, other, equal => by
      cases other <;>
        simp only [Expr.same, Bool.and_eq_true, beq_iff_eq, Bool.false_eq_true] at equal
      rw [Expr.eq_of_same equal.1.1, equal.1.2, Expr.eq_of_same equal.2]
  | .conditional condition consequence none, other, equal => by
      cases other with
      | conditional _ _ alternative =>
          cases alternative <;> simp only [Expr.same, Bool.and_eq_true, Bool.false_eq_true] at equal
          rw [Expr.eq_of_same equal.1, Block.eq_of_same equal.2]
      | _ => simp [Expr.same] at equal
  | .conditional condition consequence (some block), other, equal => by
      cases other with
      | conditional _ _ alternative =>
          cases alternative <;> simp only [Expr.same, Bool.and_eq_true, Bool.false_eq_true] at equal
          rw [Expr.eq_of_same equal.1.1, Block.eq_of_same equal.1.2, Block.eq_of_same equal.2]
      | _ => simp [Expr.same] at equal
  | .function parameters body, other, equal => by
      cases other <;>
        simp only [Expr.same, Bool.and_eq_true, beq_iff_eq, Bool.false_eq_true] at equal
      rw [equal.1, Block.eq_of_same equal.2]
  | .call callee arguments, other, equal => by
      cases other <;> simp only [Expr.same, Bool.and_eq_true, Bool.false_eq_true] at equal
      rw [Expr.eq_of_same equal.1, Expr.eq_of_sameAll equal.2]
  | .index collection position, other, equal => by
      cases other <;> simp only [Expr.same, Bool.and_eq_true, Bool.false_eq_true] at equal
      rw [Expr.eq_of_same equal.1, Expr.eq_of_same equal.2]

/-- Lists of expressions that pass the comparison are equal. -/
theorem Expr.eq_of_sameAll : ∀ {exprs others : List Expr},
    Expr.sameAll exprs others = true → exprs = others
  | [], others, equal => by cases others <;> simp_all [Expr.sameAll]
  | expr :: rest, others, equal => by
      cases others <;> simp only [Expr.sameAll, Bool.and_eq_true, Bool.false_eq_true] at equal
      rw [Expr.eq_of_same equal.1, Expr.eq_of_sameAll equal.2]

/-- Lists of pairs that pass the comparison are equal. -/
theorem Expr.eq_of_samePairs : ∀ {pairs others : List (Expr × Expr)},
    Expr.samePairs pairs others = true → pairs = others
  | [], others, equal => by cases others <;> simp_all [Expr.samePairs]
  | (key, value) :: rest, others, equal => by
      cases others <;> simp only [Expr.samePairs, Bool.and_eq_true, Bool.false_eq_true] at equal
      rw [Expr.eq_of_same equal.1.1, Expr.eq_of_same equal.1.2, Expr.eq_of_samePairs equal.2]

/-- Statements that pass the comparison are equal. -/
theorem Stmt.eq_of_same : ∀ {stmt other : Stmt}, stmt.same other = true → stmt = other
  | .bind _ value, other, equal => by
      cases other <;>
        simp only [Stmt.same, Bool.and_eq_true, beq_iff_eq, Bool.false_eq_true] at equal
      rw [equal.1, Expr.eq_of_same equal.2]
  | .returns value, other, equal => by
      cases other <;> simp only [Stmt.same, Bool.false_eq_true] at equal
      rw [Expr.eq_of_same equal]
  | .expression value, other, equal => by
      cases other <;> simp only [Stmt.same, Bool.false_eq_true] at equal
      rw [Expr.eq_of_same equal]

/-- Blocks that pass the comparison are equal. -/
theorem Block.eq_of_same : ∀ {block other : List Stmt},
    Block.same block other = true → block = other
  | [], others, equal => by cases others <;> simp_all [Block.same]
  | stmt :: rest, others, equal => by
      cases others <;> simp only [Block.same, Bool.and_eq_true, Bool.false_eq_true] at equal
      rw [Stmt.eq_of_same equal.1, Block.eq_of_same equal.2]

end
mutual

/-- A tree passes the comparison with itself. -/
theorem Expr.same_self : ∀ expr : Expr, expr.same expr = true
  | .identifier _ => by simp [Expr.same]
  | .integer _ => by simp [Expr.same]
  | .boolean _ => by simp [Expr.same]
  | .string _ => by simp [Expr.same]
  | .array elements => by simp [Expr.same, Expr.sameAll_self elements]
  | .dictionary pairs => by simp [Expr.same, Expr.samePairs_self pairs]
  | .unary _ operand => by simp [Expr.same, Expr.same_self operand]
  | .binary left _ right => by simp [Expr.same, Expr.same_self left, Expr.same_self right]
  | .conditional condition consequence none => by
      simp [Expr.same, Expr.same_self condition, Block.same_self consequence]
  | .conditional condition consequence (some alternative) => by
      simp [Expr.same, Expr.same_self condition, Block.same_self consequence,
        Block.same_self alternative]
  | .function _ body => by simp [Expr.same, Block.same_self body]
  | .call callee arguments => by
      simp [Expr.same, Expr.same_self callee, Expr.sameAll_self arguments]
  | .index collection position => by
      simp [Expr.same, Expr.same_self collection, Expr.same_self position]

/-- A list of expressions passes the comparison with itself. -/
theorem Expr.sameAll_self : ∀ exprs : List Expr, Expr.sameAll exprs exprs = true
  | [] => rfl
  | expr :: rest => by simp [Expr.sameAll, Expr.same_self expr, Expr.sameAll_self rest]

/-- A list of pairs passes the comparison with itself. -/
theorem Expr.samePairs_self : ∀ pairs : List (Expr × Expr), Expr.samePairs pairs pairs = true
  | [] => rfl
  | (key, value) :: rest => by
      simp [Expr.samePairs, Expr.same_self key, Expr.same_self value, Expr.samePairs_self rest]

/-- A statement passes the comparison with itself. -/
theorem Stmt.same_self : ∀ stmt : Stmt, stmt.same stmt = true
  | .bind _ value => by simp [Stmt.same, Expr.same_self value]
  | .returns value => by simp [Stmt.same, Expr.same_self value]
  | .expression value => by simp [Stmt.same, Expr.same_self value]

/-- A block passes the comparison with itself. -/
theorem Block.same_self : ∀ block : List Stmt, Block.same block block = true
  | [] => rfl
  | stmt :: rest => by simp [Block.same, Stmt.same_self stmt, Block.same_self rest]

end

instance : DecidableEq Expr := fun expr other =>
  decidable_of_iff (expr.same other = true)
    ⟨Expr.eq_of_same, fun equal => equal ▸ Expr.same_self expr⟩

instance : DecidableEq Stmt := fun stmt other =>
  decidable_of_iff (stmt.same other = true)
    ⟨Stmt.eq_of_same, fun equal => equal ▸ Stmt.same_self stmt⟩

deriving instance DecidableEq for Program

end Scriptlet
