import Mathlib.Algebra.Group.Int.Defs
import Mathlib.Algebra.Group.Nat.Defs
import Scriptlet.Proofs.Evaluate.Sequence

/-!
# Integer arithmetic

What trees of integer literals, negation and the four operations evaluate to.  Each operation is
specified by the exact result, reduced to the signed 64-bit range where it does not fit; a division
by zero anywhere in the tree is the result of the tree.  Reduction can be put off to the end as long
as nothing is divided: a tree without division has its exact value, reduced once.
-/

namespace Scriptlet

/-! ## Numbers of arithmetic -/

/-- The quotient of a division toward zero: the remainder is smaller than the divisor and has the
sign of the dividend, unless it is zero. -/
def IsQuotient (dividend divisor quotient : Int) : Prop :=
  ∃ remainder : Int, dividend = divisor * quotient + remainder ∧
    remainder.natAbs < divisor.natAbs ∧ (remainder = 0 ∨ remainder.sign = dividend.sign)

/-- There is one quotient for each divisor other than zero. -/
theorem isQuotient_iff {a b quotient : Int} (nonzero : b ≠ 0) :
    IsQuotient a b quotient ↔ quotient = a.tdiv b := by
  constructor
  · rintro ⟨remainder, divided, small, signed⟩
    have split : remainder + b * quotient = a := by rw [divided, Int.add_comm]
    rcases Int.le_total 0 a with nonneg | nonpos
    · have remainderNonneg : 0 ≤ remainder := by
        rcases signed with rfl | same
        · exact Int.le_refl 0
        · exact Int.sign_nonneg_iff.1 (same ▸ Int.sign_nonneg_iff.2 nonneg)
      exact ((Int.tdiv_tmod_unique nonneg nonzero).2
        ⟨split, remainderNonneg, by omega⟩).1.symm
    · have remainderNonpos : remainder ≤ 0 := by
        rcases signed with rfl | same
        · exact Int.le_refl 0
        · exact Int.sign_nonpos_iff.1 (same ▸ Int.sign_nonpos_iff.2 nonpos)
      exact ((Int.tdiv_tmod_unique' nonpos nonzero).2
        ⟨split, by omega, remainderNonpos⟩).1.symm
  · rintro rfl
    refine ⟨a.tmod b, (Int.mul_tdiv_add_tmod a b).symm, ?_, ?_⟩
    · rw [Int.natAbs_tmod]
      exact Nat.mod_lt _ (Int.natAbs_pos.2 nonzero)
    · rw [← Int.sign_eq_zero_iff_zero, Int.sign_tmod]
      split
      · exact .inl rfl
      · exact .inr rfl

/-- What an operation makes of two numbers of the signed 64-bit range.  The one quotient outside this
range is that of the lowest number by -1. -/
inductive BinaryOp.Gives : BinaryOp → Int → Int → Int → Prop
  | add (a b : Int) : Gives .add a b ((a + b).bmod (2 ^ 64))
  | subtract (a b : Int) : Gives .subtract a b ((a - b).bmod (2 ^ 64))
  | multiply (a b : Int) : Gives .multiply a b ((a * b).bmod (2 ^ 64))
  | divide {a b quotient : Int} (fits : ¬ (a = -2 ^ 63 ∧ b = -1))
      (divides : IsQuotient a b quotient) : Gives .divide a b quotient
  | divideLowest {a b : Int} (overflows : a = -2 ^ 63 ∧ b = -1) : Gives .divide a b (-2 ^ 63)

/-- Whether an operator is one of the four operations of arithmetic. -/
def BinaryOp.isArithmetic : BinaryOp → Bool
  | add | subtract | multiply | divide => true
  | _ => false

/-! ## Trees of arithmetic -/

namespace Expr

/-- Trees of integer literals of the language, negation and the four operations. -/
inductive IsArithmetic : Expr → Prop
  | literal {numeral : String} (inRange : Text.numeralValue numeral < Text.literalBound) :
      IsArithmetic (.integer numeral)
  | negate {operand : Expr} (arithmetic : operand.IsArithmetic) :
      IsArithmetic (.unary .negate operand)
  | operation {left right : Expr} {op : BinaryOp} (isArithmetic : op.isArithmetic = true)
      (leftArithmetic : left.IsArithmetic) (rightArithmetic : right.IsArithmetic) :
      IsArithmetic (.binary left op right)

/-- The number that a tree of arithmetic comes to, computed from the literals up. -/
inductive Computes : Expr → Int → Prop
  | literal (numeral : String) : Computes (.integer numeral) (Text.numeralValue numeral)
  | negate {operand : Expr} {a : Int} (computes : operand.Computes a) :
      Computes (.unary .negate operand) ((-a).bmod (2 ^ 64))
  | operation {left right : Expr} {op : BinaryOp} {a b result : Int}
      (leftComputes : left.Computes a) (rightComputes : right.Computes b)
      (gives : op.Gives a b result) : Computes (.binary left op right) result

/-- Some division in a tree of arithmetic has a right operand that comes to zero. -/
inductive DividesByZero : Expr → Prop
  | here {left right : Expr} (zero : right.Computes 0) : DividesByZero (.binary left .divide right)
  | negate {operand : Expr} (inOperand : operand.DividesByZero) :
      DividesByZero (.unary .negate operand)
  | left {left right : Expr} {op : BinaryOp} (inLeft : left.DividesByZero) :
      DividesByZero (.binary left op right)
  | right {left right : Expr} {op : BinaryOp} (inRight : right.DividesByZero) :
      DividesByZero (.binary left op right)

/-- Whether there is a division in a tree of arithmetic. -/
def hasDivision : Expr → Bool
  | .unary _ operand => operand.hasDivision
  | .binary left op right => op == .divide || left.hasDivision || right.hasDivision
  | _ => false
  termination_by structural expr => expr

/-- The exact number of a tree of arithmetic without division. -/
def exact : Expr → Int
  | .integer numeral => Text.numeralValue numeral
  | .unary _ operand => -operand.exact
  | .binary left .add right => left.exact + right.exact
  | .binary left .subtract right => left.exact - right.exact
  | .binary left .multiply right => left.exact * right.exact
  | _ => 0
  termination_by structural expr => expr

end Expr

/-! ## Operations on words -/

namespace BinaryOp

/-- The word that a division yields is the quotient, except for the one quotient that does not fit. -/
theorem gives_divide_iff {a b : Int64} (nonzero : b ≠ 0) (result : Int) :
    Gives .divide a.toInt b.toInt result ↔ result = (a / b).toInt := by
  have divisor : b.toInt ≠ 0 := fun zero => nonzero (Int64.toInt_inj.1 zero)
  by_cases overflows : a.toInt = -2 ^ 63 ∧ b.toInt = -1
  · have lowest : (a / b).toInt = -2 ^ 63 := by
      rw [Int64.toInt_div, overflows.1, overflows.2]
      rfl
    rw [lowest]
    constructor
    · intro gives
      cases gives with
      | divide fits _ => exact absurd overflows fits
      | divideLowest _ => rfl
    · rintro rfl
      exact .divideLowest overflows
  · have exact : (a / b).toInt = a.toInt.tdiv b.toInt := by
      rcases Decidable.not_and_iff_or_not.1 overflows with notLowest | notMinusOne
      · apply Int64.toInt_div_of_ne_left
        rintro rfl
        exact notLowest Int64.toInt_minValue
      · apply Int64.toInt_div_of_ne_right
        rintro rfl
        exact notMinusOne rfl
    rw [exact]
    constructor
    · intro gives
      cases gives with
      | divide _ divides => exact (isQuotient_iff divisor).1 divides
      | divideLowest overflow => exact absurd overflow overflows
    · intro quotient
      exact .divide overflows ((isQuotient_iff divisor).2 quotient)

/-- On words, an operation of arithmetic yields the word for the number that it gives, unless it is a
division by zero. -/
theorem applyIntegers_of_isArithmetic {op : BinaryOp} (arithmetic : op.isArithmetic = true)
    {a b : Int64} (defined : ¬ (op = .divide ∧ b = 0)) :
    ∃ word, op.applyIntegers a b = .integer word ∧
      ∀ result, op.Gives a.toInt b.toInt result ↔ result = word.toInt := by
  cases op with
  | add =>
      refine ⟨a + b, rfl, fun result => ?_⟩
      rw [Int64.toInt_add]
      exact ⟨fun gives => by cases gives; rfl, fun same => same ▸ .add _ _⟩
  | subtract =>
      refine ⟨a - b, rfl, fun result => ?_⟩
      rw [Int64.toInt_sub]
      exact ⟨fun gives => by cases gives; rfl, fun same => same ▸ .subtract _ _⟩
  | multiply =>
      refine ⟨a * b, rfl, fun result => ?_⟩
      rw [Int64.toInt_mul]
      exact ⟨fun gives => by cases gives; rfl, fun same => same ▸ .multiply _ _⟩
  | divide =>
      have nonzero : b ≠ 0 := fun zero => defined ⟨rfl, zero⟩
      exact ⟨a / b, if_neg nonzero, gives_divide_iff nonzero⟩
  | less | greater | equal | notEqual => cases arithmetic

end BinaryOp

/-! ## Evaluation -/

namespace Evaluate

variable (library : Library) (apply : Applier) (scope : FrameId)

/-- A tree of arithmetic divides by zero and ends with that error, or it ends with the word for the
one number that it computes. -/
theorem arithmetic_cases {tree : Expr} (arithmetic : tree.IsArithmetic) (store : Store) :
    tree.DividesByZero ∧ expression library apply scope tree store =
        some (RuntimeError.divisionByZero.toValue, store) ∨
      ¬ tree.DividesByZero ∧ ∃ word,
        expression library apply scope tree store = some (.integer word, store) ∧
          ∀ number, tree.Computes number ↔ number = word.toInt := by
  induction arithmetic with
  | @literal numeral inRange =>
      refine .inr ⟨nofun, _, rfl, fun number => ?_⟩
      rw [Int64.toInt_ofNat_of_lt inRange]
      exact ⟨fun computes => by cases computes; rfl, fun same => same ▸ .literal numeral⟩
  | @negate operand _ ih =>
      rcases ih with ⟨divides, ended⟩ | ⟨defined, word, ended, computes⟩
      · exact .inl ⟨.negate divides, Run.andThen_eq_some.2 ⟨_, _, ended, .inl ⟨rfl, rfl, rfl⟩⟩⟩
      · refine .inr ⟨?_, -word, (Run.andThen_of_passed ended rfl).trans rfl, fun number => ?_⟩
        · intro divides
          cases divides with
          | negate inOperand => exact defined inOperand
        · rw [Int64.toInt_neg]
          constructor
          · intro ofTree
            cases ofTree with
            | negate ofOperand => rw [(computes _).1 ofOperand]
          · rintro rfl
            exact .negate ((computes _).2 rfl)
  | @operation left right op isArithmetic _ _ leftIH rightIH =>
      rcases leftIH with ⟨divides, ended⟩ | ⟨leftDefined, a, leftEnded, leftComputes⟩
      · exact .inl ⟨.left divides, Run.andThen_eq_some.2 ⟨_, _, ended, .inl ⟨rfl, rfl, rfl⟩⟩⟩
      rcases rightIH with ⟨divides, ended⟩ | ⟨rightDefined, b, rightEnded, rightComputes⟩
      · refine .inl ⟨.right divides, (Run.andThen_of_passed leftEnded rfl).trans ?_⟩
        exact Run.andThen_eq_some.2 ⟨_, _, ended, .inl ⟨rfl, rfl, rfl⟩⟩
      have applied : expression library apply scope (.binary left op right) store =
          some (op.applyIntegers a b, store) :=
        (Run.andThen_of_passed leftEnded rfl).trans (Run.andThen_of_passed rightEnded rfl)
      rw [applied]
      by_cases byZero : op = .divide ∧ b = 0
      · obtain ⟨rfl, rfl⟩ := byZero
        exact .inl ⟨.here ((rightComputes 0).2 rfl), rfl⟩
      · obtain ⟨word, result, gives⟩ := BinaryOp.applyIntegers_of_isArithmetic isArithmetic byZero
        refine .inr ⟨?_, word, by rw [result], fun number => ?_⟩
        · intro divides
          cases divides with
          | here zero => exact byZero ⟨rfl, Int64.toInt_inj.1 ((rightComputes 0).1 zero).symm⟩
          | left inLeft => exact leftDefined inLeft
          | right inRight => exact rightDefined inRight
        · rw [← gives]
          constructor
          · intro ofTree
            cases ofTree with
            | operation ofLeft ofRight given =>
                rw [(leftComputes _).1 ofLeft, (rightComputes _).1 ofRight] at given
                exact given
          · exact .operation ((leftComputes _).2 rfl) ((rightComputes _).2 rfl)

/-- Without division, words can stand for exact numbers up to the end: reduction respects sums,
differences, products and negation. -/
theorem expression_of_not_hasDivision {tree : Expr} (arithmetic : tree.IsArithmetic)
    (undivided : tree.hasDivision = false) (store : Store) :
    expression library apply scope tree store =
      some (.integer (Int64.ofInt tree.exact), store) := by
  induction arithmetic with
  | literal inRange => rfl
  | @negate operand _ ih =>
      refine (Run.andThen_of_passed (ih undivided) rfl).trans ?_
      rw [Expr.exact, Int64.ofInt_neg]
      rfl
  | @operation left right op isArithmetic _ _ leftIH rightIH =>
      rw [Expr.hasDivision, Bool.or_eq_false_iff, Bool.or_eq_false_iff] at undivided
      obtain ⟨⟨other, leftUndivided⟩, rightUndivided⟩ := undivided
      have applied : expression library apply scope (.binary left op right) store =
          some (op.applyIntegers (Int64.ofInt left.exact) (Int64.ofInt right.exact), store) :=
        (Run.andThen_of_passed (leftIH leftUndivided) rfl).trans
          (Run.andThen_of_passed (rightIH rightUndivided) rfl)
      rw [applied]
      cases op with
      | add => rw [Expr.exact, Int64.ofInt_add]; rfl
      | subtract => rw [Expr.exact, Int64.ofInt_sub]; rfl
      | multiply => rw [Expr.exact, Int64.ofInt_mul]; rfl
      | divide => cases other
      | less | greater | equal | notEqual => cases isArithmetic

/-- A tree of arithmetic with a division by zero anywhere in it has that error as its result; any
other one has the one number that is computed from its literals up.  Without division this number is
the exact value of the tree, reduced to the signed 64-bit range. -/
theorem expression_of_isArithmetic {tree : Expr} (arithmetic : tree.IsArithmetic) (store : Store) :
    (tree.DividesByZero →
      expression library apply scope tree store = some (.error "Division by zero", store)) ∧
    (¬ tree.DividesByZero → ∃ word,
      expression library apply scope tree store = some (.integer word, store) ∧
        ∀ number, tree.Computes number ↔ number = word.toInt) ∧
    (tree.hasDivision = false → ∃ word,
      expression library apply scope tree store = some (.integer word, store) ∧
        word.toInt = tree.exact.bmod (2 ^ 64)) := by
  have outcome := arithmetic_cases library apply scope arithmetic store
  refine ⟨?_, ?_, ?_⟩
  · intro divides
    rcases outcome with ⟨_, ended⟩ | ⟨defined, _⟩
    · exact ended
    · exact absurd divides defined
  · intro defined
    rcases outcome with ⟨divides, _⟩ | ⟨_, computed⟩
    · exact absurd divides defined
    · exact computed
  · intro undivided
    exact ⟨_, expression_of_not_hasDivision library apply scope arithmetic undivided store,
      Int64.toInt_ofInt⟩

/-- The lowest number of the signed 64-bit range, which is no literal. -/
def lowestSample : Expr :=
  .binary (.unary .negate (.integer "9223372036854775807")) .subtract (.integer "1")

/-- The lowest number divided by -1, a divisor that is zero only after reduction, and a product far
out of range. -/
theorem expression_of_isArithmetic_samples :
    (∃ word,
      expression .standard (applyWithin .standard 0) 0
          (.binary lowestSample .divide (.unary .negate (.integer "1"))) .empty =
        some (.integer word, .empty) ∧
      ∀ number, (Expr.binary lowestSample .divide (.unary .negate (.integer "1"))).Computes number ↔
        number = word.toInt) ∧
    expression .standard (applyWithin .standard 0) 0
        (.binary (.integer "1") .divide (.binary lowestSample .add lowestSample)) .empty =
      some (.error "Division by zero", .empty) ∧
    ∃ word,
      expression .standard (applyWithin .standard 0) 0
          (.binary lowestSample .multiply (.integer "9223372036854775807")) .empty =
        some (.integer word, .empty) ∧
      word.toInt = (-2 ^ 63 * (2 ^ 63 - 1) : Int).bmod (2 ^ 64) := by
  have one : (Expr.integer "1").IsArithmetic := .literal (by decide)
  have highest : (Expr.integer "9223372036854775807").IsArithmetic := .literal (by decide)
  have lowest : lowestSample.IsArithmetic := .operation rfl (.negate highest) one
  have quotient := expression_of_isArithmetic .standard (applyWithin .standard 0) 0
    (@Expr.IsArithmetic.operation _ _ .divide rfl lowest (.negate one)) .empty
  have twice : (Expr.binary lowestSample .add lowestSample).IsArithmetic :=
    .operation rfl lowest lowest
  have byZero := expression_of_isArithmetic .standard (applyWithin .standard 0) 0
    (@Expr.IsArithmetic.operation _ _ .divide rfl one twice) .empty
  have product := expression_of_isArithmetic .standard (applyWithin .standard 0) 0
    (@Expr.IsArithmetic.operation _ _ .multiply rfl lowest highest) .empty
  refine ⟨quotient.2.1 ?_, byZero.1 ?_, product.2.2 rfl⟩
  · intro divides
    cases quotient.1 divides
  · apply Classical.byContradiction
    intro defined
    obtain ⟨word, ended, _⟩ := byZero.2.1 defined
    cases ended

end Evaluate

end Scriptlet
