import Scriptlet.Proofs.Parse.Completeness

/-!
# Programs written with the least parentheses

One spelling of each tree: an expression stands in parentheses only where its place does not admit
it bare, every block has its braces and every statement its semicolon.  Written out with separators
between the tokens, a program whose names, numerals and strings are those of the language is read
back as it was.
-/

namespace Scriptlet

/-! ## Writing -/

/-- Writes an expression at a place in front of the rest, given how it is written bare. -/
def Slot.enclose (slot : Slot) (expr : Expr) (bare : List Token → List Token)
    (rest : List Token) : List Token :=
  if slot.admits expr then bare rest
  else .symbol .leftParen :: bare (.symbol .rightParen :: rest)

/-- Writes names with commas between them. -/
def writeNames : List String → List Token → List Token
  | [], rest => rest
  | [name], rest => .identifier name :: rest
  | name :: next :: others, rest =>
      .identifier name :: .symbol .comma :: writeNames (next :: others) rest

mutual

/-- Writes an expression in front of the rest, without parentheses around it. -/
def Expr.write : Expr → List Token → List Token
  | .identifier name, rest => .identifier name :: rest
  | .integer numeral, rest => .integer numeral :: rest
  | .boolean true, rest => .keyword .trueWord :: rest
  | .boolean false, rest => .keyword .falseWord :: rest
  | .string text, rest => .string text :: rest
  | .array elements, rest =>
      .symbol .leftBracket :: Expr.writeAll elements (.symbol .rightBracket :: rest)
  | .dictionary pairs, rest =>
      .symbol .leftBrace :: Expr.writePairs pairs (.symbol .rightBrace :: rest)
  | .unary op operand, rest => .symbol op.symbol :: Slot.operand.enclose operand operand.write rest
  | .binary left op right, rest =>
      (Slot.leftOf op).enclose left left.write
        (.symbol op.symbol :: (Slot.rightOf op).enclose right right.write rest)
  | .conditional condition consequence none, rest =>
      .keyword .ifWord :: .symbol .leftParen ::
        condition.write (.symbol .rightParen :: .symbol .leftBrace :: Block.write consequence rest)
  | .conditional condition consequence (some alternative), rest =>
      .keyword .ifWord :: .symbol .leftParen ::
        condition.write (.symbol .rightParen :: .symbol .leftBrace ::
          Block.write consequence (.keyword .elseWord :: .symbol .leftBrace ::
            Block.write alternative rest))
  | .function parameters body, rest =>
      .keyword .functionWord :: .symbol .leftParen ::
        writeNames parameters (.symbol .rightParen :: .symbol .leftBrace :: Block.write body rest)
  | .call callee arguments, rest =>
      Slot.head.enclose callee callee.write
        (.symbol .leftParen :: Expr.writeAll arguments (.symbol .rightParen :: rest))
  | .index collection position, rest =>
      Slot.head.enclose collection collection.write
        (.symbol .leftBracket :: position.write (.symbol .rightBracket :: rest))

/-- Writes expressions with commas between them. -/
def Expr.writeAll : List Expr → List Token → List Token
  | [], rest => rest
  | [expr], rest => expr.write rest
  | expr :: next :: others, rest =>
      expr.write (.symbol .comma :: Expr.writeAll (next :: others) rest)

/-- Writes the pairs of a dictionary with commas between them. -/
def Expr.writePairs : List (Expr × Expr) → List Token → List Token
  | [], rest => rest
  | [(key, value)], rest => key.write (.symbol .colon :: value.write rest)
  | (key, value) :: next :: others, rest =>
      key.write (.symbol .colon ::
        value.write (.symbol .comma :: Expr.writePairs (next :: others) rest))

/-- Writes a statement with its semicolon. -/
def Stmt.write : Stmt → List Token → List Token
  | .bind name value, rest =>
      .keyword .letWord :: .identifier name :: .symbol .assign ::
        value.write (.symbol .semicolon :: rest)
  | .returns value, rest => .keyword .returnWord :: value.write (.symbol .semicolon :: rest)
  | .expression value, rest => value.write (.symbol .semicolon :: rest)

/-- Writes the statements of a block, after its opening brace, and the closing brace. -/
def Block.write : List Stmt → List Token → List Token
  | [], rest => .symbol .rightBrace :: rest
  | stmt :: others, rest => stmt.write (Block.write others rest)

end

/-- The tokens of a program written with the least parentheses. -/
def Program.tokens (program : Program) : List Token := program.statements.foldr Stmt.write []

/-! ## Programs of the language -/

mutual

/-- Whether all names, numerals and strings of an expression can be written: names are not reserved,
numerals are small enough for a literal, and strings have no quote in them. -/
def Expr.isWritable : Expr → Bool
  | .identifier name => Token.isName name
  | .integer numeral =>
      Token.isNumeral numeral && decide (Text.numeralValue numeral < Text.literalBound)
  | .boolean _ => true
  | .string text => text.toList.all Token.isStringChar
  | .array elements => Expr.allWritable elements
  | .dictionary pairs => Expr.pairsWritable pairs
  | .unary _ operand => operand.isWritable
  | .binary left _ right => left.isWritable && right.isWritable
  | .conditional condition consequence none =>
      condition.isWritable && Block.isWritable consequence
  | .conditional condition consequence (some alternative) =>
      condition.isWritable && Block.isWritable consequence && Block.isWritable alternative
  | .function parameters body => parameters.all Token.isName && Block.isWritable body
  | .call callee arguments => callee.isWritable && Expr.allWritable arguments
  | .index collection position => collection.isWritable && position.isWritable

/-- Whether several expressions can be written. -/
def Expr.allWritable : List Expr → Bool
  | [] => true
  | expr :: others => expr.isWritable && Expr.allWritable others

/-- Whether the pairs of a dictionary can be written. -/
def Expr.pairsWritable : List (Expr × Expr) → Bool
  | [] => true
  | (key, value) :: others => key.isWritable && value.isWritable && Expr.pairsWritable others

/-- Whether a statement can be written. -/
def Stmt.isWritable : Stmt → Bool
  | .bind name value => Token.isName name && value.isWritable
  | .returns value => value.isWritable
  | .expression value => value.isWritable

/-- Whether the statements of a block can be written. -/
def Block.isWritable : List Stmt → Bool
  | [] => true
  | stmt :: others => stmt.isWritable && Block.isWritable others

end

/-- Whether a program can be written. -/
def Program.isWritable (program : Program) : Bool := Block.isWritable program.statements

/-! ## What is written is a spelling -/

section Spelled

open Reader (frontKind)
open Spelling

theorem parameters_writeNames (names : List String) (rest : List Token) :
    Parameters names (writeNames names (.symbol .rightParen :: rest)) rest := by
  induction names with
  | nil => exact .none
  | cons name others ih =>
      cases others with
      | nil => exact .last
      | cons next others => exact .more ih

theorem placed_enclose (slot : Slot) {expr : Expr} {rest : List Token}
    (bare : ∀ rest, frontKind rest ≠ .keyword .elseWord → Bare expr (expr.write rest) rest)
    (noElse : frontKind rest ≠ .keyword .elseWord) :
    Placed slot expr (slot.enclose expr expr.write rest) rest := by
  unfold Slot.enclose
  split
  · next admitted => exact .bare admitted (bare rest noElse)
  · exact .grouped (.bare rfl (bare _ nofun))

mutual

theorem Expr.bare_write : (expr : Expr) → expr.isWritable = true → (rest : List Token) →
    frontKind rest ≠ .keyword .elseWord → Bare expr (expr.write rest) rest
  | .identifier name, _, rest, _ => .identifier
  | .integer numeral, writable, rest, _ => by
      rw [Expr.isWritable, Bool.and_eq_true, decide_eq_true_eq] at writable
      exact .integer writable.2
  | .boolean true, _, rest, _ => .truth
  | .boolean false, _, rest, _ => .falsity
  | .string text, _, rest, _ => .string
  | .array elements, writable, rest, _ => .array (Expr.elements_writeAll elements writable _ rest)
  | .dictionary pairs, writable, rest, _ => .dictionary (Expr.pairs_writePairs pairs writable rest)
  | .unary op operand, writable, rest, noElse =>
      .unary (placed_enclose .operand (operand.bare_write writable) noElse)
  | .binary left op right, writable, rest, noElse => by
      rw [Expr.isWritable, Bool.and_eq_true] at writable
      have spelledRight := placed_enclose (.rightOf op) (right.bare_write writable.2) noElse
      exact .binary (placed_enclose (.leftOf op) (left.bare_write writable.1) nofun) spelledRight
  | .conditional condition consequence none, writable, rest, noElse => by
      rw [Expr.isWritable, Bool.and_eq_true] at writable
      have spelledCondition := condition.bare_write writable.1
      exact .conditional (.bare rfl (spelledCondition _ nofun))
        (Block.statements_write consequence writable.2 rest) noElse
  | .conditional condition consequence (some alternative), writable, rest, noElse => by
      rw [Expr.isWritable, Bool.and_eq_true, Bool.and_eq_true] at writable
      obtain ⟨⟨conditionWritable, consequenceWritable⟩, alternativeWritable⟩ := writable
      have spelledCondition := condition.bare_write conditionWritable
      exact .alternative (.bare rfl (spelledCondition _ nofun))
        (Block.statements_write consequence consequenceWritable _)
        (Block.statements_write alternative alternativeWritable rest)
  | .function parameters body, writable, rest, _ => by
      rw [Expr.isWritable, Bool.and_eq_true] at writable
      exact .function (parameters_writeNames parameters _)
        (Block.statements_write body writable.2 rest)
  | .call callee arguments, writable, rest, _ => by
      rw [Expr.isWritable, Bool.and_eq_true] at writable
      exact .call (placed_enclose .head (callee.bare_write writable.1) nofun)
        (Expr.elements_writeAll arguments writable.2 _ rest)
  | .index collection position, writable, rest, _ => by
      rw [Expr.isWritable, Bool.and_eq_true] at writable
      exact .index (placed_enclose .head (collection.bare_write writable.1) nofun)
        (.bare rfl (position.bare_write writable.2 _ nofun))

theorem Expr.elements_writeAll : (exprs : List Expr) → Expr.allWritable exprs = true →
    (close : Symbol) → (rest : List Token) →
      Elements close exprs (Expr.writeAll exprs (.symbol close :: rest)) rest
  | [], _, close, rest => .none
  | [expr], writable, close, rest => by
      rw [Expr.allWritable, Bool.and_eq_true] at writable
      exact .last (.bare rfl (expr.bare_write writable.1 _ nofun))
  | expr :: next :: others, writable, close, rest => by
      rw [Expr.allWritable, Bool.and_eq_true] at writable
      exact .more (.bare rfl (expr.bare_write writable.1 _ nofun))
        (Expr.elements_writeAll (next :: others) writable.2 close rest)

theorem Expr.pairs_writePairs : (pairs : List (Expr × Expr)) → Expr.pairsWritable pairs = true →
    (rest : List Token) → Pairs pairs (Expr.writePairs pairs (.symbol .rightBrace :: rest)) rest
  | [], _, rest => .none
  | [(key, value)], writable, rest => by
      rw [Expr.pairsWritable, Bool.and_eq_true, Bool.and_eq_true] at writable
      exact .last (.bare rfl (key.bare_write writable.1.1 _ nofun))
        (.bare rfl (value.bare_write writable.1.2 _ nofun))
  | (key, value) :: next :: others, writable, rest => by
      rw [Expr.pairsWritable, Bool.and_eq_true, Bool.and_eq_true] at writable
      exact .more (.bare rfl (key.bare_write writable.1.1 _ nofun))
        (.bare rfl (value.bare_write writable.1.2 _ nofun))
        (Expr.pairs_writePairs (next :: others) writable.2 rest)

theorem Stmt.statement_write : (stmt : Stmt) → stmt.isWritable = true → (rest : List Token) →
    Statement stmt (stmt.write rest) (.symbol .semicolon :: rest)
  | .bind name value, writable, rest => by
      rw [Stmt.isWritable, Bool.and_eq_true] at writable
      exact .bind (.bare rfl (value.bare_write writable.2 _ nofun))
  | .returns value, writable, rest => .returns (.bare rfl (value.bare_write writable _ nofun))
  | .expression value, writable, rest => .expression (.bare rfl (value.bare_write writable _ nofun))

theorem Block.statements_write : (stmts : List Stmt) → Block.isWritable stmts = true →
    (rest : List Token) → Statements true stmts (Block.write stmts rest) rest
  | [], _, rest => .closed
  | stmt :: others, writable, rest => by
      rw [Block.isWritable, Bool.and_eq_true] at writable
      exact .terminated (stmt.statement_write writable.1 _)
        (Block.statements_write others writable.2 rest)

end

theorem Program.spelledBy_tokens {program : Program} (writable : program.isWritable = true) :
    program.SpelledBy program.tokens := by
  obtain ⟨stmts⟩ := program
  change Statements false stmts (stmts.foldr Stmt.write []) []
  induction stmts with
  | nil => exact .finished
  | cons stmt others ih =>
      have writable : (stmt.isWritable && Block.isWritable others) = true := writable
      rw [Bool.and_eq_true] at writable
      exact .terminated (stmt.statement_write writable.1 _) (ih writable.2)

end Spelled

/-! ## What is written can be scanned -/

/-- Tokens that a text can show. -/
abbrev Scannable (tokens : List Token) : Prop := tokens.all Token.isWellFormed = true

section Scanned

variable {rest : List Token}

theorem Scannable.cons {token : Token} (wellFormed : token.isWellFormed = true)
    (scannable : Scannable rest) : Scannable (token :: rest) := by
  unfold Scannable
  rw [List.all_cons, wellFormed, Bool.true_and]
  exact scannable

theorem Scannable.symbol (mark : Symbol) (scannable : Scannable rest) :
    Scannable (.symbol mark :: rest) := .cons rfl scannable

theorem Scannable.keyword (word : Keyword) (scannable : Scannable rest) :
    Scannable (.keyword word :: rest) := .cons rfl scannable

theorem scannable_writeNames {names : List String} (areNames : names.all Token.isName = true)
    (scannable : Scannable rest) : Scannable (writeNames names rest) := by
  induction names with
  | nil => exact scannable
  | cons name others ih =>
      rw [List.all_cons, Bool.and_eq_true] at areNames
      cases others with
      | nil => exact .cons areNames.1 scannable
      | cons next others => exact .cons areNames.1 (.symbol .comma (ih areNames.2))

theorem scannable_enclose (slot : Slot) {expr : Expr}
    (bare : ∀ {rest}, Scannable rest → Scannable (expr.write rest)) (scannable : Scannable rest) :
    Scannable (slot.enclose expr expr.write rest) := by
  unfold Slot.enclose
  split
  · exact bare scannable
  · exact .symbol .leftParen (bare (.symbol .rightParen scannable))

mutual

theorem Expr.scannable_write : (expr : Expr) → expr.isWritable = true → {rest : List Token} →
    Scannable rest → Scannable (expr.write rest)
  | .identifier name, writable, rest, scannable => .cons writable scannable
  | .integer numeral, writable, rest, scannable => by
      rw [Expr.isWritable, Bool.and_eq_true] at writable
      exact .cons writable.1 scannable
  | .boolean true, _, rest, scannable => .keyword .trueWord scannable
  | .boolean false, _, rest, scannable => .keyword .falseWord scannable
  | .string text, writable, rest, scannable => .cons writable scannable
  | .array elements, writable, rest, scannable =>
      .symbol .leftBracket
        (Expr.scannable_writeAll elements writable (.symbol .rightBracket scannable))
  | .dictionary pairs, writable, rest, scannable =>
      .symbol .leftBrace (Expr.scannable_writePairs pairs writable (.symbol .rightBrace scannable))
  | .unary op operand, writable, rest, scannable =>
      .symbol op.symbol (scannable_enclose .operand (operand.scannable_write writable) scannable)
  | .binary left op right, writable, rest, scannable => by
      rw [Expr.isWritable, Bool.and_eq_true] at writable
      have scannableRight :=
        scannable_enclose (.rightOf op) (right.scannable_write writable.2) scannable
      exact scannable_enclose (.leftOf op) (left.scannable_write writable.1)
        (.symbol op.symbol scannableRight)
  | .conditional condition consequence none, writable, rest, scannable => by
      rw [Expr.isWritable, Bool.and_eq_true] at writable
      have scannableBlock := Block.scannable_write consequence writable.2 scannable
      exact .keyword .ifWord (.symbol .leftParen (condition.scannable_write writable.1
        (.symbol .rightParen (.symbol .leftBrace scannableBlock))))
  | .conditional condition consequence (some alternative), writable, rest, scannable => by
      rw [Expr.isWritable, Bool.and_eq_true, Bool.and_eq_true] at writable
      obtain ⟨⟨conditionWritable, consequenceWritable⟩, alternativeWritable⟩ := writable
      have scannableElse := Block.scannable_write alternative alternativeWritable scannable
      have scannableBlock := Block.scannable_write consequence consequenceWritable
        (.keyword .elseWord (.symbol .leftBrace scannableElse))
      exact .keyword .ifWord (.symbol .leftParen (condition.scannable_write conditionWritable
        (.symbol .rightParen (.symbol .leftBrace scannableBlock))))
  | .function parameters body, writable, rest, scannable => by
      rw [Expr.isWritable, Bool.and_eq_true] at writable
      have scannableBlock := Block.scannable_write body writable.2 scannable
      exact .keyword .functionWord (.symbol .leftParen (scannable_writeNames writable.1
        (.symbol .rightParen (.symbol .leftBrace scannableBlock))))
  | .call callee arguments, writable, rest, scannable => by
      rw [Expr.isWritable, Bool.and_eq_true] at writable
      have scannableArguments :=
        Expr.scannable_writeAll arguments writable.2 (.symbol .rightParen scannable)
      exact scannable_enclose .head (callee.scannable_write writable.1)
        (.symbol .leftParen scannableArguments)
  | .index collection position, writable, rest, scannable => by
      rw [Expr.isWritable, Bool.and_eq_true] at writable
      have scannablePosition :=
        position.scannable_write writable.2 (.symbol .rightBracket scannable)
      exact scannable_enclose .head (collection.scannable_write writable.1)
        (.symbol .leftBracket scannablePosition)

theorem Expr.scannable_writeAll : (exprs : List Expr) → Expr.allWritable exprs = true →
    {rest : List Token} → Scannable rest → Scannable (Expr.writeAll exprs rest)
  | [], _, rest, scannable => scannable
  | [expr], writable, rest, scannable => by
      rw [Expr.allWritable, Bool.and_eq_true] at writable
      exact expr.scannable_write writable.1 scannable
  | expr :: next :: others, writable, rest, scannable => by
      rw [Expr.allWritable, Bool.and_eq_true] at writable
      exact expr.scannable_write writable.1
        (.symbol .comma (Expr.scannable_writeAll (next :: others) writable.2 scannable))

theorem Expr.scannable_writePairs : (pairs : List (Expr × Expr)) →
    Expr.pairsWritable pairs = true → {rest : List Token} → Scannable rest →
      Scannable (Expr.writePairs pairs rest)
  | [], _, rest, scannable => scannable
  | [(key, value)], writable, rest, scannable => by
      rw [Expr.pairsWritable, Bool.and_eq_true, Bool.and_eq_true] at writable
      exact key.scannable_write writable.1.1
        (.symbol .colon (value.scannable_write writable.1.2 scannable))
  | (key, value) :: next :: others, writable, rest, scannable => by
      rw [Expr.pairsWritable, Bool.and_eq_true, Bool.and_eq_true] at writable
      have scannableOthers := Expr.scannable_writePairs (next :: others) writable.2 scannable
      exact key.scannable_write writable.1.1
        (.symbol .colon (value.scannable_write writable.1.2 (.symbol .comma scannableOthers)))

theorem Stmt.scannable_write : (stmt : Stmt) → stmt.isWritable = true → {rest : List Token} →
    Scannable rest → Scannable (stmt.write rest)
  | .bind name value, writable, rest, scannable => by
      rw [Stmt.isWritable, Bool.and_eq_true] at writable
      have scannableValue := value.scannable_write writable.2 (.symbol .semicolon scannable)
      exact .keyword .letWord (.cons writable.1 (.symbol .assign scannableValue))
  | .returns value, writable, rest, scannable =>
      .keyword .returnWord (value.scannable_write writable (.symbol .semicolon scannable))
  | .expression value, writable, rest, scannable =>
      value.scannable_write writable (.symbol .semicolon scannable)

theorem Block.scannable_write : (stmts : List Stmt) → Block.isWritable stmts = true →
    {rest : List Token} → Scannable rest → Scannable (Block.write stmts rest)
  | [], _, rest, scannable => .symbol .rightBrace scannable
  | stmt :: others, writable, rest, scannable => by
      rw [Block.isWritable, Bool.and_eq_true] at writable
      exact stmt.scannable_write writable.1 (Block.scannable_write others writable.2 scannable)

end

theorem Program.scannable_tokens {program : Program} (writable : program.isWritable = true) :
    Scannable program.tokens := by
  obtain ⟨stmts⟩ := program
  change Scannable (stmts.foldr Stmt.write [])
  induction stmts with
  | nil => rfl
  | cons stmt others ih =>
      have writable : (stmt.isWritable && Block.isWritable others) = true := writable
      rw [Bool.and_eq_true] at writable
      exact stmt.scannable_write writable.1 (ih writable.2)

end Scanned

/-! ## Reading back -/

theorem Program.tokens_eq_cons {program : Program} (writable : program.isWritable = true)
    (nonempty : program.statements ≠ []) :
    ∃ token others, program.tokens = token :: others ∧ token.kind ≠ .illegal := by
  have spelled : Spelling.Statements false program.statements program.tokens [] :=
    Program.spelledBy_tokens writable
  cases listed : program.statements with
  | nil => exact absurd listed nonempty
  | cons stmt stmts =>
      rw [listed] at spelled
      have notEnd : Reader.frontKind program.tokens ≠ .endOfInput :=
        spelled.frontKind_ne nofun nofun rfl
      have legal : Reader.frontKind program.tokens ≠ .illegal :=
        spelled.frontKind_ne nofun nofun rfl
      cases written : program.tokens with
      | nil =>
          rw [written] at notEnd
          exact absurd rfl notEnd
      | cons token others =>
          rw [written] at legal
          exact ⟨token, others, rfl, legal⟩

/-- A program that is written with the least parentheses and with separators between its tokens is
read back without an error. -/
theorem parse_of_spaced {program : Program} {source : String}
    (nonempty : program.statements ≠ []) (writable : program.isWritable = true)
    (spaced : Token.Spaced program.tokens source.toList) :
    parse source = .ok ⟨program, []⟩ := by
  have scanned : Token.ofSource source = .ok program.tokens := by
    obtain ⟨token, others, written, legal⟩ := Program.tokens_eq_cons writable nonempty
    have scannable := Program.scannable_tokens writable
    rw [written] at spaced scannable ⊢
    exact Token.ofSource_of_laid spaced.laid scannable legal
  unfold parse
  rw [scanned]
  exact congrArg Except.ok (parseTokens_of_spelledBy (Program.spelledBy_tokens writable))

/-- A program in which each sort of place needs parentheses once. -/
def Program.sample : Program := ⟨[
  .bind "f" (.function ["x"] [
    .expression (.conditional (.unary .not (.identifier "x")) []
      (some [.returns (.unary .negate (.binary (.integer "01") .add (.identifier "x")))]))]),
  .expression (.binary
    (.binary (.integer "1") .subtract (.binary (.integer "2") .subtract (.integer "3")))
    .multiply
    (.call (.unary .negate (.identifier "f")) [.array []]))]⟩

/-- That program with a space after each token. -/
def Program.sampleText : String :=
  "let f = fn ( x ) \x7b if ( ! x ) \x7b \x7d else \x7b return - ( 01 + x ) ; \x7d ; \x7d ; " ++
    "( 1 - ( 2 - 3 ) ) * ( - f ) ( [ ] ) ; "

theorem parse_of_spaced_sample :
    Program.sample.statements ≠ [] ∧ Program.sample.isWritable = true ∧
      Token.Spaced Program.sample.tokens Program.sampleText.toList ∧
      parse Program.sampleText = .ok ⟨Program.sample, []⟩ := by
  have nonempty : Program.sample.statements ≠ [] := List.cons_ne_nil _ _
  have writable : Program.sample.isWritable = true := by decide +kernel
  have spaced : Token.Spaced Program.sample.tokens Program.sampleText.toList := by
    have written : Program.sampleText.toList = Token.spread Program.sample.tokens := by
      decide +kernel
    rw [written]
    exact Token.spaced_spread Program.sample.tokens
  exact ⟨nonempty, writable, spaced, parse_of_spaced nonempty writable spaced⟩

end Scriptlet
