import Scriptlet.Evaluate
import Scriptlet.Proofs.Parse.CanonicalText
import Scriptlet.Value.Inspect

/-!
# The text of a function read back

The text of a function value has the braces that the canonical text of a function literal lacks, but
the statements of its body still follow each other with nothing in between.  That does no harm after
a binding or a return, which end with a semicolon of their own; so the text is read as the literal
that the function was made by, if no other statement than the last one is an expression and no block
stands inside the body.
-/

namespace Scriptlet

/-! ## Function literals in a program -/

mutual

/-- The parameters and bodies of the function literals in an expression, nested ones included. -/
def Expr.functions : Expr → List (List String × Block)
  | .array elements => Expr.functionsAll elements
  | .dictionary pairs => Expr.functionsPairs pairs
  | .unary _ operand => operand.functions
  | .binary left _ right => left.functions ++ right.functions
  | .conditional condition consequence none => condition.functions ++ Block.functions consequence
  | .conditional condition consequence (some alternative) =>
      condition.functions ++ Block.functions consequence ++ Block.functions alternative
  | .function parameters body => (parameters, body) :: Block.functions body
  | .call callee arguments => callee.functions ++ Expr.functionsAll arguments
  | .index collection position => collection.functions ++ position.functions
  | .identifier _ | .integer _ | .boolean _ | .string _ => []

/-- The function literals in several expressions. -/
def Expr.functionsAll : List Expr → List (List String × Block)
  | [] => []
  | expr :: others => expr.functions ++ Expr.functionsAll others

/-- The function literals in the pairs of a dictionary literal. -/
def Expr.functionsPairs : List (Expr × Expr) → List (List String × Block)
  | [] => []
  | (key, value) :: others => key.functions ++ value.functions ++ Expr.functionsPairs others

/-- The function literals in a statement. -/
def Stmt.functions : Stmt → List (List String × Block)
  | .bind _ value | .returns value | .expression value => value.functions

/-- The function literals in the statements of a block. -/
def Block.functions : List Stmt → List (List String × Block)
  | [] => []
  | stmt :: others => stmt.functions ++ Block.functions others

end

/-- The function literals in a program, as parameters and bodies. -/
def Program.functions (program : Program) : List (List String × Block) :=
  Block.functions program.statements

section Writable

variable {parameters : List String} {body : Block}

mutual

/-- In an expression that can be written, every function literal can be. -/
theorem Expr.writable_of_mem_functions : (expr : Expr) → expr.isWritable = true →
    (parameters, body) ∈ expr.functions → (Expr.function parameters body).isWritable = true
  | .identifier _, _, member => nomatch member
  | .integer _, _, member => nomatch member
  | .boolean _, _, member => nomatch member
  | .string _, _, member => nomatch member
  | .array elements, writable, member => Expr.writable_of_mem_functionsAll elements writable member
  | .dictionary pairs, writable, member =>
      Expr.writable_of_mem_functionsPairs pairs writable member
  | .unary _ operand, writable, member => operand.writable_of_mem_functions writable member
  | .binary left _ right, writable, member => by
      simp only [Expr.isWritable, Bool.and_eq_true] at writable
      simp only [Expr.functions, List.mem_append] at member
      rcases member with inLeft | inRight
      · exact left.writable_of_mem_functions writable.1 inLeft
      · exact right.writable_of_mem_functions writable.2 inRight
  | .conditional condition consequence none, writable, member => by
      simp only [Expr.isWritable, Bool.and_eq_true] at writable
      simp only [Expr.functions, List.mem_append] at member
      rcases member with inCondition | inConsequence
      · exact condition.writable_of_mem_functions writable.1 inCondition
      · exact Block.writable_of_mem_functions consequence writable.2 inConsequence
  | .conditional condition consequence (some alternative), writable, member => by
      simp only [Expr.isWritable, Bool.and_eq_true] at writable
      simp only [Expr.functions, List.mem_append] at member
      rcases member with (inCondition | inConsequence) | inAlternative
      · exact condition.writable_of_mem_functions writable.1.1 inCondition
      · exact Block.writable_of_mem_functions consequence writable.1.2 inConsequence
      · exact Block.writable_of_mem_functions alternative writable.2 inAlternative
  | .function names inner, writable, member => by
      simp only [Expr.functions, List.mem_cons, Prod.mk.injEq] at member
      rcases member with ⟨rfl, rfl⟩ | inside
      · exact writable
      · simp only [Expr.isWritable, Bool.and_eq_true] at writable
        exact Block.writable_of_mem_functions inner writable.2 inside
  | .call callee arguments, writable, member => by
      simp only [Expr.isWritable, Bool.and_eq_true] at writable
      simp only [Expr.functions, List.mem_append] at member
      rcases member with inCallee | inArguments
      · exact callee.writable_of_mem_functions writable.1 inCallee
      · exact Expr.writable_of_mem_functionsAll arguments writable.2 inArguments
  | .index collection position, writable, member => by
      simp only [Expr.isWritable, Bool.and_eq_true] at writable
      simp only [Expr.functions, List.mem_append] at member
      rcases member with inCollection | inPosition
      · exact collection.writable_of_mem_functions writable.1 inCollection
      · exact position.writable_of_mem_functions writable.2 inPosition

theorem Expr.writable_of_mem_functionsAll : (exprs : List Expr) →
    Expr.allWritable exprs = true → (parameters, body) ∈ Expr.functionsAll exprs →
      (Expr.function parameters body).isWritable = true
  | [], _, member => nomatch member
  | expr :: others, writable, member => by
      simp only [Expr.allWritable, Bool.and_eq_true] at writable
      simp only [Expr.functionsAll, List.mem_append] at member
      rcases member with here | there
      · exact expr.writable_of_mem_functions writable.1 here
      · exact Expr.writable_of_mem_functionsAll others writable.2 there

theorem Expr.writable_of_mem_functionsPairs : (pairs : List (Expr × Expr)) →
    Expr.pairsWritable pairs = true → (parameters, body) ∈ Expr.functionsPairs pairs →
      (Expr.function parameters body).isWritable = true
  | [], _, member => nomatch member
  | (key, value) :: others, writable, member => by
      simp only [Expr.pairsWritable, Bool.and_eq_true] at writable
      simp only [Expr.functionsPairs, List.mem_append] at member
      rcases member with (inKey | inValue) | there
      · exact key.writable_of_mem_functions writable.1.1 inKey
      · exact value.writable_of_mem_functions writable.1.2 inValue
      · exact Expr.writable_of_mem_functionsPairs others writable.2 there

theorem Stmt.writable_of_mem_functions : (stmt : Stmt) → stmt.isWritable = true →
    (parameters, body) ∈ stmt.functions → (Expr.function parameters body).isWritable = true
  | .bind _ value, writable, member => by
      simp only [Stmt.isWritable, Bool.and_eq_true] at writable
      exact value.writable_of_mem_functions writable.2 member
  | .returns value, writable, member => value.writable_of_mem_functions writable member
  | .expression value, writable, member => value.writable_of_mem_functions writable member

theorem Block.writable_of_mem_functions : (stmts : List Stmt) → Block.isWritable stmts = true →
    (parameters, body) ∈ Block.functions stmts → (Expr.function parameters body).isWritable = true
  | [], _, member => nomatch member
  | stmt :: others, writable, member => by
      simp only [Block.isWritable, Bool.and_eq_true] at writable
      simp only [Block.functions, List.mem_append] at member
      rcases member with here | there
      · exact stmt.writable_of_mem_functions writable.1 here
      · exact Block.writable_of_mem_functions others writable.2 there

end

end Writable

/-! ## The text of a function -/

/-- Whether a statement is an expression. -/
def Stmt.isExpression : Stmt → Bool
  | .expression _ => true
  | _ => false

theorem Stmt.closing_eq (stmt : Stmt) :
    stmt.closing = if stmt.isExpression then [] else [';'] := by
  cases stmt <;> rfl

/-- Whether no statement of a block but the last one is an expression. -/
def Block.isSeparated (stmts : List Stmt) : Bool :=
  stmts.dropLast.all fun stmt => !stmt.isExpression

theorem Block.isSeparated_cons {stmt : Stmt} {others : List Stmt}
    (separated : Block.isSeparated (stmt :: others) = true) :
    (stmt.isExpression = true → others = []) ∧ Block.isSeparated others = true := by
  cases others with
  | nil => exact ⟨fun _ => rfl, rfl⟩
  | cons next others =>
      rw [Block.isSeparated, List.dropLast_cons_cons, List.all_cons, Bool.and_eq_true,
        Bool.not_eq_true'] at separated
      refine ⟨fun expression => ?_, separated.2⟩
      rw [separated.1] at expression
      cases expression

/-- Whether no conditional and no function literal stands in the statements of a block. -/
def Block.isBlockFree (stmts : List Stmt) : Bool := stmts.all fun stmt => stmt.value.isBlockFree

section Text

open Token Spelling

/-- Names with commas between them and a closing parenthesis are a list of parameters. -/
theorem parameters_listed {names : List String} (areNames : names.all isName = true)
    (text : List Char) :
    Parameters names (scan (listed names ++ ')' :: text)) (scan text) := by
  induction names with
  | nil =>
      rw [listed_nil, List.nil_append, scan_single .rightParen rfl rfl]
      exact .none
  | cons name others ih =>
      rw [List.all_cons, Bool.and_eq_true] at areNames
      have read {rest : List Char} (apart : isApart rest = true) :
          scan (name.toList ++ rest) = .identifier name :: scan rest :=
        @scan_of_isApart _ (.identifier name) areNames.1 (by simp) apart
      cases others with
      | nil =>
          rw [listed_singleton, read rfl, scan_single .rightParen rfl rfl]
          exact .last
      | cons next others =>
          rw [listed_cons_cons, List.append_assoc, List.cons_append, List.cons_append, read rfl,
            scan_comma]
          exact .more (ih areNames.2)

/-- The canonical text of a statement spells it, up to the semicolon that it may have. -/
theorem Stmt.statement_render {stmt : Stmt} (writable : stmt.isWritable = true)
    (blockFree : stmt.value.isBlockFree = true) {text : List Char}
    (apart : isApart (stmt.closing ++ text) = true) :
    Statement stmt (scan (stmt.render.toList ++ text)) (scan (stmt.closing ++ text)) := by
  rw [Stmt.scan_render writable]
  exact statement_opening_iff.2
    (stmt.value.placed_render (Stmt.isWritable_value writable) blockFree .whole _ apart)

theorem scan_functionStart (text : List Char) :
    scan ((Token.keyword .functionWord).spelling ++ '(' :: text) =
      .keyword .functionWord :: .symbol .leftParen :: scan text := by
  rw [@scan_of_isApart ('(' :: text) (.keyword .functionWord) rfl (by simp) rfl,
    scan_single .leftParen rfl rfl]

theorem scan_bodyEnd (text : List Char) :
    scan ('\n' :: '\x7d' :: text) = .symbol .rightBrace :: scan text := by
  rw [scan_separator rfl, scan_single .rightBrace rfl rfl]

theorem Block.toList_render_nil : (Block.render []).toList = [] := by simp [Block.render]

/-- The statements of a body are read up to the brace on the line after them. -/
theorem statements_render {stmts : List Stmt} (writable : Block.isWritable stmts = true)
    (blockFree : Block.isBlockFree stmts = true) (separated : Block.isSeparated stmts = true)
    (text : List Char) :
    Statements true stmts (scan ((Block.render stmts).toList ++ '\n' :: '\x7d' :: text))
      (scan text) := by
  induction stmts with
  | nil =>
      rw [Block.toList_render_nil, List.nil_append, scan_bodyEnd]
      exact .closed
  | cons stmt others ih =>
      rw [Block.isWritable, Bool.and_eq_true] at writable
      rw [Block.isBlockFree, List.all_cons, Bool.and_eq_true] at blockFree
      obtain ⟨last, othersSeparated⟩ := Block.isSeparated_cons separated
      have spelledOthers := ih writable.2 blockFree.2 othersSeparated
      have spelled := @Stmt.statement_render stmt writable.1 blockFree.1
        ((Block.render others).toList ++ '\n' :: '\x7d' :: text)
      rw [Stmt.closing_eq] at spelled
      rw [Block.render, String.toList_append, List.append_assoc]
      cases expression : stmt.isExpression with
      | false =>
          -- The statement brings its own semicolon, whatever comes behind it.
          simp only [expression, Bool.false_eq_true, if_false, List.singleton_append] at spelled
          have terminated := spelled rfl
          rw [scan_single .semicolon rfl rfl] at terminated
          exact .terminated terminated spelledOthers
      | true =>
          -- Only the brace comes behind an expression, and it continues none.
          obtain rfl := last expression
          simp only [expression, if_true, List.nil_append, Block.toList_render_nil] at *
          have ended := spelled rfl
          rw [scan_bodyEnd] at *
          exact .detached ended ⟨rfl, by simp [kind]⟩ spelledOthers

/-- The text of a function is read as its literal. -/
theorem parse_inspect_closure (identity : Identity) {closure : Closure}
    (writable : (Expr.function closure.parameters closure.body).isWritable = true)
    (blockFree : Block.isBlockFree closure.body = true)
    (separated : Block.isSeparated closure.body = true) :
    parse (Value.function identity closure).inspect =
      .ok ⟨⟨[.expression (.function closure.parameters closure.body)]⟩, []⟩ := by
  rw [Expr.isWritable, Bool.and_eq_true] at writable
  have characters : (Value.function identity closure).inspect.toList =
      (Token.keyword .functionWord).spelling ++ '(' :: (listed closure.parameters ++ ')' :: ' ' ::
        '\x7b' :: '\n' :: ((Block.render closure.body).toList ++ ['\n', '\x7d'])) := by
    simp [Value.inspect, Token.spelling, Keyword.text, listed]
  have visible : Text.allBlank (Value.function identity closure).inspect.toList = false := by
    rw [characters]
    rfl
  have spelledParameters := parameters_listed writable.1
    (' ' :: '\x7b' :: '\n' :: ((Block.render closure.body).toList ++ ['\n', '\x7d']))
  rw [scan_separator rfl, scan_single .leftBrace rfl rfl, scan_separator rfl] at spelledParameters
  have spelledBody := statements_render writable.2 blockFree separated []
  rw [scan_nil] at spelledBody
  have spelled : Program.SpelledBy
      ⟨[.expression (.function closure.parameters closure.body)]⟩
      (scan (Value.function identity closure).inspect.toList) := by
    rw [characters, scan_functionStart]
    exact .detached (.expression (.bare rfl (.function spelledParameters spelledBody)))
      ⟨rfl, by decide⟩ .finished
  unfold parse ofSource
  rw [visible, ← parseTokens_of_spelledBy spelled]
  rfl

end Text

/-- A function that was made by a literal of a text without errors has a text that is read, again
without errors, as that literal and nothing else: if no block stands in the body, and no statement
but the last one is an expression. -/
theorem parse_inspect_function {source : String} {result : ParseResult}
    (parsed : parse source = .ok result) (noErrors : result.errors = [])
    {parameters : List String} {body : Block}
    (member : (parameters, body) ∈ result.program.functions)
    (blockFree : Block.isBlockFree body = true) (separated : Block.isSeparated body = true)
    {library : Library} {apply : Evaluate.Applier} {scope : FrameId} {store after : Store}
    {value : Value}
    (made : Evaluate.expression library apply scope (.function parameters body) store =
      some (value, after)) :
    ∃ identity, value = .function identity ⟨parameters, body, scope⟩ ∧
      parse value.inspect = .ok ⟨⟨[.expression (.function parameters body)]⟩, []⟩ := by
  obtain ⟨tokens, scanned, rfl⟩ := tokens_of_parse parsed
  have scannable : Scannable tokens := by
    rw [Token.scan_of_ofSource scanned]
    exact Token.scan_wellFormed _
  have writable : Block.isWritable (parseTokens tokens).program.statements = true :=
    Program.writable_of_spelledBy (spelledBy_of_parseTokens noErrors) scannable
  cases made
  exact ⟨store.nextIdentity, rfl, parse_inspect_closure _
    (Block.writable_of_mem_functions _ writable member) blockFree separated⟩

/-- A body with a binding, a return and an expression. -/
def Block.bodySample : Block := [
  .bind "c" (.dictionary [(.string "\x7d; x", .unary .negate (.identifier "a"))]),
  .returns (.binary (.identifier "c") .add (.integer "007")),
  .expression (.call (.index (.identifier "b") (.identifier "c")) [])]

/-- A program with that body inside the block of another function. -/
def Program.nestedSample : Program := ⟨[.expression (.function ["g"]
  [.expression (.conditional (.identifier "g")
    [.returns (.array [.function ["a", "b"] Block.bodySample])] none)])]⟩

/-- A text of that program, with two braces missing at its end. -/
def nestedSource : String :=
  "fn(g) \x7b if (g) \x7b return [fn(a, b) \x7b let c = \x7b\"\x7d; x\": -a\x7d\n" ++
    "return c + 007; (b[c])() \x7d]"

theorem parse_inspect_function_nested :
    parse nestedSource = .ok ⟨Program.nestedSample, []⟩ ∧
      parse (Value.function 0 ⟨["a", "b"], Block.bodySample, 0⟩).inspect =
        .ok ⟨⟨[.expression (.function ["a", "b"] Block.bodySample)]⟩, []⟩ := by
  have parsed : parse nestedSource = .ok ⟨Program.nestedSample, []⟩ := by decide +kernel
  have member : (["a", "b"], Block.bodySample) ∈ Program.nestedSample.functions :=
    .tail _ (.head _)
  obtain ⟨identity, isFunction, read⟩ := @parse_inspect_function _ _ parsed rfl ["a", "b"]
    Block.bodySample member (by decide) (by decide) Library.standard
    (Evaluate.applyWithin Library.standard 0) 0 Store.empty _ _ rfl
  exact ⟨parsed, read⟩

end Scriptlet
