import Mathlib.Data.List.Chain
import Scriptlet.Proofs.Parse.LeastParentheses
import Scriptlet.Tree.Equality
import Scriptlet.Tree.Render

/-!
# Canonical text read back

The canonical text of an expression without blocks is one of its spellings, whatever stands around
it: every operator and index brings its own parentheses, so that no place asks for more.  Between
the lines of a program there is no semicolon, though, and two lines are read as two statements only
if the second one does not start like the arguments of a call or like an index.

A program that was read from a text can always be written again, since scanning finds only names,
numerals and strings of the language.
-/

namespace Scriptlet

/-! ## Tokens found by scanning -/

namespace Token

theorem wellFormed_ofWord {word : String} (nonempty : (!word.toList.isEmpty) = true)
    (wordChars : word.toList.all isWordChar = true) : (ofWord word).isWellFormed = true := by
  unfold ofWord
  split
  · rfl
  · next notReserved =>
      rw [isWellFormed, isName, nonempty, wordChars, notReserved]
      rfl

/-- Scanning finds only tokens that it can find again. -/
theorem scan_wellFormed (text : List Char) : Scannable (scan text) := by
  fun_induction scan text with
  | case1 => rfl
  | case2 c rest separator ih => exact ih
  | case3 c rest notWhitespace digit ih =>
      refine .cons ?_ ih
      have digits := List.all_takeWhile (p := Char.isDigit) (l := rest)
      simp [isWellFormed, isNumeral, digit, digits]
  | case4 c rest notWhitespace notDigit wordChar ih =>
      refine .cons (wellFormed_ofWord ?_ ?_) ih
      · rw [String.toList_ofList]
        rfl
      · rw [String.toList_ofList, List.all_cons, wordChar, List.all_takeWhile]
        rfl
  | case5 rest notWhitespace notDigit notWordChar ih =>
      refine .cons ?_ ih
      rw [isWellFormed, String.toList_ofList]
      exact List.all_takeWhile
  | case6 c rest notWhitespace notDigit notWordChar notQuote mark remaining found ih =>
      exact .symbol mark ih
  | case7 c rest notWhitespace notDigit notWordChar notQuote noSymbol ih =>
      refine .cons ?_ ih
      rw [isWellFormed, isMark_of_not notWhitespace notDigit notWordChar notQuote,
        ofChar?_of_symbolAt? noSymbol]
      rfl

end Token

/-! ## What was read can be written -/

namespace Scannable

variable {token : Token} {rest : List Token}

theorem front (scannable : Scannable (token :: rest)) : token.isWellFormed = true := by
  unfold Scannable at scannable
  rw [List.all_cons, Bool.and_eq_true] at scannable
  exact scannable.1

theorem tail (scannable : Scannable (token :: rest)) : Scannable rest := by
  unfold Scannable at scannable
  rw [List.all_cons, Bool.and_eq_true] at scannable
  exact scannable.2

end Scannable

namespace Spelling

/-- The names of a spelled parameter list are names of the language. -/
theorem Parameters.areNames {names : List String} {tokens rest : List Token}
    (spelled : Parameters names tokens rest) (scannable : Scannable tokens) :
    names.all Token.isName = true ∧ Scannable rest := by
  induction spelled with
  | none => exact ⟨rfl, scannable.tail⟩
  | @last name rest =>
      have isName : Token.isName name = true := scannable.front
      exact ⟨by rw [List.all_cons, isName]; rfl, scannable.tail.tail⟩
  | @more name next others tokens rest spelled ih =>
      have isName : Token.isName name = true := scannable.front
      have others := ih scannable.tail.tail
      exact ⟨by rw [List.all_cons, isName, others.1]; rfl, others.2⟩

-- Each lemma also says that what is left over can be scanned, which is what the next part needs.
mutual

theorem Placed.writable {slot : Slot} {expr : Expr} {tokens rest : List Token} :
    Placed slot expr tokens rest → Scannable tokens → expr.isWritable = true ∧ Scannable rest
  | .bare _ spelled, scannable => spelled.writable scannable
  | .grouped inner, scannable => by
      have written := inner.writable scannable.tail
      exact ⟨written.1, written.2.tail⟩

theorem Bare.writable {expr : Expr} {tokens rest : List Token} :
    Bare expr tokens rest → Scannable tokens → expr.isWritable = true ∧ Scannable rest
  | .identifier, scannable => ⟨scannable.front, scannable.tail⟩
  | .string, scannable => ⟨scannable.front, scannable.tail⟩
  | .truth, scannable => ⟨rfl, scannable.tail⟩
  | .falsity, scannable => ⟨rfl, scannable.tail⟩
  | @Bare.integer numeral _ fits, scannable => by
      have isNumeral : Token.isNumeral numeral = true := scannable.front
      refine ⟨?_, scannable.tail⟩
      rw [Expr.isWritable, isNumeral, decide_eq_true fits]
      rfl
  | .array spelled, scannable => spelled.writable scannable.tail
  | .dictionary spelled, scannable => spelled.writable scannable.tail
  | .unary spelled, scannable => spelled.writable scannable.tail
  | .binary spelledLeft spelledRight, scannable => by
      have left := spelledLeft.writable scannable
      have right := spelledRight.writable left.2.tail
      exact ⟨by rw [Expr.isWritable, left.1, right.1]; rfl, right.2⟩
  | .conditional spelledCondition spelledConsequence _, scannable => by
      have condition := spelledCondition.writable scannable.tail.tail
      have consequence := spelledConsequence.writable condition.2.tail.tail
      exact ⟨by rw [Expr.isWritable, condition.1, consequence.1]; rfl, consequence.2⟩
  | .alternative spelledCondition spelledConsequence spelledAlternative, scannable => by
      have condition := spelledCondition.writable scannable.tail.tail
      have consequence := spelledConsequence.writable condition.2.tail.tail
      have alternative := spelledAlternative.writable consequence.2.tail.tail
      refine ⟨?_, alternative.2⟩
      rw [Expr.isWritable, condition.1, consequence.1, alternative.1]
      rfl
  | .function spelledParameters spelledBody, scannable => by
      have parameters := spelledParameters.areNames scannable.tail.tail
      have body := spelledBody.writable parameters.2.tail
      exact ⟨by rw [Expr.isWritable, parameters.1, body.1]; rfl, body.2⟩
  | .call spelledCallee spelledArguments, scannable => by
      have callee := spelledCallee.writable scannable
      have arguments := spelledArguments.writable callee.2.tail
      exact ⟨by rw [Expr.isWritable, callee.1, arguments.1]; rfl, arguments.2⟩
  | .index spelledCollection spelledPosition, scannable => by
      have collection := spelledCollection.writable scannable
      have position := spelledPosition.writable collection.2.tail
      exact ⟨by rw [Expr.isWritable, collection.1, position.1]; rfl, position.2.tail⟩

theorem Elements.writable {close : Symbol} {exprs : List Expr} {tokens rest : List Token} :
    Elements close exprs tokens rest → Scannable tokens →
      Expr.allWritable exprs = true ∧ Scannable rest
  | .none, scannable => ⟨rfl, scannable.tail⟩
  | .last spelled, scannable => by
      have written := spelled.writable scannable
      exact ⟨by rw [Expr.allWritable, written.1]; rfl, written.2.tail⟩
  | .more spelled spelledOthers, scannable => by
      have written := spelled.writable scannable
      have others := spelledOthers.writable written.2.tail
      exact ⟨by rw [Expr.allWritable, written.1, others.1]; rfl, others.2⟩

theorem Pairs.writable {pairs : List (Expr × Expr)} {tokens rest : List Token} :
    Pairs pairs tokens rest → Scannable tokens → Expr.pairsWritable pairs = true ∧ Scannable rest
  | .none, scannable => ⟨rfl, scannable.tail⟩
  | .last spelledKey spelledValue, scannable => by
      have key := spelledKey.writable scannable
      have value := spelledValue.writable key.2.tail
      exact ⟨by rw [Expr.pairsWritable, key.1, value.1]; rfl, value.2.tail⟩
  | .more spelledKey spelledValue spelledOthers, scannable => by
      have key := spelledKey.writable scannable
      have value := spelledValue.writable key.2.tail
      have others := spelledOthers.writable value.2.tail
      exact ⟨by rw [Expr.pairsWritable, key.1, value.1, others.1]; rfl, others.2⟩

theorem Statement.writable {stmt : Stmt} {tokens rest : List Token} :
    Statement stmt tokens rest → Scannable tokens → stmt.isWritable = true ∧ Scannable rest
  | @Statement.bind name _ _ _ spelled, scannable => by
      have isName : Token.isName name = true := scannable.tail.front
      have written := spelled.writable scannable.tail.tail.tail
      exact ⟨by rw [Stmt.isWritable, isName, written.1]; rfl, written.2⟩
  | .returns spelled, scannable => spelled.writable scannable.tail
  | .expression spelled, scannable => spelled.writable scannable

theorem Statements.writable {inBlock : Bool} {stmts : List Stmt} {tokens rest : List Token} :
    Statements inBlock stmts tokens rest → Scannable tokens →
      Block.isWritable stmts = true ∧ Scannable rest
  | .closed, scannable => ⟨rfl, scannable.tail⟩
  | .finished, _ => ⟨rfl, rfl⟩
  | .terminated spelled spelledOthers, scannable => by
      have stmt := spelled.writable scannable
      have others := spelledOthers.writable stmt.2.tail
      exact ⟨by rw [Block.isWritable, stmt.1, others.1]; rfl, others.2⟩
  | .detached spelled _ spelledOthers, scannable => by
      have stmt := spelled.writable scannable
      have others := spelledOthers.writable stmt.2
      exact ⟨by rw [Block.isWritable, stmt.1, others.1]; rfl, others.2⟩

end

end Spelling

/-! ## Programs without blocks -/

mutual

/-- Whether no conditional and no function literal stands in an expression. -/
def Expr.isBlockFree : Expr → Bool
  | .identifier _ | .integer _ | .boolean _ | .string _ => true
  | .array elements => Expr.allBlockFree elements
  | .dictionary pairs => Expr.pairsBlockFree pairs
  | .unary _ operand => operand.isBlockFree
  | .binary left _ right => left.isBlockFree && right.isBlockFree
  | .conditional .. | .function .. => false
  | .call callee arguments => callee.isBlockFree && Expr.allBlockFree arguments
  | .index collection position => collection.isBlockFree && position.isBlockFree

/-- Whether no conditional and no function literal stands in several expressions. -/
def Expr.allBlockFree : List Expr → Bool
  | [] => true
  | expr :: others => expr.isBlockFree && Expr.allBlockFree others

/-- Whether no conditional and no function literal stands in the pairs of a dictionary. -/
def Expr.pairsBlockFree : List (Expr × Expr) → Bool
  | [] => true
  | (key, value) :: others => key.isBlockFree && value.isBlockFree && Expr.pairsBlockFree others

end

/-- Whether no conditional and no function literal stands in a program. -/
def Program.isBlockFree (program : Program) : Bool :=
  program.statements.all fun stmt => stmt.value.isBlockFree

/-! ## Where canonical texts start and end -/

namespace Token

/-- Whether a text goes on with neither a word nor a number. -/
def isApart (text : List Char) : Bool := !text.head?.any fun c => isWordChar c || c.isDigit

/-- The characters that the canonical text of an expression can start with. -/
def opensText (c : Char) : Bool :=
  isWordChar c || c.isDigit || c ∈ ['"', '(', '[', '\x7b']

variable {text : List Char}

theorem endsBefore_of_isApart {token : Token} (noSymbol : ∀ mark, token ≠ .symbol mark)
    (apart : isApart text = true) : token.endsBefore text = true := by
  cases token with
  | symbol mark => exact absurd rfl (noSymbol mark)
  | illegal _ | string _ => rfl
  | identifier _ | integer _ | keyword _ =>
      cases text with
      | nil => rfl
      | cons c others =>
          simp only [isApart, List.head?_cons, Option.any_some, Bool.not_or, Bool.and_eq_true,
            Bool.not_eq_true'] at apart
          simp [endsBefore, apart]

theorem scan_of_isApart {token : Token} (wellFormed : token.isWellFormed = true)
    (noSymbol : ∀ mark, token ≠ .symbol mark) (apart : isApart text = true) :
    scan (token.spelling ++ text) = token :: scan text :=
  scan_spelling wellFormed (endsBefore_of_isApart noSymbol apart)

theorem scan_nil : scan [] = [] := by rw [scan]

theorem scan_single {c : Char} (mark : Symbol) (spelled : mark.spelling = [c])
    (ends : endsBefore (.symbol mark) text = true) :
    scan (c :: text) = .symbol mark :: scan text := by
  have read := scan_symbol ends
  rwa [spelled, List.singleton_append] at read

theorem scan_before_space (token : Token) (wellFormed : token.isWellFormed = true) :
    scan (token.spelling ++ ' ' :: text) = token :: scan text := by
  rw [scan_spelling wellFormed (endsBefore_of_separator token rfl), scan_separator rfl]

theorem ne_equals_of_opensText {c : Char} (opens : opensText c = true) : c ≠ '=' := by
  rintro rfl
  exact absurd opens (by decide)

theorem not_isBlank_of_opensText {c : Char} (opens : opensText c = true) :
    Text.isBlank c = false := by
  simp only [opensText, Bool.or_eq_true, decide_eq_true_eq] at opens
  rcases opens with (wordChar | digit) | mark
  · exact not_isBlank_of_isWordChar wordChar
  · exact not_isBlank_of_isDigit digit
  · simp only [List.mem_cons, List.not_mem_nil, or_false] at mark
    rcases mark with rfl | rfl | rfl | rfl <;> decide

theorem opensText_of_run {p : Char → Bool} (opens : ∀ c, p c = true → opensText c = true)
    {run : List Char} (nonempty : (!run.isEmpty) = true) (inClass : run.all p = true) :
    ∃ c, run.head? = some c ∧ opensText c = true := by
  cases run with
  | nil => exact Bool.noConfusion nonempty
  | cons c others =>
      rw [List.all_cons, Bool.and_eq_true] at inClass
      exact ⟨c, rfl, opens c inClass.1⟩

end Token

open Token

/-- The first character of a canonical text starts a word, a number, a string or a bracket. -/
theorem Expr.head?_render : (expr : Expr) → expr.isWritable = true →
    ∃ c, expr.render.toList.head? = some c ∧ opensText c = true
  | .identifier name, writable => by
      have isName : Token.isName name = true := writable
      rw [Token.isName, Bool.and_eq_true, Bool.and_eq_true] at isName
      exact opensText_of_run (fun c wordChar => by simp [opensText, wordChar])
        isName.1.1 isName.1.2
  | .integer numeral, writable => by
      rw [Expr.isWritable, Token.isNumeral, Bool.and_eq_true, Bool.and_eq_true] at writable
      exact opensText_of_run (fun c digit => by simp [opensText, digit])
        writable.1.1 writable.1.2
  | .boolean true, _ => ⟨'t', by simp [Expr.render], rfl⟩
  | .boolean false, _ => ⟨'f', by simp [Expr.render], rfl⟩
  | .string text, _ => ⟨'"', by simp [Expr.render], rfl⟩
  | .array elements, _ => ⟨'[', by simp [Expr.render], rfl⟩
  | .dictionary pairs, _ => ⟨'\x7b', by simp [Expr.render], rfl⟩
  | .unary op operand, _ => ⟨'(', by simp [Expr.render], rfl⟩
  | .binary left op right, _ => ⟨'(', by simp [Expr.render], rfl⟩
  | .conditional condition consequence none, _ => ⟨'i', by simp [Expr.render], rfl⟩
  | .conditional condition consequence (some alternative), _ => ⟨'i', by simp [Expr.render], rfl⟩
  | .function parameters body, _ => ⟨'f', by simp [Expr.render], rfl⟩
  | .index collection position, _ => ⟨'(', by simp [Expr.render], rfl⟩
  | .call callee arguments, writable => by
      rw [Expr.isWritable, Bool.and_eq_true] at writable
      obtain ⟨c, front, opens⟩ := callee.head?_render writable.1
      exact ⟨c, by simp [Expr.render, front], opens⟩

/-! ## Canonical texts are spellings -/

theorem Slot.admits_of_head (slot : Slot) {expr : Expr}
    (admitted : Slot.head.admits expr = true) : slot.admits expr = true := by
  cases expr with
  | unary op operand => cases admitted
  | binary left op right => cases admitted
  | _ => cases slot <;> rfl

namespace Token

variable {text : List Char}

theorem scan_closing {close : Symbol} (closes : Spelling.closesElements close = true) :
    isApart (close.spelling ++ text) = true ∧
      scan (close.spelling ++ text) = .symbol close :: scan text := by
  cases close with
  | rightParen => exact ⟨rfl, scan_symbol rfl⟩
  | rightBracket => exact ⟨rfl, scan_symbol rfl⟩
  | _ => exact absurd closes (by decide)

theorem scan_comma : scan (',' :: ' ' :: text) = .symbol .comma :: scan text := by
  rw [scan_single .comma rfl rfl, scan_separator rfl]

end Token

section Rendered

open Spelling

/-- The characters of several texts with commas between them. -/
def listed (texts : List String) : List Char := [',', ' '].intercalate (texts.map String.toList)

@[simp] theorem listed_nil : listed [] = [] := rfl

@[simp] theorem listed_singleton (text : String) : listed [text] = text.toList := by
  simp [listed]

@[simp] theorem listed_cons_cons (first second : String) (others : List String) :
    listed (first :: second :: others) =
      first.toList ++ ',' :: ' ' :: listed (second :: others) := by
  simp [listed]

theorem UnaryOp.scan_text (op : UnaryOp) {c : Char} {text : List Char}
    (front : text.head? = some c) (opens : opensText c = true) :
    scan (op.text.toList ++ text) = .symbol op.symbol :: scan text := by
  rw [UnaryOp.text, Symbol.text, String.toList_ofList]
  refine scan_symbol ?_
  cases op with
  | not => simp [endsBefore, symbol, front, ne_equals_of_opensText opens]
  | negate => rfl

theorem BinaryOp.scan_text (op : BinaryOp) (text : List Char) :
    scan (' ' :: (op.text.toList ++ ' ' :: text)) = .symbol op.symbol :: scan text := by
  rw [scan_separator rfl, BinaryOp.text, Symbol.text, String.toList_ofList]
  exact scan_before_space (.symbol op.symbol) rfl

mutual

/-- The canonical text of an expression, followed by neither a word nor a number, spells it at
every place. -/
theorem Expr.placed_render : (expr : Expr) → expr.isWritable = true → expr.isBlockFree = true →
    (slot : Slot) → (text : List Char) → isApart text = true →
      Placed slot expr (scan (expr.render.toList ++ text)) (scan text)
  | .identifier name, writable, _, slot, text, apart => by
      have read : scan (name.toList ++ text) = .identifier name :: scan text :=
        @scan_of_isApart _ (.identifier name) writable nofun apart
      rw [Expr.render, read]
      exact .bare (slot.admits_of_head rfl) .identifier
  | .integer numeral, writable, _, slot, text, apart => by
      rw [Expr.isWritable, Bool.and_eq_true, decide_eq_true_eq] at writable
      have read : scan (numeral.toList ++ text) = .integer numeral :: scan text :=
        @scan_of_isApart _ (.integer numeral) writable.1 nofun apart
      rw [Expr.render, read]
      exact .bare (slot.admits_of_head rfl) (.integer writable.2)
  | .boolean true, _, _, slot, text, apart => by
      have read : scan ("true".toList ++ text) = .keyword .trueWord :: scan text :=
        @scan_of_isApart _ (.keyword .trueWord) rfl nofun apart
      rw [Expr.render, read]
      exact .bare (slot.admits_of_head rfl) .truth
  | .boolean false, _, _, slot, text, apart => by
      have read : scan ("false".toList ++ text) = .keyword .falseWord :: scan text :=
        @scan_of_isApart _ (.keyword .falseWord) rfl nofun apart
      rw [Expr.render, read]
      exact .bare (slot.admits_of_head rfl) .falsity
  | .string content, writable, _, slot, text, apart => by
      have spelled : (Expr.string content).render.toList ++ text =
          '"' :: (content.toList ++ ['"']) ++ text := by simp [Expr.render]
      rw [spelled, scan_string writable]
      exact .bare (slot.admits_of_head rfl) .string
  | .array elements, writable, blockFree, slot, text, apart => by
      have spelled : (Expr.array elements).render.toList ++ text =
          '[' :: (listed (Expr.renderAll elements) ++
            (Symbol.rightBracket.spelling ++ text)) := by
        simp [Expr.render, Symbol.spelling, listed]
      rw [spelled, scan_single .leftBracket rfl rfl]
      exact .bare (slot.admits_of_head rfl)
        (.array (Expr.elements_render elements writable blockFree rfl text))
  | .dictionary pairs, writable, blockFree, slot, text, apart => by
      have spelled : (Expr.dictionary pairs).render.toList ++ text =
          '\x7b' :: (listed (Expr.renderPairs pairs) ++
            '\x7d' :: text) := by simp [Expr.render, listed]
      rw [spelled, scan_single .leftBrace rfl rfl]
      exact .bare (slot.admits_of_head rfl)
        (.dictionary (Expr.pairs_render pairs writable blockFree text))
  | .unary op operand, writable, blockFree, slot, text, apart => by
      have spelled : (Expr.unary op operand).render.toList ++ text =
          '(' :: (op.text.toList ++ (operand.render.toList ++ ')' :: text)) := by
        simp [Expr.render]
      obtain ⟨c, front, opens⟩ := operand.head?_render writable
      have front : (operand.render.toList ++ ')' :: text).head? = some c := by simp [front]
      have placed := operand.placed_render writable blockFree .operand (')' :: text) rfl
      rw [scan_single .rightParen rfl rfl] at placed
      rw [spelled, scan_single .leftParen rfl rfl, op.scan_text front opens]
      exact .grouped (.bare rfl (.unary placed))
  | .binary left op right, writable, blockFree, slot, text, apart => by
      rw [Expr.isWritable, Bool.and_eq_true] at writable
      rw [Expr.isBlockFree, Bool.and_eq_true] at blockFree
      have spelled : (Expr.binary left op right).render.toList ++ text =
          '(' :: (left.render.toList ++ ' ' :: (op.text.toList ++ ' ' ::
            (right.render.toList ++ ')' :: text))) := by simp [Expr.render]
      have placedLeft := left.placed_render writable.1 blockFree.1 (.leftOf op)
        (' ' :: (op.text.toList ++ ' ' :: (right.render.toList ++ ')' :: text))) rfl
      have placedRight := right.placed_render writable.2 blockFree.2 (.rightOf op) (')' :: text) rfl
      rw [op.scan_text] at placedLeft
      rw [scan_single .rightParen rfl rfl] at placedRight
      rw [spelled, scan_single .leftParen rfl rfl]
      exact .grouped (.bare rfl (.binary placedLeft placedRight))
  | .conditional .., _, blockFree, _, _, _ => Bool.noConfusion blockFree
  | .function .., _, blockFree, _, _, _ => Bool.noConfusion blockFree
  | .call callee arguments, writable, blockFree, slot, text, apart => by
      rw [Expr.isWritable, Bool.and_eq_true] at writable
      rw [Expr.isBlockFree, Bool.and_eq_true] at blockFree
      have spelled : (Expr.call callee arguments).render.toList ++ text =
          callee.render.toList ++ '(' ::
            (listed (Expr.renderAll arguments) ++
              (Symbol.rightParen.spelling ++ text)) := by
        simp [Expr.render, Symbol.spelling, listed]
      have placed := callee.placed_render writable.1 blockFree.1 .head
        ('(' :: (listed (Expr.renderAll arguments) ++
          (Symbol.rightParen.spelling ++ text))) rfl
      rw [scan_single .leftParen rfl rfl] at placed
      rw [spelled]
      exact .bare (slot.admits_of_head rfl)
        (.call placed (Expr.elements_render arguments writable.2 blockFree.2 rfl text))
  | .index collection position, writable, blockFree, slot, text, apart => by
      rw [Expr.isWritable, Bool.and_eq_true] at writable
      rw [Expr.isBlockFree, Bool.and_eq_true] at blockFree
      have spelled : (Expr.index collection position).render.toList ++ text =
          '(' :: (collection.render.toList ++ '[' ::
            (position.render.toList ++ ']' :: ')' :: text)) := by simp [Expr.render]
      have placedCollection := collection.placed_render writable.1 blockFree.1 .head
        ('[' :: (position.render.toList ++ ']' :: ')' :: text)) rfl
      have placedPosition := position.placed_render writable.2 blockFree.2 .whole
        (']' :: ')' :: text) rfl
      rw [scan_single .leftBracket rfl rfl] at placedCollection
      rw [scan_single .rightBracket rfl rfl, scan_single .rightParen rfl rfl] at placedPosition
      rw [spelled, scan_single .leftParen rfl rfl]
      exact .grouped (.bare rfl (.index placedCollection placedPosition))

theorem Expr.elements_render : (exprs : List Expr) → Expr.allWritable exprs = true →
    Expr.allBlockFree exprs = true → {close : Symbol} → closesElements close = true →
      (text : List Char) → Elements close exprs
        (scan (listed (Expr.renderAll exprs) ++
          (close.spelling ++ text))) (scan text)
  | [], _, _, close, closes, text => by
      rw [Expr.renderAll, listed_nil, List.nil_append]
      exact (scan_closing closes).2 ▸ .none
  | [expr], writable, blockFree, close, closes, text => by
      rw [Expr.allWritable, Bool.and_eq_true] at writable
      rw [Expr.allBlockFree, Bool.and_eq_true] at blockFree
      have closing := @scan_closing text close closes
      have placed := expr.placed_render writable.1 blockFree.1 .whole _ closing.1
      rw [closing.2] at placed
      rw [Expr.renderAll, Expr.renderAll, listed_singleton]
      exact .last placed
  | expr :: next :: others, writable, blockFree, close, closes, text => by
      rw [Expr.allWritable, Bool.and_eq_true] at writable
      rw [Expr.allBlockFree, Bool.and_eq_true] at blockFree
      have spelledOthers := Expr.elements_render (next :: others) writable.2 blockFree.2 closes text
      have placed := expr.placed_render writable.1 blockFree.1 .whole
        (',' :: ' ' :: (listed (Expr.renderAll (next :: others)) ++
          (close.spelling ++ text))) rfl
      rw [scan_comma] at placed
      have spelled : listed (Expr.renderAll (expr :: next :: others)) ++
          (close.spelling ++ text) = expr.render.toList ++ ',' :: ' ' ::
            (listed (Expr.renderAll (next :: others)) ++
              (close.spelling ++ text)) := by
        simp [Expr.renderAll]
      rw [spelled]
      exact .more placed spelledOthers

theorem Expr.pairs_render : (pairs : List (Expr × Expr)) → Expr.pairsWritable pairs = true →
    Expr.pairsBlockFree pairs = true → (text : List Char) → Pairs pairs
      (scan (listed (Expr.renderPairs pairs) ++ '\x7d' :: text))
      (scan text)
  | [], _, _, text => by
      rw [Expr.renderPairs, listed_nil, List.nil_append]
      exact scan_single .rightBrace rfl rfl ▸ .none
  | [(key, value)], writable, blockFree, text => by
      rw [Expr.pairsWritable, Bool.and_eq_true, Bool.and_eq_true] at writable
      rw [Expr.pairsBlockFree, Bool.and_eq_true, Bool.and_eq_true] at blockFree
      have placedKey := key.placed_render writable.1.1 blockFree.1.1 .whole
        (':' :: ' ' :: (value.render.toList ++ '\x7d' :: text)) rfl
      have placedValue := value.placed_render writable.1.2 blockFree.1.2 .whole ('\x7d' :: text) rfl
      rw [scan_single .colon rfl rfl, scan_separator rfl] at placedKey
      rw [scan_single .rightBrace rfl rfl] at placedValue
      have spelled : listed (Expr.renderPairs [(key, value)]) ++
          '\x7d' :: text =
            key.render.toList ++ ':' :: ' ' :: (value.render.toList ++ '\x7d' :: text) := by
        simp [Expr.renderPairs]
      rw [spelled]
      exact .last placedKey placedValue
  | (key, value) :: next :: others, writable, blockFree, text => by
      rw [Expr.pairsWritable, Bool.and_eq_true, Bool.and_eq_true] at writable
      rw [Expr.pairsBlockFree, Bool.and_eq_true, Bool.and_eq_true] at blockFree
      have spelledOthers := Expr.pairs_render (next :: others) writable.2 blockFree.2 text
      have placedKey := key.placed_render writable.1.1 blockFree.1.1 .whole
        (':' :: ' ' :: (value.render.toList ++ ',' :: ' ' ::
          (listed (Expr.renderPairs (next :: others)) ++
            '\x7d' :: text))) rfl
      have placedValue := value.placed_render writable.1.2 blockFree.1.2 .whole
        (',' :: ' ' :: (listed (Expr.renderPairs (next :: others)) ++
          '\x7d' :: text)) rfl
      rw [scan_single .colon rfl rfl, scan_separator rfl] at placedKey
      rw [scan_comma] at placedValue
      have spelled : listed (Expr.renderPairs ((key, value) :: next :: others)) ++ '\x7d' :: text =
            key.render.toList ++ ':' :: ' ' :: (value.render.toList ++ ',' :: ' ' ::
              (listed (Expr.renderPairs (next :: others)) ++
                '\x7d' :: text)) := by
        simp [Expr.renderPairs]
      rw [spelled]
      exact .more placedKey placedValue spelledOthers

end

end Rendered

/-! ## One statement after another -/

/-- Whether the canonical text of a statement, on the line after that of another, is taken for a
continuation of it: both are expressions, and the second one starts like arguments or an index. -/
def Stmt.fuses : Stmt → Stmt → Bool
  | .expression _, .expression value =>
      value.render.toList.head? == some '(' || value.render.toList.head? == some '['
  | _, _ => false

section Statements

open Reader Spelling

theorem Stmt.head?_render {stmt : Stmt} (writable : stmt.isWritable = true) :
    ∃ c, stmt.render.toList.head? = some c ∧ opensText c = true := by
  cases stmt with
  | bind name value => exact ⟨'l', by simp [Stmt.render], rfl⟩
  | returns value => exact ⟨'r', by simp [Stmt.render], rfl⟩
  | expression value => exact value.head?_render writable

/-- A continued expression stands inside the result, and is the result only if nothing was read. -/
theorem sizeOf_le_of_continued {reader : Grammar.ExprReader} {context : Precedence}
    {bound steps : Nat} : ∀ left tokens result rest,
      Grammar.continued reader context bound steps left tokens = .done (some result) rest [] →
        sizeOf left ≤ sizeOf result ∧ (left = result → tokens = rest) := by
  induction steps with
  | zero =>
      intro left tokens result rest ended
      exact absurd ended stop_ne_done
  | succ steps ih =>
      intro left tokens result rest ended
      have larger {around : Expr} {start : List Token} (inside : sizeOf left < sizeOf around)
          (continuation : Grammar.continued reader context bound steps around start =
            .done (some result) rest []) :
          sizeOf left ≤ sizeOf result ∧ (left = result → tokens = rest) := by
        have reached := (ih _ _ _ _ continuation).1
        refine ⟨by omega, ?_⟩
        rintro rfl
        omega
      unfold Grammar.continued at ended
      split at ended
      · split at ended
        · obtain ⟨arguments, last, _, continuation⟩ := bind_eq_done.1 ended
          exact larger (by simp only [Expr.call.sizeOf_spec]; omega) continuation
        · obtain ⟨found, afterPosition, _, positionContinued⟩ := bind_eq_done.1 ended
          obtain ⟨_, last, _, continuation⟩ := bind_eq_done.1 positionContinued
          cases found with
          | none => cases continuation
          | some position =>
              exact larger (by simp only [Expr.index.sizeOf_spec]; omega) continuation
        · split at ended
          · obtain ⟨found, last, _, continuation⟩ := bind_eq_done.1 ended
            cases found with
            | none => cases continuation
            | some right =>
                exact larger (by simp only [Expr.binary.sizeOf_spec]; omega) continuation
          · cases ended
            exact ⟨Nat.le_refl _, fun _ => rfl⟩
        · cases ended
          exact ⟨Nat.le_refl _, fun _ => rfl⟩
      · cases ended
        exact ⟨Nat.le_refl _, fun _ => rfl⟩

/-- Between two places where an expression may end, the reader has no choice. -/
theorem Spelling.Placed.rest_unique {value : Expr} {tokens middle rest : List Token}
    (placedHead : Placed .head value tokens middle) (placed : Placed .whole value tokens rest)
    (weak : Precedence.ofKind (frontKind rest) = .lowest) : middle = rest := by
  let bound := tokens.length
  have read : Grammar.expression (bound + 1) .lowest tokens = .done (some value) rest [] :=
    (complete_expression (bound + 1)).whole placed weak (by omega)
  have chain : Chain .lowest value tokens middle := placedHead.chain_head
  obtain ⟨left, start, rounds, primaryRead, consumed, arrives⟩ :=
    chain.arrives (complete_expression bound) (by decide) (by omega)
  have arrived : Grammar.continued (Grammar.expression bound) .lowest bound (bound - rounds) value
      middle = .done (some value) rest [] := by
    rw [← arrives, Nat.sub_add_cancel (by omega)]
    unfold Grammar.expression at read
    rwa [bind_of_done primaryRead] at read
  exact (sizeOf_le_of_continued _ _ _ _ arrived).2 rfl

/-- The tokens of a statement before its expression. -/
def Stmt.opening : Stmt → List Token
  | .bind name _ => [.keyword .letWord, .identifier name, .symbol .assign]
  | .returns _ => [.keyword .returnWord]
  | .expression _ => []

/-- The canonical text of a statement after its expression. -/
def Stmt.closing : Stmt → List Char
  | .bind .. | .returns _ => [';']
  | .expression _ => []

theorem statement_opening_iff {stmt : Stmt} {tokens rest : List Token} :
    Statement stmt (stmt.opening ++ tokens) rest ↔ Placed .whole stmt.value tokens rest := by
  constructor
  · intro spelled
    cases stmt with
    | bind name value => cases spelled with | bind placed => exact placed
    | returns value => cases spelled with | returns placed => exact placed
    | expression value => cases spelled with | expression placed => exact placed
  · intro placed
    cases stmt with
    | bind name value => exact .bind placed
    | returns value => exact .returns placed
    | expression value => exact .expression placed

theorem Stmt.scan_render {stmt : Stmt} (writable : stmt.isWritable = true) (text : List Char) :
    scan (stmt.render.toList ++ text) =
      stmt.opening ++ scan (stmt.value.render.toList ++ (stmt.closing ++ text)) := by
  cases stmt with
  | bind name value =>
      rw [Stmt.isWritable, Bool.and_eq_true] at writable
      have spelled : (Stmt.bind name value).render.toList ++ text =
          (Token.keyword .letWord).spelling ++ ' ' :: ((Token.identifier name).spelling ++
            ' ' :: ((Token.symbol .assign).spelling ++
              ' ' :: (value.render.toList ++ ';' :: text))) := by
        simp [Stmt.render, Token.spelling, Keyword.text, Symbol.spelling]
      rw [spelled, scan_before_space _ rfl, scan_before_space (.identifier name) writable.1,
        scan_before_space _ rfl]
      rfl
  | returns value =>
      have spelled : (Stmt.returns value).render.toList ++ text =
          (Token.keyword .returnWord).spelling ++ ' ' :: (value.render.toList ++ ';' :: text) := by
        simp [Stmt.render, Token.spelling, Keyword.text]
      rw [spelled, scan_before_space _ rfl]
      rfl
  | expression value => rfl

theorem Stmt.isWritable_value {stmt : Stmt} (writable : stmt.isWritable = true) :
    stmt.value.isWritable = true := by
  cases stmt with
  | bind name value =>
      rw [Stmt.isWritable, Bool.and_eq_true] at writable
      exact writable.2
  | returns value => exact writable
  | expression value => exact writable

/-- A statement is closed by nothing or by a semicolon. -/
theorem Stmt.closing_cases (stmt : Stmt) (text : List Char) :
    stmt.closing = [] ∧ scan (stmt.closing ++ text) = scan text ∨
      stmt.closing ≠ [] ∧ scan (stmt.closing ++ text) = .symbol .semicolon :: scan text := by
  cases stmt with
  | bind name value => exact .inr ⟨nofun, scan_single .semicolon rfl rfl⟩
  | returns value => exact .inr ⟨nofun, scan_single .semicolon rfl rfl⟩
  | expression value => exact .inl ⟨rfl, rfl⟩

theorem Stmt.isApart_closing {text : List Char} (stmt : Stmt) (apart : isApart text = true) :
    isApart (stmt.closing ++ text) = true := by
  cases stmt with
  | bind name value => rfl
  | returns value => rfl
  | expression value => exact apart

/-- The canonical text of a statement is read up to its end, if what follows it can be told from a
continuation. -/
theorem statements_render_iff {stmt : Stmt} {others : List Stmt} {text : List Char}
    (writable : stmt.isWritable = true) (blockFree : stmt.value.isBlockFree = true)
    (apart : isApart text = true) (noSemicolon : frontKind (scan text) ≠ .symbol .semicolon) :
    Statements false (stmt :: others) (scan (stmt.render.toList ++ text)) [] ↔
      (stmt.closing = [] → Detached (scan text)) ∧ Statements false others (scan text) [] := by
  have closed := stmt.closing_cases text
  have placed (slot : Slot) :=
    stmt.value.placed_render (Stmt.isWritable_value writable) blockFree slot _
      (stmt.isApart_closing apart)
  rw [Stmt.scan_render writable]
  constructor
  · intro spelled
    cases spelled with
    | terminated spelled spelledOthers =>
        have ends := (placed .head).rest_unique (statement_opening_iff.1 spelled) rfl
        rcases closed with ⟨_, after⟩ | ⟨isClosed, after⟩
        · rw [← after, ends] at noSemicolon
          exact absurd rfl noSemicolon
        · rw [after, List.cons.injEq] at ends
          exact ⟨fun isOpen => absurd isOpen isClosed, ends.2 ▸ spelledOthers⟩
    | detached spelled detached spelledOthers =>
        have ends := (placed .head).rest_unique (statement_opening_iff.1 spelled)
          detached.continuesNothing
        rcases closed with ⟨_, after⟩ | ⟨_, after⟩
        · rw [← after, ends]
          exact ⟨fun _ => detached, spelledOthers⟩
        · rw [← ends, after] at detached
          exact absurd rfl detached.noSemicolon
  · rintro ⟨detached, spelledOthers⟩
    have spelled := statement_opening_iff.2 (placed .whole)
    rcases closed with ⟨isOpen, after⟩ | ⟨_, after⟩
    · rw [after] at spelled
      exact .detached spelled (detached isOpen) spelledOthers
    · rw [after] at spelled
      exact .terminated spelled spelledOthers

/-- What the first character of a statement says about the token that it starts with. -/
theorem detached_scan_iff {text : List Char} {c : Char} (front : text.head? = some c)
    (opens : opensText c = true) :
    (Detached (scan text) ↔ c ≠ '(' ∧ c ≠ '[') ∧
      frontKind (scan text) ≠ .symbol .semicolon := by
  obtain ⟨others, rfl⟩ : ∃ others, text = c :: others := List.head?_eq_some_iff.1 front
  have detached (detached : Detached (scan (c :: others))) (notParen : c ≠ '(')
      (notBracket : c ≠ '[') : (Detached (scan (c :: others)) ↔ c ≠ '(' ∧ c ≠ '[') ∧
        frontKind (scan (c :: others)) ≠ .symbol .semicolon :=
    ⟨iff_of_true detached ⟨notParen, notBracket⟩, detached.noSemicolon⟩
  simp only [opensText, Bool.or_eq_true, decide_eq_true_eq, List.mem_cons, List.not_mem_nil,
    or_false] at opens
  rcases opens with (wordChar | digit) | rfl | rfl | rfl | rfl
  · refine detached ?_ ?_ ?_
    · rw [scan_wordChar wordChar, ofWord]
      split
      · next word _ => cases word <;> exact ⟨rfl, by rintro ⟨⟩⟩
      · exact ⟨rfl, by rintro ⟨⟩⟩
    · rintro rfl
      exact absurd wordChar (by decide)
    · rintro rfl
      exact absurd wordChar (by decide)
  · refine detached ?_ ?_ ?_
    · rw [scan_digit digit]
      exact ⟨rfl, by rintro ⟨⟩⟩
    · rintro rfl
      exact absurd digit (by decide)
    · rintro rfl
      exact absurd digit (by decide)
  · refine detached ?_ (by decide) (by decide)
    rw [scan_quote]
    exact ⟨rfl, by rintro ⟨⟩⟩
  · rw [scan_single .leftParen rfl rfl]
    refine ⟨iff_of_false ?_ (by decide), by rintro ⟨⟩⟩
    intro detached
    cases detached.continuesNothing
  · rw [scan_single .leftBracket rfl rfl]
    refine ⟨iff_of_false ?_ (by decide), by rintro ⟨⟩⟩
    intro detached
    cases detached.continuesNothing
  · refine detached ?_ (by decide) (by decide)
    rw [scan_single .leftBrace rfl rfl]
    exact ⟨rfl, by rintro ⟨⟩⟩

theorem Stmt.fuses_eq_false_iff {stmt next : Stmt} {c : Char}
    (front : next.render.toList.head? = some c) :
    stmt.fuses next = false ↔ (stmt.closing = [] → c ≠ '(' ∧ c ≠ '[') := by
  cases stmt with
  | bind name value => simp [Stmt.fuses, Stmt.closing]
  | returns value => simp [Stmt.fuses, Stmt.closing]
  | expression value =>
      cases next with
      | bind name value =>
          obtain rfl : 'l' = c := by simpa [Stmt.render] using front
          simp [Stmt.fuses]
      | returns value =>
          obtain rfl : 'r' = c := by simpa [Stmt.render] using front
          simp [Stmt.fuses]
      | expression value =>
          have front : value.render.toList.head? = some c := front
          simp [Stmt.fuses, Stmt.closing, front]

/-- The canonical texts of statements, each on a line of its own. -/
def Block.lines (stmts : List Stmt) : List Char :=
  ['\n'].intercalate (stmts.map fun stmt => stmt.render.toList)

theorem Block.lines_cons_cons (stmt next : Stmt) (others : List Stmt) :
    Block.lines (stmt :: next :: others) =
      stmt.render.toList ++ '\n' :: Block.lines (next :: others) := by
  simp [Block.lines]

theorem Block.head?_lines {stmt : Stmt} (others : List Stmt) {c : Char}
    (front : stmt.render.toList.head? = some c) :
    (Block.lines (stmt :: others)).head? = some c := by
  cases others with
  | nil => simpa [Block.lines] using front
  | cons next others => rw [Block.lines_cons_cons, List.head?_append, front, Option.some_or]

/-- The statements of a program are read back from their lines exactly if no line is taken for a
continuation of the one before it. -/
theorem statements_lines_iff {stmts : List Stmt} (writable : Block.isWritable stmts = true)
    (blockFree : stmts.all (fun stmt => stmt.value.isBlockFree) = true) :
    Statements false stmts (scan (Block.lines stmts)) [] ↔
      stmts.IsChain fun stmt next => stmt.fuses next = false := by
  induction stmts with
  | nil =>
      have ended : scan (Block.lines []) = [] := scan_nil
      rw [ended]
      exact iff_of_true .finished .nil
  | cons stmt others ih =>
      rw [Block.isWritable, Bool.and_eq_true] at writable
      rw [List.all_cons, Bool.and_eq_true] at blockFree
      cases others with
      | nil =>
          have line : Block.lines [stmt] = stmt.render.toList ++ [] := by simp [Block.lines]
          have noSemicolon : frontKind (scan []) ≠ .symbol .semicolon := by
            rw [scan_nil]
            nofun
          rw [line, statements_render_iff writable.1 blockFree.1 rfl noSemicolon, scan_nil]
          exact iff_of_true ⟨fun _ => ⟨rfl, nofun⟩, .finished⟩ (.singleton stmt)
      | cons next others =>
          have nextWritable : next.isWritable = true := by
            have both := writable.2
            rw [Block.isWritable, Bool.and_eq_true] at both
            exact both.1
          obtain ⟨c, front, opens⟩ := Stmt.head?_render nextWritable
          obtain ⟨detached, noSemicolon⟩ := detached_scan_iff (Block.head?_lines others front) opens
          have scanned : scan ('\n' :: Block.lines (next :: others)) =
              scan (Block.lines (next :: others)) := scan_separator rfl
          rw [Block.lines_cons_cons, statements_render_iff writable.1 blockFree.1 rfl
            (by rwa [scanned]), scanned, detached, ih writable.2 blockFree.2,
            ← Stmt.fuses_eq_false_iff front, List.isChain_cons_cons]

end Statements

/-! ## Reading canonical text back -/

theorem Program.toList_render (program : Program) :
    program.render.toList = Block.lines program.statements := by
  simp [Program.render, Block.lines, Function.comp_def]

theorem Program.writable_of_spelledBy {program : Program} {tokens : List Token}
    (spelled : program.SpelledBy tokens) (scannable : Scannable tokens) :
    program.isWritable = true := by
  unfold Program.SpelledBy at spelled
  exact (spelled.writable scannable).1

/-- The canonical text of a program is not blank. -/
theorem Program.parse_render {program : Program} (nonempty : program.statements ≠ [])
    (writable : program.isWritable = true) :
    parse program.render = .ok (parseTokens (scan (Block.lines program.statements))) := by
  have notBlank : ¬ Text.allBlank (Block.lines program.statements) = true := by
    cases listed : program.statements with
    | nil => exact absurd listed nonempty
    | cons stmt others =>
        rw [Program.isWritable, listed, Block.isWritable, Bool.and_eq_true] at writable
        obtain ⟨c, front, opens⟩ := Stmt.head?_render writable.1
        have member : c ∈ Block.lines (stmt :: others) :=
          List.mem_of_head? (Block.head?_lines others front)
        intro blank
        rw [Text.allBlank, List.all_eq_true] at blank
        have visible := not_isBlank_of_opensText opens
        rw [blank c member] at visible
        exact Bool.noConfusion visible
  unfold parse ofSource
  rw [Program.toList_render, if_neg notBlank]
  rfl

/-- Reading the canonical text of a program gives that program back, without an error, exactly if
no line of it is taken for a continuation of the one before. -/
theorem parse_render_iff {source : String} {result : ParseResult}
    (parsed : parse source = .ok result) (noErrors : result.errors = [])
    (blockFree : result.program.isBlockFree = true) :
    parse result.program.render = .ok ⟨result.program, []⟩ ↔
      result.program.statements.IsChain fun stmt next => stmt.fuses next = false := by
  obtain ⟨tokens, scanned, rfl⟩ := tokens_of_parse parsed
  have spelled := spelledBy_of_parseTokens noErrors
  have scannable : Scannable tokens := by
    rw [scan_of_ofSource scanned]
    exact scan_wellFormed _
  have writable := Program.writable_of_spelledBy spelled scannable
  have nonempty : (parseTokens tokens).program.statements ≠ [] := by
    intro empty
    unfold Program.SpelledBy at spelled
    rw [empty] at spelled
    cases spelled
    exact ofSource_ne_nil scanned rfl
  rw [Program.parse_render nonempty writable, Except.ok.injEq, parseTokens_eq_iff]
  exact statements_lines_iff writable blockFree

deriving instance DecidableEq for ParseResult

/-- Three statements; the canonical text of the last one stands after that of an expression. -/
def Program.linesSample (last : Expr) : Program := ⟨[
  .bind "x" (.integer "007"),
  .expression (.dictionary [(.string "a b", .array [.identifier "x"])]),
  .expression last]⟩

theorem parse_render_iff_samples :
    parse "let x = 007; \x7b\"a b\": [x],\x7d; f(x, -1)" =
        .ok ⟨Program.linesSample (.call (.identifier "f")
          [.identifier "x", .unary .negate (.integer "1")]), []⟩ ∧
      parse (Program.linesSample (.call (.identifier "f")
          [.identifier "x", .unary .negate (.integer "1")])).render =
        .ok ⟨Program.linesSample (.call (.identifier "f")
          [.identifier "x", .unary .negate (.integer "1")]), []⟩ ∧
      parse "let x = 007; \x7b\"a b\": [x],\x7d; -x" =
        .ok ⟨Program.linesSample (.unary .negate (.identifier "x")), []⟩ ∧
      parse (Program.linesSample (.unary .negate (.identifier "x"))).render ≠
        .ok ⟨Program.linesSample (.unary .negate (.identifier "x")), []⟩ := by
  have apart : parse "let x = 007; \x7b\"a b\": [x],\x7d; f(x, -1)" =
      .ok ⟨Program.linesSample (.call (.identifier "f")
        [.identifier "x", .unary .negate (.integer "1")]), []⟩ := by decide +kernel
  have fused : parse "let x = 007; \x7b\"a b\": [x],\x7d; -x" =
      .ok ⟨Program.linesSample (.unary .negate (.identifier "x")), []⟩ := by decide +kernel
  refine ⟨apart, ?_, fused, ?_⟩
  · rw [parse_render_iff apart rfl (by decide)]
    decide +kernel
  · rw [ne_eq, parse_render_iff fused rfl (by decide)]
    decide +kernel

end Scriptlet
