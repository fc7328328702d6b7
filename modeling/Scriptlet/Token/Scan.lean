import Scriptlet.Text.Blank
import Scriptlet.Token

/-!
# Scanning

Reading a text as a list of tokens. Every character is used: separators stand between tokens,
runs of digits and of word characters are taken as long as possible, a string reaches to the next
quote or to the end of the text, and a character that starts nothing else is an illegal token of
its own. The only text that cannot be scanned is a blank one.
-/

namespace Scriptlet

/-- Why a text has no tokens. -/
inductive ScanError where
  | emptyInput
  deriving DecidableEq, Repr

/-- The wording of a scanning failure. -/
def ScanError.message : ScanError → String
  | emptyInput => "Cannot lex empty input"

namespace Token

/-- The characters of words: ASCII letters and the underscore. -/
def isWordChar (c : Char) : Bool := c.isAlpha || c == '_'

/-- Everything but the quote that ends a string. -/
def isStringChar (c : Char) : Bool := c != '"'

/-- The symbol at the front of a text, two characters if they form one. -/
def symbolAt? (c : Char) : List Char → Option (Symbol × List Char)
  | [] => (Symbol.ofChar? c).map (·, [])
  | d :: rest =>
      match Symbol.ofPair? c d with
      | some mark => some (mark, rest)
      | none => (Symbol.ofChar? c).map (·, d :: rest)

/-- What follows a symbol is a part of what followed its first character. -/
theorem length_of_symbolAt? {c : Char} {rest remaining : List Char} {mark : Symbol}
    (found : symbolAt? c rest = some (mark, remaining)) : remaining.length ≤ rest.length := by
  unfold symbolAt? at found
  split at found
  · simp only [Option.map_eq_some_iff, Prod.mk.injEq] at found
    obtain ⟨_, _, _, rfl⟩ := found
    exact Nat.le_refl _
  · split at found
    · simp only [Option.some.injEq, Prod.mk.injEq] at found
      obtain ⟨_, rfl⟩ := found
      exact Nat.le_succ _
    · simp only [Option.map_eq_some_iff, Prod.mk.injEq] at found
      obtain ⟨_, _, _, rfl⟩ := found
      exact Nat.le_refl _

/-- Cutting a run off the front does not make a text longer. -/
theorem length_dropWhile_le (p : Char → Bool) (text : List Char) :
    (text.dropWhile p).length ≤ text.length :=
  (List.dropWhile_sublist p).length_le

/-- The tokens of a text. -/
def scan : List Char → List Token
  | [] => []
  | c :: rest =>
      if c.isWhitespace then
        scan rest
      else if c.isDigit then
        .integer (String.ofList (c :: rest.takeWhile Char.isDigit)) ::
          scan (rest.dropWhile Char.isDigit)
      else if isWordChar c then
        ofWord (String.ofList (c :: rest.takeWhile isWordChar)) :: scan (rest.dropWhile isWordChar)
      else if c = '"' then
        .string (String.ofList (rest.takeWhile isStringChar)) ::
          scan (rest.dropWhile isStringChar).tail
      else
        match _found : symbolAt? c rest with
        | some (mark, remaining) => .symbol mark :: scan remaining
        | none => .illegal c :: scan rest
  termination_by text => text.length
  decreasing_by
    · simp
    · simpa using Nat.lt_succ_of_le (length_dropWhile_le Char.isDigit rest)
    · simpa using Nat.lt_succ_of_le (length_dropWhile_le isWordChar rest)
    · have shorter := length_dropWhile_le isStringChar rest
      simp only [List.length_tail, List.length_cons]
      omega
    · simpa using Nat.lt_succ_of_le (length_of_symbolAt? _found)
    · simp

/-- The tokens of a source text, which must not be blank. -/
def ofSource (source : String) : Except ScanError (List Token) :=
  if Text.allBlank source.toList then .error .emptyInput else .ok (scan source.toList)

end Token

end Scriptlet
