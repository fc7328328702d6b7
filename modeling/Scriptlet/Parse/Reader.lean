import Scriptlet.Token

/-!
# Reading tokens

Computations that consume a list of tokens from the front. Reading distinguishes two sorts of
problems: an *issue* is noted and reading goes on, while a *stop* ends the whole reading, the
issues noted so far being kept. A reader that loops does so within a bound; a spent bound is a stop
of its own, apart from every problem of the text.
-/

namespace Scriptlet

/-- A problem that the reader of a program reports. -/
inductive ParseError where
  /-- A required token is missing; nothing after it is read. -/
  | unexpectedToken (expected found : TokenKind)
  /-- No expression starts with a token of this kind. -/
  | noExpression (found : TokenKind)
  /-- The numeral is too large for a literal. -/
  | invalidInteger (numeral : String)
  deriving DecidableEq, Repr

namespace ParseError

/-- Whether reading ends with this problem. -/
def isFatal : ParseError → Bool
  | unexpectedToken .. => true
  | _ => false

/-- The wording of a problem. -/
def message : ParseError → String
  | unexpectedToken expected found =>
      "Next token should be of type " ++ expected.name ++ " but is instead of type " ++ found.name
  | noExpression found => "No prefix parsing function found for " ++ found.name
  | invalidInteger numeral => "Could not parse " ++ numeral ++ " as integer"

end ParseError

/-- Why reading stopped. -/
inductive Stop where
  | unexpected (expected found : TokenKind)
  | boundSpent
  deriving DecidableEq, Repr

/-- The result of reading: a value with the tokens not consumed, or a stop; and the issues noted
on the way, in order. -/
inductive Reply (α : Type) where
  | done (value : α) (rest : List Token) (issues : List ParseError)
  | stopped (reason : Stop) (issues : List ParseError)

/-- A reader consumes tokens from the front of a list. -/
def Reader (α : Type) : Type := List Token → Reply α

namespace Reply

/-- Puts earlier issues in front. -/
def after {α : Type} (earlier : List ParseError) : Reply α → Reply α
  | done value rest issues => done value rest (earlier ++ issues)
  | stopped reason issues => stopped reason (earlier ++ issues)

end Reply

namespace Reader

variable {α β : Type}

/-- Reads nothing. -/
def pure (value : α) : Reader α := fun tokens => .done value tokens []

/-- Reads with `first` and goes on with what `next` makes of its value. -/
def bind (first : Reader α) (next : α → Reader β) : Reader β := fun tokens =>
  match first tokens with
  | .done value rest issues => (next value rest).after issues
  | .stopped reason issues => .stopped reason issues

instance : Monad Reader where
  pure := Reader.pure
  bind := Reader.bind

/-- Stops reading. -/
def stop (reason : Stop) : Reader α := fun _ => .stopped reason []

/-- Notes an issue. -/
def note (issue : ParseError) : Reader Unit := fun tokens => .done () tokens [issue]

/-- The kind of the token in front. -/
def frontKind : List Token → TokenKind
  | [] => .endOfInput
  | token :: _ => token.kind

/-- Consumes a required symbol. -/
def expect (mark : Symbol) : Reader Unit := fun tokens =>
  match tokens with
  | .symbol found :: rest =>
      if found = mark then .done () rest []
      else .stopped (.unexpected (.symbol mark) (.symbol found)) []
  | _ => .stopped (.unexpected (.symbol mark) (frontKind tokens)) []

/-- Consumes a required identifier. -/
def expectIdentifier : Reader String := fun tokens =>
  match tokens with
  | .identifier name :: rest => .done name rest []
  | _ => .stopped (.unexpected .identifier (frontKind tokens)) []

/-- Consumes a symbol if it is in front, and tells whether it was. -/
def accept (mark : Symbol) : Reader Bool := fun tokens =>
  match tokens with
  | .symbol found :: rest => if found = mark then .done true rest [] else .done false tokens []
  | _ => .done false tokens []

/-- Consumes a keyword if it is in front, and tells whether it was. -/
def acceptKeyword (word : Keyword) : Reader Bool := fun tokens =>
  match tokens with
  | .keyword found :: rest => if found = word then .done true rest [] else .done false tokens []
  | _ => .done false tokens []

/-- Tells whether a symbol is in front, consuming nothing. -/
def sees (mark : Symbol) : Reader Bool := fun tokens =>
  .done (frontKind tokens == .symbol mark) tokens []

end Reader

end Scriptlet
