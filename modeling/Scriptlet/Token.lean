/-!
# Tokens

The lexical units of the language. A token carries exactly the text that its kind leaves open:
keywords and symbols have one spelling each, so a keyword with a foreign spelling cannot be
written down. The end of the input is a kind, for use in messages, but not a token.
-/

namespace Scriptlet

/-- The reserved words. -/
inductive Keyword where
  | letWord
  | functionWord
  | trueWord
  | falseWord
  | ifWord
  | elseWord
  | returnWord
  deriving DecidableEq, Repr

namespace Keyword

/-- The spelling of a reserved word. -/
def text : Keyword → String
  | letWord => "let"
  | functionWord => "fn"
  | trueWord => "true"
  | falseWord => "false"
  | ifWord => "if"
  | elseWord => "else"
  | returnWord => "return"

/-- The reserved words in the order in which they are listed to the user. -/
def all : List Keyword :=
  [letWord, functionWord, trueWord, falseWord, ifWord, elseWord, returnWord]

/-- The reserved word with a given spelling. -/
def ofText? (word : String) : Option Keyword := all.find? fun keyword => keyword.text == word

/-- The name of a reserved word in messages. -/
def name : Keyword → String
  | letWord => "LET"
  | functionWord => "FUNCTION"
  | trueWord => "TRUE"
  | falseWord => "FALSE"
  | ifWord => "IF"
  | elseWord => "ELSE"
  | returnWord => "RETURN"

@[simp] theorem ofText?_text (keyword : Keyword) : ofText? keyword.text = some keyword := by
  cases keyword <;> decide

/-- A word is found only under its own spelling. -/
theorem text_of_ofText? {word : String} {keyword : Keyword} (found : ofText? word = some keyword) :
    keyword.text = word := by
  simpa using List.find?_some found

end Keyword

/-- Operators and delimiters. -/
inductive Symbol where
  | assign
  | plus
  | minus
  | bang
  | asterisk
  | slash
  | less
  | greater
  | equal
  | notEqual
  | comma
  | colon
  | semicolon
  | leftParen
  | rightParen
  | leftBrace
  | rightBrace
  | leftBracket
  | rightBracket
  deriving DecidableEq, Repr

namespace Symbol

/-- The characters of a symbol. -/
def spelling : Symbol → List Char
  | assign => ['=']
  | plus => ['+']
  | minus => ['-']
  | bang => ['!']
  | asterisk => ['*']
  | slash => ['/']
  | less => ['<']
  | greater => ['>']
  | equal => ['=', '=']
  | notEqual => ['!', '=']
  | comma => [',']
  | colon => [':']
  | semicolon => [';']
  | leftParen => ['(']
  | rightParen => [')']
  | leftBrace => ['\x7b']
  | rightBrace => ['\x7d']
  | leftBracket => ['[']
  | rightBracket => [']']

/-- The spelling of a symbol. -/
def text (symbol : Symbol) : String := String.ofList symbol.spelling

/-- All symbols, operators first. -/
def all : List Symbol :=
  [assign, plus, minus, bang, asterisk, slash, less, greater, equal, notEqual, comma, colon,
    semicolon, leftParen, rightParen, leftBrace, rightBrace, leftBracket, rightBracket]

/-- The symbol written as one given character. -/
def ofChar? (c : Char) : Option Symbol := all.find? fun symbol => symbol.spelling == [c]

/-- The symbol written as two given characters. -/
def ofPair? (c d : Char) : Option Symbol := all.find? fun symbol => symbol.spelling == [c, d]

/-- The name of a symbol in messages. -/
def name : Symbol → String
  | assign => "ASSIGN"
  | plus => "PLUS"
  | minus => "MINUS"
  | bang => "BANG"
  | asterisk => "ASTERISK"
  | slash => "SLASH"
  | less => "LESS_THAN"
  | greater => "GREATER_THAN"
  | equal => "EQUAL"
  | notEqual => "NOT_EQUAL"
  | comma => "COMMA"
  | colon => "COLON"
  | semicolon => "SEMICOLON"
  | leftParen => "LPAREN"
  | rightParen => "RPAREN"
  | leftBrace => "LBRACE"
  | rightBrace => "RBRACE"
  | leftBracket => "LBRACKET"
  | rightBracket => "RBRACKET"

theorem mem_all (symbol : Symbol) : symbol ∈ all := by
  cases symbol <;> simp [all]

/-- A symbol is found only under its own spelling. -/
theorem spelling_of_ofChar? {c : Char} {symbol : Symbol} (found : ofChar? c = some symbol) :
    symbol.spelling = [c] := by
  simpa using List.find?_some found

/-- A two-character symbol is found only under its own spelling. -/
theorem spelling_of_ofPair? {c d : Char} {symbol : Symbol} (found : ofPair? c d = some symbol) :
    symbol.spelling = [c, d] := by
  simpa using List.find?_some found

end Symbol

/-- What kind of token stands at a position, the end of the input included. -/
inductive TokenKind where
  | illegal
  | endOfInput
  | identifier
  | integer
  | string
  | keyword (word : Keyword)
  | symbol (mark : Symbol)
  deriving DecidableEq, Repr

namespace TokenKind

/-- The name of a kind in messages. -/
def name : TokenKind → String
  | illegal => "ILLEGAL"
  | endOfInput => "EOF"
  | identifier => "IDENT"
  | integer => "INT"
  | string => "STRING"
  | keyword word => word.name
  | symbol mark => mark.name

/-- The spelling that all tokens of a kind share; empty when the text is open. -/
def text : TokenKind → String
  | keyword word => word.text
  | symbol mark => mark.text
  | _ => ""

/-- All kinds. -/
def all : List TokenKind :=
  [illegal, endOfInput, identifier, integer, string] ++ Keyword.all.map keyword ++
    Symbol.all.map symbol

/-- The kind with a given name. -/
def ofName? (name : String) : Option TokenKind := all.find? fun kind => kind.name == name

/-- The kind that a word is read as: a reserved word or an identifier. -/
def ofWord (word : String) : TokenKind :=
  match Keyword.ofText? word with
  | some reserved => keyword reserved
  | none => identifier

/-- A kind and a text in the form in which tokens are listed. -/
def describe (kind : TokenKind) (literal : String) : String :=
  "Token\x7b" ++ kind.name ++ ", " ++ literal ++ "\x7d"

end TokenKind

/-- A lexical unit. The text of a string is what stands between its quotes. -/
inductive Token where
  | illegal (character : Char)
  | identifier (name : String)
  | integer (numeral : String)
  | string (text : String)
  | keyword (word : Keyword)
  | symbol (mark : Symbol)
  deriving DecidableEq, Repr

namespace Token

/-- The kind of a token. -/
def kind : Token → TokenKind
  | illegal _ => .illegal
  | identifier _ => .identifier
  | integer _ => .integer
  | string _ => .string
  | keyword word => .keyword word
  | symbol mark => .symbol mark

/-- The text of a token; a string's quotes are not part of it. -/
def literal : Token → String
  | illegal character => String.ofList [character]
  | identifier name => name
  | integer numeral => numeral
  | string text => text
  | keyword word => word.text
  | symbol mark => mark.text

/-- The token that a word is read as. -/
def ofWord (word : String) : Token :=
  match Keyword.ofText? word with
  | some reserved => keyword reserved
  | none => identifier word

/-- A token in the form in which tokens are listed. -/
def describe (token : Token) : String := token.kind.describe token.literal

@[simp] theorem literal_ofWord (word : String) : (ofWord word).literal = word := by
  unfold ofWord
  split
  · next reserved found => exact Keyword.text_of_ofText? found
  · rfl

end Token

end Scriptlet
