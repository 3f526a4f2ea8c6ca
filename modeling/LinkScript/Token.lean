import LinkScript.Bytes

/-!
# Tokens of a linker script

The vocabulary of the scanner.  A `Token` is a kind together with the span of source bytes it
covers; a keyword is a kind of its own for each `Command`.  `TokenType` forgets which keyword it
is: the grammar asks for types, and error messages name them.

A `Lexeme` is a token as the scanner found it: with its bytes and with its line and column.
-/

namespace LinkScript

/-- The words that direct the linker. -/
inductive Command where
  | outputFormat
  | input
  | group
  | asNeeded
  deriving Repr, DecidableEq

namespace Command

/-- The spelling of a keyword. -/
def name : Command → String
  | outputFormat => "OUTPUT_FORMAT"
  | input => "INPUT"
  | group => "GROUP"
  | asNeeded => "AS_NEEDED"

/-- Every keyword. -/
def all : List Command := [outputFormat, input, group, asNeeded]

/-- The keyword that a text spells, case included. -/
def ofName? (text : String) : Option Command :=
  all.find? (·.name == text)

end Command

/-- The types of tokens. -/
inductive TokenType where
  | eof
  | invalid
  | newline
  | lparen
  | rparen
  | lbrace
  | rbrace
  | comment
  | command
  | literal
  deriving Repr, DecidableEq

namespace TokenType

/-- The name of a type in messages. -/
def name : TokenType → String
  | eof => "eof"
  | invalid => "invalid"
  | newline => "newline"
  | lparen => "lparen"
  | rparen => "rparen"
  | lbrace => "lbrace"
  | rbrace => "rbrace"
  | comment => "comment"
  | command => "command"
  | literal => "literal"

end TokenType

/-- What a token is: a type, and for a keyword which one. -/
inductive TokenKind where
  | eof
  | invalid
  | newline
  | lparen
  | rparen
  | lbrace
  | rbrace
  | comment
  | command (keyword : Command)
  | literal
  deriving Repr, DecidableEq

/-- The type of a kind. -/
def TokenKind.type : TokenKind → TokenType
  | eof => .eof
  | invalid => .invalid
  | newline => .newline
  | lparen => .lparen
  | rparen => .rparen
  | lbrace => .lbrace
  | rbrace => .rbrace
  | comment => .comment
  | command _ => .command
  | literal => .literal

/-- The keyword of a kind, if it is one. -/
def TokenKind.command? : TokenKind → Option Command
  | command keyword => some keyword
  | _ => none

/-- A piece of a source: what it is and which bytes it covers. -/
structure Token where
  kind : TokenKind
  span : Span
  deriving Repr, DecidableEq

/-- The type of a token. -/
def Token.type (token : Token) : TokenType := token.kind.type

/-- A place in a source for people to read: the line and the byte column, both from zero.  The
places of lexemes are never negative, but whoever reports a diagnostic may count differently. -/
structure Position where
  line : Int
  column : Int
  deriving Repr, DecidableEq

/-- A token found in a source, with its bytes there and its place. -/
structure Lexeme extends Token where
  bytes : Bytes
  position : Position
  deriving Repr, DecidableEq

/-- The text of a lexeme. -/
def Lexeme.text (lexeme : Lexeme) : String := Text.Utf8.decode lexeme.bytes

end LinkScript
