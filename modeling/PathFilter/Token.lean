import PathFilter.Lexer.Error

/-! Tokens of the filter language and where they stand.

Names and integers carry their values, and the token that reports a fault
carries its cause; every other token is its kind. A complete stream of items ends
with one terminal token, end of input or a fault, and has none before it. -/
namespace PathFilter

inductive Token where
  /-- The source could not be cut any further. -/
  | illegal (cause : LexError)
  | endOfInput
  /-- A field name, bare or quoted. -/
  | name (text : String)
  /-- An array index or a bound of a slice. -/
  | integer (value : Int64)
  | period
  | leftBracket
  | rightBracket
  | colon
  | question
  | comma
  | pipe
deriving DecidableEq

/-- A token without its value. -/
inductive Kind where
  | illegal
  | endOfInput
  | name
  | integer
  | period
  | leftBracket
  | rightBracket
  | colon
  | question
  | comma
  | pipe
deriving DecidableEq

/-- The name of the kind where tokens are written as data. -/
def Kind.tag : Kind → String
  | .illegal => "ILLEGAL"
  | .endOfInput => "EOF"
  | .name => "STRING"
  | .integer => "INT"
  | .period => "PERIOD"
  | .leftBracket => "LBRACK"
  | .rightBracket => "RBRACK"
  | .colon => "COLON"
  | .question => "QUESTION"
  | .comma => "COMMA"
  | .pipe => "PIPE"

/-- The kind in messages: punctuation as it is written, between single quotes. -/
def Kind.symbol : Kind → String
  | .illegal => "ILLEGAL"
  | .endOfInput => "EOF"
  | .name => "STRING"
  | .integer => "INT"
  | .period => "'.'"
  | .leftBracket => "'['"
  | .rightBracket => "']'"
  | .colon => "':'"
  | .question => "'?'"
  | .comma => "','"
  | .pipe => "'|'"

namespace Token

def kind : Token → Kind
  | .illegal _ => .illegal
  | .endOfInput => .endOfInput
  | .name _ => .name
  | .integer _ => .integer
  | .period => .period
  | .leftBracket => .leftBracket
  | .rightBracket => .rightBracket
  | .colon => .colon
  | .question => .question
  | .comma => .comma
  | .pipe => .pipe

/-- The token ends a stream. -/
def isTerminal (t : Token) : Bool := t.kind = .endOfInput || t.kind = .illegal

end Token

/-- The bytes of the source from `start` up to `stop`. -/
structure Span where
  start : Nat
  stop : Nat
deriving DecidableEq

namespace Span

/-- The span of no bytes at an offset. -/
def empty (offset : Nat) : Span := ⟨offset, offset⟩

def length (s : Span) : Nat := s.stop - s.start

def isEmpty (s : Span) : Bool := s.start = s.stop

end Span

/-- A token and where it was read: the unit of a token stream. The span of a name
leaves its quotes out, and that of a terminal token is empty. -/
structure Item where
  token : Token
  span : Span
deriving DecidableEq

def Item.kind (i : Item) : Kind := i.token.kind

end PathFilter
