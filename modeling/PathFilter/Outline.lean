import PathFilter.Query
import PathFilter.Stream.Tokens

/-! Outlines: values as a developer wants to see them.

An outline shows how a value is built, in one line: a name alone, a name with its
arguments in parentheses, a name with its fields in braces, or a list in
brackets. Texts inside it are quoted, so that two outlines are alike only if the
values are. -/
namespace PathFilter

inductive Outline where
  /-- A name, a number or a quoted text. -/
  | word (text : String)
  /-- A name and an argument. -/
  | wrap (name : String) (inside : Outline)
  /-- A name and fields with names of their own. -/
  | record (name : String) (fields : List (String × Outline))
  | list (elements : List Outline)

namespace Outline

mutual

def text : Outline → String
  | .word text => text
  | .wrap name inside => name ++ "(" ++ inside.text ++ ")"
  | .record name [] => name
  | .record name ((field, value) :: rest) =>
    name ++ " \x7b " ++ field ++ ": " ++ value.text ++ moreFields rest ++ " \x7d"
  | .list [] => "[]"
  | .list (first :: rest) => "[" ++ first.text ++ moreElements rest ++ "]"

def moreFields : List (String × Outline) → String
  | [] => ""
  | (field, value) :: rest => ", " ++ field ++ ": " ++ value.text ++ moreFields rest

def moreElements : List Outline → String
  | [] => ""
  | element :: rest => ", " ++ element.text ++ moreElements rest

end

def quoted (s : String) : Outline := .word (Text.quoted s)

def number (n : Nat) : Outline := .word n.repr

def integer (n : Int64) : Outline := .word n.toInt.repr

/-- A value that may be missing. -/
def option {α : Type} (inside : α → Outline) : Option α → Outline
  | some a => .wrap "Some" (inside a)
  | none => .word "None"

end Outline

open Outline

/-! ### The source and its faults -/

def Reader.outline (r : Reader) : Outline :=
  .record "RuneReader" [
    ("src", .list (r.source.toList.map fun b => number b.toNat)),
    ("offset", number r.offset),
    ("last_width", number r.lastWidth)]

def ReadError.outline : ReadError → Outline
  | .endOfInput => .word "Eof"
  | .invalidUtf8 offset => .record "InvalidUtf8" [("offset", number offset)]
  | .outOfBounds start stop =>
    .record "OutOfBounds" [("start", number start), ("end", number stop)]

def Text.NumeralFault.name : Text.NumeralFault → String
  | .empty => "Empty"
  | .invalidDigit => "InvalidDigit"
  | .tooLarge => "PosOverflow"
  | .tooSmall => "NegOverflow"

def Text.NumeralFault.outline (fault : Text.NumeralFault) : Outline :=
  .record "ParseIntError" [("kind", .word fault.name)]

def LexError.outline : LexError → Outline
  | .read state cause => .record "Read" [("state", quoted state), ("source", cause.outline)]
  | .expected state wanted found =>
    .record "Expected" [
      ("state", quoted state),
      ("expected", quoted wanted),
      ("found", option (fun c => .word (Text.quotedChar c)) found)]
  | .unterminated start => .record "Unterminated" [("start", number start)]
  | .invalidInteger literal fault =>
    .record "InvalidInt" [("literal", quoted literal), ("source", fault.outline)]

/-! ### Tokens -/

def Kind.outline : Kind → Outline
  | .illegal => .word "Illegal"
  | .endOfInput => .word "Eof"
  | .name => .word "String"
  | .integer => .word "Int"
  | .period => .word "Period"
  | .leftBracket => .word "LBrack"
  | .rightBracket => .word "RBrack"
  | .colon => .word "Colon"
  | .question => .word "Question"
  | .comma => .word "Comma"
  | .pipe => .word "Pipe"

def Token.outline : Token → Outline
  | .illegal cause => .wrap "Illegal" cause.outline
  | .name text => .wrap "String" (quoted text)
  | .integer value => .wrap "Int" (.integer value)
  | other => other.kind.outline

def Span.outline (s : Span) : Outline :=
  .record "Span" [("start", number s.start), ("end", number s.stop)]

def Item.outline (i : Item) : Outline :=
  .record "Item" [("token", i.token.outline), ("span", i.span.outline)]

/-! ### Trees and errors -/

namespace Filter

mutual

def outline : Filter → Outline
  | .identity => .word "Identity"
  | .field name => .record "Field" [("name", quoted name)]
  | .index position => .record "Index" [("index", .integer position)]
  | .slice start stop => .record "Slice" [("from", .integer start), ("to", .integer stop)]
  | .iterate => .word "Iterate"
  | .optional inner => .record "Optional" [("inner", inner.outline)]
  | .pipe children => .record "Pipe" [("children", .list (outlines children))]
  | .union children => .record "Union" [("children", .list (outlines children))]

def outlines : List Filter → List Outline
  | [] => []
  | f :: rest => f.outline :: outlines rest

end

end Filter

def Query.outline (q : Query) : Outline :=
  .record "Ast" [("children", .list (Filter.outlines q.children))]

def Stop.outline : Stop → Outline
  | .canceled => .word "Canceled"
  | .deadlineExceeded => .word "DeadlineExceeded"

def ParseError.outline : ParseError → Outline
  | .expectedFilter found offset =>
    .record "ExpectedFilter" [("found", found.outline), ("offset", number offset)]
  | .unexpected wanted found offset =>
    .record "Unexpected" [
      ("expected", quoted wanted), ("found", found.outline), ("offset", number offset)]
  | .unexpectedEnd wanted => .record "UnexpectedEof" [("expected", quoted wanted)]
  | .unsupported found offset =>
    .record "Unsupported" [("found", found.outline), ("offset", number offset)]
  | .lexical offset cause =>
    .record "Lex" [("offset", number offset), ("source", cause.outline)]
  | .streamClosed => .word "StreamClosed"
  | .stopped why => .wrap "Context" why.outline
  | .notAppendable node => .record "NotAppendable" [("node", quoted node)]

/-! ### Contexts and streams -/

def Contexts.outline (t : Contexts) (c : Context) : Outline :=
  .record "Context" [
    ("deadline", option number (t.deadline c)),
    ("err", option Stop.outline (t.stop? c))]

def Lexer.State.outline : Lexer.State → Outline
  | .expression => .word "Expr"
  | .filter => .word "Filter"
  | .bareName => .word "IdentField"
  | .quotedName => .word "QuotedField"
  | .index => .word "Index"
  | .connector => .word "ConnectorOrFilter"

/-- A stream, with the lexer's own context where the stream keeps it. -/
def Tokens.outline (contexts : Contexts) (own : Context) : Tokens → Outline
  | .threaded s =>
    .record "TokenIterator" [
      ("ctx", contexts.outline own),
      ("rx", .word "Receiver \x7b .. \x7d"),
      ("current", option Item.outline s.current)]
  | .inline s =>
    .record "InlineTokens" [
      ("state", option Lexer.State.outline s.next),
      ("current", option Item.outline s.current)]

end PathFilter
