import PathFilter.Parse

/-! The log of a parse.

Three things are recorded: the first cancellation of a context, the path of the
lexer, and the error a parse ends with. Records belong to whoever wrote them. A
lexer that is driven by its reader writes into the reader's log, and one that
runs on its own keeps a log of its own.

`journal` is what both logs say after a source was consumed: to its end, up to a
number of items and then given up, or by a parser. -/
namespace PathFilter
open Lexer (Level)

/-- One line of a log. -/
inductive Entry where
  /-- A context was cancelled. -/
  | canceled
  | lexer (record : Lexer.Record)
  /-- A parse failed. -/
  | rejected (error : ParseError)
deriving DecidableEq

namespace Entry

def level : Entry → Level
  | .canceled | .rejected _ => .debug
  | .lexer record => record.level

def message : Entry → String
  | .canceled => "context canceled"
  | .lexer record => record.message
  | .rejected error => s!"builder: {error.message}"

/-- The level and the message. -/
def line (e : Entry) : String := e.level.tag ++ " " ++ e.message

end Entry

/-- How much of a source is consumed, and by whom. -/
inductive Consumption where
  | all
  /-- So many items, and then the stream is given up. -/
  | take (n : Nat)
  | build

/-- Both logs. -/
structure Journal where
  caller : List Entry
  /-- The log of a lexer that runs on its own. -/
  lexer : List Entry
deriving DecidableEq

/-- Consumes a stream and gives it up. The answer is the error, if a parser
consumed it and failed, and the stream. -/
def Tokens.consume (stop : Option Stop) (c : Consumption) (s : Tokens) : Option ParseError × Tokens :=
  match c with
  | .all => (none, (s.drain stop).2.close)
  | .take n => (none, (s.take stop n).2.close)
  | .build =>
    match build (Watched.mk s stop stop) with
    | (.ok _, rest) => (none, rest.tokens.close)
    | (.error e, rest) => (some e, rest.tokens.close)

/-- The logs of a source that is opened and consumed under one context. -/
def journal (driver : Driver) (contexts : Contexts) (context : Context) (source : ByteArray)
    (c : Consumption) : Journal :=
  let stop := contexts.stop? context
  let (error, s) := (Tokens.ofSource driver stop source).consume stop c
  let records := s.records.map Entry.lexer
  let before := contexts.announced.map fun _ => Entry.canceled
  let after := error.toList.map Entry.rejected
  match driver with
  | .threaded => ⟨before ++ after, records⟩
  | .inline => ⟨before ++ records ++ after, []⟩

end PathFilter
