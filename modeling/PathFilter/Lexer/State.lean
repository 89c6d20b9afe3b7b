import PathFilter.Context
import PathFilter.Token

/-! The states of the lexer and the records it keeps.

A state says what is expected next. The lexer runs one state after another, and
each leaves a record when it is entered, so that the records of a run are its
path through the states and the source. -/
namespace PathFilter.Lexer

/-- What is expected next. -/
inductive State where
  /-- The start of an expression. -/
  | expression
  /-- The period of a filter. -/
  | filter
  /-- A bare field name. -/
  | bareName
  /-- A field name between quotes. -/
  | quotedName
  /-- An index, a slice or a name between brackets. -/
  | index
  /-- A connector, the next filter or the end. -/
  | connector
deriving DecidableEq

/-- The state in messages. -/
def State.label : State → String
  | .expression => "expression-start"
  | .filter => "filter-start"
  | .bareName => "ident-field"
  | .quotedName => "quoted-field"
  | .index => "index"
  | .connector => "connector-or-filter"

/-- How much a record matters. -/
inductive Level where
  | trace
  | debug
deriving DecidableEq

def Level.tag : Level → String
  | .trace => "TRACE"
  | .debug => "DEBUG"

/-- What the lexer records of a run. -/
inductive Record where
  /-- A state was entered at a byte offset. -/
  | entered (state : State) (offset : Nat)
  /-- A state gave up because nobody wanted its items. -/
  | aborted (state : State)
  /-- A state found a fault. -/
  | illegal (cause : LexError)
  /-- A state was not entered because the context was done. -/
  | stopping (state : State) (why : Stop)
  /-- The run came to an end at a byte offset. -/
  | finished (offset : Nat)
deriving DecidableEq

namespace Record

def level : Record → Level
  | .entered .. | .finished _ => .trace
  | .aborted _ | .illegal _ | .stopping .. => .debug

def message : Record → String
  | .entered state offset => s!"lexer: {state.label} at byte offset {offset}"
  | .aborted state => s!"lexer: {state.label} aborted"
  | .illegal cause => s!"lexer: illegal input: {cause.message}"
  | .stopping state why => s!"lexer: stopping before {state.label}: {why.message}"
  | .finished offset => s!"lexer: run finished at byte offset {offset}"

end Record
end PathFilter.Lexer
