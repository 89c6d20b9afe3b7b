import PathFilter.Reader
import PathFilter.Text.Numeral
import PathFilter.Text.Quoted

/-! Why an expression cannot be cut into tokens.

The lexer stops at the first fault and reports it once, as the cause its last
token carries. A fault names the state it was found in where the state says what
was wanted there. -/
namespace PathFilter

inductive LexError where
  /-- The source could not be read on. -/
  | read (state : String) (cause : ReadError)
  /-- Something else stood where a character of the grammar is required. -/
  | expected (state wanted : String) (found : Option Char)
  /-- A quoted name was opened at the offset and never closed. -/
  | unterminated (start : Nat)
  /-- A run of digits is no 64-bit integer. -/
  | invalidInteger (literal : String) (fault : Text.NumeralFault)
deriving DecidableEq

namespace LexError

/-- What was found, for a reader of the message. -/
def found : Option Char → String
  | some c => Text.quotedChar c
  | none => "end of input"

def message : LexError → String
  | .read state cause => s!"{state}: {cause.message}"
  | .expected state wanted found =>
    s!"{state}: expected {wanted}, found {LexError.found found}"
  | .unterminated start => s!"unterminated quoted field starting at byte offset {start}"
  | .invalidInteger literal fault => s!"invalid integer {Text.quoted literal}: {fault.message}"

/-- The message of the fault underneath, if there is one. -/
def causes : LexError → List String
  | .read _ cause => [cause.message]
  | .expected .. => []
  | .unterminated _ => []
  | .invalidInteger _ fault => [fault.message]

end LexError
end PathFilter
