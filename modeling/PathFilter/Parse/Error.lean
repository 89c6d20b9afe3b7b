import PathFilter.Context
import PathFilter.Token

/-! Why a stream of tokens is no filter expression.

An error names the token that was found and its place, or says that the stream
broke off. A fault the lexer found is passed on as the cause of a syntax error,
and a context that is done is reported as itself. -/
namespace PathFilter

inductive ParseError where
  /-- A filter has to start here, and the token starts none. -/
  | expectedFilter (found : Kind) (offset : Nat)
  /-- Another token has to stand here. -/
  | unexpected (wanted : String) (found : Kind) (offset : Nat)
  /-- The expression ends too early. -/
  | unexpectedEnd (wanted : String)
  /-- A period is followed by a token that no filter has there. -/
  | unsupported (found : Kind) (offset : Nat)
  /-- The lexer found a fault. -/
  | lexical (offset : Nat) (cause : LexError)
  /-- The stream ended without a terminal token. -/
  | streamClosed
  /-- The context is done. -/
  | stopped (why : Stop)
  /-- A node was given a child it cannot have. -/
  | notAppendable (node : String)
deriving DecidableEq

namespace ParseError

def message : ParseError → String
  | .expectedFilter found offset =>
    s!"expected filter expression, found {found.symbol} at byte offset {offset}"
  | .unexpected wanted found offset =>
    s!"expected {wanted}, found {found.symbol} at byte offset {offset}"
  | .unexpectedEnd wanted => s!"unexpected end of input, expected {wanted}"
  | .unsupported found offset =>
    s!"{found.symbol} after '.' is not yet supported (byte offset {offset})"
  | .lexical offset cause => s!"syntax error at byte offset {offset}: {cause.message}"
  | .streamClosed => "token stream closed before end of input"
  | .stopped why => why.message
  | .notAppendable node => s!"{node} node cannot have children"

/-- The messages of the faults underneath, nearest first. -/
def causes : ParseError → List String
  | .lexical _ cause => cause.message :: cause.causes
  | _ => []

end ParseError
end PathFilter
