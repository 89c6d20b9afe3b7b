import PathFilter.Lexer.Scan

/-! The states of the lexer at work.

Each state reads a stretch of the source, offers its tokens, and names the state
that comes next, or none at the end of the source. White space may stand between
tokens, with one exception: a question mark belongs to the token it follows
directly. A period that no name and no bracket follows is a filter of its own,
and what comes after it is up to the start of an expression.

`step` runs one state and settles how it ended: a fault becomes the last item,
and a halt nobody listens to becomes a record. -/
namespace PathFilter.Lexer
open Scan

/-! ### Parts of a filter -/

/-- The end of the source, as the last token. -/
def finish : Scan (Option State) := do
  let start ← offset
  emit .endOfInput start
  return none

/-- A question mark, if one follows directly. -/
def optionalMark : Scan Unit := do
  let found ← peek
  if found = some '?' then
    let start ← offset
    bump
    emit .question start

/-- A filter is complete but for its question mark. -/
def finishFilter : Scan (Option State) := do
  optionalMark
  return some .connector

/-- A name that is complete, and the quote behind it. -/
def closeName (start : Nat) : Scan Unit := do
  let text ← textSince start
  emit (.name text) start
  bump

/-- A name between quotes. There are no escapes: it ends at the next quote. -/
def quotedName : Scan Unit := do
  let opening ← offset
  expect '"' "'\"'"
  let start ← offset
  skipWhile (· ≠ '"')
  let found ← peek
  if found = none then illegal (.unterminated opening)
  closeName start

/-- The digits after the first, and the number they write. -/
def moreDigits (start : Nat) : Scan Unit := do
  skipWhile Char.isDigit
  let _ ← peek
  let literal ← textSince start
  match Text.Numeral.read literal with
  | .ok value => emit (.integer value) start
  | .error fault => illegal (.invalidInteger literal fault)

/-- A run of digits. A sign is no part of it. -/
def integer : Scan Unit := do
  let start ← offset
  let found ← read
  if !found.any Char.isDigit then refuse "digit" found
  moreDigits start

/-- An index, or the two bounds of a slice. -/
def bounds : Scan Unit := do
  integer
  skipBlanks
  let found ← peek
  if found = some ':' then
    let start ← offset
    bump
    emit .colon start
    skipBlanks
    integer

/-- The bracket that closes an index. -/
def closeIndex : Scan (Option State) := do
  skipBlanks
  let start ← offset
  expect ']' "']'"
  emit .rightBracket start
  finishFilter

/-- Where a period leads. -/
def leavePeriod : Scan (Option State) := do
  skipBlanks
  match ← peek with
  | some '"' => return some .quotedName
  | some '[' => return some .index
  | some c => return some (if Text.isLetter c then .bareName else .expression)
  | none => finish

/-! ### The states -/

def expression : Scan (Option State) := do
  skipBlanks
  match ← peek with
  | some '.' => return some .filter
  | none => finish
  | found => refuse "'.'" found

def filter : Scan (Option State) := do
  skipBlanks
  let start ← offset
  expect '.' "'.'"
  emit .period start
  leavePeriod

/-- The name ends at the first character that is no letter, and also at bytes that
are no character: whoever looks next reports those. -/
def bareField : Scan (Option State) := do
  let start ← offset
  check
  skipWhile Text.isLetter
  let text ← textSince start
  emit (.name text) start
  finishFilter

def quotedField : Scan (Option State) := do
  quotedName
  finishFilter

def index : Scan (Option State) := do
  skipBlanks
  let start ← offset
  expect '[' "'['"
  emit .leftBracket start
  skipBlanks
  match ← peek with
  | some ']' => closeIndex
  | some '"' =>
    quotedName
    closeIndex
  | _ =>
    bounds
    closeIndex

def connector : Scan (Option State) := do
  skipBlanks
  let start ← offset
  match ← peek with
  | some '|' =>
    bump
    emit .pipe start
    return some .filter
  | some ',' =>
    bump
    emit .comma start
    return some .filter
  | some '.' => return some .filter
  | none => finish
  | found => refuse "'|' or ','" found

/-- What a state does. -/
def body : State → Scan (Option State)
  | .expression => expression
  | .filter => filter
  | .bareName => bareField
  | .quotedName => quotedField
  | .index => index
  | .connector => connector

/-! ### One step -/

/-- Runs one state. It answers with the state to run next, none if the run is over,
and the reader that state starts from. -/
def step (stopped : Bool) (state : State) (r : Reader) : Dialogue (Option State × Reader) :=
  .note (.entered state r.offset) <| ((body state).run ⟨state, stopped⟩ r).bind fun
    | (.ok next, after) => .done (next, after)
    | (.error .aborted, after) => .note (.aborted state) (.done (none, after))
    | (.error (.illegal cause), after) =>
      .note (.illegal cause) <|
        .offer ⟨.illegal cause, .empty after.offset⟩ fun _ => .done (none, after)

end PathFilter.Lexer
