import PathFilter.Proofs.Lexer.Heard

/-! The lexer, one token at a time.

A state of the lexer can offer several tokens, or none. Seen from the tokens, a
run stands at a `Place` between two of them: what came before decides which
tokens can come next, and the cursor which of them comes. `Place.find` is that
decision, and `Lexes` are all tokens from a place to the last.

The place after a name or a closing bracket remembers the state it was left in,
because bytes that are no character are reported in that state if they stand where
a question mark could. -/
namespace PathFilter.Lexer

/-- What came before the next token. -/
inductive Place where
  /-- Nothing. -/
  | start
  /-- A connector. -/
  | filter
  | period
  /-- An opening bracket. -/
  | bracket
  /-- An integer that can be the first bound of a slice. -/
  | integer
  /-- A colon. -/
  | bound
  /-- What stands between brackets, complete. -/
  | close
  /-- A name or a closing bracket, read in the state. -/
  | selected (within : State)
  /-- A question mark. -/
  | marked
deriving DecidableEq

/-- What is found where a token can stand. -/
inductive Found where
  | token (item : Item) (place : Place) (k : Cursor)
  /-- The last item, the end of the source or a fault. -/
  | last (item : Item)

/-! ### What can be found -/

namespace Found

/-- A token of one character. -/
def single (token : Token) (place : Place) (k : Cursor) : Found :=
  .token ⟨token, k.offset, k.next.offset⟩ place k.next

/-- No character is ahead. -/
def exhausted (state : State) (k : Cursor) (atEnd : Item) : Found :=
  .last (if k.cause = .endOfInput then atEnd else brokenAt state k)

/-- No character is ahead, and none has to be. -/
def ended (state : State) (k : Cursor) : Found :=
  exhausted state k ⟨.endOfInput, .empty k.offset⟩

/-- A character that is looked at is not the one that has to stand here. -/
def unwanted (state : State) (wanted : String) (c : Char) (k : Cursor) : Found :=
  .last (faultAt k.offset (.expected state.label wanted (some c)))

/-- A character that is read is not the one that has to stand here. -/
def refused (state : State) (wanted : String) (k : Cursor) : Found :=
  match k.ahead with
  | c :: _ => unwanted state wanted c k.next
  | [] => exhausted state k (faultAt k.offset (.expected state.label wanted none))

/-- A name from its opening quote on. -/
def quoted (state : State) (place : Place) (k : Cursor) : Found :=
  let closing := k.next.skipWhile (· ≠ '"')
  match closing.ahead with
  | _ :: _ =>
    .token ⟨.name (String.ofList (k.next.ahead.takeWhile (· ≠ '"'))), k.next.offset, closing.offset⟩
      place closing.next
  | [] => exhausted state closing (faultAt closing.offset (.unterminated k.offset))

/-- A name without quotes. -/
def bare (k : Cursor) : Found :=
  let after := k.skipWhile Text.isLetter
  .token ⟨.name (String.ofList (k.ahead.takeWhile Text.isLetter)), k.offset, after.offset⟩
    (.selected .bareName) after

/-- The integer that a run of digits writes. -/
def numeral (place : Place) (k : Cursor) : Found :=
  let after := k.skipWhile Char.isDigit
  let literal := String.ofList (k.ahead.takeWhile Char.isDigit)
  if after.ahead = [] ∧ k.cause ≠ .endOfInput then .last (brokenAt .index after)
  else
    match Text.Numeral.read literal with
    | .ok value => .token ⟨.integer value, k.offset, after.offset⟩ place after
    | .error why => .last (faultAt after.offset (.invalidInteger literal why))

def number (place : Place) (k : Cursor) : Found :=
  if k.ahead.head?.any Char.isDigit then numeral place k else refused .index "digit" k

def closing (k : Cursor) : Found :=
  if k.ahead.head? = some ']' then single .rightBracket (.selected .index) k
  else refused .index "']'" k

/-! Where several tokens can stand, the first character ahead decides how to look. -/

/-- The first filter. -/
def starting : List Char → Cursor → Found
  | c :: _ =>
    match c with
    | '.' => single .period .period
    | c => unwanted .expression "'.'" c
  | [] => ended .expression

/-- What a period can be followed by. -/
def selecting : List Char → Cursor → Found
  | c :: _ =>
    match c with
    | '.' => single .period .period
    | '"' => quoted .quotedName (.selected .quotedName)
    | '[' => single .leftBracket .bracket
    | c => if Text.isLetter c then bare else unwanted .expression "'.'" c
  | [] => ended .filter

/-- What can stand between brackets. -/
def bracketed : List Char → Cursor → Found
  | c :: _ =>
    match c with
    | ']' => single .rightBracket (.selected .index)
    | '"' => quoted .index .close
    | _ => number .integer
  | [] => number .integer

def connecting : List Char → Cursor → Found
  | c :: _ =>
    match c with
    | '|' => single .pipe .filter
    | ',' => single .comma .filter
    | '.' => single .period .period
    | c => unwanted .connector "'|' or ','" c
  | [] => ended .connector

def connective (k : Cursor) : Found := connecting k.ahead k

end Found

open Found

/-- What is found at a place. -/
def Place.find (k : Cursor) : Place → Found
  | .start => starting k.skipBlanks.ahead k.skipBlanks
  | .filter =>
    if k.skipBlanks.ahead.head? = some '.' then single .period .period k.skipBlanks
    else refused .filter "'.'" k.skipBlanks
  | .period => selecting k.skipBlanks.ahead k.skipBlanks
  | .bracket => bracketed k.skipBlanks.ahead k.skipBlanks
  | .integer =>
    if k.skipBlanks.ahead.head? = some ':' then single .colon .bound k.skipBlanks
    else closing k.skipBlanks
  | .bound => number .close k.skipBlanks
  | .close => closing k.skipBlanks
  | .selected within =>
    match k.ahead with
    | '?' :: _ => single .question .marked k
    | [] => if k.cause = .endOfInput then connective k.skipBlanks else .last (brokenAt within k)
    | _ => connective k.skipBlanks
  | .marked => connective k.skipBlanks

theorem Found.connective_of_other {k : Cursor} {c : Char} {rest : List Char}
    (h : k.ahead = c :: rest) (hpipe : c ≠ '|') (hcomma : c ≠ ',') (hperiod : c ≠ '.') :
    connective k = unwanted .connector "'|' or ','" c k := by
  simp only [connective, connecting, h]

theorem Found.selecting_of_other {c : Char} {rest : List Char} (hperiod : c ≠ '.')
    (hquote : c ≠ '"') (hbracket : c ≠ '[') : selecting (c :: rest) =
      if Text.isLetter c then bare else unwanted .expression "'.'" c := by
  simp only [selecting]

theorem Place.find_period_of_other {k : Cursor} {c : Char} {rest : List Char}
    (h : k.skipBlanks.ahead = c :: rest) (hperiod : c ≠ '.') (hquote : c ≠ '"')
    (hbracket : c ≠ '[') :
    Place.period.find k =
      (if Text.isLetter c then bare else unwanted .expression "'.'" c) k.skipBlanks := by
  rw [find, h, selecting_of_other hperiod hquote hbracket]

theorem Place.find_bracket_of_other {k : Cursor} {c : Char} {rest : List Char}
    (h : k.skipBlanks.ahead = c :: rest) (hclose : c ≠ ']') (hquote : c ≠ '"') :
    Place.bracket.find k = number .integer k.skipBlanks := by
  simp only [find, bracketed, h]

/-- Wherever a filter can start, a period starts one. -/
theorem Place.find_of_period {place : Place} {k : Cursor} {rest : List Char}
    (h : k.skipBlanks.ahead = '.' :: rest)
    (hplace : place = .start ∨ place = .filter ∨ place = .period ∨ place = .marked) :
    place.find k = single .period .period k.skipBlanks := by
  rcases hplace with rfl | rfl | rfl | rfl
  · simp only [find, starting, h]
  · simp only [find, h, List.head?_cons, if_true]
  · simp only [find, selecting, h]
  · simp only [find, connective, connecting, h]

/-- The items from a place to the last. -/
inductive Lexes : Place → Cursor → List Item → Prop where
  | token {place : Place} {k : Cursor} {item : Item} {next : Place} {after : Cursor}
      {items : List Item} (found : place.find k = .token item next after)
      (rest : Lexes next after items) : Lexes place k (item :: items)
  | last {place : Place} {k : Cursor} {item : Item} (found : place.find k = .last item) :
      Lexes place k [item]

namespace Lexes

/-- Two places that find the same have the same items. -/
theorem congr {place other : Place} {k j : Cursor} {items : List Item}
    (h : place.find k = other.find j) (l : Lexes other j items) : Lexes place k items := by
  cases l with
  | token found rest => exact .token (h.trans found) rest
  | last found => exact .last (h.trans found)

/-- A place has one list of items. -/
theorem unique {place : Place} {k : Cursor} {items others : List Item} (l : Lexes place k items)
    (m : Lexes place k others) : items = others := by
  induction l generalizing others with
  | token found rest ih =>
    cases m with
    | token found' rest' =>
      cases found.symm.trans found'
      rw [ih rest']
    | last found' => cases found.symm.trans found'
  | last found =>
    cases m with
    | token found' rest' => cases found.symm.trans found'
    | last found' =>
      cases found.symm.trans found'
      rfl

end Lexes

end PathFilter.Lexer
