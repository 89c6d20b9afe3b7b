/-! JSON texts.

A value is a text, a whole number, a list or an object whose members keep the
order they were given in. A `Layout` says what goes between the parts of a list
or an object: nothing in the compact one, and in the indented one a line break
before every element, two spaces a level, and a space after the colon. An empty
list is written without a break in both.

In a text, quotes, backslashes and control characters are escaped and everything
else stands for itself. -/
namespace PathFilter.Json

inductive Value where
  | text (s : String)
  | number (n : Int)
  | list (elements : List Value)
  | object (members : List (String × Value))

/-! ### Texts and numbers -/

/-- The digit of a value below sixteen. -/
def hexDigit (n : Nat) : Char := Nat.digitChar n

/-- How a character is written in a text. -/
def escape (c : Char) : List Char :=
  match c with
  | '"' => ['\\', '"']
  | '\\' => ['\\', '\\']
  | '\x08' => ['\\', 'b']
  | '\t' => ['\\', 't']
  | '\n' => ['\\', 'n']
  | '\x0c' => ['\\', 'f']
  | '\r' => ['\\', 'r']
  | c =>
    if c.toNat < 0x20 then
      ['\\', 'u', '0', '0', hexDigit (c.toNat / 16), hexDigit (c.toNat % 16)]
    else [c]

/-- A text between its quotes. -/
def quote (s : String) : List Char := '"' :: s.toList.flatMap escape ++ ['"']

/-! ### Layouts -/

/-- What stands between the parts of a list or an object. -/
structure Layout where
  /-- What comes before an element and before the closing bracket, by depth. -/
  lineBreak : Nat → List Char
  /-- What comes after a name. -/
  colon : List Char

/-- Nothing that could be left out. -/
def Layout.compact : Layout := ⟨fun _ => [], [':']⟩

/-- One element a line, two spaces a level. -/
def Layout.indented : Layout :=
  ⟨fun depth => '\n' :: List.replicate (2 * depth) ' ', [':', ' ']⟩

mutual

/-- The text of a value at a depth. -/
def Value.write (l : Layout) (depth : Nat) : Value → List Char
  | .text s => quote s
  | .number n => n.repr.toList
  | .list [] => ['[', ']']
  | .list (v :: rest) =>
    '[' :: l.lineBreak (depth + 1) ++ v.write l (depth + 1) ++ writeElements l (depth + 1) rest ++
      l.lineBreak depth ++ [']']
  | .object [] => ['\x7b', '\x7d']
  | .object ((name, v) :: rest) =>
    '\x7b' :: l.lineBreak (depth + 1) ++ quote name ++ l.colon ++ v.write l (depth + 1) ++
      writeMembers l (depth + 1) rest ++ l.lineBreak depth ++ ['\x7d']

/-- The elements after the first. -/
def writeElements (l : Layout) (depth : Nat) : List Value → List Char
  | [] => []
  | v :: rest => ',' :: l.lineBreak depth ++ v.write l depth ++ writeElements l depth rest

/-- The members after the first. -/
def writeMembers (l : Layout) (depth : Nat) : List (String × Value) → List Char
  | [] => []
  | (name, v) :: rest =>
    ',' :: l.lineBreak depth ++ quote name ++ l.colon ++ v.write l depth ++
      writeMembers l depth rest

end

/-- The text of a value. -/
def Value.render (l : Layout) (v : Value) : String := String.ofList (v.write l 0)

end PathFilter.Json
