import PathFilter.Text.Printable

/-! Quoted text in messages and descriptions.

A string stands between double quotes and a character between single quotes. The
null, tab, line feed, carriage return and backslash have short escapes, the
enclosing quote is escaped and the other quote is not, and whatever else is not
printable is written as its code point in hexadecimal. -/
namespace PathFilter.Text

/-- The code point in hexadecimal, in the fewest digits. -/
def codePointEscape (c : Char) : List Char :=
  ['\\', 'u', '\x7b'] ++ Nat.toDigits 16 c.toNat ++ ['\x7d']

/-- How a character is written between the given quotes. -/
def escape (quote c : Char) : List Char :=
  match c with
  | '\x00' => ['\\', '0']
  | '\t' => ['\\', 't']
  | '\n' => ['\\', 'n']
  | '\r' => ['\\', 'r']
  | '\\' => ['\\', '\\']
  | c =>
    if c = quote then ['\\', c]
    else if isPrintable c then [c]
    else codePointEscape c

/-- A string between double quotes. -/
def quoted (s : String) : String :=
  String.ofList ('"' :: s.toList.flatMap (escape '"') ++ ['"'])

/-- A character between single quotes. -/
def quotedChar (c : Char) : String :=
  String.ofList ('\'' :: escape '\'' c ++ ['\''])

end PathFilter.Text
