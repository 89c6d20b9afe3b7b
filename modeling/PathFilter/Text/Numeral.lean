/-! Decimal numerals of 64-bit signed integers.

A numeral is an optional sign and at least one ASCII digit, leading zeros
allowed. It is read from the left and the first fault decides: a character that
is not a digit, or a digit that carries the number out of the 64-bit range. So
`99999999999999999999x` is too large before its `x` is looked at. -/
namespace PathFilter.Text

/-- Why a text is no numeral of a 64-bit signed integer. -/
inductive NumeralFault where
  | empty
  | invalidDigit
  | tooLarge
  | tooSmall
deriving DecidableEq

def NumeralFault.message : NumeralFault → String
  | .empty => "cannot parse integer from empty string"
  | .invalidDigit => "invalid digit found in string"
  | .tooLarge => "number too large to fit in target type"
  | .tooSmall => "number too small to fit in target type"

namespace Numeral

/-- The value of a decimal digit. -/
def digit? (c : Char) : Option Nat :=
  if c.isDigit then some (c.toNat - '0'.toNat) else none

/-- Extends a number by digits. Each digit moves it away from zero, up if `sign`
is 1 and down if it is -1, and it must stay in range all the way. -/
def extend (sign value : Int) : List Char → Except NumeralFault Int
  | [] => .ok value
  | c :: rest =>
    match digit? c with
    | none => .error .invalidDigit
    | some d =>
      let next := value * 10 + sign * d
      if Int64.maxValue.toInt < next then .error .tooLarge
      else if next < Int64.minValue.toInt then .error .tooSmall
      else extend sign next rest

/-- The number a list of characters writes. A sign alone lacks its digits. -/
def value : List Char → Except NumeralFault Int
  | [] => .error .empty
  | ['+'] | ['-'] => .error .invalidDigit
  | '+' :: digits => extend 1 0 digits
  | '-' :: digits => extend (-1) 0 digits
  | digits => extend 1 0 digits

/-- The 64-bit integer a text writes. -/
def read (text : String) : Except NumeralFault Int64 :=
  (value text.toList).map Int64.ofInt

end Numeral
end PathFilter.Text
