import PathFilter.Text.Numeral

/-! The numerals that are only digits.

A run of digits is read from the left and given up as soon as the number is too
large. Digits never make it smaller again, so the run is read if and only if the
whole number is in range (`read_eq_ok_iff`). -/
namespace PathFilter.Text

/-- The number that digits extend a number to. -/
def decimalFrom (n : Nat) (digits : List Char) : Nat :=
  digits.foldl (fun n c => 10 * n + (c.toNat - '0'.toNat)) n

/-- The number that digits write. -/
def decimal (digits : List Char) : Nat := decimalFrom 0 digits

theorem le_decimalFrom (n : Nat) (digits : List Char) : n ≤ decimalFrom n digits := by
  induction digits generalizing n with
  | nil => exact Nat.le_refl n
  | cons c digits ih =>
    have hn : n ≤ 10 * n + (c.toNat - '0'.toNat) := by omega
    exact Nat.le_trans hn (ih _)

namespace Numeral

theorem extend_digits {digits : List Char} (h : ∀ c ∈ digits, c.isDigit = true) (n : Nat)
    (hn : (n : Int) ≤ Int64.maxValue.toInt) :
    extend 1 n digits = if (decimalFrom n digits : Int) ≤ Int64.maxValue.toInt
      then .ok (decimalFrom n digits : Int) else .error .tooLarge := by
  induction digits generalizing n with
  | nil => rw [extend, decimalFrom, List.foldl_nil, if_pos hn]
  | cons c digits ih =>
    have hc : digit? c = some (c.toNat - '0'.toNat) := if_pos (h c (.head _))
    have hnext : (n : Int) * 10 + 1 * ((c.toNat - '0'.toNat : Nat) : Int) =
        ((10 * n + (c.toNat - '0'.toNat) : Nat) : Int) := by
      push_cast
      omega
    have hmin : ¬((10 * n + (c.toNat - '0'.toNat) : Nat) : Int) < Int64.minValue.toInt := by
      have : Int64.minValue.toInt < 0 := by decide
      omega
    simp only [extend, hc, hnext]
    rw [if_neg hmin]
    have hdecimal : decimalFrom n (c :: digits) =
      decimalFrom (10 * n + (c.toNat - '0'.toNat)) digits := rfl
    rw [hdecimal]
    by_cases hlarge : Int64.maxValue.toInt < ((10 * n + (c.toNat - '0'.toNat) : Nat) : Int)
    · have hle := le_decimalFrom (10 * n + (c.toNat - '0'.toNat)) digits
      rw [if_pos hlarge, if_neg (by omega)]
    · rw [if_neg hlarge]
      exact ih (fun d hd => h d (.tail _ hd)) _ (by omega)

/-- A run of digits is no sign. -/
theorem value_digits {digits : List Char} (hne : digits ≠ [])
    (h : ∀ c ∈ digits, c.isDigit = true) : value digits = extend 1 0 digits := by
  unfold value
  split
  · contradiction
  · exact absurd (h '+' (.head _)) (by decide)
  · exact absurd (h '-' (.head _)) (by decide)
  · exact absurd (h '+' (.head _)) (by decide)
  · exact absurd (h '-' (.head _)) (by decide)
  · rfl

/-- A run of digits is given up only if it writes too large a number. -/
theorem value_eq_decimal {digits : List Char} (hne : digits ≠ [])
    (h : ∀ c ∈ digits, c.isDigit = true) :
    value digits = if (decimal digits : Int) ≤ Int64.maxValue.toInt
      then .ok (decimal digits : Int) else .error .tooLarge :=
  (value_digits hne h).trans (extend_digits h 0 (by decide))

/-- A run of digits is read as the integer whose value it writes. -/
theorem read_eq_ok_iff {digits : List Char} (hne : digits ≠ [])
    (h : ∀ c ∈ digits, c.isDigit = true) (n : Int64) :
    read (String.ofList digits) = .ok n ↔ (decimal digits : Int) = n.toInt := by
  have hmax : (0 : Int) ≤ Int64.maxValue.toInt := by decide
  rw [read, String.toList_ofList, value_eq_decimal hne h]
  constructor
  · intro hread
    by_cases hle : (decimal digits : Int) ≤ Int64.maxValue.toInt
    · rw [if_pos hle] at hread
      rw [← Except.ok.inj hread, Int64.toInt_ofInt_of_le (by omega) (Int.lt_add_one_of_le hle)]
    · rw [if_neg hle] at hread
      contradiction
  · intro hn
    have hle : (decimal digits : Int) ≤ Int64.maxValue.toInt := hn ▸ n.toInt_le
    rw [if_pos hle, hn]
    exact congrArg Except.ok n.ofInt_toInt

example : read "007" = .ok 7 ∧ read "9223372036854775807" = .ok Int64.maxValue := ⟨rfl, rfl⟩

/-- The only fault of a run of digits is that the number is too large. -/
theorem tooLarge_of_read {digits : List Char} (hne : digits ≠ [])
    (h : ∀ c ∈ digits, c.isDigit = true) {why : NumeralFault}
    (hread : read (String.ofList digits) = .error why) :
    why = .tooLarge ∧ Int64.maxValue.toInt < (decimal digits : Int) := by
  rw [read, String.toList_ofList, value_eq_decimal hne h] at hread
  by_cases hle : (decimal digits : Int) ≤ Int64.maxValue.toInt
  · rw [if_pos hle] at hread
    contradiction
  · rw [if_neg hle] at hread
    exact ⟨(Except.error.inj hread).symm, by omega⟩

/-- A sign is no digit, and what is too large is so before the text is read to its end. -/
example : read "-9223372036854775809" = .error .tooSmall ∧ read "-" = .error .invalidDigit ∧
    read "99999999999999999999x" = .error .tooLarge ∧ read "1x" = .error .invalidDigit :=
  ⟨rfl, rfl, rfl, rfl⟩

end Numeral
end PathFilter.Text
