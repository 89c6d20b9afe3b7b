import PathFilter.Text.Classes

/-! No character is of two classes.

White space, letters and digits are three classes that share no character, and no
punctuation of the language is in any of them. Two tables of intervals share no
character if no interval of the one meets an interval of the other, and for given
tables that is decided. -/
namespace PathFilter.Text

/-- No interval of the one table meets one of the other. -/
def Interval.disjoint (a b : List Interval) : Bool :=
  a.all fun i => b.all fun j => i.2 < j.1 || j.2 < i.1

theorem Interval.covers_eq_false {a b : List Interval} (h : disjoint a b = true) {c : Char}
    (hc : covers a c = true) : covers b c = false := by
  rw [Bool.eq_false_iff]
  intro hd
  obtain ⟨i, hi, hlo, hhi⟩ := (covers_iff a c).1 hc
  obtain ⟨j, hj, hlo', hhi'⟩ := (covers_iff b c).1 hd
  simp only [disjoint, List.all_eq_true, Bool.or_eq_true, decide_eq_true_eq] at h
  have := h i hi j hj
  omega

/-- The decimal digits as a table. -/
def digitTable : List Interval := [(0x30, 0x39)]

theorem isDigit_eq_covers (c : Char) : c.isDigit = Interval.covers digitTable c := by
  simp only [Char.isDigit, Interval.covers, digitTable, List.any_cons, List.any_nil, Bool.or_false,
    ge_iff_le, UInt32.le_iff_toNat_le]
  rfl

theorem isBlank_of_isLetter {c : Char} (h : isLetter c = true) : isBlank c = false :=
  Interval.covers_eq_false (a := letterTable) (by decide +kernel) h

theorem isLetter_of_isBlank {c : Char} (h : isBlank c = true) : isLetter c = false :=
  Interval.covers_eq_false (a := blankTable) (by decide +kernel) h

theorem isBlank_of_isDigit {c : Char} (h : c.isDigit = true) : isBlank c = false :=
  Interval.covers_eq_false (a := digitTable) (by decide +kernel) (isDigit_eq_covers c ▸ h)

theorem isDigit_of_isBlank {c : Char} (h : isBlank c = true) : c.isDigit = false := by
  rw [isDigit_eq_covers]
  exact Interval.covers_eq_false (a := blankTable) (by decide +kernel) h

/-- The characters that tokens of one character and quotes are written with. -/
def punctuation : List Char := ['.', '[', ']', ':', '?', ',', '|', '"']

theorem isBlank_of_punctuation {c : Char} (h : c ∈ punctuation) : isBlank c = false := by
  have hall : punctuation.all (fun c => !isBlank c) = true := by decide +kernel
  simpa using List.all_eq_true.1 hall c h

theorem isLetter_of_punctuation {c : Char} (h : c ∈ punctuation) : isLetter c = false := by
  have hall : punctuation.all (fun c => !isLetter c) = true := by decide +kernel
  simpa using List.all_eq_true.1 hall c h

theorem isDigit_of_punctuation {c : Char} (h : c ∈ punctuation) : c.isDigit = false := by
  have hall : punctuation.all (fun c => !c.isDigit) = true := by decide +kernel
  simpa using List.all_eq_true.1 hall c h

theorem ne_of_isLetter {c d : Char} (hc : isLetter c = true) (hd : d ∈ punctuation) : c ≠ d := by
  rintro rfl
  rw [isLetter_of_punctuation hd] at hc
  contradiction

theorem ne_of_isDigit {c d : Char} (hc : c.isDigit = true) (hd : d ∈ punctuation) : c ≠ d := by
  rintro rfl
  rw [isDigit_of_punctuation hd] at hc
  contradiction

end PathFilter.Text
