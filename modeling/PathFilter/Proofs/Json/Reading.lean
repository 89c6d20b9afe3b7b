import PathFilter.Json.Value

/-! Reading JSON texts.

A text is read in two passes. The first cuts it into lexemes and leaves white space out; a
`Mode` is what the characters so far have begun. The second puts values together from
lexemes; a `Frame` is a list or an object that is still open. Both go by one character or one
lexeme at a time and never look back.

Two layouts of a value have the same lexemes (`lexemes_write`), and the value is put together
from them again (`foldlM_lexemes`). So every layout whose breaks are white space is read back
(`parse_render`).

What is read is the part of JSON that has values here: no fractions, no exponents and no
literals. A number may begin with zeros, and half of a surrogate pair is no character. -/
namespace PathFilter.Json

inductive Lexeme where
  | openList
  | closeList
  | openObject
  | closeObject
  | comma
  | colon
  | text (s : String)
  | number (n : Int)
deriving DecidableEq

/-! ### From characters to lexemes -/

/-- What the characters so far have begun. -/
inductive Mode where
  | between
  /-- A text, without its quotes and escapes. -/
  | text (read : List Char)
  | escape (read : List Char)
  /-- An escape by a code, so many digits of which are still to come. -/
  | code (read : List Char) (value missing : Nat)
  | number (written : List Char)

/-- The lexemes of one character. -/
def mark? : Char → Option Lexeme
  | '[' => some .openList
  | ']' => some .closeList
  | '\x7b' => some .openObject
  | '\x7d' => some .closeObject
  | ',' => some .comma
  | ':' => some .colon
  | _ => none

def isSpace (c : Char) : Bool := c = ' ' || c = '\n' || c = '\t' || c = '\r'

/-- The character that an escape of one letter stands for. -/
def unescape? : Char → Option Char
  | '"' => some '"'
  | '\\' => some '\\'
  | '/' => some '/'
  | 'b' => some '\x08'
  | 'f' => some '\x0c'
  | 'n' => some '\n'
  | 'r' => some '\r'
  | 't' => some '\t'
  | _ => none

def hexValue? (c : Char) : Option Nat :=
  if c.isDigit then some (c.toNat - '0'.toNat)
  else if 'a' ≤ c ∧ c ≤ 'f' then some (c.toNat - 'a'.toNat + 10)
  else if 'A' ≤ c ∧ c ≤ 'F' then some (c.toNat - 'A'.toNat + 10)
  else none

/-- The number that digits write, with a sign or without. -/
def numeral? : List Char → Option Int
  | [] | ['-'] => none
  | '-' :: digits => some (-Nat.ofDigitChars 10 digits 0)
  | digits => some (Nat.ofDigitChars 10 digits 0)

namespace Mode

/-- What a character begins: the lexeme that it is, or a lexeme that goes on. -/
def begin (c : Char) : Option (List Lexeme × Mode) :=
  if c.isDigit ∨ c = '-' then some ([], .number [c])
  else if c = '"' then some ([], .text [])
  else if isSpace c then some ([], .between)
  else (mark? c).map fun m => ([m], .between)

/-- What the next character does: the lexemes that end with it, and what is begun then. -/
def step : Mode → Char → Option (List Lexeme × Mode)
  | .between, c => begin c
  | .text read, c =>
    if c = '"' then some ([.text (String.ofList read)], .between)
    else if c = '\\' then some ([], .escape read)
    else if c.toNat < 0x20 then none
    else some ([], .text (read ++ [c]))
  | .escape read, c =>
    if c = 'u' then some ([], .code read 0 4)
    else (unescape? c).map fun d => ([], .text (read ++ [d]))
  | .code read value missing, c =>
    (hexValue? c).bind fun d =>
      if missing ≠ 1 then some ([], .code read (16 * value + d) (missing - 1))
      else if (16 * value + d).isValidChar then
        some ([], .text (read ++ [Char.ofNat (16 * value + d)]))
      else none
  | .number written, c =>
    if c.isDigit then some ([], .number (written ++ [c]))
    else (numeral? written).bind fun n =>
      (begin c).map fun (found, next) => (.number n :: found, next)

/-- The lexemes that end with the text. -/
def finish : Mode → Option (List Lexeme)
  | .between => some []
  | .number written => (numeral? written).map fun n => [.number n]
  | _ => none

end Mode

/-- The lexemes of a text, from a mode on. -/
def lexemes : List Char → Mode → Option (List Lexeme)
  | [], mode => mode.finish
  | c :: rest, mode => (mode.step c).bind fun (found, next) => (lexemes rest next).map (found ++ ·)

/-! ### From lexemes to values -/

/-- A list or an object that is open, with what was read of it. -/
inductive Frame where
  | list (before : List Value)
  /-- The value of the name is being read. -/
  | object (before : List (String × Value)) (name : String)

/-- What comes next. -/
inductive Stage where
  /-- A value, or the end of a list that was just opened. -/
  | due (opened : Bool)
  /-- A name, or the end of an object that was just opened. -/
  | key (before : List (String × Value)) (opened : Bool)
  | colon (before : List (String × Value)) (name : String)
  /-- A value was read: the next one, or the end. -/
  | read (v : Value)

def Stage.step : Stage × List Frame → Lexeme → Option (Stage × List Frame)
  | (.due _, frames), .text s => some (.read (.text s), frames)
  | (.due _, frames), .number n => some (.read (.number n), frames)
  | (.due _, frames), .openList => some (.due true, .list [] :: frames)
  | (.due _, frames), .openObject => some (.key [] true, frames)
  | (.due true, .list [] :: frames), .closeList => some (.read (.list []), frames)
  | (.key before _, frames), .text name => some (.colon before name, frames)
  | (.key [] true, frames), .closeObject => some (.read (.object []), frames)
  | (.colon before name, frames), .colon => some (.due false, .object before name :: frames)
  | (.read v, .list before :: frames), .comma => some (.due false, .list (before ++ [v]) :: frames)
  | (.read v, .list before :: frames), .closeList => some (.read (.list (before ++ [v])), frames)
  | (.read v, .object before name :: frames), .comma =>
    some (.key (before ++ [(name, v)]) false, frames)
  | (.read v, .object before name :: frames), .closeObject =>
    some (.read (.object (before ++ [(name, v)])), frames)
  | _, _ => none

/-- The value that lexemes make, if they make one and no more. -/
def build (found : List Lexeme) : Option Value :=
  match found.foldlM Stage.step (.due false, []) with
  | some (.read v, []) => some v
  | _ => none

/-- The value of a text. -/
def parse (text : String) : Option Value := (lexemes text.toList .between).bind build

/-! ### The lexemes of a value -/

mutual

def Value.lexemes : Value → List Lexeme
  | .text s => [.text s]
  | .number n => [.number n]
  | .list [] => [.openList, .closeList]
  | .list (v :: rest) => .openList :: (v.lexemes ++ (elementLexemes rest ++ [.closeList]))
  | .object [] => [.openObject, .closeObject]
  | .object ((name, v) :: rest) =>
    .openObject :: .text name :: .colon :: (v.lexemes ++ (memberLexemes rest ++ [.closeObject]))

/-- The elements after the first. -/
def elementLexemes : List Value → List Lexeme
  | [] => []
  | v :: rest => .comma :: (v.lexemes ++ elementLexemes rest)

/-- The members after the first. -/
def memberLexemes : List (String × Value) → List Lexeme
  | [] => []
  | (name, v) :: rest => .comma :: .text name :: .colon :: (v.lexemes ++ memberLexemes rest)

end

section build
variable {opened : Bool} {frames : List Frame}

/-- A list begins wherever a value is due, also as the first element of another. -/
theorem Stage.step_openList :
    step (.due opened, frames) .openList = some (.due true, .list [] :: frames) := by
  cases opened <;> rfl

theorem Stage.step_openObject :
    step (.due opened, frames) .openObject = some (.key [] true, frames) := by
  cases opened <;> rfl

end build

mutual

/-- A value is put together from its lexemes. -/
theorem foldlM_lexemes : (v : Value) → (opened : Bool) → (frames : List Frame) →
    v.lexemes.foldlM Stage.step (.due opened, frames) = some (.read v, frames)
  | .text s, opened, frames => by cases opened <;> rfl
  | .number n, opened, frames => by cases opened <;> rfl
  | .list [], opened, frames => by cases opened <;> rfl
  | .list (v :: rest), opened, frames => by
    rw [Value.lexemes, List.foldlM_cons, Stage.step_openList]
    show (v.lexemes ++ _).foldlM Stage.step (.due true, .list [] :: frames) = _
    rw [List.foldlM_append, foldlM_lexemes v]
    exact foldlM_elementLexemes rest [] v frames
  | .object [], opened, frames => by cases opened <;> rfl
  | .object ((name, v) :: rest), opened, frames => by
    rw [Value.lexemes, List.foldlM_cons, Stage.step_openObject]
    show (v.lexemes ++ _).foldlM Stage.step (.due false, .object [] name :: frames) = _
    rw [List.foldlM_append, foldlM_lexemes v]
    exact foldlM_memberLexemes rest [] name v frames

theorem foldlM_elementLexemes : (rest before : List Value) → (v : Value) →
    (frames : List Frame) →
    (elementLexemes rest ++ [Lexeme.closeList]).foldlM Stage.step
        (.read v, .list before :: frames) =
      some (.read (.list (before ++ v :: rest)), frames)
  | [], before, v, frames => rfl
  | w :: rest, before, v, frames => by
    rw [elementLexemes, List.cons_append, List.foldlM_cons]
    show ((w.lexemes ++ _) ++ _).foldlM Stage.step (.due false, .list (before ++ [v]) :: frames) = _
    rw [List.append_assoc, List.foldlM_append, foldlM_lexemes w]
    have h := foldlM_elementLexemes rest (before ++ [v]) w frames
    rw [List.append_assoc] at h
    exact h

theorem foldlM_memberLexemes : (rest before : List (String × Value)) → (name : String) →
    (v : Value) → (frames : List Frame) →
    (memberLexemes rest ++ [Lexeme.closeObject]).foldlM Stage.step
        (.read v, .object before name :: frames) =
      some (.read (.object (before ++ (name, v) :: rest)), frames)
  | [], before, name, v, frames => rfl
  | (other, w) :: rest, before, name, v, frames => by
    rw [memberLexemes, List.cons_append, List.foldlM_cons]
    show ((w.lexemes ++ _) ++ _).foldlM Stage.step
      (.due false, .object (before ++ [(name, v)]) other :: frames) = _
    rw [List.append_assoc, List.foldlM_append, foldlM_lexemes w]
    have h := foldlM_memberLexemes rest (before ++ [(name, v)]) other w frames
    rw [List.append_assoc] at h
    exact h

end

theorem build_lexemes (v : Value) : build v.lexemes = some v := by
  rw [build, foldlM_lexemes]

/-! ### The lexemes of a written value -/

section scan
variable {c : Char} {rest read : List Char} {mode next : Mode}

/-- A character with which no lexeme ends. -/
theorem lexemes_of_quiet (h : mode.step c = some ([], next)) :
    lexemes (c :: rest) mode = lexemes rest next := by
  rw [lexemes, h, Option.bind_some]
  exact Option.map_id' ..

theorem lexemes_of_found {m : Lexeme} (h : mode.step c = some ([m], next)) :
    lexemes (c :: rest) mode = (lexemes rest next).map (m :: ·) := by
  rw [lexemes, h]
  rfl

/-- What comes next is no further digit. -/
def Ended (rest : List Char) : Prop := ∀ c ∈ rest.head?, c.isDigit = false

theorem ended_nil : Ended [] := by simp [Ended]

theorem ended_cons (h : c.isDigit = false) : Ended (c :: rest) := by simpa [Ended]

theorem step_of_isSpace (h : isSpace c) : Mode.step .between c = some ([], .between) := by
  simp only [isSpace, Bool.or_eq_true, decide_eq_true_eq] at h
  obtain ((rfl | rfl) | rfl) | rfl := h <;> rfl

theorem step_of_mark {m : Lexeme} (h : mark? c = some m) :
    Mode.step .between c = some ([m], .between) := by
  unfold mark? at h
  split at h <;> cases h
  all_goals rfl

theorem isDigit_of_isSpace (h : isSpace c) : c.isDigit = false := by
  simp only [isSpace, Bool.or_eq_true, decide_eq_true_eq] at h
  obtain ((rfl | rfl) | rfl) | rfl := h <;> rfl

theorem lexemes_mark {m : Lexeme} (h : mark? c = some m) :
    lexemes (c :: rest) .between = (lexemes rest .between).map (m :: ·) :=
  lexemes_of_found (step_of_mark h)

theorem lexemes_spaces : (spaces : List Char) → (∀ c ∈ spaces, isSpace c) →
    lexemes (spaces ++ rest) .between = lexemes rest .between
  | [], _ => rfl
  | c :: spaces, h => by
    have hc : isSpace c := h c (by simp)
    rw [List.cons_append, lexemes_of_quiet (step_of_isSpace hc)]
    exact lexemes_spaces spaces fun d hd => h d (by simp [hd])

theorem ended_spaces {spaces : List Char} (h : ∀ c ∈ spaces, isSpace c) (hrest : Ended rest) :
    Ended (spaces ++ rest) := by
  cases spaces with
  | nil => exact hrest
  | cons c spaces => exact ended_cons (isDigit_of_isSpace (h c (by simp)))

/-! #### Texts -/

theorem hexValue?_hexDigit {n : Nat} (h : n < 16) : hexValue? (hexDigit n) = some n := by
  revert n; decide

theorem step_code {value missing d : Nat} (h : hexValue? c = some d) (hmissing : missing ≠ 1) :
    Mode.step (.code read value missing) c =
      some ([], .code read (16 * value + d) (missing - 1)) := by
  rw [Mode.step, h, Option.bind_some, if_pos hmissing]

theorem step_code_last {value d : Nat} (h : hexValue? c = some d)
    (hvalid : (16 * value + d).isValidChar) :
    Mode.step (.code read value 1) c =
      some ([], .text (read ++ [Char.ofNat (16 * value + d)])) := by
  rw [Mode.step, h, Option.bind_some, if_neg (not_not_intro rfl), if_pos hvalid]

/-- A control character is written as the code that is read back. -/
theorem lexemes_code (h : c.toNat < 0x20) :
    lexemes ('\\' :: 'u' :: '0' :: '0' :: hexDigit (c.toNat / 16) :: hexDigit (c.toNat % 16) ::
      rest) (.text read) = lexemes rest (.text (read ++ [c])) := by
  have hzero : hexValue? '0' = some 0 := by decide
  have hhigh : hexValue? (hexDigit (c.toNat / 16)) = some (c.toNat / 16) :=
    hexValue?_hexDigit (by omega)
  have hlow : hexValue? (hexDigit (c.toNat % 16)) = some (c.toNat % 16) :=
    hexValue?_hexDigit (Nat.mod_lt _ (by decide))
  have hcode : 16 * (16 * (16 * (16 * 0 + 0) + 0) + c.toNat / 16) + c.toNat % 16 = c.toNat := by
    omega
  have hlast : Mode.step (.code read (16 * (16 * (16 * 0 + 0) + 0) + c.toNat / 16) 1)
      (hexDigit (c.toNat % 16)) = some ([], .text (read ++ [c])) := by
    have hvalid : c.toNat.isValidChar := c.valid
    rw [step_code_last hlow (by rwa [hcode]), hcode, Char.ofNat_toNat]
  have hback : Mode.step (.text read) '\\' = some ([], .escape read) := rfl
  have hletter : Mode.step (.escape read) 'u' = some ([], .code read 0 4) := rfl
  rw [lexemes_of_quiet hback, lexemes_of_quiet hletter,
    lexemes_of_quiet (step_code hzero (by decide)), lexemes_of_quiet (step_code hzero (by decide)),
    lexemes_of_quiet (step_code hhigh (by decide)), lexemes_of_quiet hlast]

/-- A letter behind a backslash stands for another character. -/
theorem lexemes_letter {d : Char} (hd : d ≠ 'u') (h : unescape? d = some c) :
    lexemes ('\\' :: d :: rest) (.text read) = lexemes rest (.text (read ++ [c])) := by
  have hstep : Mode.step (.escape read) d = some ([], .text (read ++ [c])) := by
    rw [Mode.step, if_neg hd, h]
    rfl
  exact (lexemes_of_quiet rfl).trans (lexemes_of_quiet hstep)

theorem lexemes_escape (c : Char) :
    lexemes (escape c ++ rest) (.text read) = lexemes rest (.text (read ++ [c])) := by
  unfold escape
  split
  case h_8 hquote hback _ _ _ _ _ =>
    split
    case isTrue hcontrol => exact lexemes_code hcontrol
    case isFalse hcontrol =>
      have hstep : Mode.step (.text read) c = some ([], .text (read ++ [c])) := by
        rw [Mode.step, if_neg hquote, if_neg hback, if_neg hcontrol]
      exact lexemes_of_quiet hstep
  all_goals exact lexemes_letter (by decide) rfl

theorem lexemes_flatMap_escape : (cs : List Char) → {read : List Char} →
    lexemes (cs.flatMap escape ++ rest) (.text read) = lexemes rest (.text (read ++ cs))
  | [], read => by simp
  | c :: cs, read => by
    rw [List.flatMap_cons, List.append_assoc, lexemes_escape, lexemes_flatMap_escape cs]
    simp

theorem lexemes_quote (s : String) :
    lexemes (quote s ++ rest) .between = (lexemes rest .between).map (.text s :: ·) := by
  have hclose : Mode.step (.text s.toList) '"' = some ([.text s], .between) := by
    rw [Mode.step, if_pos rfl, String.ofList_toList]
  have hwritten : quote s ++ rest = '"' :: (s.toList.flatMap escape ++ '"' :: rest) := by
    simp [quote]
  rw [hwritten]
  calc lexemes ('"' :: (s.toList.flatMap escape ++ '"' :: rest)) .between
    _ = lexemes (s.toList.flatMap escape ++ '"' :: rest) (.text []) := lexemes_of_quiet rfl
    _ = lexemes ('"' :: rest) (.text s.toList) := lexemes_flatMap_escape s.toList
    _ = (lexemes rest .between).map (.text s :: ·) := lexemes_of_found hclose

/-! #### Numbers -/

theorem lexemes_digits : (digits written : List Char) → (∀ c ∈ digits, c.isDigit) →
    lexemes (digits ++ rest) (.number written) = lexemes rest (.number (written ++ digits))
  | [], written, _ => by simp
  | c :: digits, written, h => by
    have hc : c.isDigit := h c (by simp)
    have hstep : Mode.step (.number written) c = some ([], .number (written ++ [c])) := by
      rw [Mode.step, if_pos hc]
    rw [List.cons_append, lexemes_of_quiet hstep,
      lexemes_digits digits (written ++ [c]) fun d hd => h d (by simp [hd]), List.append_assoc]
    rfl

/-- A number ends where something else begins. -/
theorem lexemes_number {written : List Char} {n : Int} (hn : numeral? written = some n)
    (hrest : Ended rest) :
    lexemes rest (.number written) = (lexemes rest .between).map (.number n :: ·) := by
  cases rest with
  | nil => simp [lexemes, Mode.finish, hn]
  | cons c rest =>
    have hc : c.isDigit = false := hrest c rfl
    cases hb : Mode.begin c with
    | none => simp [lexemes, Mode.step, hc, hn, hb]
    | some begun => simp [lexemes, Mode.step, hc, hn, hb, Function.comp_def]

/-- A number begins with its sign or with a digit. -/
theorem lexemes_begin (h : c.isDigit ∨ c = '-') :
    lexemes (c :: rest) .between = lexemes rest (.number [c]) :=
  lexemes_of_quiet (if_pos h)

theorem numeral?_digits {digits : List Char} (hne : digits ≠ []) (h : ∀ c ∈ digits, c.isDigit) :
    numeral? digits = some (Nat.ofDigitChars 10 digits 0 : Int) ∧
      numeral? ('-' :: digits) = some (-(Nat.ofDigitChars 10 digits 0 : Int)) := by
  cases digits with
  | nil => exact absurd rfl hne
  | cons c digits =>
    have hc : c ≠ '-' := by
      rintro rfl
      exact absurd (h '-' (by simp)) (by decide)
    constructor
    · unfold numeral?
      split <;> simp_all
    · rfl

theorem toList_repr (n : Nat) : n.repr.toList = Nat.toDigits 10 n := by
  rw [Nat.repr_eq_ofList_toDigits, String.toList_ofList]

theorem lexemes_repr (n : Int) (hrest : Ended rest) :
    lexemes (n.repr.toList ++ rest) .between = (lexemes rest .between).map (.number n :: ·) := by
  have hdigits (m : Nat) : ∀ c ∈ Nat.toDigits 10 m, c.isDigit := fun c hc =>
    Nat.isDigit_of_mem_toDigits (by decide) (by decide) hc
  cases n with
  | ofNat m =>
    obtain ⟨hplain, -⟩ := numeral?_digits Nat.toDigits_ne_nil (hdigits m)
    rw [Nat.ofDigitChars_ten_toDigits] at hplain
    have hwritten : (Int.ofNat m).repr.toList = Nat.toDigits 10 m := toList_repr m
    rw [hwritten]
    cases hd : Nat.toDigits 10 m with
    | nil => exact absurd hd Nat.toDigits_ne_nil
    | cons c digits =>
      rw [hd] at hplain
      have hinside := hd ▸ hdigits m
      rw [List.cons_append, lexemes_begin (.inl (hinside c (by simp))),
        lexemes_digits digits [c] fun d hmem => hinside d (by simp [hmem])]
      exact lexemes_number hplain hrest
  | negSucc m =>
    obtain ⟨-, hsigned⟩ := numeral?_digits Nat.toDigits_ne_nil (hdigits (m + 1))
    rw [Nat.ofDigitChars_ten_toDigits] at hsigned
    have hwritten : (Int.negSucc m).repr.toList = '-' :: Nat.toDigits 10 (m + 1) := by
      rw [← toList_repr]
      exact String.toList_append ..
    rw [hwritten, List.cons_append, lexemes_begin (.inr rfl),
      lexemes_digits _ ['-'] (hdigits (m + 1))]
    exact lexemes_number hsigned hrest

/-! #### Layouts -/

/-- Breaks are white space, and so is what follows the colon after a name. -/
structure Layout.Spaced (l : Layout) : Prop where
  lineBreak : ∀ depth, ∀ c ∈ l.lineBreak depth, isSpace c
  colon : ∃ spaces, l.colon = ':' :: spaces ∧ ∀ c ∈ spaces, isSpace c

theorem spaced_compact : Layout.compact.Spaced where
  lineBreak _ c hc := absurd hc List.not_mem_nil
  colon := ⟨[], rfl, by simp⟩

theorem spaced_indented : Layout.indented.Spaced where
  lineBreak depth c hc := by
    obtain rfl | hc := List.mem_cons.mp hc
    · rfl
    · rw [List.eq_of_mem_replicate hc]
      rfl
  colon := ⟨[' '], rfl, by simp [isSpace]⟩

variable {l : Layout}

theorem Layout.Spaced.lexemes_colon (hl : l.Spaced) :
    lexemes (l.colon ++ rest) .between = (lexemes rest .between).map (.colon :: ·) := by
  obtain ⟨spaces, hcolon, hspaces⟩ := hl.colon
  rw [hcolon, List.cons_append, lexemes_mark rfl, lexemes_spaces spaces hspaces]

theorem ended_elements (l : Layout) (depth : Nat) (vs : List Value) (hrest : Ended rest) :
    Ended (writeElements l depth vs ++ rest) := by
  cases vs with
  | nil => exact hrest
  | cons v vs => exact ended_cons rfl

theorem ended_members (l : Layout) (depth : Nat) (members : List (String × Value))
    (hrest : Ended rest) : Ended (writeMembers l depth members ++ rest) := by
  cases members with
  | nil => exact hrest
  | cons m members => exact ended_cons rfl

mutual

/-- Whatever the layout, what is written has the lexemes of the value. A number ends only
where no digit follows it. -/
theorem lexemes_write (hl : l.Spaced) : (v : Value) → (depth : Nat) → {rest : List Char} →
    Ended rest →
    lexemes (v.write l depth ++ rest) .between = (lexemes rest .between).map (v.lexemes ++ ·)
  | .text s, _, rest, _ => lexemes_quote s
  | .number n, _, rest, hrest => lexemes_repr n hrest
  | .list [], _, rest, _ => by
    simp [Value.write, Value.lexemes, lexemes_mark, mark?, Function.comp_def]
  | .list (v :: vs), depth, rest, hrest => by
    have hend : Ended (l.lineBreak depth ++ ']' :: rest) :=
      ended_spaces (hl.lineBreak depth) (ended_cons rfl)
    have hv := lexemes_write hl v (depth + 1) (ended_elements l (depth + 1) vs hend)
    have hvs := lexemes_writeElements hl vs (depth + 1) hend
    simp only [Value.write, List.append_assoc, List.cons_append, List.nil_append]
    rw [lexemes_mark rfl, lexemes_spaces _ (hl.lineBreak _), hv, hvs,
      lexemes_spaces _ (hl.lineBreak _), lexemes_mark rfl]
    simp [Value.lexemes, Function.comp_def]
  | .object [], _, rest, _ => by
    simp [Value.write, Value.lexemes, lexemes_mark, mark?, Function.comp_def]
  | .object ((name, v) :: members), depth, rest, hrest => by
    have hend : Ended (l.lineBreak depth ++ '\x7d' :: rest) :=
      ended_spaces (hl.lineBreak depth) (ended_cons rfl)
    have hv := lexemes_write hl v (depth + 1) (ended_members l (depth + 1) members hend)
    have hmembers := lexemes_writeMembers hl members (depth + 1) hend
    simp only [Value.write, List.append_assoc, List.cons_append, List.nil_append]
    rw [lexemes_mark rfl, lexemes_spaces _ (hl.lineBreak _), lexemes_quote, hl.lexemes_colon, hv,
      hmembers, lexemes_spaces _ (hl.lineBreak _), lexemes_mark rfl]
    simp [Value.lexemes, Function.comp_def]

theorem lexemes_writeElements (hl : l.Spaced) : (vs : List Value) → (depth : Nat) →
    {rest : List Char} → Ended rest →
    lexemes (writeElements l depth vs ++ rest) .between =
      (lexemes rest .between).map (elementLexemes vs ++ ·)
  | [], _, rest, _ => by simp [writeElements, elementLexemes]
  | v :: vs, depth, rest, hrest => by
    have hv := lexemes_write hl v depth (ended_elements l depth vs hrest)
    have hvs := lexemes_writeElements hl vs depth hrest
    simp only [writeElements, List.append_assoc, List.cons_append]
    rw [lexemes_mark rfl, lexemes_spaces _ (hl.lineBreak _), hv, hvs]
    simp [elementLexemes, Function.comp_def]

theorem lexemes_writeMembers (hl : l.Spaced) : (members : List (String × Value)) →
    (depth : Nat) → {rest : List Char} → Ended rest →
    lexemes (writeMembers l depth members ++ rest) .between =
      (lexemes rest .between).map (memberLexemes members ++ ·)
  | [], _, rest, _ => by simp [writeMembers, memberLexemes]
  | (name, v) :: members, depth, rest, hrest => by
    have hv := lexemes_write hl v depth (ended_members l depth members hrest)
    have hmembers := lexemes_writeMembers hl members depth hrest
    simp only [writeMembers, List.append_assoc, List.cons_append]
    rw [lexemes_mark rfl, lexemes_spaces _ (hl.lineBreak _), lexemes_quote, hl.lexemes_colon, hv,
      hmembers]
    simp [memberLexemes, Function.comp_def]

end

/-- The value of a text is the one that was written, in every layout. -/
theorem parse_render (hl : l.Spaced) (v : Value) : parse (v.render l) = some v := by
  have hscan : lexemes (v.write l 0) .between = some v.lexemes := by
    have h := lexemes_write hl v 0 ended_nil
    rw [List.append_nil] at h
    simpa [lexemes, Mode.finish] using h
  rw [parse, Value.render, String.toList_ofList, hscan]
  exact build_lexemes v

example : (Value.list [.number (-1), .list [], .text "\t"]).render .indented =
    "[\n  -1,\n  [],\n  \"\\t\"\n]" := by decide +kernel

end scan
end PathFilter.Json
